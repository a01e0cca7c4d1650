import Mathlib.Tactic.Common
import TaggedMarkup.Source.Edit

/-!
# Edits as a splice

Edits that keep apart can be applied at once: the result is made of the parts of the source between
them and of their texts, in the order of their places (`splice`). The compiler applies edits one by
one, from the last start to the first, each in its place in one text (`applyRange?_eq_replace`).
`applyRange?_spliced` says that this is the same, if no edit cuts a character and of two edits with
one start the second recorded inserts.
-/

namespace TaggedMarkup

namespace Text

/-- An offset between two characters of a text, or at one of its ends. -/
def IsCut (source : List Char) (n : Nat) : Prop := (cut? n source).isSome = true

instance (source : List Char) (n : Nat) : Decidable (IsCut source n) :=
  inferInstanceAs (Decidable (_ = true))

/-- The size of two texts is that of both together. -/
lemma byteSize_append (before after : List Char) :
    byteSize (before ++ after) = byteSize before + byteSize after := by
  induction before with
  | nil => simp [byteSize]
  | cons c before ih => simp [byteSize, ih, Nat.add_assoc]

/-- A cut behind a part of a text cuts the rest. -/
lemma cut?_append_add (before text : List Char) (n : Nat) :
    cut? (byteSize before + n) (before ++ text) =
      (cut? n text).map fun parts => (before ++ parts.1, parts.2) := by
  induction before with
  | nil => simp [byteSize]
  | cons c before ih =>
    obtain ⟨k, size⟩ : ∃ k, byteSize (c :: before) + n = k + 1 :=
      Nat.exists_eq_succ_of_ne_zero (by have := c.utf8Size_pos; simp only [byteSize]; omega)
    have rest : k + 1 - c.utf8Size = byteSize before + n := by simp only [byteSize] at size; omega
    have fits : c.utf8Size ≤ k + 1 := by simp only [byteSize] at size; omega
    rw [size, List.cons_append, cut?, if_pos fits, rest, ih, Option.map_map]
    rfl

/-- A text is cut behind a part of it. -/
lemma cut?_append (before after : List Char) :
    cut? (byteSize before) (before ++ after) = some (before, after) := by
  have cut := cut?_append_add before after 0
  simpa [cut?] using cut

/-- A cut inside a part of a text cuts that part. -/
lemma cut?_append_of_le {n : Nat} {text : List Char} (after : List Char) (le : n ≤ byteSize text) :
    cut? n (text ++ after) = (cut? n text).map fun parts => (parts.1, parts.2 ++ after) := by
  induction text generalizing n with
  | nil =>
    obtain rfl := Nat.le_zero.1 le
    simp [cut?]
  | cons c text ih =>
    cases n with
    | zero => simp [cut?]
    | succ n =>
      rw [List.cons_append, cut?, cut?]
      split
      · rw [ih (by rw [byteSize] at le; omega), Option.map_map, Option.map_map]
        rfl
      · rfl

/-- The two parts of a cut make up the text, and the first has the size asked for. -/
lemma eq_append_of_cut? {n : Nat} {source before after : List Char}
    (cut : cut? n source = some (before, after)) :
    source = before ++ after ∧ byteSize before = n := by
  induction source generalizing n before with
  | nil =>
    cases n with
    | zero =>
      cases cut
      exact ⟨rfl, rfl⟩
    | succ n => cases cut
  | cons c source ih =>
    cases n with
    | zero =>
      cases cut
      exact ⟨rfl, rfl⟩
    | succ n =>
      rw [cut?] at cut
      split at cut
      · rename_i fits
        obtain ⟨⟨rest, after'⟩, cut, eq⟩ := Option.map_eq_some_iff.1 cut
        cases eq
        obtain ⟨rfl, size⟩ := ih cut
        refine ⟨rfl, ?_⟩
        simp only [byteSize, size]
        omega
      · cases cut

/-- The start of a source is a cut. -/
lemma isCut_zero (source : List Char) : IsCut source 0 := by simp [IsCut, cut?]

/-- The end of a source is a cut. -/
lemma isCut_byteSize (source : List Char) : IsCut source (byteSize source) := by
  have cut := cut?_append source []
  rw [List.append_nil] at cut
  rw [IsCut, cut, Option.isSome_some]

/-- No cut is behind the end. -/
lemma IsCut.le_byteSize {source : List Char} {n : Nat} (cut : IsCut source n) :
    n ≤ byteSize source := by
  obtain ⟨⟨before, after⟩, eq⟩ := Option.isSome_iff_exists.1 cut
  obtain ⟨rfl, rfl⟩ := eq_append_of_cut? eq
  rw [byteSize_append]
  omega

/-- The part between two others. -/
lemma slice?_append (before middle after : List Char) :
    slice? (byteSize before) (byteSize before + byteSize middle) (before ++ (middle ++ after)) =
      some middle := by
  simp [slice?, guard, cut?_append]

/-- Two cuts divide a text into three parts. -/
lemma exists_parts {source : List Char} {start stop : Nat} (le : start ≤ stop)
    (first : IsCut source start) (last : IsCut source stop) :
    ∃ before middle after, source = before ++ (middle ++ after) ∧ start = byteSize before ∧
      stop = byteSize before + byteSize middle := by
  obtain ⟨⟨before, rest⟩, eq⟩ := Option.isSome_iff_exists.1 first
  obtain ⟨⟨upTo, after⟩, eq'⟩ := Option.isSome_iff_exists.1 last
  obtain ⟨rfl, rfl⟩ := eq_append_of_cut? eq
  obtain ⟨same, rfl⟩ := eq_append_of_cut? eq'
  obtain ⟨middle, rfl, rfl⟩ | ⟨extra, rfl, rfl⟩ := List.append_eq_append_iff.1 same
  · exact ⟨before, middle, after, rfl, rfl, byteSize_append ..⟩
  · -- The cuts are the same, since the part before the second is no longer.
    rw [byteSize_append] at le
    refine ⟨upTo ++ extra, [], rest, rfl, rfl, ?_⟩
    rw [byteSize_append, byteSize]
    omega

/-- There is a part between two cuts. -/
lemma slice?_of_isCut {source : List Char} {start stop : Nat} (le : start ≤ stop)
    (first : IsCut source start) (last : IsCut source stop) :
    ∃ middle, slice? start stop source = some middle := by
  obtain ⟨before, middle, after, rfl, rfl, rfl⟩ := exists_parts le first last
  exact ⟨middle, slice?_append before middle after⟩

/-- A part of a text stands between two cuts. -/
lemma isCut_of_slice? {source middle : List Char} {start stop : Nat}
    (found : slice? start stop source = some middle) :
    start ≤ stop ∧ IsCut source start ∧ IsCut source stop := by
  by_cases le : start ≤ stop
  · obtain ⟨⟨before, rest⟩, cut, found⟩ : ∃ parts, cut? start source = some parts ∧
        (cut? (stop - start) parts.2).map Prod.fst = some middle := by
      simpa [slice?, guard, le, Option.bind_eq_some_iff] using found
    obtain ⟨⟨part, after⟩, cut', -⟩ := Option.map_eq_some_iff.1 found
    obtain ⟨rfl, rfl⟩ := eq_append_of_cut? cut
    have whole := cut?_append_add before rest (stop - byteSize before)
    rw [Nat.add_sub_cancel' le, cut'] at whole
    exact ⟨le, Option.isSome_of_eq_some cut, Option.isSome_of_eq_some whole⟩
  · simp [slice?, guard, le] at found

end Text

namespace Source

open Text (IsCut slice? slice?_of_isCut)

/-- One of two edits ends in front of the other. -/
def Edit.Apart (a b : Edit) : Prop := a.stop ≤ b.start ∨ b.stop ≤ a.start

instance (a b : Edit) : Decidable (a.Apart b) := inferInstanceAs (Decidable (_ ∨ _))

/-- Edits are apart from each other. -/
lemma Edit.Apart.symm {a b : Edit} (apart : a.Apart b) : b.Apart a := Or.symm apart

/-- Two edits can be applied together if the first is recorded before the second: they keep apart,
and if they start at one offset the second inserts. -/
structure Edit.Agrees (first second : Edit) : Prop where
  apart : first.Apart second
  inserts : first.start = second.start → second.start = second.stop

/-- Replacements that keep apart agree, since they do not start together. -/
lemma Edit.Apart.agrees {a b : Edit} (apart : a.Apart b) (first : a.start < a.stop)
    (second : b.start < b.stop) : a.Agrees b := by
  refine ⟨apart, fun same => ?_⟩
  rcases apart with apart | apart <;> omega

/-- An edit of a source: it ends no earlier than it starts, and cuts no character. -/
structure Edit.Fits (source : List Char) (e : Edit) : Prop where
  ordered : e.start ≤ e.stop
  cutStart : IsCut source e.start
  cutStop : IsCut source e.stop

/-- The part of a source between two offsets with edits in the order of their places applied at
once. -/
def splice (source : List Char) (start stop : Nat) : List Edit → String
  | [] => Text.slice start stop source
  | e :: es => Text.slice start e.start source ++ e.text ++ splice source e.stop stop es

/-- The last edit of a splice. -/
lemma splice_concat (source : List Char) (start stop : Nat) (es : List Edit) (e : Edit) :
    splice source start stop (es ++ [e]) =
      splice source start e.start es ++ (e.text ++ Text.slice e.stop stop source) := by
  induction es generalizing start with
  | nil => simp [splice, String.append_assoc]
  | cons first es ih => simp [splice, ih, String.append_assoc]

/-- If a splice leaves the source as it is, then what stands in front of the end of its last edit
ends with the text of the edit. -/
lemma front_of_splice_eq {source : List Char} {es : List Edit} {e : Edit}
    (last : IsCut source e.stop)
    (same : splice source 0 (Text.byteSize source) (es ++ [e]) = String.ofList source) :
    ∃ before after, Text.cut? e.stop source = some (before ++ e.text.toList, after) := by
  obtain ⟨⟨front, after⟩, cut⟩ := Option.isSome_iff_exists.1 last
  obtain ⟨rfl, size⟩ := Text.eq_append_of_cut? cut
  have behind : Text.slice e.stop (Text.byteSize (front ++ after)) (front ++ after) =
      String.ofList after := by
    have middle := Text.slice?_append front after []
    rw [List.append_nil] at middle
    rw [Text.slice, ← size, Text.byteSize_append, middle]
    rfl
  rw [splice_concat, behind] at same
  have chars := congrArg String.toList same
  rw [String.toList_append, String.toList_append, String.toList_ofList, String.toList_ofList,
    ← List.append_assoc] at chars
  exact ⟨_, after, by rw [cut, List.append_cancel_right chars]⟩

/-! ## The order of application -/

/-- An edit that is inserted is added. -/
lemma insertInOrder_perm (e : Edit) (es : List Edit) : (insertInOrder e es).Perm (e :: es) := by
  induction es with
  | nil => exact .refl _
  | cons x es ih =>
    rw [insertInOrder]
    split
    · exact .refl _
    · exact (ih.cons x).trans (.swap e x es)

/-- The order of edits keeps all of them. -/
lemma inOrder_perm (es : List Edit) : (inOrder es).Perm es := by
  induction es with
  | nil => exact .refl _
  | cons e es ih => exact (insertInOrder_perm e (inOrder es)).trans (ih.cons e)

/-- No edit starts behind one that is applied before it. -/
lemma inOrder_starts (es : List Edit) : (inOrder es).Pairwise fun a b => b.start ≤ a.start := by
  have inserted (e : Edit) (es : List Edit) (order : es.Pairwise fun a b => b.start ≤ a.start) :
      (insertInOrder e es).Pairwise fun a b => b.start ≤ a.start := by
    induction es with
    | nil => exact List.pairwise_singleton _ _
    | cons x es ih =>
      obtain ⟨later, rest⟩ := List.pairwise_cons.1 order
      rw [insertInOrder]
      split
      · rename_i le
        refine List.pairwise_cons.2 ⟨List.forall_mem_cons.2 ⟨le, fun y mem => ?_⟩, order⟩
        exact Nat.le_trans (later y mem) le
      · rename_i lt
        refine List.pairwise_cons.2 ⟨fun y mem => ?_, ih rest⟩
        rcases List.mem_cons.1 ((insertInOrder_perm e es).mem_iff.1 mem) with rfl | mem
        · omega
        · exact later y mem
  induction es with
  | nil => exact .nil
  | cons e es ih => exact inserted e _ ih

/-- To insert an edit among others that it agrees with keeps each in front of those applied before
it. -/
lemma insertInOrder_chain {e : Edit} {es : List Edit} (ordered : ∀ x ∈ e :: es, x.start ≤ x.stop)
    (agrees : ∀ x ∈ es, e.Agrees x) (chain : es.Pairwise fun a b => b.stop ≤ a.start) :
    (insertInOrder e es).Pairwise fun a b => b.stop ≤ a.start := by
  have orderedE := ordered e List.mem_cons_self
  induction es with
  | nil => exact List.pairwise_singleton _ _
  | cons x es ih =>
    obtain ⟨behind, chain⟩ := List.pairwise_cons.1 chain
    have orderedX := ordered x (by simp)
    obtain ⟨apart, inserts⟩ := agrees x List.mem_cons_self
    rw [insertInOrder]
    split
    · rename_i le
      have first : x.stop ≤ e.start := by
        rcases apart with apart | apart
        · -- Then `e` inserts at the start of `x`, and `x` inserts there too.
          have := inserts (by omega)
          omega
        · exact apart
      refine List.pairwise_cons.2 ⟨?_, List.pairwise_cons.2 ⟨behind, chain⟩⟩
      intro y mem
      rcases List.mem_cons.1 mem with rfl | mem
      · exact first
      · exact Nat.le_trans (behind y mem) le
    · rename_i lt
      have rest : ∀ y ∈ e :: es, y.start ≤ y.stop := fun y mem =>
        ordered y (by rcases List.mem_cons.1 mem with rfl | mem <;> simp [*])
      refine List.pairwise_cons.2
        ⟨?_, ih rest (fun y mem => agrees y (List.mem_cons_of_mem x mem)) chain⟩
      intro y mem
      rcases List.mem_cons.1 ((insertInOrder_perm e es).mem_iff.1 mem) with rfl | mem
      · rcases apart with apart | apart
        · exact apart
        · omega
      · exact behind y mem

/-- Edits that agree are applied each in front of those applied before it. -/
lemma inOrder_chain {es : List Edit} (ordered : ∀ e ∈ es, e.start ≤ e.stop)
    (agree : es.Pairwise Edit.Agrees) : (inOrder es).Pairwise fun a b => b.stop ≤ a.start := by
  induction es with
  | nil => exact .nil
  | cons e es ih =>
    obtain ⟨agrees, agree⟩ := List.pairwise_cons.1 agree
    have mem {x : Edit} : x ∈ inOrder es ↔ x ∈ es := (inOrder_perm es).mem_iff
    refine insertInOrder_chain ?_ (fun x m => agrees x (mem.1 m))
      (ih (fun x m => ordered x (List.mem_cons_of_mem e m)) agree)
    intro x m
    rcases List.mem_cons.1 m with rfl | m
    · exact ordered x List.mem_cons_self
    · exact ordered x (List.mem_cons_of_mem e (mem.1 m))

/-! ## One edit after the other -/

namespace Progress

/-- What follows an offset up to which the source still stands. -/
lemma from?_eq {source : List Char} {p : Progress} {offset : Nat} (le : offset ≤ p.upTo)
    (first : IsCut source offset) (last : IsCut source p.upTo) :
    p.from? source offset = some (Text.slice offset p.upTo source ++ p.behind) := by
  obtain ⟨middle, eq⟩ := slice?_of_isCut le first last
  simp [from?, le, Text.slice, eq]

/-- An edit in front of all that has been done. -/
lemma step?_eq {source : List Char} {p : Progress} {e : Edit} (fits : e.Fits source)
    (le : e.stop ≤ p.upTo) (last : IsCut source p.upTo) :
    p.step? source e =
      some ⟨e.start, e.text ++ (Text.slice e.stop p.upTo source ++ p.behind)⟩ := by
  obtain ⟨cut, eq⟩ := Option.isSome_iff_exists.1 fits.cutStart
  rw [step?, if_pos fits.ordered, eq, from?_eq le fits.cutStop last]
  rfl

/-- Edits each in front of those before it give the splice of all of them. -/
lemma steps_eq {source : List Char} {start upTo : Nat} {es : List Edit} (behind : String)
    (first : IsCut source start) (last : IsCut source upTo) (le : start ≤ upTo)
    (fits : ∀ e ∈ es, e.Fits source) (within : ∀ e ∈ es, start ≤ e.start ∧ e.stop ≤ upTo)
    (chain : es.Pairwise fun a b => b.stop ≤ a.start) :
    ((es.foldlM (step? source) ⟨upTo, behind⟩).bind fun p => p.from? source start) =
      some (splice source start upTo es.reverse ++ behind) := by
  induction es generalizing upTo behind with
  | nil => exact from?_eq le first last
  | cons e es ih =>
    obtain ⟨after, chain⟩ := List.pairwise_cons.1 chain
    obtain ⟨startLe, stopLe⟩ := within e List.mem_cons_self
    have fitsE := fits e List.mem_cons_self
    have rest := ih (e.text ++ (Text.slice e.stop upTo source ++ behind)) fitsE.cutStart startLe
      (fun x mem => fits x (List.mem_cons_of_mem e mem))
      (fun x mem => ⟨(within x (List.mem_cons_of_mem e mem)).1, after x mem⟩) chain
    rw [List.foldlM_cons, step?_eq fitsE stopLe last, List.reverse_cons, splice_concat]
    simpa only [Option.bind_eq_bind, Option.bind_some, String.append_assoc] using rest

end Progress

/-- Edits that agree are applied as a splice of those that lie between the two offsets. -/
lemma applyRange?_eq_splice {source : List Char} {start stop : Nat} {edits : List Edit}
    (le : start ≤ stop) (first : IsCut source start) (last : IsCut source stop)
    (fits : ∀ e ∈ edits, e.Fits source) (agree : edits.Pairwise Edit.Agrees) :
    (inOrder (edits.filter (·.within start stop))).reverse.Pairwise (fun a b => a.stop ≤ b.start) ∧
      applyRange? source start stop edits =
        some (splice source start stop (inOrder (edits.filter (·.within start stop))).reverse) := by
  obtain ⟨middle, eq⟩ := slice?_of_isCut le first last
  set chosen := edits.filter (·.within start stop) with chosen_def
  have mem {e : Edit} : e ∈ inOrder chosen ↔ e ∈ edits ∧ start ≤ e.start ∧ e.stop ≤ stop := by
    rw [(inOrder_perm chosen).mem_iff, chosen_def, List.mem_filter]
    simp [Edit.within]
  have chain : (inOrder chosen).Pairwise fun a b => b.stop ≤ a.start :=
    inOrder_chain (fun e m => (fits e (List.mem_filter.1 m).1).ordered)
      (agree.sublist List.filter_sublist)
  refine ⟨List.pairwise_reverse.2 chain, ?_⟩
  have steps := Progress.steps_eq "" first last le (fun e m => fits e (mem.1 m).1)
    (fun e m => (mem.1 m).2) chain
  rw [applyRange?, eq, Option.bind_some, ← chosen_def, steps, String.append_empty]

/-- The same, where only the order of places is told. -/
lemma applyRange?_spliced {source : List Char} {start stop : Nat} {edits : List Edit}
    (le : start ≤ stop) (first : IsCut source start) (last : IsCut source stop)
    (fits : ∀ e ∈ edits, e.Fits source) (agree : edits.Pairwise Edit.Agrees) :
    ∃ ordered, ordered.Perm (edits.filter (·.within start stop)) ∧
      ordered.Pairwise (fun a b => a.stop ≤ b.start) ∧
      applyRange? source start stop edits = some (splice source start stop ordered) := by
  obtain ⟨chain, eq⟩ := applyRange?_eq_splice le first last fits agree
  exact ⟨_, (List.reverse_perm _).trans (inOrder_perm _), chain, eq⟩

/-! ## Edits in place -/

/-- Puts the text of an edit in its place in a text that starts at an offset of the source. There is
none if a cut falls inside a character or outside the text, or if the start lies behind the end. -/
def Edit.replace? (offset : Nat) (text : String) (e : Edit) : Option String :=
  if e.start ≤ e.stop then
    (Text.cut? (e.start - offset) text.toList).bind fun front =>
      (Text.cut? (e.stop - offset) text.toList).map fun back =>
        String.ofList front.1 ++ e.text ++ String.ofList back.2
  else none

namespace Progress

/-- The text that is being edited, from an offset on. -/
def text (source : List Char) (offset : Nat) (p : Progress) : String :=
  Text.slice offset p.upTo source ++ p.behind

section

variable {before middle after : List Char} {p : Progress}

/-- What has been edited so far, where the source is cut at its start and at the offset up to which
it still stands. -/
lemma text_eq (upTo : p.upTo = Text.byteSize before + Text.byteSize middle) :
    p.text (before ++ (middle ++ after)) (Text.byteSize before) =
      String.ofList middle ++ p.behind := by
  rw [text, upTo, Text.slice, Text.slice?_append]
  rfl

/-- What follows an offset is what follows it in the text that is being edited. -/
lemma from?_eq_cut (upTo : p.upTo = Text.byteSize before + Text.byteSize middle) (n : Nat) :
    p.from? (before ++ (middle ++ after)) (Text.byteSize before + n) =
      (Text.cut? n (middle ++ p.behind.toList)).map fun parts => String.ofList parts.2 := by
  rw [from?, upTo]
  by_cases le : n ≤ Text.byteSize middle
  · rw [if_pos (Nat.add_le_add_left le _), Text.cut?_append_of_le _ le]
    cases cut : Text.cut? n middle with
    | none =>
      have none : Text.slice? (Text.byteSize before + n)
          (Text.byteSize before + Text.byteSize middle) (before ++ (middle ++ after)) = none := by
        simp [Text.slice?, guard, le, Text.cut?_append_add, Text.cut?_append_of_le _ le, cut]
      rw [none]
      rfl
    | some parts =>
      obtain ⟨left, right⟩ := parts
      obtain ⟨rfl, rfl⟩ := Text.eq_append_of_cut? cut
      have found := Text.slice?_append (before ++ left) right after
      simp only [Text.byteSize_append, List.append_assoc, Nat.add_assoc] at found ⊢
      rw [found]
      simp
  · -- The offset lies in what has taken the place of the source.
    obtain ⟨k, rfl⟩ := Nat.exists_eq_add_of_le (Nat.le_of_not_le le)
    have some : k ≠ 0 := by omega
    have rest : Text.byteSize before + (Text.byteSize middle + k) -
        (Text.byteSize before + Text.byteSize middle) = k := by omega
    rw [if_neg (by omega), rest, dropBytes?, if_neg some, Text.cut?_append_add, Option.map_map]
    rfl

/-- A step puts the text of an edit in its place in the text that is being edited. -/
lemma step?_eq_replace (after : List Char) {e : Edit}
    (upTo : p.upTo = Text.byteSize before + Text.byteSize middle)
    (first : Text.byteSize before ≤ e.start) (last : e.start ≤ e.stop → e.start ≤ p.upTo) :
    ((p.step? (before ++ (middle ++ after)) e).map fun q =>
        q.text (before ++ (middle ++ after)) (Text.byteSize before)) =
      e.replace? (Text.byteSize before)
        (p.text (before ++ (middle ++ after)) (Text.byteSize before)) := by
  obtain ⟨n, start⟩ := Nat.exists_eq_add_of_le first
  rw [step?, Edit.replace?]
  by_cases ordered : e.start ≤ e.stop
  · have le : n ≤ Text.byteSize middle := by
      have := last ordered
      omega
    obtain ⟨m, stop⟩ := Nat.exists_eq_add_of_le (Nat.le_trans first ordered)
    rw [if_pos ordered, if_pos ordered, text_eq upTo, String.toList_append, String.toList_ofList,
      start, stop, from?_eq_cut upTo, Text.cut?_append_add, Text.cut?_append_of_le _ le,
      Nat.add_sub_cancel_left, Nat.add_sub_cancel_left, Text.cut?_append_of_le _ le]
    cases cut : Text.cut? n middle with
    | none => rfl
    | some parts =>
      obtain ⟨left, right⟩ := parts
      obtain ⟨rfl, rfl⟩ := Text.eq_append_of_cut? cut
      simp only [Option.map_some, Option.bind_some, Option.map_map, List.append_assoc]
      refine congrArg (Option.map · _) (funext fun back => ?_)
      exact (text_eq rfl).trans (String.append_assoc ..).symm
  · rw [if_neg ordered, if_neg ordered]
    rfl

end

/-- Behind a step the source stands up to the start of the edit. -/
lemma upTo_of_step? {source : List Char} {p q : Progress} {e : Edit}
    (done : p.step? source e = some q) : q.upTo = e.start ∧ IsCut source e.start := by
  rw [step?] at done
  split at done
  · obtain ⟨parts, cut, done⟩ := Option.bind_eq_some_iff.1 done
    obtain ⟨rest, -, rfl⟩ := Option.map_eq_some_iff.1 done
    exact ⟨rfl, Option.isSome_of_eq_some cut⟩
  · cases done

/-- Edits that are applied one by one, each starting no later than those before it, are put in their
places one by one in one text. -/
lemma steps_eq_replace {source : List Char} {start upTo : Nat} {es : List Edit} (behind : String)
    (first : IsCut source start) (last : IsCut source upTo) (le : start ≤ upTo)
    (within : ∀ e ∈ es, start ≤ e.start ∧ (e.start ≤ e.stop → e.start ≤ upTo))
    (order : es.Pairwise fun a b => b.start ≤ a.start) :
    ((es.foldlM (step? source) ⟨upTo, behind⟩).bind fun p => p.from? source start) =
      es.foldlM (Edit.replace? start) ((⟨upTo, behind⟩ : Progress).text source start) := by
  induction es generalizing upTo behind with
  | nil => exact from?_eq le first last
  | cons e es ih =>
    obtain ⟨later, order⟩ := List.pairwise_cons.1 order
    obtain ⟨startLe, leUpTo⟩ := within e List.mem_cons_self
    obtain ⟨before, middle, after, rfl, rfl, rfl⟩ := Text.exists_parts le first last
    have step := step?_eq_replace (p := ⟨_, behind⟩) after rfl startLe leUpTo
    rw [List.foldlM_cons, List.foldlM_cons, ← step]
    cases done : step? (before ++ (middle ++ after)) ⟨_, behind⟩ e with
    | none => rfl
    | some q =>
      obtain ⟨upTo, cut⟩ := upTo_of_step? done
      obtain ⟨_, behind⟩ := q
      cases upTo
      refine ih behind cut startLe (fun x mem => ⟨?_, fun _ => later x mem⟩) order
      exact (within x (.tail _ mem)).1

end Progress

/-- Edits are put in their places one by one, in a copy of the part of the source. -/
lemma applyRange?_eq_replace (source : List Char) (start stop : Nat) (edits : List Edit) :
    applyRange? source start stop edits =
      (slice? start stop source).bind fun part =>
        (inOrder (edits.filter (·.within start stop))).foldlM (Edit.replace? start)
          (String.ofList part) := by
  rw [applyRange?]
  cases found : slice? start stop source with
  | none => rfl
  | some part =>
    obtain ⟨le, first, last⟩ := Text.isCut_of_slice? found
    have within : ∀ e ∈ inOrder (edits.filter (·.within start stop)),
        start ≤ e.start ∧ (e.start ≤ e.stop → e.start ≤ stop) := by
      intro e mem
      have inside := (List.mem_filter.1 ((inOrder_perm _).mem_iff.1 mem)).2
      simp only [Edit.within, Bool.and_eq_true, decide_eq_true_eq] at inside
      exact ⟨inside.1, fun ordered => Nat.le_trans ordered inside.2⟩
    have steps := Progress.steps_eq_replace "" first last le within (inOrder_starts _)
    rw [Option.bind_some, steps, Progress.text, Text.slice, found, String.append_empty]
    rfl

end Source

end TaggedMarkup

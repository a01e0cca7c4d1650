import Mathlib
import TaggedMarkup.Proofs.Source.Splice

/-!
# Edits all at once

What a set of edits makes of a source can be said place by place, without an order of application
(`spliceAll`): at every offset stand the texts that are put there, and then the character of the
source, unless an edit replaces it. Edits that agree are applied so (`applyAll_parallel`). The order
in which they were recorded matters only for those with one start, and a source can be cut at any
offset that no edit touches and edited in two parts.
-/

namespace TaggedMarkup

namespace Text

/-- Only the empty text has no size. -/
lemma byteSize_eq_zero {cs : List Char} : byteSize cs = 0 ↔ cs = [] := by
  cases cs with
  | nil => simp [byteSize]
  | cons c cs =>
    have := c.utf8Size_pos
    simp [byteSize]
    omega

/-- A cut between the ends of a part of a text cuts that part in two. -/
lemma IsCut.exists_between {before middle after : List Char} {n : Nat}
    (cut : IsCut (before ++ (middle ++ after)) n) (first : byteSize before ≤ n)
    (last : n ≤ byteSize before + byteSize middle) :
    ∃ left right, middle = left ++ right ∧ n = byteSize before + byteSize left := by
  obtain ⟨⟨upTo, rest⟩, eq⟩ := Option.isSome_iff_exists.1 cut
  obtain ⟨same, rfl⟩ := eq_append_of_cut? eq
  obtain ⟨left, rfl, inside⟩ | ⟨extra, rfl, -⟩ := List.append_eq_append_iff.1 same
  · rw [byteSize_append] at last
    obtain ⟨right, rfl, -⟩ | ⟨extra, rfl, -⟩ := List.append_eq_append_iff.1 inside.symm
    · exact ⟨left, right, rfl, byteSize_append ..⟩
    · -- The cut is at the end, since the part before it is no longer.
      rw [byteSize_append] at last
      obtain rfl := byteSize_eq_zero.1 (show byteSize extra = 0 by omega)
      exact ⟨middle, [], by simp, by simp [byteSize_append]⟩
  · rw [byteSize_append] at first
    obtain rfl := byteSize_eq_zero.1 (show byteSize extra = 0 by omega)
    exact ⟨[], middle, rfl, by simp [byteSize]⟩

end Text

namespace Source

open Text (IsCut byteSize byteSize_append slice?)

/-! ## Place by place -/

/-- The texts that edits put at an offset: those inserted there, the last recorded first, and then
the one that replaces what follows. -/
def textAt (edits : List Edit) (offset : Nat) : String :=
  String.join ((edits.filter fun e => e.start = offset ∧ e.stop = offset).reverse.map Edit.text) ++
    String.join ((edits.filter fun e => e.start = offset ∧ offset < e.stop).map Edit.text)

/-- Whether an edit replaces what stands at an offset. -/
def isReplaced (edits : List Edit) (offset : Nat) : Bool :=
  edits.any fun e => e.start ≤ offset && offset < e.stop

/-- The characters from an offset on, each behind the texts that are put there, and without those
that are replaced. -/
def spread (texts : Nat → String) (replaced : Nat → Bool) (offset : Nat) : List Char → String
  | [] => ""
  | c :: cs =>
    texts offset ++ (if replaced offset then "" else String.singleton c) ++
      spread texts replaced (offset + c.utf8Size) cs

/-- A source with all edits applied at once. -/
def spliceAll (source : List Char) (edits : List Edit) : String :=
  spread (textAt edits) (isReplaced edits) 0 source ++ textAt edits (byteSize source)

section Spread

variable {texts texts' : Nat → String} {replaced replaced' : Nat → Bool} {offset : Nat}

/-- Texts are spread over two parts of a source one after the other. -/
lemma spread_append (cs ds : List Char) :
    spread texts replaced offset (cs ++ ds) =
      spread texts replaced offset cs ++ spread texts replaced (offset + byteSize cs) ds := by
  induction cs generalizing offset with
  | nil => simp [spread, byteSize]
  | cons c cs ih => simp [spread, ih, byteSize, String.append_assoc, Nat.add_assoc]

/-- Only the places of the characters count. -/
lemma spread_congr {cs : List Char}
    (same : ∀ n, offset ≤ n → n < offset + byteSize cs →
      texts n = texts' n ∧ replaced n = replaced' n) :
    spread texts replaced offset cs = spread texts' replaced' offset cs := by
  induction cs generalizing offset with
  | nil => rfl
  | cons c cs ih =>
    have size := c.utf8Size_pos
    simp only [byteSize] at same
    obtain ⟨text, replace⟩ := same offset le_rfl (by omega)
    rw [spread, spread, text, replace, ih fun n lower upper => same n (by omega) (by omega)]

/-- Where nothing is put and nothing is replaced, the characters stay. -/
lemma spread_untouched {cs : List Char}
    (free : ∀ n, offset ≤ n → n < offset + byteSize cs → texts n = "" ∧ replaced n = false) :
    spread texts replaced offset cs = String.ofList cs := by
  induction cs generalizing offset with
  | nil => rfl
  | cons c cs ih =>
    have size := c.utf8Size_pos
    simp only [byteSize] at free
    obtain ⟨text, kept⟩ := free offset le_rfl (by omega)
    rw [spread, text, kept, ih fun n lower upper => free n (by omega) (by omega)]
    simp [String.ofList_cons]

/-- Where nothing is put and all is replaced, nothing stays. -/
lemma spread_replaced {cs : List Char}
    (gone : ∀ n, offset ≤ n → n < offset + byteSize cs → texts n = "" ∧ replaced n = true) :
    spread texts replaced offset cs = "" := by
  induction cs generalizing offset with
  | nil => rfl
  | cons c cs ih =>
    have size := c.utf8Size_pos
    simp only [byteSize] at gone
    obtain ⟨text, replace⟩ := gone offset le_rfl (by omega)
    rw [spread, text, replace, ih fun n lower upper => gone n (by omega) (by omega)]
    simp

end Spread

/-! ## In the order of places -/

/-- The texts at an offset, of edits in the order of their places. -/
def joinedAt (es : List Edit) (offset : Nat) : String :=
  String.join ((es.filter fun e => e.start = offset).map Edit.text)

/-- The text of the first edit at an offset comes first. -/
lemma joinedAt_cons (e : Edit) (es : List Edit) (offset : Nat) :
    joinedAt (e :: es) offset =
      (if e.start = offset then e.text else "") ++ joinedAt es offset := by
  by_cases here : e.start = offset <;> simp [joinedAt, here]

/-- Edits that start later have no text at an offset. -/
lemma joinedAt_of_lt {es : List Edit} {offset : Nat} (later : ∀ e ∈ es, offset < e.start) :
    joinedAt es offset = "" := by
  have none : es.filter (fun e => e.start = offset) = [] :=
    List.filter_eq_nil_iff.2 fun e mem => by simpa using (later e mem).ne'
  rw [joinedAt, none]
  rfl

/-- An offset is replaced by the first edit or by another. -/
lemma isReplaced_cons (e : Edit) (es : List Edit) (offset : Nat) :
    isReplaced (e :: es) offset = (decide (e.start ≤ offset) && decide (offset < e.stop) ||
      isReplaced es offset) := rfl

/-- Edits that start later do not replace an offset. -/
lemma isReplaced_of_lt {es : List Edit} {offset : Nat} (later : ∀ e ∈ es, offset < e.start) :
    isReplaced es offset = false := by
  simp only [isReplaced, List.any_eq_false, Bool.and_eq_true, decide_eq_true_eq]
  rintro e mem ⟨le, -⟩
  exact absurd (later e mem) (by omega)

/-- An edit puts its text in front of what the later ones make of the rest. -/
lemma spread_edit {e : Edit} {es : List Edit} {middle rest : List Char}
    (stop : e.stop = e.start + byteSize middle) (later : ∀ x ∈ es, e.stop ≤ x.start) :
    spread (joinedAt (e :: es)) (isReplaced (e :: es)) e.start (middle ++ rest) ++
        joinedAt (e :: es) (e.stop + byteSize rest) =
      e.text ++ (spread (joinedAt es) (isReplaced es) e.stop rest ++
        joinedAt es (e.stop + byteSize rest)) := by
  -- Behind its end, the edit is not seen.
  have behind (n : Nat) (start : e.start < n) (stop : e.stop ≤ n) :
      joinedAt (e :: es) n = joinedAt es n ∧ isReplaced (e :: es) n = isReplaced es n := by
    rw [joinedAt_cons, if_neg start.ne, isReplaced_cons]
    simp [stop.not_gt]
  cases middle with
  | nil =>
    obtain same : e.stop = e.start := by simpa [byteSize] using stop
    rw [List.nil_append, same]
    cases rest with
    | nil => simp [spread, byteSize, joinedAt_cons]
    | cons c cs =>
      have size := c.utf8Size_pos
      have here : isReplaced (e :: es) e.start = isReplaced es e.start := by
        rw [isReplaced_cons, same]
        simp
      have later : spread (joinedAt (e :: es)) (isReplaced (e :: es)) (e.start + c.utf8Size) cs =
          spread (joinedAt es) (isReplaced es) (e.start + c.utf8Size) cs :=
        spread_congr fun n lower _ => behind n (by omega) (by omega)
      have last := (behind (e.start + byteSize (c :: cs)) (by simp only [byteSize]; omega)
        (by omega)).1
      rw [spread, spread, later, last, here, joinedAt_cons, if_pos rfl]
      simp only [String.append_assoc]
  | cons c cs =>
    have size := c.utf8Size_pos
    simp only [byteSize] at stop
    have inside (n : Nat) (lower : e.start < n) (upper : n < e.stop) :
        joinedAt (e :: es) n = "" ∧ isReplaced (e :: es) n = true := by
      rw [joinedAt_cons, if_neg lower.ne, isReplaced_cons,
        joinedAt_of_lt fun x mem => upper.trans_le (later x mem)]
      simp [lower.le, upper]
    have first : joinedAt (e :: es) e.start = e.text ∧ isReplaced (e :: es) e.start = true := by
      rw [joinedAt_cons, if_pos rfl, isReplaced_cons,
        joinedAt_of_lt fun x mem => (show e.start < e.stop by omega).trans_le (later x mem)]
      simp [show e.start < e.stop by omega]
    have gone : spread (joinedAt (e :: es)) (isReplaced (e :: es)) e.start (c :: cs) = e.text := by
      rw [spread, first.1, first.2,
        spread_replaced fun n lower upper => inside n (by omega) (by omega)]
      simp
    have rest_eq : spread (joinedAt (e :: es)) (isReplaced (e :: es)) e.stop rest =
        spread (joinedAt es) (isReplaced es) e.stop rest :=
      spread_congr fun n lower _ => behind n (by omega) lower
    have last := (behind (e.stop + byteSize rest) (by omega) (by omega)).1
    rw [spread_append, gone, show e.start + byteSize (c :: cs) = e.stop from stop.symm, rest_eq,
      last, String.append_assoc]

/-- A splice of edits in the order of their places puts each text at its place. -/
lemma splice_eq_spread {before middle after : List Char} {es : List Edit}
    (fits : ∀ e ∈ es, e.Fits (before ++ (middle ++ after)))
    (within : ∀ e ∈ es, byteSize before ≤ e.start ∧ e.stop ≤ byteSize before + byteSize middle)
    (chain : es.Pairwise fun a b => a.stop ≤ b.start) :
    splice (before ++ (middle ++ after)) (byteSize before) (byteSize before + byteSize middle) es =
      spread (joinedAt es) (isReplaced es) (byteSize before) middle ++
        joinedAt es (byteSize before + byteSize middle) := by
  induction es generalizing before middle with
  | nil =>
    have untouched : spread (joinedAt []) (isReplaced []) (byteSize before) middle =
        String.ofList middle := spread_untouched fun _ _ _ => ⟨rfl, rfl⟩
    rw [splice, Text.slice, Text.slice?_append, untouched]
    exact (String.append_empty).symm
  | cons e es ih =>
    obtain ⟨later, chain⟩ := List.pairwise_cons.1 chain
    obtain ⟨lower, upper⟩ := within e List.mem_cons_self
    obtain ⟨ordered, cutStart, cutStop⟩ := fits e List.mem_cons_self
    -- The part in front of the edit, the part that it replaces, and the part behind it.
    obtain ⟨left, rest, rfl, start⟩ := cutStart.exists_between lower (ordered.trans upper)
    have source_eq : before ++ (left ++ rest ++ after) = (before ++ left) ++ (rest ++ after) := by
      simp
    rw [byteSize_append] at upper
    rw [source_eq] at cutStop
    obtain ⟨replaced, right, rfl, stop⟩ := cutStop.exists_between
      (by rw [byteSize_append]; omega) (by rw [byteSize_append]; omega)
    have shape : before ++ (left ++ (replaced ++ right) ++ after) =
        (before ++ left ++ replaced) ++ (right ++ after) := by simp
    have size : byteSize (before ++ left ++ replaced) = e.stop := by
      rw [byteSize_append, stop]
    have whole : byteSize before + byteSize (left ++ (replaced ++ right)) =
        e.stop + byteSize right := by
      rw [stop]
      simp only [byteSize_append]
      omega
    have fitsTail : ∀ x ∈ es, x.Fits ((before ++ left ++ replaced) ++ (right ++ after)) := by
      intro x mem
      rw [← shape]
      exact fits x (List.mem_cons_of_mem e mem)
    have withinTail : ∀ x ∈ es, byteSize (before ++ left ++ replaced) ≤ x.start ∧
        x.stop ≤ byteSize (before ++ left ++ replaced) + byteSize right := by
      intro x mem
      have inside := within x (List.mem_cons_of_mem e mem)
      rw [whole] at inside
      rw [size]
      exact ⟨later x mem, inside.2⟩
    have tail := ih fitsTail withinTail chain
    rw [size] at tail
    have front : Text.slice (byteSize before) e.start
        (before ++ (left ++ (replaced ++ right) ++ after)) = String.ofList left := by
      rw [start, Text.slice, show left ++ (replaced ++ right) ++ after =
        left ++ (replaced ++ right ++ after) by simp, Text.slice?_append]
      rfl
    have untouched : spread (joinedAt (e :: es)) (isReplaced (e :: es)) (byteSize before) left =
        String.ofList left := by
      refine spread_untouched fun n _ before => ?_
      have all : ∀ x ∈ e :: es, n < x.start := by
        intro x mem
        rcases List.mem_cons.1 mem with rfl | mem
        · omega
        · have := later x mem
          omega
      exact ⟨joinedAt_of_lt all, isReplaced_of_lt all⟩
    rw [whole, splice, front, shape, tail, spread_append, untouched, ← start,
      String.append_assoc, String.append_assoc,
      spread_edit (by rw [stop, byteSize_append, start]) later]

/-! ## The order of recording -/

/-- Edits with one start are applied in the order in which they were recorded. -/
lemma filter_inOrder (edits : List Edit) (offset : Nat) :
    (inOrder edits).filter (fun e => e.start = offset) =
      edits.filter fun e => e.start = offset := by
  have inserted (e : Edit) (es : List Edit) :
      (insertInOrder e es).filter (fun e => e.start = offset) =
        (e :: es).filter fun e => e.start = offset := by
    induction es with
    | nil => rfl
    | cons x es ih =>
      rw [insertInOrder]
      split
      · rfl
      · rename_i lt
        -- The two have different starts, so at most one of them is chosen.
        have differ : x.start ≠ e.start := by omega
        by_cases here : x.start = offset
        · simp [here, ih, show e.start ≠ offset from fun same => differ (here.trans same.symm)]
        · by_cases there : e.start = offset <;> simp [here, there, ih]
  induction edits with
  | nil => rfl
  | cons e edits ih =>
    change (insertInOrder e (inOrder edits)).filter _ = _
    rw [inserted, List.filter_cons, List.filter_cons, ih]

/-- Of edits with one start, the one that replaces something is recorded in front of those that
insert. -/
lemma reverse_filter_start {edits : List Edit} (ordered : ∀ e ∈ edits, e.start ≤ e.stop)
    (agree : edits.Pairwise Edit.Agrees) (offset : Nat) :
    (edits.filter fun e => e.start = offset).reverse =
      (edits.filter fun e => e.start = offset ∧ e.stop = offset).reverse ++
        edits.filter fun e => e.start = offset ∧ offset < e.stop := by
  induction edits with
  | nil => rfl
  | cons e edits ih =>
    obtain ⟨agrees, agree⟩ := List.pairwise_cons.1 agree
    have ih := ih (fun x mem => ordered x (List.mem_cons_of_mem e mem)) agree
    have ordered := ordered e List.mem_cons_self
    by_cases start : e.start = offset
    · have none : edits.filter (fun e => e.start = offset ∧ offset < e.stop) = [] := by
        rw [List.filter_eq_nil_iff]
        intro x mem
        have inserts := (agrees x mem).inserts
        simp only [decide_eq_true_eq]
        omega
      rw [none, List.append_nil] at ih
      rw [List.filter_cons_of_pos (by simpa using start), List.reverse_cons, ih]
      by_cases stop : e.stop = offset
      · rw [List.filter_cons_of_pos (by simp [start, stop]),
          List.filter_cons_of_neg (by simp [stop]), none, List.reverse_cons, List.append_nil]
      · have lt : offset < e.stop := by omega
        rw [List.filter_cons_of_neg (by simp [stop]),
          List.filter_cons_of_pos (by simp [start, lt]), none]
    · simp [start, ih]

/-- The texts at an offset stand in the order of places. -/
lemma textAt_eq {edits : List Edit} (ordered : ∀ e ∈ edits, e.start ≤ e.stop)
    (agree : edits.Pairwise Edit.Agrees) :
    textAt edits = joinedAt (inOrder edits).reverse := by
  funext offset
  rw [joinedAt, List.filter_reverse, filter_inOrder, reverse_filter_start ordered agree,
    List.map_append, String.join_append, textAt]

/-- What is replaced does not depend on the order of the edits. -/
lemma isReplaced_congr {edits edits' : List Edit} (same : ∀ e, e ∈ edits ↔ e ∈ edits') :
    isReplaced edits = isReplaced edits' := by
  funext offset
  rw [Bool.eq_iff_iff, isReplaced, isReplaced, List.any_eq_true, List.any_eq_true]
  simp only [same]

/-- The part of a source between two cuts, with the edits in it applied at once. -/
lemma applyRange?_eq_spread (before middle after : List Char) {edits : List Edit}
    (fits : ∀ e ∈ edits, e.Fits (before ++ (middle ++ after)))
    (agree : edits.Pairwise Edit.Agrees) :
    let inside := edits.filter (·.within (byteSize before) (byteSize before + byteSize middle))
    applyRange? (before ++ (middle ++ after)) (byteSize before)
        (byteSize before + byteSize middle) edits =
      some (spread (textAt inside) (isReplaced inside) (byteSize before) middle ++
        textAt inside (byteSize before + byteSize middle)) := by
  intro inside
  have first : IsCut (before ++ (middle ++ after)) (byteSize before) := by
    rw [IsCut, Text.cut?_append, Option.isSome_some]
  have last : IsCut (before ++ (middle ++ after)) (byteSize before + byteSize middle) := by
    rw [IsCut, ← byteSize_append, ← List.append_assoc, Text.cut?_append, Option.isSome_some]
  obtain ⟨chain, eq⟩ := applyRange?_eq_splice (Nat.le_add_right ..) first last fits agree
  have mem {e : Edit} : e ∈ (inOrder inside).reverse ↔ e ∈ inside := by
    rw [List.mem_reverse, (inOrder_perm inside).mem_iff]
  have spliced := splice_eq_spread
    (fun e m => fits e (List.mem_filter.1 (mem.1 m)).1)
    (fun e m => by simpa [Edit.within] using (List.mem_filter.1 (mem.1 m)).2) chain
  rw [eq, spliced, isReplaced_congr fun _ => mem,
    textAt_eq (fun e m => (fits e (List.mem_filter.1 m).1).ordered)
      (agree.sublist List.filter_sublist)]

/-- Edits that agree are applied at once. -/
lemma applyAll?_eq_spliceAll {source : List Char} {edits : List Edit}
    (fits : ∀ e ∈ edits, e.Fits source) (agree : edits.Pairwise Edit.Agrees) :
    applyAll? source edits = some (spliceAll source edits) := by
  have all : edits.filter (·.within 0 (byteSize source)) = edits := by
    rw [List.filter_eq_self]
    intro e mem
    simpa [Edit.within] using (fits e mem).cutStop.le_byteSize
  have applied := applyRange?_eq_spread [] source [] (by simpa using fits) agree
  simpa [byteSize, all, applyAll?, spliceAll] using applied

/-! ## Two orders and two parts -/

instance : Std.Symm Edit.Apart := ⟨fun _ _ => Edit.Apart.symm⟩

/-- Edits agree also if those with different starts are recorded in another order. -/
lemma agrees_of_filter {edits edits' : List Edit} (agree : edits.Pairwise Edit.Agrees)
    (same : ∀ offset, edits'.filter (fun e => e.start = offset) =
      edits.filter fun e => e.start = offset) : edits'.Pairwise Edit.Agrees := by
  have mem {e : Edit} (here : e ∈ edits') : e ∈ edits := by
    have filtered : e ∈ edits'.filter fun x => x.start = e.start :=
      List.mem_filter.2 ⟨here, by simp⟩
    rw [same] at filtered
    exact (List.mem_filter.1 filtered).1
  rw [List.pairwise_iff_forall_sublist] at agree ⊢
  intro a b sub
  by_cases start : a.start = b.start
  · -- With one start they stand in one order in both lists.
    have filtered := sub.filter fun e => e.start = a.start
    rw [same] at filtered
    have both : [a, b].filter (fun e => e.start = a.start) = [a, b] := by simp [start]
    rw [both] at filtered
    exact agree (filtered.trans List.filter_sublist)
  · refine ⟨?_, fun eq => absurd eq start⟩
    have differ : a ≠ b := fun eq => start (congrArg Edit.start eq)
    have apart : edits.Pairwise Edit.Apart :=
      List.pairwise_iff_forall_sublist.2 fun sub => (agree sub).apart
    exact apart.forall (mem (sub.subset (by simp))) (mem (sub.subset (by simp))) differ

/-- The texts at an offset are those of the edits that start there. -/
lemma textAt_congr {edits edits' : List Edit} {offset : Nat}
    (same : edits'.filter (fun e => e.start = offset) =
      edits.filter fun e => e.start = offset) : textAt edits' offset = textAt edits offset := by
  have narrow (es : List Edit) (p : Edit → Prop) [DecidablePred p] :
      es.filter (fun e => e.start = offset ∧ p e) =
        (es.filter fun e => e.start = offset).filter fun e => p e := by
    rw [List.filter_filter]
    exact List.filter_congr fun e _ => by simp [and_comm]
  rw [textAt, textAt, narrow, narrow, narrow edits, narrow edits, same]

/-- Edits may be left out that do not start at the offset. -/
lemma textAt_filter {edits : List Edit} {offset : Nat} {p : Edit → Bool}
    (chosen : ∀ e ∈ edits, e.start = offset → p e = true) :
    textAt (edits.filter p) offset = textAt edits offset := by
  apply textAt_congr
  rw [List.filter_filter]
  refine List.filter_congr fun e mem => ?_
  by_cases start : e.start = offset
  · simp [start, chosen e mem start]
  · simp [start]

/-- Edits may be left out that do not replace what stands at the offset. -/
lemma isReplaced_filter {edits : List Edit} {offset : Nat} {p : Edit → Bool}
    (chosen : ∀ e ∈ edits, e.start ≤ offset → offset < e.stop → p e = true) :
    isReplaced (edits.filter p) offset = isReplaced edits offset := by
  rw [isReplaced, isReplaced, List.any_filter, Bool.eq_iff_iff, List.any_eq_true, List.any_eq_true]
  constructor
  · rintro ⟨e, mem, both⟩
    exact ⟨e, mem, (Bool.and_eq_true_iff.1 both).2⟩
  · rintro ⟨e, mem, replaces⟩
    simp only [Bool.and_eq_true, decide_eq_true_eq] at replaces ⊢
    exact ⟨e, mem, chosen e mem replaces.1 replaces.2, replaces⟩

/-- An offset that no edit touches divides a splice in two. -/
lemma spliceAll_append {before after : List Char} {edits : List Edit}
    (fits : ∀ e ∈ edits, e.Fits (before ++ after))
    (outside : ∀ e ∈ edits, ¬(e.start < byteSize before ∧ byteSize before < e.stop))
    (noInsert : ∀ e ∈ edits, ¬(e.start = byteSize before ∧ e.stop = byteSize before)) :
    let left := edits.filter (·.within 0 (byteSize before))
    let right := edits.filter (·.within (byteSize before) (byteSize (before ++ after)))
    spliceAll (before ++ after) edits =
      spread (textAt left) (isReplaced left) 0 before ++ textAt left (byteSize before) ++
        (spread (textAt right) (isReplaced right) (byteSize before) after ++
          textAt right (byteSize (before ++ after))) := by
  intro left right
  have stop {e : Edit} (mem : e ∈ edits) : e.stop ≤ byteSize (before ++ after) :=
    (fits e mem).cutStop.le_byteSize
  have front (n : Nat) (lt : n < byteSize before) :
      textAt edits n = textAt left n ∧ isReplaced edits n = isReplaced left n := by
    have chosen {e : Edit} (mem : e ∈ edits) (start : e.start ≤ n) :
        e.within 0 (byteSize before) = true := by
      have := outside e mem
      simp only [Edit.within, Bool.and_eq_true, decide_eq_true_eq]
      omega
    exact ⟨(textAt_filter fun e mem start => chosen mem start.le).symm,
      (isReplaced_filter fun e mem start _ => chosen mem start).symm⟩
  have back (n : Nat) (le : byteSize before ≤ n) :
      textAt edits n = textAt right n ∧ isReplaced edits n = isReplaced right n := by
    have chosen {e : Edit} (mem : e ∈ edits) (start : byteSize before ≤ e.start) :
        e.within (byteSize before) (byteSize (before ++ after)) = true := by
      have := stop mem
      simp only [Edit.within, Bool.and_eq_true, decide_eq_true_eq]
      omega
    refine ⟨(textAt_filter fun e mem start => chosen mem (le.trans_eq start.symm)).symm,
      (isReplaced_filter fun e mem _ upper => chosen mem ?_).symm⟩
    have := outside e mem
    omega
  -- What starts at the offset and lies in front of it would be an insertion.
  have none : textAt left (byteSize before) = "" := by
    change _ = textAt [] (byteSize before)
    refine textAt_congr (List.filter_eq_nil_iff.2 fun e mem => ?_)
    obtain ⟨mem, inside⟩ := List.mem_filter.1 mem
    have ordered := (fits e mem).ordered
    have := noInsert e mem
    simp only [Edit.within, Bool.and_eq_true, decide_eq_true_eq] at inside ⊢
    omega
  rw [spliceAll, spread_append, none, String.append_empty, String.append_assoc,
    spread_congr fun n _ upper => front n (by simpa using upper), Nat.zero_add,
    spread_congr fun n lower _ => back n lower, (back _ (by rw [byteSize_append]; omega)).1]

/-- An edit fits if it starts at a cut and ends at one that is not before it. -/
lemma Edit.fits_iff {source : List Char} {e : Edit} :
    e.Fits source ↔ e.start ≤ e.stop ∧ IsCut source e.start ∧ IsCut source e.stop := by
  constructor
  · intro fits
    exact ⟨fits.ordered, fits.cutStart, fits.cutStop⟩
  · rintro ⟨ordered, first, last⟩
    exact ⟨ordered, first, last⟩

/-- Edits agree if they are apart, and the later of two at the same start replaces nothing. -/
lemma Edit.agrees_iff {a b : Edit} :
    a.Agrees b ↔ a.Apart b ∧ (a.start = b.start → b.start = b.stop) := by
  constructor
  · intro agrees
    exact ⟨agrees.apart, agrees.inserts⟩
  · rintro ⟨apart, inserts⟩
    exact ⟨apart, inserts⟩

instance (source : List Char) (e : Edit) : Decidable (e.Fits source) :=
  decidable_of_iff _ Edit.fits_iff.symm

instance (a b : Edit) : Decidable (a.Agrees b) := decidable_of_iff _ Edit.agrees_iff.symm

/-- Edits that cut no character and agree are applied at once: the result has at every offset the
texts that are inserted there, the last recorded first, then the one that replaces what follows, and
then what is not replaced of the source. So it is the same for every other record that has the edits
of each start in the same order. And a source can be edited in two parts, divided at any offset that
is inside of no edit and where nothing is inserted. -/
theorem applyAll_parallel {source : List Char} {edits : List Edit}
    (fits : ∀ e ∈ edits, e.Fits source) (agree : edits.Pairwise Edit.Agrees) :
    applyAll? source edits = some (spliceAll source edits) ∧
    (∀ edits' : List Edit,
      (∀ offset, edits'.filter (fun e => e.start = offset) =
        edits.filter fun e => e.start = offset) →
      applyAll? source edits' = applyAll? source edits) ∧
    ∀ offset, IsCut source offset →
      (∀ e ∈ edits, ¬(e.start < offset ∧ offset < e.stop)) →
      (∀ e ∈ edits, ¬(e.start = offset ∧ e.stop = offset)) →
      ∃ left right, applyRange? source 0 offset edits = some left ∧
        applyRange? source offset (byteSize source) edits = some right ∧
        applyAll? source edits = some (left ++ right) := by
  refine ⟨applyAll?_eq_spliceAll fits agree, ?_, ?_⟩
  · intro edits' same
    have mem {e : Edit} : e ∈ edits' ↔ e ∈ edits := by
      have filtered := congrArg (e ∈ ·) (same e.start)
      simpa [List.mem_filter] using filtered
    have texts : textAt edits' = textAt edits := funext fun offset => textAt_congr (same offset)
    rw [applyAll?_eq_spliceAll fits agree,
      applyAll?_eq_spliceAll (fun e here => fits e (mem.1 here)) (agrees_of_filter agree same),
      spliceAll, spliceAll, texts, isReplaced_congr fun _ => mem]
  · intro offset cut outside noInsert
    obtain ⟨⟨before, after⟩, eq⟩ := Option.isSome_iff_exists.1 cut
    obtain ⟨rfl, rfl⟩ := Text.eq_append_of_cut? eq
    have left := applyRange?_eq_spread [] before after fits agree
    have right := applyRange?_eq_spread before after [] (by simpa using fits) agree
    rw [← byteSize_append, List.append_nil] at right
    simp only [byteSize, Nat.zero_add, List.nil_append] at left
    refine ⟨_, _, left, right, ?_⟩
    rw [applyAll?_eq_spliceAll fits agree, spliceAll_append fits outside noInsert]

/-- A replacement of a letter of two bytes, recorded before two insertions in front of it, with
edits at both ends of the text. -/
theorem applyAll_parallel_letter :
    let source := "xéy".toList
    let edits : List Edit := [⟨1, 3, "E"⟩, ⟨4, 4, "!"⟩, ⟨1, 1, "a"⟩, ⟨0, 1, ""⟩, ⟨1, 1, "b"⟩]
    let edits' : List Edit := [⟨0, 1, ""⟩, ⟨1, 3, "E"⟩, ⟨1, 1, "a"⟩, ⟨1, 1, "b"⟩, ⟨4, 4, "!"⟩]
    (∀ e ∈ edits, e.Fits source) ∧ edits.Pairwise Edit.Agrees ∧
      applyAll? source edits = some (spliceAll source edits) ∧
      spliceAll source edits = "baEy!" ∧
      applyAll? source edits' = applyAll? source edits ∧
      ∃ left right, applyRange? source 0 3 edits = some left ∧
        applyRange? source 3 4 edits = some right ∧
        applyAll? source edits = some (left ++ right) := by
  intro source edits edits'
  have fits : ∀ e ∈ edits, e.Fits source := by decide
  have agree : edits.Pairwise Edit.Agrees := by decide
  obtain ⟨whole, order, parts⟩ := applyAll_parallel fits agree
  refine ⟨fits, agree, whole, by decide, order edits' ?_, parts 3 (by decide) ?_ ?_⟩
  · intro offset
    obtain rfl | rfl | rfl | ⟨first, second, third⟩ :
        offset = 0 ∨ offset = 1 ∨ offset = 4 ∨ 0 ≠ offset ∧ 1 ≠ offset ∧ 4 ≠ offset := by omega
    · rfl
    · rfl
    · rfl
    · simp [edits, edits', first, second, third]
  · decide
  · decide

end Source

end TaggedMarkup

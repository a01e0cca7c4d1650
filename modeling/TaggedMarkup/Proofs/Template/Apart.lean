import Mathlib
import TaggedMarkup.Proofs.Markup.Chunks
import TaggedMarkup.Proofs.Template.Joined

/-!
# Texts that do not meet

The lexer reports no two texts in a row unless it passes a hole between them (`spaced_items`), and
every other item puts a node or a tag between two texts when it is nested. Only the end tag of a
void element puts nothing there. So in a template without such an end tag no texts meet
(`textsApart_nest`).
-/

namespace TaggedMarkup

open Markup (Event Lexer Spaced isVoid scanSigil)

/-- At a hole a text is reported only if one is being read. -/
lemma Markup.Lexer.passHole_spaced (l : Lexer) : Spaced l.InText l.passHole.events := by
  unfold passHole
  split
  · rename_i place
    have mode := mode_of_place_text place
    simp only [flush, mode, pendingText]
    split
    · exact .nil
    · exact .cons (fun _ => .inl mode) .nil
  · exact .nil
  · exact .nil

namespace Template

/-! ## Items in a row -/

/-- Whether an item is a text. -/
def Item.isText : Item → Bool
  | .event e => e.isText
  | .hole _ _ => false

/-- Whether a text may stand behind an item. -/
def Item.separates : Item → Bool
  | .event e => e.separates
  | .hole _ _ => true

/-- No text stands behind a text or behind the end, where `may` tells whether a text may come
first. -/
inductive SpacedItems : Prop → List Item → Prop
  | nil {may : Prop} : SpacedItems may []
  | cons {may : Prop} {i : Item} {is : List Item} (first : i.isText = true → may)
      (rest : SpacedItems (i.separates = true) is) : SpacedItems may (i :: is)

/-- A text may come first if it might before. -/
lemma SpacedItems.mono {may may' : Prop} {is : List Item} (imp : may → may')
    (h : SpacedItems may is) : SpacedItems may' is := by
  cases h with
  | nil => exact .nil
  | cons first rest => exact .cons (fun text => imp (first text)) rest

/-- Events stay spaced in front of items that start with no text. -/
lemma SpacedItems.append {may : Prop} {es : List Event} {is : List Item} (front : Spaced may es)
    (behind : SpacedItems False is) : SpacedItems may (es.map .event ++ is) := by
  induction front with
  | nil => exact behind.mono False.elim
  | cons first _ ih => exact .cons first ih

/-- The items of a template keep its texts apart. -/
lemma spaced_itemsFrom (l : Lexer) (slot : Nat) (chunk : String)
    (rest : List (Expression × String)) :
    SpacedItems l.InText (itemsFrom l slot chunk rest) := by
  induction rest generalizing l slot chunk with
  | nil =>
    rw [itemsFrom, ← List.append_nil (List.map _ _)]
    exact .append (l.run_spaced chunk) .nil
  | cons pair rest ih =>
    have front := (l.write_spaces (scanSigil chunk).2).spaced (Lexer.passHole_spaced _)
    refine .append front (.cons (fun text => ?_) ((ih _ _ _).mono fun _ => rfl))
    cases text

/-- No two items of a template in a row are texts. -/
lemma spaced_items (chunks : List String) (expressions : List Expression) :
    SpacedItems True (items chunks expressions) := by
  cases chunks with
  | nil => exact .nil
  | cons first rest => exact (spaced_itemsFrom _ _ _ _).mono fun _ => trivial

/-! ## Nodes in a row -/

namespace Forest

/-- One more node leaves texts apart, unless it and the last one are texts. -/
lemma textsApart_append_singleton {F : Forest} {n : Node} (apart : F.textsApart = true)
    (inside : n.children.textsApart = true)
    (meets : n.isText = true → F.getLast?.any Node.isText = false) :
    textsApart (F ++ [n]) = true := by
  induction F with
  | nil => exact textsApart_cons.2 ⟨Bool.and_false _, inside, rfl⟩
  | cons m F ih =>
    obtain ⟨notBoth, children, behind⟩ := textsApart_cons.1 apart
    rw [List.cons_append, textsApart_cons]
    rcases F with _ | ⟨f, F⟩
    · refine ⟨?_, children, ih behind fun _ => rfl⟩
      rw [List.getLast?_singleton, Option.any_some] at meets
      rw [List.nil_append, List.head?_cons, Option.any_some]
      cases text : n.isText with
      | false => exact Bool.and_false _
      | true => rw [meets text, Bool.false_and]
    · refine ⟨notBoth, children, ih behind fun text => ?_⟩
      rw [← meets text, List.getLast?_cons_cons]

/-- Texts that are apart meet plainly. -/
lemma meetPlainly_of_textsApart {F : Forest} (apart : F.textsApart = true) :
    F.meetPlainly = true := by
  induction F using Forest.induction with
  | nil => rfl
  | cons n F children others =>
    obtain ⟨notBoth, inside, behind⟩ := textsApart_cons.1 apart
    rw [meetPlainly, every_cons]
    refine ⟨?_, children inside, others behind⟩
    split
    · cases notBoth
    · rfl

/-- There are no pairs of texts where they are apart. -/
lemma textPairs_take_of_textsApart {F : Forest} (apart : F.textsApart = true) (k : Nat) :
    textPairs (F.take k) = 0 := by
  induction F generalizing k with
  | nil => rw [List.take_nil, textPairs]
  | cons n F ih =>
    obtain ⟨notBoth, -, behind⟩ := textsApart_cons.1 apart
    cases k with
    | zero => rfl
    | succ k =>
      rw [List.take_succ_cons, textPairs, ih behind]
      rcases F with _ | ⟨f, F⟩
      · simp
      · cases k with
        | zero => simp
        | succ k =>
          rw [List.take_succ_cons, List.head?_cons]
          rw [List.head?_cons] at notBoth
          rw [notBoth]
          rfl

/-- Among the children of elements that host binders texts are apart as well. -/
lemma textsApart_of_mem_hostElements {F : Forest} (apart : F.textsApart = true) :
    ∀ host ∈ F.hostElements, Forest.textsApart host.2 = true := by
  induction F using Forest.induction with
  | nil => exact fun _ mem => absurd mem List.not_mem_nil
  | cons n F children others =>
    obtain ⟨-, inside, behind⟩ := textsApart_cons.1 apart
    intro host mem
    rw [hostElements] at mem
    obtain own | other := List.mem_append.1 mem
    · cases n with
      | void name isVoid parts selfClosing =>
        rw [Node.hostElements] at own
        split at own
        · cases List.mem_singleton.1 own
          rfl
        · cases own
      | element name notVoid parts C ending =>
        rw [Node.hostElements] at own
        obtain this | inner := List.mem_append.1 own
        · split at this
          · cases List.mem_singleton.1 this
            exact inside
          · cases this
        · exact children inside host inner
      | _ => cases own
    · exact others behind host other

end Forest

/-! ## Texts that are apart while a forest is read -/

/-- Texts have been apart so far, and if `may` says that a text may follow, the last node is no
text. -/
structure Reading.Apart (r : Reading) (may : Prop) : Prop where
  nodes : r.nodes.textsApart = true
  around : ∀ o ∈ r.around, o.before.textsApart = true
  last : r.position = .content → may → r.nodes.getLast?.any Node.isText = false

namespace Reading.Apart

variable {r r' : Reading} {may may' : Prop}

/-- A node other than a text is added, and a text may follow. -/
lemma add {n : Node} (h : r.Apart may) (inside : n.children.textsApart = true)
    (notText : n.isText = false) : (r.add n).Apart may' where
  nodes := Forest.textsApart_append_singleton h.nodes inside fun text => by
    rw [notText] at text
    cases text
  around := h.around
  last _ _ := by simp [Reading.add, notText]

/-- A start tag goes on. -/
lemma goOn {position : Position} (h : r.Apart may) (inTag : position ≠ .content) :
    { r with position := position : Reading }.Apart may' where
  nodes := h.nodes
  around := h.around
  last content := absurd content inTag

/-- The end of a start tag keeps texts apart. -/
lemma endTag {t : Tag} {selfClosing : Bool} (h : r.Apart may)
    (ok : r.endTag t selfClosing = some r') : r'.Apart may' := by
  unfold Reading.endTag at ok
  split at ok
  · split at ok
    · cases ok
      exact h.add rfl rfl
    · cases ok
  · split at ok
    · cases ok
      exact h.add rfl rfl
    · dsimp only at ok
      split at ok
      · cases ok
        exact h.add rfl rfl
      · cases ok
        exact ⟨rfl, List.forall_mem_cons.2 ⟨h.nodes, h.around⟩, fun _ _ => rfl⟩

/-- An element that is closed stands behind its siblings. -/
lemma close {nodes : Forest} {o : OpenElement} (inside : nodes.textsApart = true)
    (before : o.before.textsApart = true) (ending : Ending o.name) :
    (o.close nodes ending).textsApart = true :=
  Forest.textsApart_append_singleton before inside fun text => by cases text

/-- An end tag of an element that is not void keeps texts apart. -/
lemma closeTag {name : String} (h : r.Apart may) (notVoid : isVoid name = false)
    (ok : r.closeTag name = some r') : r'.Apart may' := by
  unfold Reading.closeTag at ok
  split at ok
  · simp [notVoid] at ok
  · rename_i o around open'
    obtain ⟨before, others⟩ := List.forall_mem_cons.1 (open' ▸ h.around)
    split at ok
    · rename_i same
      cases ok
      refine ⟨close h.nodes before _, others, fun _ _ => ?_⟩
      simp [OpenElement.close, Node.isText]
    · simp [notVoid] at ok

/-- Every item leaves texts apart, if it is no end tag of a void element. -/
lemma take {i : Item} (h : r.Apart may) (text : i.isText = true → may)
    (notVoid : ∀ name, i = .event (.closeTag name) → isVoid name = false)
    (ok : r.take i = some r') : r'.Apart (i.separates = true) := by
  unfold Reading.take at ok
  split at ok
  case h_1 s position =>
    -- Only here the item in front matters: it must not have left a text as the last node.
    cases ok
    refine ⟨Forest.textsApart_append_singleton h.nodes rfl fun _ => ?_, h.around, ?_⟩
    · exact h.last position (text rfl)
    · intro _ separates
      cases separates
  case h_2 => cases ok; exact h.add rfl rfl
  case h_3 name position => exact h.closeTag (notVoid name rfl) ok
  case h_4 position =>
    cases ok
    exact ⟨h.nodes, h.around, fun _ separates => by cases separates⟩
  case h_5 => cases ok; exact h.add rfl rfl
  case h_6 | h_7 | h_9 =>
    split at ok
    · cases ok
      exact h.goOn (by simp)
    · cases ok
  case h_8 | h_10 | h_11 => cases ok; exact h.goOn (by simp)
  case h_12 => exact h.endTag ok
  case h_13 => cases ok

/-- The end of a template keeps texts apart. -/
lemma closeAll {nodes : Forest} {around : List OpenElement} (inside : nodes.textsApart = true)
    (before : ∀ o ∈ around, o.before.textsApart = true) :
    (Reading.closeAll nodes around).textsApart = true := by
  induction around generalizing nodes with
  | nil => exact inside
  | cons o around ih =>
    obtain ⟨first, others⟩ := List.forall_mem_cons.1 before
    exact ih (close inside first .missing) others

end Reading.Apart

/-- No texts meet in the forest of spaced items without end tags of void elements. -/
lemma textsApart_nest {is : List Item} {F : Forest} (nested : nest is = some F)
    (spaced : SpacedItems True is)
    (notVoid : ∀ name, .event (.closeTag name) ∈ is → isVoid name = false) :
    F.textsApart = true := by
  -- By induction on the items, where `may` is what the item in front of them allows.
  have run (r : Reading) (may : Prop) (apart : r.Apart may) (spaced : SpacedItems may is)
      (ok : (is.foldlM Reading.take r).bind Reading.finish = some F) : F.textsApart = true := by
    clear * - notVoid apart spaced ok
    induction is generalizing r may with
    | nil =>
      simp only [List.foldlM_nil, Option.pure_def, Option.bind_some, Reading.finish] at ok
      split at ok
      · cases ok
        exact Reading.Apart.closeAll apart.nodes apart.around
      · cases ok
    | cons i is ih =>
      obtain _ | ⟨first, rest⟩ := spaced
      rw [List.foldlM_cons] at ok
      cases taken : r.take i with
      | none =>
        rw [taken] at ok
        cases ok
      | some r' =>
        rw [taken] at ok
        refine ih (fun name mem => notVoid name (List.mem_cons_of_mem i mem)) r' _ ?_ rest ok
        refine apart.take first (fun name this => ?_) taken
        exact notVoid name (by rw [this]; exact List.mem_cons_self)
  refine run {} True ⟨rfl, ?_, fun _ _ => rfl⟩ spaced nested
  exact fun _ mem => absurd mem List.not_mem_nil

end Template

end TaggedMarkup

import Mathlib
import TaggedMarkup.Proofs.Markup.Raw

/-!
# Nothing of a chunk is lost

A chunk is read from both ends: the block marker of the hole in front of it, then the sigil of the
hole behind it. Both readers can be undone (`restoreBlock_scanBlockList`,
`restoreSigil_scanSigilReversed`), so the marker, the sigil and the text that is left tell the
chunk, even where the two ends overlap. `scan_lossless` also says which texts can be left by the
reader of sigils. What counts is whether the run of backslashes at the end has even length.
-/

namespace TaggedMarkup.Markup

/-! ## Runs of backslashes -/

/-- The number of backslashes at the end of a text. -/
def backslashRun (text : List Char) : Nat := (text.rtakeWhile (· == '\\')).length

/-- The backslashes in front are counted. -/
lemma oddBackslashes_eq (cs : List Char) :
    oddBackslashes cs = decide (Odd (cs.takeWhile (· == '\\')).length) := by
  induction cs with
  | nil => rfl
  | cons c cs ih =>
    by_cases backslash : c = '\\'
    · subst backslash
      simp only [oddBackslashes, ih, List.takeWhile_cons_of_pos, BEq.rfl, List.length_cons,
        Nat.odd_add_one, decide_not]
    · simp [oddBackslashes, backslash]

/-- The backslashes at the end are even in number just if they are not odd. -/
lemma even_backslashRun_iff (text : List Char) :
    Even (backslashRun text) ↔ oddBackslashes text.reverse = false := by
  rw [backslashRun, List.rtakeWhile, List.length_reverse, oddBackslashes_eq,
    decide_eq_false_iff_not, Nat.not_odd_iff_even]

/-! ## Sigils -/

/-- The characters that are sigils. -/
def sigilChars : List Char := ['*', '^', '$']

/-- A character is no sigil just if it is not one of theirs. -/
lemma ofChar?_eq_none_iff (c : Char) : Sigil.ofChar? c = none ↔ c ∉ sigilChars := by
  unfold Sigil.ofChar?
  split_ifs <;> simp_all [sigilChars]

/-- The characters of sigils are those that give one. -/
lemma mem_sigilChars_iff (c : Char) : c ∈ sigilChars ↔ ∃ sigil, Sigil.ofChar? c = some sigil := by
  rw [← Option.ne_none_iff_exists', ne_eq, ofChar?_eq_none_iff, not_not]

/-- Puts a sigil back behind a text, which is given from last to first. Without a sigil, a last
character that would be one had a backslash in front of it. -/
def restoreSigil : Sigil → List Char → List Char
  | .none, [] => []
  | .none, c :: body => if c ∈ sigilChars then c :: '\\' :: body else c :: body
  | .map, text => '*' :: text
  | .subscribe, text => '^' :: text
  | .once, text => '$' :: text

/-- A sigil is restored by its character. -/
lemma restoreSigil_of_ofChar? {c : Char} {sigil : Sigil} (isSigil : Sigil.ofChar? c = some sigil)
    (text : List Char) : restoreSigil sigil text = c :: text := by
  unfold Sigil.ofChar? at isSigil
  split_ifs at isSigil with star caret dollar
  all_goals
    cases isSigil
    subst c
    rfl

/-- What is read can be put back. -/
lemma restoreSigil_scanSigilReversed (cs : List Char) :
    restoreSigil (scanSigilReversed cs).1 (scanSigilReversed cs).2 = cs := by
  cases cs with
  | nil => rfl
  | cons c body =>
    rw [scanSigilReversed]
    cases isSigil : Sigil.ofChar? c with
    | none => exact if_neg ((ofChar?_eq_none_iff c).1 isSigil)
    | some sigil =>
      have mem : c ∈ sigilChars := (mem_sigilChars_iff c).2 ⟨sigil, isSigil⟩
      cases odd : oddBackslashes body with
      | false => exact restoreSigil_of_ofChar? isSigil body
      | true =>
        obtain ⟨rest, rfl, -⟩ := eq_cons_of_oddBackslashes odd
        exact if_pos mem

/-- What reading a sigil can leave of a text, which is given from last to first. -/
def Leaves : Sigil → List Char → Prop
  | .none, [] => True
  | .none, c :: body => c ∈ sigilChars → oddBackslashes body = false
  | _, text => oddBackslashes text = false

/-- What the scan for a sigil leaves could have been left. -/
lemma leaves_scanSigilReversed (cs : List Char) :
    Leaves (scanSigilReversed cs).1 (scanSigilReversed cs).2 := by
  cases cs with
  | nil => trivial
  | cons c body =>
    rw [scanSigilReversed]
    cases isSigil : Sigil.ofChar? c with
    | none => exact fun mem => absurd mem ((ofChar?_eq_none_iff c).1 isSigil)
    | some sigil =>
      cases odd : oddBackslashes body with
      | false =>
        unfold Sigil.ofChar? at isSigil
        split_ifs at isSigil
        all_goals
          cases isSigil
          exact odd
      | true =>
        obtain ⟨rest, rfl, even⟩ := eq_cons_of_oddBackslashes odd
        exact fun _ => even

/-- What can be left is left, namely of the chunk that is restored from it. -/
lemma scanSigilReversed_restoreSigil {sigil : Sigil} {text : List Char}
    (leaves : Leaves sigil text) : scanSigilReversed (restoreSigil sigil text) = (sigil, text) := by
  cases sigil with
  | none =>
    cases text with
    | nil => rfl
    | cons c body =>
      by_cases mem : c ∈ sigilChars
      · obtain ⟨sigil, isSigil⟩ := (mem_sigilChars_iff c).1 mem
        have odd : oddBackslashes ('\\' :: body) = true := by
          rw [oddBackslashes, leaves mem, Bool.not_false]
        rw [restoreSigil, if_pos mem, scanSigilReversed, isSigil]
        exact if_pos odd
      · rw [restoreSigil, if_neg mem, scanSigilReversed, (ofChar?_eq_none_iff c).2 mem]
  | map | subscribe | once => exact if_neg (by simpa [Leaves] using leaves)

/-- The condition on what is left, in the words of the text itself. -/
lemma leaves_reverse_iff (sigil : Sigil) (text : List Char) :
    Leaves sigil text.reverse ↔
      sigil ≠ .none ∧ Even (backslashRun text) ∨
        sigil = .none ∧
          ((∀ c ∈ text.getLast?, c ∉ sigilChars) ∨ Even (backslashRun text.dropLast)) := by
  cases sigil with
  | none =>
    rcases List.eq_nil_or_concat' text with rfl | ⟨body, c, rfl⟩
    · simp [Leaves]
    · by_cases mem : c ∈ sigilChars <;> simp [Leaves, even_backslashRun_iff, mem]
  | map | subscribe | once => simp [Leaves, even_backslashRun_iff]

/-! ## Block markers -/

/-- Puts a block marker back in front of a text. -/
def restoreBlock : Bool → List Char → List Char
  | true, text => '#' :: text
  | false, '#' :: text => '\\' :: '#' :: text
  | false, text => text

/-- The mark of a block is restored. -/
lemma restoreBlock_scanBlockList (cs : List Char) :
    restoreBlock (scanBlockList cs).1 (scanBlockList cs).2 = cs := by
  unfold scanBlockList
  split
  · rfl
  · rfl
  · rename_i noMarker _
    rw [restoreBlock]
    exact noMarker

/-! ## Chunks -/

/-- A text is told by its block mark and what is left. -/
lemma scanBlock_injective : Function.Injective scanBlock := by
  intro a b same
  simp only [scanBlock, Prod.mk.injEq, String.ofList_inj] at same
  rw [← String.toList_inj, ← restoreBlock_scanBlockList a.toList, same.1, same.2,
    restoreBlock_scanBlockList]

/-- A text is told by its sigil and what is left. -/
lemma scanSigil_injective : Function.Injective scanSigil := by
  intro a b same
  simp only [scanSigil, Prod.mk.injEq, String.ofList_inj, List.reverse_inj] at same
  rw [← String.toList_inj, ← List.reverse_inj, ← restoreSigil_scanSigilReversed a.toList.reverse,
    same.1, same.2, restoreSigil_scanSigilReversed]

/-- The scan for a sigil gives a sigil and a text just if the sigil leaves the text. -/
lemma mem_range_scanSigil (sigil : Sigil) (text : String) :
    (sigil, text) ∈ Set.range scanSigil ↔ Leaves sigil text.toList.reverse := by
  constructor
  · rintro ⟨chunk, eq⟩
    have leaves := leaves_scanSigilReversed chunk.toList.reverse
    obtain ⟨rfl, rfl⟩ := Prod.mk.inj eq
    rwa [String.toList_ofList, List.reverse_reverse]
  · intro leaves
    refine ⟨String.ofList (restoreSigil sigil text.toList.reverse).reverse, ?_⟩
    simp [scanSigil, scanSigilReversed_restoreSigil leaves]

/-- The block marker, the sigil and the text that is left tell the chunk. A sigil is left with a
text that ends in an even run of backslashes; without one the text ends in no character that is a
sigil, or in one behind an even run. -/
theorem scan_lossless :
    Function.Injective (fun chunk => ((scanBlock chunk).1, scanSigil (scanBlock chunk).2)) ∧
      ∀ sigil text, (sigil, text) ∈ Set.range scanSigil ↔
        sigil ≠ .none ∧ Even (backslashRun text.toList) ∨
          sigil = .none ∧
            ((∀ c ∈ text.toList.getLast?, c ∉ ['*', '^', '$']) ∨
              Even (backslashRun text.toList.dropLast)) := by
  constructor
  · intro a b same
    obtain ⟨block, rest⟩ := Prod.mk.inj same
    exact scanBlock_injective (Prod.ext block (scanSigil_injective rest))
  · intro sigil text
    rw [mem_range_scanSigil, leaves_reverse_iff, sigilChars]

end TaggedMarkup.Markup

import Mathlib
import TaggedMarkup.Proofs.Code.Tables
import TaggedMarkup.Proofs.Source.Splice
import TaggedMarkup.Text.Position

/-!
# Lines and columns tell the offset

The line of an offset is one more than the number of line feeds in front of it, and its column one
more than the number of characters behind the last of them (`exists_lines_behind`). So the offset
is found again by walking from the start (`walk_behind`). Every character moves the place forward
(`order_advance`), and therefore offsets and their places have the same order.
-/

namespace TaggedMarkup.Text

namespace Position

/-! ## Order -/

/-- Places are ordered by line, then by column. -/
def order (p : Position) : ℕ ×ₗ ℕ := toLex (p.line, p.column)

/-- A character moves a position forward. -/
lemma order_advance (p : Position) (c : Char) : p.order < (p.advance c).order := by
  unfold advance
  split
  · exact Prod.Lex.toLex_lt_toLex.2 (.inl (Nat.lt_succ_self p.line))
  · exact Prod.Lex.toLex_lt_toLex.2 (.inr ⟨rfl, Nat.lt_succ_self p.column⟩)

/-- Characters move a position forward. -/
lemma order_foldl_advance (p : Position) {cs : List Char} (nonempty : cs ≠ []) :
    p.order < (cs.foldl advance p).order := by
  induction cs generalizing p with
  | nil => exact absurd rfl nonempty
  | cons c cs ih =>
    rw [List.foldl_cons]
    cases cs with
    | nil => exact order_advance p c
    | cons d cs => exact (order_advance p c).trans (ih (p.advance c) (List.cons_ne_nil d cs))

/-- A longer part of a text ends at a later place. -/
lemma order_behind_append (before : List Char) {middle : List Char} (nonempty : middle ≠ []) :
    (behind before).order < (behind (before ++ middle)).order := by
  rw [behind, behind, List.foldl_append]
  exact order_foldl_advance _ nonempty

/-! ## Walking to a place -/

/-- The offset that is reached by skipping so many line feeds, and then so many characters. -/
def walk : (lines columns : Nat) → List Char → Option Nat
  | 0, 0, _ => some 0
  | 0, columns + 1, c :: cs => (walk 0 columns cs).map (c.utf8Size + ·)
  | lines + 1, columns, c :: cs =>
    (walk (if c = '\n' then lines else lines + 1) columns cs).map (c.utf8Size + ·)
  | _, _, [] => none

/-- A walk along a line passes its bytes. -/
lemma walk_columns (line after : List Char) :
    walk 0 line.length (line ++ after) = some (byteSize line) := by
  induction line with
  | nil => simp [walk, byteSize]
  | cons c line ih => simp [walk, byteSize, ih]

/-- Whole lines are skipped by counting their line feeds. -/
lemma walk_lines (lines : List Char) (columns : Nat) (after : List Char) :
    walk (lines.count '\n' + 1) columns (lines ++ '\n' :: after) =
      (walk 0 columns after).map (byteSize (lines ++ ['\n']) + ·) := by
  induction lines with
  | nil => simp [walk, byteSize]
  | cons c lines ih =>
    have step : walk ((c :: lines).count '\n' + 1) columns (c :: lines ++ '\n' :: after) =
        (walk (lines.count '\n' + 1) columns (lines ++ '\n' :: after)).map (c.utf8Size + ·) := by
      rw [List.cons_append, walk]
      by_cases feed : c = '\n'
      · subst feed
        rw [if_pos rfl, List.count_cons_self]
      · rw [if_neg feed, List.count_cons_of_ne feed]
    rw [step, ih, Option.map_map]
    simp [byteSize, Function.comp_def, Nat.add_assoc]

/-- A text is whole lines and the start of another one, and their sizes are the place behind it. -/
lemma exists_lines_behind (cs : List Char) :
    ∃ lines line, cs = lines ++ line ∧ (lines = [] ∨ ∃ front, lines = front ++ ['\n']) ∧
      behind cs = ⟨lines.count '\n' + 1, line.length + 1⟩ ∧ '\n' ∉ line := by
  induction cs using List.reverseRecOn with
  | nil => exact ⟨[], [], rfl, .inl rfl, rfl, List.not_mem_nil⟩
  | append_singleton cs c ih =>
    obtain ⟨lines, line, rfl, ends, place, inside⟩ := ih
    have step : behind (lines ++ line ++ [c]) = (behind (lines ++ line)).advance c := by
      rw [behind, List.foldl_concat, ← behind]
    by_cases feed : c = '\n'
    · subst feed
      refine ⟨lines ++ line ++ ['\n'], [], by simp, .inr ⟨lines ++ line, rfl⟩, ?_, by simp⟩
      rw [step, place, advance, if_pos rfl]
      simp [List.count_eq_zero_of_not_mem inside]
    · refine ⟨lines, line ++ [c], by simp, ends, ?_, by simp [inside, Ne.symm feed]⟩
      rw [step, place, advance, if_neg feed]
      simp

/-- The way to the place behind a part of a text is as long as that part. -/
lemma walk_behind (before after : List Char) :
    walk ((behind before).line - 1) ((behind before).column - 1) (before ++ after) =
      some (byteSize before) := by
  obtain ⟨lines, line, rfl, ends, place, -⟩ := exists_lines_behind before
  rw [place, Nat.add_sub_cancel, Nat.add_sub_cancel, byteSize_append]
  obtain rfl | ⟨front, rfl⟩ := ends
  · simpa [byteSize] using walk_columns line after
  · rw [List.count_append, List.append_assoc, List.append_assoc, List.singleton_append,
      show List.count '\n' ['\n'] = 1 from rfl, walk_lines, walk_columns, Option.map_some]

/-! ## Reports -/

/-- A reported place tells its line and its column. -/
lemma text_injective : Function.Injective text := by
  intro p q same
  have chars : (toString p.line).toList ++ ':' :: (toString p.column).toList =
      (toString q.line).toList ++ ':' :: (toString q.column).toList := by
    simpa [text, toString] using congrArg String.toList same
  have colon (n : Nat) : ':' ∉ (toString n).toList := fun mem =>
    absurd (Template.isDigit_of_mem_toString mem) (by decide)
  obtain ⟨lines, -, columns⟩ := (List.append_cons_inj_of_notMem (colon _) (colon _)).1 chars
  have line := Nat.repr_injective (String.toList_injective lines)
  have column := Nat.repr_injective (String.toList_injective columns)
  cases p
  cases q
  simp_all

end Position

open Position (behind walk)

/-- An offset is a cut just if it is the size of the text before it. -/
lemma isCut_iff {source : List Char} {o : Nat} :
    IsCut source o ↔ ∃ before after, source = before ++ after ∧ byteSize before = o := by
  constructor
  · intro cut
    obtain ⟨⟨before, after⟩, eq⟩ := Option.isSome_iff_exists.1 cut
    exact ⟨before, after, eq_append_of_cut? eq⟩
  · rintro ⟨before, after, rfl, rfl⟩
    rw [IsCut, cut?_append, Option.isSome_some]

/-- The place of an offset is the place behind the part in front of it. -/
lemma Position.ofOffset?_append (before after : List Char) :
    ofOffset? (before ++ after) (byteSize before) = some (behind before) := by
  have le : byteSize before ≤ byteSize (before ++ after) := by
    rw [byteSize_append]
    exact Nat.le_add_right _ _
  rw [ofOffset?, min_eq_left le, cut?_append, Option.map_some]

/-- The reported text is that of the position behind the text before the offset. -/
lemma reportOffset_append (before after : List Char) (p : Position) :
    reportOffset (before ++ after) (byteSize before) = p.text ↔ p = behind before := by
  rw [reportOffset, Position.ofOffset?_append, Option.map_some, Option.getD_some]
  exact ⟨fun same => (Position.text_injective same).symm, fun same => congrArg _ same.symm⟩

/-- Every offset between two characters is reported by one place, from which a walk along the
lines and columns leads back to the offset; and the places of two offsets have their order. -/
theorem reportOffset_identifies (source : List Char) :
    (∀ o, IsCut source o → ∃ p : Position,
      (∀ q : Position, reportOffset source o = q.text ↔ q = p) ∧ 1 ≤ p.line ∧ 1 ≤ p.column ∧
        walk (p.line - 1) (p.column - 1) source = some o) ∧
    ∀ o₁ o₂, IsCut source o₁ → IsCut source o₂ → o₁ < o₂ → ∀ p₁ p₂ : Position,
      reportOffset source o₁ = p₁.text → reportOffset source o₂ = p₂.text →
        p₁.order < p₂.order := by
  constructor
  · intro o cut
    obtain ⟨before, after, rfl, rfl⟩ := isCut_iff.1 cut
    obtain ⟨lines, line, -, -, place, -⟩ := Position.exists_lines_behind before
    refine ⟨behind before, reportOffset_append before after, ?_, ?_,
      Position.walk_behind before after⟩
    all_goals
      rw [place]
      exact Nat.le_add_left 1 _
  · intro o₁ o₂ cut₁ cut₂ lt p₁ p₂ report₁ report₂
    obtain ⟨before₁, after₁, rfl, rfl⟩ := isCut_iff.1 cut₁
    obtain ⟨before₂, after₂, same, rfl⟩ := isCut_iff.1 cut₂
    obtain ⟨middle, rfl, rfl⟩ | ⟨middle, rfl, rfl⟩ := List.append_eq_append_iff.1 same
    · have nonempty : middle ≠ [] := by
        rintro rfl
        simp at lt
      rw [(reportOffset_append before₁ _ p₁).1 report₁,
        (reportOffset_append (before₁ ++ middle) after₂ p₂).1 (by simpa using report₂)]
      exact Position.order_behind_append before₁ nonempty
    · -- The first part is no longer than the second.
      rw [byteSize_append] at lt
      omega

/-- A text with characters of two and of three bytes. -/
theorem reportOffset_identifies_wide :
    IsCut ['é', '\n', '日', 'x'] 2 ∧ IsCut ['é', '\n', '日', 'x'] 6 ∧
      (∃ p : Position,
        (∀ q : Position, reportOffset ['é', '\n', '日', 'x'] 6 = q.text ↔ q = p) ∧ 1 ≤ p.line ∧
          1 ≤ p.column ∧
          walk (p.line - 1) (p.column - 1) ['é', '\n', '日', 'x'] = some 6) ∧
      (⟨1, 2⟩ : Position).order < (⟨2, 2⟩ : Position).order :=
  ⟨by decide, by decide, (reportOffset_identifies _).1 6 (by decide),
    (reportOffset_identifies ['é', '\n', '日', 'x']).2 2 6 (by decide) (by decide) (by decide) _ _
      (by decide +kernel) (by decide +kernel)⟩

end TaggedMarkup.Text

import Mathlib

/-!
# The order of first use

`List.eraseDups` keeps the first of equal values, so it lists values in the order of their first
use. The attributes of a tag and the tables of a file stand in this order.
-/

namespace TaggedMarkup

variable {α : Type} [DecidableEq α]

/-- A further value at the end of a list without repetitions. -/
lemma eraseDups_append_singleton (xs : List α) (x : α) :
    (xs ++ [x]).eraseDups = if x ∈ xs then xs.eraseDups else xs.eraseDups ++ [x] := by
  rw [List.eraseDups_append]
  by_cases h : x ∈ xs
  · simp [List.removeAll, h]
  · simp [List.removeAll, h, List.eraseDups_cons]

/-- Without repetitions every value stands once. -/
lemma nodup_eraseDups (xs : List α) : xs.eraseDups.Nodup := by
  induction xs using List.reverseRecOn with
  | nil => exact .nil
  | append_singleton xs x ih =>
    rw [eraseDups_append_singleton]
    split
    · exact ih
    · rename_i new
      refine List.nodup_append.2 ⟨ih, List.nodup_singleton x, ?_⟩
      rintro a ha b hb rfl
      rw [List.mem_singleton] at hb
      subst hb
      exact new (List.mem_eraseDups.1 ha)

end TaggedMarkup

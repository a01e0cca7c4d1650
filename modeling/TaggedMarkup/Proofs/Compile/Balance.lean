import TaggedMarkup.Proofs.Compile.Effects

/-!
# Scopes around a visit

A visit opens and closes scopes, and it may fail in the midst of any of them. Whatever it visits and
however it ends, the scopes behind it are those in front of it, with every name in each of them
(`visits_keep_scopes`). A whole script opens no scope of its own, and leaves what its declarations
alone would leave.
-/

namespace TaggedMarkup.Compile

open Script
open Walk

/-- What is kept behind a step is seen as the step leaves it. -/
lemma Walk.Keeps.view_bind {α β γ : Type} {view : State → γ} {x : Walk α} {f : α → Walk β}
    (behind : ∀ a, Keeps view (f a)) (s : State) :
    view ((x >>= f).exec s).2 = view (x.exec s).2 := by
  rw [exec_bind]
  rcases x.exec s with ⟨failure | a, t⟩
  · rfl
  · exact (behind a).keep t

/-- To take markers out of a pattern leaves the scopes. -/
lemma keeps_removeMarkers (p : Pattern) : Keeps State.scopes (removeMarkers p) :=
  .ofModify fun _ => rfl

/-- A template is visited hole by hole and compiled. What is no template is left alone. -/
lemma keeps_siteCode (file : File) (e : Expr) : Keeps State.scopes (siteCode file e) := by
  cases e with
  | tagged tag chunks holes span =>
    rw [siteCode]
    split
    · refine .bind ⟨fun _ => rfl⟩ fun s => .bind ?_ fun _ => .bind ?_ fun _ => .ofPure _
      · rw [visitExprs_eq_run]
        exact Plan.keeps_scopes file _
      · exact ⟨fun t => (exec_compileSite file _ _ _ _ t).1⟩
    · exact .ofPure none
  | paren inner => exact keeps_siteCode file inner
  | _ => exact .ofPure none

/-- The scopes behind a visit are those in front of it, whether it succeeds or fails, for every
expression, statement, pattern with its markers, function, class and template. Only the statements
of a script declare names where they stand, and visiting them leaves the scopes that declaring them
leaves. -/
theorem visits_keep_scopes (file : File) (s : State) :
    (∀ e, ((visitExpr file e).exec s).2.scopes = s.scopes) ∧
    (∀ inList statement, ((visitStatement file inList statement).exec s).2.scopes = s.scopes) ∧
    (∀ statements, ((visitStatements file statements).exec s).2.scopes = s.scopes) ∧
    (∀ p, ((do removeMarkers p; visitPattern file p : Walk Unit).exec s).2.scopes = s.scopes) ∧
    (∀ f, ((visitFunction file f).exec s).2.scopes = s.scopes) ∧
    (∀ c, ((visitClass file c).exec s).2.scopes = s.scopes) ∧
    (∀ e, ((siteCode file e).exec s).2.scopes = s.scopes) ∧
    ∀ script, ((visitScript file script).exec s).2.scopes =
      ((declareStatements script).exec s).2.scopes := by
  have planned {x : Walk Unit} {p : Plan} (eq : x = p.run file) : Keeps State.scopes x := by
    rw [eq]
    exact p.keeps_scopes file
  refine ⟨?_, ?_, ?_, ?_, ?_, ?_, ?_, ?_⟩
  · intro e
    exact (planned (visitExpr_eq_run file e)).keep s
  · intro inList statement
    exact (planned (visitStatement_eq_run file inList statement)).keep s
  · intro statements
    exact (planned (visitStatements_eq_run file statements)).keep s
  · intro p
    have visited := planned (visitPattern_eq_run file p)
    exact ((keeps_removeMarkers p).bind fun _ => visited).keep s
  · intro f
    exact (planned (visitFunction_eq_run file f)).keep s
  · intro c
    exact (planned (visitClass_eq_run file c)).keep s
  · intro e
    exact (keeps_siteCode file e).keep s
  · intro script
    have visited := planned (visitStatements_eq_run file script)
    exact Keeps.view_bind (fun _ => visited) s

end TaggedMarkup.Compile

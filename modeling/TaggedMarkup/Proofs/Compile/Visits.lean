import TaggedMarkup.Proofs.Compile.Effects

/-!
# Sites that a walk comes to

`Reaches` tells of a plan which sites its run comes to, and in which states: the one in which a site
is entered, and the one in which it is compiled, when its holes have been visited. The scopes of
both are those around the site. So the scopes of a site inside another extend those of the other
(`Reaches.frames`), and if the whole run succeeds then every site on the way has its binders
(`Reaches.binders_ok`).
-/

namespace TaggedMarkup

open Compile Script

/-- All scopes, from the innermost outwards. -/
def Script.Scopes.frames (s : Scopes) : List Scope := s.inner :: s.outer

/-- What it is to be inside a scope of its own. -/
lemma Script.Scopes.frames_of_push {s t : Scopes} (outer : t.outer = s.push.outer) :
    t.frames = t.inner :: s.frames := by
  rw [frames, outer]
  rfl

/-- A name that new scopes do not declare is looked up in those around them. -/
lemma Script.Scopes.isObservable_of_frames {s t : Scopes} {added : List Scope} {name : String}
    (frames : t.frames = added ++ s.frames) (new : ∀ scope ∈ added, find? name scope = none) :
    t.isObservable name = s.isObservable name := by
  have skipped : added.findSome? (find? name) = none := List.findSome?_eq_none_iff.2 new
  simp only [isObservable, Scopes.frames] at *
  rw [frames, List.findSome?_append, skipped, Option.none_or]

namespace Compile

open Template (Binder)
open Walk

/-- A site that a walk comes to, with the state in which it is entered and the state in which it is
compiled. -/
structure Visit where
  site : Site
  entered : State
  compiled : State

namespace Visit

/-- The binders of a visited site with their observable names. -/
def binders (file : File) (v : Visit) : Except Failure (List Binder) :=
  let inner := (Source.splitOff v.entered.edits.length v.compiled.edits).2
  match Template.parse (v.site.chunks.map Chunk.raw)
      (v.site.holes.map (holeExpression file inner)) with
  | .error failure => .error failure
  | .ok template => .ok (template.binders.map (resolveBinder file v.compiled v.site.holes))

/-- A site that is compiled has its binders. -/
lemma binders_of_compiled {file : File} {v : Visit} {code : Code.RenderCode} {t : State}
    (compiled : (compileSite file v.entered.edits.length v.site.chunks v.site.holes
      v.site.span).exec v.compiled = (.ok code, t)) : ∃ binders, v.binders file = .ok binders := by
  obtain ⟨⟨parsed, -⟩, -⟩ := compileSite_ok compiled
  exact ⟨_, by rw [Visit.binders, parsed]⟩

end Visit

/-- The run of a plan from a state comes to a site. -/
inductive Reaches (file : File) : Plan → State → Visit → Prop where
  | first {p q s v} : Reaches file p s v → Reaches file (.seq p q) s v
  | second {p q s t v} :
    (p.run file).exec s = (.ok (), t) → Reaches file q t v → Reaches file (.seq p q) s v
  | params {params p locals q s t v} :
    (declareAll params).exec { s with scopes := s.scopes.push } = (.ok (), t) →
    Reaches file p t v → Reaches file (.scope params p locals q) s v
  | locals {params p locals q s t u r v} :
    (declareAll params).exec { s with scopes := s.scopes.push } = (.ok (), t) →
    (p.run file).exec t = (.ok (), u) → (declareAll locals).exec u = (.ok (), r) →
    Reaches file q r v → Reaches file (.scope params p locals q) s v
  | here {site s t} :
    ((planExprs file site.holes).run file).exec s = (.ok (), t) →
    Reaches file (.site site (planExprs file site.holes)) s ⟨site, s, t⟩
  | inside {site inside s v} : Reaches file inside s v → Reaches file (.site site inside) s v

/-- A plan that succeeds leaves the scopes as they are. -/
lemma Plan.scopes_run {file : File} {p : Plan} {s t : State}
    (ok : (p.run file).exec s = (.ok (), t)) : t.scopes = s.scopes := by
  have kept := (p.keeps_scopes file).keep s
  rwa [ok] at kept

/-- Names are declared inside the scopes around them. -/
lemma outer_declareAll {names : Declared} {s t : State}
    (ok : (declareAll names).exec s = (.ok (), t)) : t.scopes.outer = s.scopes.outer := by
  have kept := (keeps_outer_declareAll names).keep s
  rwa [ok] at kept

namespace Reaches

variable {file : File} {p : Plan} {s s' : State} {v : Visit}

/-- A site is compiled in the scopes in which it is entered. -/
lemma scopes_compiled (reached : Reaches file p s v) : v.compiled.scopes = v.entered.scopes := by
  induction reached with
  | first _ ih | second _ _ ih | params _ _ ih | locals _ _ _ _ ih | inside _ ih => exact ih
  | here visited => exact Plan.scopes_run visited

/-- The scopes of a site extend those in which the walk begins. -/
lemma frames (reached : Reaches file p s v) :
    ∃ added, v.entered.scopes.frames = added ++ s.scopes.frames := by
  induction reached with
  | first _ ih | inside _ ih => exact ih
  | second done _ ih => rwa [Plan.scopes_run done] at ih
  | params declared _ ih =>
    obtain ⟨added, frames⟩ := ih
    rw [Scopes.frames_of_push (outer_declareAll declared)] at frames
    exact ⟨added ++ [_], by rw [frames, List.append_assoc, List.singleton_append]⟩
  | locals declared visited declared' _ ih =>
    obtain ⟨added, frames⟩ := ih
    have outer := outer_declareAll declared'
    rw [Plan.scopes_run visited, outer_declareAll declared] at outer
    rw [Scopes.frames_of_push outer] at frames
    exact ⟨added ++ [_], by rw [frames, List.append_assoc, List.singleton_append]⟩
  | here _ => exact ⟨[], rfl⟩

/-- If a run succeeds, then so does the compilation of every site that it comes to. -/
lemma compiled_ok (reached : Reaches file p s v) (ok : (p.run file).exec s = (.ok (), s')) :
    ∃ code t, (compileSite file v.entered.edits.length v.site.chunks v.site.holes
      v.site.span).exec v.compiled = (.ok code, t) := by
  induction reached generalizing s' with
  | first _ ih =>
    obtain ⟨_, _, ok, -⟩ := exec_bind_ok.1 ok
    exact ih ok
  | second done _ ih =>
    obtain ⟨_, _, done', ok⟩ := exec_bind_ok.1 ok
    cases done.symm.trans done'
    exact ih ok
  | params declared _ ih =>
    obtain ⟨_, inner, -⟩ := exec_inScope_ok.1 ok
    obtain ⟨_, _, declared', inner⟩ := exec_bind_ok.1 inner
    cases declared.symm.trans declared'
    obtain ⟨_, _, visited, -⟩ := exec_bind_ok.1 inner
    exact ih visited
  | locals declared visited declared' _ ih =>
    obtain ⟨_, inner, -⟩ := exec_inScope_ok.1 ok
    obtain ⟨_, _, same, inner⟩ := exec_bind_ok.1 inner
    cases declared.symm.trans same
    obtain ⟨_, _, same, inner⟩ := exec_bind_ok.1 inner
    cases visited.symm.trans same
    obtain ⟨_, _, same, inner⟩ := exec_bind_ok.1 inner
    cases declared'.symm.trans same
    exact ih inner
  | here visited =>
    obtain ⟨_, _, got, ok⟩ := exec_bind_ok.1 ok
    cases got
    obtain ⟨_, _, same, ok⟩ := exec_bind_ok.1 ok
    cases visited.symm.trans same
    obtain ⟨code, t, compiled, -⟩ := exec_bind_ok.1 ok
    exact ⟨code, t, compiled⟩
  | inside _ ih =>
    obtain ⟨_, _, got, ok⟩ := exec_bind_ok.1 ok
    cases got
    obtain ⟨_, _, visited, -⟩ := exec_bind_ok.1 ok
    exact ih visited

/-- If a run succeeds, then every site that it comes to has its binders. -/
lemma binders_ok (reached : Reaches file p s v) (ok : (p.run file).exec s = (.ok (), s')) :
    ∃ binders, v.binders file = .ok binders := by
  obtain ⟨code, t, compiled⟩ := reached.compiled_ok ok
  exact Visit.binders_of_compiled compiled

end Reaches

end Compile

end TaggedMarkup

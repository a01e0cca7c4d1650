import TaggedMarkup.Proofs.Compile.Visits
import TaggedMarkup.Proofs.Template.Fragment

/-!
# Projections and the sites inside them

The value of a hole with observable names is the body of a function whose parameters are these
names. A site inside the hole is compiled in the scopes around it, and these know nothing of the
function: where the names are not declared anew between the two, they are as observable to the inner
site as to the outer one. So a hole of the inner site has a name of the projection among its own
observables exactly if it refers to that name (`nested_observables`).
-/

namespace TaggedMarkup

open Template (Binder)

/-- Whether a binding hands projected values on. -/
def Template.Binding.isProjection : Template.Binding → Bool
  | .map | .mapFirst | .combine | .combineFirst => true
  | .value | .subscribe | .first => false

namespace Compile

open Script
open Walk

/-- A walk over a script comes to a site. -/
def ScriptReaches (file : File) (script : List Stmt) (v : Visit) : Prop :=
  ∃ s, (declareAll (script.flatMap declaredBy)).exec {} = (.ok (), s) ∧
    Reaches file (planStatements file script) s v

/-- A site stands inside a hole of another: the walk comes to it after the holes in front. -/
def Visit.Nests (file : File) (v : Visit) (slot : Nat) (w : Visit) : Prop :=
  ∃ e s, v.site.holes[slot]? = some e ∧
    ((planExprs file (v.site.holes.take slot)).run file).exec v.entered = (.ok (), s) ∧
    Reaches file (planExpr file e) s w

/-- A compiled script has been visited to its end. -/
lemma visitScript_ok {runtime : Runtime} {name : String} {source : List Char} {script : List Stmt}
    {output : String} (accepted : (compileScript runtime name source script).result = .ok output) :
    ∃ s, (visitScript (scriptFile runtime name source script) script).exec {} = (.ok (), s) := by
  simp only [compileScript] at accepted
  split at accepted
  · cases accepted
  · rename_i s run
    exact ⟨s, run⟩

/-- A site of a compiled script is reached on a run that succeeds. -/
lemma ScriptReaches.run_ok {file : File} {script : List Stmt} {v : Visit} {s' : State}
    (reached : ScriptReaches file script v)
    (ok : (visitScript file script).exec {} = (.ok (), s')) :
    ∃ s, Reaches file (planStatements file script) s v ∧
      ((planStatements file script).run file).exec s = (.ok (), s') := by
  obtain ⟨s, declared, reached⟩ := reached
  rw [visitScript_eq_run] at ok
  obtain ⟨_, _, same, ok⟩ := exec_bind_ok.1 ok
  cases declared.symm.trans same
  exact ⟨s, reached, ok⟩

/-- Expressions are visited one behind the other. -/
lemma run_planExprs {file : File} {es : List Expr} {i : Nat} {e : Expr} {s t : State}
    (ok : ((planExprs file es).run file).exec s = (.ok (), t)) (at_i : es[i]? = some e) :
    ∃ u r, ((planExprs file (es.take i)).run file).exec s = (.ok (), u) ∧
      ((planExpr file e).run file).exec u = (.ok (), r) := by
  induction es generalizing s i with
  | nil => cases at_i
  | cons first rest ih =>
    obtain ⟨_, u, visited, ok⟩ := exec_bind_ok.1 ok
    cases i with
    | zero =>
      cases at_i
      exact ⟨s, u, rfl, visited⟩
    | succ i =>
      obtain ⟨u', r, before, here⟩ := ih ok at_i
      exact ⟨u', r, exec_bind_ok.2 ⟨(), u, visited, before⟩, here⟩

/-- The holes of a visited site have been visited. -/
lemma Reaches.holes_ok {file : File} {p : Plan} {s : State} {v : Visit}
    (reached : Reaches file p s v) :
    ((planExprs file v.site.holes).run file).exec v.entered = (.ok (), v.compiled) := by
  induction reached with
  | first _ ih | second _ _ ih | params _ _ ih | locals _ _ _ _ ih | inside _ ih => exact ih
  | here visited => exact visited

/-- A site inside a hole has its binders, and its scopes extend those of the site around it. -/
lemma Visit.Nests.binders_ok {file : File} {p : Plan} {s : State} {v w : Visit} {slot : Nat}
    (reached : Reaches file p s v) (nested : v.Nests file slot w) :
    (∃ binders, w.binders file = .ok binders) ∧
      ∃ added, w.compiled.scopes.frames = added ++ v.compiled.scopes.frames := by
  obtain ⟨e, u, hole, before, inner⟩ := nested
  obtain ⟨u', r, before', visited⟩ := run_planExprs reached.holes_ok hole
  cases before.symm.trans before'
  refine ⟨inner.binders_ok visited, ?_⟩
  obtain ⟨added, frames⟩ := inner.frames
  rw [Plan.scopes_run before, ← reached.scopes_compiled] at frames
  exact ⟨added, by rw [inner.scopes_compiled, frames]⟩

/-! ## Observable names of a site -/

/-- The observable names of an expression are those to which it refers and that the scopes know as
observable. The tag is none of them. -/
lemma mem_observables {file : File} {scopes : Scopes} {e : Expr} {name : String} :
    name ∈ observables file scopes e ↔
      name ∈ e.freeNames ∧ name ≠ file.tag ∧ scopes.isObservable name = true := by
  simp [observables]

/-- The binders of a visited site are those of its template, each with the observable names of its
hole. -/
lemma Visit.observables_entries {file : File} {v : Visit} {binders : List Binder}
    (ok : v.binders file = .ok binders) {c : Binder} (mem : c ∈ binders.flatMap Binder.entries) :
    ∃ e, v.site.holes[c.slot]? = some e ∧
      c.observables = observables file v.compiled.scopes e := by
  simp only [Visit.binders] at ok
  split at ok
  · cases ok
  · rename_i template parsed
    cases ok
    have bound : ∀ e ∈ v.site.holes.map (holeExpression file
        (Source.splitOff v.entered.edits.length v.compiled.edits).2), e.isLiteral = false := by
      simp [holeExpression]
    -- Every binder and every property that is no literal has a hole.
    have hole {b : Binder} (mem : b ∈ template.binders.flatMap Binder.entries) :
        ∃ e, v.site.holes[b.slot]? = some e := by
      have carried := (Template.parse_entry parsed bound mem).1
      rw [List.getElem?_map, Option.map_eq_some_iff] at carried
      obtain ⟨e, hole, -⟩ := carried
      exact ⟨e, hole⟩
    obtain ⟨_, resolved, mem⟩ := List.mem_flatMap.1 mem
    obtain ⟨b, inTemplate, rfl⟩ := List.mem_map.1 resolved
    obtain ⟨e, host⟩ := hole (List.mem_flatMap.2 ⟨b, inTemplate, List.mem_cons_self⟩)
    simp only [resolveBinder, host, Binder.entries, List.mem_cons, List.mem_filter,
      List.mem_map] at mem
    obtain rfl | ⟨⟨p, property, rfl⟩, bound⟩ := mem
    · exact ⟨e, host, rfl⟩
    · have notLiteral : p.expression.isLiteral = false := by
        by_contra literal
        rw [Bool.not_eq_false] at literal
        simp [resolveProperty, literal] at bound
      have inTemplate : p ∈ template.binders.flatMap Binder.entries := by
        refine List.mem_flatMap.2 ⟨b, inTemplate, List.mem_cons_of_mem b ?_⟩
        exact List.mem_filter.2 ⟨property, by simp [notLiteral]⟩
      obtain ⟨e', host'⟩ := hole inTemplate
      refine ⟨e', ?_⟩
      simp [resolveProperty, notLiteral, host']

/-- A binder with observable names stays subscribed to them. -/
lemma isSubscription_of_observables {b : Binder} {name : String} (mem : name ∈ b.observables) :
    b.binding.isSubscription = true := by
  have some : b.observables.length ≠ 0 := mt List.length_eq_zero_iff.1 (List.ne_nil_of_mem mem)
  obtain ⟨n, length⟩ := Nat.exists_eq_succ_of_ne_zero some
  simp only [Binder.binding, length, Template.Binding.classify]
  split
  · rfl
  · split
    · rfl
    · cases n <;> rfl
  all_goals
    split
    · rfl
    · split <;> rfl

/-- Inside the hole of a projection, names are captured exactly where they are used. Let `b` be a
binder of a compiled script that projects observable names, and let a site stand anywhere inside the
hole of `b`. For each of the names that is not declared between the two sites, a binder or property
of the inner site has the name among its own observables if and only if its expression refers to
it; and a binder that has, subscribes to it. -/
theorem nested_observables {runtime : Runtime} {name : String} {source : List Char}
    {script : List Stmt} {output : String}
    (accepted : (compileScript runtime name source script).result = .ok output) {v : Visit}
    (reached : ScriptReaches (scriptFile runtime name source script) script v) :
    ∃ binders, v.binders (scriptFile runtime name source script) = .ok binders ∧
      ∀ b ∈ binders, b.binding.isProjection = true →
      ∀ w, v.Nests (scriptFile runtime name source script) b.slot w →
      ∃ inner added, w.binders (scriptFile runtime name source script) = .ok inner ∧
        w.compiled.scopes.frames = added ++ v.compiled.scopes.frames ∧
        ∀ x ∈ b.observables, (∀ scope ∈ added, Scopes.find? x scope = none) →
        ∀ c ∈ inner.flatMap Binder.entries, ∃ e, w.site.holes[c.slot]? = some e ∧
          (x ∈ c.observables ↔ x ∈ e.freeNames) ∧
          (x ∈ c.observables → c.binding.isSubscription = true) := by
  obtain ⟨s', run⟩ := visitScript_ok accepted
  obtain ⟨s, reached, run⟩ := reached.run_ok run
  obtain ⟨binders, ok⟩ := reached.binders_ok run
  refine ⟨binders, ok, ?_⟩
  intro b mem _ w nested
  obtain ⟨⟨inner, ok'⟩, added, frames⟩ := nested.binders_ok reached
  refine ⟨inner, added, ok', frames, ?_⟩
  intro x projected new c mem'
  obtain ⟨e, hole, observed⟩ := Visit.observables_entries ok' mem'
  -- The name is observable to the outer site, and the scopes in between do not know it.
  obtain ⟨e₀, -, observed₀⟩ :=
    Visit.observables_entries ok (List.mem_flatMap.2 ⟨b, mem, List.mem_cons_self⟩)
  rw [observed₀, mem_observables] at projected
  obtain ⟨-, notTag, observable⟩ := projected
  refine ⟨e, hole, ?_, isSubscription_of_observables⟩
  rw [observed, mem_observables, Scopes.isObservable_of_frames frames new]
  exact ⟨fun h => h.1, fun h => ⟨h, notTag, observable⟩⟩

/-- A template for the hole of another one. -/
def innerTemplate : Expr :=
  .tagged (.name ⟨"_", ⟨12, 13⟩⟩) [⟨"", ⟨14, 14⟩⟩, ⟨"", ⟨18, 18⟩⟩] [.name ⟨"x", ⟨16, 17⟩⟩] ⟨12, 19⟩

/-- A script with a template in the hole of another, and an observable name in its hole. -/
def nestedScript : List Stmt :=
  [.vars .let [.mk (.withDefault (.name ⟨"x", ⟨4, 5⟩⟩ ⟨4, 5⟩) (.name ⟨"$", ⟨6, 7⟩⟩) ⟨4, 7⟩) none],
   .expr (.tagged (.name ⟨"_", ⟨8, 9⟩⟩) [⟨"", ⟨10, 10⟩⟩, ⟨"", ⟨20, 20⟩⟩] [innerTemplate] ⟨8, 21⟩)
    ⟨8, 21⟩]

/-- The text of the script. -/
def nestedSource : List Char := "let x=$;_`$\x7b_`$\x7bx\x7d`\x7d`".toList

/-- The hole of the outer template is projected over a name to which the inner one subscribes. -/
theorem nested_observables_captured :
    let file := scriptFile {} "a.js" nestedSource nestedScript
    ∃ v w b c binders inner, ScriptReaches file nestedScript v ∧
      v.binders file = .ok binders ∧ b ∈ binders ∧ b.binding.isProjection = true ∧
      v.Nests file b.slot w ∧ w.binders file = .ok inner ∧ c ∈ inner ∧
      "x" ∈ b.observables ∧ "x" ∈ c.observables ∧ c.binding.isSubscription = true := by
  intro file
  obtain ⟨output, accepted⟩ :
      ∃ output, (compileScript {} "a.js" nestedSource nestedScript).result = .ok output := ⟨_, rfl⟩
  obtain ⟨v, w, reached, nested, same, ⟨b, binders, projects, slot, projected⟩, c, inner, hole⟩ :
      ∃ v w, ScriptReaches file nestedScript v ∧ v.Nests file 0 w ∧
        w.compiled.scopes.frames = v.compiled.scopes.frames ∧
        (∃ b, v.binders file = .ok [b] ∧ b.binding.isProjection = true ∧ b.slot = 0 ∧
          b.observables = ["x"]) ∧
        ∃ c, w.binders file = .ok [c] ∧
          w.site.holes[c.slot]? = some (.name ⟨"x", ⟨16, 17⟩⟩) :=
    ⟨_, _, ⟨_, rfl, .second rfl (.first (.here rfl))⟩, ⟨innerTemplate, _, rfl, rfl, .here rfl⟩, rfl,
      ⟨_, rfl, rfl, rfl, rfl⟩, _, rfl, rfl⟩
  obtain ⟨_, ok, holds⟩ := nested_observables accepted reached
  cases binders.symm.trans ok
  rw [← slot] at nested
  obtain ⟨_, added, ok, frames, holds⟩ := holds b (List.mem_singleton_self b) projects w nested
  cases inner.symm.trans ok
  have new : added = [] := by
    rw [same] at frames
    exact List.self_eq_append_left.1 frames
  have mem : "x" ∈ b.observables := by rw [projected]; exact List.mem_singleton_self "x"
  obtain ⟨e, hole', captured, subscribes⟩ :=
    holds "x" mem (by simp [new]) c (by simp [Binder.entries])
  cases hole.symm.trans hole'
  have captured := captured.2 (by decide)
  exact ⟨v, w, b, c, _, _, reached, binders, List.mem_singleton_self b, projects, nested, inner,
    List.mem_singleton_self c, mem, captured, subscribes captured⟩

end Compile

end TaggedMarkup

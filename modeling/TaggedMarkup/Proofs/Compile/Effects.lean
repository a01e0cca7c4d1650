import TaggedMarkup.Proofs.Compile.Plan

/-!
# Effects of a walk

How a run is taken apart into its steps, and what it does to the scopes: a plan leaves them as they
are, whether it succeeds or fails (`Plan.keeps_scopes`). The code of a site is made of the texts of
its holes (`compileSite_ok`).
-/

namespace TaggedMarkup.Compile

open Script
open Source (Edit splitOff)
open Walk

namespace Walk

/-- What a walk gives and the state that it leaves. -/
def exec {α : Type} (x : Walk α) (s : State) : Except Failure α × State := x s

/-- A step that does nothing leaves the state as it is. -/
@[simp] lemma exec_pure {α : Type} (a : α) (s : State) :
    (pure a : Walk α).exec s = (.ok a, s) := rfl

/-- A step that fails leaves the state as it is. -/
@[simp] lemma exec_throw {α : Type} (failure : Failure) (s : State) :
    (throw failure : Walk α).exec s = (.error failure, s) := rfl

/-- To read the state leaves it as it is. -/
@[simp] lemma exec_get (s : State) : (get : Walk State).exec s = (.ok s, s) := rfl

/-- To set the state replaces it. -/
@[simp] lemma exec_set (s t : State) : (set t : Walk Unit).exec s = (.ok (), t) := rfl

/-- To change the state applies the change. -/
@[simp] lemma exec_modify (f : State → State) (s : State) :
    (modify f : Walk Unit).exec s = (.ok (), f s) := rfl

/-- One step behind the other. -/
lemma exec_bind {α β : Type} (x : Walk α) (f : α → Walk β) (s : State) :
    (x >>= f).exec s = match x.exec s with
      | (.ok a, t) => (f a).exec t
      | (.error failure, t) => (.error failure, t) := by
  simp only [exec, bind, ExceptT.bind, ExceptT.mk, ExceptT.bindCont, StateT.bind]
  rcases x s with ⟨failure | a, t⟩ <;> rfl

/-- Two steps succeed if the one succeeds and then the other. -/
lemma exec_bind_ok {α β : Type} {x : Walk α} {f : α → Walk β} {s s' : State} {b : β} :
    (x >>= f).exec s = (.ok b, s') ↔
      ∃ a t, x.exec s = (.ok a, t) ∧ (f a).exec t = (.ok b, s') := by
  rw [exec_bind]
  rcases x.exec s with ⟨failure | a, t⟩ <;> simp

/-- A step in a scope has a new scope before it, which is gone after it. -/
lemma exec_inScope {α : Type} (x : Walk α) (s : State) :
    (inScope x).exec s =
      ((x.exec { s with scopes := s.scopes.push }).1,
        { (x.exec { s with scopes := s.scopes.push }).2 with
          scopes := (x.exec { s with scopes := s.scopes.push }).2.scopes.pop }) := rfl

/-- A step in a scope of its own succeeds if the step does. -/
lemma exec_inScope_ok {α : Type} {x : Walk α} {s s' : State} {a : α} :
    (inScope x).exec s = (.ok a, s') ↔
      ∃ t, x.exec { s with scopes := s.scopes.push } = (.ok a, t) ∧
        s' = { t with scopes := t.scopes.pop } := by
  rw [exec_inScope]
  rcases x.exec { s with scopes := s.scopes.push } with ⟨result, t⟩
  constructor
  · intro eq
    obtain ⟨rfl, rfl⟩ := Prod.mk.inj eq
    exact ⟨t, rfl, rfl⟩
  · rintro ⟨t', eq, rfl⟩
    obtain ⟨rfl, rfl⟩ := Prod.mk.inj eq
    rfl

/-- A walk keeps a view of the state, whether it succeeds or fails. -/
structure Keeps {α β : Type} (view : State → β) (x : Walk α) : Prop where
  keep : ∀ s, view (x.exec s).2 = view s

namespace Keeps

variable {α β γ : Type} {view : State → γ}

/-- A step that does nothing keeps what is viewed. -/
lemma ofPure (a : α) : Keeps view (pure a : Walk α) := ⟨fun _ => rfl⟩

/-- A step that fails keeps what is viewed. -/
lemma ofThrow (failure : Failure) : Keeps view (throw failure : Walk α) := ⟨fun _ => rfl⟩

/-- A change that keeps what is viewed. -/
lemma ofModify {f : State → State} (same : ∀ s, view (f s) = view s) :
    Keeps view (modify f : Walk Unit) := ⟨same⟩

/-- A result keeps what is viewed. -/
lemma ofExcept (result : Except Failure α) : Keeps view (Walk.ofExcept result) := by
  cases result with
  | error failure => exact ofThrow failure
  | ok a => exact ofPure a

/-- Steps that keep what is viewed do so one after the other. -/
lemma bind {x : Walk α} {f : α → Walk β} (first : Keeps view x) (second : ∀ a, Keeps view (f a)) :
    Keeps view (x >>= f) := by
  constructor
  intro s
  have kept := first.keep s
  rw [exec_bind]
  rcases h : x.exec s with ⟨failure | a, t⟩
  · rw [h] at kept
    exact kept
  · rw [h] at kept
    exact ((second a).keep t).trans kept

/-- A scope of its own hides all that a step does to the innermost scope. -/
lemma inScope {x : Walk α} (outer : Keeps (fun s => s.scopes.outer) x) :
    Keeps State.scopes (inScope x) := by
  constructor
  intro s
  have kept := outer.keep { s with scopes := s.scopes.push }
  rw [exec_inScope]
  simp only [Scopes.push] at kept ⊢
  simp only [Scopes.pop, kept]

end Keeps

end Walk

/-! ## Scopes -/

/-- To declare names keeps every view that does not depend on the innermost scope. -/
lemma keeps_declareAll {γ : Type} {view : State → γ} (names : Declared)
    (same : ∀ s bindings, view { s with scopes := s.scopes.declareAll bindings } = view s) :
    Keeps view (declareAll names) := by
  induction names with
  | nil => exact .ofPure ()
  | cons names rest ih =>
    exact .bind (.ofExcept names) fun bindings =>
      .bind (.ofModify fun s => same s bindings) fun _ => ih

/-- To declare names keeps the scopes around the innermost one. -/
lemma keeps_outer_declareAll (names : Declared) :
    Keeps (fun s => s.scopes.outer) (declareAll names) := by
  have declared (bindings : List Binding) (scopes : Scopes) :
      (scopes.declareAll bindings).outer = scopes.outer := by
    induction bindings generalizing scopes with
    | nil => rfl
    | cons b bindings ih => exact ih (scopes.declare b)
  exact keeps_declareAll names fun s bindings => declared bindings s.scopes

/-- To compile a site leaves the scopes, the edits that were recorded before its holes, and the
count of uses of the tag. -/
lemma state_compileSite (file : File) (mark : Nat) (chunks : List Chunk) (holes : List Expr)
    (span : Span) (s : State) :
    ∃ tables sites log, ((compileSite file mark chunks holes span).exec s).2 =
      { s with
        edits := (splitOff mark s.edits).1, tables := tables, sites := sites, log := log } := by
  simp only [compileSite, exec_bind, exec_get, exec_modify]
  split
  · exact ⟨s.tables, s.sites, s.log, rfl⟩
  · simp only [exec_bind, exec_get, exec_set]
    split
    · exact ⟨_, _, _, rfl⟩
    · exact ⟨_, _, _, rfl⟩

/-- A site is compiled in the scopes around it, and leaves the edits that were recorded before its
holes. -/
lemma exec_compileSite (file : File) (mark : Nat) (chunks : List Chunk) (holes : List Expr)
    (span : Span) (s : State) :
    ((compileSite file mark chunks holes span).exec s).2.scopes = s.scopes ∧
      ((compileSite file mark chunks holes span).exec s).2.edits = (splitOff mark s.edits).1 := by
  obtain ⟨tables, sites, log, eq⟩ := state_compileSite file mark chunks holes span s
  rw [eq]
  exact ⟨rfl, rfl⟩

/-- Code that is made of texts in place of holes: the template is read from the chunks and the
texts, its binders get their observable names, and the code is generated from them. -/
inductive MadeOf (file : File) (s : State) (chunks : List Chunk) (holes : List Expr)
    (texts : List Template.Expression) (code : Code.RenderCode) : Prop where
  | generate {template : Template.Fragment} {numbered : List Template.Binder}
    (parsed : Template.parse (chunks.map Chunk.raw) texts = .ok template)
    (generated : (Code.generate (s.tables.addFragment template.html).2
      (s.tables.addFragment template.html).1
      (template.binders.map (resolveBinder file s holes))).2 = .ok (numbered, code))

/-- A site that is compiled gets code that is made of the texts of its holes, and is entered at its
start. -/
lemma compileSite_ok {file : File} {mark : Nat} {chunks : List Chunk} {holes : List Expr}
    {span : Span} {s t : State} {code : Code.RenderCode}
    (ok : (compileSite file mark chunks holes span).exec s = (.ok code, t)) :
    MadeOf file s chunks holes (holes.map (holeExpression file (splitOff mark s.edits).2)) code ∧
      ∃ fragment, t.sites = enterSite span.start fragment s.sites := by
  simp only [compileSite, exec_bind, exec_get, exec_modify] at ok
  split at ok
  · cases ok
  · rename_i parsed
    simp only [exec_bind, exec_get, exec_set] at ok
    split at ok
    · cases ok
    · rename_i generated
      cases ok
      exact ⟨.generate parsed generated, _, rfl⟩

namespace Plan

/-- A plan leaves the scopes as they are. -/
lemma keeps_scopes (file : File) (p : Plan) : Keeps State.scopes (p.run file) := by
  induction p with
  | done => exact .ofPure ()
  | seq first second ih₁ ih₂ => exact .bind ih₁ fun _ => ih₂
  | scope params first locals second ih₁ ih₂ =>
    have inner {x : Walk Unit} (keeps : Keeps State.scopes x) :
        Keeps (fun s => s.scopes.outer) x := ⟨fun s => congrArg Scopes.outer (keeps.keep s)⟩
    exact .inScope (.bind (keeps_outer_declareAll params) fun _ => .bind (inner ih₁) fun _ =>
      .bind (keeps_outer_declareAll locals) fun _ => inner ih₂)
  | remove spans => exact .ofModify fun _ => rfl
  | useTag => exact .ofModify fun _ => rfl
  | site here inside ih =>
    refine .bind ⟨fun _ => rfl⟩ fun s => .bind ih fun _ => .bind ?_ fun _ => ?_
    · exact ⟨fun s => (exec_compileSite file _ _ _ _ s).1⟩
    · exact .ofModify fun _ => rfl

end Plan

end TaggedMarkup.Compile

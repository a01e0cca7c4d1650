import Mathlib
import TaggedMarkup.Proofs.Compile.Projection
import TaggedMarkup.Proofs.Compile.Sites

/-!
# Observable names and lexical scope

The walk keeps the names of every scope around a site (`Outline.visits_at`). It puts a name where
its declaration stands, also if that is a `var` and belongs to the function around it. Where a name
has no such declaration around a site, it is observable at the site just if its innermost
declaration has a marker (`observables_lexical`).
-/

namespace TaggedMarkup

/-! ## Names of patterns -/

namespace Script

mutual

/-- The names in a pattern, each with whether a marker stands on it or around it. -/
def Pattern.leaves (marked : Bool) : Pattern → List Binding
  | .name id _ => [⟨id.text, marked⟩]
  | .object parts _ => leavesOfParts marked parts
  | .array items _ => leavesOfItems marked items
  | .withDefault target value _ => target.leaves (marked || value.isMarker)

/-- The names in the parts of an object pattern. -/
def leavesOfParts (marked : Bool) : List PatternPart → List Binding
  | [] => []
  | .prop _ target :: parts => target.leaves marked ++ leavesOfParts marked parts
  | .rest target :: parts => target.leaves marked ++ leavesOfParts marked parts

/-- The names in parameters, or in the items of an array pattern. -/
def leavesOfItems (marked : Bool) : List PatternItem → List Binding
  | [] => []
  | .hole :: items => leavesOfItems marked items
  | .item _ target :: items => target.leaves marked ++ leavesOfItems marked items
  | .rest _ target :: items => target.leaves marked ++ leavesOfItems marked items

end

mutual

/-- A pattern without misplaced markers binds its names. -/
lemma Pattern.leaves_of_collect {marked : Bool} {bs : List Binding} :
    ∀ {p : Pattern}, p.collect marked = .ok bs → bs = p.leaves marked
  | .name _ _, ok => by
    cases ok
    rfl
  | .object parts _, ok => leaves_of_collectParts ok
  | .array items _, ok => leaves_of_collectItems ok
  | .withDefault target value _, ok => by
    rw [Pattern.collect] at ok
    rw [Pattern.leaves]
    split at ok
    · rename_i isMarker
      split at ok
      · cases ok
      · rw [isMarker, Bool.or_true]
        exact Pattern.leaves_of_collect ok
    · rename_i noMarker
      rw [Bool.eq_false_of_not_eq_true noMarker, Bool.or_false]
      exact Pattern.leaves_of_collect ok

/-- What is collected from the parts of an object pattern are their leaves. -/
lemma leaves_of_collectParts {marked : Bool} {bs : List Binding} :
    ∀ {parts : List PatternPart}, collectParts marked parts = .ok bs →
      bs = leavesOfParts marked parts
  | [], ok => by
    cases ok
    rfl
  | .prop _ target :: parts, ok | .rest target :: parts, ok => by
    rw [collectParts, PatternPart.collect] at ok
    rw [leavesOfParts]
    split at ok
    · cases ok
    · rename_i first
      split at ok
      · cases ok
      · rename_i rest
        cases ok
        rw [Pattern.leaves_of_collect first, leaves_of_collectParts rest]

/-- What is collected from the items of an array pattern are their leaves. -/
lemma leaves_of_collectItems {marked : Bool} {bs : List Binding} :
    ∀ {items : List PatternItem}, collectItems marked items = .ok bs →
      bs = leavesOfItems marked items
  | [], ok => by
    cases ok
    rfl
  | .hole :: items, ok => by
    rw [collectItems, PatternItem.collect] at ok
    rw [leavesOfItems]
    split at ok
    · cases ok
    · rename_i first
      cases first
      split at ok
      · cases ok
      · rename_i rest
        cases ok
        exact leaves_of_collectItems rest
  | .item _ target :: items, ok | .rest _ target :: items, ok => by
    rw [collectItems, PatternItem.collect] at ok
    rw [leavesOfItems]
    split at ok
    · cases ok
    · rename_i first
      split at ok
      · cases ok
      · rename_i rest
        cases ok
        rw [Pattern.leaves_of_collect first, leaves_of_collectItems rest]

end

end Script

namespace Compile

open Script
open Template (Binder)
open Walk

/-! ## Declarations of the walk -/

/-- No pattern has a misplaced marker. -/
def WellMarked (names : Declared) : Prop := ∀ result ∈ names, ∃ bs, result = .ok bs

/-- The names that are declared. -/
def bindingsOf (names : Declared) : List Binding :=
  names.flatMap fun
    | .ok bs => bs
    | .error _ => []

/-- No marker is misplaced in the first pattern, and none in the others. -/
lemma wellMarked_cons {result : Except Failure (List Binding)} {names : Declared} :
    WellMarked (result :: names) ↔ (∃ bs, result = .ok bs) ∧ WellMarked names :=
  List.forall_mem_cons

/-- No marker is misplaced in two lists just if none is in either. -/
lemma wellMarked_append {names names' : Declared} :
    WellMarked (names ++ names') ↔ WellMarked names ∧ WellMarked names' :=
  List.forall_mem_append

/-- The bindings of two lists of patterns. -/
lemma bindingsOf_append (names names' : Declared) :
    bindingsOf (names ++ names') = bindingsOf names ++ bindingsOf names' :=
  List.flatMap_append

/-- Later names stand in front of earlier ones. -/
lemma declareAll_eq (scopes : Scopes) (bs : List Binding) :
    scopes.declareAll bs = { scopes with inner := bs.reverse ++ scopes.inner } := by
  induction bs generalizing scopes with
  | nil => rfl
  | cons b bs ih =>
    rw [Scopes.declareAll, List.foldl_cons, ← Scopes.declareAll, ih, List.reverse_cons]
    simp [Scopes.declare]

/-- Names are declared in the innermost scope, unless a marker is misplaced. -/
lemma exec_declareAll_ok {names : Declared} {s t : State} :
    (declareAll names).exec s = (.ok (), t) ↔
      WellMarked names ∧ t = { s with scopes := s.scopes.declareAll (bindingsOf names) } := by
  induction names generalizing s with
  | nil => simp [declareAll, WellMarked, bindingsOf, Scopes.declareAll, eq_comm]
  | cons result names ih =>
    rw [wellMarked_cons, declareAll, exec_bind_ok]
    cases result with
    | error failure =>
      simp [Walk.ofExcept]
    | ok bs =>
      simp [Walk.ofExcept, exec_bind, mapScopes, ih, bindingsOf, Scopes.declareAll]

/-- What is declared goes to the innermost scope, and leaves the others as they are. -/
lemma frames_declareAll {names : Declared} {s t : State} {inner : Scope} {outer : List Scope}
    (ok : (declareAll names).exec s = (.ok (), t)) (frames : s.scopes.frames = inner :: outer) :
    t.scopes.frames = ((bindingsOf names).reverse ++ inner) :: outer := by
  obtain ⟨-, rfl⟩ := exec_declareAll_ok.1 ok
  obtain ⟨rfl, rfl⟩ := List.cons.inj frames
  rw [declareAll_eq]
  rfl

/-! ## Scopes of the walk -/

/-- The names of variables. -/
def leavesOfDecls (decls : List Declarator) : List Binding :=
  decls.flatMap fun | .mk target _ => target.leaves false

/-- A name without a marker, which may be missing. -/
def leafOfName (name : Option Name) : List Binding := (name.map fun n => ⟨n.text, false⟩).toList

/-- The names that the walk declares for a statement of a list. -/
def leavesBy : Stmt → List Binding
  | .vars _ decls => leavesOfDecls decls
  | .function (.mk name _ _) => leafOfName name
  | .class (.mk _ name _ _) => leafOfName name
  | .exported decl => leavesBy decl
  | _ => []

namespace Opening

/-- The names that the walk declares in front of the first part. -/
def paramLeaves : Opening → List Binding
  | .function params _ => leavesOfItems false params
  | _ => []

/-- The names that the walk declares in front of the second part. -/
def localLeaves : Opening → List Binding
  | .function _ (.block body) | .unit body | .block body => body.flatMap leavesBy
  | .function _ _ => []
  | .switch cases => cases.flatMap fun | .mk _ body => body.flatMap leavesBy
  | .loop (.vars _ decls) _ | .each (.vars _ decls) _ => leavesOfDecls decls
  | .loop _ _ | .each _ _ => []
  | .handler param => leavesOfItems false param

end Opening

/-- The names that the walk has declared in a scope. -/
def Enclosing.walked (e : Enclosing) : List Binding :=
  e.opening.paramLeaves ++ if e.inBody then e.opening.localLeaves else []

section

/-- The bindings of items are the leaves of each item. -/
lemma bindingsOf_flatMap {α : Type} {items : List α} {declared : α → Declared}
    {leaves : α → List Binding}
    (each : ∀ a ∈ items, WellMarked (declared a) → bindingsOf (declared a) = leaves a)
    (ok : WellMarked (items.flatMap declared)) :
    bindingsOf (items.flatMap declared) = items.flatMap leaves := by
  induction items with
  | nil => rfl
  | cons a items ih =>
    rw [List.flatMap_cons, wellMarked_append] at ok
    rw [List.forall_mem_cons] at each
    rw [List.flatMap_cons, List.flatMap_cons, bindingsOf_append, each.1 ok.1, ih each.2 ok.2]

/-- The bindings of a pattern are its leaves. -/
lemma bindingsOf_cons {p : Pattern} {names : Declared} {leaves : List Binding}
    (ok : WellMarked (p.bindings :: names)) (rest : WellMarked names → bindingsOf names = leaves) :
    bindingsOf (p.bindings :: names) = p.leaves false ++ leaves := by
  obtain ⟨⟨bs, eq⟩, ok⟩ := wellMarked_cons.1 ok
  rw [bindingsOf, List.flatMap_cons, ← bindingsOf, rest ok, eq]
  exact congrArg (· ++ leaves) (Pattern.leaves_of_collect eq)

/-- The bindings of parameters are their leaves. -/
lemma bindingsOf_items {items : List PatternItem} (ok : WellMarked (declaredItems items)) :
    bindingsOf (declaredItems items) = leavesOfItems false items := by
  induction items with
  | nil => rfl
  | cons item items ih =>
    cases item with
    | hole => exact ih ok
    | item _ target | rest _ target => exact bindingsOf_cons ok ih

/-- The bindings of variables are their leaves. -/
lemma bindingsOf_variables {decls : List Declarator} (ok : WellMarked (declaredVariables decls)) :
    bindingsOf (declaredVariables decls) = leavesOfDecls decls := by
  induction decls with
  | nil => rfl
  | cons d decls ih =>
    obtain ⟨target, value⟩ := d
    exact bindingsOf_cons ok ih

/-- The binding of a name is its leaf. -/
lemma bindingsOf_name (name : Option Name) : bindingsOf (declaredName name) = leafOfName name := by
  cases name <;> rfl

/-- The bindings of a statement are its leaves. -/
lemma bindingsOf_declaredBy :
    ∀ {s : Stmt}, WellMarked (declaredBy s) → bindingsOf (declaredBy s) = leavesBy s
  | .vars _ _, ok => bindingsOf_variables ok
  | .function (.mk name _ _), _ | .class (.mk _ name _ _), _ => bindingsOf_name name
  | .exported decl, ok => bindingsOf_declaredBy (s := decl) ok
  | .expr _ _, _ | .block _, _ | .cond _ _ _, _ | .ret _ _, _ | .loop _ _ _ _, _
  | .each _ _ _ _, _ | .while _ _, _ | .doWhile _ _, _ | .switch _ _, _ | .try _ _ _ _, _
  | .labeled _ _, _ | .throw _, _ | .with _ _, _ | .exit, _ | .import _, _
  | .exportedDefault _, _ | .exportedNames _ _, _ | .exportedValue _, _ | .enum _ _ _, _
  | .namespace _ _, _ | .alias _ _, _ | .typeOnly, _ => rfl

/-- The bindings of statements are their leaves. -/
lemma bindingsOf_statements {body : List Stmt} (ok : WellMarked (body.flatMap declaredBy)) :
    bindingsOf (body.flatMap declaredBy) = body.flatMap leavesBy :=
  bindingsOf_flatMap (fun _ _ => bindingsOf_declaredBy) ok

/-- The bindings of the parameters of a scope are its first leaves. -/
lemma bindingsOf_params {opening : Opening} (ok : WellMarked opening.params) :
    bindingsOf opening.params = opening.paramLeaves := by
  cases opening with
  | function params body => exact bindingsOf_items ok
  | _ => rfl

/-- The bindings of the body of a scope are its other leaves. -/
lemma bindingsOf_locals {opening : Opening} (ok : WellMarked opening.locals) :
    bindingsOf opening.locals = opening.localLeaves := by
  cases opening with
  | function params body =>
    cases body with
    | block body => exact bindingsOf_statements ok
    | none | expr _ => rfl
  | unit body | block body => exact bindingsOf_statements ok
  | switch cases =>
    refine bindingsOf_flatMap (fun c _ ok => ?_) ok
    cases c
    exact bindingsOf_statements ok
  | loop head _ | each head _ =>
    cases head with
    | vars kind decls => exact bindingsOf_variables ok
    | _ => rfl
  | handler param => exact bindingsOf_items ok

end

/-- A visited site stands at a location: the scopes of the walk are those around it. -/
structure Visit.At (v : Visit) (l : Location) : Prop where
  site : v.site = l.site
  frames : v.compiled.scopes.frames = l.around.map fun e => e.walked.reverse

/-- A run keeps the scopes. -/
lemma Plan.Runs.scopes {file : File} {p : Plan} {s t : State} {vs : List Visit}
    (ran : p.Runs file s vs t) : t.scopes = s.scopes := by
  induction ran with
  | done | remove | useTag => rfl
  | seq _ _ ih₁ ih₂ => exact ih₂.trans ih₁
  | scope declared _ declared' _ ih₁ ih₂ =>
    -- Declarations touch the innermost scope only, and that one is popped.
    have outer := outer_declareAll declared'
    rw [ih₁, outer_declareAll declared] at outer
    simp only [ih₂, Scopes.pop, outer]
    rfl
  | @site here _ s t _ _ _ _ compiled ih =>
    have kept := (exec_compileSite file s.edits.length here.chunks here.holes here.span t).1
    exact (congrArg (fun r => r.2.scopes) compiled).symm.trans (kept.trans ih)

/-- The sites of a run stand where their outline has them. -/
lemma Outline.visits_at {file : File} {o : Outline} {around : List Enclosing} {s t : State}
    {vs : List Visit} (frames : s.scopes.frames = around.map fun e => e.walked.reverse)
    (ran : (o.plan file).Runs file s vs t) :
    List.Forall₂ Visit.At vs (o.visited file.tag around) := by
  induction o generalizing around s t vs with
  | nothing | markers _ =>
    cases ran
    exact .nil
  | reference name =>
    rw [plan] at ran
    split at ran <;> cases ran <;> exact .nil
  | seq first second ih₁ ih₂ =>
    obtain _ | ⟨ran₁, ran₂⟩ := ran
    rw [visited_seq]
    exact List.rel_append (ih₁ frames ran₁) (ih₂ (ran₁.scopes ▸ frames) ran₂)
  | beside place inner rest _ ih =>
    rw [visited_beside]
    exact ih frames ran
  | template tag site holes ih =>
    rw [visited_template]
    rw [plan] at ran
    by_cases same : tag = file.tag
    · rw [if_pos same] at ran ⊢
      cases ran with
      | site ran compiled =>
        refine List.rel_append (ih frames ran) (.cons ⟨rfl, ?_⟩ .nil)
        exact (congrArg Scopes.frames ran.scopes).trans frames
    · rw [if_neg same] at ran ⊢
      cases ran with
      | seq nothing ran =>
        cases nothing
        rw [List.append_nil]
        exact ih frames ran
  | scope opening first second ih₁ ih₂ =>
    cases ran with
    | scope declared ran₁ declared' ran₂ =>
      have params := bindingsOf_params (exec_declareAll_ok.1 declared).1
      have locals := bindingsOf_locals (exec_declareAll_ok.1 declared').1
      rw [visited_scope]
      -- The first part sees the parameters only, the second one also the names of the body.
      have opened := frames_declareAll declared (congrArg ([] :: ·) frames)
      have inside := frames_declareAll declared' (ran₁.scopes ▸ opened)
      rw [params] at opened inside
      rw [locals] at inside
      refine List.rel_append (ih₁ ?_ ran₁) (ih₂ ?_ ran₂)
      · simpa [Enclosing.walked] using opened
      · simpa [Enclosing.walked] using inside

/-! ## Lexical scopes

A `var` belongs to the function, script or static block around it, however deep it stands. Other
declarations belong to the scope whose list they stand in, or to the loop in whose head they
stand. -/

mutual

/-- The variables of a statement that belong to the function around it. -/
def varsBy : Stmt → List Binding
  | .vars .var decls => leavesOfDecls decls
  | .vars .let _ | .vars .const _ | .vars .using _ => []
  | .block body => varsIn body
  | .cond _ yes no => varsBy yes ++ varsBy no
  | .loop head _ _ body => varsBy head ++ varsBy body
  | .each _ head _ body => varsBy head ++ varsBy body
  | .while _ body => varsBy body
  | .doWhile body _ => varsBy body
  | .switch _ cases => varsInCases cases
  | .try body _ handler finalizer =>
    varsIn body ++ (varsInBody handler ++ varsInBody finalizer)
  | .labeled _ body => varsBy body
  | .with _ body => varsBy body
  | .exported decl => varsBy decl
  | .exportedDefault decl => varsBy decl
  | .expr _ _ | .ret _ _ | .function _ | .class _ | .throw _ | .exit | .import _
  | .exportedNames _ _ | .exportedValue _ | .enum _ _ _ | .namespace _ _ | .alias _ _
  | .typeOnly => []

def varsIn : List Stmt → List Binding
  | [] => []
  | s :: ss => varsBy s ++ varsIn ss

def varsInCases : List Case → List Binding
  | [] => []
  | .mk _ body :: cases => varsIn body ++ varsInCases cases

def varsInBody : Body → List Binding
  | .none | .expr _ => []
  | .block body => varsIn body

end

/-- The other names that a statement declares in the scope around it. -/
def lexicalsBy : Stmt → List Binding
  | .vars .var _ => []
  | .vars _ decls => leavesOfDecls decls
  | .function (.mk name _ _) => leafOfName name
  | .class (.mk _ name _ _) => leafOfName name
  | .exported decl => lexicalsBy decl
  | .exportedDefault decl => lexicalsBy decl
  | .labeled _ body => lexicalsBy body
  | _ => []

/-- All names that a statement declares in a function of which it is a statement. -/
def namesBy (s : Stmt) : List Binding := lexicalsBy s ++ varsBy s

/-- The names that a statement declares in the function around it, but not by being a declaration
itself. The walk does not declare them there. -/
def strayBy : Stmt → List Binding
  | .vars _ _ | .function _ | .class _ => []
  | .exported decl => strayBy decl
  | s => namesBy s

/-- The names of a statement of a block that the walk declares in the block or leaves out of it,
though it should not. -/
def misplacedBy : Stmt → List Binding
  | .vars .var decls => leavesOfDecls decls
  | .vars _ _ | .function _ | .class _ => []
  | .exported decl => misplacedBy decl
  | s => lexicalsBy s

namespace Opening

/-- The names of a scope. -/
def lexicals : Opening → List Binding
  | .function params (.block body) => leavesOfItems false params ++ body.flatMap namesBy
  | .function params _ => leavesOfItems false params
  | .unit body => body.flatMap namesBy
  | .block body => body.flatMap lexicalsBy
  | .switch cases => cases.flatMap fun | .mk _ body => body.flatMap lexicalsBy
  | .loop (.vars kind decls) _ | .each (.vars kind decls) _ => lexicalsBy (.vars kind decls)
  | .loop _ _ | .each _ _ => []
  | .handler param => leavesOfItems false param

/-- The names that the walk declares in a scope to which they do not belong, or does not declare in
the one to which they belong. -/
def moved : Opening → List Binding
  | .function _ (.block body) | .unit body => body.flatMap strayBy
  | .function _ _ => []
  | .block body => body.flatMap misplacedBy
  | .switch cases => cases.flatMap fun | .mk _ body => body.flatMap misplacedBy
  | .loop (.vars kind decls) _ | .each (.vars kind decls) _ => misplacedBy (.vars kind decls)
  | .loop _ _ | .each _ _ => []
  | .handler _ => []

end Opening

namespace Enclosing

/-- The names of a scope that can be seen. -/
def visible (e : Enclosing) : List Binding :=
  if e.inBody then e.opening.lexicals else e.opening.paramLeaves

/-- The names of a scope that the walk moves. -/
def moved (e : Enclosing) : List Binding := if e.inBody then e.opening.moved else []

end Enclosing

/-- The declarations of a name. -/
def declarationsOf (x : String) (scope : List Binding) : List Binding :=
  scope.filter (·.name == x)

/-- The innermost declaration of a name. In one scope the last one counts. -/
def innermost? (x : String) (scopes : List (List Binding)) : Option Binding :=
  scopes.findSome? fun scope => (declarationsOf x scope).getLast?

/-- The innermost declaration of a name has a marker. -/
def MarkedIn (x : String) (scopes : List (List Binding)) : Prop :=
  ∃ b, innermost? x scopes = some b ∧ b.observable = true

/-- The walk finds the innermost of the declarations that it has made. -/
lemma isObservable_iff {scopes : Scopes} {around : List (List Binding)} {x : String}
    (frames : scopes.frames = around.map List.reverse) :
    scopes.isObservable x = true ↔ MarkedIn x around := by
  have found (scope : List Binding) :
      Scopes.find? x scope.reverse = (declarationsOf x scope).getLast?.map Binding.observable := by
    rw [Scopes.find?, declarationsOf, List.getLast?_filter]
  have all : (around.map List.reverse).findSome? (Scopes.find? x) =
      (innermost? x around).map Binding.observable := by
    rw [innermost?, List.map_findSome?, List.findSome?_map]
    exact congrArg (List.findSome? · around) (funext found)
  rw [Scopes.isObservable, ← Scopes.frames, frames, all]
  cases found : innermost? x around <;> simp [MarkedIn, found]

section

variable {x : String}

/-- A name that a scope does not have is not declared there. -/
lemma declarationsOf_eq_nil {scope : List Binding} (away : ∀ b ∈ scope, b.name ≠ x) :
    declarationsOf x scope = [] :=
  List.filter_eq_nil_iff.2 fun b mem => by simpa using away b mem

/-- The declarations of a name in two parts of a scope. -/
lemma declarationsOf_append (scope scope' : List Binding) :
    declarationsOf x (scope ++ scope') = declarationsOf x scope ++ declarationsOf x scope' :=
  List.filter_append ..

/-- The declarations of a name agree if they do in each item. -/
lemma declarationsOf_flatMap {α : Type} {items : List α} {f g : α → List Binding}
    (same : ∀ a ∈ items, declarationsOf x (f a) = declarationsOf x (g a)) :
    declarationsOf x (items.flatMap f) = declarationsOf x (items.flatMap g) := by
  simp only [declarationsOf, List.filter_flatMap]
  exact List.flatMap_congr same

/-- A statement of a function declares its own names and the stray ones. -/
lemma declarationsOf_namesBy :
    ∀ {s : Stmt}, (∀ b ∈ strayBy s, b.name ≠ x) →
      declarationsOf x (leavesBy s) = declarationsOf x (namesBy s)
  | .vars kind decls, _ => by
    cases kind <;> simp [leavesBy, namesBy, lexicalsBy, varsBy]
  | .function (.mk name _ _), _ | .class (.mk _ name _ _), _ => by
    simp [leavesBy, namesBy, lexicalsBy, varsBy]
  | .exported decl, away => declarationsOf_namesBy (s := decl) away
  | .expr _ _, away | .block _, away | .cond _ _ _, away | .ret _ _, away | .loop _ _ _ _, away
  | .each _ _ _ _, away | .while _ _, away | .doWhile _ _, away | .switch _ _, away
  | .try _ _ _ _, away | .labeled _ _, away | .throw _, away | .with _ _, away | .exit, away
  | .import _, away | .exportedDefault _, away | .exportedNames _ _, away
  | .exportedValue _, away | .enum _ _ _, away | .namespace _ _, away | .alias _ _, away
  | .typeOnly, away =>
    (declarationsOf_eq_nil away).symm

/-- A statement of a block declares its own names, apart from the misplaced ones. -/
lemma declarationsOf_lexicalsBy :
    ∀ {s : Stmt}, (∀ b ∈ misplacedBy s, b.name ≠ x) →
      declarationsOf x (leavesBy s) = declarationsOf x (lexicalsBy s)
  | .vars .var _, away => declarationsOf_eq_nil away
  | .vars .let _, _ | .vars .const _, _ | .vars .using _, _ => rfl
  | .function (.mk _ _ _), _ | .class (.mk _ _ _ _), _ => rfl
  | .exported decl, away => declarationsOf_lexicalsBy (s := decl) away
  | .expr _ _, away | .block _, away | .cond _ _ _, away | .ret _ _, away | .loop _ _ _ _, away
  | .each _ _ _ _, away | .while _ _, away | .doWhile _ _, away | .switch _ _, away
  | .try _ _ _ _, away | .labeled _ _, away | .throw _, away | .with _ _, away | .exit, away
  | .import _, away | .exportedDefault _, away | .exportedNames _ _, away
  | .exportedValue _, away | .enum _ _ _, away | .namespace _ _, away | .alias _ _, away
  | .typeOnly, away =>
    (declarationsOf_eq_nil away).symm

/-- A name that is not moved has the same declarations in a scope of the walk. -/
lemma Opening.declarationsOf_lexicals {opening : Opening} (away : ∀ b ∈ opening.moved, b.name ≠ x) :
    declarationsOf x (opening.paramLeaves ++ opening.localLeaves) =
      declarationsOf x opening.lexicals := by
  have each {body : List Stmt} {moved leaves : Stmt → List Binding}
      (away : ∀ b ∈ body.flatMap moved, b.name ≠ x)
      (same : ∀ s, (∀ b ∈ moved s, b.name ≠ x) →
        declarationsOf x (leavesBy s) = declarationsOf x (leaves s)) :
      declarationsOf x (body.flatMap leavesBy) = declarationsOf x (body.flatMap leaves) :=
    declarationsOf_flatMap fun s mem =>
      same s fun b isMoved => away b (List.mem_flatMap.2 ⟨s, mem, isMoved⟩)
  cases opening with
  | function params body =>
    cases body with
    | block body =>
      rw [lexicals, declarationsOf_append, declarationsOf_append]
      exact congrArg (_ ++ ·) (each away fun _ => declarationsOf_namesBy)
    | none | expr _ => exact congrArg (declarationsOf x) (List.append_nil _)
  | unit body => exact each away fun _ => declarationsOf_namesBy
  | block body => exact each away fun _ => declarationsOf_lexicalsBy
  | switch cases =>
    refine declarationsOf_flatMap fun c mem => ?_
    obtain ⟨test, body⟩ := c
    refine each (fun b isMoved => away b ?_) fun _ => declarationsOf_lexicalsBy
    exact List.mem_flatMap.2 ⟨_, mem, isMoved⟩
  | loop head _ | each head _ =>
    cases head with
    | vars kind decls => exact declarationsOf_lexicalsBy away
    | _ => rfl
  | handler param => rfl

/-- A name that is not moved is declared where it is visible. -/
lemma Enclosing.declarationsOf_visible {e : Enclosing} (away : ∀ b ∈ e.moved, b.name ≠ x) :
    declarationsOf x e.walked = declarationsOf x e.visible := by
  obtain ⟨opening, inBody⟩ := e
  cases inBody with
  | false => simp [walked, visible]
  | true => exact Opening.declarationsOf_lexicals away

/-- The innermost declaration of a name is a declaration of it. -/
lemma mem_of_innermost {scopes : List (List Binding)} {b : Binding}
    (found : innermost? x scopes = some b) : ∃ scope ∈ scopes, b ∈ scope ∧ b.name = x := by
  obtain ⟨scope, mem, last⟩ := List.exists_of_findSome?_eq_some found
  have isIn := List.mem_filter.1 (List.mem_of_getLast? last)
  exact ⟨scope, mem, isIn.1, by simpa using isIn.2⟩

/-- A name is moved in no scope around a site, or has no marker in any of them. -/
def Location.Settled (l : Location) (x : String) : Prop :=
  (∀ e ∈ l.around, ∀ b ∈ e.moved, b.name ≠ x) ∨
    ∀ e ∈ l.around, ∀ b ∈ e.walked ++ e.visible, b.name = x → b.observable = false

/-- The scopes of the walk and the lexical ones make the same settled names observable. -/
lemma Location.Settled.markedIn_iff {l : Location} (settled : l.Settled x) :
    MarkedIn x (l.around.map Enclosing.walked) ↔ MarkedIn x (l.around.map Enclosing.visible) := by
  rcases settled with unmoved | unmarked
  · have same : innermost? x (l.around.map Enclosing.walked) =
        innermost? x (l.around.map Enclosing.visible) := by
      have each (e : Enclosing) (mem : e ∈ l.around) :
          declarationsOf x e.walked = declarationsOf x e.visible :=
        Enclosing.declarationsOf_visible (unmoved e mem)
      have all := congrArg (List.findSome? List.getLast?) (List.map_congr_left each)
      simpa [innermost?, List.findSome?_map, Function.comp_def] using all
    rw [MarkedIn, same, MarkedIn]
  · -- Neither kind of scope has a declaration with a marker.
    have never {view : Enclosing → List Binding}
        (part : ∀ e, ∀ b ∈ view e, b ∈ e.walked ++ e.visible) :
        ¬ MarkedIn x (l.around.map view) := by
      rintro ⟨b, found, observable⟩
      obtain ⟨scope, mem, isIn, name⟩ := mem_of_innermost found
      obtain ⟨e, enclosing, rfl⟩ := List.mem_map.1 mem
      rw [unmarked e enclosing b (part e b isIn) name] at observable
      cases observable
    exact iff_of_false (never fun e b mem => List.mem_append_left _ mem)
      (never fun e b mem => List.mem_append_right _ mem)

end

/-- The observable names of every hole of every site of a script that is compiled. A name to which
the expression refers, other than the tag, is observable just if the innermost declaration that the
walk has made has a marker. Where the name is settled, that is the innermost declaration of the
script that is visible at the site. So the walk differs from the script only for names that have a
marker in one scope around the site, and are moved in one: a `var` that does not stand in the list
of its function, or the name of a labelled function or of a default export. -/
theorem observables_lexical (runtime : Runtime) (name : String) (source : List Char)
    (script : List Stmt) (s : State)
    (ok : (visitScript (scriptFile runtime name source script) script).exec {} = (.ok (), s)) :
    let file := scriptFile runtime name source script
    List.Forall₂
      (fun v l => v.site = l.site ∧ ∃ binders, v.binders file = .ok binders ∧
        ∀ c ∈ binders.flatMap Binder.entries, ∃ e, l.site.holes[c.slot]? = some e ∧ ∀ x,
          (x ∈ c.observables ↔ x ∈ e.freeNames ∧ x ≠ file.tag ∧
            MarkedIn x (l.around.map Enclosing.walked)) ∧
          (l.Settled x → (x ∈ c.observables ↔ x ∈ e.freeNames ∧ x ≠ file.tag ∧
            MarkedIn x (l.around.map Enclosing.visible))))
      (visitsOf file script) ((sitesOf file.tag script).filter Location.isVisited) := by
  intro file
  obtain ⟨t, declared, ran⟩ := runs_script ok
  have placed : List.Forall₂ Visit.At (visitsOf file script)
      ((sitesOf file.tag script).filter Location.isVisited) := by
    have frames := frames_declareAll declared rfl
    rw [bindingsOf_statements (exec_declareAll_ok.1 declared).1, List.append_nil] at frames
    rw [(sketches_statements file script).plan] at ran
    exact Outline.visits_at frames ran
  refine ((List.forall₂_and_left _ _).2 ⟨ran.code, placed⟩).imp ?_
  rintro v l ⟨⟨code, compiled⟩, here⟩
  obtain ⟨binders, binders_ok⟩ := v.binders_of_code compiled
  refine ⟨here.site, binders, binders_ok, fun c mem => ?_⟩
  obtain ⟨e, hole, observed⟩ := Visit.observables_entries binders_ok mem
  refine ⟨e, here.site ▸ hole, fun x => ?_⟩
  have walked : x ∈ c.observables ↔ x ∈ e.freeNames ∧ x ≠ file.tag ∧
      MarkedIn x (l.around.map Enclosing.walked) := by
    have frames : v.compiled.scopes.frames = (l.around.map Enclosing.walked).map List.reverse := by
      rw [here.frames, List.map_map]
      rfl
    rw [observed, mem_observables, isObservable_iff frames]
  exact ⟨walked, fun settled => by rw [walked, settled.markedIn_iff]⟩

/-- A script with a `var` in a block that hides a parameter outside. -/
def hoistedScript : List Stmt :=
  [.expr (.arrow (.mk none
    [.item [] (.withDefault (.name ⟨"x", ⟨1, 2⟩⟩ ⟨1, 2⟩) (.name ⟨"$", ⟨3, 4⟩⟩) ⟨1, 4⟩),
     .item [] (.withDefault (.name ⟨"y", ⟨5, 6⟩⟩ ⟨5, 6⟩) (.name ⟨"$", ⟨7, 8⟩⟩) ⟨5, 8⟩)]
    (.expr (.arrow (.mk none [] (.block
      [.block [.vars .var [.mk (.name ⟨"x", ⟨21, 22⟩⟩ ⟨21, 22⟩) (some (.literal ⟨23, 24⟩))]],
       .ret (some (.tagged (.name ⟨"_", ⟨33, 34⟩⟩)
        [⟨"", ⟨35, 35⟩⟩, ⟨"", ⟨39, 39⟩⟩, ⟨"", ⟨43, 43⟩⟩]
        [.name ⟨"x", ⟨37, 38⟩⟩, .name ⟨"y", ⟨41, 42⟩⟩] ⟨33, 44⟩)) ⟨26, 44⟩]))
      ⟨11, 45⟩))) ⟨0, 45⟩) ⟨0, 45⟩]

/-- The text of the script. -/
def hoistedSource : List Char :=
  "(x=$,y=$)=>()=>\x7b\x7bvar x=1;\x7dreturn _`$\x7bx\x7d$\x7by\x7d`\x7d".toList

/-- Both parameters are observable in the template, although the `var` hides the first one. -/
theorem observables_lexical_hoisted :
    let file := scriptFile {} "a.js" hoistedSource hoistedScript
    ∃ v l b c, visitsOf file hoistedScript = [v] ∧
      (sitesOf file.tag hoistedScript).filter Location.isVisited = [l] ∧
      v.binders file = .ok [b, c] ∧
      (l.Settled "y" ∧ MarkedIn "y" (l.around.map Enclosing.visible) ∧ "y" ∈ c.observables) ∧
      ¬ MarkedIn "x" (l.around.map Enclosing.visible) ∧ "x" ∈ b.observables := by
  intro file
  have compiled : ((visitScript file hoistedScript).exec {}).1.isOk = true := by decide +kernel
  have slots : (visitsOf file hoistedScript).map (fun v =>
      (v.binders file).toOption.map (·.map Binder.slot)) = [some [0, 1]] := by decide +kernel
  have places : ((sitesOf file.tag hoistedScript).filter Location.isVisited).map (fun l =>
      (l.site.holes.map Expr.freeNames, l.around.map Enclosing.walked,
        l.around.map Enclosing.visible, l.around.map Enclosing.moved)) =
      [([["x"], ["y"]], [[], [⟨"x", true⟩, ⟨"y", true⟩], []],
        [[⟨"x", false⟩], [⟨"x", true⟩, ⟨"y", true⟩], []], [[⟨"x", false⟩], [], []])] := by decide
  rcases ok : (visitScript file hoistedScript).exec {} with ⟨failure | _, s⟩
  · rw [ok] at compiled
    cases compiled
  have all := observables_lexical {} "a.js" hoistedSource hoistedScript s ok
  obtain ⟨v, visits, slots⟩ := List.map_eq_singleton_iff.1 slots
  obtain ⟨l, locations, places⟩ := List.map_eq_singleton_iff.1 places
  simp only [Prod.mk.injEq] at places
  obtain ⟨free, walked, visible, moved⟩ := places
  change List.Forall₂ _ (visitsOf file hoistedScript) ((sitesOf file.tag hoistedScript).filter _)
    at all
  rw [visits, locations] at all
  obtain ⟨-, binders, binders_ok, each⟩ := (List.forall₂_cons.1 all).1
  rw [binders_ok] at slots
  obtain ⟨b, _, rfl, slot, slots⟩ := List.map_eq_cons_iff.1 (Option.some.inj slots)
  obtain ⟨c, rfl, slot'⟩ := List.map_eq_singleton_iff.1 slots
  obtain ⟨e, hole, observed⟩ := each b (by simp [Binder.entries])
  obtain ⟨e', hole', observedY⟩ := each c (by simp [Binder.entries])
  rw [slot] at hole
  rw [slot'] at hole'
  -- The holes refer to one name each.
  have first : some e.freeNames = some ["x"] := by
    rw [← Option.map_some, ← hole, ← List.getElem?_map, free]
    rfl
  have second : some e'.freeNames = some ["y"] := by
    rw [← Option.map_some, ← hole', ← List.getElem?_map, free]
    rfl
  have settled : l.Settled "y" := by
    have unmoved : ∀ scope ∈ l.around.map Enclosing.moved, ∀ b ∈ scope, b.name ≠ "y" := by
      rw [moved]
      decide
    exact .inl fun e mem => unmoved _ (List.mem_map_of_mem mem)
  have marked : MarkedIn "y" (l.around.map Enclosing.visible) := by
    rw [visible]
    exact ⟨⟨"y", true⟩, rfl, rfl⟩
  refine ⟨v, l, b, c, visits, locations, binders_ok, ⟨settled, marked, ?_⟩, ?_, ?_⟩
  · refine ((observedY "y").2 settled).2 ⟨?_, by decide, marked⟩
    rw [Option.some.inj second]
    exact List.mem_singleton_self "y"
  · rw [visible]
    rintro ⟨_, found, observable⟩
    cases found
    cases observable
  · refine (observed "x").1.2 ⟨?_, by decide, ?_⟩
    · rw [Option.some.inj first]
      exact List.mem_singleton_self "x"
    · rw [walked]
      exact ⟨⟨"x", true⟩, rfl, rfl⟩

end Compile

end TaggedMarkup

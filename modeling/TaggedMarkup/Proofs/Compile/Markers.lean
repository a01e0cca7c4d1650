import Mathlib
import TaggedMarkup.Proofs.Compile.Introduced
import TaggedMarkup.Proofs.Compile.Lexical
import TaggedMarkup.Proofs.Compile.Stable

/-!
# Markers that are taken out and names that are declared

For every scope that the walk opens there is the state in which its parameters are visited, and the
one in which its body is (`Entered`). The names of its patterns are declared in these states, each
pattern after its markers have been checked, unless the pattern is loose (`Entered.Registered`). The
markers of its patterns are taken out, unless the pattern belongs to a handler
(`Outline.perm_removals`). A site is compiled in the states of the scopes around its place
(`Outline.visits_within`).

So the two agree on the patterns in all other roles. A loose pattern loses its markers though its
names are not declared, and the names in a handler are declared though their markers stay
(`markers_by_role`).
-/

namespace TaggedMarkup.Compile

open Script
open Source (Edit)
open Walk

/-! ## Scopes that are opened -/

/-- A scope that the walk opens, with the states in front of its two parts. -/
structure Entered where
  opening : Opening
  first : State
  second : State

/-- The scopes that the walk opens, the outer ones in front. -/
def Outline.entered (file : File) : Outline → State → List Entered
  | .nothing, _ | .reference _, _ | .markers _, _ => []
  | .seq first second, s =>
    first.entered file s ++ second.entered file (((first.plan file).run file).exec s).2
  | .beside _ _ rest, s => rest.entered file s
  | .template _ _ holes, s => holes.entered file s
  | .scope opening first second, s =>
    let opened := ((declareAll opening.params).exec { s with scopes := s.scopes.push }).2
    let visited := (((first.plan file).run file).exec opened).2
    let inside := ((declareAll opening.locals).exec visited).2
    ⟨opening, opened, inside⟩ :: (first.entered file opened ++ second.entered file inside)

/-- The scopes of a whole script, which is one itself. -/
def enteredOf (file : File) (script : List Stmt) : List Entered :=
  let inside := ((declareAll (script.flatMap declaredBy)).exec {}).2
  ⟨.unit script, {}, inside⟩ :: (outlineStatements script).entered file inside

/-- The edits that take spans out. -/
def removalsOf (spans : List Span) : List Edit :=
  spans.map fun span => .remove span.start span.stop

/-- Markers are taken out one after the other. -/
lemma removalsOf_append (xs ys : List Span) :
    removalsOf (xs ++ ys) = removalsOf xs ++ removalsOf ys := List.map_append

/-- The markers that are taken out are those of the scopes that are opened and of the one around. -/
lemma Outline.perm_removals {o : Outline} (owned : o.Owned) (file : File) (s : State) :
    (o.plan file).removals.Perm
      (removalsOf o.own ++ (o.entered file s).flatMap fun e => removalsOf e.opening.markers) := by
  induction o generalizing s with
  | nothing => exact .refl _
  | reference name =>
    rw [plan]
    split <;> exact .refl _
  | markers spans => exact .of_eq (List.append_nil _).symm
  | seq first second ih₁ ih₂ =>
    rw [own, removalsOf_append, entered, List.flatMap_append]
    exact ((ih₁ owned.1 s).append (ih₂ owned.2 _)).trans (perm_append_middle ..)
  | beside place inner rest _ ih => exact ih owned s
  | template tag site holes ih =>
    rw [plan]
    split <;> exact ih owned s
  | scope opening first second ih₁ ih₂ =>
    obtain ⟨all, owned₁, owned₂⟩ := owned
    rw [own, entered, List.flatMap_cons, List.flatMap_append, ← all, removalsOf_append]
    exact ((ih₁ owned₁ _).append (ih₂ owned₂ _)).trans (perm_append_middle ..)

/-! ## Names that are declared -/

/-- In the states of a scope just the names are declared that the opening tells, and none of its
patterns has a misplaced marker. -/
structure Entered.Registered (e : Entered) : Prop where
  wellMarked : WellMarked (e.opening.params ++ e.opening.locals)
  first : e.first.scopes.inner = (bindingsOf e.opening.params).reverse
  second : e.second.scopes.inner = (bindingsOf (e.opening.params ++ e.opening.locals)).reverse

/-- What is declared stands in the innermost scope, the latest first. -/
lemma inner_declareAll {names : Declared} {s t : State}
    (ok : (declareAll names).exec s = (.ok (), t)) :
    t.scopes.inner = (bindingsOf names).reverse ++ s.scopes.inner := by
  obtain ⟨-, rfl⟩ := exec_declareAll_ok.1 ok
  rw [declareAll_eq]

/-- Every scope that a walk opens is registered. -/
lemma Outline.registered {file : File} {o : Outline} {s t : State}
    (ok : ((o.plan file).run file).exec s = (.ok (), t)) :
    ∀ e ∈ o.entered file s, e.Registered := by
  induction o generalizing s t with
  | nothing | reference _ | markers _ => exact fun _ mem => absurd mem List.not_mem_nil
  | seq first second ih₁ ih₂ =>
    obtain ⟨_, u, ok₁, ok₂⟩ := exec_bind_ok.1 ok
    rw [entered, ok₁]
    exact List.forall_mem_append.2 ⟨ih₁ ok₁, ih₂ ok₂⟩
  | beside place inner rest _ ih => exact ih ok
  | template tag site holes ih =>
    rw [plan] at ok
    split at ok
    · obtain ⟨_, _, got, ok⟩ := exec_bind_ok.1 ok
      cases got
      obtain ⟨_, _, ok, -⟩ := exec_bind_ok.1 ok
      exact ih ok
    · obtain ⟨_, _, done, ok⟩ := exec_bind_ok.1 ok
      cases done
      exact ih ok
  | scope opening first second ih₁ ih₂ =>
    obtain ⟨_, inner, rfl⟩ := exec_inScope_ok.1 ok
    obtain ⟨_, opened, declared, inner⟩ := exec_bind_ok.1 inner
    obtain ⟨_, visited, ok₁, inner⟩ := exec_bind_ok.1 inner
    obtain ⟨_, inside, declared', ok₂⟩ := exec_bind_ok.1 inner
    rw [entered, declared, ok₁, declared']
    refine List.forall_mem_cons.2 ⟨⟨?_, ?_, ?_⟩, List.forall_mem_append.2 ⟨ih₁ ok₁, ih₂ ok₂⟩⟩
    · exact wellMarked_append.2
        ⟨(exec_declareAll_ok.1 declared).1, (exec_declareAll_ok.1 declared').1⟩
    · exact (inner_declareAll declared).trans (List.append_nil _)
    · have params := (inner_declareAll declared).trans (List.append_nil _)
      -- The first part leaves the scopes as they are.
      rw [inner_declareAll declared', (Plan.runs_of_ok ok₁).scopes, params, bindingsOf_append,
        List.reverse_append]

/-! ## Scopes around a site -/

/-- The names in scope in front of a part. -/
def Entered.names (e : Entered) (inBody : Bool) : Scopes :=
  if inBody then e.second.scopes else e.first.scopes

/-- The names in scope are those in front of the innermost part around, which belongs to a scope
that has been opened. Outside of its own names there are those of the next part around, and so on
up to the script. -/
inductive Standing (scopes : List Entered) : List Enclosing → Scopes → Prop where
  | script {e} : e ∈ scopes → e.second.scopes.outer = [] →
    Standing scopes [⟨e.opening, true⟩] e.second.scopes
  | inside {e inBody around outside} : e ∈ scopes → Standing scopes around outside →
    (e.names inBody).outer = outside.frames →
    Standing scopes (⟨e.opening, inBody⟩ :: around) (e.names inBody)

/-- A site is compiled in the scopes around its place. -/
structure Visit.Within (scopes : List Entered) (v : Visit) (l : Location) : Prop where
  site : v.site = l.site
  standing : Standing scopes l.around v.compiled.scopes

/-- The sites of a run are compiled in the scopes around their places. -/
lemma Outline.visits_within {file : File} {scopes : List Entered} {o : Outline}
    {around : List Enclosing} {s t : State} (standing : Standing scopes around s.scopes)
    (ok : ((o.plan file).run file).exec s = (.ok (), t)) (opened : o.entered file s ⊆ scopes) :
    List.Forall₂ (Visit.Within scopes) ((o.plan file).visits file s)
      (o.visited file.tag around) := by
  induction o generalizing around s t with
  | nothing | markers _ => exact .nil
  | reference name =>
    rw [plan]
    split <;> exact .nil
  | seq first second ih₁ ih₂ =>
    obtain ⟨_, u, ok₁, ok₂⟩ := exec_bind_ok.1 ok
    rw [entered, ok₁] at opened
    obtain ⟨opened₁, opened₂⟩ := List.append_subset.1 opened
    rw [visited_seq, plan, Plan.visits, ok₁]
    refine List.rel_append (ih₁ standing ok₁ opened₁) (ih₂ ?_ ok₂ opened₂)
    exact (Plan.runs_of_ok ok₁).scopes ▸ standing
  | beside place inner rest _ ih =>
    rw [visited_beside]
    exact ih standing ok opened
  | template tag site holes ih =>
    rw [visited_template]
    rw [plan] at ok ⊢
    by_cases same : tag = file.tag
    · rw [if_pos same] at ok ⊢
      obtain ⟨_, _, got, ok⟩ := exec_bind_ok.1 ok
      cases got
      obtain ⟨_, u, visited, -⟩ := exec_bind_ok.1 ok
      rw [if_pos same, Plan.visits, visited]
      refine List.rel_append (ih standing visited opened) (.cons ⟨rfl, ?_⟩ .nil)
      exact (Plan.runs_of_ok visited).scopes ▸ standing
    · rw [if_neg same] at ok ⊢
      obtain ⟨_, _, done, ok⟩ := exec_bind_ok.1 ok
      cases done
      rw [if_neg same, List.append_nil]
      exact ih standing ok opened
  | scope opening first second ih₁ ih₂ =>
    obtain ⟨_, inner, rfl⟩ := exec_inScope_ok.1 ok
    obtain ⟨_, before, declared, inner⟩ := exec_bind_ok.1 inner
    obtain ⟨_, visited, ok₁, inner⟩ := exec_bind_ok.1 inner
    obtain ⟨_, inside, declared', ok₂⟩ := exec_bind_ok.1 inner
    rw [entered, declared, ok₁, declared'] at opened
    obtain ⟨here, opened⟩ := List.cons_subset.1 opened
    obtain ⟨opened₁, opened₂⟩ := List.append_subset.1 opened
    -- Both parts see the names outside of the scope as they were when it was opened.
    have outer : before.scopes.outer = s.scopes.frames := outer_declareAll declared
    have outer' : inside.scopes.outer = s.scopes.frames := by
      rw [outer_declareAll declared', (Plan.runs_of_ok ok₁).scopes, outer]
    simp only [visited_scope, plan, Plan.visits]
    rw [declared, ok₁, declared']
    have first' : Standing scopes (⟨opening, false⟩ :: around) before.scopes :=
      .inside here standing outer
    have second' : Standing scopes (⟨opening, true⟩ :: around) inside.scopes :=
      .inside here standing outer'
    exact List.rel_append (ih₁ first' ok₁ opened₁) (ih₂ second' ok₂ opened₂)

/-! ## Names of patterns -/

/-- The names of functions and classes that a statement of a list declares. -/
def namedBy : Stmt → List String
  | .function (.mk name _ _) => (name.map Name.text).toList
  | .class (.mk _ name _ _) => (name.map Name.text).toList
  | .exported decl => namedBy decl
  | _ => []

/-- The names of functions and classes that a scope declares. -/
def Opening.named : Opening → List String
  | .function _ (.block body) | .unit body | .block body => body.flatMap namedBy
  | .switch cases => cases.flatMap fun | .mk _ body => body.flatMap namedBy
  | .function _ _ | .loop _ _ | .each _ _ | .handler _ => []

/-- The patterns whose names are declared. -/
def settledOf (is : List Introduced) : List Introduced := is.filter (·.role ≠ .loose)

/-- The patterns that are parameters. -/
def parametersOf (is : List Introduced) : List Introduced := is.filter (·.role = .parameter)

/-- What patterns declare. -/
def declaredOf (is : List Introduced) : Declared := is.map (·.pattern.bindings)

/-- What names without a marker declare. -/
def declaredNames (names : List String) : Declared := names.map fun name => .ok [⟨name, false⟩]

/-- Settled patterns of two lists. -/
lemma settledOf_append (is js : List Introduced) :
    settledOf (is ++ js) = settledOf is ++ settledOf js := List.filter_append ..

/-- Declarations of two lists of patterns. -/
lemma declaredOf_append (is js : List Introduced) :
    declaredOf (is ++ js) = declaredOf is ++ declaredOf js := List.map_append

/-- Patterns in a role that is not loose are all declared. -/
lemma settledOf_as {role : Role} (settled : role ≠ .loose) (ps : List Pattern) :
    declaredOf (settledOf (introducedAs role ps)) = ps.map Pattern.bindings := by
  have all : settledOf (introducedAs role ps) = introducedAs role ps :=
    (filter_introducedAs (fun role => role ≠ .loose) role ps).trans
      (if_pos (decide_eq_true settled))
  rw [all, declaredOf, introducedAs, List.map_map]
  rfl

/-- Variables in a role that is not loose are all declared. -/
lemma settledOf_decls {role : Role} (settled : role ≠ .loose) (decls : List Declarator) :
    declaredOf (settledOf (introducedDecls role decls)) = declaredVariables decls := by
  rw [introducedDecls, settledOf_as settled, List.map_map, declaredVariables]
  apply List.map_congr_left
  rintro ⟨target, value⟩ -
  rfl

/-- A statement introduces patterns in its own role and loose ones. -/
lemma filter_introducedBy (keeps : Role → Bool) {role : Role} (own : keeps role = false)
    (loose : keeps .loose = false) :
    ∀ s : Stmt, (introducedBy role s).filter (fun i => keeps i.role) = []
  | .vars _ _ => (filter_introducedAs keeps role _).trans (if_neg (by rw [own]; decide))
  | .exported decl => filter_introducedBy keeps own loose decl
  | .cond _ yes no =>
    (List.filter_append ..).trans <| congrArg₂ (· ++ ·) (filter_introducedBy keeps loose loose yes)
      (filter_introducedBy keeps loose loose no)
  | .exportedDefault body | .while _ body | .doWhile body _ | .labeled _ body =>
    filter_introducedBy keeps loose loose body
  | .expr _ _ | .block _ | .ret _ _ | .function _ | .class _ | .loop _ _ _ _ | .each _ _ _ _
  | .switch _ _ | .try _ _ _ _ | .throw _ | .with _ _ | .exit | .import _ | .exportedNames _ _
  | .exportedValue _ | .enum _ _ _ | .namespace _ _ | .alias _ _ | .typeOnly => rfl

/-- What stands in no list is not declared. -/
lemma settledOf_loose (s : Stmt) : settledOf (introducedBy .loose s) = [] :=
  filter_introducedBy (fun role => role ≠ .loose) rfl rfl s

/-- Parameters of two lists. -/
lemma parametersOf_append (is js : List Introduced) :
    parametersOf (is ++ js) = parametersOf is ++ parametersOf js := List.filter_append ..

/-- A statement has no parameters. -/
lemma parametersOf_by {role : Role} (other : role ≠ .parameter) (s : Stmt) :
    parametersOf (introducedBy role s) = [] :=
  filter_introducedBy (fun role => role = .parameter) (decide_eq_false other) rfl s

/-- Items without parameters have none together. -/
lemma parametersOf_flatMap {α : Type} {items : List α} {introduced : α → List Introduced}
    (each : ∀ a, parametersOf (introduced a) = []) :
    parametersOf (items.flatMap introduced) = [] := by
  rw [parametersOf, List.filter_flatMap, List.flatMap_eq_nil_iff]
  exact fun a _ => each a

/-- A list of statements has no parameters. -/
lemma parametersOf_list (body : List Stmt) :
    parametersOf (body.flatMap (introducedBy .listed)) = [] :=
  parametersOf_flatMap (parametersOf_by (by decide))

/-- Patterns in another role are no parameters. -/
lemma parametersOf_as {role : Role} (other : role ≠ .parameter) (ps : List Pattern) :
    parametersOf (introducedAs role ps) = [] :=
  (filter_introducedAs (fun role => role = .parameter) role ps).trans
    (if_neg (mt of_decide_eq_true other))

/-- A statement declares its settled patterns and its names. -/
lemma declaredBy_eq :
    ∀ s : Stmt, declaredBy s =
      declaredOf (settledOf (introducedBy .listed s)) ++ declaredNames (namedBy s)
  | .vars _ decls => by
    rw [introducedBy, settledOf_decls (by decide)]
    exact (List.append_nil _).symm
  | .function (.mk name _ _) | .class (.mk _ name _ _) => by cases name <;> rfl
  | .exported decl => declaredBy_eq decl
  | .cond test yes no => by
    rw [introducedBy, settledOf_append, settledOf_loose, settledOf_loose]
    rfl
  | .exportedDefault body | .while _ body | .doWhile body _ | .labeled _ body => by
    rw [introducedBy, settledOf_loose]
    rfl
  | .expr _ _ | .block _ | .ret _ _ | .loop _ _ _ _ | .each _ _ _ _ | .switch _ _
  | .try _ _ _ _ | .throw _ | .with _ _ | .exit | .import _ | .exportedNames _ _
  | .exportedValue _ | .enum _ _ _ | .namespace _ _ | .alias _ _ | .typeOnly => rfl

/-- Items that each declare their settled patterns and their names do so together. -/
lemma perm_declared_flatMap {α : Type} {items : List α} {declared : α → Declared}
    {introduced : α → List Introduced} {named : α → List String}
    (each : ∀ a, (declared a).Perm
      (declaredOf (settledOf (introduced a)) ++ declaredNames (named a))) :
    (items.flatMap declared).Perm
      (declaredOf (settledOf (items.flatMap introduced)) ++
        declaredNames (items.flatMap named)) := by
  induction items with
  | nil => exact .refl _
  | cons a items ih =>
    rw [List.flatMap_cons, List.flatMap_cons, List.flatMap_cons, settledOf_append, declaredOf,
      declaredNames, List.map_append, List.map_append]
    exact ((each a).append ih).trans (perm_append_middle ..)

/-- A list of statements declares its settled patterns and its names. -/
lemma perm_declared_list (body : List Stmt) :
    (body.flatMap declaredBy).Perm
      (declaredOf (settledOf (body.flatMap (introducedBy .listed))) ++
        declaredNames (body.flatMap namedBy)) :=
  perm_declared_flatMap fun s => .of_eq (declaredBy_eq s)

namespace Opening

/-- A scope declares its patterns, all but the loose ones, and the names of its functions and
classes. -/
lemma perm_declared (opening : Opening) :
    (opening.params ++ opening.locals).Perm
      (declaredOf (settledOf opening.introduced) ++ declaredNames opening.named) := by
  -- What stands in the body of a loop without braces is loose, so only its head counts.
  have behind (is : List Introduced) (s : Stmt) :
      declaredOf (settledOf (is ++ introducedBy .loose s)) = declaredOf (settledOf is) := by
    rw [settledOf_append, settledOf_loose, List.append_nil]
  cases opening with
  | function params body =>
    have split : declaredOf (settledOf (introduced (.function params body))) =
        declaredItems params ++ declaredOf (settledOf (introducedBody body)) := by
      rw [introduced, settledOf_append, declaredOf_append, introducedItems,
        settledOf_as (by decide), declaredItems]
    rw [split, List.append_assoc]
    apply List.Perm.append_left
    cases body with
    | block body => exact perm_declared_list body
    | none | expr _ => exact .refl _
  | unit body | block body => exact perm_declared_list body
  | switch cases =>
    apply perm_declared_flatMap
    rintro ⟨test, body⟩
    exact perm_declared_list body
  | loop start body =>
    apply List.Perm.of_eq
    rw [introduced, behind]
    refine Eq.trans ?_ (List.append_nil _).symm
    cases start with
    | vars kind decls => exact (settledOf_decls (by decide) decls).symm
    | _ => exact (congrArg declaredOf (settledOf_loose _)).symm
  | each start body =>
    apply List.Perm.of_eq
    refine Eq.trans ?_ (List.append_nil _).symm
    cases start with
    | vars kind decls => exact ((behind _ body).trans (settledOf_decls (by decide) decls)).symm
    | _ => exact (behind [] body).symm
  | handler param =>
    apply List.Perm.of_eq
    rw [introduced, introducedItems, settledOf_as (by decide)]
    exact (List.append_nil _).symm

/-- Only a function has parameters. -/
lemma params_eq (opening : Opening) :
    opening.params = declaredOf (parametersOf opening.introduced) := by
  have none {is : List Introduced} (no : parametersOf is = []) :
      [] = declaredOf (parametersOf is) := by rw [no]; rfl
  have both {is js : List Introduced} (no : parametersOf is = []) (no' : parametersOf js = []) :
      parametersOf (is ++ js) = [] := by rw [parametersOf_append, no, no']; rfl
  cases opening with
  | function params body =>
    have own : parametersOf (introducedItems .parameter params) =
        introducedItems .parameter params :=
      filter_introducedAs (fun role => role = .parameter) .parameter _
    have rest : parametersOf (introducedBody body) = [] := by
      cases body with
      | block body => exact parametersOf_list body
      | none | expr _ => rfl
    rw [introduced, parametersOf_append, own, rest, List.append_nil, introducedItems, declaredOf,
      introducedAs, List.map_map]
    rfl
  | unit body | block body => exact none (parametersOf_list body)
  | switch cases =>
    apply none
    apply parametersOf_flatMap
    rintro ⟨test, body⟩
    exact parametersOf_list body
  | loop start body =>
    refine none (both ?_ (parametersOf_by (by decide) body))
    cases start with
    | vars kind decls => exact parametersOf_as (by decide) _
    | _ => exact parametersOf_by (by decide) _
  | each start body =>
    cases start with
    | vars kind decls =>
      exact none (both (parametersOf_as (by decide) _) (parametersOf_by (by decide) body))
    | _ => exact none (parametersOf_by (by decide) body)
  | handler param => exact none (parametersOf_as (by decide) _)

end Opening

/-! ## Patterns in their scopes -/

/-- The names of patterns. -/
def leavesIn (is : List Introduced) : List Binding := is.flatMap (·.pattern.leaves false)

/-- Names without a marker. -/
def unmarked (names : List String) : List Binding := names.map fun name => ⟨name, false⟩

/-- The bindings of patterns without misplaced markers are their leaves. -/
lemma bindingsOf_declaredOf {is : List Introduced} (ok : WellMarked (declaredOf is)) :
    bindingsOf (declaredOf is) = leavesIn is := by
  induction is with
  | nil => rfl
  | cons i is ih => exact bindingsOf_cons ok ih

/-- The bindings of names have no markers. -/
lemma bindingsOf_declaredNames (names : List String) :
    bindingsOf (declaredNames names) = unmarked names := by
  rw [bindingsOf, declaredNames, List.flatMap_map]
  exact List.flatMap_pure_eq_map _ _

namespace Entered.Registered

variable {e : Entered}

/-- No settled pattern of a registered scope has a misplaced marker. -/
lemma settled (registered : e.Registered) :
    WellMarked (declaredOf (settledOf e.opening.introduced)) := by
  have all : WellMarked (declaredOf (settledOf e.opening.introduced) ++
      declaredNames e.opening.named) :=
    fun result mem => registered.wellMarked result (e.opening.perm_declared.mem_iff.2 mem)
  exact (wellMarked_append.1 all).1

/-- The markers of each pattern that is not loose are in order. -/
lemma checked (registered : e.Registered) {i : Introduced} (mem : i ∈ e.opening.introduced)
    (settled : i.role ≠ .loose) : ∃ bs, i.pattern.bindings = .ok bs :=
  registered.settled _ (List.mem_map_of_mem (List.mem_filter.2 ⟨mem, decide_eq_true settled⟩))

/-- Where its parameters are visited, a registered scope has just their names. -/
lemma perm_first (registered : e.Registered) :
    e.first.scopes.inner.Perm (leavesIn (parametersOf e.opening.introduced)) := by
  have ok := (wellMarked_append.1 registered.wellMarked).1
  rw [registered.first]
  rw [e.opening.params_eq] at ok ⊢
  rw [bindingsOf_declaredOf ok]
  exact List.reverse_perm _

/-- Where its body is visited, a registered scope has the names of its settled patterns, and those
that it declares without a pattern. -/
lemma perm_second (registered : e.Registered) :
    e.second.scopes.inner.Perm
      (leavesIn (settledOf e.opening.introduced) ++ unmarked e.opening.named) := by
  rw [registered.second, ← bindingsOf_declaredOf registered.settled, ← bindingsOf_declaredNames,
    ← bindingsOf_append]
  exact (List.reverse_perm _).trans (e.opening.perm_declared.flatMap_right _)

end Entered.Registered

section

variable {file : File} {script : List Stmt}

/-- Every scope of a script that is visited to its end is registered. -/
lemma registered_script {s : State} (ok : (visitScript file script).exec {} = (.ok (), s)) :
    ∀ e ∈ enteredOf file script, e.Registered := by
  rw [visitScript_eq_run, (sketches_statements file script).plan] at ok
  obtain ⟨_, t, declared, ran⟩ := exec_bind_ok.1 ok
  rw [enteredOf, declared]
  refine List.forall_mem_cons.2 ⟨⟨?_, rfl, ?_⟩, Outline.registered ran⟩
  · exact (exec_declareAll_ok.1 declared).1
  · exact (inner_declareAll declared).trans (List.append_nil _)

/-- The markers that are taken out of a script are those of its scopes. -/
lemma perm_removals_script :
    (planStatements file script).removals.Perm
      ((enteredOf file script).flatMap fun e => removalsOf (strippedOf e.opening.introduced)) := by
  have owns := owns_statements script
  rw [(sketches_statements file script).plan, enteredOf, List.flatMap_cons]
  simp only [← Opening.markers_eq]
  rw [show (Opening.unit script).markers = (outlineStatements script).own from owns.own.symm]
  exact Outline.perm_removals owns.owned file _

/-- The sites of a script are compiled in the scopes around their places. -/
lemma visitsOf_within {s : State} (ok : (visitScript file script).exec {} = (.ok (), s)) :
    List.Forall₂ (Visit.Within (enteredOf file script)) (visitsOf file script)
      ((sitesOf file.tag script).filter Location.isVisited) := by
  rw [visitScript_eq_run, (sketches_statements file script).plan] at ok
  obtain ⟨_, t, declared, ran⟩ := exec_bind_ok.1 ok
  rw [visitsOf, (sketches_statements file script).plan, enteredOf, declared]
  refine Outline.visits_within (.script (.head _) ?_) ran (List.subset_cons_self ..)
  exact outer_declareAll declared

end

/-- What becomes of the patterns of a script that is compiled, by their roles.

* The markers of a pattern are taken out of the source, unless it is the parameter of a handler. No
  other markers are taken out. Those inside the holes of a site are taken out of the texts of the
  holes, if the script is laid out.
* The names of a pattern are declared with their markers in the scope of the pattern, after the
  markers have been checked, unless it is loose. Parameters are declared in front of the first part
  of the scope, where defaults are visited, and all other patterns in front of the second one.
* Each site is compiled in the scopes around its place.

So both are done for a parameter, a variable in a list and one in the head of a loop. For the
parameter of a handler only the second is done, and only the first for a loose variable. -/
theorem markers_by_role (runtime : Runtime) (name source output : String)
    (compiled : (compileSource runtime name source).result = .ok output) :
    ∃ script s, parseScript (Dialect.ofFilename name) source.toList = some script ∧
      let imports := Imports.ofScript runtime source.toList script
      let file := scriptFile runtime name source.toList script
      let visits := visitsOf file script
      let scopes := enteredOf file script
      (visitScript file script).exec {} = (.ok (), s) ∧
      output = (if s.sites.isEmpty then source
        else (Source.applyAll? source.toList (s.edits ++ imports.edits runtime
          s.tables.importNames s.tables.declarations (0 < s.tagUses))).getD "") ∧
      (s.edits ++ visits.flatMap Visit.inner).Perm
        (scopes.flatMap (fun e => removalsOf (strippedOf e.opening.introduced)) ++
          visits.flatMap (Visit.edits file)) ∧
      (LaidOut source.toList (treesOfStatements script) →
        ∀ v ∈ visits, HolesApart file v.site.holes v.inner) ∧
      (∀ e ∈ scopes,
        (∀ i ∈ e.opening.introduced, i.role ≠ .loose → ∃ bs, i.pattern.bindings = .ok bs) ∧
        e.first.scopes.inner.Perm (leavesIn (parametersOf e.opening.introduced)) ∧
        e.second.scopes.inner.Perm
          (leavesIn (settledOf e.opening.introduced) ++ unmarked e.opening.named)) ∧
      List.Forall₂ (Visit.Within scopes) visits
        ((sitesOf file.tag script).filter Location.isVisited) := by
  obtain ⟨script, types, s, read, ok, -, text⟩ := compileSource_ok compiled
  refine ⟨script, s, by rw [parseScript, read]; rfl, ok, text, ?_, ?_, ?_, visitsOf_within ok⟩
  · exact (perm_edits_script ok).trans (perm_removals_script.append_right _)
  · exact fun laid => holesApart_visitsOf laid ok
  · intro e mem
    have registered := registered_script ok e mem
    exact ⟨fun i => registered.checked, registered.perm_first, registered.perm_second⟩

/-- A script with a variable in its list, a loose one with a marker inside a marked pattern, and a
handler. -/
def handlerText : String :=
  "import\x7b_\x7dfrom'm';var\x7bw=$\x7d=o;if(a)var\x7bx:[y=$]=$\x7d=o;" ++
    "try\x7b\x7dcatch(\x7bz=$\x7d)\x7b_`$\x7bz\x7d`\x7d"

/-- The script when it is compiled. -/
def handlerCompiled : String :=
  "import\x7brenderer, makeFragment, __textBinder\x7dfrom'm';\n" ++
    "const __render0 = renderer(makeFragment(`<text-node></text-node>`));\n" ++
    "const __bind0 = __textBinder(0);var\x7bw\x7d=o;if(a)var\x7bx:[y]\x7d=o;" ++
    "try\x7b\x7dcatch(\x7bz=$\x7d)\x7b(() => \x7b\n  const __nodes = __render0();\n" ++
    "  const __sub0 = (z).subscribe(__bind0(__nodes[0]));\n" ++
    "  const __fragment = __nodes[__nodes.length];\n" ++
    "  __fragment.unsubscribe = () => \x7b\n    __sub0.unsubscribe();\n  \x7d;\n" ++
    "  return __fragment;\n\x7d)()\x7d"

/-- The loose variable loses its markers, though they are misplaced and its name is not declared.
The name in the handler is declared with its marker, which stays. -/
theorem markers_by_role_handler :
    let runtime : Runtime := ⟨"m", "_"⟩
    (compileSource runtime "a.js" handlerText).result = .ok handlerCompiled ∧
    ∃ script unit block handler body,
      parseScript (Dialect.ofFilename "a.js") handlerText.toList = some script ∧
      enteredOf (scriptFile runtime "a.js" handlerText.toList script) script =
        [unit, block, handler, body] ∧
      unit.opening.introduced.map (fun i => (i.role, i.pattern.bindings.isOk)) =
        [(.listed, true), (.loose, false)] ∧
      (strippedOf unit.opening.introduced).map Span.start = [22, 44, 41] ∧
      unit.second.scopes.inner = [⟨"w", true⟩] ∧
      handler.opening.introduced.map (fun i => (i.role, i.pattern.bindings.isOk)) =
        [(.handler, true)] ∧
      strippedOf handler.opening.introduced = [] ∧
      handler.second.scopes.inner = [⟨"z", true⟩] := by
  intro runtime
  have compiled : (compileSource runtime "a.js" handlerText).result = .ok handlerCompiled :=
    eq_ok_of_toOption (by decide +kernel)
  obtain ⟨script, s, read, -, -, -, -, declared, -⟩ :=
    markers_by_role runtime "a.js" handlerText handlerCompiled compiled
  have shape : (parseScript (Dialect.ofFilename "a.js") handlerText.toList).map (fun script =>
      (enteredOf (scriptFile runtime "a.js" handlerText.toList script) script).map fun e =>
        (e.opening.introduced.map (fun i => (i.role, i.pattern.bindings.isOk)),
          (strippedOf e.opening.introduced).map Span.start,
          leavesIn (settledOf e.opening.introduced) ++ unmarked e.opening.named)) =
      some [([(.listed, true), (.loose, false)], [22, 44, 41], [⟨"w", true⟩]), ([], [], []),
        ([(.handler, true)], [], [⟨"z", true⟩]), ([], [], [])] := by
    decide +kernel
  rw [read] at shape
  obtain ⟨unit, _, scopes, ofUnit, shape⟩ := List.map_eq_cons_iff.1 (Option.some.inj shape)
  obtain ⟨block, _, rfl, -, shape⟩ := List.map_eq_cons_iff.1 shape
  obtain ⟨handler, _, rfl, ofHandler, shape⟩ := List.map_eq_cons_iff.1 shape
  obtain ⟨body, rfl, -⟩ := List.map_eq_singleton_iff.1 shape
  simp only [Prod.mk.injEq] at ofUnit ofHandler
  obtain ⟨roles, markers, names⟩ := ofUnit
  obtain ⟨roles', markers', names'⟩ := ofHandler
  have inUnit := (declared unit (scopes ▸ .head _)).2.2
  have inHandler := (declared handler (scopes ▸ .tail _ (.tail _ (.head _)))).2.2
  rw [names] at inUnit
  rw [names'] at inHandler
  exact ⟨compiled, script, unit, block, handler, body, read, scopes, roles, markers,
    List.perm_singleton.1 inUnit, roles', List.map_eq_nil_iff.1 markers',
    List.perm_singleton.1 inHandler⟩

end TaggedMarkup.Compile

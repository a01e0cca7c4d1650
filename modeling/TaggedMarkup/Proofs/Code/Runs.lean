import Mathlib
import TaggedMarkup.Proofs.Code.Tables
import TaggedMarkup.Proofs.Code.Wiring
import TaggedMarkup.Template.Parser

/-!
# The tables over a whole file

A file uses its tables in any order and any number of times (`Use`), and gets numbers and code from
them (`Given`). What was given out tells the tables (`Tracks`): they hold the fragments and the
initializers that were given a number, in the order of first use, and every number stands for what
it was given for. So a number means the same at every later point (`run_consistent`).
-/

namespace TaggedMarkup.Code

open Template (Binder Binding Expression Initializer parse)

/-! ## Runs -/

/-- A use of the tables of a file. Between reading a template and writing its code, its binders are
resolved in some way. -/
inductive Use where
  | fragment (html : String)
  | binder (b : Binder)
  | binding (binding : Binding)
  | template (chunks : List String) (expressions : List Expression)
      (resolve : List Binder → List Binder)

/-- What the tables give out: the number of a fragment, that of the initializer of a binder, or the
code of a template with its skeleton, its binders, and these with their numbers. -/
inductive Given where
  | fragment (html : String) (number : Nat)
  | binder (b : Binder) (number : Nat)
  | code (html : String) (binders numbered : List Binder) (code : RenderCode)

namespace Given

/-- A fragment with its number. -/
def fragment? : Given → Option (String × Nat)
  | .fragment html n => some (html, n)
  | _ => none

/-- An initializer with its number. -/
def initializer? : Given → Option (Initializer × Nat)
  | .binder b m => some (b.initializer, m)
  | _ => none

/-- The code of a template, if it could be written. -/
def ofResult (html : String) (binders : List Binder) :
    Except BinderFault (List Binder × RenderCode) → List Given
  | .error _ => []
  | .ok (numbered, written) => [.code html binders numbered written]

end Given

namespace Tables

/-- Enters a skeleton, and generates the code of its binders. Without code, the tables keep what
was entered. -/
def useTemplate (t : Tables) (html : String) (binders : List Binder) : Tables × List Given :=
  let (number, t) := t.addFragment html
  let entries := (registerAll t (entered 0 binders)).2.map fun (b, m) => .binder b m
  let (t', result) := generate t number binders
  (t', .fragment html number :: entries ++ Given.ofResult html binders result)

/-- One use of the tables. A template that cannot be read leaves them as they are. -/
def use (t : Tables) : Use → Tables × List Given
  | .fragment html => ((t.addFragment html).2, [.fragment html (t.addFragment html).1])
  | .binder b => ((t.addBinder b).2, [.binder b (t.addBinder b).1])
  | .binding binding => (t.useBinding binding, [])
  | .template chunks expressions resolve =>
    match parse chunks expressions with
    | .error _ => (t, [])
    | .ok fragment => t.useTemplate fragment.html (resolve fragment.binders)

/-- Uses the tables again and again. -/
def run (t : Tables) : List Use → Tables × List Given
  | [] => (t, [])
  | u :: us =>
    let (t, given) := t.use u
    let (t, later) := t.run us
    (t, given ++ later)

end Tables

/-! ## What was given tells the tables -/

/-- Code calls the fragment of its skeleton and the initializers of its binders by the numbers that
were given for them. -/
structure CodeOf (given : List Given) (html : String) (binders numbered : List Binder)
    (code : RenderCode) : Prop where
  fragment : .fragment html code.fragment ∈ given
  statements : ∃ rest, code.statements = s!"const __nodes = __render{code.fragment}();" :: rest ∧
    Wired 0 binders numbered rest
  entries : ∀ b ∈ numbered, ∃ m, b.entry = some m ∧
    (b.initializer, m) ∈ given.filterMap Given.initializer?

/-- The tables hold what was given a number. -/
structure Tracks (given : List Given) (t : Tables) : Prop where
  fragments : Holds t.fragments (given.filterMap Given.fragment?)
  initializers : Holds t.initializers (given.filterMap Given.initializer?)
  code : ∀ {html binders numbered code}, .code html binders numbered code ∈ given →
    CodeOf given html binders numbered code

/-- Code stays that of what was given when more is given. -/
lemma CodeOf.append {given : List Given} {html : String} {binders numbered : List Binder}
    {code : RenderCode} (h : CodeOf given html binders numbered code) (later : List Given) :
    CodeOf (given ++ later) html binders numbered code where
  fragment := List.mem_append_left _ h.fragment
  statements := h.statements
  entries b mem := by
    obtain ⟨m, entry, old⟩ := h.entries b mem
    rw [List.filterMap_append]
    exact ⟨m, entry, List.mem_append_left _ old⟩

/-- What is not of a kind is not counted among it. -/
lemma filterMap_append_none {α : Type} {f : Given → Option α} {g : Given} (none : f g = none)
    (given : List Given) : (given ++ [g]).filterMap f = given.filterMap f := by
  rw [List.filterMap_append, List.filterMap_cons_none none, List.filterMap_nil, List.append_nil]

namespace Tracks

variable {given : List Given} {t : Tables}

/-- Empty tables have given nothing. -/
lemma empty : Tracks [] {} where
  fragments := ⟨rfl, fun mem => absurd mem List.not_mem_nil⟩
  initializers := ⟨rfl, fun mem => absurd mem List.not_mem_nil⟩
  code mem := absurd mem List.not_mem_nil

/-- Numbers that are given later change nothing about the code so far. -/
lemma code_append (h : Tracks given t) {later : List Given}
    (noCode : ∀ g ∈ later, ∀ html binders numbered code, g ≠ .code html binders numbered code)
    {html : String} {binders numbered : List Binder} {code : RenderCode}
    (mem : .code html binders numbered code ∈ given ++ later) :
    CodeOf (given ++ later) html binders numbered code := by
  obtain old | new := List.mem_append.1 mem
  · exact (h.code old).append later
  · exact absurd rfl (noCode _ new html binders numbered code)

/-- A fragment that is entered is given its number. -/
lemma addFragment (h : Tracks given t) (html : String) :
    Tracks (given ++ [.fragment html (t.addFragment html).1]) (t.addFragment html).2 where
  fragments := by
    rw [List.filterMap_append]
    exact h.fragments.enter Function.injective_id html
  initializers := by
    rw [filterMap_append_none rfl]
    exact h.initializers
  code := h.code_append (by simp)

/-- The use of a helper gives nothing. -/
lemma useHelper (h : Tracks given t) (helper : Helper) : Tracks given (t.useHelper helper) where
  fragments := h.fragments
  initializers := h.initializers
  code := h.code

/-- The use of a binding gives nothing. -/
lemma useBinding (h : Tracks given t) (binding : Binding) :
    Tracks given (t.useBinding binding) := by
  rw [Tables.useBinding]
  cases Helper.ofBinding? binding with
  | some helper => exact h.useHelper helper
  | none => exact h

/-- A binder that is entered is given its number. -/
lemma addBinder (h : Tracks given t) (b : Binder) :
    Tracks (given ++ [.binder b (t.addBinder b).1]) (t.addBinder b).2 := by
  rw [Tables.addBinder_eq]
  refine { fragments := ?_, initializers := ?_, code := h.code_append (by simp) }
  · rw [filterMap_append_none rfl]
    exact h.fragments
  · rw [List.filterMap_append]
    exact h.initializers.enter Initializer.key_injective b.initializer

/-- Binders that are registered are given their numbers. -/
lemma registerAll (h : Tracks given t) (bs : List Binder) :
    Tracks (given ++ (registerAll t bs).2.map fun (b, m) => .binder b m) (registerAll t bs).1 := by
  induction bs generalizing given t with
  | nil =>
    rw [Code.registerAll, List.map_nil, List.append_nil]
    exact h
  | cons b bs ih =>
    have tail := ih ((h.addBinder b).useBinding b.binding)
    rw [List.append_assoc] at tail
    exact tail

/-- Code is given out behind the numbers that it mentions. -/
lemma addCode (h : Tracks given t) {html : String} {binders numbered : List Binder}
    {code : RenderCode} (own : CodeOf given html binders numbered code) :
    Tracks (given ++ [.code html binders numbered code]) t where
  fragments := by
    rw [filterMap_append_none rfl]
    exact h.fragments
  initializers := by
    rw [filterMap_append_none rfl]
    exact h.initializers
  code mem := by
    obtain old | new := List.mem_append.1 mem
    · exact (h.code old).append _
    · cases List.mem_singleton.1 new
      exact own.append _

/-- A template enters its skeleton and its binders, whether or not its code is written. -/
lemma template (h : Tracks given t) (html : String) (bs : List Binder) :
    Tracks (given ++ (t.useTemplate html bs).2) (t.useTemplate html bs).1 := by
  have whole := (h.addFragment html).registerAll (entered 0 bs)
  rw [← fst_wireAll, List.append_assoc] at whole
  rw [Tables.useTemplate]
  cases result : (generate (t.addFragment html).2 (t.addFragment html).1 bs).2 with
  | error fault =>
    simp only [result, Given.ofResult, List.append_nil]
    rw [generate_eq]
    exact whole
  | ok written =>
    obtain ⟨numbered, code⟩ := written
    obtain ⟨own, all, rfl, statements⟩ := snd_generate result
    simp only [result, Given.ofResult]
    rw [generate_eq, ← List.append_assoc]
    refine whole.addCode ⟨?_, own ▸ statements, ?_⟩
    · rw [own]
      simp
    · intro b mem
      obtain ⟨⟨b, m⟩, entry, rfl⟩ := List.mem_map.1 mem
      refine ⟨m, rfl, List.mem_filterMap.2 ⟨.binder b m, ?_, rfl⟩⟩
      rw [all]
      simp [entry]

/-- One use of the tables. -/
lemma use (h : Tracks given t) (u : Use) : Tracks (given ++ (t.use u).2) (t.use u).1 := by
  cases u with
  | fragment html => exact h.addFragment html
  | binder b => exact h.addBinder b
  | binding binding =>
    rw [Tables.use, List.append_nil]
    exact h.useBinding binding
  | template chunks expressions resolve =>
    rw [Tables.use]
    cases parse chunks expressions with
    | error failure =>
      rw [List.append_nil]
      exact h
    | ok fragment =>
      exact h.template fragment.html (resolve fragment.binders)

/-- A whole run. -/
lemma run (h : Tracks given t) (us : List Use) : Tracks (given ++ (t.run us).2) (t.run us).1 := by
  induction us generalizing given t with
  | nil =>
    rw [Tables.run, List.append_nil]
    exact h
  | cons u us ih =>
    have tail := ih (h.use u)
    rw [List.append_assoc] at tail
    exact tail

end Tracks

/-- A run goes on from where the first part ends. -/
lemma Tables.run_append (t : Tables) (us later : List Use) :
    t.run (us ++ later) =
      (((t.run us).1.run later).1, (t.run us).2 ++ ((t.run us).1.run later).2) := by
  induction us generalizing t with
  | nil => rfl
  | cons u us ih =>
    rw [List.cons_append, Tables.run, Tables.run]
    simp only [ih, List.append_assoc]

/-! ## Numbers keep their meaning -/

/-- The declaration of a fragment stands at its number. -/
lemma Tables.getElem?_declarations_fragment {t : Tables} {html : String} {n : Nat}
    (at_n : t.fragments[n]? = some html) :
    t.declarations[n]? = some (fragmentDeclaration html n) := by
  have inside := (List.getElem?_eq_some_iff.1 at_n).1
  rw [declarations, List.getElem?_append_left (by simpa using inside)]
  simp [at_n]

/-- The declaration of an initializer stands at its number behind those of the fragments. -/
lemma Tables.getElem?_declarations_initializer {t : Tables} {initializer : Initializer} {m : Nat}
    (at_m : t.initializers[m]? = some initializer) :
    t.declarations[t.fragments.length + m]? = some (initializerDeclaration initializer m) := by
  rw [declarations, List.getElem?_append_right (by simp)]
  simp [at_m]

end TaggedMarkup.Code

import Mathlib
import TaggedMarkup.Proofs.Compile.Lexical

/-!
# Scripts that stay as they are

A walk that comes to no site can still fail, at the first pattern with a misplaced marker. If it
does not, the script stays as it is. So a text stays as it is, with nothing to report, just if it is
a script, the walk comes to no site of the tag that it imports, and no marker is misplaced
(`compileSource_eq_unchanged_iff`).
-/

namespace TaggedMarkup.Compile

open Script
open Walk

/-! ## Walks without sites -/

/-- The first misplaced marker. -/
def failure? (names : Declared) : Option Failure :=
  names.findSome? fun
    | .ok _ => none
    | .error failure => some failure

/-- What comes of declarations. -/
def outcome (names : Declared) : Except Failure Unit :=
  match failure? names with
  | none => .ok ()
  | some failure => .error failure

/-- Nothing fails just if no marker is misplaced. -/
lemma failure?_eq_none {names : Declared} : failure? names = none ↔ WellMarked names := by
  rw [failure?, List.findSome?_eq_none_iff]
  refine forall₂_congr fun result _ => ?_
  cases result <;> simp

/-- The first failure of two lists. -/
lemma failure?_append (names names' : Declared) :
    failure? (names ++ names') = (failure? names).or (failure? names') :=
  List.findSome?_append

/-- A walk does no more than to check declarations: it enters no site and logs nothing. -/
structure Checks (names : Declared) (x : Walk Unit) : Prop where
  run : ∀ s, ∃ t, x.exec s = (outcome names, t) ∧ t.sites = s.sites ∧ t.log = s.log

namespace Checks

variable {names names' : Declared} {x y : Walk Unit}

/-- A change that leaves the sites and the log checks nothing. -/
lemma ofModify {f : State → State} (sites : ∀ s, (f s).sites = s.sites)
    (log : ∀ s, (f s).log = s.log) : Checks [] (modify f : Walk Unit) :=
  ⟨fun s => ⟨f s, rfl, sites s, log s⟩⟩

/-- A step that does nothing checks nothing. -/
lemma nothing : Checks [] (pure () : Walk Unit) := ⟨fun s => ⟨s, rfl, rfl, rfl⟩⟩

/-- Two steps check one after the other. -/
lemma bind (first : Checks names x) (second : Checks names' y) :
    Checks (names ++ names') (do x; y) := by
  constructor
  intro s
  obtain ⟨t, ran, sites, log⟩ := first.run s
  rw [exec_bind, ran]
  cases failed : failure? names with
  | some failure =>
    refine ⟨t, ?_, sites, log⟩
    rw [outcome, outcome, failure?_append, failed]
    rfl
  | none =>
    obtain ⟨u, ran', sites', log'⟩ := second.run t
    refine ⟨u, ?_, sites'.trans sites, log'.trans log⟩
    rw [outcome, failed, outcome, failure?_append, failed, Option.none_or]
    exact ran'

/-- A scope around a step checks nothing more. -/
lemma inScope (inner : Checks names x) : Checks names (inScope x) := by
  constructor
  intro s
  obtain ⟨t, ran, sites, log⟩ := inner.run { s with scopes := s.scopes.push }
  exact ⟨{ t with scopes := t.scopes.pop }, by rw [exec_inScope, ran], sites, log⟩

/-- Declarations check what they declare. -/
lemma declareAll (names : Declared) : Checks names (declareAll names) := by
  induction names with
  | nil => exact nothing
  | cons result names ih =>
    cases result with
    | error failure => exact ⟨fun s => ⟨s, rfl, rfl, rfl⟩⟩
    | ok bs =>
      have first : Checks [.ok bs] (mapScopes (·.declareAll bs)) := ⟨fun s => ⟨_, rfl, rfl, rfl⟩⟩
      exact first.bind ih

end Checks

namespace Outline

/-- All that is declared, in the order of the walk. -/
def declared : Outline → Declared
  | .nothing | .reference _ | .markers _ => []
  | .seq first second => first.declared ++ second.declared
  | .beside _ _ rest => rest.declared
  | .template _ _ holes => holes.declared
  | .scope opening first second =>
    opening.params ++ (first.declared ++ (opening.locals ++ second.declared))

/-- Where no site is visited, only declarations are checked. -/
lemma checks {file : File} {o : Outline} {around : List Enclosing}
    (unvisited : o.visited file.tag around = []) :
    Checks o.declared ((o.plan file).run file) := by
  induction o generalizing around with
  | nothing => exact .nothing
  | reference name =>
    rw [plan]
    split
    · exact .ofModify (fun _ => rfl) fun _ => rfl
    · exact .nothing
  | markers spans => exact .ofModify (fun _ => rfl) fun _ => rfl
  | seq first second ih₁ ih₂ =>
    rw [visited_seq, List.append_eq_nil_iff] at unvisited
    exact (ih₁ unvisited.1).bind (ih₂ unvisited.2)
  | beside place inner rest _ ih =>
    rw [visited_beside] at unvisited
    exact ih unvisited
  | template tag site holes ih =>
    rw [visited_template, List.append_eq_nil_iff] at unvisited
    rw [plan]
    split at unvisited
    · cases unvisited.2
    · rename_i other
      rw [if_neg other]
      exact Checks.nothing.bind (ih unvisited.1)
  | scope opening first second ih₁ ih₂ =>
    rw [visited_scope, List.append_eq_nil_iff] at unvisited
    exact .inScope ((Checks.declareAll _).bind ((ih₁ unvisited.1).bind
      ((Checks.declareAll _).bind (ih₂ unvisited.2))))

end Outline

/-! ## Scripts without sites -/

/-- All that a script declares, in the order of the walk. -/
def declaredIn (script : List Stmt) : Declared :=
  script.flatMap declaredBy ++ (outlineStatements script).declared

/-- All sites of a script stand in places that are passed over. -/
def Unvisited (runtime : Runtime) (source : List Char) (script : List Stmt) : Prop :=
  ∀ l ∈ sitesOf (Imports.ofScript runtime source script).tag script, l.passed ≠ none

/-- The log of a script that stays as it is. -/
def unchangedLog (name : String) : List Entry := [⟨.debug, s!"{name}: no templates"⟩]

section

variable {runtime : Runtime} {name : String} {source : List Char} {script : List Stmt}

/-- A script that is not visited has no visited sites. -/
lemma Unvisited.visited_eq_nil (unvisited : Unvisited runtime source script) :
    (sitesOf (scriptFile runtime name source script).tag script).filter Location.isVisited = [] :=
  List.filter_eq_nil_iff.2 fun l mem => by simpa [Location.isVisited] using unvisited l mem

/-- A script without sites stays as it is, or has a misplaced marker. -/
lemma compileScript_unvisited (unvisited : Unvisited runtime source script) :
    compileScript runtime name source script =
      match failure? (declaredIn script) with
      | none => ⟨unchangedLog name, .ok (String.ofList source)⟩
      | some failure => ⟨[], .error failure⟩ := by
  have checks : Checks (declaredIn script)
      (visitScript (scriptFile runtime name source script) script) := by
    rw [visitScript_eq_run, (sketches_statements _ script).plan]
    exact (Checks.declareAll _).bind (Outline.checks unvisited.visited_eq_nil)
  obtain ⟨s, ran, sites, log⟩ := checks.run {}
  rw [compileScript_eq, ran, outcome]
  cases failure? (declaredIn script) with
  | none =>
    simp only [finishScript, sites, log]
    rfl
  | some failure => simp only [log]

/-- A script with a site that is visited fails, or is compiled. -/
lemma compileScript_visited (visited : ¬ Unvisited runtime source script) :
    (∃ failure, (compileScript runtime name source script).result = .error failure) ∨
    ∃ s, (visitScript (scriptFile runtime name source script) script).exec {} = (.ok (), s) ∧
      0 < s.sites.length ∧
      compileScript runtime name source script =
        ⟨s.log ++ [summaryEntry (scriptFile runtime name source script) s],
          .ok ((Source.applyAll? source (s.edits ++
            (Imports.ofScript runtime source script).edits runtime s.tables.importNames
              s.tables.declarations (0 < s.tagUses))).getD "")⟩ := by
  rw [compileScript_eq]
  rcases ran : (visitScript (scriptFile runtime name source script) script).exec {} with
    ⟨failure | _, s⟩
  · exact .inl ⟨failure, rfl⟩
  · have entered : 0 < s.sites.length := by
      obtain ⟨t, declared, runs⟩ := runs_script ran
      have some : visitsOf (scriptFile runtime name source script) script ≠ [] := by
        intro none
        have sites := map_site_visitsOf (scriptFile runtime name source script) script
        rw [none, List.map_nil, eq_comm, List.map_eq_nil_iff, List.filter_eq_nil_iff] at sites
        exact visited fun l mem passed => sites l mem (by simp [Location.isVisited, passed])
      rw [runs.length_sites (sites_declareAll declared), Finset.card_pos,
        List.toFinset_nonempty_iff]
      exact mt List.map_eq_nil_iff.1 some
    refine .inr ⟨s, rfl, entered, ?_⟩
    have some : s.sites.isEmpty = false := by
      rw [List.isEmpty_eq_false_iff]
      exact List.ne_nil_of_length_pos entered
    simp only [finishScript, some]
    rfl

end

section

variable {runtime : Runtime} {name text : String} {script : List Stmt}

/-- A text stays as it is, with nothing to report, just if it is a script without sites that are
visited and without misplaced markers. -/
lemma compileSource_eq_unchanged_iff :
    compileSource runtime name text = ⟨unchangedLog name, .ok text⟩ ↔
      ∃ script, parseScript (Dialect.ofFilename name) text.toList = some script ∧
        Unvisited runtime text.toList script ∧ WellMarked (declaredIn script) := by
  constructor
  · intro stays
    cases read : parseScript (Dialect.ofFilename name) text.toList with
    | none =>
      rw [compileSource_of_none read] at stays
      cases congrArg Compiled.result stays
    | some script =>
      rw [compileSource_of_script read] at stays
      by_cases unvisited : Unvisited runtime text.toList script
      · refine ⟨script, rfl, unvisited, failure?_eq_none.1 ?_⟩
        rw [compileScript_unvisited unvisited] at stays
        cases failed : failure? (declaredIn script) with
        | none => rfl
        | some failure =>
          rw [failed] at stays
          cases congrArg Compiled.result stays
      · -- The log of a script with sites ends with a summary of another level.
        obtain ⟨failure, failed⟩ | ⟨s, -, -, compiled⟩ := compileScript_visited unvisited
        · rw [stays] at failed
          cases failed
        · have last :=
            congrArg (fun c => c.log.getLast?.map Entry.level) (compiled.symm.trans stays)
          simp [summaryEntry, unchangedLog] at last
  · rintro ⟨script, read, unvisited, marked⟩
    rw [compileSource_of_script read, compileScript_unvisited unvisited,
      failure?_eq_none.2 marked]
    simp

end

end TaggedMarkup.Compile

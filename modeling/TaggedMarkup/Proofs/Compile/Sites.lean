import Mathlib
import TaggedMarkup.Proofs.Compile.Edits
import TaggedMarkup.Proofs.Compile.Outline
import TaggedMarkup.Proofs.Compile.Visits

/-!
# Sites that are compiled

A run that succeeds is made of the steps of its plan (`Runs`). It compiles one site after the other,
each in the scopes around it, and records one edit for each of them (`perm_edits_script`). Those
inside the holes of a site are applied in the texts of the holes (`holesApart_visitsOf`). The sites
that get their code are those that stand in no place that the walk passes over
(`map_site_visitsOf`).
-/

namespace TaggedMarkup.Compile

open Code (RenderCode)
open Script
open Source (Edit splitOff)
open Walk

/-! ## Runs that succeed -/

namespace Visit

/-- Compiles the site. -/
def compile (file : File) (v : Visit) : Except Failure RenderCode × State :=
  (compileSite file v.entered.edits.length v.site.chunks v.site.holes v.site.span).exec v.compiled

/-- The code of the site. -/
def code? (file : File) (v : Visit) : Option RenderCode := (v.compile file).1.toOption

/-- The edit that puts code in place of the site. -/
def edit (file : File) (v : Visit) (code : RenderCode) : Edit :=
  ⟨v.site.replaced.start, v.site.replaced.stop,
    v.site.form.print code (marginAt file v.site.replaced.start)⟩

/-- The edits inside the holes of the site, which become part of its code. -/
def inner (v : Visit) : List Edit := (splitOff v.entered.edits.length v.compiled.edits).2

end Visit

namespace Plan

/-- The sites that the run of a plan comes to, in the order in which they are compiled. -/
def visits (file : File) : Plan → State → List Visit
  | .done, _ | .remove _, _ | .useTag, _ => []
  | .seq first second, s => first.visits file s ++ second.visits file ((first.run file).exec s).2
  | .scope params first locals second, s =>
    let opened := ((declareAll params).exec { s with scopes := s.scopes.push }).2
    let visited := ((first.run file).exec opened).2
    first.visits file opened ++ second.visits file ((declareAll locals).exec visited).2
  | .site here inside, s =>
    inside.visits file s ++ [⟨here, s, ((inside.run file).exec s).2⟩]

/-- A plan leads from a state to another without a failure, and comes to sites on the way. -/
inductive Runs (file : File) : Plan → State → List Visit → State → Prop where
  | done {s} : Runs file .done s [] s
  | seq {p q s t u vs ws} :
    Runs file p s vs t → Runs file q t ws u → Runs file (.seq p q) s (vs ++ ws) u
  | scope {params p locals q s t u r s' vs ws} :
    (declareAll params).exec { s with scopes := s.scopes.push } = (.ok (), t) →
    Runs file p t vs u → (declareAll locals).exec u = (.ok (), r) → Runs file q r ws s' →
    Runs file (.scope params p locals q) s (vs ++ ws) { s' with scopes := s'.scopes.pop }
  | remove {spans s} :
    Runs file (.remove spans) s []
      { s with edits := s.edits ++ spans.map fun span => .remove span.start span.stop }
  | useTag {s} : Runs file .useTag s [] { s with tagUses := s.tagUses + 1 }
  | site {here inside s t u vs code} :
    Runs file inside s vs t → Visit.compile file ⟨here, s, t⟩ = (.ok code, u) →
    Runs file (.site here inside) s (vs ++ [⟨here, s, t⟩])
      { u with edits := u.edits ++ [Visit.edit file ⟨here, s, t⟩ code] }

/-- A run that succeeds is made of steps that do. -/
lemma runs_of_ok {file : File} {p : Plan} {s t : State} (ok : (p.run file).exec s = (.ok (), t)) :
    Runs file p s (p.visits file s) t := by
  induction p generalizing s t with
  | done | remove _ | useTag =>
    cases ok
    constructor
  -- The state between two parts of a plan is the one in which `visits` goes on.
  | seq first second ih₁ ih₂ =>
    obtain ⟨_, u, ok₁, ok₂⟩ := exec_bind_ok.1 ok
    have ran := (ih₁ ok₁).seq (ih₂ ok₂)
    rwa [visits, ok₁]
  | scope params first locals second ih₁ ih₂ =>
    obtain ⟨_, inner, rfl⟩ := exec_inScope_ok.1 ok
    obtain ⟨_, opened, declared, inner⟩ := exec_bind_ok.1 inner
    obtain ⟨_, visited, ok₁, inner⟩ := exec_bind_ok.1 inner
    obtain ⟨_, _, declared', ok₂⟩ := exec_bind_ok.1 inner
    have ran := Runs.scope declared (ih₁ ok₁) declared' (ih₂ ok₂)
    simp only [visits]
    rwa [declared, ok₁, declared']
  | site here inside ih =>
    obtain ⟨_, _, got, ok⟩ := exec_bind_ok.1 ok
    cases got
    obtain ⟨_, _, ok₁, ok⟩ := exec_bind_ok.1 ok
    obtain ⟨code, u, compiled, recorded⟩ := exec_bind_ok.1 ok
    cases recorded
    have ran := (ih ok₁).site compiled
    rwa [visits, ok₁]

/-- In syntax that is laid out, the edits in the holes of every site are applied in the texts of its
holes. -/
lemma holesApart_visits {file : File} {p : Plan} {s t : State} (sound : p.Sound file)
    (ok : (p.run file).exec s = (.ok (), t)) :
    ∀ v ∈ p.visits file s, HolesApart file v.site.holes v.inner := by
  induction p generalizing s t with
  | done | remove _ | useTag => nofun
  | seq first second ih₁ ih₂ =>
    obtain ⟨_, u, ok₁, ok₂⟩ := exec_bind_ok.1 ok
    rw [visits, ok₁]
    exact List.forall_mem_append.2 ⟨ih₁ sound.1 ok₁, ih₂ sound.2 ok₂⟩
  | scope params first locals second ih₁ ih₂ =>
    obtain ⟨_, inner, rfl⟩ := exec_inScope_ok.1 ok
    obtain ⟨_, opened, declared, inner⟩ := exec_bind_ok.1 inner
    obtain ⟨_, visited, ok₁, inner⟩ := exec_bind_ok.1 inner
    obtain ⟨_, _, declared', ok₂⟩ := exec_bind_ok.1 inner
    simp only [visits]
    rw [declared, ok₁, declared']
    exact List.forall_mem_append.2 ⟨ih₁ sound.1 ok₁, ih₂ sound.2 ok₂⟩
  | site here inside ih =>
    obtain ⟨⟨rfl, laid⟩, sound, -⟩ := sound
    obtain ⟨_, _, got, ok⟩ := exec_bind_ok.1 ok
    cases got
    obtain ⟨_, t, visited, -⟩ := exec_bind_ok.1 ok
    obtain ⟨inner, edits, -⟩ := Plan.records sound visited
    have recorded : Visit.inner ⟨here, s, t⟩ = inner := by simp [Visit.inner, edits, splitOff]
    rw [visits, visited]
    refine List.forall_mem_append.2 ⟨ih sound visited, List.forall_mem_singleton.2 ?_⟩
    rw [recorded]
    exact holesApart laid visited edits

end Plan

/-- The sites that the walk over a script comes to. -/
def visitsOf (file : File) (script : List Stmt) : List Visit :=
  (planStatements file script).visits file
    ((declareAll (script.flatMap declaredBy)).exec {}).2

/-- The walk over a script that succeeds declares the names of the script and runs its plan. -/
lemma runs_script {file : File} {script : List Stmt} {s : State}
    (ok : (visitScript file script).exec {} = (.ok (), s)) :
    ∃ t, (declareAll (script.flatMap declaredBy)).exec {} = (.ok (), t) ∧
      (planStatements file script).Runs file t (visitsOf file script) s := by
  rw [visitScript_eq_run] at ok
  obtain ⟨_, t, declared, ran⟩ := exec_bind_ok.1 ok
  refine ⟨t, declared, ?_⟩
  rw [visitsOf, declared]
  exact Plan.runs_of_ok ran

/-! ## Edits and entries of the sites -/

/-- The two lists in the middle may be exchanged. -/
lemma perm_append_middle {α : Type} (as bs cs ds : List α) :
    (as ++ bs ++ (cs ++ ds)).Perm (as ++ cs ++ (bs ++ ds)) := by
  rw [← Multiset.coe_eq_coe]
  simp only [← Multiset.coe_add]
  exact add_add_add_comm _ _ _ _

/-- The edits that put code in place of the site. -/
def Visit.edits (file : File) (v : Visit) : List Edit := (v.code? file).toList.map (v.edit file)

/-- The edits that take markers out. -/
def Plan.removals : Plan → List Edit
  | .done | .useTag => []
  | .remove spans => spans.map fun span => .remove span.start span.stop
  | .seq first second | .scope _ first _ second => first.removals ++ second.removals
  | .site _ inside => inside.removals

namespace Visit

variable {file : File} {v : Visit} {code : RenderCode} {t : State}

/-- The code of a visit is what its site is compiled to. -/
lemma code_of_compile (compiled : v.compile file = (.ok code, t)) : v.code? file = some code := by
  rw [code?, compiled]
  rfl

/-- A site with code has been compiled. -/
lemma compile_of_code (compiled : v.code? file = some code) :
    ∃ t, v.compile file = (.ok code, t) := by
  rw [code?] at compiled
  rcases done : v.compile file with ⟨failure | code, t⟩
  · rw [done] at compiled
    cases compiled
  · rw [done] at compiled
    cases compiled
    exact ⟨t, rfl⟩

/-- A site with code has its binders. -/
lemma binders_of_code (compiled : v.code? file = some code) :
    ∃ binders, v.binders file = .ok binders := by
  obtain ⟨t, done⟩ := compile_of_code compiled
  exact binders_of_compiled done

/-- The code of a site is made of the texts of its holes. -/
lemma madeOf_code (compiled : v.code? file = some code) :
    MadeOf file v.compiled v.site.chunks v.site.holes
      (v.site.holes.map (holeExpression file v.inner)) code := by
  obtain ⟨t, done⟩ := compile_of_code compiled
  exact (compileSite_ok done).1

end Visit

/-- To enter a site adds its start and nothing else. -/
lemma mem_enterSite {start fragment other : Nat} {sites : List (Nat × Nat)} :
    other ∈ (enterSite start fragment sites).map Prod.fst ↔
      other = start ∨ other ∈ sites.map Prod.fst := by
  simp only [enterSite, List.map_cons, List.mem_cons, List.mem_map, List.mem_filter]
  grind

/-- A site that is entered again is replaced. -/
lemma nodup_enterSite {start fragment : Nat} {sites : List (Nat × Nat)}
    (nodup : (sites.map Prod.fst).Nodup) :
    ((enterSite start fragment sites).map Prod.fst).Nodup := by
  rw [enterSite, List.map_cons, List.nodup_cons]
  refine ⟨?_, nodup.sublist (List.filter_sublist.map Prod.fst)⟩
  simp

/-- Declarations enter no sites. -/
lemma sites_declareAll {names : Declared} {s t : State}
    (ok : (declareAll names).exec s = (.ok (), t)) : t.sites = s.sites := by
  have keeps : Keeps State.sites (declareAll names) := keeps_declareAll names fun _ _ => rfl
  have kept := keeps.keep s
  rwa [ok] at kept

namespace Plan.Runs

variable {file : File} {p : Plan} {s t : State} {vs : List Visit}

/-- Every visit of a run has code. -/
lemma code (ran : p.Runs file s vs t) : ∀ v ∈ vs, ∃ code, v.code? file = some code := by
  induction ran with
  | done | remove | useTag => nofun
  | seq _ _ ih₁ ih₂ | scope _ _ _ _ ih₁ ih₂ => exact List.forall_mem_append.2 ⟨ih₁, ih₂⟩
  | site _ compiled ih =>
    exact List.forall_mem_append.2 ⟨ih, by simp [Visit.code_of_compile compiled]⟩

/-- A run records one edit for every site and every marker. Those inside the holes of a site have
become part of its code. -/
lemma edits (ran : p.Runs file s vs t) :
    ∃ new, t.edits = s.edits ++ new ∧
      (new ++ vs.flatMap Visit.inner).Perm (p.removals ++ vs.flatMap (Visit.edits file)) := by
  induction ran with
  | done | useTag => exact ⟨[], (List.append_nil _).symm, .refl _⟩
  | remove => exact ⟨_, rfl, .refl _⟩
  | seq _ _ ih₁ ih₂ =>
    obtain ⟨new, eq, perm⟩ := ih₁
    obtain ⟨new', eq', perm'⟩ := ih₂
    refine ⟨new ++ new', by rw [eq', eq, List.append_assoc], ?_⟩
    rw [List.flatMap_append, List.flatMap_append]
    exact ((perm_append_middle ..).trans (perm.append perm')).trans (perm_append_middle ..)
  | scope declared _ declared' _ ih₁ ih₂ =>
    obtain ⟨new, eq, perm⟩ := ih₁
    obtain ⟨new', eq', perm'⟩ := ih₂
    refine ⟨new ++ new', ?_, ?_⟩
    · simp only [eq', edits_declareAll declared', eq, edits_declareAll declared,
        List.append_assoc]
    · rw [List.flatMap_append, List.flatMap_append]
      exact ((perm_append_middle ..).trans (perm.append perm')).trans (perm_append_middle ..)
  | @site here _ s t _ vs code _ compiled ih =>
    obtain ⟨new, eq, perm⟩ := ih
    -- The edits of the holes are taken away again, and the one of the site takes their place.
    have inner : Visit.inner ⟨here, s, t⟩ = new := by simp [Visit.inner, eq, splitOff]
    have left : (Visit.compile file ⟨here, s, t⟩).2.edits = s.edits :=
      edits_compileSite file here eq
    rw [compiled] at left
    refine ⟨[Visit.edit file ⟨here, s, t⟩ code], congrArg (· ++ _) left, ?_⟩
    have text : Visit.edits file ⟨here, s, t⟩ = [Visit.edit file ⟨here, s, t⟩ code] := by
      rw [Visit.edits, Visit.code_of_compile compiled]
      rfl
    simp only [List.flatMap_append, List.flatMap_singleton, inner, text]
    rw [← Multiset.coe_eq_coe] at perm ⊢
    simp only [← Multiset.coe_add, removals] at perm ⊢
    rw [add_comm, add_comm _ (new : Multiset Edit), perm, add_assoc]

/-- A run enters the sites that it comes to at their starts, each start once. -/
lemma sites (ran : p.Runs file s vs t) :
    (∀ start, start ∈ t.sites.map Prod.fst ↔
      start ∈ vs.map (·.site.span.start) ∨ start ∈ s.sites.map Prod.fst) ∧
    ((s.sites.map Prod.fst).Nodup → (t.sites.map Prod.fst).Nodup) := by
  induction ran with
  | done | useTag | remove => simp
  | seq _ _ ih₁ ih₂ =>
    refine ⟨fun start => ?_, ih₂.2 ∘ ih₁.2⟩
    rw [ih₂.1, ih₁.1, List.map_append, List.mem_append, or_left_comm, or_assoc]
  | scope declared _ declared' _ ih₁ ih₂ =>
    rw [sites_declareAll declared'] at ih₂
    rw [sites_declareAll declared] at ih₁
    refine ⟨fun start => ?_, ih₂.2 ∘ ih₁.2⟩
    rw [ih₂.1, ih₁.1, List.map_append, List.mem_append, or_left_comm, or_assoc]
  | site _ compiled ih =>
    obtain ⟨-, fragment, eq⟩ := compileSite_ok compiled
    -- A site that is entered again takes the place of the old entry, so starts stay distinct.
    simp only [eq]
    refine ⟨fun start => ?_, fun nodup => nodup_enterSite (ih.2 nodup)⟩
    rw [mem_enterSite, ih.1, List.map_append, List.mem_append, List.map_singleton,
      List.mem_singleton, or_left_comm, or_assoc]

/-- The sites of a run are counted by their starts. -/
lemma length_sites (ran : p.Runs file s vs t) (empty : s.sites = []) :
    t.sites.length = (vs.map (·.site.span.start)).toFinset.card := by
  obtain ⟨starts, nodup⟩ := ran.sites
  rw [← List.length_map Prod.fst, ← List.toFinset_card_of_nodup (nodup (by simp [empty]))]
  congr 1
  ext start
  rw [List.mem_toFinset, List.mem_toFinset, starts, empty]
  simp

end Plan.Runs

/-! ## Sites of an outline -/

namespace Outline

/-- No site in syntax that is passed over is visited. -/
lemma isVisited_of_passed {o : Outline} {tag : String} {passed : Passed} {around : List Enclosing}
    {l : Location} (mem : l ∈ o.sites tag (some passed) around) : l.isVisited = false := by
  induction o generalizing around with
  | nothing | reference _ | markers _ => cases mem
  | seq first second ih₁ ih₂ | beside _ first second ih₁ ih₂ | scope _ first second ih₁ ih₂ =>
    exact (List.mem_append.1 mem).elim ih₁ ih₂
  | template t site holes ih =>
    rcases List.mem_append.1 mem with inside | here
    · exact ih inside
    · split at here
      · cases List.mem_singleton.1 here
        rfl
      · cases here

/-- The sites that are visited. -/
def visited (o : Outline) (tag : String) (around : List Enclosing) : List Location :=
  (o.sites tag none around).filter Location.isVisited

section

variable {tag : String} {around : List Enclosing}

/-- The visited sites of a sequence are those of its two halves. -/
lemma visited_seq {first second : Outline} :
    (seq first second).visited tag around = first.visited tag around ++ second.visited tag around :=
  List.filter_append ..

/-- The walk visits nothing in what it passes over. -/
lemma visited_beside {place : Passed} {inner rest : Outline} :
    (beside place inner rest).visited tag around = rest.visited tag around := by
  have none : (inner.sites tag (some place) around).filter Location.isVisited = [] :=
    List.filter_eq_nil_iff.2 fun l mem => by simp [isVisited_of_passed mem]
  rw [visited, sites, List.filter_append]
  exact congrArg (· ++ _) none

/-- The visited sites of a template are those in its holes, and itself if it has the tag. -/
lemma visited_template {t : String} {site : Site} {holes : Outline} :
    (template t site holes).visited tag around =
      holes.visited tag around ++ if t = tag then [⟨site, none, around⟩] else [] := by
  rw [visited, sites, List.filter_append]
  split <;> rfl

/-- The visited sites of a scope are those of its two parts, each with the scope around it. -/
lemma visited_scope {opening : Opening} {first second : Outline} :
    (scope opening first second).visited tag around =
      first.visited tag (⟨opening, false⟩ :: around) ++
        second.visited tag (⟨opening, true⟩ :: around) :=
  List.filter_append ..

end

/-- The visits of a plan are to the visited sites of its outline, in order. -/
lemma map_site_visits (file : File) (o : Outline) (around : List Enclosing) (s : State) :
    ((o.plan file).visits file s).map Visit.site =
      (o.visited file.tag around).map Location.site := by
  induction o generalizing around s with
  | nothing | markers _ => rfl
  | reference name =>
    rw [plan]
    split <;> rfl
  | seq first second ih₁ ih₂ =>
    rw [visited_seq, List.map_append, plan, Plan.visits, List.map_append, ih₁ around, ih₂ around]
  | beside place inner rest _ ih => rw [visited_beside, plan, ih around]
  | template t site holes ih =>
    rw [visited_template, List.map_append, ← ih around s, plan]
    split
    · exact List.map_append
    · exact (List.append_nil _).symm
  | scope opening first second ih₁ ih₂ =>
    rw [visited_scope, List.map_append, plan, Plan.visits, List.map_append, ih₁, ih₂]

end Outline

/-- The sites of a script that are visited. -/
lemma map_site_visitsOf (file : File) (script : List Stmt) :
    (visitsOf file script).map Visit.site =
      ((sitesOf file.tag script).filter Location.isVisited).map Location.site := by
  rw [visitsOf, (sketches_statements file script).plan]
  exact Outline.map_site_visits file (outlineStatements script) _ _

section

variable {file : File} {script : List Stmt} {s : State}

/-- Every site to which the walk comes gets its code, which is made of the texts of its holes, and
one edit. -/
lemma code_visitsOf (ok : (visitScript file script).exec {} = (.ok (), s)) :
    ∀ v ∈ visitsOf file script, ∃ code,
      v.code? file = some code ∧ v.edits file = [v.edit file code] ∧
      MadeOf file v.compiled v.site.chunks v.site.holes
        (v.site.holes.map (holeExpression file v.inner)) code := by
  obtain ⟨t, -, ran⟩ := runs_script ok
  intro v mem
  obtain ⟨code, eq⟩ := ran.code v mem
  exact ⟨code, eq, by rw [Visit.edits, eq]; rfl, v.madeOf_code eq⟩

/-- The edits are those of the sites, and those that take markers out. Edits inside the holes of a
site are part of its code. -/
lemma perm_edits_script (ok : (visitScript file script).exec {} = (.ok (), s)) :
    (s.edits ++ (visitsOf file script).flatMap Visit.inner).Perm
      ((planStatements file script).removals ++
        (visitsOf file script).flatMap (Visit.edits file)) := by
  obtain ⟨t, declared, ran⟩ := runs_script ok
  obtain ⟨new, edits, perm⟩ := ran.edits
  rw [edits_declareAll declared] at edits
  rwa [show s.edits = new from edits]

/-- In a script that is laid out, the edits in the holes of every site are applied in the texts of
its holes. -/
lemma holesApart_visitsOf (laid : LaidOut file.source (treesOfStatements script))
    (ok : (visitScript file script).exec {} = (.ok (), s)) :
    ∀ v ∈ visitsOf file script, HolesApart file v.site.holes v.inner := by
  rw [visitScript_eq_run] at ok
  obtain ⟨_, t, declared, ran⟩ := exec_bind_ok.1 ok
  rw [visitsOf, declared]
  exact Plan.holesApart_visits ((covers_statements file script).cover laid).2 ran

/-- Sites are counted by the places where they start. -/
lemma length_sites_script (ok : (visitScript file script).exec {} = (.ok (), s)) :
    s.sites.length =
      (((sitesOf file.tag script).filter Location.isVisited).map
        (·.site.span.start)).toFinset.card := by
  obtain ⟨t, declared, ran⟩ := runs_script ok
  have starts := congrArg (List.map (·.span.start)) (map_site_visitsOf file script)
  rw [List.map_map, List.map_map] at starts
  rw [ran.length_sites (sites_declareAll declared)]
  exact congrArg (·.toFinset.card) starts

end

end TaggedMarkup.Compile

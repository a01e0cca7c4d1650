import Mathlib
import TaggedMarkup.Proofs.Code.Locals
import TaggedMarkup.Proofs.Compile.Sites

/-!
# Sites written as bare statements

A template that is returned becomes bare statements, if the `return` stands in a list. Its names are
then declared in the scope of that list. The code of one site declares every name once, but any two
codes share a name. So the names of a scope collide just if its own statements return more than one
template (`bare_collide_iff`).
-/

namespace TaggedMarkup.Compile

open Code (Line RenderCode declaredByLines printed)
open Script

/-! ## Names of one site -/

/-- The lines of the code of a site. -/
def Form.lines (form : Form) (code : RenderCode) : List Line :=
  match form with
  | .call => ⟨0, "(() => \x7b"⟩ :: code.lines 1 ++ [⟨0, "\x7d)()"⟩]
  | .body => ⟨0, "\x7b"⟩ :: code.lines 1 ++ [⟨0, "\x7d"⟩]
  | .statements => code.lines 0

/-- The code of a site is the text of its lines. -/
lemma Form.print_eq (form : Form) (code : RenderCode) (margin : String) :
    form.print code margin = printed margin (form.lines code) := by
  cases form with
  | call => exact code.between_eq (by decide) margin
  | body => exact code.between_eq (by decide) margin
  | statements => exact code.asStatements_eq margin

/-- Between brackets, code declares nothing in the scope around it. -/
lemma Form.declared_lines {form : Form} {code : RenderCode}
    (own : declaredByLines (code.lines 0) = code.declared) :
    declaredByLines (form.lines code) = if form = .statements then code.declared else [] := by
  have inside : declaredByLines (code.lines 1) = [] :=
    Code.declaredByLines_deeper fun _ => RenderCode.le_indent_of_mem_lines
  have bracketed {left right : String} (none : declaredByLines [⟨0, left⟩] = [])
      (none' : declaredByLines [⟨0, right⟩] = []) :
      declaredByLines (⟨0, left⟩ :: code.lines 1 ++ [⟨0, right⟩]) = [] := by
    rw [← List.singleton_append, Code.declaredByLines_append, Code.declaredByLines_append, none,
      inside, none']
    rfl
  cases form with
  | call | body => exact bracketed (by decide) (by decide)
  | statements => exact own

/-- The names that the code of a visited site declares in the scope around it. -/
lemma Visit.declared_of_code {file : File} {v : Visit} {code : RenderCode}
    (compiled : v.code? file = some code) :
    declaredByLines (v.site.form.lines code) =
      (if v.site.form = .statements then code.declared else []) ∧ code.declared.Nodup := by
  obtain ⟨-, generated⟩ := v.madeOf_code compiled
  obtain ⟨own, nodup⟩ := Code.declared_generate generated
  exact ⟨Form.declared_lines own, nodup⟩

/-! ## Names of a scope -/

/-- A scope with the sites that are written as bare statements in it. -/
structure BareScope where
  opening : Opening
  sites : List Site

/-- The scopes that are visited. -/
def Outline.scopes (tag : String) : Outline → List BareScope
  | .nothing | .reference _ | .markers _ => []
  | .seq first second => first.scopes tag ++ second.scopes tag
  | .beside _ _ rest => rest.scopes tag
  | .template _ _ holes => holes.scopes tag
  | .scope opening first second =>
    ⟨opening, first.bare tag ++ second.bare tag⟩ :: (first.scopes tag ++ second.scopes tag)

/-- The scopes of a script, itself in front. -/
def scopesOf (tag : String) (script : List Stmt) : List BareScope :=
  ⟨.unit script, (outlineStatements script).bare tag⟩ :: (outlineStatements script).scopes tag

namespace Outline

variable {o : Outline} {tag : String}

/-- In every scope just those sites are bare that its own statements return. -/
lemma Sound.sites_eq_returned (sound : o.Sound tag) :
    ∀ scope ∈ o.scopes tag, scope.sites = scope.opening.returned tag := by
  induction o with
  | nothing | reference _ | markers _ => nofun
  | seq first second ih₁ ih₂ => exact List.forall_mem_append.2 ⟨ih₁ sound.1, ih₂ sound.2⟩
  | beside _ _ rest _ ih => exact ih sound
  | template _ _ holes ih => exact ih sound.2
  | scope opening first second ih₁ ih₂ =>
    refine List.forall_mem_cons.2 ⟨sound.1, ?_⟩
    exact List.forall_mem_append.2 ⟨ih₁ sound.2.1, ih₂ sound.2.2⟩

/-- Every site that is written as bare statements stands in one scope. -/
lemma Sound.perm_scopes (sound : o.Sound tag) (around : List Enclosing) :
    (o.bare tag ++ (o.scopes tag).flatMap BareScope.sites).Perm
      (((o.visited tag around).map Location.site).filter (·.form = .statements)) := by
  induction o generalizing around with
  | nothing | reference _ | markers _ => exact .refl _
  | seq first second ih₁ ih₂ =>
    rw [visited_seq, List.map_append, List.filter_append, bare, scopes, List.flatMap_append]
    exact (perm_append_middle ..).trans ((ih₁ sound.1 around).append (ih₂ sound.2 around))
  | beside _ _ rest _ ih =>
    rw [visited_beside]
    exact ih sound around
  | template t site holes ih =>
    -- The holes return nothing, so a bare site in them stands in a scope of its own.
    have inside := ih sound.2 around
    rw [sound.1, List.nil_append] at inside
    have here : (template t site holes).bare tag =
        ((if t = tag then [(⟨site, none, around⟩ : Location)] else []).map
          Location.site).filter (·.form = .statements) := by
      rw [bare]
      by_cases same : t = tag
      · by_cases bare : site.form = .statements <;> simp [same, bare]
      · simp [same]
    rw [visited_template, List.map_append, List.filter_append, ← here]
    exact (inside.append_left _).trans List.perm_append_comm
  | scope opening first second ih₁ ih₂ =>
    rw [visited_scope, List.map_append, List.filter_append, bare, scopes, List.flatMap_cons,
      List.flatMap_append]
    exact (perm_append_middle ..).trans ((ih₁ sound.2.1 _).append (ih₂ sound.2.2 _))

end Outline

/-- Codes in one scope collide just if there are several. -/
lemma nodup_declared_iff {codes : List RenderCode} (each : ∀ code ∈ codes, code.declared.Nodup) :
    (codes.flatMap RenderCode.declared).Nodup ↔ codes.length ≤ 1 := by
  match codes with
  | [] => simp
  | [code] => simpa using each code (List.mem_singleton_self code)
  | first :: second :: rest =>
    refine iff_of_false (fun nodup => ?_) (by simp)
    -- Both declare the nodes of their fragments.
    have nodes (code : RenderCode) : ["__nodes"].Sublist code.declared :=
      List.singleton_sublist.2 List.mem_cons_self
    have twice : ["__nodes", "__nodes"].Sublist
        ((first :: second :: rest).flatMap RenderCode.declared) :=
      (nodes first).append ((nodes second).trans (List.sublist_append_left _ _))
    exact absurd (nodup.sublist twice) (by decide)

/-- A site gets a code. -/
def CodeOf (file : File) (visits : List Visit) (site : Site) (code : RenderCode) : Prop :=
  ∃ v ∈ visits, v.site = site ∧ v.code? file = some code

/-- If every site has code, then there is a list of codes for all sites. -/
lemma exists_codes {file : File} {visits : List Visit} {sites : List Site}
    (each : ∀ site ∈ sites, ∃ code, CodeOf file visits site code) :
    ∃ codes, List.Forall₂ (CodeOf file visits) sites codes := by
  induction sites with
  | nil => exact ⟨[], .nil⟩
  | cons site sites ih =>
    obtain ⟨⟨code, here⟩, each⟩ := List.forall_mem_cons.1 each
    obtain ⟨codes, rest⟩ := ih each
    exact ⟨code :: codes, .cons here rest⟩

/-- The names that a compiled script declares for its sites.

* A site that is written as bare statements stands in one scope of the script, and in every scope
  these sites are those that its own statements return. All cases of a switch are one scope.
* Such a site declares the names of its code in that scope, and they all differ. Other sites declare
  nothing around them.
* So the names in a scope collide if and only if its own statements return two templates. -/
theorem bare_collide_iff (runtime : Runtime) (name : String) (source : List Char)
    (script : List Stmt) (s : State)
    (ok : (visitScript (scriptFile runtime name source script) script).exec {} = (.ok (), s)) :
    let file := scriptFile runtime name source script
    let visits := visitsOf file script
    let scopes := scopesOf file.tag script
    (scopes.flatMap BareScope.sites).Perm
      ((visits.map Visit.site).filter (·.form = .statements)) ∧
    (∀ v ∈ visits, ∃ code, v.code? file = some code ∧
      (v.edit file code).text =
        printed (marginAt file v.site.replaced.start) (v.site.form.lines code) ∧
      declaredByLines (v.site.form.lines code) =
        (if v.site.form = .statements then code.declared else []) ∧
      code.declared.Nodup) ∧
    ∀ scope ∈ scopes, scope.sites = scope.opening.returned file.tag ∧
      (∃ codes, List.Forall₂ (CodeOf file visits) scope.sites codes) ∧
      ∀ codes, List.Forall₂ (CodeOf file visits) scope.sites codes →
        ((codes.flatMap RenderCode.declared).Nodup ↔
          (scope.opening.returned file.tag).length ≤ 1) := by
  intro file visits scopes
  obtain ⟨t, -, ran⟩ := runs_script ok
  have sketched := sketches_statements file script
  have perm : (scopes.flatMap BareScope.sites).Perm
      ((visits.map Visit.site).filter (·.form = .statements)) := by
    rw [map_site_visitsOf]
    exact sketched.sound.perm_scopes _
  have returned : ∀ scope ∈ scopes, scope.sites = scope.opening.returned file.tag :=
    List.forall_mem_cons.2 ⟨sketched.bare, sketched.sound.sites_eq_returned⟩
  refine ⟨perm, fun v mem => ?_, fun scope mem => ⟨returned scope mem, ?_, fun codes each => ?_⟩⟩
  · obtain ⟨code, compiled⟩ := ran.code v mem
    exact ⟨code, compiled, Form.print_eq _ _ _, Visit.declared_of_code compiled⟩
  · -- Every bare site is visited, and so has its code.
    have all : ∀ site ∈ scope.sites, ∃ code, CodeOf file visits site code := by
      intro site isBare
      have visited := perm.subset (List.mem_flatMap.2 ⟨scope, mem, isBare⟩)
      obtain ⟨v, mem, rfl⟩ := List.mem_map.1 (List.mem_filter.1 visited).1
      obtain ⟨code, compiled⟩ := ran.code v mem
      exact ⟨code, v, mem, rfl, compiled⟩
    exact exists_codes all
  · have nodup : List.Forall₂ (fun code _ => code.declared.Nodup ∧ True) codes scope.sites :=
      each.flip.imp fun code site ⟨v, _, _, compiled⟩ =>
        ⟨(Visit.declared_of_code compiled).2, trivial⟩
    rw [← returned scope mem, each.length_eq]
    exact nodup_declared_iff ((List.forall₂_and_left _ _).1 nodup).1

/-- A function with a switch that returns a template in two of its cases. -/
def casesScript : List Stmt :=
  [.expr (.arrow (.mk none [] (.block [.switch (.literal ⟨12, 13⟩)
    [.mk (some (.literal ⟨20, 21⟩))
      [.ret (some (.tagged (.name ⟨"_", ⟨29, 30⟩⟩) [⟨"", ⟨31, 31⟩⟩] [] ⟨29, 32⟩)) ⟨22, 33⟩],
     .mk none
      [.ret (some (.tagged (.name ⟨"_", ⟨48, 49⟩⟩) [⟨"", ⟨50, 50⟩⟩] [] ⟨48, 51⟩)) ⟨41, 51⟩]]]))
    ⟨0, 53⟩) ⟨0, 53⟩]

/-- The text of the script. -/
def casesSource : List Char :=
  "()=>\x7bswitch(0)\x7bcase 1:return _``;default:return _``\x7d\x7d".toList

/-- The names of the two templates collide. -/
theorem bare_collide_cases :
    let file := scriptFile {} "a.js" casesSource casesScript
    let scopes := scopesOf file.tag casesScript
    scopes.map (·.sites.length) = [0, 0, 2] ∧
    (∃ scope ∈ scopes, ∃ codes,
      List.Forall₂ (CodeOf file (visitsOf file casesScript)) scope.sites codes ∧
        ¬ (codes.flatMap RenderCode.declared).Nodup) ∧
    (compileScript {} "a.js" casesSource casesScript).result.toOption =
      some ("import \x7b renderer, makeFragment \x7d from 'fragment-runtime';\n" ++
        "const __render0 = renderer(makeFragment(``));\n()=>\x7bswitch(0)\x7bcase 1:" ++
        "const __nodes = __render0();\nreturn __nodes[__nodes.length];default:" ++
        "const __nodes = __render0();\nreturn __nodes[__nodes.length];\x7d\x7d") := by
  intro file scopes
  have compiled : ((visitScript file casesScript).exec {}).1.isOk = true := by decide +kernel
  rcases ok : (visitScript file casesScript).exec {} with ⟨failure | _, s⟩
  · rw [ok] at compiled
    cases compiled
  obtain ⟨-, -, each⟩ := bare_collide_iff {} "a.js" casesSource casesScript s ok
  have sizes : scopes.map (·.sites.length) = [0, 0, 2] := by decide
  obtain ⟨scope, mem, size⟩ : ∃ scope ∈ scopes, scope.sites.length = 2 :=
    List.mem_map.1 (sizes ▸ by decide)
  obtain ⟨returned, ⟨codes, codesOf⟩, collide⟩ := each scope mem
  refine ⟨sizes, ⟨scope, mem, codes, codesOf, fun nodup => ?_⟩, by decide +kernel⟩
  have one := (collide codes codesOf).1 nodup
  rw [← returned, size] at one
  exact absurd one (by decide)

end TaggedMarkup.Compile

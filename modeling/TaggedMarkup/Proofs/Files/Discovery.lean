import Mathlib
import TaggedMarkup.Proofs.Files.Order

/-!
# What discovery finds

Discovery reads its patterns as two sets. A path is found if it is a file that some included
pattern yields and no excluded one rejects (`IsFound`), and the paths that are found come in order,
each in the spelling that a pattern yielded first. What a pattern yields and matches is taken as the
surroundings have it, and one that they call malformed yields nothing and is reported.
-/

namespace TaggedMarkup.Text

/-- A text starts with a part just if the part is in front. -/
lemma startsWith_iff_isPrefix (cs part : List Char) : startsWith cs part ↔ part <+: cs := by
  induction part generalizing cs with
  | nil => cases cs <;> simp [startsWith]
  | cons d part ih =>
    cases cs with
    | nil => simp [startsWith]
    | cons c cs =>
      rw [startsWith, Bool.and_eq_true, beq_iff_eq, ih, List.cons_prefix_cons, eq_comm]

/-- A text contains a part just if the part is somewhere in it. -/
lemma contains_iff_isInfix (part cs : List Char) : contains part cs ↔ part <:+: cs := by
  induction cs with
  | nil => simp [contains]
  | cons c cs ih =>
    rw [contains, Bool.or_eq_true, startsWith_iff_isPrefix, ih, List.infix_cons_iff]

end TaggedMarkup.Text

namespace TaggedMarkup.Files

/-- The error that a reader ends with. -/
def errorOf {α : Type} : Except GlobError α → Option GlobError
  | .ok _ => none
  | .error e => some e

/-- A result keeps its error when its value is changed. -/
lemma errorOf_map {α β : Type} (f : α → β) (x : Except GlobError α) :
    errorOf (x.map f) = errorOf x := by
  cases x <;> rfl

/-! ## Paths that are found -/

/-- A pattern rejects a path if both name the package directory, if it matches the path, or if it
is malformed and stands in the path as it is. -/
inductive Rejects (w : Surroundings) (base pattern path : String) : Prop where
  | packages (inPattern : packageDirectory <:+: pattern.toList)
      (inPath : packageDirectory <:+: path.toList)
  | glob {accepts : String → Bool} (read : w.matcher (Path.join base pattern) = .ok accepts)
      (accepted : accepts path)
  | text {e : GlobError} (read : w.matcher (Path.join base pattern) = .error e)
      (inPath : pattern.toList <:+: path.toList)

/-- The test for excluded paths decides which paths a pattern rejects. -/
lemma excludes_iff (w : Surroundings) (base path pattern : String) :
    excludes w base path pattern ↔ Rejects w base pattern path := by
  rw [excludes, Bool.or_eq_true, Bool.and_eq_true, Text.contains_iff_isInfix,
    Text.contains_iff_isInfix]
  constructor
  · rintro (⟨inPattern, inPath⟩ | rejected)
    · exact .packages inPattern inPath
    · cases read : w.matcher (Path.join base pattern) with
      | ok accepts =>
        rw [read] at rejected
        exact .glob read rejected
      | error e =>
        rw [read] at rejected
        exact .text read ((Text.contains_iff_isInfix _ _).1 rejected)
  · rintro (⟨inPattern, inPath⟩ | ⟨read, accepted⟩ | ⟨read, inPath⟩)
    · exact .inl ⟨inPattern, inPath⟩
    · rw [read]
      exact .inr accepted
    · rw [read]
      exact .inr ((Text.contains_iff_isInfix _ _).2 inPath)

/-- A well-formed pattern yields a path. -/
def Yields (w : Surroundings) (base pattern path : String) : Prop :=
  ∃ paths, w.expand (Path.join base pattern) = .ok paths ∧ path ∈ paths

/-- A file that is yielded and not rejected. -/
structure IsFound (w : Surroundings) (base : String) (included excluded : List String)
    (path : String) : Prop where
  isFile : w.isFile path
  yielded : ∃ pattern ∈ included, Yields w base pattern path
  kept : ∀ pattern ∈ excluded, ¬ Rejects w base pattern path

/-- The paths that are found, in the order of the patterns. -/
def found (w : Surroundings) (base : String) (included excluded : List String) : List String :=
  included.flatMap fun pattern => (filesOf w base excluded pattern).toOption.getD []

section Found

variable {w : Surroundings} {base : String} {included excluded : List String} {path : String}

/-- A path is not excluded just if no pattern rejects it. -/
lemma not_any_excludes :
    (!excluded.any (excludes w base path)) = true ↔
      ∀ pattern ∈ excluded, ¬ Rejects w base pattern path := by
  simp [← excludes_iff]

/-- A pattern that can be expanded yields its paths. -/
lemma yields_iff {pattern : String} {paths : List String}
    (read : w.expand (Path.join base pattern) = .ok paths) :
    Yields w base pattern path ↔ path ∈ paths := by
  simp [Yields, read]

/-- The files of a pattern are those that it yields and that are not rejected. -/
lemma mem_filesOf {pattern : String} :
    path ∈ (filesOf w base excluded pattern).toOption.getD [] ↔
      w.isFile path ∧ Yields w base pattern path ∧
        ∀ pattern ∈ excluded, ¬ Rejects w base pattern path := by
  cases read : w.expand (Path.join base pattern) with
  | error e =>
    have idle : ¬ Yields w base pattern path := by
      rintro ⟨paths, ok, -⟩
      rw [read] at ok
      cases ok
    simp [filesOf, read, idle, Except.map, Except.toOption]
  | ok paths =>
    rw [yields_iff read, filesOf, read, Except.map, Except.toOption, Option.getD_some,
      List.mem_filter, Bool.and_eq_true, not_any_excludes, and_left_comm]

/-- With more patterns included and fewer excluded, no path is lost. -/
lemma IsFound.mono {included' excluded' : List String} (more : included ⊆ included')
    (fewer : excluded' ⊆ excluded) (h : IsFound w base included excluded path) :
    IsFound w base included' excluded' path := by
  obtain ⟨isFile, ⟨pattern, mem, yields⟩, kept⟩ := h
  exact ⟨isFile, ⟨pattern, more mem, yields⟩, fun pattern mem => kept pattern (fewer mem)⟩

/-- The paths of all patterns are those that are found. -/
lemma mem_found :
    path ∈ found w base included excluded ↔ IsFound w base included excluded path := by
  simp only [found, List.mem_flatMap, mem_filesOf]
  constructor
  · rintro ⟨pattern, mem, isFile, yields, kept⟩
    exact ⟨isFile, ⟨pattern, mem, yields⟩, kept⟩
  · rintro ⟨isFile, ⟨pattern, mem, yields⟩, kept⟩
    exact ⟨pattern, mem, isFile, yields, kept⟩

end Found

/-! ## Discovery -/

section Discovery

variable (w : Surroundings) (base : String) (included excluded : List String)

/-- The files that are discovered are those of all patterns, in path order. -/
lemma discover_fst :
    (discover w base included excluded).1 = inPathOrder (found w base included excluded) := by
  rw [discover, found, List.flatMap_map]

/-- There is an error for each pattern that cannot be expanded. -/
lemma discover_snd :
    (discover w base included excluded).2 =
      included.filterMap fun pattern =>
        (errorOf (w.expand (Path.join base pattern))).map (badPattern pattern) := by
  rw [discover, List.filterMap_map]
  refine List.filterMap_congr fun pattern _ => ?_
  rw [Function.comp_apply, ← errorOf_map]
  change _ = (errorOf (filesOf w base excluded pattern)).map _
  cases filesOf w base excluded pattern <;> rfl

/-- The places that are discovered are those of the paths that are found. -/
lemma mem_places_discover {place : List Component} :
    place ∈ places (discover w base included excluded).1 ↔
      ∃ path, IsFound w base included excluded path ∧ Path.components path = place := by
  rw [discover_fst, places_inPathOrder, mem_places]
  simp only [mem_found]

/-- The files that are discovered are in order, and none comes twice. -/
lemma pairwise_discover : (discover w base included excluded).1.Pairwise Path.Precedes := by
  rw [discover_fst]
  exact pairwise_inPathOrder _

/-- A malformed pattern finds nothing. -/
lemma found_filter_isNone :
    found w base
        (included.filter fun pattern => (errorOf (w.expand (Path.join base pattern))).isNone)
        excluded =
      found w base included excluded := by
  induction included with
  | nil => rfl
  | cons pattern included ih =>
    simp only [found, List.flatMap_cons] at ih ⊢
    cases fault : errorOf (w.expand (Path.join base pattern)) with
    | none => rw [List.filter_cons_of_pos (by simp [fault]), List.flatMap_cons, ih]
    | some e =>
      have idle : (filesOf w base excluded pattern).toOption.getD [] = [] := by
        refine List.eq_nil_iff_forall_not_mem.2 fun path mem => ?_
        obtain ⟨-, ⟨paths, read, -⟩, -⟩ := mem_filesOf.1 mem
        simp [read, errorOf] at fault
      rw [List.filter_cons_of_neg (by simp [fault]), ih, idle, List.nil_append]

/-- The paths of more patterns follow those of the first. -/
lemma found_append (more : List String) :
    found w base (included ++ more) excluded =
      found w base included excluded ++ found w base more excluded := by
  rw [found, List.flatMap_append, found, found]

variable {included excluded}

/-- More patterns to include and fewer to exclude lose no place. -/
lemma places_discover_mono {included' excluded' : List String} (more : included ⊆ included')
    (fewer : excluded' ⊆ excluded) :
    places (discover w base included excluded).1 ⊆
      places (discover w base included' excluded').1 := by
  intro place mem
  rw [mem_places_discover] at *
  obtain ⟨path, isFound, rfl⟩ := mem
  exact ⟨path, isFound.mono more fewer, rfl⟩

end Discovery

/-- A directory with two files and a package. -/
def scratchTree : Tree where
  files := [(["tmp", "src", "a.js"], ""), (["tmp", "src", "b.js"], ""),
    (["tmp", "node_modules", "c.js"], "")]
  home := ["work"]

end TaggedMarkup.Files

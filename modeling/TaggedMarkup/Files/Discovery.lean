import TaggedMarkup.Files.Walk
import TaggedMarkup.Log

/-!
# Finding the files to compile

The files to compile are those that some pattern matches and that no other pattern excludes. They
come in the order of their paths, each once. Which paths a pattern matches is up to the surroundings
of the program.
-/

namespace TaggedMarkup.Files

/-- What discovery asks of its surroundings: which paths are files, which paths a pattern yields,
and which paths a pattern matches as a text. A pattern that is malformed has an error instead. -/
structure Surroundings where
  isFile : String → Bool
  expand : String → Except GlobError (List String)
  matcher : String → Except GlobError (String → Bool)

/-- A tree as surroundings. -/
def Surroundings.ofTree (t : Tree) : Surroundings where
  isFile := t.isFile
  expand := globPaths t
  matcher pattern := (Glob.read pattern.toList).map Glob.accepts

/-- A directory that is excluded wherever it is, if it is excluded at all. -/
def packageDirectory : List Char := "node_modules".toList

/-- Whether a pattern excludes a path. A malformed pattern excludes the paths that contain it. -/
def excludes (w : Surroundings) (base path pattern : String) : Bool :=
  (Text.contains packageDirectory pattern.toList && Text.contains packageDirectory path.toList) ||
    match w.matcher (Path.join base pattern) with
    | .ok accepts => accepts path
    | .error _ => Text.contains pattern.toList path.toList

/-- The files that a pattern finds, or why it is malformed. -/
def filesOf (w : Surroundings) (base : String) (excluded : List String) (pattern : String) :
    Except GlobError (List String) :=
  (w.expand (Path.join base pattern)).map fun paths =>
    paths.filter fun path => w.isFile path && !excluded.any (excludes w base path)

/-- The log entry of a malformed pattern. -/
def badPattern (pattern : String) (e : GlobError) : Entry :=
  ⟨.warn, s!"Invalid glob pattern '{pattern}': {e.message}"⟩

/-- Drops the paths that are the same as the one before. -/
def dropRepeatsAfter (last : String) : List String → List String
  | [] => []
  | p :: ps =>
    if Path.same last p then dropRepeatsAfter last ps else p :: dropRepeatsAfter p ps

/-- Of paths that are the same in a row, keeps the first. -/
def dropRepeats : List String → List String
  | [] => []
  | p :: ps => p :: dropRepeatsAfter p ps

/-- Paths in order, each once. -/
def inPathOrder (paths : List String) : List String :=
  dropRepeats (paths.mergeSort fun p q => (Path.compare p q).isLE)

/-- The files that patterns find, in order, and the log. -/
def discover (w : Surroundings) (base : String) (included excluded : List String) :
    List String × List Entry :=
  let found := included.map fun pattern => (pattern, filesOf w base excluded pattern)
  let paths := found.flatMap fun (_, result) => result.toOption.getD []
  let log := found.filterMap fun (pattern, result) =>
    match result with
    | .ok _ => none
    | .error e => some (badPattern pattern e)
  (inPathOrder paths, log)

end TaggedMarkup.Files

import TaggedMarkup.Files.Glob
import TaggedMarkup.Files.Tree

/-!
# Paths that match a pattern

A pattern is followed through a tree one part of the path at a time. A part without wildcards is
looked up; for any other the entries of the directory are tried in their order.
-/

namespace TaggedMarkup.Files

/-- A path to be tried against the patterns that are left for its last name and below. Without
patterns the path has matched. -/
structure Candidate where
  path : String
  globs : List Glob
  deriving DecidableEq, Repr

/-- The names of a directory itself and of the one around it, if a pattern asks for them. -/
def dotNames (g : Glob) : List String :=
  if g.startsWithDot then ["..", "."].filter g.accepts else []

/-- The candidates in a directory for some patterns. -/
def candidates (t : Tree) (path : String) : List Glob → List Candidate
  | [] => [⟨path, []⟩]
  | g :: gs =>
    match g.plain? with
    | some name =>
      let next := if Path.isCurrent path then name else Path.join path name
      let there := if name = "." || name = ".." then t.isDirectory path else t.hasPath next
      if there then candidates t next gs else []
    | none =>
      if t.isDirectory path then
        (dotNames g).flatMap (fun name => candidates t (Path.join path name) gs) ++
          (t.entries path).map fun entry => ⟨entry, g :: gs⟩
      else []

/-- Drops patterns for any number of directories that are followed by another one. -/
def collapse : List Glob → List Glob
  | g :: h :: gs => if g.isDeep && h.isDeep then collapse (h :: gs) else g :: h :: gs
  | gs => gs

/-- The paths that a candidate leads to. If `onlyDirectories` is set, other files do not count. -/
def search (t : Tree) (onlyDirectories : Bool) : Nat → Candidate → List String
  | 0, _ => []
  | n + 1, ⟨path, globs⟩ =>
    let isDirectory := t.isDirectory path
    let found := if onlyDirectories && !isDirectory then [] else [path]
    let byName : List Glob → List String
      | [] => []
      | g :: gs =>
        match Path.fileName? path with
        | none => []
        | some name =>
          if !g.accepts name then []
          else if gs.isEmpty then found
          else (candidates t path gs).flatMap (search t onlyDirectories n)
    match collapse globs with
    | [] => found
    | g :: gs =>
      if g.isDeep then
        let below :=
          if isDirectory then
            (candidates t path (g :: gs)).flatMap (search t onlyDirectories n)
          else []
        if gs.isEmpty then (if isDirectory then path :: below else [])
        else byName gs ++ below
      else byName (g :: gs)

/-- The greatest number of names in a location of a tree. -/
def Tree.depth (t : Tree) : Nat := (t.locations.map List.length).foldl max 0

/-- The paths that a pattern matches. The pattern has to be well-formed as a whole and in each
part. -/
def globPaths (t : Tree) (pattern : String) : Except GlobError (List String) := do
  let cs := pattern.toList
  let _ ← Glob.read cs
  let relative := if Path.isAbsolute pattern then cs.drop 1 else cs
  let globs ← (Text.splitTerminated '/' relative).mapM Glob.read
  if globs.isEmpty then return []
  let onlyDirectories := cs.getLast? == some '/'
  let fuel := (globs.length + 1) * (t.depth + 2)
  let scope := if Path.isAbsolute pattern then "/" else "."
  return (candidates t scope globs).flatMap (search t onlyDirectories fuel)

end TaggedMarkup.Files

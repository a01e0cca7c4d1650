import TaggedMarkup.Files.Path

/-!
# File trees

A tree holds files, and one of its directories is the working directory. Every file and directory
has a location, which is the list of names on the way to it from the root. A path is followed name
by name, so that each name but the last has to be a directory.
-/

namespace TaggedMarkup.Files

/-- The names on the way from the root. -/
abbrev Location := List String

/-- Why an operation on files fails. -/
inductive FileError where
  | notFound
  | exists
  | notDirectory
  | isDirectory
  deriving DecidableEq, Repr

/-- An error in the words of the system. -/
def FileError.message : FileError → String
  | .notFound => "No such file or directory (os error 2)"
  | .exists => "File exists (os error 17)"
  | .notDirectory => "Not a directory (os error 20)"
  | .isDirectory => "Is a directory (os error 21)"

/-- The files of a tree with their texts, directories besides those that the files are in, and the
working directory. -/
structure Tree where
  files : List (Location × String) := []
  directories : List Location := []
  home : Location := []
  deriving DecidableEq, Repr

namespace Tree

/-- The location of a plain path. -/
def locationOf (path : String) : Location :=
  ((Text.split '/' path.toList).filter fun part => part != [] && part != ['.']).map String.ofList

/-- The tree of some files in a working directory. -/
def ofFiles (home : Location) (files : List (String × String)) : Tree :=
  { files := files.map fun (path, text) => (home ++ locationOf path, text), home := home }

/-- The text of a file. -/
def text? (t : Tree) (l : Location) : Option String := t.files.lookup l

/-- All locations that are known to exist. -/
def locations (t : Tree) : List Location := t.home :: t.files.map Prod.fst ++ t.directories

/-- Whether a location is a directory. -/
def isDirectoryAt (t : Tree) (l : Location) : Bool :=
  l.isPrefixOf t.home || t.directories.any (l.isPrefixOf ·) ||
    t.files.any fun (f, _) => l.isPrefixOf f && l != f

/-- The names in a directory, each once and in order. -/
def names (t : Tree) (l : Location) : List String :=
  let next := t.locations.filterMap fun k =>
    if l.isPrefixOf k then (k.drop l.length).head? else none
  next.eraseDups.mergeSort fun a b => a ≤ b

/-- Where a path starts. -/
def start (t : Tree) (path : String) : Location := if Path.isAbsolute path then [] else t.home

/-- Follows the parts of a path from a location. Above the root there is the root. -/
def follow (t : Tree) (l : Location) : List (List Char) → Except FileError Location
  | [] => .ok l
  | part :: parts =>
    if t.isDirectoryAt l then
      if part = [] || part = ['.'] then t.follow l parts
      else if part = ['.', '.'] then t.follow l.dropLast parts
      else t.follow (l ++ [String.ofList part]) parts
    else if (t.text? l).isSome then .error .notDirectory
    else .error .notFound

/-- The location of a path, which need not exist itself. -/
def resolve (t : Tree) (path : String) : Except FileError Location :=
  if path = "" then .error .notFound
  else t.follow (t.start path) (Text.split '/' path.toList)

/-- Whether a path is a directory. -/
def isDirectory (t : Tree) (path : String) : Bool :=
  match t.resolve path with
  | .ok l => t.isDirectoryAt l
  | .error _ => false

/-- Reads a file. -/
def read (t : Tree) (path : String) : Except FileError String :=
  match t.resolve path with
  | .error e => .error e
  | .ok l =>
    match t.text? l with
    | some text => .ok text
    | none => .error (if t.isDirectoryAt l then .isDirectory else .notFound)

/-- Whether a path is a file. -/
def isFile (t : Tree) (path : String) : Bool :=
  match t.read path with
  | .ok _ => true
  | .error _ => false

/-- Whether a path is a file or a directory. -/
def hasPath (t : Tree) (path : String) : Bool := t.isFile path || t.isDirectory path

/-- The paths of the entries of a directory, in order. -/
def entries (t : Tree) (path : String) : List String :=
  match t.resolve path with
  | .error _ => []
  | .ok l =>
    if t.isDirectoryAt l then
      (t.names l).map fun name => if Path.isCurrent path then name else Path.join path name
    else []

/-- Makes the directories along the parts of a path from a location. -/
def makeAlong (t : Tree) (l : Location) : List (List Char) → Except FileError Tree
  | [] => .ok t
  | part :: parts =>
    if part = [] || part = ['.'] then t.makeAlong l parts
    else if part = ['.', '.'] then t.makeAlong l.dropLast parts
    else
      let next := l ++ [String.ofList part]
      if t.isDirectoryAt next then t.makeAlong next parts
      else if (t.text? next).isSome then
        .error (if parts.all fun p => p == [] || p == ['.'] then .exists else .notDirectory)
      else { t with directories := next :: t.directories }.makeAlong next parts

/-- Makes a directory and those around it. The empty path is the working directory. -/
def makeDirectory (t : Tree) (path : String) : Except FileError Tree :=
  t.makeAlong (t.start path) (Text.split '/' path.toList)

/-- Writes a file into a directory that exists. -/
def write (t : Tree) (path text : String) : Except FileError Tree :=
  match t.resolve path with
  | .error e => .error e
  | .ok l =>
    if t.isDirectoryAt l then .error .isDirectory
    else if t.isDirectoryAt l.dropLast then
      .ok { t with files := (l, text) :: t.files.filter fun (k, _) => k != l }
    else .error .notFound

end Tree

end TaggedMarkup.Files

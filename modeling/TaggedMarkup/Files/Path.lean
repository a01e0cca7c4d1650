import TaggedMarkup.Text.Split

/-!
# Paths

A path is a text whose parts are divided by slashes. Paths are compared by their components, for
which repeated slashes and parts that are a single dot count for nothing, except for a dot at the
start.
-/

namespace TaggedMarkup.Files

/-- A component of a path. -/
inductive Component where
  | root
  | current
  | parent
  | name (text : String)
  deriving DecidableEq, Repr

namespace Component

/-- The components other than names come before names. -/
def rank : Component → Nat
  | .root => 0
  | .current => 1
  | .parent => 2
  | .name _ => 3

/-- The text of a name. -/
def text : Component → String
  | .name text => text
  | _ => ""

/-- Compares components by rank, and names by their texts. -/
def compare (a b : Component) : Ordering :=
  (Ord.compare a.rank b.rank).then (Ord.compare a.text b.text)

/-- The component of a part of a path, if it counts. -/
def ofPart? (part : List Char) : Option Component :=
  if part = [] || part = ['.'] then none
  else if part = ['.', '.'] then some .parent
  else some (.name (String.ofList part))

end Component

namespace Path

/-- Whether a path starts at the root. -/
def isAbsolute (path : String) : Bool := path.toList.head? == some '/'

/-- The components of a path. -/
def components (path : String) : List Component :=
  let cs := path.toList
  let parts := Text.split '/' cs
  let rest := parts.filterMap Component.ofPart?
  if isAbsolute path then .root :: rest
  else if parts.head? == some ['.'] then .current :: rest
  else rest

/-- Compares lists of components, the first difference first. -/
def compareComponents : List Component → List Component → Ordering
  | [], [] => .eq
  | [], _ :: _ => .lt
  | _ :: _, [] => .gt
  | a :: as, b :: bs => (a.compare b).then (compareComponents as bs)

/-- Compares paths by their components. -/
def compare (p q : String) : Ordering := compareComponents (components p) (components q)

/-- Whether two paths have the same components. -/
def same (p q : String) : Bool := components p == components q

/-- Whether a path is the current directory. -/
def isCurrent (path : String) : Bool := components path == [.current]

/-- A path that starts at another one. An absolute path stays as it is. -/
def join (base path : String) : String :=
  if isAbsolute path then path
  else if base = "" || base.toList.getLast? == some '/' then base ++ path
  else base ++ "/" ++ path

/-- The last component of a path, if it is a name. -/
def fileName? (path : String) : Option String :=
  match (components path).getLast? with
  | some (.name text) => some text
  | _ => none

/-- The parts of a path up to its last component. -/
def parentParts (parts : List (List Char)) : List (List Char) :=
  ((parts.reverse.dropWhile fun p => p == [] || p == ['.']).drop 1).reverse

/-- The path of the directory that a path is in. -/
def parent (path : String) : String :=
  let parts := parentParts (Text.split '/' path.toList)
  match parts with
  | [[]] => "/"
  | parts => "/".intercalate (parts.map String.ofList)

end Path

end TaggedMarkup.Files

/-!
# Scopes

Scopes tell of every visible name whether it is observable. A declaration hides those of the same
name further out.
-/

namespace TaggedMarkup.Script

/-- A name that a declaration binds. -/
structure Binding where
  name : String
  observable : Bool
  deriving DecidableEq, Repr

/-- The declarations of one scope, the latest first. -/
abbrev Scope := List Binding

/-- Nested scopes: the innermost one, and those around it from inside to outside. -/
structure Scopes where
  inner : Scope := []
  outer : List Scope := []
  deriving DecidableEq, Repr

namespace Scopes

/-- The number of scopes. -/
def depth (s : Scopes) : Nat := s.outer.length + 1

/-- Opens a scope. -/
def push (s : Scopes) : Scopes := { inner := [], outer := s.inner :: s.outer }

/-- Closes the innermost scope, unless it is the only one. -/
def pop (s : Scopes) : Scopes :=
  match s.outer with
  | [] => s
  | scope :: outer => { inner := scope, outer := outer }

/-- Declares a name in the innermost scope. -/
def declare (s : Scopes) (b : Binding) : Scopes := { s with inner := b :: s.inner }

/-- Declares several names. -/
def declareAll (s : Scopes) (bs : List Binding) : Scopes := bs.foldl declare s

/-- Looks a name up in one scope. -/
def find? (name : String) (scope : Scope) : Option Bool :=
  (scope.find? fun b => b.name == name).map Binding.observable

/-- Whether the innermost declaration of a name makes it observable. -/
def isObservable (s : Scopes) (name : String) : Bool :=
  ((s.inner :: s.outer).findSome? (find? name)).getD false

end Scopes

end TaggedMarkup.Script

import TaggedMarkup.Code.Helper

/-!
# The tables of a file

All templates of a file share their fragments and initializers: those with equal keys are declared
once, and the code refers to them by their number in the order of first use. A fragment is its own
key, and an initializer has its text as key.
-/

namespace TaggedMarkup.Code

open Template (Binder Binding Initializer)

/-- Looks a value up in a table by its key, and adds it at the end if no value has that key. -/
def enter {α κ : Type} [BEq κ] (key : α → κ) (a : α) (table : List α) : Nat × List α :=
  match table.findIdx? fun b => key b == key a with
  | some i => (i, table)
  | none => (table.length, table ++ [a])

/-- What a file declares and imports. -/
structure Tables where
  fragments : List String := []
  initializers : List Initializer := []
  used : List Helper := [.renderer, .makeFragment]
  deriving DecidableEq, Repr

namespace Tables

/-- Enters a skeleton, and gives its number. -/
def addFragment (t : Tables) (html : String) : Nat × Tables :=
  let (i, fragments) := enter id html t.fragments
  (i, { t with fragments := fragments })

/-- Notes the use of a helper. -/
def useHelper (t : Tables) (h : Helper) : Tables := { t with used := (enter id h t.used).2 }

/-- Notes the use of a helper, if there is one. -/
def useIfAny (t : Tables) : Option Helper → Tables
  | some h => t.useHelper h
  | none => t

/-- Enters the initializer of a binder, and gives its number. The helper that it calls is told by
the name of its factory. -/
def addBinder (t : Tables) (b : Binder) : Nat × Tables :=
  let (i, initializers) := enter Initializer.key b.initializer t.initializers
  (i, { t with initializers := initializers }.useIfAny (Helper.ofName? b.target.factory))

/-- Notes the helper that a way of binding calls. -/
def useBinding (t : Tables) (binding : Binding) : Tables := t.useIfAny (Helper.ofBinding? binding)

/-- The names to import, in the order of import. -/
def importNames (t : Tables) : List String := Helper.names t.used

/-- The declaration of a fragment. -/
def fragmentDeclaration (html : String) (i : Nat) : String :=
  s!"const __render{i} = {Helper.renderer.name}({Helper.makeFragment.name}(`{html}`));"

/-- The declaration of an initializer. -/
def initializerDeclaration (initializer : Initializer) (i : Nat) : String :=
  s!"const __bind{i} = {initializer.code};"

/-- The declarations of the file: its fragments, then its initializers. -/
def declarations (t : Tables) : List String :=
  t.fragments.zipIdx.map (fun (html, i) => fragmentDeclaration html i) ++
    t.initializers.zipIdx.map fun (initializer, i) => initializerDeclaration initializer i

end Tables

end TaggedMarkup.Code

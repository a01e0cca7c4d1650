import TaggedMarkup.Template.Binder

/-!
# Runtime helpers

The functions that generated code takes from the runtime.
-/

namespace TaggedMarkup.Code

open Template (Binding Target)

/-- A function of the runtime. -/
inductive Helper where
  | renderer
  | makeFragment
  | binder (target : Target)
  | first
  | map
  | combine
  deriving DecidableEq, Repr

namespace Helper

/-- The helpers in the order in which they are imported. -/
def all : List Helper :=
  [.renderer, .makeFragment, .binder .text, .binder .block, .binder .attribute,
   .binder .component, .first, .map, .combine]

/-- The name of a helper. -/
def name : Helper → String
  | .renderer => "renderer"
  | .makeFragment => "makeFragment"
  | .binder target => target.factory
  | .first => "__first"
  | .map => "__map"
  | .combine => "__combine"

/-- The helper with a name, if there is one. -/
def ofName? (text : String) : Option Helper := all.find? (·.name == text)

/-- The helper that a way of binding calls, if any. -/
def ofBinding? : Binding → Option Helper
  | .first => some .first
  | .map | .mapFirst => some .map
  | .combine | .combineFirst => some .combine
  | .value | .subscribe => none

/-- The names of some helpers in the order of import. -/
def names (used : List Helper) : List String :=
  (all.filter used.contains).map name

/-- The helpers whose places in the order of import are bits of a number. -/
def ofBits (bits : Nat) : List Helper :=
  (all.zipIdx.filter fun (_, i) => bits.testBit i).map Prod.fst

end Helper

end TaggedMarkup.Code

import TaggedMarkup.Template.Binding
import TaggedMarkup.Text.Quoted

/-!
# Binders

A binder ties one expression of a template to a place of the rendered fragment. A component has a
binder for each of its properties besides its own.
-/

namespace TaggedMarkup.Template

open Markup (Sigil)
open Text (Quoted.quote)

/-- The expression in a hole. A literal is made from markup and stands in no hole. -/
structure Expression where
  source : String
  offset : Nat := 0
  isIdentifier : Bool := false
  isLiteral : Bool := false
  deriving DecidableEq, Repr

/-- The expression of a fixed text. -/
def Expression.ofText (text : String) (offset : Nat) : Expression :=
  { source := Quoted.quote text, offset := offset, isLiteral := true }

/-- What a binder writes to. -/
inductive Target where
  | text
  | block
  | attribute
  | component
  deriving DecidableEq, Repr

namespace Target

/-- The markup that keeps the place of a target. -/
def placeholder : Target → String
  | .text => "<text-node></text-node>"
  | .block => "<!-- block -->"
  | .attribute => "\"\""
  | .component => "<!-- component -->"

/-- Whether a target holds a range of nodes, which needs a release of its own. -/
def isBlock : Target → Bool
  | .block | .component => true
  | .text | .attribute => false

/-- Whether a target is a component. -/
def isComponent : Target → Bool
  | .component => true
  | _ => false

/-- The runtime function that makes the binders of a target. -/
def factory : Target → String
  | .text => "__textBinder"
  | .block => "__blockBinder"
  | .attribute => "__attrBinder"
  | .component => "__componentBinder"

end Target

/-- Where a binder stands in its element: at a child node, or at an attribute. -/
inductive Index where
  | child (n : Nat)
  | attribute (name : String)
  deriving DecidableEq, Repr

/-- The code of an index. -/
def Index.code : Index → String
  | .child n => toString n
  | .attribute name => Quoted.quote name

/-- The call that makes a binder. Binders of equal initializers share one call. -/
structure Initializer where
  target : Target
  index : Index
  deriving DecidableEq, Repr

namespace Initializer

/-- The code of an initializer. -/
def code (i : Initializer) : String := s!"{i.target.factory}({i.index.code})"

/-- The text that identifies an initializer. -/
def key (i : Initializer) : String :=
  "\x7b\"name\":" ++ Quoted.quote i.target.factory ++ ",\"arg\":" ++ i.index.code ++ "\x7d"

end Initializer

/-- One bound expression of a template.

* `slot` is the number of its hole, which for a literal is that of its component.
* `node` is the number of its element among the bound elements of the fragment.
* `entry` is the number of its initializer in the tables of the file.
* `child` is the fragment of a template that is the whole expression. -/
structure Binder where
  target : Target
  sigil : Sigil
  expression : Expression
  slot : Nat
  index : Index
  node : Option Nat := none
  observables : List String := []
  entry : Option Nat := none
  properties : List Binder := []
  child : Option Nat := none
  deriving Repr

instance : Inhabited Binder :=
  ⟨{ target := .text, sigil := .none, expression := { source := "" }, slot := 0,
     index := .child 0 }⟩

namespace Binder

/-- The way a binder binds. The value of a component is a call, never an identifier. -/
def binding (b : Binder) : Binding :=
  .classify b.sigil (b.expression.isIdentifier && !b.target.isComponent) b.observables.length

/-- The call that makes a binder. -/
def initializer (b : Binder) : Initializer := ⟨b.target, b.index⟩

end Binder

end TaggedMarkup.Template

import TaggedMarkup.Markup.Event
import TaggedMarkup.Template.Binding

/-!
# Failures

Why a template or a script cannot be compiled, and where. The causes are kept apart as data, and
`Cause.message` is the only place that puts them into words.
-/

namespace TaggedMarkup

open Markup (Place)
open Template (Binding)

/-- Something that is well-formed but has no meaning here. -/
inductive Construct where
  | textAfterHole
  | partOfValue (name : String)
  | blockInAttribute
  | blockComponent
  | sigilComponent
  | sigilProperty (name : String)
  | componentTag (name : String)
  | openComponent
  | holeIn (place : Place)
  | worded (text : String)
  deriving DecidableEq, Repr

/-- What is wrong with markup. -/
inductive MarkupFault where
  | inTag (c : Char) (tag : String)
  | inClosingTag (c : Char) (tag : String)
  | openComment
  | openTag (tag : String)
  | closingTag (tag : String)
  | chunks (given expressions : Nat)
  | worded (text : String)
  deriving DecidableEq, Repr

/-- Why no code can be written for a binder. -/
inductive BinderFault where
  | noNode (binder : Nat)
  | arity (binding : Binding) (observables : Nat)
  | worded (text : String)
  | located (fault : BinderFault) (position : String)
  deriving DecidableEq, Repr

/-- Why something cannot be compiled. -/
inductive Cause where
  | unsupported (what : Construct)
  | duplicateMarker (name : String)
  | markup (fault : MarkupFault)
  | binder (fault : BinderFault)
  | malformed (detail : String)
  deriving DecidableEq, Repr

/-- A construct in words. -/
def Construct.detail : Construct → String
  | .textAfterHole => "text after expression inside attribute value"
  | .partOfValue name => s!"expression must be the whole value of attribute \"{name}\""
  | .blockInAttribute => "block binding in attribute position"
  | .blockComponent => "block marker on a component"
  | .sigilComponent => "sigil in front of a component"
  | .sigilProperty name => s!"sigil on component property \"{name}\""
  | .componentTag name => s!"component tag <{name}> must be written <#:$\x7bfactory\x7d />"
  | .openComponent => "component tags must be self-closing"
  | .holeIn place => "expression in " ++ place.describe
  | .worded text => text

/-- A fault of markup in words. -/
def MarkupFault.detail : MarkupFault → String
  | .inTag c tag => s!"unexpected character '{c}' in tag <{tag}>"
  | .inClosingTag c tag => s!"unexpected character '{c}' in closing tag </{tag}>"
  | .openComment => "unterminated comment"
  | .openTag tag => s!"unterminated tag <{tag}"
  | .closingTag tag => s!"unexpected closing tag </{tag}>"
  | .chunks given expressions =>
    s!"template has {given} literal chunks for {expressions} expressions"
  | .worded text => text

/-- A fault of a binder in words. -/
def BinderFault.detail : BinderFault → String
  | .noNode binder => s!"binder {binder} was never assigned a node"
  | .arity binding observables => s!"{binding.name} binding over {observables} observables"
  | .worded text => text
  | .located fault position => s!"{fault.detail} at {position}"

/-- A cause in words. -/
def Cause.message : Cause → String
  | .unsupported what => "Unsupported construct: " ++ what.detail
  | .duplicateMarker name => s!"Observable marker used twice for '{name}'"
  | .markup fault => "Malformed markup: " ++ fault.detail
  | .binder fault => "Unsupported binder type: " ++ fault.detail
  | .malformed detail => "Parse error: " ++ detail

/-- A cause with the offset in the source at which it shows, as far as it is known. -/
structure Failure where
  cause : Cause
  offset : Option Nat := none
  deriving DecidableEq, Repr

namespace Failure

/-- A failure in words. -/
def message (f : Failure) : String := f.cause.message

/-- Adds an offset to a failure that has none. The fault of a binder belongs to no offset. -/
def locate (f : Failure) (offset : Nat) : Failure :=
  match f.cause, f.offset with
  | .binder _, _ => f
  | _, some _ => f
  | _, none => { f with offset := some offset }

end Failure

end TaggedMarkup

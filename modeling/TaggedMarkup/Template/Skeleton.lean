import TaggedMarkup.Failure
import TaggedMarkup.Markup.Element
import TaggedMarkup.Template.Binder

/-!
# Skeletons

A skeleton is the fixed markup of a template, built from the events of the lexer and from the
holes. An element that hosts a binder is marked, which is known only at its end: its start tag
leaves an empty piece in the markup for the mark.

The bound elements are numbered in the order of their start tags, and the fragment itself comes
last.
-/

namespace TaggedMarkup.Template

open Markup (Event Sigil isVoid sameName)

/-- The mark of an element that hosts a binder. -/
def bindMark : String := " data-bind"

/-- The name of a tag whose hole is the component. -/
def componentTag : String := "#:"

/-- Whether a tag name is that of a component, well formed or not. -/
def isComponentTag (name : String) : Bool :=
  match name.toList with
  | '#' :: ':' :: _ => true
  | _ => false

/-- The value of an attribute in a skeleton. -/
inductive AttributeValue where
  | fixed (text : String)
  | bound
  deriving DecidableEq, Repr

/-- A fixed value between double quotes. -/
def escapeValue (text : String) : String :=
  String.ofList (text.toList.flatMap fun c => if c = '\x22' then "&quot;".toList else [c])

/-- The markup of an attribute. -/
def attributeMarkup : String × AttributeValue → String
  | (name, .fixed text) => s!" {name}=\"{escapeValue text}\""
  | (name, .bound) => s!" {name}=\"\""

/-- Sets an attribute. The last value counts, at the place of the first. -/
def setAttribute (name : String) (value : AttributeValue) :
    List (String × AttributeValue) → List (String × AttributeValue)
  | [] => [(name, value)]
  | (other, old) :: rest =>
    if other = name then (name, value) :: rest else (other, old) :: setAttribute name value rest

/-- An open element, or the fragment.

* `binders` are those that the element hosts, `groups` those of its marked descendants.
* `children` is the number of child nodes so far.
* `slot` is the piece of the markup for the mark, once the start tag is written.
* `component` is the binder of a component, whose tag is an element without markup. -/
structure Frame where
  name : String := ""
  attributes : List (String × AttributeValue) := []
  binders : List Binder := []
  groups : List (List Binder) := []
  children : Nat := 0
  slot : Option Nat := none
  component : Option Binder := none
  deriving Repr

namespace Frame

/-- Counts a child node. -/
def addChild (f : Frame) : Frame := { f with children := f.children + 1 }

/-- Adds a binder. -/
def addBinder (f : Frame) (b : Binder) : Frame := { f with binders := f.binders ++ [b] }

/-- The own binders of an element as a group, which is left out when empty. -/
def ownGroup (f : Frame) : List (List Binder) := if f.binders.isEmpty then [] else [f.binders]

/-- The start tag without its end. -/
def startTag (f : Frame) : String := "<" ++ f.name ++ String.join (f.attributes.map attributeMarkup)

end Frame

/-- Markup under construction: its pieces, the open elements from the innermost to the fragment,
and the component whose tag name is being read. -/
structure Skeleton where
  html : Array String := #[]
  top : Frame := {}
  below : List Frame := []
  pending : Option Binder := none
  deriving Repr

/-- A finished skeleton with its binders in the order of their elements. -/
structure Fragment where
  html : String
  binders : List Binder
  deriving Repr

namespace Skeleton

/-- Changes the innermost open element. -/
def mapTop (s : Skeleton) (f : Frame → Frame) : Skeleton := { s with top := f s.top }

/-- Adds a piece of markup. -/
def put (s : Skeleton) (piece : String) : Skeleton := { s with html := s.html.push piece }

/-- Adds a piece of markup that is a child node. -/
def putNode (s : Skeleton) (piece : String) : Skeleton := (s.put piece).mapTop .addChild

/-- Adds the placeholder of a hole among child nodes, and its binder. -/
def addChildBinder (s : Skeleton) (target : Target) (sigil : Sigil) (expression : Expression)
    (slot : Nat) : Skeleton :=
  let binder :=
    { target := target, sigil := sigil, expression := expression, slot := slot,
      index := .child s.top.children }
  (s.putNode target.placeholder).mapTop (·.addBinder binder)

/-- Adds the binder of an attribute, which in the tag of a component is a property. -/
def addAttributeBinder (s : Skeleton) (name : String) (sigil : Sigil) (expression : Expression)
    (slot : Nat) : Except Cause Skeleton :=
  let binder :=
    { target := .attribute, sigil := sigil, expression := expression, slot := slot,
      index := .attribute name }
  match s.top.component with
  | some component =>
    if sigil = .none then
      let component := { component with properties := component.properties ++ [binder] }
      .ok (s.mapTop fun f => { f with component := some component })
    else .error (.unsupported (.sigilProperty name))
  | none =>
    .ok (s.mapTop fun f =>
      { f with attributes := setAttribute name .bound f.attributes }.addBinder binder)

/-- Sets the component whose tag name is being read. -/
def setComponent (s : Skeleton) (sigil : Sigil) (expression : Expression) (slot : Nat) : Skeleton :=
  let binder :=
    { target := .component, sigil := sigil, expression := expression, slot := slot,
      index := .child 0 }
  { s with pending := some binder }

/-- Opens an element. -/
def push (s : Skeleton) (f : Frame) : Skeleton := { s with top := f, below := s.top :: s.below }

/-- Closes the innermost element: marks it if it hosts a binder, and hands its binders on. -/
def closeTop (s : Skeleton) : Skeleton :=
  match s.below with
  | [] => s
  | parent :: below =>
    let html :=
      match s.top.binders.isEmpty, s.top.slot with
      | false, some slot => s.html.setIfInBounds slot bindMark
      | _, _ => s.html
    let parent := { parent with groups := parent.groups ++ s.top.ownGroup ++ s.top.groups }
    { s with html := html, top := parent, below := below }

/-- Closes the tag of a component, which leaves its placeholder. -/
def closeComponent (s : Skeleton) (component : Binder) : Skeleton :=
  match s.below with
  | [] => s
  | parent :: below =>
    { s.put component.target.placeholder with top := parent.addBinder component, below := below }

/-- Writes the start tag of the innermost element. -/
def writeStartTag (s : Skeleton) : Skeleton :=
  let tagged := s.put s.top.startTag
  let slot := tagged.html.size
  ((tagged.put "").put ">").mapTop fun f => { f with slot := some slot }

/-- Starts an element or a component. -/
def openTag (s : Skeleton) (name : String) : Except Cause Skeleton :=
  let index := s.top.children
  let counted := s.mapTop .addChild
  if isComponentTag name then
    match s.pending with
    | some component =>
      if name = componentTag then
        let component := { component with index := .child index }
        .ok ({ counted with pending := none }.push { name := name, component := some component })
      else .error (.unsupported (.componentTag name))
    | none => .error (.unsupported (.componentTag name))
  else .ok (counted.push { name := name })

/-- Takes an attribute with a fixed value, or without one. -/
def takeAttribute (s : Skeleton) (name : String) (value : Option String) : Skeleton :=
  let text := value.getD ""
  match s.top.component with
  | some component =>
    let property :=
      { target := .attribute, sigil := .none,
        expression := .ofText text component.expression.offset, slot := component.slot,
        index := .attribute name }
    let component := { component with properties := component.properties ++ [property] }
    s.mapTop fun f => { f with component := some component }
  | none => s.mapTop fun f => { f with attributes := setAttribute name (.fixed text) f.attributes }

/-- Ends a start tag. A void element ends with it, and so does a self-closing one. -/
def endOpenTag (s : Skeleton) (selfClosing : Bool) : Except Cause Skeleton :=
  match s.top.component with
  | some component =>
    if selfClosing then .ok (s.closeComponent component) else .error (.unsupported .openComponent)
  | none =>
    let name := s.top.name
    let written := s.writeStartTag
    if isVoid name then .ok written.closeTop
    else if selfClosing then .ok (written.put s!"</{name}>").closeTop
    else .ok written

/-- Takes an end tag, which has to fit the innermost element. That of a void element is
dropped. -/
def closeTag (s : Skeleton) (name : String) : Except Cause Skeleton :=
  if !s.below.isEmpty && sameName s.top.name name then .ok (s.put s!"</{name}>").closeTop
  else if isVoid name then .ok s
  else .error (.markup (.closingTag name))

/-- Takes an event. -/
def handle (s : Skeleton) : Event → Except Cause Skeleton
  | .openTag name => s.openTag name
  | .attribute name value => .ok (s.takeAttribute name value)
  | .openTagEnd selfClosing => s.endOpenTag selfClosing
  | .text text => .ok (s.putNode text)
  | .closeTag name => s.closeTag name
  | .comment text => .ok (s.putNode s!"<!--{text}-->")
  | .finish => .ok s

/-- Takes events up to the first that fails. -/
def handleAll (s : Skeleton) : List Event → Except Cause Skeleton
  | [] => .ok s
  | e :: es =>
    match s.handle e with
    | .ok s' => s'.handleAll es
    | .error cause => .error cause

/-- Closes the innermost `n` elements with end tags of their own. -/
def closeAll (s : Skeleton) : Nat → Skeleton
  | 0 => s
  | n + 1 => (s.put s!"</{s.top.name}>").closeTop.closeAll n

/-- Numbers the groups of binders from `n` on. -/
def number (n : Nat) : List (List Binder) → List Binder
  | [] => []
  | group :: groups => group.map (fun b => { b with node := some n }) ++ number (n + 1) groups

/-- Ends the markup. Elements that are still open end here. -/
def finish (s : Skeleton) : Fragment :=
  let s := s.closeAll s.below.length
  { html := String.join s.html.toList, binders := number 0 (s.top.groups ++ s.top.ownGroup) }

end Skeleton

end TaggedMarkup.Template

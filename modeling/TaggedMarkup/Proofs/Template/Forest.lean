import Mathlib
import TaggedMarkup.Proofs.FirstUse
import TaggedMarkup.Proofs.Template.Items

/-!
# Forests of a template

A template is a forest: texts, comments, elements with their children, and the placeholders of its
holes. This module says what the markup and the binders of a forest are, without any of the
bookkeeping by which a skeleton finds them: `Forest.html` prints the nodes in order, and
`Forest.groups` lists the binders of each element that hosts some, in the order of the start tags.

`nest` makes the forest of a list of items.
-/

namespace TaggedMarkup.Template

open Markup (isVoid sameName)

/-! ## Nodes -/

/-- The binder of a hole. -/
def Hole.binder (h : Hole) (target : Target) (index : Index) : Binder :=
  { target := target, sigil := h.sigil, expression := h.expression, slot := h.slot, index := index }

/-- What stands in a tag behind its name: an attribute with a fixed value, or one with a hole. -/
inductive TagPart where
  | fixed (name : String) (value : Option String)
  | hole (name : String) (hole : Hole)
  deriving DecidableEq, Repr

namespace TagPart

/-- The name of the attribute. -/
def name : TagPart → String
  | .fixed name _ | .hole name _ => name

/-- The value of the attribute in the markup. -/
def value : TagPart → AttributeValue
  | .fixed _ text => .fixed (text.getD "")
  | .hole _ _ => .bound

/-- Whether the value is that of a hole. -/
def isHole : TagPart → Bool
  | .fixed _ _ => false
  | .hole _ _ => true

/-- The binder of an attribute with a hole. -/
def binder? : TagPart → Option Binder
  | .fixed _ _ => none
  | .hole name h => some (h.binder .attribute (.attribute name))

/-- The attribute as a property of a component. A fixed value is a literal in its slot. -/
def property (factory : Hole) : TagPart → Binder
  | .fixed name text =>
    { target := .attribute, sigil := .none,
      expression := .ofText (text.getD "") factory.expression.offset, slot := factory.slot,
      index := .attribute name }
  | .hole name h => h.binder .attribute (.attribute name)

/-- The item of an attribute. -/
def item : TagPart → Item
  | .fixed name value => .event (.attribute name value)
  | .hole name h => .hole (.attributeValue name) h

end TagPart

/-- The last value of an attribute. -/
def lastValue (parts : List TagPart) (name : String) : Option AttributeValue :=
  (parts.reverse.find? fun p => p.name = name).map TagPart.value

/-- The attributes of a tag: every name once, in the order of first appearance, with its last
value. -/
def attributeMap (parts : List TagPart) : List (String × AttributeValue) :=
  (parts.map TagPart.name).eraseDups.filterMap fun name =>
    (lastValue parts name).map fun value => (name, value)

/-- Setting an attribute in a table without repetitions changes one entry, or adds one. -/
lemma setAttribute_filterMap {names : List String} {values : String → Option AttributeValue}
    (known : ∀ name ∈ names, (values name).isSome) (nodup : names.Nodup) (name : String)
    (value : AttributeValue) :
    setAttribute name value (names.filterMap fun n => (values n).map fun v => (n, v)) =
      (if name ∈ names then names else names ++ [name]).filterMap fun n =>
        (if n = name then some value else values n).map fun v => (n, v) := by
  induction names with
  | nil => simp [setAttribute]
  | cons n names ih =>
    obtain ⟨old, hold⟩ := Option.isSome_iff_exists.1 (known n List.mem_cons_self)
    obtain ⟨new, nodup⟩ := List.nodup_cons.1 nodup
    have ih := ih (fun m hm => known m (List.mem_cons_of_mem n hm)) nodup
    simp only [List.filterMap_cons, hold, Option.map_some, setAttribute]
    by_cases same : n = name
    · subst same
      simp only [if_true, List.mem_cons_self, List.filterMap_cons, Option.map_some]
      congr 1
      apply List.filterMap_congr
      intro m hm
      rw [if_neg (by rintro rfl; exact new hm)]
    · have mem : name ∈ n :: names ↔ name ∈ names := by
        simp [List.mem_cons, Ne.symm same]
      simp only [if_neg same, ih, mem]
      split
      · simp only [List.filterMap_cons, if_neg same, hold, Option.map_some]
      · simp only [List.cons_append, List.filterMap_cons, if_neg same, hold, Option.map_some]

/-- The last value behind one more attribute. -/
lemma lastValue_append_singleton (parts : List TagPart) (p : TagPart) (name : String) :
    lastValue (parts ++ [p]) name =
      if name = p.name then some p.value else lastValue parts name := by
  simp only [lastValue, List.reverse_append, List.reverse_cons, List.reverse_nil, List.nil_append,
    List.cons_append, List.find?_cons]
  by_cases same : p.name = name
  · simp [same]
  · simp [same, Ne.symm same]

/-- Every name in a tag has a last value. -/
lemma isSome_lastValue {parts : List TagPart} {name : String}
    (h : name ∈ parts.map TagPart.name) : (lastValue parts name).isSome := by
  obtain ⟨p, hp, rfl⟩ := List.mem_map.1 h
  simp only [lastValue, Option.isSome_map, List.find?_isSome]
  exact ⟨p, List.mem_reverse.2 hp, by simp⟩

/-- One more attribute is set in the attributes of a tag. -/
lemma attributeMap_append_singleton (parts : List TagPart) (p : TagPart) :
    attributeMap (parts ++ [p]) = setAttribute p.name p.value (attributeMap parts) := by
  have known : ∀ name ∈ (parts.map TagPart.name).eraseDups, (lastValue parts name).isSome :=
    fun name h => isSome_lastValue (List.mem_eraseDups.1 h)
  rw [attributeMap, attributeMap, setAttribute_filterMap known (nodup_eraseDups _)]
  simp only [List.map_append, List.map_cons, List.map_nil, eraseDups_append_singleton,
    lastValue_append_singleton, List.mem_eraseDups]

/-- How an element ends that is not void: by an end tag of the same name, by the slash of its start
tag, or not before the end of the template. -/
inductive Ending (name : String) where
  | endTag (closing : String) (same : sameName name closing = true)
  | selfClosing
  | missing

/-- The name in the end tag that is written. -/
def Ending.name {name : String} : Ending name → String
  | .endTag closing _ => closing
  | .selfClosing | .missing => name

/-- The items of an end. -/
def Ending.items {name : String} : Ending name → List Item
  | .endTag closing _ => [.event (.closeTag closing)]
  | .selfClosing | .missing => []

/-- Whether an element ends with its start tag. -/
def Ending.isSelfClosing {name : String} : Ending name → Bool
  | .selfClosing => true
  | _ => false

/-- A node of a template. A void element has no children and no end tag. -/
inductive Node where
  | text (text : String)
  | comment (text : String)
  | hole (hole : Hole)
  | component (factory : Hole) (parts : List TagPart)
  | void (name : String) (isVoid : isVoid name = true) (parts : List TagPart) (selfClosing : Bool)
  | element (name : String) (notVoid : isVoid name = false) (parts : List TagPart)
      (children : List Node) (ending : Ending name)

/-- The nodes of a template, or the children of an element. -/
abbrev Forest := List Node

namespace Node

/-- Whether a node is the placeholder of a hole. -/
def isPlaceholder : Node → Bool
  | .hole _ | .component _ _ => true
  | _ => false

/-- The binder of a placeholder that is the child number `index`. -/
def binder? (index : Nat) : Node → Option Binder
  | .hole h => some (h.binder (if h.block then .block else .text) (.child index))
  | .component factory parts =>
    some { factory.binder .component (.child index) with
      properties := parts.map (TagPart.property factory) }
  | _ => none

end Node

/-- The binders of the placeholders among the children. -/
def Forest.binders (F : Forest) : List Binder := F.zipIdx.filterMap fun (n, i) => n.binder? i

/-- The binders that an element hosts: those of its attributes, and those of its children. -/
def ownBinders (parts : List TagPart) (children : Forest) : List Binder :=
  parts.filterMap TagPart.binder? ++ children.binders

/-- Whether an element hosts a binder: by a hole in its tag, or by a placeholder as a child. -/
def hosts (parts : List TagPart) (children : Forest) : Bool :=
  parts.any TagPart.isHole || children.any Node.isPlaceholder

/-- Binders as a group, which is left out when empty. -/
def groupOf (binders : List Binder) : List (List Binder) :=
  if binders.isEmpty then [] else [binders]

/-- The start tag of an element, with the mark if it hosts a binder. -/
def startTag (name : String) (parts : List TagPart) (isHost : Bool) : String :=
  "<" ++ name ++ String.join ((attributeMap parts).map attributeMarkup) ++
    (if isHost then bindMark else "") ++ ">"

mutual

/-- The markup of a node. -/
def Node.html : Node → String
  | .text text => text
  | .comment text => "<!--" ++ text ++ "-->"
  | .hole h => (if h.block then Target.block else Target.text).placeholder
  | .component _ _ => Target.component.placeholder
  | .void name _ parts _ => startTag name parts (hosts parts [])
  | .element name _ parts children ending =>
    startTag name parts (hosts parts children) ++ Forest.html children ++
      ("</" ++ ending.name ++ ">")

/-- The markup of nodes in order. -/
def Forest.html : Forest → String
  | [] => ""
  | n :: ns => n.html ++ Forest.html ns

end

mutual

/-- The groups of binders of an element and its descendants, in the order of their start tags. -/
def Node.groups : Node → List (List Binder)
  | .void _ _ parts _ => groupOf (ownBinders parts [])
  | .element _ _ parts children _ => groupOf (ownBinders parts children) ++ Forest.groups children
  | .text _ | .comment _ | .hole _ | .component _ _ => []

/-- The groups of binders of elements in order. -/
def Forest.groups : Forest → List (List Binder)
  | [] => []
  | n :: ns => n.groups ++ Forest.groups ns

end

/-- All groups of binders of a fragment. That of the fragment itself comes last. -/
def Forest.allGroups (F : Forest) : List (List Binder) := F.groups ++ groupOf F.binders

/-- The binders of groups, each with the number of its group. -/
def numbered (groups : List (List Binder)) : List Binder :=
  groups.zipIdx.flatMap fun (group, j) => group.map fun b => { b with node := some j }

/-- The items of a start tag. -/
def startItems (name : String) (parts : List TagPart) (selfClosing : Bool) : List Item :=
  .event (.openTag name) :: parts.map TagPart.item ++ [.event (.openTagEnd selfClosing)]

mutual

/-- The items of a node. -/
def Node.items : Node → List Item
  | .text text => [.event (.text text)]
  | .comment text => [.event (.comment text)]
  | .hole h => [.hole .text h]
  | .component factory parts =>
    .hole (.tagName componentTag) factory :: startItems componentTag parts true
  | .void name _ parts selfClosing => startItems name parts selfClosing
  | .element name _ parts children ending =>
    startItems name parts ending.isSelfClosing ++ Forest.items children ++ ending.items

/-- The items of nodes in order. -/
def Forest.items : Forest → List Item
  | [] => []
  | n :: ns => n.items ++ Forest.items ns

end

/-! ## Nodes one behind the other -/

namespace Forest

/-- The markup of two forests. -/
@[simp] lemma html_append (F G : Forest) : html (F ++ G) = html F ++ html G := by
  induction F with
  | nil => simp [html]
  | cons n F ih => simp [html, ih, String.append_assoc]

/-- The groups of two forests. -/
@[simp] lemma groups_append (F G : Forest) : groups (F ++ G) = groups F ++ groups G := by
  induction F with
  | nil => simp [groups]
  | cons n F ih => simp [groups, ih]

/-- The items of two forests. -/
@[simp] lemma items_append (F G : Forest) : items (F ++ G) = items F ++ items G := by
  induction F with
  | nil => simp [items]
  | cons n F ih => simp [items, ih]

/-- The markup of a single node. -/
@[simp] lemma html_singleton (n : Node) : html [n] = n.html := by
  simp [html]

/-- The groups of a single node. -/
@[simp] lemma groups_singleton (n : Node) : groups [n] = n.groups := by
  simp [groups]

/-- The items of a single node. -/
@[simp] lemma items_singleton (n : Node) : items [n] = n.items := by
  simp [items]

/-- An empty forest has no binders. -/
@[simp] lemma binders_nil : binders [] = [] := rfl

/-- The last node is bound at its number. -/
lemma binders_append_singleton (F : Forest) (n : Node) :
    binders (F ++ [n]) = binders F ++ (n.binder? F.length).toList := by
  simp only [binders, List.zipIdx_append, List.filterMap_append, List.zipIdx_cons,
    List.zipIdx_nil, List.filterMap_cons, List.filterMap_nil, Nat.zero_add]
  cases n.binder? F.length <;> rfl

end Forest

/-- A tag has a hole if one of its attributes has a binder. -/
lemma any_isHole (parts : List TagPart) :
    parts.any TagPart.isHole = !(parts.filterMap TagPart.binder?).isEmpty := by
  induction parts with
  | nil => rfl
  | cons p parts ih => cases p <;> simp [TagPart.isHole, TagPart.binder?, List.filterMap_cons, ih]

/-- There is a placeholder among nodes if one of them has a binder. -/
lemma any_isPlaceholder (F : Forest) :
    F.any Node.isPlaceholder = !F.binders.isEmpty := by
  induction F using List.reverseRecOn with
  | nil => rfl
  | append_singleton F n ih =>
    rw [List.any_append, ih, Forest.binders_append_singleton]
    cases n <;> simp [Node.isPlaceholder, Node.binder?]

/-- An element hosts a binder if it has binders of its own. -/
lemma hosts_eq (parts : List TagPart) (children : Forest) :
    hosts parts children = !(ownBinders parts children).isEmpty := by
  rw [hosts, any_isHole, any_isPlaceholder, ownBinders]
  cases parts.filterMap TagPart.binder? <;> simp

/-! ## Nesting -/

/-- How a start tag begins: with the name of an element, or with the hole of a component. -/
inductive Head where
  | element (name : String)
  | component (factory : Hole)
  deriving DecidableEq, Repr

/-- A start tag that is being read. -/
structure Tag where
  head : Head
  parts : List TagPart := []
  deriving DecidableEq, Repr

/-- Where the reading of a forest stands: among child nodes, between the hole of a component and its
tag, or in a start tag. -/
inductive Position where
  | content
  | naming (factory : Hole)
  | inTag (tag : Tag)
  deriving DecidableEq, Repr

/-- An element that is open, with the siblings in front of it. -/
structure OpenElement where
  name : String
  notVoid : isVoid name = false
  parts : List TagPart
  before : Forest

/-- An open element with its children, behind its siblings. -/
def OpenElement.close (o : OpenElement) (children : Forest) (ending : Ending o.name) : Forest :=
  o.before ++ [.element o.name o.notVoid o.parts children ending]

/-- What has been read of a forest: the children of the innermost open element, and the open
elements from inside to outside. -/
structure Reading where
  nodes : Forest := []
  around : List OpenElement := []
  position : Position := .content

namespace Reading

/-- Adds a node. -/
def add (r : Reading) (n : Node) : Reading :=
  { r with nodes := r.nodes ++ [n], position := .content }

/-- Ends a start tag. A void element ends with it, and so does one with a slash. The tag of a
component is its placeholder. -/
def endTag (r : Reading) (t : Tag) (selfClosing : Bool) : Option Reading :=
  match t.head with
  | .component factory => if selfClosing then some (r.add (.component factory t.parts)) else none
  | .element name =>
    if h : isVoid name = true then some (r.add (.void name h t.parts selfClosing))
    else
      have notVoid := Bool.eq_false_iff.2 h
      if selfClosing then some (r.add (.element name notVoid t.parts [] .selfClosing))
      else some { nodes := [], around := ⟨name, notVoid, t.parts, r.nodes⟩ :: r.around }

/-- Takes an end tag, which belongs to the innermost open element. That of a void element belongs to
none. -/
def closeTag (r : Reading) (name : String) : Option Reading :=
  match r.around with
  | [] => if isVoid name then some r else none
  | o :: around =>
    if same : sameName o.name name = true then
      some { r with nodes := o.close r.nodes (.endTag name same), around := around }
    else if isVoid name then some r
    else none

/-- Takes an item. -/
def take (r : Reading) (i : Item) : Option Reading :=
  match r.position, i with
  | .content, .event (.text text) => some (r.add (.text text))
  | .content, .event (.comment text) => some (r.add (.comment text))
  | .content, .event (.closeTag name) => r.closeTag name
  | .content, .event .finish => some r
  | .content, .hole .text h => some (r.add (.hole h))
  | .content, .hole (.tagName name) h | .naming _, .hole (.tagName name) h =>
    if name = componentTag then some { r with position := .naming h } else none
  | .content, .event (.openTag name) => some { r with position := .inTag ⟨.element name, []⟩ }
  | .naming h, .event (.openTag name) =>
    if name = componentTag then some { r with position := .inTag ⟨.component h, []⟩ } else none
  | .inTag t, .event (.attribute name value) =>
    some { r with position := .inTag { t with parts := t.parts ++ [.fixed name value] } }
  | .inTag t, .hole (.attributeValue name) h =>
    some { r with position := .inTag { t with parts := t.parts ++ [.hole name h] } }
  | .inTag t, .event (.openTagEnd selfClosing) => r.endTag t selfClosing
  | _, _ => none

/-- Closes the elements that are still open. -/
def closeAll (nodes : Forest) : List OpenElement → Forest
  | [] => nodes
  | o :: around => closeAll (o.close nodes .missing) around

/-- The forest that has been read, unless a tag is open. -/
def finish (r : Reading) : Option Forest :=
  match r.position with
  | .content => some (closeAll r.nodes r.around)
  | _ => none

end Reading

/-- The forest of items. -/
def nest (is : List Item) : Option Forest := (is.foldlM Reading.take {}).bind Reading.finish

/-! ## The items of a forest -/

/-- Whether the first item is the hole of a component. -/
def startsWithFactory : List Item → Bool
  | .hole (.tagName _) _ :: _ => true
  | _ => false

/-- The items that have a part in the forest. The end tag of a void element has none, nor has the
hole of a component if another one follows before the tag begins. -/
def kept : List Item → List Item
  | [] => []
  | .event .finish :: is => kept is
  | .event (.closeTag name) :: is =>
    if isVoid name then kept is else .event (.closeTag name) :: kept is
  | .hole (.tagName name) h :: is =>
    if startsWithFactory is then kept is else .hole (.tagName name) h :: kept is
  | i :: is => i :: kept is

/-- The kelvin sign is no lower-case form of another letter. -/
lemma toLower_ne_kelvin {c : Char} (h : c ≠ '\u212a') : c.toLower ≠ '\u212a' := by
  unfold Char.toLower
  split
  · rename_i upper
    intro eq
    have val := congrArg (fun c => c.val.toNat) eq
    simp only [UInt32.le_iff_toNat_le, ge_iff_le] at upper
    simp at upper val
    omega
  · exact h

/-- The case of letters makes no difference to being void. -/
lemma isVoid_congr {name closing : String} (same : sameName name closing = true) :
    isVoid closing = isVoid name := by
  have lower (c : Char) : Markup.lowerLetter c.toLower = Markup.lowerLetter c := by
    by_cases kelvin : c = '\u212a'
    · subst kelvin
      decide
    · simp [Markup.lowerLetter, kelvin, toLower_ne_kelvin kelvin]
  have lowered (s : String) :
      s.toList.map Markup.lowerLetter = (s.toList.map Char.toLower).map Markup.lowerLetter := by
    rw [List.map_map]
    exact List.map_congr_left fun c _ => (lower c).symm
  rw [isVoid, isVoid, lowered closing, lowered name, eq_of_beq same]

/-- The items of the start tag of an open element and of what stands in front of it. -/
def OpenElement.items (o : OpenElement) : List Item :=
  o.before.items ++ startItems o.name o.parts false

/-- The items of open elements, given from inside to outside. -/
def itemsAround : List OpenElement → List Item
  | [] => []
  | o :: around => itemsAround around ++ o.items

/-- The items of a start tag so far. -/
def Position.items : Position → List Item
  | .content | .naming _ => []
  | .inTag ⟨.element name, parts⟩ => .event (.openTag name) :: parts.map TagPart.item
  | .inTag ⟨.component h, parts⟩ =>
    .hole (.tagName componentTag) h :: .event (.openTag componentTag) :: parts.map TagPart.item

/-- The hole of a component that may still be replaced. -/
def Position.waiting : Position → List Item
  | .naming h => [.hole (.tagName componentTag) h]
  | .content | .inTag _ => []

/-- The items that have been read, without a hole that may still be replaced. -/
def Reading.items (r : Reading) : List Item :=
  itemsAround r.around ++ r.nodes.items ++ r.position.items

namespace Reading

/-- Closing an element adds the items of its end. -/
lemma items_close (o : OpenElement) (children : Forest) (ending : Ending o.name)
    (spelled : ending.isSelfClosing = false) :
    (o.close children ending).items = o.items ++ children.items ++ ending.items := by
  simp only [OpenElement.close, Forest.items_append, Forest.items_singleton, Node.items, spelled,
    OpenElement.items, List.append_assoc]

/-- Elements that are closed only at the end have no further items. -/
lemma items_closeAll (nodes : Forest) (around : List OpenElement) :
    (closeAll nodes around).items = itemsAround around ++ nodes.items := by
  induction around generalizing nodes with
  | nil => rfl
  | cons o around ih =>
    rw [closeAll, ih, items_close o nodes .missing rfl, itemsAround]
    simp only [Ending.items, List.append_nil, List.append_assoc]

/-- The end of a start tag belongs to the element that it begins. -/
lemma endTag_items {r r' : Reading} {t : Tag} {selfClosing : Bool}
    (position : r.position = .inTag t) (ok : r.endTag t selfClosing = some r') :
    r'.items = r.items ++ [.event (.openTagEnd selfClosing)] ∧ r'.position = .content := by
  obtain ⟨head, parts⟩ := t
  unfold endTag at ok
  cases head with
  | component factory =>
    simp only at ok
    split at ok
    · rename_i closing
      cases ok
      subst closing
      simp [items, add, position, Position.items, Node.items, startItems]
    · cases ok
  | element name =>
    simp only at ok
    split at ok
    · cases ok
      simp [items, add, position, Position.items, Node.items, startItems]
    · split at ok
      · rename_i closing
        cases ok
        subst closing
        simp [items, add, position, Position.items, Node.items, startItems, Ending.isSelfClosing,
          Ending.items, Forest.items]
      · rename_i notClosing
        cases ok
        simp [items, position, Position.items, startItems, itemsAround, OpenElement.items,
          Forest.items, notClosing]

/-- An end tag belongs to the element that it closes, that of a void element to none. -/
lemma closeTag_items {r r' : Reading} {name : String} (position : r.position = .content)
    (ok : r.closeTag name = some r') :
    r'.items = r.items ++ (if isVoid name then [] else [.event (.closeTag name)]) ∧
      r'.position = .content := by
  unfold closeTag at ok
  split at ok
  · split at ok
    · rename_i void
      cases ok
      simp [void, position]
    · cases ok
  · rename_i o around open'
    split at ok
    · rename_i same
      cases ok
      have notVoid : isVoid name = false := by rw [isVoid_congr same, o.notVoid]
      refine ⟨?_, position⟩
      simp only [items, open', position, Position.items, items_close _ _ (.endTag name same) rfl,
        itemsAround, Ending.items, notVoid]
      simp
    · split at ok
      · rename_i void
        cases ok
        simp [void, position]
      · cases ok

/-- Every item is added to those read before, unless it has no part in the forest. -/
lemma take_items {r r' : Reading} {i : Item} (ok : r.take i = some r') (is : List Item) :
    r'.items ++ kept (r'.position.waiting ++ is) =
      r.items ++ kept (r.position.waiting ++ i :: is) := by
  unfold take at ok
  split at ok
  case h_1 position | h_2 position | h_5 position =>
    cases ok
    simp [items, add, position, Position.items, Position.waiting, Node.items, kept]
  case h_3 name position =>
    obtain ⟨added, position'⟩ := closeTag_items position ok
    rw [added, position', position]
    by_cases void : isVoid name <;> simp [Position.waiting, kept, void]
  case h_4 position =>
    cases ok
    simp [position, Position.waiting, kept]
  case h_6 position | h_7 position =>
    split at ok
    · rename_i component
      cases ok
      simp [items, position, Position.items, Position.waiting, kept, startsWithFactory, component]
    · cases ok
  case h_8 position =>
    cases ok
    simp [items, position, Position.items, Position.waiting, kept]
  case h_9 position =>
    split at ok
    · rename_i component
      cases ok
      simp [items, position, Position.items, Position.waiting, kept, startsWithFactory, component]
    · cases ok
  case h_10 t name value position | h_11 t name h position =>
    cases ok
    obtain ⟨head, parts⟩ := t
    cases head <;> simp [items, position, Position.items, Position.waiting, kept, TagPart.item]
  case h_12 position =>
    obtain ⟨added, position'⟩ := endTag_items position ok
    rw [added, position', position]
    simp [Position.waiting, kept]
  case h_13 => cases ok

end Reading

/-- The items of a forest are those from which it was made, less those without a part in it. -/
lemma items_nest {is : List Item} {F : Forest} (ok : nest is = some F) : F.items = kept is := by
  have run (r : Reading) (ok : (is.foldlM Reading.take r).bind Reading.finish = some F) :
      F.items = r.items ++ kept (r.position.waiting ++ is) := by
    clear * - ok
    induction is generalizing r with
    | nil =>
      simp only [List.foldlM_nil, Option.pure_def, Option.bind_some, Reading.finish] at ok
      split at ok
      · rename_i position
        cases ok
        simp [Reading.items_closeAll, Reading.items, position, Position.items, Position.waiting,
          kept]
      · cases ok
    | cons i is ih =>
      rw [List.foldlM_cons] at ok
      cases taken : r.take i with
      | none =>
        rw [taken] at ok
        cases ok
      | some r' =>
        rw [taken] at ok
        rw [ih r' ok, Reading.take_items taken]
  exact run {} ok

end TaggedMarkup.Template

import Mathlib
import TaggedMarkup.Proofs.Markup.Printed
import TaggedMarkup.Proofs.Template.Joined

/-!
# Forests in print

The markup of a forest is made of pieces (`Forest.html_eq`), and a forest that is read from it is
the forest as it shows (`Forest.shown`): with placeholders for its holes, with the attributes that
are printed, and with an end tag for every element that is not void.
-/

namespace TaggedMarkup.Template

open Markup (Event IsCommentText IsEndName IsName IsTagName Piece isVoid sameName)

/-! ## Pieces and nodes -/

/-- The printed value of an attribute. -/
def AttributeValue.shown : AttributeValue → String
  | .fixed text => escapeValue text
  | .bound => ""

/-- The printed attributes of a tag. -/
def shownAttributes (parts : List TagPart) : List (String × String) :=
  (attributeMap parts).map fun (name, value) => (name, value.shown)

/-- The mark of an element that hosts a binder, as an attribute. -/
def markPart : TagPart := .fixed "data-bind" none

/-- The attributes of a tag as they show. -/
def shownParts (parts : List TagPart) (isHost : Bool) : List TagPart :=
  (shownAttributes parts).map (fun (name, value) => .fixed name (some value)) ++
    if isHost then [markPart] else []

/-- A name is the same as itself. -/
lemma sameName_self (name : String) : sameName name name = true := by
  simp [sameName]

/-- The name of an end fits the name of its element. -/
lemma Ending.sameName_name {name : String} (ending : Ending name) :
    sameName name ending.name = true := by
  cases ending with
  | endTag closing same => exact same
  | _ => exact sameName_self name

/-- The placeholder of a text. -/
def textNode : Node :=
  .element "text-node" (by decide) [] [] (.endTag "text-node" (sameName_self _))

mutual

/-- A node as it shows in the markup. -/
def Node.shown : Node → Node
  | .text text => .text text
  | .comment text => .comment text
  | .hole h => if h.block then .comment " block " else textNode
  | .component _ _ => .comment " component "
  | .void name isVoid parts _ => .void name isVoid (shownParts parts (hosts parts [])) false
  | .element name notVoid parts children ending =>
    .element name notVoid (shownParts parts (hosts parts children)) (Forest.shown children)
      (.endTag ending.name ending.sameName_name)

/-- Nodes as they show in the markup. -/
def Forest.shown : Forest → Forest
  | [] => []
  | n :: F => n.shown :: Forest.shown F

end

mutual

/-- The pieces of the markup of a node. -/
def Node.pieces : Node → List Piece
  | .text text => [.text text]
  | .comment text => [.comment text]
  | .hole h =>
    if h.block then [.comment " block "] else [.startTag "text-node" [] false, .endTag "text-node"]
  | .component _ _ => [.comment " component "]
  | .void name _ parts _ => [.startTag name (shownAttributes parts) (hosts parts [])]
  | .element name _ parts children ending =>
    .startTag name (shownAttributes parts) (hosts parts children) ::
      (Forest.pieces children ++ [.endTag ending.name])

/-- The pieces of the markup of nodes. -/
def Forest.pieces : Forest → List Piece
  | [] => []
  | n :: F => n.pieces ++ Forest.pieces F

end

/-! ## The markup is made of the pieces -/

/-- An escaped value has no quotes. -/
lemma quote_notMem_escapeValue (text : String) : '\x22' ∉ (escapeValue text).toList := by
  rw [escapeValue, String.toList_ofList, List.mem_flatMap]
  rintro ⟨c, -, mem⟩
  split at mem
  · revert mem
    decide
  · rename_i other
    exact other (List.mem_singleton.1 mem).symm

/-- A value has no quotes as it is shown. -/
lemma quote_notMem_shown (value : AttributeValue) : '\x22' ∉ value.shown.toList := by
  cases value with
  | fixed text => exact quote_notMem_escapeValue text
  | bound => exact List.not_mem_nil

/-- A printed value has nothing to escape any more. -/
lemma attributeMarkup_shown (name : String) (value : AttributeValue) :
    attributeMarkup (name, .fixed value.shown) = attributeMarkup (name, value) := by
  have same := Markup.escapeValue_eq_self (quote_notMem_shown value)
  rw [attributeMarkup, same]
  cases value with
  | fixed text => rfl
  | bound =>
    show " " ++ name ++ "=\"" ++ "" ++ "\"" = " " ++ name ++ "=\"\""
    rw [String.append_empty, String.append_assoc]
    rfl

/-- A start tag is shown as it is printed. -/
lemma print_startTag (name : String) (parts : List TagPart) (isHost : Bool) :
    Piece.print (.startTag name (shownAttributes parts) isHost) = startTag name parts isHost := by
  have attributes : ((shownAttributes parts).map fun (name, value) =>
      (name, AttributeValue.fixed value)).map attributeMarkup =
        (attributeMap parts).map attributeMarkup := by
    rw [shownAttributes, List.map_map, List.map_map]
    exact List.map_congr_left fun (name, value) _ => attributeMarkup_shown name value
  rw [startTag, ← attributes]
  rfl

/-- The markup of nodes is that of their pieces. -/
lemma Forest.html_eq (F : Forest) : F.html = String.join (F.pieces.map Piece.print) := by
  induction F using Forest.induction with
  | nil => rfl
  | cons n F children others =>
    have node : n.html = String.join (n.pieces.map Piece.print) := by
      cases n with
      | text s => simp [Node.html, Node.pieces, Piece.print]
      | comment s =>
        have printed : Piece.print (.comment s) = "<!--" ++ s ++ "-->" := rfl
        simp [Node.html, Node.pieces, printed]
      | hole h =>
        rw [Node.html, Node.pieces]
        split <;> rfl
      | component factory parts => rfl
      | void name isVoid parts selfClosing =>
        simp [Node.html, Node.pieces, print_startTag]
      | element name notVoid parts C ending =>
        have inside : Forest.html C = String.join ((Forest.pieces C).map Piece.print) := children
        have ended : Piece.print (.endTag ending.name) = "</" ++ ending.name ++ ">" := rfl
        simp [Node.html, Node.pieces, inside, print_startTag, ended, String.append_assoc]
    rw [Forest.html, Forest.pieces, List.map_append, String.join_append, node, others]

/-- The items of a tag are the events of its piece. -/
lemma startItems_shownParts (name : String) (parts : List TagPart) (isHost : Bool) :
    startItems name (shownParts parts isHost) false =
      (Piece.events (.startTag name (shownAttributes parts) isHost)).map .event := by
  have attributes : (shownParts parts isHost).map TagPart.item =
      ((shownAttributes parts).map (fun (name, value) => Event.attribute name (some value)) ++
        if isHost then [Event.attribute "data-bind" none] else []).map Item.event := by
    rw [shownParts, List.map_append, List.map_append, List.map_map, List.map_map]
    cases isHost <;> rfl
  rw [startItems, attributes, Piece.events]
  simp only [List.map_append, List.map_cons, List.cons_append, List.map_nil]

/-- The items of what shows are the events of the pieces. -/
lemma Forest.items_shown (F : Forest) :
    F.shown.items = (F.pieces.flatMap Piece.events).map .event := by
  induction F using Forest.induction with
  | nil => rfl
  | cons n F children others =>
    have node : n.shown.items = (n.pieces.flatMap Piece.events).map .event := by
      cases n with
      | hole h =>
        rw [Node.shown, Node.pieces]
        split <;> rfl
      | void name isVoid parts selfClosing =>
        simp [Node.shown, Node.items, Node.pieces, startItems_shownParts]
      | element name notVoid parts C ending =>
        have inside : (Forest.shown C).items =
            ((Forest.pieces C).flatMap Piece.events).map .event := children
        have ended : Piece.events (.endTag ending.name) = [.closeTag ending.name] := rfl
        simp [Node.shown, Node.items, Node.pieces, inside, startItems_shownParts, ended,
          Ending.isSelfClosing, Ending.items]
      | _ => rfl
    rw [Forest.shown, Forest.items, Forest.pieces, List.flatMap_append, List.map_append, node,
      others]

/-! ## The pieces are legible -/

/-- The printed attributes have the names that stand in the tag. -/
lemma mem_map_fst_shownAttributes {parts : List TagPart} {name : String} :
    name ∈ (shownAttributes parts).map Prod.fst ↔ name ∈ parts.map TagPart.name := by
  rw [shownAttributes, List.map_map, attributeMap]
  constructor
  · intro mem
    obtain ⟨⟨name', value⟩, inMap, rfl⟩ := List.mem_map.1 mem
    obtain ⟨other, known, eq⟩ := List.mem_filterMap.1 inMap
    obtain ⟨value', -, same⟩ := Option.map_eq_some_iff.1 eq
    cases same
    exact List.mem_eraseDups.1 known
  · intro mem
    obtain ⟨value, eq⟩ := Option.isSome_iff_exists.1 (isSome_lastValue mem)
    refine List.mem_map.2 ⟨(name, value), List.mem_filterMap.2 ⟨name, ?_, by rw [eq]; rfl⟩, rfl⟩
    exact List.mem_eraseDups.2 mem

/-- The attributes of a start tag are shown without quotes in their values. -/
lemma unquoted_shownAttributes {parts : List TagPart} :
    ∀ a ∈ shownAttributes parts, '\x22' ∉ a.2.toList := by
  intro a mem
  obtain ⟨⟨name, value⟩, -, rfl⟩ := List.mem_map.1 mem
  exact quote_notMem_shown value

/-- An attribute has a legible name, or none. -/
lemma TagPart.name_legible {p : TagPart} (legible : p.item.Legible) :
    p.name = "" ∨ IsName p.name := by
  cases p with
  | fixed name value => exact .inr legible
  | hole name h => exact legible

/-- Pieces that are legible just if `named` holds, and else but for attributes without a name. -/
structure LegibleIf (ps : List Piece) (named : Bool) : Prop where
  butNames : ∀ p ∈ ps, p.LegibleButNames
  legible_iff : (∀ p ∈ ps, p.Legible) ↔ named = true

namespace LegibleIf

/-- Pieces that are legible are so without any condition. -/
lemma of_legible {ps : List Piece} (all : ∀ p ∈ ps, p.Legible) : LegibleIf ps true :=
  ⟨fun p mem => (all p mem).butNames, iff_of_true all rfl⟩

/-- Pieces in a row are legible if both parts are. -/
lemma append {ps qs : List Piece} {a b : Bool} (front : LegibleIf ps a) (behind : LegibleIf qs b) :
    LegibleIf (ps ++ qs) (a && b) where
  butNames := List.forall_mem_append.2 ⟨front.butNames, behind.butNames⟩
  legible_iff := by
    rw [List.forall_mem_append, front.legible_iff, behind.legible_iff, Bool.and_eq_true]

end LegibleIf

/-- A start tag is legible if all its attributes have names. -/
lemma legible_startTag {name : String} {parts : List TagPart} {selfClosing : Bool}
    (legible : ∀ i ∈ startItems name parts selfClosing, i.Legible) (isHost : Bool) :
    LegibleIf [.startTag name (shownAttributes parts) isHost]
      (parts.all fun p => p.name != "") := by
  have isTagName : IsTagName name := legible (.event (.openTag name)) List.mem_cons_self
  have names : ∀ p ∈ parts, p.name = "" ∨ IsName p.name := by
    intro p mem
    refine TagPart.name_legible (legible p.item ?_)
    simp [startItems, List.mem_map_of_mem mem]
  have shownNames : ∀ a ∈ shownAttributes parts, ∃ p ∈ parts, p.name = a.1 := by
    intro a mem
    exact List.mem_map.1 (mem_map_fst_shownAttributes.1 (List.mem_map_of_mem mem))
  refine ⟨List.forall_mem_singleton.2 ⟨isTagName, ?_⟩, ?_⟩
  · intro a mem
    obtain ⟨p, inTag, same⟩ := shownNames a mem
    exact ⟨same ▸ names p inTag, unquoted_shownAttributes a mem⟩
  rw [List.forall_mem_singleton, List.all_eq_true]
  constructor
  · rintro ⟨-, named⟩ p mem
    obtain ⟨a, shown, same⟩ := List.mem_map.1
      (mem_map_fst_shownAttributes.2 (List.mem_map_of_mem mem))
    rw [← same]
    exact bne_iff_ne.2 (named a shown).1.1
  · intro named
    refine ⟨isTagName, fun a mem => ⟨?_, unquoted_shownAttributes a mem⟩⟩
    obtain ⟨p, inTag, same⟩ := shownNames a mem
    rw [← same]
    exact (names p inTag).resolve_left (bne_iff_ne.1 (named p inTag))

/-- The written end tag of an element is legible. -/
lemma Ending.isEndName {name : String} {ending : Ending name} (isTagName : IsTagName name)
    (legible : ∀ i ∈ ending.items, i.Legible) : IsEndName ending.name := by
  cases ending with
  | endTag closing same => exact legible (.event (.closeTag closing)) List.mem_cons_self
  | _ => exact isTagName.isEndName

/-- The pieces of a text placeholder are legible. -/
lemma legible_textNode : ∀ p ∈ textNode.pieces, p.Legible := by
  have isTagName : IsTagName "text-node" := by
    simp [IsTagName, Markup.isLetter, Markup.endsName, Markup.isBlank, Markup.isQuote]
  refine List.forall_mem_cons.2 ⟨⟨isTagName, fun _ mem => absurd mem List.not_mem_nil⟩, ?_⟩
  exact List.forall_mem_singleton.2 isTagName.isEndName

/-- The pieces of a node are legible if those of its children are. -/
lemma Node.legible_pieces {n : Node} (legible : ∀ i ∈ n.items, i.Legible)
    (children : (∀ i ∈ n.children.items, i.Legible) →
      LegibleIf n.children.pieces n.children.isNamed) :
    LegibleIf n.pieces (n.isNamed && n.children.isNamed) := by
  cases n with
  | text s => exact .of_legible (List.forall_mem_singleton.2 (legible _ List.mem_cons_self))
  | comment s => exact .of_legible (List.forall_mem_singleton.2 (legible _ List.mem_cons_self))
  | hole h =>
    refine .of_legible ?_
    rw [Node.pieces]
    split
    · refine List.forall_mem_singleton.2 ?_
      simp only [Piece.Legible, IsCommentText]
      decide
    · exact legible_textNode
  | component factory parts =>
    refine .of_legible (List.forall_mem_singleton.2 ?_)
    simp only [Piece.Legible, IsCommentText]
    decide
  | void name isVoid parts selfClosing =>
    rw [Node.pieces, Node.isNamed]
    exact (legible_startTag legible (hosts parts [])).append (.of_legible (by simp))
  | element name notVoid parts C ending =>
    rw [Node.items, List.forall_mem_append, List.forall_mem_append] at legible
    obtain ⟨⟨start, inside⟩, last⟩ := legible
    have isTagName : IsTagName name := start (.event (.openTag name)) List.mem_cons_self
    have ended : LegibleIf [.endTag ending.name] true :=
      .of_legible (List.forall_mem_singleton.2 (Ending.isEndName isTagName last))
    have whole := (legible_startTag start (hosts parts C)).append ((children inside).append ended)
    rw [Bool.and_true] at whole
    exact whole

/-- The pieces of a legible forest are legible if all its attributes have names. -/
lemma Forest.legible_pieces {F : Forest} (legible : ∀ i ∈ F.items, i.Legible) :
    LegibleIf F.pieces F.isNamed := by
  induction F using Forest.induction with
  | nil => exact .of_legible fun _ mem => absurd mem List.not_mem_nil
  | cons n F children others =>
    rw [Forest.items, List.forall_mem_append] at legible
    rw [Forest.pieces, Forest.isNamed_cons]
    exact (Node.legible_pieces legible.1 children).append (others legible.2)

/-! ## Texts stay apart -/

/-- A node is shown as a text if it is one. -/
lemma Node.isText_shown (n : Node) : n.shown.isText = n.isText := by
  cases n with
  | hole h =>
    rw [Node.shown]
    split <;> rfl
  | _ => rfl

/-- The children of a node are shown as its children. -/
lemma Node.children_shown (n : Node) : n.shown.children = Forest.shown n.children := by
  cases n with
  | hole h =>
    rw [Node.shown]
    split <;> rfl
  | _ => rfl

/-- The first and the last piece of a node are text only if the node is. -/
lemma Node.ends_pieces (n : Node) :
    (∃ p, n.pieces.head? = some p ∧ p.isText = n.isText) ∧
      ∃ p, n.pieces.getLast? = some p ∧ p.isText = n.isText := by
  cases n with
  | hole h =>
    rw [Node.pieces]
    split <;> exact ⟨⟨_, rfl, rfl⟩, _, rfl, rfl⟩
  | element name notVoid parts C ending =>
    refine ⟨⟨_, rfl, rfl⟩, .endTag ending.name, ?_, rfl⟩
    rw [Node.pieces, ← List.cons_append, List.getLast?_concat]
  | _ => exact ⟨⟨_, rfl, rfl⟩, _, rfl, rfl⟩

namespace Forest

/-- A forest starts with a text if its pieces do. -/
lemma isText_head?_pieces {F : Forest} {p : Piece} (first : p ∈ F.pieces.head?) :
    F.head?.any Node.isText = p.isText := by
  cases F with
  | nil => cases first
  | cons n F =>
    obtain ⟨⟨q, head, kind⟩, -⟩ := n.ends_pieces
    rw [pieces, List.head?_append, head] at first
    cases first
    exact kind.symm

/-- Texts that do not meet are apart in the markup as well. -/
lemma textsApart_pieces {F : Forest} (apart : F.textsApart = true) :
    Piece.TextsApart F.pieces := by
  induction F using Forest.induction with
  | nil => exact .nil
  | cons n F children others =>
    obtain ⟨notBoth, inside, behind⟩ := textsApart_cons.1 apart
    rw [pieces, Piece.TextsApart, List.isChain_append]
    refine ⟨?_, others behind, ?_⟩
    · cases n with
      | hole h =>
        rw [Node.pieces]
        split
        · exact .singleton _
        · simp [Piece.isText]
      | element name notVoid parts C ending =>
        rw [Node.pieces, List.isChain_cons, List.isChain_append]
        exact ⟨by simp [Piece.isText], children inside, .singleton _, by simp [Piece.isText]⟩
      | _ => exact .singleton _
    · intro p last q first both
      obtain ⟨-, p', last', kind⟩ := n.ends_pieces
      cases last'.symm.trans last
      rw [isText_head?_pieces first, ← kind, both.1, both.2] at notBoth
      cases notBoth

/-- Nothing is joined where no texts meet. -/
lemma joined_eq_self {F : Forest} (apart : F.textsApart = true) : joined F = F := by
  induction F using Forest.induction with
  | nil => rfl
  | cons n F children others =>
    obtain ⟨notBoth, inside, behind⟩ := textsApart_cons.1 apart
    have node : n.joined = n := by
      cases n with
      | element name notVoid parts C ending =>
        rw [Node.joined, show joined C = C from children inside]
      | _ => rfl
    rw [joined_cons, node, others behind]
    obtain ⟨eq, -⟩ | ⟨s, t, G, rfl, rfl, -⟩ := joinText_cases n F
    · exact eq
    · cases notBoth

/-- Texts are apart where they are shown if they are apart. -/
lemma textsApart_shown (F : Forest) : (shown F).textsApart = F.textsApart := by
  induction F using Forest.induction with
  | nil => rfl
  | cons n F children others =>
    have next : (shown F).head?.any Node.isText = F.head?.any Node.isText := by
      cases F with
      | nil => rfl
      | cons m F => exact m.isText_shown
    rw [shown, textsApart_cons_eq, n.isText_shown, next, n.children_shown, children, others,
      textsApart_cons_eq]

end Forest

/-! ## Marked elements -/

mutual

/-- The children of the marked elements of a node, in the order of their start tags. -/
def Node.marked : Node → List Forest
  | .void _ _ parts _ => if markPart ∈ parts then [[]] else []
  | .element _ _ parts children _ =>
    (if markPart ∈ parts then [children] else []) ++ Forest.marked children
  | .text _ | .comment _ | .hole _ | .component _ _ => []

/-- The children of the marked elements among nodes. -/
def Forest.marked : Forest → List Forest
  | [] => []
  | n :: F => n.marked ++ Forest.marked F

end

/-- The marker is shown at the start tags of hosts. -/
lemma markPart_mem_shownParts {parts : List TagPart} {isHost : Bool} :
    markPart ∈ shownParts parts isHost ↔ isHost = true := by
  cases isHost <;> simp [shownParts, markPart]

/-- The marked elements of what shows are those that host binders. -/
lemma Forest.marked_shown (F : Forest) :
    F.shown.marked = F.hostElements.map fun (_, children) => Forest.shown children := by
  induction F using Forest.induction with
  | nil => rfl
  | cons n F children others =>
    have node : n.shown.marked = n.hostElements.map fun (_, C) => Forest.shown C := by
      cases n with
      | hole h =>
        rw [Node.shown]
        split <;> rfl
      | void name isVoid parts selfClosing =>
        simp only [Node.shown, Node.marked, Node.hostElements, markPart_mem_shownParts]
        split <;> rfl
      | element name notVoid parts C ending =>
        have inside : (Forest.shown C).marked =
            (Forest.hostElements C).map fun (_, D) => Forest.shown D := children
        simp only [Node.shown, Node.marked, Node.hostElements, markPart_mem_shownParts, inside,
          List.map_append]
        split <;> rfl
      | _ => rfl
    rw [Forest.shown, Forest.marked, Forest.hostElements, List.map_append, node, others]

/-! ## Reading what shows -/

namespace Reading

/-- A reading takes some items and ends in another. -/
def Takes (r : Reading) (is : List Item) (r' : Reading) : Prop := is.foldlM take r = some r'

namespace Takes

variable {r r' r'' : Reading} {i : Item} {is js : List Item}

/-- No items are taken by doing nothing. -/
lemma nil : r.Takes [] r := rfl

/-- The first of the items is taken, then the others. -/
lemma cons (h : r.take i = some r') (h' : r'.Takes is r'') : r.Takes (i :: is) r'' := by
  unfold Takes at h' ⊢
  rw [List.foldlM_cons, h]
  exact h'

/-- A single item is taken. -/
lemma single (h : r.take i = some r') : r.Takes [i] r' := cons h nil

/-- Items are taken one part after the other. -/
lemma append (h : r.Takes is r') (h' : r'.Takes js r'') : r.Takes (is ++ js) r'' := by
  unfold Takes at h h' ⊢
  rw [List.foldlM_append, h]
  exact h'

end Takes

variable {nodes : Forest} {around : List OpenElement}

/-- The attributes of a tag. -/
lemma takes_parts {head : Head} (parts before : List TagPart) :
    Takes ⟨nodes, around, .inTag ⟨head, before⟩⟩ (parts.map TagPart.item)
      ⟨nodes, around, .inTag ⟨head, before ++ parts⟩⟩ := by
  induction parts generalizing before with
  | nil => simpa using Takes.nil
  | cons p parts ih =>
    have first : take ⟨nodes, around, .inTag ⟨head, before⟩⟩ p.item =
        some ⟨nodes, around, .inTag ⟨head, before ++ [p]⟩⟩ := by
      cases p <;> rfl
    have rest := ih (before ++ [p])
    rw [List.append_assoc] at rest
    exact .cons first rest

/-- The start tag of an element. -/
lemma takes_startItems {name : String} {parts : List TagPart} {selfClosing : Bool} {r : Reading}
    (ended : endTag ⟨nodes, around, .inTag ⟨.element name, parts⟩⟩ ⟨.element name, parts⟩
      selfClosing = some r) :
    Takes ⟨nodes, around, .content⟩ (startItems name parts selfClosing) r := by
  refine .cons rfl (.append (takes_parts parts []) (.single ?_))
  exact ended

/-- An element with an end tag. -/
lemma takes_element {name closing : String} (notVoid : isVoid name = false) {parts : List TagPart}
    {C : Forest} (same : sameName name closing = true)
    (children : Takes ⟨[], ⟨name, notVoid, parts, nodes⟩ :: around, .content⟩ C.items
      ⟨C, ⟨name, notVoid, parts, nodes⟩ :: around, .content⟩) :
    Takes ⟨nodes, around, .content⟩
      (Node.element name notVoid parts C (.endTag closing same)).items
      ⟨nodes ++ [.element name notVoid parts C (.endTag closing same)], around, .content⟩ := by
  have opened : endTag ⟨nodes, around, .inTag ⟨.element name, parts⟩⟩ ⟨.element name, parts⟩ false =
      some ⟨[], ⟨name, notVoid, parts, nodes⟩ :: around, .content⟩ := by
    simp [endTag, notVoid]
  have closed : take ⟨C, ⟨name, notVoid, parts, nodes⟩ :: around, .content⟩
      (.event (.closeTag closing)) =
      some ⟨nodes ++ [.element name notVoid parts C (.endTag closing same)], around, .content⟩ := by
    simp [take, closeTag, same, OpenElement.close]
  exact .append (.append (takes_startItems opened) children) (.single closed)

/-- What shows is read back. -/
lemma takes_shown (F : Forest) :
    Takes ⟨nodes, around, .content⟩ F.shown.items ⟨nodes ++ F.shown, around, .content⟩ := by
  induction F using Forest.induction generalizing nodes around with
  | nil => simpa [Forest.shown, Forest.items] using Takes.nil
  | cons n F children others =>
    have node : Takes ⟨nodes, around, .content⟩ n.shown.items
        ⟨nodes ++ [n.shown], around, .content⟩ := by
      cases n with
      | hole h =>
        rw [Node.shown]
        split
        · exact .single rfl
        · exact takes_element _ _ .nil
      | void name isVoid parts selfClosing =>
        refine takes_startItems ?_
        simp [endTag, isVoid, add, Node.shown]
      | element name notVoid parts C ending =>
        exact takes_element notVoid ending.sameName_name children
      | _ => exact .single rfl
    have rest := node.append others
    rw [List.append_assoc] at rest
    exact rest

end Reading

/-- What shows is the forest of its items. -/
lemma Forest.nest_shown (F : Forest) : nest (F.shown.items ++ [.event .finish]) = some F.shown := by
  have read : Reading.Takes {} (F.shown.items ++ [.event .finish]) ⟨F.shown, [], .content⟩ :=
    .append (Reading.takes_shown F) (.single rfl)
  rw [nest, read]
  rfl

end TaggedMarkup.Template

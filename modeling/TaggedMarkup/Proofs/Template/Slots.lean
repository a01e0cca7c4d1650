import Mathlib
import TaggedMarkup.Proofs.Markup.Raw
import TaggedMarkup.Proofs.Template.Forest

/-!
# Slots

Every hole of a template has a slot, which is its number. Here the holes are followed from the
chunks to the binders: `slot_holes_items` says that the slots of the items count up, and
`mem_holes_items` that a hole carries the expression of its slot and the sigil in front of it.
A forest then has a binder or a property for each of the holes among its items
(`Forest.origins_perm`), and inside one element they keep their order (`Forest.sublist_groups`).

The only holes that do not reach the forest are those of a component that another hole follows
directly (`mem_superseded_items`).
-/

namespace TaggedMarkup

open Markup (Lexer Outcome Place Sigil oddBackslashes scanBlock scanBlockList scanSigil
  scanSigilReversed)

namespace Markup

/-- What stands in front of a number sign makes no difference to the sigil. -/
lemma scanSigilReversed_append (cs rest : List Char) :
    (scanSigilReversed (cs ++ '#' :: rest)).1 = (scanSigilReversed cs).1 := by
  cases cs with
  | nil => rfl
  | cons c cs =>
    simp only [List.cons_append, scanSigilReversed]
    cases Sigil.ofChar? c with
    | none => rfl
    | some sigil =>
      rw [oddBackslashes_append rfl]
      cases oddBackslashes cs <;> rfl

/-- The block marker makes no difference to the sigil at the other end of a chunk. -/
lemma scanSigil_scanBlock (chunk : String) :
    (scanSigil (scanBlock chunk).2).1 = (scanSigil chunk).1 := by
  simp only [scanSigil, scanBlock, String.toList_ofList]
  generalize chunk.toList = cs
  unfold scanBlockList
  split
  · rw [List.reverse_cons, scanSigilReversed_append]
  · simp only [List.reverse_cons, List.append_assoc, List.cons_append, List.nil_append,
      scanSigilReversed_append]
  · rfl

/-- A character that is a sigil tells how a hole follows its value. -/
lemma ofChar?_ne_none (c : Char) : Sigil.ofChar? c ≠ some .none := by
  unfold Sigil.ofChar?
  split_ifs <;> simp

/-- A chunk with neither a block marker nor a sigil has text, unless it is empty. -/
lemma eq_empty_of_scan {chunk : String} (block : (scanBlock chunk).1 = false)
    (sigil : (scanSigil (scanBlock chunk).2).1 = .none)
    (text : (scanSigil (scanBlock chunk).2).2 = "") : chunk = "" := by
  have reversed {cs : List Char} (sigil : (scanSigilReversed cs).1 = .none)
      (text : (scanSigilReversed cs).2 = []) : cs = [] := by
    cases cs with
    | nil => rfl
    | cons c body =>
      unfold scanSigilReversed at sigil text
      grind [ofChar?_ne_none c]
  simp only [scanSigil, scanBlock, String.toList_ofList] at block sigil text
  rw [String.ofList_eq_empty_iff, List.reverse_eq_nil_iff] at text
  have empty := List.reverse_eq_nil_iff.1 (reversed sigil text)
  rw [← String.toList_eq_nil_iff]
  unfold scanBlockList at block empty
  split at block <;> simp_all

/-- A tag name grows by every character that is no event. -/
lemma Lexer.tag_length_write {l : Lexer} (mode : l.mode = .tagName) {text : String}
    (mode' : (l.write text).lexer.mode = .tagName) (events : (l.write text).events = []) :
    (l.write text).lexer.tag.length = l.tag.length + text.length := by
  simp only [write] at mode' events ⊢
  rw [← String.length_toList (s := text)]
  generalize text.toList = cs at mode' events ⊢
  induction cs generalizing l with
  | nil => rfl
  | cons c cs ih =>
    simp only [writeList, step, mode, stepTagName] at mode' events ⊢
    split at events
    · cases fault : (stepBeforeAttribute { l with mode := .beforeAttribute } c).fault <;>
        simp [Outcome.after, Outcome.andThen, fault] at events
    · rename_i inName
      simp only [inName, Bool.false_eq_true, if_false, Outcome.andThen, Outcome.after,
        List.nil_append] at mode' events ⊢
      rw [ih rfl mode' events, String.length_push, List.length_cons]
      omega

end Markup

namespace Template

/-! ## The holes of a template -/

/-- The hole of an item. -/
def Item.hole? : Item → Option Hole
  | .event _ => none
  | .hole _ h => some h

/-- The holes among items. -/
def holes (is : List Item) : List Hole := is.filterMap Item.hole?

/-- No items have no holes. -/
@[simp] lemma holes_nil : holes [] = [] := rfl

/-- The holes of two lists of items. -/
@[simp] lemma holes_append (is js : List Item) : holes (is ++ js) = holes is ++ holes js :=
  List.filterMap_append ..

/-- An event is no hole. -/
@[simp] lemma holes_event_cons (e : Markup.Event) (is : List Item) :
    holes (.event e :: is) = holes is := rfl

/-- A hole in front comes first. -/
@[simp] lemma holes_hole_cons (place : Place) (h : Hole) (is : List Item) :
    holes (.hole place h :: is) = h :: holes is := rfl

/-- Events have no holes. -/
@[simp] lemma holes_map_event (es : List Markup.Event) : holes (es.map .event) = [] := by
  induction es with
  | nil => rfl
  | cons e es ih => exact ih

/-- A hole is one of the holes among items if it stands there in some place. -/
lemma mem_holes {is : List Item} {h : Hole} : h ∈ holes is ↔ ∃ place, .hole place h ∈ is := by
  simp only [holes, List.mem_filterMap]
  constructor
  · rintro ⟨i, mem, eq⟩
    cases i with
    | event e => cases eq
    | hole place h' =>
      cases eq
      exact ⟨place, mem⟩
  · rintro ⟨place, mem⟩
    exact ⟨_, mem, rfl⟩

/-- The slots of holes count up. -/
lemma slot_holes_itemsFrom (l : Lexer) (slot : Nat) (chunk : String)
    (rest : List (Expression × String)) :
    (holes (itemsFrom l slot chunk rest)).map Hole.slot = List.range' slot rest.length := by
  induction rest generalizing l slot chunk with
  | nil => simp [itemsFrom]
  | cons next rest ih => simp [itemsFrom, ih, List.range'_succ]

/-- A hole carries the expression of its slot and the sigil in front of it. -/
lemma mem_holes_itemsFrom {l : Lexer} {slot : Nat} {chunk : String}
    {rest : List (Expression × String)} {h : Hole}
    (mem : h ∈ holes (itemsFrom l slot chunk rest)) :
    ∃ i, h.slot = slot + i ∧ (rest.map Prod.fst)[i]? = some h.expression ∧
      ((chunk :: rest.map Prod.snd)[i]?.map fun c => (scanSigil c).1) = some h.sigil := by
  induction rest generalizing l slot chunk with
  | nil => simp [itemsFrom] at mem
  | cons next rest ih =>
    simp only [itemsFrom, holes_append, holes_map_event, List.nil_append, holes_hole_cons,
      List.mem_cons] at mem
    obtain rfl | mem := mem
    · exact ⟨0, rfl, rfl, rfl⟩
    · obtain ⟨i, slot_eq, expression, sigil⟩ := ih mem
      refine ⟨i + 1, by omega, expression, ?_⟩
      rw [← sigil]
      cases i with
      | zero => simp [Markup.scanSigil_scanBlock]
      | succ i => simp

/-- The slots of the items of a template count up from zero. -/
lemma slot_holes_items {chunks : List String} {expressions : List Expression}
    (length : chunks.length = expressions.length + 1) :
    (holes (items chunks expressions)).map Hole.slot = List.range expressions.length := by
  cases chunks with
  | nil => cases length
  | cons first rest =>
    have same : rest.length = expressions.length := Nat.succ.inj length
    rw [items, slot_holes_itemsFrom, List.length_zip, same, Nat.min_self, List.range_eq_range']

/-- A hole of a template carries the expression of its slot and the sigil in front of it. -/
lemma mem_holes_items {chunks : List String} {expressions : List Expression}
    (length : chunks.length = expressions.length + 1) {h : Hole}
    (mem : h ∈ holes (items chunks expressions)) :
    expressions[h.slot]? = some h.expression ∧
      (chunks[h.slot]?.map fun c => (scanSigil c).1) = some h.sigil := by
  cases chunks with
  | nil => cases length
  | cons first rest =>
    have same : rest.length = expressions.length := Nat.succ.inj length
    obtain ⟨i, slot, expression, sigil⟩ := mem_holes_itemsFrom mem
    rw [Nat.zero_add] at slot
    rw [List.map_fst_zip (by omega)] at expression
    rw [List.map_snd_zip (by omega)] at sigil
    rw [slot]
    exact ⟨expression, sigil⟩

/-! ## Holes that do not reach the forest -/

/-- The holes of components that another one follows before their tag begins. -/
def superseded : List Item → List Hole
  | [] => []
  | .hole (.tagName _) h :: is =>
    if startsWithFactory is then h :: superseded is else superseded is
  | _ :: is => superseded is

/-- Every hole is either kept or superseded. -/
lemma holes_perm_kept (is : List Item) : (holes is).Perm (holes (kept is) ++ superseded is) := by
  fun_induction kept is with
  | case1 => exact .nil
  | case2 is ih => exact ih
  | case3 name is void ih => exact ih
  | case4 name is notVoid ih => exact ih
  | case5 name h is factory ih =>
    rw [superseded, if_pos factory, holes_hole_cons]
    exact (ih.cons h).trans List.perm_middle.symm
  | case6 name h is noFactory ih =>
    rw [superseded, if_neg noFactory, holes_hole_cons, holes_hole_cons]
    exact ih.cons h
  | case7 i is notFinish notClose notFactory ih =>
    have same : superseded (i :: is) = superseded is := by
      rw [superseded]
      exact notFactory
    cases i with
    | event e => simpa [same] using ih
    | hole place h => simpa [same] using ih

/-- The kept holes stand in the order of all holes. -/
lemma sublist_kept (is : List Item) : (holes (kept is)).Sublist (holes is) := by
  have sub : (kept is).Sublist is := by
    fun_induction kept is with
    | case1 => exact .slnil
    | case2 is ih | case3 name is void ih | case5 name h is factory ih => exact ih.cons _
    | case4 name is notVoid ih | case6 name h is noFactory ih => exact ih.cons_cons _
    | case7 i is _ _ _ ih => exact ih.cons_cons _
  exact sub.filterMap _

/-- Events are not superseded. -/
lemma superseded_events_append (es : List Markup.Event) (is : List Item) :
    superseded (es.map .event ++ is) = superseded is := by
  induction es with
  | nil => rfl
  | cons e es ih => exact ih

/-- What a skeleton requires of the hole of a component. -/
structure Item.Factory (i : Item) : Prop where
  tag : ∀ {name h}, i = .hole (.tagName name) h → name = componentTag ∧ h.block = false ∧
    h.sigil = .none

/-- All holes of components that a skeleton takes are in order. -/
lemma Skeleton.factory_of_takeAll {is : List Item} {s s' : Skeleton}
    (ok : s.takeAll is = .ok s') : ∀ i ∈ is, i.Factory := by
  induction is generalizing s with
  | nil => simp
  | cons i is ih =>
    obtain ⟨t, taken, rest⟩ := Skeleton.takeAll_cons_ok.1 ok
    intro j mem
    obtain rfl | mem := List.mem_cons.1 mem
    · constructor
      rintro name h rfl
      simp only [take, takeHole] at taken
      split at taken
      · rename_i component
        split at taken
        · cases taken
        · rename_i block
          split at taken
          · rename_i sigil
            exact ⟨component, Bool.eq_false_iff.2 block, sigil⟩
          · cases taken
      · cases taken
    · exact ih rest j mem

/-- The hole of a component comes first only if there is no event in front of it. -/
lemma startsWithFactory_events_append (es : List Markup.Event) (is : List Item) :
    startsWithFactory (es.map .event ++ is) = true ↔ es = [] ∧ startsWithFactory is = true := by
  cases es <;> simp [startsWithFactory]

/-- What it is for the hole of a component to come first. -/
lemma startsWithFactory_hole_cons {place : Place} {h : Hole} {is : List Item} :
    startsWithFactory (.hole place h :: is) = true ↔ ∃ name, place = .tagName name := by
  cases place <;> simp [startsWithFactory]

/-- Behind the hole of a component another one follows if there is no text between the two. -/
lemma startsWithFactory_itemsFrom {l : Lexer} (place : l.place = .tagName componentTag)
    {slot : Nat} (chunk : String) (block : (scanBlock chunk).1 = false)
    {rest : List (Expression × String)}
    (factories : ∀ i ∈ itemsFrom l slot (scanBlock chunk).2 rest, i.Factory) :
    startsWithFactory (itemsFrom l slot (scanBlock chunk).2 rest) = true ↔
      chunk = "" ∧ rest ≠ [] := by
  obtain ⟨mode, tag⟩ := Lexer.mode_of_place_tagName place
  cases rest with
  | nil =>
    have events := startsWithFactory_events_append
      ((l.write (scanBlock chunk).2).andThen Lexer.finish).events []
    rw [List.append_nil] at events
    rw [itemsFrom, events]
    simp [startsWithFactory]
  | cons next rest =>
    constructor
    · intro starts
      simp only [itemsFrom, startsWithFactory_events_append, startsWithFactory_hole_cons,
        List.append_eq_nil_iff] at starts
      obtain ⟨⟨events, -⟩, name, place'⟩ := starts
      simp only [itemsFrom, place'] at factories
      obtain ⟨rfl, -, sigil⟩ := (factories _ (List.mem_append_right _ List.mem_cons_self)).tag rfl
      dsimp only at sigil
      obtain ⟨mode', tag'⟩ := Lexer.mode_of_place_tagName place'
      -- Text between the two holes would have made the name of the tag longer.
      have length := Lexer.tag_length_write mode mode' events
      rw [tag', tag] at length
      have text : (scanSigil (scanBlock chunk).2).2 = "" := by
        apply String.length_eq_zero_iff.1
        omega
      exact ⟨Markup.eq_empty_of_scan block sigil text, by simp⟩
    · rintro ⟨rfl, -⟩
      have write : l.write (scanSigil (scanBlock "").2).2 = { lexer := l } := rfl
      simp [itemsFrom, write, Lexer.passHole, place, startsWithFactory]

/-- Whether the hole in front of items is superseded. -/
lemma mem_superseded_hole_cons {place : Place} {h h' : Hole} {is : List Item} :
    h' ∈ superseded (.hole place h :: is) ↔
      (h' = h ∧ (∃ name, place = .tagName name) ∧ startsWithFactory is = true) ∨
        h' ∈ superseded is := by
  cases place with
  | tagName name => by_cases starts : startsWithFactory is = true <;> simp [superseded, starts]
  | _ => simp [superseded]

/-- The superseded holes are those of components that the next hole follows directly. -/
lemma mem_superseded_itemsFrom {l : Lexer} {slot : Nat} {chunk : String}
    {rest : List (Expression × String)} {h : Hole}
    (factories : ∀ i ∈ itemsFrom l slot chunk rest, i.Factory) :
    h ∈ superseded (itemsFrom l slot chunk rest) ↔
      ∃ name, .hole (.tagName name) h ∈ itemsFrom l slot chunk rest ∧
        ∃ i, h.slot = slot + i ∧ (rest.map Prod.snd)[i]? = some "" ∧ i + 1 < rest.length := by
  induction rest generalizing l slot chunk with
  | nil =>
    have none := superseded_events_append ((l.write chunk).andThen Lexer.finish).events []
    rw [List.append_nil] at none
    simp [itemsFrom, none, superseded]
  | cons next rest ih =>
    obtain ⟨expression, next⟩ := next
    simp only [itemsFrom] at factories ⊢
    generalize eq : (l.write (scanSigil chunk).2) = before at factories ⊢
    have first := factories _ (List.mem_append_right _ List.mem_cons_self)
    have others := fun i mem => factories i (List.mem_append_right _ (List.mem_cons_of_mem _ mem))
    have ih := ih others
    rw [superseded_events_append, mem_superseded_hole_cons]
    -- The hole in front is superseded if the chunk behind it is empty and not the last.
    have head (name : String) (place : before.lexer.place = .tagName name) :
        startsWithFactory (itemsFrom before.lexer.passHole.lexer (slot + 1) (scanBlock next).2 rest)
          = true ↔ next = "" ∧ rest ≠ [] := by
      obtain ⟨rfl, block, -⟩ := first.tag (by rw [place])
      have passed : before.lexer.passHole.lexer = before.lexer := by
        rw [Lexer.passHole, place]
      rw [passed] at others ⊢
      exact startsWithFactory_itemsFrom place next block others
    constructor
    · rintro (⟨rfl, ⟨name, place⟩, starts⟩ | mem)
      · obtain ⟨rfl, more⟩ := (head name place).1 starts
        refine ⟨name, by simp [place], 0, rfl, rfl, ?_⟩
        simpa using List.length_pos_iff.2 more
      · obtain ⟨name, mem, i, slot_eq, empty, more⟩ := ih.1 mem
        exact ⟨name, by simp [mem], i + 1, by omega, empty, by simpa using more⟩
    · rintro ⟨name, mem, i, slot_eq, empty, more⟩
      have mem : .hole (.tagName name) h = Item.hole before.lexer.place
          ⟨slot, (scanSigil chunk).1, (scanBlock next).1, expression⟩ ∨
          .hole (.tagName name) h ∈
            itemsFrom before.lexer.passHole.lexer (slot + 1) (scanBlock next).2 rest := by
        simpa using mem
      obtain same | mem := mem
      · obtain ⟨place, rfl⟩ := Item.hole.inj same
        obtain rfl : i = 0 := by simpa using slot_eq
        have starts := (head name place.symm).2
          ⟨by simpa using empty, by rintro rfl; simp at more⟩
        exact .inl ⟨rfl, ⟨name, place.symm⟩, starts⟩
      · obtain ⟨j, slot_eq', -⟩ := mem_holes_itemsFrom (mem_holes.2 ⟨_, mem⟩)
        obtain rfl : i = j + 1 := by omega
        exact .inr (ih.2 ⟨name, mem, j, slot_eq', by simpa using empty, by simpa using more⟩)

/-- The superseded holes of a template are those of components that the next hole follows
directly. -/
lemma mem_superseded_items {chunks : List String} {expressions : List Expression}
    (length : chunks.length = expressions.length + 1)
    (factories : ∀ i ∈ items chunks expressions, i.Factory) {h : Hole} :
    h ∈ superseded (items chunks expressions) ↔
      (∃ name, .hole (.tagName name) h ∈ items chunks expressions) ∧
        chunks[h.slot + 1]? = some "" ∧ h.slot + 1 < expressions.length := by
  cases chunks with
  | nil => cases length
  | cons first rest =>
    have same : rest.length = expressions.length := Nat.succ.inj length
    rw [items] at factories ⊢
    rw [mem_superseded_itemsFrom factories, List.map_snd_zip (by omega), List.length_zip, same,
      Nat.min_self]
    constructor
    · rintro ⟨name, mem, i, slot, empty, more⟩
      obtain rfl : h.slot = i := by omega
      exact ⟨⟨name, mem⟩, empty, more⟩
    · rintro ⟨⟨name, mem⟩, empty, more⟩
      exact ⟨name, mem, h.slot, by omega, empty, more⟩

/-! ## From holes to binders -/

/-- What a binder or a hole takes from its slot. -/
structure Origin where
  slot : Nat
  sigil : Sigil
  expression : Expression
  deriving DecidableEq, Repr

/-- The origin of a hole. -/
def Hole.origin (h : Hole) : Origin := ⟨h.slot, h.sigil, h.expression⟩

/-- The origin of a binder. -/
def Binder.origin (b : Binder) : Origin := ⟨b.slot, b.sigil, b.expression⟩

/-- A binder with its properties, less those that are literals. -/
def Binder.entries (b : Binder) : List Binder :=
  b :: b.properties.filter fun p => !p.expression.isLiteral

/-- The origins of binders and their properties. -/
def origins (binders : List Binder) : List Origin :=
  (binders.flatMap Binder.entries).map Binder.origin

/-- No binders have no origins. -/
@[simp] lemma origins_nil : origins [] = [] := rfl

/-- The origins of two lists of binders. -/
@[simp] lemma origins_append (bs cs : List Binder) :
    origins (bs ++ cs) = origins bs ++ origins cs := by
  simp [origins]

/-- A group has all its binders. -/
@[simp] lemma flatten_groupOf (binders : List Binder) : (groupOf binders).flatten = binders := by
  cases binders <;> simp [groupOf]

/-- The attributes of an element have a binder for every hole. -/
lemma origins_parts (parts : List TagPart) :
    origins (parts.filterMap TagPart.binder?) =
      (holes (parts.map TagPart.item)).map Hole.origin := by
  induction parts with
  | nil => rfl
  | cons p parts ih =>
    cases p with
    | fixed name value => simpa [List.filterMap_cons, TagPart.binder?, TagPart.item] using ih
    | hole name h =>
      simpa [origins, List.filterMap_cons, TagPart.binder?, TagPart.item, Binder.entries,
        Binder.origin, Hole.origin, Hole.binder] using ih

/-- A component has, besides its own binder, a property for every hole in its tag. -/
lemma origins_component {factory : Hole} {parts : List TagPart} (index : Nat)
    (bound : ∀ h ∈ holes (parts.map TagPart.item), h.expression.isLiteral = false) :
    origins (Node.binder? index (.component factory parts)).toList =
      factory.origin :: (holes (parts.map TagPart.item)).map Hole.origin := by
  have properties : ((parts.map (TagPart.property factory)).filter
      fun p => !p.expression.isLiteral).map Binder.origin =
        (holes (parts.map TagPart.item)).map Hole.origin := by
    induction parts with
    | nil => rfl
    | cons p parts ih =>
      cases p with
      | fixed name value =>
        simpa [TagPart.property, Expression.ofText, TagPart.item] using ih bound
      | hole name h =>
        have here := bound h List.mem_cons_self
        have ih := ih fun h' mem => bound h' (List.mem_cons_of_mem h mem)
        simpa [TagPart.property, TagPart.item, Hole.binder, here, Binder.origin, Hole.origin]
          using ih
  simp [origins, Node.binder?, Binder.entries, properties, Binder.origin, Hole.origin, Hole.binder]

/-- The children of a node. -/
def Node.children : Node → Forest
  | .element _ _ _ children _ => children
  | _ => []

mutual

/-- What holds of all forests whose parts have it, holds of the children of a node. -/
lemma Node.induction_children {motive : Forest → Prop} (nil : motive [])
    (cons : ∀ n F, motive n.children → motive F → motive (n :: F)) : ∀ n : Node, motive n.children
  | .element _ _ _ children _ => Forest.induction nil cons children
  | .text _ | .comment _ | .hole _ | .component _ _ | .void _ _ _ _ => nil

/-- A property holds of all forests if a node can be put in front, given that its children have the
property. -/
lemma Forest.induction {motive : Forest → Prop} (nil : motive [])
    (cons : ∀ n F, motive n.children → motive F → motive (n :: F)) : ∀ F : Forest, motive F
  | [] => nil
  | n :: F => cons n F (Node.induction_children nil cons n) (Forest.induction nil cons F)

end

/-- The binders of placeholders that are children from number `k` on. -/
def Forest.bindersFrom (k : Nat) (F : Forest) : List Binder :=
  (F.zipIdx k).filterMap fun (n, i) => n.binder? i

/-- The first node is bound at the first number. -/
lemma Forest.bindersFrom_cons (k : Nat) (n : Node) (F : Forest) :
    bindersFrom k (n :: F) = (n.binder? k).toList ++ bindersFrom (k + 1) F := by
  simp only [bindersFrom, List.zipIdx_cons, List.filterMap_cons]
  cases n.binder? k <;> rfl

/-- The holes of a start tag are those of its attributes. -/
@[simp] lemma holes_startItems (name : String) (parts : List TagPart) (selfClosing : Bool) :
    holes (startItems name parts selfClosing) = holes (parts.map TagPart.item) := by
  simp [startItems]

/-- An end tag has no holes. -/
@[simp] lemma holes_ending {name : String} (ending : Ending name) : holes ending.items = [] := by
  cases ending <;> rfl

/-- The holes among children are holes of the node. -/
lemma Node.sublist_children (n : Node) : (holes n.children.items).Sublist (holes n.items) := by
  cases n with
  | element name notVoid parts F ending => simp [Node.children, Node.items]
  | _ => exact List.nil_sublist _

/-- A node has a binder or a property for every hole, if its children have. -/
lemma Node.origins_perm (n : Node) (k : Nat)
    (bound : ∀ h ∈ holes n.items, h.expression.isLiteral = false)
    (children : (origins (n.children.groups.flatten ++ n.children.binders)).Perm
      ((holes n.children.items).map Hole.origin)) :
    (origins (n.groups.flatten ++ (n.binder? k).toList)).Perm
      ((holes n.items).map Hole.origin) := by
  cases n with
  | text | comment => exact .nil
  | hole h => exact .refl _
  | component factory parts =>
    simp only [Node.items, holes_hole_cons, holes_startItems, List.mem_cons] at bound
    simp [Node.groups, Node.items, origins_component k fun h mem => bound h (.inr mem)]
  | void name isVoid parts selfClosing =>
    simp [Node.groups, Node.items, Node.binder?, ownBinders, origins_parts]
  | element name notVoid parts F ending =>
    simp only [Node.children, origins_append] at children
    simp only [Node.groups, Node.items, Node.binder?, ownBinders, List.flatten_append,
      flatten_groupOf, origins_append, origins_parts, holes_append, holes_startItems, holes_ending,
      List.map_append, Option.toList_none, List.append_nil, List.append_assoc]
    exact (List.perm_append_comm.trans children).append_left _

/-- A forest has a binder or a property for every hole among its items, and no others. -/
lemma Forest.origins_perm (F : Forest)
    (bound : ∀ h ∈ holes F.items, h.expression.isLiteral = false) :
    (origins F.allGroups.flatten).Perm ((holes F.items).map Hole.origin) := by
  suffices general : ∀ k, (origins (F.groups.flatten ++ F.bindersFrom k)).Perm
      ((holes F.items).map Hole.origin) by
    rw [allGroups, List.flatten_append, flatten_groupOf]
    exact general 0
  induction F using Forest.induction with
  | nil => exact fun _ => .nil
  | cons n F children others =>
    simp only [Forest.items, holes_append, List.mem_append] at bound
    intro k
    have node := n.origins_perm k (fun h mem => bound h (.inl mem))
      (children (fun h mem => bound h (.inl (n.sublist_children.mem mem))) 0)
    have others := others (fun h mem => bound h (.inr mem)) (k + 1)
    simp only [Forest.groups, bindersFrom_cons, Forest.items, List.flatten_append, holes_append,
      List.map_append, origins_append, List.append_assoc] at node others ⊢
    -- The groups of the other nodes move behind the binder of the first.
    refine (List.perm_append_comm_assoc _ _ _).append_left _ |>.trans ?_
    rw [← List.append_assoc]
    exact node.append others

/-- The binders of a node, without its children, stand in the order of their holes. -/
lemma Node.sublist_binder? (n : Node) (k : Nat) :
    ((n.binder? k).toList.map Binder.slot).Sublist ((holes n.items).map Hole.slot) := by
  cases n with
  | hole h => exact .refl _
  | component factory parts => simp [Node.binder?, Node.items, Hole.binder]
  | _ => exact List.nil_sublist _

/-- The binders of placeholders stand in the order of their holes. -/
lemma Forest.sublist_bindersFrom (F : Forest) (k : Nat) :
    ((F.bindersFrom k).map Binder.slot).Sublist ((holes F.items).map Hole.slot) := by
  induction F generalizing k with
  | nil => exact .slnil
  | cons n F ih =>
    rw [bindersFrom_cons, Forest.items, holes_append, List.map_append, List.map_append]
    exact (n.sublist_binder? k).append (ih (k + 1))

/-- The binders that an element hosts stand in the order of their holes. -/
lemma sublist_ownBinders (parts : List TagPart) (F : Forest) :
    ((ownBinders parts F).map Binder.slot).Sublist
      ((holes (parts.map TagPart.item) ++ holes F.items).map Hole.slot) := by
  have attributes : (parts.filterMap TagPart.binder?).map Binder.slot =
      (holes (parts.map TagPart.item)).map Hole.slot := by
    induction parts with
    | nil => rfl
    | cons p parts ih =>
      cases p <;> simpa [List.filterMap_cons, TagPart.binder?, TagPart.item, Hole.binder] using ih
  rw [ownBinders, List.map_append, List.map_append, attributes]
  exact (F.sublist_bindersFrom 0).append_left _

/-- A group is not empty. -/
lemma mem_groupOf {binders g : List Binder} : g ∈ groupOf binders ↔ g = binders ∧ binders ≠ [] := by
  cases binders <;> simp [groupOf]

/-- The binders of each group of a node stand in the order of their holes, if those of its children
do. -/
lemma Node.sublist_groups (n : Node)
    (children : ∀ g ∈ n.children.groups,
      g ≠ [] ∧ (g.map Binder.slot).Sublist ((holes n.children.items).map Hole.slot)) :
    ∀ g ∈ n.groups, g ≠ [] ∧ (g.map Binder.slot).Sublist ((holes n.items).map Hole.slot) := by
  intro g mem
  cases n with
  | void name isVoid parts selfClosing =>
    obtain ⟨rfl, some⟩ := mem_groupOf.1 mem
    refine ⟨some, ?_⟩
    simpa [Node.items, Forest.items] using sublist_ownBinders parts []
  | element name notVoid parts F ending =>
    rw [Node.groups, List.mem_append, mem_groupOf] at mem
    obtain ⟨rfl, some⟩ | mem := mem
    · refine ⟨some, ?_⟩
      simpa [Node.items] using sublist_ownBinders parts F
    · obtain ⟨some, sub⟩ := children g mem
      exact ⟨some, sub.trans ((Node.sublist_children _).map _)⟩
  | _ => cases mem

/-- The binders of each group stand in the order of their holes. -/
lemma Forest.sublist_groups (F : Forest) :
    ∀ g ∈ F.groups, g ≠ [] ∧ (g.map Binder.slot).Sublist ((holes F.items).map Hole.slot) := by
  induction F using Forest.induction with
  | nil => simp [Forest.groups]
  | cons n F children others =>
    intro g mem
    rw [Forest.groups, List.mem_append] at mem
    rw [Forest.items, holes_append, List.map_append]
    obtain mem | mem := mem
    · obtain ⟨some, sub⟩ := n.sublist_groups children g mem
      exact ⟨some, sub.trans (List.sublist_append_left ..)⟩
    · obtain ⟨some, sub⟩ := others g mem
      exact ⟨some, sub.trans (List.sublist_append_right ..)⟩

/-- The same with the group of the fragment itself. -/
lemma Forest.sublist_allGroups (F : Forest) :
    ∀ g ∈ F.allGroups, g ≠ [] ∧ (g.map Binder.slot).Sublist ((holes F.items).map Hole.slot) := by
  intro g mem
  rw [allGroups, List.mem_append, mem_groupOf] at mem
  obtain mem | ⟨rfl, some⟩ := mem
  · exact F.sublist_groups g mem
  · exact ⟨some, F.sublist_bindersFrom 0⟩

end Template

end TaggedMarkup

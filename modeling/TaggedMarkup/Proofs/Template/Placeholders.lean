import Mathlib
import TaggedMarkup.Proofs.Template.Filled

/-!
# Placeholders as markup

Reading a template gives the same markup as reading it with the placeholders of its holes written
out: only the marks of the elements that host binders are missing then (`parse_filled`).

A forest can be filled like the markup (`Forest.filled`), and what `nest` makes of filled items is
the filled forest (`nest_filled`). A skeleton takes whatever `nest` takes, unless it is the tag of a
component (`Simulates.progress`), so the filled markup can be read at all.
-/

namespace TaggedMarkup.Template

open Markup (Event isVoid)

/-! ## Filled forests -/

/-- An attribute with its hole filled. -/
def TagPart.filled : TagPart → TagPart
  | .fixed name value => .fixed name value
  | .hole name _ => .fixed name (some "")

mutual

/-- A node with its holes filled. That of a component stays. -/
def Node.filled : Node → Node
  | .text text => .text text
  | .comment text => .comment text
  | .hole h =>
    if h.block then .comment " block "
    else .element "text-node" rfl [] [] (.endTag "text-node" rfl)
  | .component factory parts => .component factory (parts.map TagPart.filled)
  | .void name isVoid parts selfClosing => .void name isVoid (parts.map TagPart.filled) selfClosing
  | .element name notVoid parts children ending =>
    .element name notVoid (parts.map TagPart.filled) (Forest.filled children) ending

/-- Nodes with their holes filled. -/
def Forest.filled : Forest → Forest
  | [] => []
  | n :: F => n.filled :: Forest.filled F

end

/-- Two forests are filled one after the other. -/
lemma Forest.filled_append (F G : Forest) : filled (F ++ G) = filled F ++ filled G := by
  induction F with
  | nil => rfl
  | cons n F ih => rw [List.cons_append, filled, filled, ih, List.cons_append]

def OpenElement.filled (o : OpenElement) : OpenElement :=
  { o with parts := o.parts.map TagPart.filled, before := o.before.filled }

def Position.filled : Position → Position
  | .content => .content
  | .naming factory => .naming factory
  | .inTag t => .inTag { t with parts := t.parts.map TagPart.filled }

def Reading.filled (r : Reading) : Reading :=
  { nodes := r.nodes.filled
    around := r.around.map OpenElement.filled
    position := r.position.filled }

namespace Reading

/-- A node is added filled. -/
lemma add_filled (r : Reading) (n : Node) : (r.add n).filled = r.filled.add n.filled := by
  simp only [add, filled, Forest.filled_append, Forest.filled, Position.filled]

/-- The open elements are closed filled. -/
lemma closeAll_filled (nodes : Forest) (around : List OpenElement) :
    (closeAll nodes around).filled = closeAll nodes.filled (around.map OpenElement.filled) := by
  induction around generalizing nodes with
  | nil => rfl
  | cons o around ih =>
    rw [closeAll, ih, List.map_cons, closeAll, OpenElement.close, Forest.filled_append]
    rfl

/-- A forest is finished filled. -/
lemma finish_filled {r : Reading} {F : Forest} (ok : r.finish = some F) :
    r.filled.finish = some F.filled := by
  unfold finish at ok
  split at ok
  · rename_i position
    cases ok
    rw [finish, filled, position]
    simp only [Position.filled, closeAll_filled]
  · cases ok

/-- A start tag is ended with its values filled in. -/
lemma endTag_filled {r r' : Reading} {t : Tag} {selfClosing : Bool}
    (ok : r.endTag t selfClosing = some r') :
    r.filled.endTag { t with parts := t.parts.map TagPart.filled } selfClosing =
      some r'.filled := by
  unfold endTag at ok ⊢
  split at ok
  · split at ok
    · cases ok
      simp_all [add_filled, Node.filled]
    · cases ok
  · split at ok
    · cases ok
      simp_all [add_filled, Node.filled]
    · split at ok
      · cases ok
        simp_all [add_filled, Node.filled, Forest.filled]
      · cases ok
        simp_all [filled, Position.filled, OpenElement.filled, Forest.filled]

/-- An end tag closes the same elements when they are filled. -/
lemma closeTag_filled {r r' : Reading} {name : String} (ok : r.closeTag name = some r') :
    r.filled.closeTag name = some r'.filled := by
  obtain ⟨nodes, around, position⟩ := r
  cases around with
  | nil =>
    simp only [closeTag] at ok
    split at ok
    · rename_i void
      cases ok
      simp only [closeTag, filled, List.map_nil, void, if_true]
    · cases ok
  | cons o around =>
    simp only [closeTag] at ok
    simp only [closeTag, filled, List.map_cons]
    split at ok
    · rename_i same
      cases ok
      rw [dif_pos (show Markup.sameName o.filled.name name = true from same)]
      simp only [OpenElement.close, Forest.filled_append]
      rfl
    · rename_i other
      rw [dif_neg (show ¬Markup.sameName o.filled.name name = true from other)]
      split at ok
      · rename_i void
        cases ok
        rw [if_pos void]
        rfl
      · cases ok

/-- The placeholder of a text is an element without content. -/
lemma take_textNode {r : Reading} (position : r.position = .content) :
    ([Event.openTag "text-node", .openTagEnd false, .closeTag "text-node"].map Item.event).foldlM
        take r = some (r.add (.element "text-node" rfl [] [] (.endTag "text-node" rfl))) := by
  obtain ⟨nodes, around, _⟩ := r
  cases position
  have notVoid : ¬isVoid "text-node" = true := by decide
  have same : Markup.sameName "text-node" "text-node" = true := by decide
  simp [take, endTag, closeTag, notVoid, same, add, OpenElement.close]

/-- Filling the holes of an item fills those of the forest. -/
lemma take_filled {r r' : Reading} {i : Item} (ok : r.take i = some r')
    (ordinary : ∀ name h, i ≠ .hole (.tagName name) h) :
    (i.filled.map Item.event).foldlM take r.filled = some r'.filled := by
  have one {e : Event} (taken : r.filled.take (.event e) = some r'.filled) :
      ([e].map Item.event).foldlM take r.filled = some r'.filled := by
    rw [List.map_singleton, List.foldlM_cons, taken]
    rfl
  unfold take at ok
  split at ok
  case h_1 position | h_2 position =>
    cases ok
    refine one ?_
    simp [take, filled, position, Position.filled, add, Forest.filled_append, Forest.filled,
      Node.filled]
  case h_3 name position =>
    refine one ?_
    rw [← closeTag_filled ok]
    simp [take, filled, position, Position.filled]
  case h_4 position =>
    cases ok
    refine one ?_
    simp [take, filled, position, Position.filled]
  case h_5 h position =>
    cases ok
    have position' : r.filled.position = .content := by rw [filled, position, Position.filled]
    rw [add_filled, Item.filled, Node.filled]
    split
    · simp [take, position']
    · exact take_textNode position'
  case h_6 name h position => exact absurd rfl (ordinary name h)
  case h_7 name h position => exact absurd rfl (ordinary name h)
  case h_8 position =>
    cases ok
    refine one ?_
    simp [take, filled, position, Position.filled]
  case h_9 position =>
    split at ok
    · rename_i component
      cases ok
      refine one ?_
      simp [take, filled, position, Position.filled, component]
    · cases ok
  case h_10 t name value position =>
    cases ok
    refine one ?_
    simp [take, filled, position, Position.filled, TagPart.filled]
  case h_11 t name h position =>
    cases ok
    refine one ?_
    simp [take, filled, position, Position.filled, TagPart.filled]
  case h_12 t selfClosing position =>
    refine one ?_
    rw [← endTag_filled ok]
    simp [take, filled, position, Position.filled]
  case h_13 => cases ok

/-- A template without components is read the same way with its holes filled. -/
lemma run_filled {is : List Item} {r r' : Reading} (ok : is.foldlM take r = some r')
    (ordinary : ∀ name h, .hole (.tagName name) h ∉ is) :
    ((is.flatMap Item.filled).map Item.event).foldlM take r.filled = some r'.filled := by
  induction is generalizing r with
  | nil =>
    cases ok
    rfl
  | cons i is ih =>
    obtain ⟨between, taken, rest⟩ := Option.bind_eq_some_iff.1 ok
    rw [List.flatMap_cons, List.map_append, List.foldlM_append,
      take_filled taken fun name h same => ordinary name h (same ▸ List.mem_cons_self)]
    exact ih rest fun name h mem => ordinary name h (List.mem_cons_of_mem i mem)

end Reading

/-- The forest of filled items is filled. -/
lemma nest_filled {is : List Item} {F : Forest} (ok : nest is = some F)
    (ordinary : ∀ name h, .hole (.tagName name) h ∉ is) :
    nest ((is.flatMap Item.filled).map .event) = some F.filled := by
  obtain ⟨r, run, finished⟩ := Option.bind_eq_some_iff.1 ok
  exact Option.bind_eq_some_iff.2
    ⟨r.filled, Reading.run_filled run ordinary, Reading.finish_filled finished⟩

/-! ## Skeletons of forests -/

/-- Only the hole of a component asks for its tag. -/
lemma Phase.next_ne_naming {p q : Phase} {i : Item} (next : p.next i = some q)
    (ordinary : ∀ name h, i ≠ .hole (.tagName name) h) : q ≠ .naming := by
  rintro rfl
  unfold Phase.next at next
  split at next <;> simp_all

namespace Simulates

/-- What `nest` takes, a skeleton takes, unless it is the tag of a component without its hole. -/
lemma progress {r r' : Reading} {s : Skeleton} {e : Event} (sim : Simulates r s)
    (ok : r.take (.event e) = some r')
    (ordinary : ∀ name, e = .openTag name → isComponentTag name = false) :
    ∃ s', s.handle e = .ok s' ∧ Simulates r' s' := by
  suffices taken : (∃ s', s.handle e = .ok s') ∧ ∃ q, r.position.phase.next (.event e) = some q by
    obtain ⟨⟨s', taken⟩, q, next⟩ := taken
    obtain ⟨r'', taken', sim', -⟩ := sim.step next taken
    cases ok.symm.trans taken'
    exact ⟨s', taken, sim'⟩
  cases sim with
  | content w =>
    cases e with
    | text | comment | finish => exact ⟨⟨_, rfl⟩, _, rfl⟩
    | openTag name =>
      refine ⟨?_, _, rfl⟩
      simp [Skeleton.handle, Skeleton.openTag, ordinary name rfl]
    | closeTag name =>
      refine ⟨?_, _, rfl⟩
      simp only [Reading.take, Reading.closeTag] at ok
      cases w with
      | root joined => simp_all [Skeleton.handle, Skeleton.closeTag]
      | element w joined =>
        simp only [Skeleton.handle, Skeleton.closeTag, frameOf_name, List.isEmpty_cons,
          Bool.not_false, Bool.true_and]
        split_ifs at ok ⊢ <;> simp_all
    | «attribute» | openTagEnd => cases ok
  | naming h w =>
    cases e with
    | openTag name =>
      -- The tag of a component is no ordinary one.
      simp only [Reading.take] at ok
      split at ok
      · rename_i component
        subst component
        cases ordinary componentTag rfl
      · cases ok
    | _ => cases ok
  | inTag t w =>
    cases e with
    | «attribute» => exact ⟨⟨_, rfl⟩, _, rfl⟩
    | openTagEnd selfClosing =>
      refine ⟨?_, _, rfl⟩
      obtain ⟨head, parts⟩ := t
      simp only [Skeleton.handle, Skeleton.endOpenTag, Tag.frame]
      cases head with
      | component factory =>
        simp only [Reading.take, Reading.endTag] at ok
        split_ifs at ok with closing
        simp [closing]
      | element name =>
        simp only [frameOf_component]
        split_ifs <;> exact ⟨_, rfl⟩
    | _ => cases ok

/-- What `nest` takes of events, a skeleton takes. -/
lemma progressAll {r r' : Reading} {s : Skeleton} {es : List Event} (sim : Simulates r s)
    (ok : (es.map Item.event).foldlM Reading.take r = some r')
    (ordinary : ∀ name, .openTag name ∈ es → isComponentTag name = false) :
    ∃ s', s.handleAll es = .ok s' := by
  induction es generalizing r s with
  | nil => exact ⟨s, rfl⟩
  | cons e es ih =>
    obtain ⟨between, taken, rest⟩ := Option.bind_eq_some_iff.1 ok
    obtain ⟨t, handled, sim'⟩ := sim.progress taken
      fun name same => ordinary name (same ▸ List.mem_cons_self)
    obtain ⟨s', run⟩ := ih sim' rest fun name mem => ordinary name (List.mem_cons_of_mem e mem)
    exact ⟨s', by rw [Skeleton.handleAll, handled]; exact run⟩

/-- Without the hole of a component, a skeleton takes ordinary tags only. -/
lemma isComponentTag_of_takeAll {is : List Item} {r : Reading} {s s' : Skeleton}
    (sim : Simulates r s) (outside : r.position.phase ≠ .naming)
    (accepts : r.position.phase.Accepts is) (ok : s.takeAll is = .ok s')
    (ordinary : ∀ name h, .hole (.tagName name) h ∉ is) {name : String}
    (mem : .event (.openTag name) ∈ is) : isComponentTag name = false := by
  induction is generalizing r s with
  | nil => cases mem
  | cons i is ih =>
    obtain ⟨q, next, accepts⟩ := accepts
    obtain ⟨t, taken, rest⟩ := Skeleton.takeAll_cons_ok.1 ok
    obtain ⟨r', -, sim', rfl⟩ := sim.step next taken
    obtain rfl | mem := List.mem_cons.1 mem
    · cases sim with
      | content w =>
        simp only [Skeleton.take, Skeleton.handle, Skeleton.openTag] at taken
        split at taken
        · cases taken
        · rename_i other
          exact Bool.eq_false_iff.2 other
      | naming h w => exact absurd rfl outside
      | inTag t w => cases next
    · refine ih sim' (Phase.next_ne_naming next fun name h same => ?_) accepts rest
        (fun name h mem => ordinary name h (List.mem_cons_of_mem i mem)) mem
      exact ordinary name h (same ▸ List.mem_cons_self)

end Simulates

/-- A skeleton that takes items takes what they are with their holes filled. -/
lemma Skeleton.handleAll_filled {is : List Item} {s : Skeleton} (accepts : Phase.content.Accepts is)
    (taken : Skeleton.takeAll {} is = .ok s)
    (ordinary : ∀ name h, .hole (.tagName name) h ∉ is) :
    ∃ s', Skeleton.handleAll {} (is.flatMap Item.filled) = .ok s' := by
  have start : Simulates {} {} := .content (.root (by simp [Forest.html]))
  obtain ⟨r, run, -⟩ := start.run accepts taken
  refine start.progressAll (Reading.run_filled run ordinary) ?_
  intro name mem
  obtain ⟨i, item, mem⟩ := List.mem_flatMap.1 mem
  cases i with
  | event e =>
    cases List.mem_singleton.1 mem
    exact start.isComponentTag_of_takeAll (by rintro ⟨⟩) accepts taken ordinary item
  | hole place h =>
    cases place with
    | text =>
      rw [Item.filled] at mem
      split at mem
      · simp at mem
      · obtain rfl : name = "text-node" := by simpa using mem
        rfl
    | attributeValue => simp [Item.filled] at mem
    | _ => cases mem

/-! ## Marks -/

/-- The start tag of an element, with a mark if it hosts a binder. -/
def printTag (mark name : String) (parts : List TagPart) (isHost : Bool) : String :=
  "<" ++ name ++ String.join ((attributeMap parts).map attributeMarkup) ++
    (if isHost then mark else "") ++ ">"

mutual

/-- The markup of a node, with any mark for the elements that host binders. -/
def Node.print (mark : String) : Node → String
  | .text text => text
  | .comment text => "<!--" ++ text ++ "-->"
  | .hole h => (if h.block then Target.block else Target.text).placeholder
  | .component _ _ => Target.component.placeholder
  | .void name _ parts _ => printTag mark name parts (hosts parts [])
  | .element name _ parts children ending =>
    printTag mark name parts (hosts parts children) ++ Forest.print mark children ++
      ("</" ++ ending.name ++ ">")

/-- The markup of nodes in order. -/
def Forest.print (mark : String) : Forest → String
  | [] => ""
  | n :: F => n.print mark ++ Forest.print mark F

end

/-- The mark of a fragment. -/
lemma Forest.print_bindMark (F : Forest) : F.print bindMark = F.html := by
  induction F using Forest.induction with
  | nil => rfl
  | cons n F children others =>
    have node : n.print bindMark = n.html := by
      cases n with
      | element name notVoid parts C ending =>
        rw [Node.print, show Forest.print bindMark C = Forest.html C from children]
        rfl
      | _ => rfl
    rw [Forest.print, Forest.html, node, others]

/-! ## The markup of filled forests -/

/-- The value of a hole as a fixed one. -/
def AttributeValue.filled : AttributeValue → AttributeValue
  | .fixed text => .fixed text
  | .bound => .fixed ""

/-- The last value of a name is filled in. -/
lemma lastValue_filled (parts : List TagPart) (name : String) :
    lastValue (parts.map TagPart.filled) name = (lastValue parts name).map .filled := by
  have named (p : TagPart) : p.filled.name = p.name := by cases p <;> rfl
  have valued (p : TagPart) : p.filled.value = p.value.filled := by cases p <;> rfl
  simp only [lastValue, ← List.map_reverse, List.find?_map, Function.comp_def, named,
    Option.map_map, valued]

/-- A filled attribute is written as the hole was. -/
lemma attributeMarkup_filled (parts : List TagPart) :
    (attributeMap (parts.map TagPart.filled)).map attributeMarkup =
      (attributeMap parts).map attributeMarkup := by
  have names : (parts.map TagPart.filled).map TagPart.name = parts.map TagPart.name := by
    rw [List.map_map]
    exact List.map_congr_left fun p _ => by cases p <;> rfl
  have written (name : String) (value : AttributeValue) :
      attributeMarkup (name, value.filled) = attributeMarkup (name, value) := by
    cases value with
    | fixed text => rfl
    | bound =>
      rw [← String.toList_inj, AttributeValue.filled, Markup.toList_attributeMarkup name (by simp)]
      simp [attributeMarkup, toString]
  simp only [attributeMap, names, lastValue_filled, List.map_filterMap, Option.map_map,
    Function.comp_def, written]

/-- There is no component among nodes. -/
def Forest.IsOrdinary (F : Forest) : Prop := ∀ name h, .hole (.tagName name) h ∉ F.items

namespace Forest

/-- A forest without components has none in front, none inside and none behind. -/
lemma IsOrdinary.cons {n : Node} {F : Forest} (h : IsOrdinary (n :: F)) :
    (∀ factory parts, n ≠ .component factory parts) ∧ IsOrdinary n.children ∧ IsOrdinary F := by
  refine ⟨?_, ?_, fun name f mem => h name f (List.mem_append_right _ mem)⟩
  · rintro factory parts rfl
    exact h componentTag factory (List.mem_append_left _ List.mem_cons_self)
  · intro name f mem
    cases n with
    | element => exact h name f (List.mem_append_left _
        (List.mem_append_left _ (List.mem_append_right _ mem)))
    | _ => cases mem

/-- No binder is left where the holes are filled. -/
lemma any_isPlaceholder_filled {F : Forest} (h : F.IsOrdinary) :
    F.filled.any Node.isPlaceholder = false := by
  induction F with
  | nil => rfl
  | cons n F ih =>
    obtain ⟨ordinary, -, rest⟩ := h.cons
    have node : n.filled.isPlaceholder = false := by
      cases n with
      | component factory parts => exact absurd rfl (ordinary factory parts)
      | hole h =>
        rw [Node.filled]
        split <;> rfl
      | _ => rfl
    rw [filled, List.any_cons, node, ih rest, Bool.or_false]

/-- No element is a host once the holes are filled. -/
lemma hosts_filled (parts : List TagPart) {F : Forest} (h : F.IsOrdinary) :
    hosts (parts.map TagPart.filled) F.filled = false := by
  have fixed : (parts.map TagPart.filled).any TagPart.isHole = false := by
    rw [List.any_map, List.any_eq_false]
    intro p _
    cases p <;> exact Bool.false_ne_true
  rw [hosts, fixed, any_isPlaceholder_filled h, Bool.or_false]

/-- The start tag of a filled element is the one without a marker. -/
lemma startTag_filled (name : String) (parts : List TagPart) {F : Forest} (h : F.IsOrdinary) :
    startTag name (parts.map TagPart.filled) (hosts (parts.map TagPart.filled) F.filled) =
      printTag "" name parts (hosts parts F) := by
  rw [startTag, printTag, attributeMarkup_filled, hosts_filled parts h]
  simp

/-- A filled element has no group. -/
lemma groupOf_filled (parts : List TagPart) {F : Forest} (h : F.IsOrdinary) :
    groupOf (ownBinders (parts.map TagPart.filled) F.filled) = [] := by
  have hosted := hosts_filled parts h
  rw [hosts_eq, Bool.not_eq_false'] at hosted
  rw [groupOf, if_pos hosted]

/-- A filled forest has the markup of its placeholders, without marks and without binders. -/
lemma html_filled {F : Forest} (h : F.IsOrdinary) :
    F.filled.html = F.print "" ∧ F.filled.groups = [] := by
  induction F using Forest.induction with
  | nil => exact ⟨rfl, rfl⟩
  | cons n F children others =>
    obtain ⟨ordinary, inside, rest⟩ := h.cons
    obtain ⟨html, groups⟩ := others rest
    have node : n.filled.html = n.print "" ∧ n.filled.groups = [] := by
      cases n with
      | component factory parts => exact absurd rfl (ordinary factory parts)
      | text | comment => exact ⟨rfl, rfl⟩
      | hole hole =>
        rw [Node.filled, Node.print]
        split_ifs <;> exact ⟨rfl, rfl⟩
      | void name isVoid parts selfClosing =>
        have inside : IsOrdinary [] := inside
        have tag := startTag_filled name parts inside
        have own := groupOf_filled parts inside
        exact ⟨tag, own⟩
      | element name notVoid parts C ending =>
        have inside : IsOrdinary C := inside
        obtain ⟨html, groups⟩ : (filled C).html = print "" C ∧ (filled C).groups = [] :=
          children inside
        rw [Node.filled, Node.html, Node.print, Node.groups, startTag_filled name parts inside,
          groupOf_filled parts inside, html, groups]
        exact ⟨rfl, rfl⟩
    rw [filled, Forest.html, Forest.groups, node.1, node.2, html, groups]
    exact ⟨rfl, rfl⟩

/-- A filled forest has no groups. -/
lemma allGroups_filled {F : Forest} (h : F.IsOrdinary) : F.filled.allGroups = [] := by
  have placeholder := any_isPlaceholder_filled h
  rw [any_isPlaceholder, Bool.not_eq_false'] at placeholder
  rw [allGroups, (html_filled h).2, groupOf, if_pos placeholder]
  rfl

end Forest

/-! ## Attributes of holes -/

/-- A hole in an attribute is a binder of its element. -/
lemma mem_ownBinders_of_hole {tag : String} {parts : List TagPart} {selfClosing : Bool}
    {name : String} {h : Hole}
    (mem : .hole (.attributeValue name) h ∈ startItems tag parts selfClosing) (C : Forest) :
    h.binder .attribute (.attribute name) ∈ ownBinders parts C := by
  obtain ⟨p, own, item⟩ : ∃ p ∈ parts, p.item = .hole (.attributeValue name) h := by
    simpa [startItems] using mem
  cases p with
  | fixed => cases item
  | hole =>
    cases item
    exact List.mem_append_left _ (List.mem_filterMap.2 ⟨_, own, rfl⟩)

/-- The hole of a value is bound in a group of the forest. -/
lemma Forest.exists_group_of_hole {F : Forest} (ordinary : F.IsOrdinary) {name : String} {h : Hole}
    (mem : .hole (.attributeValue name) h ∈ F.items) :
    ∃ g ∈ F.groups, h.binder .attribute (.attribute name) ∈ g := by
  have own {parts : List TagPart} {C : Forest}
      (mem : h.binder .attribute (.attribute name) ∈ ownBinders parts C) :
      ownBinders parts C ∈ groupOf (ownBinders parts C) :=
    mem_groupOf.2 ⟨rfl, List.ne_nil_of_mem mem⟩
  induction F using Forest.induction with
  | nil => cases mem
  | cons n F children others =>
    obtain ⟨noComponent, inside, rest⟩ := ordinary.cons
    obtain mem | mem := List.mem_append.1 mem
    · suffices node : ∃ g ∈ n.groups, h.binder .attribute (.attribute name) ∈ g by
        obtain ⟨g, mem, own⟩ := node
        exact ⟨g, List.mem_append_left _ mem, own⟩
      cases n with
      | text | comment | hole => simp [Node.items] at mem
      | component factory parts => exact absurd rfl (noComponent factory parts)
      | void tag isVoid parts selfClosing =>
        have mem := mem_ownBinders_of_hole mem []
        exact ⟨_, own mem, mem⟩
      | element tag notVoid parts C ending =>
        obtain mem | mem := List.mem_append.1 mem
        · obtain mem | mem := List.mem_append.1 mem
          · have mem := mem_ownBinders_of_hole mem C
            exact ⟨_, List.mem_append_left _ (own mem), mem⟩
          · obtain ⟨g, mem, own⟩ := children inside mem
            exact ⟨g, List.mem_append_right _ mem, own⟩
        · cases ending <;> simp [Ending.items] at mem
    · obtain ⟨g, mem, own⟩ := others rest mem
      exact ⟨g, List.mem_append_right _ mem, own⟩

/-- A hole in an attribute has a part in the forest. -/
lemma mem_kept_of_attributeValue {is : List Item} {name : String} {h : Hole}
    (mem : .hole (.attributeValue name) h ∈ is) : .hole (.attributeValue name) h ∈ kept is := by
  fun_induction kept is <;> grind

/-- A binder of a group is numbered. -/
lemma mem_numbered_of_mem {groups : List (List Binder)} {g : List Binder} {b : Binder}
    (mem : g ∈ groups) (own : b ∈ g) : ∃ j, { b with node := some j } ∈ numbered groups := by
  obtain ⟨j, here⟩ := List.mem_iff_getElem?.1 mem
  refine ⟨j, List.mem_flatMap.2 ⟨(g, j), List.mem_zipIdx_iff_getElem?.2 here, ?_⟩⟩
  exact List.mem_map.2 ⟨b, own, rfl⟩

/-- Holes are taken in texts, in values and as components only. -/
lemma Skeleton.place_of_takeAll {s s' : Skeleton} {is : List Item} (ok : s.takeAll is = .ok s')
    {place : Markup.Place} {h : Hole} (mem : .hole place h ∈ is) :
    place = .text ∨ (∃ name, place = .attributeValue name) ∨ place = .tagName componentTag := by
  induction is generalizing s with
  | nil => cases mem
  | cons i is ih =>
    obtain ⟨t, taken, rest⟩ := takeAll_cons_ok.1 ok
    obtain rfl | mem := List.mem_cons.1 mem
    · exact takeHole_place taken
    · exact ih rest mem

/-- A template without holes in the names of tags has no components. -/
lemma isOrdinary_of_nest {is : List Item} {F : Forest} (nested : nest is = some F)
    (ordinary : ∀ name h, .hole (.tagName name) h ∉ is) : F.IsOrdinary := by
  intro name h mem
  rw [items_nest nested] at mem
  exact ordinary name h (mem_of_mem_kept mem)

/-- In a template without components, the attributes of holes have names if their binders have. -/
lemma place_of_named {chunks : List String} {expressions : List Expression} {fragment : Fragment}
    (ok : parse chunks expressions = .ok fragment)
    (ordinary : ∀ name h, .hole (.tagName name) h ∉ items chunks expressions)
    (named : ∀ b ∈ fragment.binders, b.index ≠ .attribute "") {place : Markup.Place} {h : Hole}
    (mem : .hole place h ∈ items chunks expressions) :
    place = .text ∨ ∃ name, place = .attributeValue name ∧ name ≠ "" := by
  obtain ⟨-, -, s, taken, -⟩ := parse_ok ok
  obtain rfl | ⟨name, rfl⟩ | rfl := Skeleton.place_of_takeAll taken mem
  · exact .inl rfl
  · refine .inr ⟨name, rfl, ?_⟩
    rintro rfl
    obtain ⟨F, nested, rfl⟩ := parse_nests ok
    have isOrdinary := isOrdinary_of_nest nested ordinary
    have inForest := mem_kept_of_attributeValue mem
    rw [← items_nest nested] at inForest
    obtain ⟨g, group, own⟩ := F.exists_group_of_hole isOrdinary inForest
    obtain ⟨j, binder⟩ := mem_numbered_of_mem (List.mem_append_left _ group) own
    exact named _ binder rfl
  · exact absurd mem (ordinary componentTag h)

/-! ## Filled templates -/

/-- Markup without holes is read in one piece. -/
lemma parse_markup {markup : String} {s : Skeleton}
    (fault : (({} : Markup.Lexer).write markup).fault = none)
    (ended : (({} : Markup.Lexer).write markup).lexer.finish.fault = none)
    (taken : Skeleton.handleAll {} ((({} : Markup.Lexer).write markup).events ++
      (({} : Markup.Lexer).write markup).lexer.finish.events) = .ok s) :
    parse [markup] [] = .ok s.finish := by
  rw [Parser.handleAll_append] at taken
  cases first : Skeleton.handleAll {} (({} : Markup.Lexer).write markup).events with
  | error cause =>
    rw [first] at taken
    cases taken
  | ok t =>
    rw [first] at taken
    have taken : t.handleAll (({} : Markup.Lexer).write markup).lexer.finish.events = .ok s := taken
    simp only [parse, List.length_nil, if_true, List.zip_nil_left, Parser.run, Parser.write,
      Parser.take, first, fault, Parser.finish, taken, ended]

/-- A template without components, whose attributes have names, is read like its markup with the
placeholders in place of the holes. Only the marks of the elements that host binders are left
out. -/
theorem parse_filled {chunks : List String} {expressions : List Expression} {fragment : Fragment}
    (ok : parse chunks expressions = .ok fragment)
    (ordinary : ∀ name h, .hole (.tagName name) h ∉ items chunks expressions)
    (named : ∀ b ∈ fragment.binders, b.index ≠ .attribute "") :
    ∃ F, nest (items chunks expressions) = some F ∧ fragment.html = F.print bindMark ∧
      parse [filledMarkup chunks expressions] [] = .ok { html := F.print "", binders := [] } := by
  obtain ⟨-, accepts, s, taken, -⟩ := parse_ok ok
  obtain ⟨F, nested, rfl⟩ := parse_nests ok
  have isOrdinary := isOrdinary_of_nest nested ordinary
  obtain ⟨fault, ended, events⟩ :=
    items_filledMarkup ok fun place h mem => place_of_named ok ordinary named mem
  obtain ⟨s', taken'⟩ := Skeleton.handleAll_filled accepts taken ordinary
  rw [events] at taken'
  have parsed := parse_markup fault ended taken'
  obtain ⟨G, nested', fragment⟩ := parse_nests parsed
  have same : items [filledMarkup chunks expressions] [] =
      ((items chunks expressions).flatMap Item.filled).map .event := by
    rw [events, items, List.zip_nil_left, itemsFrom, Markup.Outcome.andThen_of_none fault]
    rfl
  rw [same, nest_filled nested ordinary] at nested'
  cases nested'
  refine ⟨F, nested, F.print_bindMark.symm, ?_⟩
  rw [parsed, fragment, (Forest.html_filled isOrdinary).1, Forest.allGroups_filled isOrdinary]
  rfl

/-- Attributes with quotes and without, a text behind another, and a block. -/
theorem parse_filled_list :
    let chunks := ["<ul a=", " b='*", "'><li>x", "</li>", "#"]
    let expressions : List Expression :=
      [{ source := "w" }, { source := "x" }, { source := "y" }, { source := "z" }]
    let fragment : Fragment :=
      { html := "<ul a=\"\" b=\"\" data-bind><li data-bind>x<text-node></text-node></li>" ++
          "<!-- block --></ul>"
        binders := [
          { target := .attribute, sigil := .none, expression := { source := "w" }, slot := 0,
            index := .attribute "a", node := some 0 },
          { target := .attribute, sigil := .map, expression := { source := "x" }, slot := 1,
            index := .attribute "b", node := some 0 },
          { target := .block, sigil := .none, expression := { source := "z" }, slot := 3,
            index := .child 1, node := some 0 },
          { target := .text, sigil := .none, expression := { source := "y" }, slot := 2,
            index := .child 1, node := some 1 }] }
    (parse chunks expressions = .ok fragment ∧
      (∀ name h, .hole (.tagName name) h ∉ items chunks expressions) ∧
      (∀ b ∈ fragment.binders, b.index ≠ .attribute "") ∧
      filledMarkup chunks expressions =
        "<ul a=\"\" b=''><li>x<text-node></text-node></li><!-- block -->") ∧
    ∃ F, nest (items chunks expressions) = some F ∧ fragment.html = F.print bindMark ∧
      parse [filledMarkup chunks expressions] [] = .ok { html := F.print "", binders := [] } := by
  intro chunks expressions fragment
  have ok : parse chunks expressions = .ok fragment := rfl
  have ordinary : ∀ name h, .hole (.tagName name) h ∉ items chunks expressions := by
    have all : ∀ i ∈ items chunks expressions, startsWithFactory [i] = false := by decide +kernel
    intro name h mem
    cases all _ mem
  have named : ∀ b ∈ fragment.binders, b.index ≠ .attribute "" := by decide +kernel
  exact ⟨⟨ok, ordinary, named, by decide +kernel⟩, parse_filled ok ordinary named⟩

end TaggedMarkup.Template

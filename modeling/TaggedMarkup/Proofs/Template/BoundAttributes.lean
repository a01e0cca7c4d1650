import Mathlib
import TaggedMarkup.Proofs.Template.HoleValues
import TaggedMarkup.Proofs.Template.ReadBack

/-!
# Bound attributes

The binder of an attribute, and a property of a component that is no literal, come from a hole in
the value of an attribute (`Binder.IsWrittenIn`). The start tag of the element then shows the
attribute once, with the empty value of a placeholder, unless a fixed value for the same name stands
further on in the tag (`Binder.IsShownIn`).

The hole is the whole value, but for other holes between the same quotes (`parse_attributes`). The
first of these has the name of the attribute, and the others have none.
-/

namespace TaggedMarkup.Template

/-! ## Elements in a forest -/

/-- The start tag of an element stands in markup, and its attributes and children are among
items. -/
structure ShowsElement (html : String) (is : List Item) (parts : List TagPart) (C : Forest) :
    Prop where
  startTag : ∃ tag front back, html = front ++ startTag tag parts true ++ back
  attributes : parts.map TagPart.item ⊆ is
  children : C.items ⊆ is

/-- An element that is shown in a part of a text is shown in the whole. -/
lemma ShowsElement.within {html : String} {is is' : List Item} {parts : List TagPart} {C : Forest}
    (h : ShowsElement html is parts C) (before behind : String) (sub : is ⊆ is') :
    ShowsElement (before ++ html ++ behind) is' parts C := by
  obtain ⟨⟨tag, front, back, rfl⟩, attributes, children⟩ := h
  refine ⟨⟨tag, before ++ front, back ++ behind, ?_⟩, List.Subset.trans attributes sub,
    List.Subset.trans children sub⟩
  simp only [String.append_assoc]

/-- The start tag comes first in an element. -/
lemma showsElement_own {tag : String} {parts : List TagPart} {C : Forest} {is : List Item}
    {selfClosing : Bool} (isHost : hosts parts C = true)
    (items : startItems tag parts selfClosing ++ C.items ⊆ is) (rest : String) :
    ShowsElement (startTag tag parts (hosts parts C) ++ rest) is parts C := by
  obtain ⟨start, children⟩ := List.append_subset.1 items
  refine ⟨⟨tag, "", rest, by rw [isHost, String.empty_append]⟩, fun i mem => start ?_, children⟩
  exact List.mem_append_left _ (List.mem_cons_of_mem _ mem)

/-- A node shows its hosts, if its children do. -/
lemma Node.showsElement {n : Node} {parts : List TagPart} {C : Forest}
    (children : (parts, C) ∈ n.children.hostElements →
      ShowsElement n.children.html n.children.items parts C)
    (mem : (parts, C) ∈ n.hostElements) : ShowsElement n.html n.items parts C := by
  cases n with
  | void name isVoid parts' selfClosing =>
    rw [Node.hostElements] at mem
    split at mem
    · rename_i isHost
      cases List.mem_singleton.1 mem
      have items : startItems name parts selfClosing ++ Forest.items [] ⊆
          startItems name parts selfClosing := by simp [Forest.items]
      rw [Node.html, Node.items, ← String.append_empty (s := startTag name parts _)]
      exact showsElement_own isHost items ""
    · cases mem
  | element name notVoid parts' F ending =>
    rw [Node.hostElements] at mem
    rw [Node.html, Node.items]
    obtain own | inside := List.mem_append.1 mem
    · split at own
      · rename_i isHost
        cases List.mem_singleton.1 own
        rw [String.append_assoc]
        exact showsElement_own isHost (List.subset_append_left _ _) _
      · cases own
    · refine (children inside).within _ _ fun i mem => ?_
      exact List.mem_append_left _ (List.mem_append_right _ mem)
  | _ => cases mem

/-- A forest shows its hosts. -/
lemma Forest.showsElement {F : Forest} {parts : List TagPart} {C : Forest}
    (mem : (parts, C) ∈ F.hostElements) : ShowsElement F.html F.items parts C := by
  induction F using Forest.induction with
  | nil => cases mem
  | cons n F children others =>
    rw [hostElements] at mem
    rw [html, items]
    obtain here | there := List.mem_append.1 mem
    · rw [← String.empty_append (s := n.html)]
      exact (n.showsElement children here).within "" _ (List.subset_append_left _ _)
    · rw [← String.append_empty (s := n.html ++ html F)]
      exact (others there).within _ "" (List.subset_append_right _ _)

/-! ## Holes of attributes -/

/-- The binders of placeholders are not those of attributes. -/
lemma Forest.target_of_mem_binders {C : Forest} {b : Binder} (mem : b ∈ C.binders) :
    b.target ≠ .attribute := by
  obtain ⟨⟨n, i⟩, -, eq⟩ := List.mem_filterMap.1 mem
  cases n with
  | hole h =>
    cases eq
    simp only [Hole.binder]
    split <;> simp
  | component factory parts =>
    cases eq
    simp [Hole.binder]
  | _ => cases eq

/-- The binder of an attribute is that of a hole in the tag. -/
lemma exists_part_of_mem_ownBinders {parts : List TagPart} {C : Forest} {b : Binder}
    (mem : b ∈ ownBinders parts C) (target : b.target = .attribute) :
    ∃ name h, .hole name h ∈ parts ∧ b = h.binder .attribute (.attribute name) := by
  obtain ofTag | ofChild := List.mem_append.1 mem
  · obtain ⟨p, isPart, eq⟩ := List.mem_filterMap.1 ofTag
    cases p with
    | fixed name value => cases eq
    | hole name h =>
      cases eq
      exact ⟨name, h, isPart, rfl⟩
  · exact absurd target (Forest.target_of_mem_binders ofChild)

/-- A property that is no literal is that of a hole in the tag of a component. -/
lemma Forest.exists_hole_of_mem_properties {C : Forest} {b p : Binder} (mem : b ∈ C.binders)
    (own : p ∈ b.properties) (bound : p.expression.isLiteral = false) :
    ∃ name h, .hole (.attributeValue name) h ∈ C.items ∧
      p = h.binder .attribute (.attribute name) := by
  obtain ⟨⟨n, i⟩, inside, eq⟩ := List.mem_filterMap.1 mem
  cases n with
  | hole h =>
    cases eq
    cases own
  | component factory parts =>
    cases eq
    obtain ⟨part, isPart, rfl⟩ := List.mem_map.1 own
    cases part with
    | fixed name text => cases bound
    | hole name h =>
      refine ⟨name, h, ?_, rfl⟩
      have isChild : .component factory parts ∈ C :=
        List.mem_of_getElem? (List.mem_zipIdx_iff_getElem?.1 inside)
      obtain ⟨before, behind, rfl⟩ := List.append_of_mem isChild
      have inTag : Item.hole (.attributeValue name) h ∈ parts.map TagPart.item :=
        List.mem_map.2 ⟨_, isPart, rfl⟩
      simp [Forest.items, Node.items, startItems, inTag]
  | _ => cases eq

/-- An attribute of an element or of a component has its hole among the items. -/
lemma Forest.exists_hole_of_mem_entries {F : Forest} {b e : Binder}
    (mem : b ∈ numbered F.allGroups) (entry : e ∈ b.entries) (target : e.target = .attribute) :
    ∃ name h, .hole (.attributeValue name) h ∈ F.items ∧ e.index = .attribute name ∧
      e.origin = h.origin := by
  obtain ⟨j, g, b₀, group, inGroup, rfl⟩ := mem_numbered mem
  have ofProperty {C : Forest} (own : b₀ ∈ C.binders) (sub : C.items ⊆ F.items)
      (property : e ∈ b₀.properties.filter fun p => !p.expression.isLiteral) :
      ∃ name h, .hole (.attributeValue name) h ∈ F.items ∧ e.index = .attribute name ∧
        e.origin = h.origin := by
    obtain ⟨inside, bound⟩ := List.mem_filter.1 property
    obtain ⟨name, h, item, rfl⟩ :=
      Forest.exists_hole_of_mem_properties own inside (by simpa using bound)
    exact ⟨name, h, sub item, rfl, rfl⟩
  obtain ⟨parts, C, host, rfl⟩ | ⟨-, rfl⟩ := Forest.host_of_group group
  · obtain ⟨-, attributes, children⟩ := Forest.showsElement (List.mem_of_getElem? host)
    obtain rfl | property := List.mem_cons.1 entry
    · obtain ⟨name, h, isPart, rfl⟩ := exists_part_of_mem_ownBinders inGroup target
      exact ⟨name, h, attributes (List.mem_map.2 ⟨_, isPart, rfl⟩), rfl, rfl⟩
    · obtain ofTag | ofChild := List.mem_append.1 inGroup
      · obtain ⟨p, -, eq⟩ := List.mem_filterMap.1 ofTag
        cases p <;> cases eq
        cases property
      · exact ofProperty ofChild children property
  · obtain rfl | property := List.mem_cons.1 entry
    · exact (Forest.target_of_mem_binders inGroup target).elim
    · exact ofProperty inGroup (List.Subset.refl _) property

/-! ## The value in the start tag -/

/-- A start tag shows each name once, with its last value. -/
lemma filter_attributeMap {parts : List TagPart} {name : String} {value : AttributeValue}
    (last : lastValue parts name = some value) :
    (attributeMap parts).filter (·.1 = name) = [(name, value)] := by
  have mem : name ∈ (parts.map TagPart.name).eraseDups := by
    obtain ⟨p, found, -⟩ := Option.map_eq_some_iff.1 last
    refine List.mem_eraseDups.2 (List.mem_map.2 ⟨p, ?_, by simpa using List.find?_some found⟩)
    exact List.mem_reverse.1 (List.mem_of_find?_eq_some found)
  have once : (parts.map TagPart.name).eraseDups.filter (· = name) = [name] := by
    rw [List.filter_eq, List.count_eq_one_of_mem (nodup_eraseDups _) mem, List.replicate_one]
  calc (attributeMap parts).filter (·.1 = name)
      = ((parts.map TagPart.name).eraseDups.filter (· = name)).filterMap fun n =>
          (lastValue parts n).map fun v => (n, v) := by
        rw [attributeMap, List.filter_filterMap, List.filterMap_filter]
        apply List.filterMap_congr
        intro n _
        cases lastValue parts n <;> by_cases same : n = name <;> simp [same, Option.filter]
    _ = [(name, value)] := by
        rw [once, List.filterMap_cons, last]
        rfl

/-- The value of an attribute with a hole is that of a placeholder, unless it is set again. -/
lemma lastValue_hole (before after : List TagPart) (name : String) (h : Hole) :
    lastValue (before ++ .hole name h :: after) name =
      some ((lastValue after name).getD .bound) := by
  simp only [lastValue, List.reverse_append, List.reverse_cons, List.append_assoc,
    List.find?_append]
  cases after.reverse.find? fun p => p.name = name with
  | none => simp [TagPart.name, TagPart.value]
  | some p => simp

/-! ## The attributes of a template -/

/-- A binder comes from a hole in the value of an attribute, whose name it has unless another hole
stands in the same value in front of it. -/
def Binder.IsWrittenIn (signals : List Signal) (b : Binder) : Prop :=
  ∃ name h earlier later, HasHoleValue signals name (earlier ++ h :: later) ∧
    b.origin = h.origin ∧ b.index = .attribute (if earlier = [] then name else "")

/-- The element of a binder has a hole for it in its tag. The start tag in the markup shows the
attribute once, with the last value that follows in the tag, and else with that of a
placeholder. -/
def Binder.IsShownIn (F : Forest) (b : Binder) : Prop :=
  ∃ j parts C name h before after,
    b = { h.binder .attribute (.attribute name) with node := some j } ∧
    F.hostElements[j]? = some (parts, C) ∧ parts = before ++ .hole name h :: after ∧
    (∃ tag front back, F.html = front ++ startTag tag parts true ++ back) ∧
    (attributeMap parts).filter (·.1 = name) = [(name, (lastValue after name).getD .bound)]

/-- The binders of attributes, and the properties of components that are no literals, are written as
holes in the values of named attributes. Beside the hole there is no text in the value, and without
quotes no other hole. Between quotes there may be more, and only the first of them has the name. The
start tag of the element shows an attribute of the name once, and its value is empty unless a fixed
one follows in the tag. -/
theorem parse_attributes {chunks : List String} {expressions : List Expression}
    {fragment : Fragment} (ok : parse chunks expressions = .ok fragment) :
    ∃ F : Forest, nest (items chunks expressions) = some F ∧ fragment.html = F.html ∧
      (∀ b ∈ fragment.binders, ∀ e ∈ b.entries, e.target = .attribute →
        e.IsWrittenIn (signals chunks expressions)) ∧
      ∀ b ∈ fragment.binders, b.target = .attribute → b.IsShownIn F := by
  obtain ⟨F, nested, rfl⟩ := parse_nests ok
  refine ⟨F, nested, rfl, ?_, ?_⟩
  · intro b mem e entry target
    obtain ⟨name, h, item, index, origin⟩ := Forest.exists_hole_of_mem_entries mem entry target
    rw [items_nest nested] at item
    obtain ⟨written, earlier, later, value, rfl⟩ :=
      holeValue_of_mem_items ok (mem_of_mem_kept item)
    exact ⟨written, h, earlier, later, value, origin, index⟩
  · intro b mem target
    obtain ⟨j, g, b₀, group, inGroup, rfl⟩ := mem_numbered mem
    obtain ⟨parts, C, host, rfl⟩ | ⟨-, rfl⟩ := Forest.host_of_group group
    · obtain ⟨name, h, isPart, rfl⟩ := exists_part_of_mem_ownBinders inGroup target
      obtain ⟨before, after, rfl⟩ := List.append_of_mem isPart
      have shown := (Forest.showsElement (List.mem_of_getElem? host)).startTag
      exact ⟨j, _, C, name, h, before, after, rfl, host, rfl, shown,
        filter_attributeMap (lastValue_hole before after name h)⟩
    · exact (Forest.target_of_mem_binders inGroup target).elim

/-- Two holes between the same quotes, and one whose value is set again. The second has no name. -/
theorem parse_attributes_anchor :
    let chunks := ["<a b=\"", "", "\" c=", "d c='1'>"]
    let expressions : List Expression := [{ source := "x" }, { source := "y" }, { source := "z" }]
    let binder (source : String) (slot : Nat) (name : String) : Binder :=
      { target := .attribute, sigil := .none, expression := { source := source }, slot := slot,
        index := .attribute name, node := some 0 }
    let fragment : Fragment :=
      { html := "<a b=\"\" =\"\" c=\"1\" d=\"\" data-bind></a>"
        binders := [binder "x" 0 "b", binder "y" 1 "", binder "z" 2 "c"] }
    parse chunks expressions = .ok fragment ∧
      (∀ b ∈ fragment.binders, b.IsWrittenIn (signals chunks expressions)) ∧
      ∃ F, nest (items chunks expressions) = some F ∧ fragment.html = F.html ∧
        ∀ b ∈ fragment.binders, b.IsShownIn F := by
  intro chunks expressions binder fragment
  have ok : parse chunks expressions = .ok fragment := rfl
  have target : ∀ b ∈ fragment.binders, b.target = .attribute := by
    simp [fragment, binder]
  obtain ⟨F, nested, html, written, shown⟩ := parse_attributes ok
  refine ⟨ok, ?_, F, nested, html, fun b mem => shown b mem (target b mem)⟩
  intro b mem
  exact written b mem b List.mem_cons_self (target b mem)

end TaggedMarkup.Template

import Mathlib
import TaggedMarkup.Proofs.Template.Apart
import TaggedMarkup.Proofs.Template.Fragment
import TaggedMarkup.Proofs.Template.Shown

/-!
# Where placeholders stand in the markup

The index of a binder among child nodes is counted while a template is read, and the markup is
written beside it. Here the markup is read back (`readBack`), and the two are compared
(`parse_readBack`): the forest in the markup is that of the template as it shows, and a placeholder
stands in it at its index, less the pairs of texts that meet in front of it. Texts meet where the
end tag of a void element was dropped between them: they were counted twice, and are one node.

Markup cannot be read back where an attribute has no name, which happens to the second of two holes
between the same quotes.
-/

namespace TaggedMarkup.Template

open Markup (Lexer Piece isVoid tokenize)

/-- The forest of markup, with every run of texts as one node. There is none if the lexer cannot
read the markup, or if its tags do not nest. -/
def readBack (html : String) : Option Forest :=
  match (tokenize html).fault with
  | some _ => none
  | none => (nest ((tokenize html).events.map .event)).map Forest.joined

/-- The markup of a legible forest in which texts meet plainly is read back as it shows, if all
attributes have names, and else not at all. -/
lemma readBack_html {F : Forest} (legible : ∀ i ∈ F.items, i.Legible)
    (plainly : F.meetPlainly = true) :
    readBack F.html = if F.isNamed then some (Forest.joined F).shown else none := by
  have start : Lexer.empty.Pending "" := ⟨rfl, .inl ⟨rfl, rfl⟩⟩
  have apart := Forest.textsApart_pieces F.textsApart_joined
  have pieces := Forest.legible_pieces (Forest.legible_joined plainly legible)
  -- The lexer reports texts that meet as one, so the pieces to read are those of the joined forest.
  rw [← F.html_joined, Forest.html_eq, ← F.isNamed_joined]
  by_cases isNamed : (Forest.joined F).isNamed = true
  · obtain ⟨fault, events⟩ := Piece.run start (pieces.legible_iff.2 isNamed) apart (.inl rfl)
    have shows : (Forest.joined F).shown.textsApart = true := by
      rw [Forest.textsApart_shown, Forest.textsApart_joined]
    rw [if_pos isNamed, readBack, tokenize, Lexer.write, fault, events]
    simp only [Markup.textEvents, if_true, List.nil_append, List.map_append, ← Forest.items_shown,
      List.map_cons, List.map_nil, Forest.nest_shown, Option.map_some, Forest.joined_eq_self shows]
  · have illegible : ∃ p ∈ (Forest.joined F).pieces, ¬p.Legible := by
      by_contra all
      push Not at all
      exact isNamed (pieces.legible_iff.1 all)
    have fault := Piece.run_fault start pieces.butNames illegible apart (.inl rfl)
    obtain ⟨cause, fault⟩ := Option.ne_none_iff_exists'.1 fault
    have stopped : (tokenize (String.join ((Forest.joined F).pieces.map Piece.print))).fault =
        some cause := by
      rw [tokenize, Lexer.write, Markup.Outcome.andThen_of_some fault]
      exact fault
    rw [if_neg isNamed, readBack, stopped]

/-! ## Hosts and their children -/

/-- A binder among child nodes belongs to the placeholder at its index. -/
lemma Forest.exists_of_mem_binders {F : Forest} {b : Binder} (mem : b ∈ F.binders) {k : Nat}
    (index : b.index = .child k) : ∃ n, F[k]? = some n ∧ n.binder? k = some b := by
  obtain ⟨⟨n, i⟩, inside, eq⟩ := List.mem_filterMap.1 mem
  have place : b.index = .child i := by
    cases n <;> cases eq <;> rfl
  rw [index] at place
  cases place
  exact ⟨n, List.mem_zipIdx_iff_getElem?.1 inside, eq⟩

/-- The children of the elements that host binders, and the nodes of the fragment itself. -/
def Forest.hostChildren (F : Forest) : List Forest := F.hostElements.map Prod.snd ++ [F]

/-- A group is that of an element that hosts binders, or the last one, of the fragment itself. -/
lemma Forest.host_of_group {F : Forest} {j : Nat} {g : List Binder}
    (group : F.allGroups[j]? = some g) :
    (∃ parts C, F.hostElements[j]? = some (parts, C) ∧ g = ownBinders parts C) ∨
      j = F.hostElements.length ∧ g = F.binders := by
  rw [allGroups, groups_eq] at group
  by_cases inside : j < F.hostElements.length
  · rw [List.getElem?_append_left (by simpa using inside), List.getElem?_map] at group
    obtain ⟨⟨parts, C⟩, host, rfl⟩ := Option.map_eq_some_iff.1 group
    exact .inl ⟨parts, C, host, rfl⟩
  · rw [List.getElem?_append_right (by simpa using inside), List.length_map] at group
    have short : (groupOf F.binders).length ≤ 1 := by
      cases F.binders <;> simp [groupOf]
    have bound := (List.getElem?_eq_some_iff.1 group).1
    exact .inr ⟨by omega, (mem_groupOf.1 (List.mem_of_getElem? group)).1⟩

/-- A binder with an index among child nodes is that of a child of its host. -/
lemma Forest.exists_host {F : Forest} {j : Nat} {g : List Binder} (group : F.allGroups[j]? = some g)
    {b : Binder} (mem : b ∈ g) {k : Nat} (index : b.index = .child k) :
    ∃ C : Forest, F.hostChildren[j]? = some C ∧ b ∈ C.binders := by
  obtain ⟨parts, C, host, rfl⟩ | ⟨rfl, rfl⟩ := host_of_group group
  · have inside := (List.getElem?_eq_some_iff.1 host).1
    refine ⟨C, ?_, ?_⟩
    · rw [hostChildren, List.getElem?_append_left (by simpa using inside), List.getElem?_map, host]
      rfl
    · obtain ofTag | ofChild := List.mem_append.1 mem
      · obtain ⟨p, -, eq⟩ := List.mem_filterMap.1 ofTag
        cases p with
        | fixed name value => cases eq
        | hole name h =>
          cases eq
          cases index
      · exact ofChild
  · exact ⟨F, by simp [hostChildren], mem⟩

/-- A numbered binder is one of the group with its number. -/
lemma mem_numbered {groups : List (List Binder)} {b : Binder} (mem : b ∈ numbered groups) :
    ∃ (j : Nat) (g : List Binder) (b₀ : Binder),
      groups[j]? = some g ∧ b₀ ∈ g ∧ b = { b₀ with node := some j } := by
  obtain ⟨⟨g, j⟩, inside, inGroup⟩ := List.mem_flatMap.1 mem
  obtain ⟨b₀, own, rfl⟩ := List.mem_map.1 inGroup
  exact ⟨j, g, b₀, List.mem_zipIdx_iff_getElem?.1 inside, own, rfl⟩

/-! ## The two counts -/

/-- An element shows a mark just if it hosts binders, so hosts and marked elements have one
order. -/
lemma Forest.marked_joined_shown (F : Forest) :
    (joined F).shown.marked ++ [(joined F).shown] =
      F.hostChildren.map fun C => (joined C).shown := by
  rw [marked_shown, hostElements_joined, hostChildren, List.map_append, List.map_map, List.map_map]
  rfl

/-- A forest is shown node by node. -/
lemma Forest.shown_eq_map (F : Forest) : F.shown = F.map Node.shown := by
  induction F with
  | nil => rfl
  | cons n F ih => rw [shown, ih, List.map_cons]

/-- A placeholder shows at its number, less the pairs of texts in front of it. -/
lemma Forest.getElem?_joined_shown {C : Forest} {n : Node} {k : Nat} (here : C[k]? = some n)
    (placeholder : n.isPlaceholder = true) :
    ∃ k', k = k' + textPairs (C.take k) ∧ (joined C).shown[k']? = some n.shown := by
  have notText : n.isText = false := by cases n <;> trivial
  have same : n.joined = n := by cases n <;> trivial
  refine ⟨(joined (C.take k)).length, ?_, ?_⟩
  · rw [length_joined, List.length_take]
    have := (List.getElem?_eq_some_iff.1 here).1
    omega
  · rw [shown_eq_map, List.getElem?_map, getElem?_joined here notText, same, Option.map_some]

/-- What has a part in a forest is an item. -/
lemma mem_of_mem_kept {is : List Item} {i : Item} (mem : i ∈ kept is) : i ∈ is := by
  fun_induction kept is <;> grind

/-- The markup of a template is read back as its forest shows (`T`), if texts that meet are plain
together and all attributes have names. If an attribute has none, it is not read back at all.

A binder with a number `k` among child nodes is that of the placeholder `n`, child `k` of its host
in the template. In the markup `n` is the child `k'` of that host, which is `k` less the pairs of
texts that meet in front of it. Without end tags of void elements no texts meet, and `k'` is `k`. -/
theorem parse_readBack {chunks : List String} {expressions : List Expression} {fragment : Fragment}
    (ok : parse chunks expressions = .ok fragment) :
    ∃ F T : Forest, nest (items chunks expressions) = some F ∧ T = (Forest.joined F).shown ∧
      (F.meetPlainly = true → readBack fragment.html = if F.isNamed then some T else none) ∧
      (∀ b ∈ fragment.binders, ∀ k, b.index = .child k →
        ∃ (j : Nat) (C D : Forest) (n : Node) (b₀ : Binder) (k' : Nat),
          b = { b₀ with node := some j } ∧
          F.hostChildren[j]? = some C ∧ C[k]? = some n ∧ n.binder? k = some b₀ ∧
          (T.marked ++ [T])[j]? = some D ∧ D = (Forest.joined C).shown ∧
          k = k' + Forest.textPairs (C.take k) ∧ D[k']? = some n.shown) ∧
      ((∀ name, .event (.closeTag name) ∈ items chunks expressions → isVoid name = false) →
        F.meetPlainly = true ∧ ∀ C ∈ F.hostChildren, ∀ k, Forest.textPairs (C.take k) = 0) := by
  obtain ⟨F, nested, rfl⟩ := parse_nests ok
  refine ⟨F, _, nested, rfl, ?_, ?_, ?_⟩
  · refine readBack_html fun i mem => ?_
    rw [items_nest nested] at mem
    exact legible_of_mem_items i (mem_of_mem_kept mem)
  · intro b mem k index
    obtain ⟨j, g, b₀, group, inGroup, rfl⟩ := mem_numbered mem
    obtain ⟨C, host, own⟩ := Forest.exists_host group inGroup index
    obtain ⟨n, here, binder⟩ := Forest.exists_of_mem_binders own index
    have placeholder : n.isPlaceholder = true := by
      cases n <;> trivial
    obtain ⟨k', number, there⟩ := Forest.getElem?_joined_shown here placeholder
    refine ⟨j, C, _, n, b₀, k', rfl, host, here, binder, ?_, rfl, number, there⟩
    rw [F.marked_joined_shown, List.getElem?_map, host, Option.map_some]
  · intro noVoid
    have apart := textsApart_nest nested (spaced_items _ _) noVoid
    refine ⟨Forest.meetPlainly_of_textsApart apart, fun C mem k => ?_⟩
    apply Forest.textPairs_take_of_textsApart
    obtain inside | root := List.mem_append.1 mem
    · obtain ⟨host, isHost, rfl⟩ := List.mem_map.1 inside
      exact Forest.textsApart_of_mem_hostElements apart host isHost
    · rw [List.mem_singleton.1 root]
      exact apart

/-- The end tag of a void element between two texts: the placeholder is counted as the third child,
and is the second. -/
theorem parse_readBack_paragraph :
    let chunks := ["<p>a</br>b", "</p>"]
    let expressions : List Expression := [{ source := "x" }]
    let fragment : Fragment :=
      { html := "<p data-bind>ab<text-node></text-node></p>"
        binders := [
          { target := .text, sigil := .none, expression := { source := "x" }, slot := 0,
            index := .child 2, node := some 0 }] }
    parse chunks expressions = .ok fragment ∧
      ∃ T : Forest, readBack fragment.html = some T ∧ T.marked = [[.text "ab", textNode]] := by
  intro chunks expressions fragment
  have ok : parse chunks expressions = .ok fragment := rfl
  obtain ⟨F, T, nested, shown, html, -⟩ := parse_readBack ok
  let hole : Hole := ⟨0, .none, false, { source := "x" }⟩
  have eq : F = [.element "p" rfl [] [.text "a", .text "b", .hole hole] (.endTag "p" rfl)] :=
    Option.some.inj (nested.symm.trans rfl)
  subst eq
  refine ⟨ok, T, ?_, ?_⟩
  · exact html (by decide)
  · rw [shown]
    rfl

end TaggedMarkup.Template

import TaggedMarkup.Proofs.Template.Nesting
import TaggedMarkup.Proofs.Template.Slots

/-!
# What reading a template gives

A template that can be read is a forest, and its fragment is the markup of that forest together with
the binders of its marked elements in document order (`parse_forest`). The slots of the binders tell
which expressions reach the fragment (`parse_slots`): all but those of a component that another
expression follows directly.
-/

namespace TaggedMarkup.Template

open Markup (Sigil scanSigil)

/-! ## Numbered groups -/

/-- The numbers of the elements of binders, group by group from `n` on. -/
def numbersFrom (n : Nat) (groups : List (List Binder)) : List Nat :=
  (groups.zipIdx n).flatMap fun (group, j) => group.map fun _ => j

/-- The binders of the first group have the first number. -/
lemma numbersFrom_cons (n : Nat) (group : List Binder) (groups : List (List Binder)) :
    numbersFrom n (group :: groups) = group.map (fun _ => n) ++ numbersFrom (n + 1) groups := by
  simp [numbersFrom, List.zipIdx_cons]

/-- A number stands for each group that is not empty. -/
lemma mem_numbersFrom {n : Nat} {groups : List (List Binder)} (some : ∀ g ∈ groups, g ≠ [])
    (j : Nat) :
    j ∈ numbersFrom n groups ↔ n ≤ j ∧ j < n + groups.length := by
  induction groups generalizing n with
  | nil => simp [numbersFrom]
  | cons group groups ih =>
    obtain ⟨b, rest, rfl⟩ := List.exists_cons_of_ne_nil (some group List.mem_cons_self)
    rw [numbersFrom_cons, List.mem_append, ih fun g mem => some g (List.mem_cons_of_mem _ mem)]
    simp only [List.map_cons, List.mem_cons, List.mem_map, List.length_cons]
    constructor
    · rintro ((rfl | ⟨_, _, rfl⟩) | ⟨lower, upper⟩) <;> omega
    · rintro ⟨lower, upper⟩
      by_cases here : j = n
      · exact .inl (.inl here)
      · exact .inr ⟨by omega, by omega⟩

/-- The numbers of the elements never go down. -/
lemma pairwise_numbersFrom (n : Nat) (groups : List (List Binder)) :
    (numbersFrom n groups).Pairwise (· ≤ ·) ∧ ∀ j ∈ numbersFrom n groups, n ≤ j := by
  induction groups generalizing n with
  | nil => simp [numbersFrom]
  | cons group groups ih =>
    obtain ⟨sorted, above⟩ := ih (n + 1)
    rw [numbersFrom_cons]
    refine ⟨List.pairwise_append.2 ⟨?_, sorted, ?_⟩, ?_⟩
    · simp
    · intro i here j there
      obtain ⟨_, _, rfl⟩ := List.mem_map.1 here
      exact Nat.le_of_succ_le (above j there)
    · intro j mem
      obtain here | there := List.mem_append.1 mem
      · obtain ⟨_, _, rfl⟩ := List.mem_map.1 here
        exact Nat.le_refl n
      · exact Nat.le_of_succ_le (above j there)

/-- Every binder has the number of its group. -/
lemma node_numbered (groups : List (List Binder)) :
    (numbered groups).map Binder.node = (numbersFrom 0 groups).map some := by
  simp only [numbered, numbersFrom, List.map_flatMap, List.map_map]
  rfl

/-- Numbers are no part of the origin of a binder. -/
lemma origins_numbered (groups : List (List Binder)) :
    origins (numbered groups) = origins groups.flatten := by
  have same (group : List Binder) (j : Nat) :
      origins (group.map fun b => { b with node := some j }) = origins group := by
    simp only [origins, List.flatMap_map, List.map_flatMap]
    rfl
  suffices general : ∀ n, origins ((groups.zipIdx n).flatMap fun (group, j) =>
      group.map fun b => { b with node := some j }) = origins groups.flatten from general 0
  induction groups with
  | nil => exact fun _ => rfl
  | cons group groups ih =>
    intro n
    rw [List.zipIdx_cons, List.flatMap_cons, origins_append, ih, same, List.flatten_cons,
      origins_append]

/-! ## Fragments -/

/-- Reading a template nests its items, and the fragment is that of the forest. -/
lemma parse_nests {chunks : List String} {expressions : List Expression} {fragment : Fragment}
    (ok : parse chunks expressions = .ok fragment) :
    ∃ F, nest (items chunks expressions) = some F ∧
      fragment = { html := F.html, binders := numbered F.allGroups } := by
  obtain ⟨-, accepts, s, taken, rfl⟩ := parse_ok ok
  exact takeAll_nests accepts taken

/-- The fragment of a template is its forest in print: the items of the template nest, none is
missing in the forest but those that have no part in it, the markup is that of the forest, and the
binders are the groups of its marked elements in the order of their start tags, with that of the
fragment itself at the end. In each group the slots increase, and the numbers of the groups are
those of the elements, in order and without gaps. -/
theorem parse_forest {chunks : List String} {expressions : List Expression} {fragment : Fragment}
    (ok : parse chunks expressions = .ok fragment) :
    ∃ F : Forest, nest (items chunks expressions) = some F ∧
      F.items = kept (items chunks expressions) ∧
      fragment.html = F.html ∧ fragment.binders = numbered F.allGroups ∧
      (∀ g ∈ F.allGroups, g ≠ [] ∧ (g.map Binder.slot).Pairwise (· < ·)) ∧
      ∃ numbers : List Nat, fragment.binders.map Binder.node = numbers.map some ∧
        numbers.Pairwise (· ≤ ·) ∧ ∀ j, j ∈ numbers ↔ j < F.allGroups.length := by
  obtain ⟨length, -, -⟩ := parse_ok ok
  obtain ⟨F, nested, rfl⟩ := parse_nests ok
  have increasing : ((holes F.items).map Hole.slot).Pairwise (· < ·) := by
    rw [items_nest nested]
    refine List.Pairwise.sublist ((sublist_kept _).map _) ?_
    rw [slot_holes_items length]
    exact List.pairwise_lt_range
  have groups : ∀ g ∈ F.allGroups, g ≠ [] ∧ (g.map Binder.slot).Pairwise (· < ·) := by
    intro g mem
    obtain ⟨some, sub⟩ := F.sublist_allGroups g mem
    exact ⟨some, increasing.sublist sub⟩
  refine ⟨F, nested, items_nest nested, rfl, rfl, groups, _, node_numbered _,
    (pairwise_numbersFrom 0 _).1, fun j => ?_⟩
  rw [mem_numbersFrom (fun g mem => (groups g mem).1)]
  omega

/-- A list with a quote in a fixed attribute and without an end tag of its own, an item that ends in
other letters, and a block behind a void element. -/
theorem parse_forest_list :
    let chunks := ["<ul t='\"q' a=", "><li>", "</LI><br>", "#"]
    let expressions : List Expression := [{ source := "x" }, { source := "y" }, { source := "z" }]
    let fragment : Fragment :=
      { html := "<ul t=\"&quot;q\" a=\"\" data-bind><li data-bind><text-node></text-node></LI>" ++
          "<br><!-- block --></ul>"
        binders := [
          { target := .attribute, sigil := .none, expression := { source := "x" }, slot := 0,
            index := .attribute "a", node := some 0 },
          { target := .block, sigil := .none, expression := { source := "z" }, slot := 2,
            index := .child 2, node := some 0 },
          { target := .text, sigil := .none, expression := { source := "y" }, slot := 1,
            index := .child 0, node := some 1 }] }
    parse chunks expressions = .ok fragment ∧
      ∃ F : Forest, nest (items chunks expressions) = some F ∧
        F.items = kept (items chunks expressions) ∧
        fragment.html = F.html ∧ fragment.binders = numbered F.allGroups ∧
        (∀ g ∈ F.allGroups, g ≠ [] ∧ (g.map Binder.slot).Pairwise (· < ·)) ∧
        ∃ numbers : List Nat, fragment.binders.map Binder.node = numbers.map some ∧
          numbers.Pairwise (· ≤ ·) ∧ ∀ j, j ∈ numbers ↔ j < F.allGroups.length := by
  intro chunks expressions fragment
  have ok : parse chunks expressions = .ok fragment := rfl
  exact ⟨ok, parse_forest ok⟩

/-! ## Expressions -/

/-- Whether an expression is the component of a tag, and the next expression follows it directly. -/
def IsSuperseded (chunks : List String) (expressions : List Expression) (i : Nat) : Prop :=
  (∃ name h, .hole (.tagName name) h ∈ items chunks expressions ∧ h.slot = i) ∧
    chunks[i + 1]? = some "" ∧ i + 1 < expressions.length

/-- The superseded holes are those of the superseded expressions. -/
lemma mem_slot_superseded {chunks : List String} {expressions : List Expression}
    (length : chunks.length = expressions.length + 1)
    (factories : ∀ i ∈ items chunks expressions, i.Factory) (i : Nat) :
    i ∈ (superseded (items chunks expressions)).map Hole.slot ↔
      IsSuperseded chunks expressions i := by
  rw [List.mem_map]
  constructor
  · rintro ⟨h, mem, rfl⟩
    obtain ⟨⟨name, mem⟩, follows⟩ := (mem_superseded_items length factories).1 mem
    exact ⟨⟨name, h, mem, rfl⟩, follows⟩
  · rintro ⟨⟨name, h, mem, rfl⟩, follows⟩
    exact ⟨h, (mem_superseded_items length factories).2 ⟨⟨name, mem⟩, follows⟩, rfl⟩

/-- The origins of the binders of a template are those of the holes in its forest. -/
lemma parse_origins {chunks : List String} {expressions : List Expression} {fragment : Fragment}
    (ok : parse chunks expressions = .ok fragment)
    (bound : ∀ e ∈ expressions, e.isLiteral = false) :
    (origins fragment.binders).Perm
      ((holes (kept (items chunks expressions))).map Hole.origin) := by
  obtain ⟨length, -, -⟩ := parse_ok ok
  obtain ⟨F, nested, rfl⟩ := parse_nests ok
  rw [origins_numbered, ← items_nest nested]
  refine F.origins_perm fun h mem => bound _ ?_
  rw [items_nest nested] at mem
  exact List.mem_of_getElem? (mem_holes_items length ((sublist_kept _).mem mem)).1

/-- A binder, and a property that is no literal, carries the expression of its slot and the sigil in
front of it. -/
lemma parse_entry {chunks : List String} {expressions : List Expression} {fragment : Fragment}
    (ok : parse chunks expressions = .ok fragment)
    (bound : ∀ e ∈ expressions, e.isLiteral = false) {b : Binder}
    (mem : b ∈ fragment.binders.flatMap Binder.entries) :
    expressions[b.slot]? = some b.expression ∧
      (chunks[b.slot]?.map fun c => (scanSigil c).1) = some b.sigil := by
  obtain ⟨length, -, -⟩ := parse_ok ok
  have mem : b.origin ∈ (holes (kept (items chunks expressions))).map Hole.origin :=
    (parse_origins ok bound).mem_iff.1 (List.mem_map.2 ⟨b, mem, rfl⟩)
  obtain ⟨h, mem, same⟩ := List.mem_map.1 mem
  obtain ⟨slot, sigil, expression⟩ := Origin.mk.inj same
  rw [← slot, ← sigil, ← expression]
  exact mem_holes_items length ((sublist_kept _).mem mem)

/-- Every expression reaches the fragment once, as a binder or as a property of a component, with
the sigil in front of it, but for those that stand as the component of a tag and that the next
expression follows directly: these are lost. -/
theorem parse_slots {chunks : List String} {expressions : List Expression} {fragment : Fragment}
    (ok : parse chunks expressions = .ok fragment)
    (bound : ∀ e ∈ expressions, e.isLiteral = false) :
    ((fragment.binders.flatMap Binder.entries).map Binder.slot).Nodup ∧
      (∀ i, i ∈ (fragment.binders.flatMap Binder.entries).map Binder.slot ↔
        i < expressions.length ∧ ¬IsSuperseded chunks expressions i) ∧
      ∀ b ∈ fragment.binders.flatMap Binder.entries,
        expressions[b.slot]? = some b.expression ∧
          (chunks[b.slot]?.map fun c => (scanSigil c).1) = some b.sigil := by
  obtain ⟨length, -, s, taken, -⟩ := parse_ok ok
  have factories := Skeleton.factory_of_takeAll taken
  generalize kept_eq : (holes (kept (items chunks expressions))).map Hole.slot = slots
  have perm : ((fragment.binders.flatMap Binder.entries).map Binder.slot).Perm slots := by
    have mapped := (parse_origins ok bound).map Origin.slot
    rw [origins, List.map_map, List.map_map] at mapped
    rw [← kept_eq]
    exact mapped
  -- The slots of all holes are those in the forest and those that are superseded.
  have all : (List.range expressions.length).Perm
      (slots ++ (superseded (items chunks expressions)).map Hole.slot) := by
    rw [← slot_holes_items length, ← kept_eq, ← List.map_append]
    exact (holes_perm_kept _).map _
  have nodup := all.nodup_iff.1 List.nodup_range
  refine ⟨perm.nodup_iff.2 (List.nodup_append.1 nodup).1, fun i => ?_,
    fun b mem => parse_entry ok bound mem⟩
  rw [perm.mem_iff, ← mem_slot_superseded length factories, ← List.mem_range, all.mem_iff,
    List.mem_append]
  constructor
  · intro mem
    exact ⟨.inl mem, fun gone => (List.nodup_append.1 nodup).2.2 i mem i gone rfl⟩
  · rintro ⟨mem | gone, stays⟩
    · exact mem
    · exact absurd gone stays

/-- The first of two expressions for one component is lost, while its property is not. -/
theorem parse_slots_component :
    let chunks := ["<#:", "", " p=", "/>^", ""]
    let expressions : List Expression :=
      [{ source := "f" }, { source := "g" }, { source := "x" }, { source := "y" }]
    let fragment : Fragment :=
      { html := "<!-- component --><text-node></text-node>"
        binders := [
          { target := .component, sigil := .none, expression := { source := "g" }, slot := 1,
            index := .child 0, node := some 0,
            properties := [
              { target := .attribute, sigil := .none, expression := { source := "x" }, slot := 2,
                index := .attribute "p" }] },
          { target := .text, sigil := .subscribe, expression := { source := "y" }, slot := 3,
            index := .child 1, node := some 0 }] }
    parse chunks expressions = .ok fragment ∧
      (fragment.binders.flatMap Binder.entries).map Binder.slot = [1, 2, 3] ∧
      (∀ i, i ∈ (fragment.binders.flatMap Binder.entries).map Binder.slot ↔
        i < expressions.length ∧ ¬IsSuperseded chunks expressions i) ∧
      ∀ b ∈ fragment.binders.flatMap Binder.entries,
        expressions[b.slot]? = some b.expression ∧
          (chunks[b.slot]?.map fun c => (scanSigil c).1) = some b.sigil := by
  intro chunks expressions fragment
  have ok : parse chunks expressions = .ok fragment := rfl
  exact ⟨ok, rfl, (parse_slots ok (by decide)).2⟩

end TaggedMarkup.Template

import Mathlib
import TaggedMarkup.Files.Discovery

/-!
# Paths in order

Components are ordered by rank and then by text, and a path stands where its list of components
does in the lexicographic order. Paths with the same components are one path in several
spellings. A list that is put in order rises strictly (`pairwise_inPathOrder`) and keeps of every
path the spelling that came first (`find?_inPathOrder`), and these two facts determine the list
(`eq_of_find?_same`).
-/

namespace TaggedMarkup.Files

/-! ## Components -/

namespace Component

/-- The rank and the text of a component. -/
def key (c : Component) : ℕ ×ₗ String := toLex (c.rank, c.text)

/-- A component is told by its rank and its text. -/
lemma key_injective : Function.Injective key := by
  intro a b h
  obtain ⟨rank, text⟩ := Prod.mk.inj (toLex_inj.1 h)
  cases a <;> cases b <;> simp_all [Component.rank, Component.text]

instance : LinearOrder Component := .lift' key key_injective

/-- Components are ordered by rank, then by text. -/
lemma lt_iff (a b : Component) :
    a < b ↔ a.rank < b.rank ∨ a.rank = b.rank ∧ a.text < b.text :=
  Prod.Lex.toLex_lt_toLex

/-- The comparison of components decides their order. -/
lemma compares_compare (a b : Component) : (a.compare b).Compares a b := by
  have swap {a b : Component} (h : a.rank > b.rank ∨ a.rank = b.rank ∧ a.text > b.text) : b < a :=
    (lt_iff b a).2 (h.imp_right fun alike => ⟨alike.1.symm, alike.2⟩)
  rw [Component.compare]
  cases ranks : Ord.compare a.rank b.rank with
  | lt => exact (lt_iff a b).2 (.inl (compare_lt_iff_lt.1 ranks))
  | gt => exact swap (.inl (compare_gt_iff_gt.1 ranks))
  | eq =>
    have rank := compare_eq_iff_eq.1 ranks
    rw [Ordering.eq_then]
    cases texts : Ord.compare a.text b.text with
    | lt => exact (lt_iff a b).2 (.inr ⟨rank, compare_lt_iff_lt.1 texts⟩)
    | gt => exact swap (.inr ⟨rank, compare_gt_iff_gt.1 texts⟩)
    | eq => exact key_injective (congrArg toLex (Prod.ext rank (compare_eq_iff_eq.1 texts)))

end Component

/-! ## Paths -/

namespace Path

/-- The comparison of components is that of their order. -/
lemma compares_compareComponents (as bs : List Component) :
    (compareComponents as bs).Compares as bs := by
  induction as generalizing bs with
  | nil =>
    cases bs with
    | nil => rfl
    | cons b bs => exact List.nil_lt_cons b bs
  | cons a as ih =>
    cases bs with
    | nil => exact List.nil_lt_cons a as
    | cons b bs =>
      have first := Component.compares_compare a b
      rw [compareComponents]
      cases order : a.compare b with
      | lt => exact List.cons_lt_cons_iff.2 (.inl (first.eq_lt.1 order))
      | gt => exact List.cons_lt_cons_iff.2 (.inl (first.eq_gt.1 order))
      | eq =>
        obtain rfl : a = b := first.eq_eq.1 order
        have rest := ih bs
        rw [Ordering.eq_then]
        cases order : compareComponents as bs with
        | lt => exact List.cons_lt_cons_iff.2 (.inr ⟨rfl, rest.eq_lt.1 order⟩)
        | gt => exact List.cons_lt_cons_iff.2 (.inr ⟨rfl, rest.eq_gt.1 order⟩)
        | eq => exact congrArg (a :: ·) (rest.eq_eq.1 order)

/-- Paths are compared by their components. -/
@[simp]
lemma isLE_compare (p q : String) : (compare p q).isLE ↔ components p ≤ components q := by
  rw [← (compares_compareComponents _ _).ne_gt, ← compare]
  cases compare p q <;> simp

/-- Paths are the same just if their components are. -/
@[simp]
lemma same_iff (p q : String) : same p q ↔ components p = components q := beq_iff_eq

/-- A path stands before another one, as their components do. -/
def Precedes (p q : String) : Prop := components p < components q

instance : Std.Irrefl Precedes := ⟨fun p => lt_irrefl (components p)⟩

instance : Std.Antisymm Precedes := ⟨fun _ _ less more => absurd less more.asymm⟩

instance : Trans Precedes Precedes Precedes := ⟨lt_trans⟩

end Path

section Ordered

variable {ps qs : List String}

/-- Paths in order have their components in order. -/
lemma sortedLT_map_components (ordered : ps.Pairwise Path.Precedes) :
    (ps.map Path.components).SortedLT :=
  List.Pairwise.sortedLT (List.pairwise_map.2 ordered)

/-- In a list that rises strictly, every path has one spelling. -/
lemma mem_iff_find?_same (ordered : ps.Pairwise Path.Precedes) {p : String} :
    p ∈ ps ↔ ps.find? (Path.same p) = some p := by
  refine ⟨fun mem => ?_, List.mem_of_find?_eq_some⟩
  cases found : ps.find? (Path.same p) with
  | none => exact absurd (Path.same_iff p p |>.2 rfl) (List.find?_eq_none.1 found p mem)
  | some q =>
    have alike := (Path.same_iff p q).1 (List.find?_some found)
    have unique := List.inj_on_of_nodup_map (sortedLT_map_components ordered).nodup
    rw [unique mem (List.mem_of_find?_eq_some found) alike]

/-- Lists that rise strictly are equal if they have the same spelling of every path. -/
lemma eq_of_find?_same (ordered₁ : ps.Pairwise Path.Precedes)
    (ordered₂ : qs.Pairwise Path.Precedes)
    (found : ∀ p, ps.find? (Path.same p) = qs.find? (Path.same p)) : ps = qs := by
  refine ordered₁.eq_of_mem_iff ordered₂ fun p => ?_
  rw [mem_iff_find?_same ordered₁, mem_iff_find?_same ordered₂, found]

/-- The paths of a list, whatever their spelling. -/
def places (ps : List String) : Set (List Component) := {place | place ∈ ps.map Path.components}

/-- The places of paths are their components. -/
lemma mem_places {place : List Component} :
    place ∈ places ps ↔ ∃ p ∈ ps, Path.components p = place :=
  List.mem_map

/-- The places of two lists of paths. -/
lemma places_append (ps qs : List String) : places (ps ++ qs) = places ps ∪ places qs := by
  ext place
  rw [Set.mem_union, mem_places, mem_places, mem_places]
  simp only [List.mem_append, or_and_right, exists_or]

/-- Paths in order that have the same places have the same components one by one. -/
lemma map_components_eq (ordered₁ : ps.Pairwise Path.Precedes)
    (ordered₂ : qs.Pairwise Path.Precedes) (places_eq : places ps = places qs) :
    ps.map Path.components = qs.map Path.components :=
  (sortedLT_map_components ordered₁).eq_of_mem_iff (sortedLT_map_components ordered₂)
    (Set.ext_iff.1 places_eq)

/-- Paths in order whose places are among those of others are among them, one by one. -/
lemma map_components_sublist (ordered₁ : ps.Pairwise Path.Precedes)
    (ordered₂ : qs.Pairwise Path.Precedes) (subset : places ps ⊆ places qs) :
    (ps.map Path.components).Sublist (qs.map Path.components) := by
  have rises₁ := sortedLT_map_components ordered₁
  have rises₂ := sortedLT_map_components ordered₂
  exact List.sublist_of_subperm_of_pairwise (rises₁.nodup.subperm fun _ mem => subset mem)
    rises₁.pairwise rises₂.pairwise

end Ordered

/-! ## Sorting -/

section Sorting

/-- The order in which paths are sorted. -/
abbrev sortsBefore (p q : String) : Bool := (Path.compare p q).isLE

/-- The order of paths is transitive. -/
lemma sortsBefore_trans (p q r : String) (pq : sortsBefore p q) (qr : sortsBefore q r) :
    sortsBefore p r := by
  rw [Path.isLE_compare] at *
  exact pq.trans qr

/-- Any two paths are in order one way or the other. -/
lemma sortsBefore_total (p q : String) : (sortsBefore p q || sortsBefore q p) = true := by
  rw [Bool.or_eq_true, Path.isLE_compare, Path.isLE_compare]
  exact le_total _ _

variable (ps : List String)

/-- Sorting leaves the spellings of a path in the order in which they came. -/
lemma filter_same_mergeSort (q : String) :
    (ps.mergeSort sortsBefore).filter (Path.same q) = ps.filter (Path.same q) := by
  have level : (ps.filter (Path.same q)).Pairwise (sortsBefore · ·) := by
    refine List.pairwise_of_forall_mem_list fun a ha b hb => ?_
    have sameA := (Path.same_iff q a).1 (List.mem_filter.1 ha).2
    have sameB := (Path.same_iff q b).1 (List.mem_filter.1 hb).2
    rw [Path.isLE_compare, ← sameA, ← sameB]
  -- The sort is stable, so what is level already is still in the sorted list as it was.
  have kept := (List.sublist_mergeSort sortsBefore_trans sortsBefore_total level
    List.filter_sublist).filter (Path.same q)
  simp only [List.filter_filter, Bool.and_self] at kept
  have length := ((List.mergeSort_perm ps sortsBefore).filter (Path.same q)).length_eq
  exact (kept.eq_of_length length.symm).symm

/-- Behind a path only further spellings of it are dropped, so the first spelling of every path
stays. -/
lemma find?_dropRepeatsAfter (last q : String) :
    (last :: dropRepeatsAfter last ps).find? (Path.same q) =
      (last :: ps).find? (Path.same q) := by
  induction ps generalizing last with
  | nil => rfl
  | cons p ps ih =>
    by_cases hit : Path.same q last
    · rw [List.find?_cons_of_pos hit, List.find?_cons_of_pos hit]
    rw [dropRepeatsAfter]
    split
    · rename_i repeated
      have passed : ¬ Path.same q p := by
        rw [Path.same_iff] at *
        rwa [← repeated]
      rw [ih, List.find?_cons_of_neg hit, List.find?_cons_of_neg hit,
        List.find?_cons_of_neg passed]
    · rw [List.find?_cons_of_neg hit, List.find?_cons_of_neg hit, ih]

/-- Putting paths in order keeps of every path the spelling that came first. -/
lemma find?_inPathOrder (q : String) :
    (inPathOrder ps).find? (Path.same q) = ps.find? (Path.same q) := by
  rw [inPathOrder, ← List.head?_filter (l := ps), ← filter_same_mergeSort, List.head?_filter]
  cases ps.mergeSort sortsBefore with
  | nil => rfl
  | cons p sorted => exact find?_dropRepeatsAfter sorted p q

variable {ps}

/-- In a sorted list repetitions stand next to each other, so without them it rises strictly. -/
lemma isChain_dropRepeatsAfter {last : String}
    (sorted : (last :: ps).Pairwise (sortsBefore · ·)) :
    (last :: dropRepeatsAfter last ps).IsChain Path.Precedes := by
  induction ps generalizing last with
  | nil => exact .singleton last
  | cons p ps ih =>
    obtain ⟨first, rest⟩ := List.pairwise_cons.1 sorted
    rw [dropRepeatsAfter]
    split
    · exact ih (List.pairwise_cons.2
        ⟨fun q mem => first q (List.mem_cons_of_mem p mem), (List.pairwise_cons.1 rest).2⟩)
    · rename_i new
      have le := (Path.isLE_compare last p).1 (first p List.mem_cons_self)
      have ne : Path.components last ≠ Path.components p := fun alike =>
        new ((Path.same_iff last p).2 alike)
      exact List.isChain_cons_cons.2 ⟨lt_of_le_of_ne le ne, ih rest⟩

/-- Paths that are put in order rise strictly. -/
lemma pairwise_inPathOrder (ps : List String) : (inPathOrder ps).Pairwise Path.Precedes := by
  have sorted := List.pairwise_mergeSort sortsBefore_trans sortsBefore_total ps
  rw [inPathOrder]
  cases order : ps.mergeSort sortsBefore with
  | nil => exact .nil
  | cons p rest =>
    rw [order] at sorted
    exact (isChain_dropRepeatsAfter sorted).pairwise

/-- The spellings that stay are those that came first. -/
lemma mem_inPathOrder {p : String} : p ∈ inPathOrder ps ↔ ps.find? (Path.same p) = some p := by
  rw [mem_iff_find?_same (pairwise_inPathOrder ps), find?_inPathOrder]

/-- No path is new in path order. -/
lemma inPathOrder_subset : inPathOrder ps ⊆ ps := fun _ mem =>
  List.mem_of_find?_eq_some (mem_inPathOrder.1 mem)

/-- No place is lost in path order. -/
lemma places_inPathOrder (ps : List String) : places (inPathOrder ps) = places ps := by
  ext place
  rw [mem_places, mem_places]
  constructor
  · rintro ⟨p, mem, rfl⟩
    exact ⟨p, inPathOrder_subset mem, rfl⟩
  · rintro ⟨p, mem, rfl⟩
    obtain ⟨q, found⟩ := Option.isSome_iff_exists.1
      (List.find?_isSome.2 ⟨p, mem, (Path.same_iff p p).2 rfl⟩)
    rw [← find?_inPathOrder] at found
    exact ⟨q, List.mem_of_find?_eq_some found, ((Path.same_iff p q).1 (List.find?_some found)).symm⟩

/-- Lists may be put in order one by one before they are put in order together. -/
lemma inPathOrder_append (ps qs : List String) :
    inPathOrder (ps ++ qs) = inPathOrder (inPathOrder ps ++ inPathOrder qs) := by
  refine eq_of_find?_same (pairwise_inPathOrder _) (pairwise_inPathOrder _) fun p => ?_
  simp only [find?_inPathOrder, List.find?_append]

end Sorting

end TaggedMarkup.Files

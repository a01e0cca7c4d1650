import Mathlib
import TaggedMarkup.Proofs.Script.Layout
import TaggedMarkup.Script.Marker

/-!
# Markers in patterns

A pattern is listed with all patterns inside of it, from left to right and each one in front of its
parts, together with the patterns around them (`Pattern.spots`). What is read off a pattern by
recursion is read off this list without any: its names with their flags or the first marker inside
of another one, the places of its markers, and its expressions (`markers_exact`). Where the spans of
a pattern nest, its markers are apart from each other and from its expressions.
-/

namespace TaggedMarkup.Script

/-! ## The parts of a pattern -/

/-- A pattern inside of another one, with the patterns around it, the innermost first. -/
structure Spot where
  pattern : Pattern
  around : List Pattern

mutual

/-- A pattern and all patterns inside of it, each one in front of its parts. -/
def Pattern.spots (around : List Pattern) : Pattern → List Spot
  | .name id span => [⟨.name id span, around⟩]
  | .object parts span =>
    ⟨.object parts span, around⟩ :: spotsOfParts (.object parts span :: around) parts
  | .array items span =>
    ⟨.array items span, around⟩ :: spotsOfItems (.array items span :: around) items
  | .withDefault target value span =>
    ⟨.withDefault target value span, around⟩ ::
      target.spots (.withDefault target value span :: around)

def spotsOfParts (around : List Pattern) : List PatternPart → List Spot
  | [] => []
  | part :: parts => spotsOfPart around part ++ spotsOfParts around parts

def spotsOfPart (around : List Pattern) : PatternPart → List Spot
  | .prop _ target => target.spots around
  | .rest target => target.spots around

def spotsOfItems (around : List Pattern) : List PatternItem → List Spot
  | [] => []
  | item :: items => spotsOfItem around item ++ spotsOfItems around items

def spotsOfItem (around : List Pattern) : PatternItem → List Spot
  | .hole => []
  | .item _ target => target.spots around
  | .rest _ target => target.spots around

end

/-- Whether the default value of a pattern is a marker. -/
def Pattern.isMarked : Pattern → Bool
  | .withDefault _ value _ => value.isMarker
  | _ => false

/-- The computed key of a part of an object pattern. -/
def PatternPart.key? : PatternPart → Option Expr
  | .prop (.computed key) _ => some key
  | _ => none

namespace Spot

/-- The number of marked patterns around. -/
def marks (s : Spot) : Nat := s.around.countP Pattern.isMarked

/-- Whether this is a marked pattern in the target of another one. -/
def isMisplaced (s : Spot) : Bool := s.pattern.isMarked && decide (0 < s.marks)

/-- The name that is bound here. It is observable if one marked pattern stands around it. -/
def binding? (s : Spot) : Option Binding :=
  match s.pattern with
  | .name id _ => some ⟨id.text, decide (s.marks = 1)⟩
  | _ => none

/-- The marker of the pattern itself, from the end of the target to the end of the pattern. -/
def marker? (s : Spot) : Option Span :=
  match s.pattern with
  | .withDefault target value span =>
    if value.isMarker then some ⟨target.span.stop, span.stop⟩ else none
  | _ => none

/-- The expressions of the pattern itself: its computed keys, or its default value unless that is a
marker. -/
def expressions (s : Spot) : List Expr :=
  match s.pattern with
  | .object parts _ => parts.filterMap PatternPart.key?
  | .withDefault _ value _ => if value.isMarker then [] else [value]
  | _ => []

end Spot

/-- The first name in the target of a marked pattern, unless a marker in it is misplaced or it binds
no name. -/
def Spot.title (s : Spot) : String :=
  match s.pattern with
  | .withDefault target _ _ =>
    if (target.spots []).any isMisplaced then "pattern"
    else (((target.spots []).filterMap binding?).head?.map Binding.name).getD "pattern"
  | _ => "pattern"

/-- The failure of a misplaced marker. -/
def Spot.failure (s : Spot) : Failure :=
  ⟨.duplicateMarker s.title, some s.pattern.span.start⟩

/-- The names of a list of parts, unless a marker is misplaced. Then the first such part counts. -/
def bindingsOfSpots (spots : List Spot) : Except Failure (List Binding) :=
  match spots.find? Spot.isMisplaced with
  | some s => .error s.failure
  | none => .ok (spots.filterMap Spot.binding?)

/-! ## Names -/

/-- The bindings of two lists of spots, if neither has a misplaced marker. -/
lemma bindingsOfSpots_append (first second : List Spot) :
    bindingsOfSpots (first ++ second) =
      (bindingsOfSpots first).bind fun names => (bindingsOfSpots second).map (names ++ ·) := by
  simp only [bindingsOfSpots, List.find?_append, List.filterMap_append]
  cases first.find? Spot.isMisplaced with
  | some s => rfl
  | none =>
    rw [Option.none_or]
    cases second.find? Spot.isMisplaced <;> rfl

/-- A part that binds nothing itself and is not misplaced. -/
lemma bindingsOfSpots_cons {s : Spot} {spots : List Spot} (placed : s.isMisplaced = false)
    (nameless : s.binding? = none) : bindingsOfSpots (s :: spots) = bindingsOfSpots spots := by
  rw [bindingsOfSpots, bindingsOfSpots, List.find?_cons_of_neg (by simp [placed]),
    List.filterMap_cons_none nameless]

/-- The title of a marked pattern is read off the names of its target. -/
lemma title_withDefault {target : Pattern} {value : Expr} {span : Span} {around : List Pattern}
    (collected : target.collect false = bindingsOfSpots (target.spots [])) :
    (match target.collect false with
      | .ok (first :: _) => first.name
      | _ => "pattern") = Spot.title ⟨.withDefault target value span, around⟩ := by
  rw [collected, bindingsOfSpots, Spot.title]
  cases found : (target.spots []).find? Spot.isMisplaced with
  | some s =>
    have misplaced : (target.spots []).any Spot.isMisplaced = true :=
      List.any_eq_true.2 ⟨s, List.mem_of_find?_eq_some found, List.find?_some found⟩
    simp only [misplaced, if_true]
  | none =>
    have placed : (target.spots []).any Spot.isMisplaced = false := by
      simpa [List.any_eq_false] using found
    simp only [placed]
    cases (target.spots []).filterMap Spot.binding? <;> rfl

mutual

/-- The names of a pattern are those of its parts, where at most one of the patterns around it is
marked. -/
lemma Pattern.collect_eq {around : List Pattern} {marked : Bool}
    (marks : around.countP Pattern.isMarked = marked.toNat) :
    ∀ p : Pattern, p.collect marked = bindingsOfSpots (p.spots around)
  | .name id span => by
    have flag : decide (around.countP Pattern.isMarked = 1) = marked := by
      rw [marks]
      cases marked <;> rfl
    rw [Pattern.collect, ← flag]
    rfl
  | .object parts span => by
    rw [Pattern.collect, Pattern.spots, bindingsOfSpots_cons rfl rfl]
    exact collectParts_eq (by simpa [Pattern.isMarked] using marks) parts
  | .array items span => by
    rw [Pattern.collect, Pattern.spots, bindingsOfSpots_cons rfl rfl]
    exact collectItems_eq (by simpa [Pattern.isMarked] using marks) items
  | .withDefault target value span => by
    rw [Pattern.collect, Pattern.spots]
    by_cases isMarker : value.isMarker = true
    · cases marked with
      | true =>
        -- The pattern itself is the first one that is misplaced.
        have misplaced : Spot.isMisplaced ⟨.withDefault target value span, around⟩ = true := by
          simp [Spot.isMisplaced, Pattern.isMarked, isMarker, Spot.marks, marks]
        rw [if_pos isMarker, if_pos rfl, bindingsOfSpots, List.find?_cons_of_pos misplaced]
        simp only [Spot.failure]
        have collected : target.collect false = bindingsOfSpots (target.spots []) :=
          Pattern.collect_eq rfl target
        rw [← title_withDefault collected]
        rfl
      | false =>
        have placed : Spot.isMisplaced ⟨.withDefault target value span, around⟩ = false := by
          simp [Spot.isMisplaced, Spot.marks, marks]
        rw [if_pos isMarker, if_neg Bool.false_ne_true, bindingsOfSpots_cons placed rfl]
        refine Pattern.collect_eq ?_ target
        simp [Pattern.isMarked.eq_1, isMarker, marks]
    · have placed : Spot.isMisplaced ⟨.withDefault target value span, around⟩ = false := by
        simp [Spot.isMisplaced, Pattern.isMarked, isMarker]
      rw [if_neg isMarker, bindingsOfSpots_cons placed rfl]
      refine Pattern.collect_eq ?_ target
      simp [Pattern.isMarked.eq_1, isMarker, marks]

/-- What is collected from the parts of an object pattern are the bindings of their spots. -/
lemma collectParts_eq {around : List Pattern} {marked : Bool}
    (marks : around.countP Pattern.isMarked = marked.toNat) :
    ∀ parts : List PatternPart,
      collectParts marked parts = bindingsOfSpots (spotsOfParts around parts)
  | [] => rfl
  | part :: parts => by
    rw [collectParts, spotsOfParts, bindingsOfSpots_append, collectPart_eq marks part,
      collectParts_eq marks parts]
    cases bindingsOfSpots (spotsOfPart around part) with
    | error failure => rfl
    | ok names => cases bindingsOfSpots (spotsOfParts around parts) <;> rfl

/-- What is collected from a part of an object pattern are the bindings of its spots. -/
lemma collectPart_eq {around : List Pattern} {marked : Bool}
    (marks : around.countP Pattern.isMarked = marked.toNat) :
    ∀ part : PatternPart, part.collect marked = bindingsOfSpots (spotsOfPart around part)
  | .prop _ target | .rest target => Pattern.collect_eq marks target

/-- What is collected from the items of an array pattern are the bindings of their spots. -/
lemma collectItems_eq {around : List Pattern} {marked : Bool}
    (marks : around.countP Pattern.isMarked = marked.toNat) :
    ∀ items : List PatternItem,
      collectItems marked items = bindingsOfSpots (spotsOfItems around items)
  | [] => rfl
  | item :: items => by
    rw [collectItems, spotsOfItems, bindingsOfSpots_append, collectItem_eq marks item,
      collectItems_eq marks items]
    cases bindingsOfSpots (spotsOfItem around item) with
    | error failure => rfl
    | ok names => cases bindingsOfSpots (spotsOfItems around items) <;> rfl

/-- What is collected from an item of an array pattern are the bindings of its spots. -/
lemma collectItem_eq {around : List Pattern} {marked : Bool}
    (marks : around.countP Pattern.isMarked = marked.toNat) :
    ∀ item : PatternItem, item.collect marked = bindingsOfSpots (spotsOfItem around item)
  | .hole => rfl
  | .item _ target | .rest _ target => Pattern.collect_eq marks target

end

/-! ## Markers and expressions -/

mutual

/-- The markers of a pattern are those of its parts. -/
lemma Pattern.markers_eq (around : List Pattern) :
    ∀ p : Pattern, p.markers = (p.spots around).filterMap Spot.marker?
  | .name _ _ => rfl
  | .object parts span => by
    rw [Pattern.markers, Pattern.spots, List.filterMap_cons_none rfl]
    exact markersOfParts_eq _ parts
  | .array items span => by
    rw [Pattern.markers, Pattern.spots, List.filterMap_cons_none rfl]
    exact markersOfItems_eq _ items
  | .withDefault target value span => by
    rw [Pattern.markers, Pattern.spots, List.filterMap_cons,
      Pattern.markers_eq (.withDefault target value span :: around) target]
    by_cases isMarker : value.isMarker = true <;> simp [Spot.marker?, isMarker]

/-- The markers of the parts of an object pattern are those of their spots. -/
lemma markersOfParts_eq (around : List Pattern) :
    ∀ parts : List PatternPart,
      markersOfParts parts = (spotsOfParts around parts).filterMap Spot.marker?
  | [] => rfl
  | part :: parts => by
    rw [markersOfParts, spotsOfParts, List.filterMap_append, markersOfPart_eq around part,
      markersOfParts_eq around parts]

/-- The markers of a part of an object pattern are those of its spots. -/
lemma markersOfPart_eq (around : List Pattern) :
    ∀ part : PatternPart, part.markers = (spotsOfPart around part).filterMap Spot.marker?
  | .prop _ target | .rest target => Pattern.markers_eq around target

/-- The markers of the items of an array pattern are those of their spots. -/
lemma markersOfItems_eq (around : List Pattern) :
    ∀ items : List PatternItem,
      markersOfItems items = (spotsOfItems around items).filterMap Spot.marker?
  | [] => rfl
  | item :: items => by
    rw [markersOfItems, spotsOfItems, List.filterMap_append, markersOfItem_eq around item,
      markersOfItems_eq around items]

/-- The markers of an item of an array pattern are those of its spots. -/
lemma markersOfItem_eq (around : List Pattern) :
    ∀ item : PatternItem, item.markers = (spotsOfItem around item).filterMap Spot.marker?
  | .hole => rfl
  | .item _ target | .rest _ target => Pattern.markers_eq around target

end

mutual

/-- The expressions of a pattern are those of its parts. A default value stands behind the
expressions of its target, and a key in front of those of its property. -/
lemma Pattern.expressions_perm (around : List Pattern) :
    ∀ p : Pattern, p.expressions.Perm ((p.spots around).flatMap Spot.expressions)
  | .name _ _ => .nil
  | .object parts span => by
    rw [Pattern.expressions, Pattern.spots, List.flatMap_cons]
    exact expressionsOfParts_perm _ parts
  | .array items span => by
    rw [Pattern.expressions, Pattern.spots, List.flatMap_cons]
    exact expressionsOfItems_perm _ items
  | .withDefault target value span => by
    rw [Pattern.expressions, Pattern.spots, List.flatMap_cons]
    exact ((Pattern.expressions_perm _ target).append_right _).trans List.perm_append_comm

/-- The expressions in the parts of an object pattern are their keys and those of their spots. -/
lemma expressionsOfParts_perm (around : List Pattern) :
    ∀ parts : List PatternPart, (expressionsOfParts parts).Perm
      (parts.filterMap PatternPart.key? ++ (spotsOfParts around parts).flatMap Spot.expressions)
  | [] => .nil
  | part :: parts => by
    have rest := expressionsOfParts_perm around parts
    rw [expressionsOfParts, spotsOfParts, List.flatMap_append]
    cases part with
    | prop key target =>
      have inner := Pattern.expressions_perm around target
      cases key with
      | computed key =>
        rw [PatternPart.expressions, List.filterMap_cons_some (PatternPart.key?.eq_1 key target)]
        refine .cons key ((inner.append rest).trans ?_)
        exact List.perm_append_comm_assoc _ _ _
      | fixed text | secret text =>
        rw [PatternPart.expressions, List.filterMap_cons_none rfl]
        exact (inner.append rest).trans (List.perm_append_comm_assoc _ _ _)
        all_goals nofun
    | rest target =>
      have inner := Pattern.expressions_perm around target
      rw [PatternPart.expressions, List.filterMap_cons_none rfl]
      exact (inner.append rest).trans (List.perm_append_comm_assoc _ _ _)

/-- The expressions in the items of an array pattern are those of their spots. -/
lemma expressionsOfItems_perm (around : List Pattern) :
    ∀ items : List PatternItem,
      (expressionsOfItems items).Perm ((spotsOfItems around items).flatMap Spot.expressions)
  | [] => .nil
  | item :: items => by
    have rest := expressionsOfItems_perm around items
    cases item with
    | hole => exact rest
    | item _ target | rest _ target =>
      rw [expressionsOfItems, spotsOfItems, List.flatMap_append]
      exact (Pattern.expressions_perm around target).append rest

end

/-! ## Places of markers -/

/-- Markers and expressions lie in trees. The markers are apart from each other and from the
expressions. -/
structure Separate (trees : List SpanTree) (markers : List Span) (expressions : List Expr) :
    Prop where
  marker_inside : ∀ m ∈ markers, ∃ t ∈ trees, m.Inside t.span
  expression_inside : ∀ e ∈ expressions, ∃ t ∈ trees, e.span.Inside t.span
  markers_apart : markers.Pairwise Span.Apart
  apart : ∀ m ∈ markers, ∀ e ∈ expressions, m.Apart e.span

namespace Separate

variable {ts us : List SpanTree} {ms ns : List Span} {es fs : List Expr}

/-- Nothing is separate from nothing. -/
lemma nil : Separate [] [] [] := ⟨nofun, nofun, .nil, nofun⟩

/-- An expression by itself has no markers. -/
lemma expression (e : Expr) : Separate [e.tree] [] [e] := by
  refine ⟨nofun, ?_, .nil, nofun⟩
  intro f mem
  rw [List.mem_singleton.1 mem]
  exact ⟨e.tree, List.mem_singleton_self _, e.span_tree ▸ .refl _⟩

/-- A marker by itself has no expressions. -/
lemma marker (span : Span) (parts : List SpanTree) : Separate [.node span parts] [span] [] := by
  refine ⟨?_, nofun, List.pairwise_singleton _ _, fun _ _ _ mem => nomatch mem⟩
  intro m mem
  rw [List.mem_singleton.1 mem]
  exact ⟨_, List.mem_singleton_self _, .refl _⟩

/-- What lies in trees lies in more of them. -/
lemma mono (separate : Separate ts ms es) (sub : ts ⊆ us) : Separate us ms es where
  marker_inside m mem := (separate.marker_inside m mem).imp fun _ inside =>
    inside.imp_left fun mem => sub mem
  expression_inside e mem := (separate.expression_inside e mem).imp fun _ inside =>
    inside.imp_left fun mem => sub mem
  markers_apart := separate.markers_apart
  apart := separate.apart

/-- What lies in trees that are apart is apart. -/
lemma append (first : Separate ts ms es) (second : Separate us ns fs)
    (across : ∀ t ∈ ts, ∀ u ∈ us, t.span.Apart u.span) :
    Separate (ts ++ us) (ms ++ ns) (es ++ fs) where
  marker_inside m mem := by
    obtain mem | mem := List.mem_append.1 mem
    · obtain ⟨t, mem, inside⟩ := first.marker_inside m mem
      exact ⟨t, List.mem_append_left _ mem, inside⟩
    · obtain ⟨t, mem, inside⟩ := second.marker_inside m mem
      exact ⟨t, List.mem_append_right _ mem, inside⟩
  expression_inside e mem := by
    obtain mem | mem := List.mem_append.1 mem
    · obtain ⟨t, mem, inside⟩ := first.expression_inside e mem
      exact ⟨t, List.mem_append_left _ mem, inside⟩
    · obtain ⟨t, mem, inside⟩ := second.expression_inside e mem
      exact ⟨t, List.mem_append_right _ mem, inside⟩
  markers_apart := by
    refine List.pairwise_append.2 ⟨first.markers_apart, second.markers_apart, ?_⟩
    intro m mem n mem'
    obtain ⟨t, tree, inside⟩ := first.marker_inside m mem
    obtain ⟨u, tree', inside'⟩ := second.marker_inside n mem'
    exact (across t tree u tree').mono inside inside'
  apart m mem e mem' := by
    obtain mem | mem := List.mem_append.1 mem <;> obtain mem' | mem' := List.mem_append.1 mem'
    · exact first.apart m mem e mem'
    · obtain ⟨t, tree, inside⟩ := first.marker_inside m mem
      obtain ⟨u, tree', inside'⟩ := second.expression_inside e mem'
      exact (across t tree u tree').mono inside inside'
    · obtain ⟨t, tree, inside⟩ := second.marker_inside m mem
      obtain ⟨u, tree', inside'⟩ := first.expression_inside e mem'
      exact (across u tree' t tree).symm.mono inside inside'
    · exact second.apart m mem e mem'

/-- What lies in the parts of a node lies in the node. -/
lemma node {span : Span} {parts : List SpanTree} (inner : Separate ts ms es)
    (inside : ∀ t ∈ ts, t.span.Inside span) : Separate [.node span parts] ms es :=
  { inner with
    marker_inside := fun m mem => by
      obtain ⟨t, tree, within⟩ := inner.marker_inside m mem
      exact ⟨_, List.mem_singleton_self _, within.trans (inside t tree)⟩
    expression_inside := fun e mem => by
      obtain ⟨t, tree, within⟩ := inner.expression_inside e mem
      exact ⟨_, List.mem_singleton_self _, within.trans (inside t tree)⟩ }

end Separate

mutual

/-- In a pattern that is laid out, markers are apart from each other and from expressions. -/
lemma Pattern.separate {source : List Char} :
    ∀ p : Pattern, LaidOut source [p.tree] → Separate [p.tree] p.markers p.expressions
  | .name _ _, _ => Separate.nil.node nofun
  | .object parts span, laid => by
    rw [Pattern.tree, laidOut_node] at laid
    exact (separate_parts parts laid.2.2).node laid.2.1
  | .array items span, laid => by
    rw [Pattern.tree, laidOut_node] at laid
    exact (separate_items items laid.2.2).node laid.2.1
  | .withDefault target value span, laid => by
    rw [Pattern.tree, laidOut_node] at laid
    obtain ⟨-, inside, laid⟩ := laid
    obtain ⟨here, behind, across⟩ :=
      laidOut_append.1 (show LaidOut source ([target.tree] ++ [_]) from laid)
    have inner := Pattern.separate target here
    rw [Pattern.tree, Pattern.markers, Pattern.expressions]
    by_cases isMarker : value.isMarker = true
    · rw [if_pos isMarker, if_pos isMarker, List.append_nil]
      refine ((Separate.marker _ [value.tree]).append inner ?_).node ?_
      · exact fun t mem u mem' => (across u mem' t mem).symm
      · exact fun t mem => inside t (by simpa [or_comm] using mem)
    · rw [if_neg isMarker, if_neg isMarker, List.nil_append]
      have both := inner.append
        ((Separate.expression value).node (laidOut_node.1 behind).2.1) across
      rw [List.append_nil] at both
      exact both.node inside

/-- The markers and the expressions of the parts of an object pattern are separate. -/
lemma separate_parts {source : List Char} :
    ∀ parts : List PatternPart, LaidOut source (treesOfParts parts) →
      Separate (treesOfParts parts) (markersOfParts parts) (expressionsOfParts parts)
  | [], _ => .nil
  | part :: parts, laid => by
    rw [treesOfParts, laidOut_append] at laid
    exact (separate_part part laid.1).append (separate_parts parts laid.2.1) laid.2.2

/-- The markers and the expressions of a part of an object pattern are separate. -/
lemma separate_part {source : List Char} :
    ∀ part : PatternPart, LaidOut source part.trees →
      Separate part.trees part.markers part.expressions
  | .prop (.computed key) target, laid => by
    rw [PatternPart.trees, laidOut_append] at laid
    exact (Separate.expression key).append (Pattern.separate target laid.2.1) laid.2.2
  | .prop (.fixed _) target, laid | .prop (.secret _) target, laid | .rest target, laid =>
    Pattern.separate target laid

/-- The markers and the expressions of the items of an array pattern are separate. -/
lemma separate_items {source : List Char} :
    ∀ items : List PatternItem, LaidOut source (treesOfPatternItems items) →
      Separate (treesOfPatternItems items) (markersOfItems items) (expressionsOfItems items)
  | [], _ => .nil
  | .hole :: items, laid => separate_items items laid
  | .item decorators target :: items, laid | .rest decorators target :: items, laid => by
    rw [treesOfPatternItems, laidOut_append] at laid
    have first := Pattern.separate target (laidOut_append.1 laid.1).2.1
    exact (first.mono (List.subset_append_right (treesOfExprs decorators) _)).append
      (separate_items items laid.2.1) laid.2.2

end

/-- The markers of a pattern, exactly. Its names are those of its parts from left to right, each one
observable if just one marked pattern stands around it, unless a marked pattern stands in the target
of another one: then the failure is at the start of the first such part. Each marked pattern has one
marker, from the end of its target to its own end. The expressions are the computed keys and the
default values that are no markers. In a pattern that is laid out, markers are apart from each other
and from the expressions. -/
theorem markers_exact (p : Pattern) :
    p.bindings = bindingsOfSpots (p.spots []) ∧
      p.markers = (p.spots []).filterMap Spot.marker? ∧
      p.expressions.Perm ((p.spots []).flatMap Spot.expressions) ∧
      ∀ source : List Char, LaidOut source [p.tree] →
        p.markers.Pairwise Span.Apart ∧ ∀ m ∈ p.markers, ∀ e ∈ p.expressions, m.Apart e.span := by
  refine ⟨Pattern.collect_eq rfl p, p.markers_eq [], p.expressions_perm [], fun source laid => ?_⟩
  have separate := p.separate laid
  exact ⟨separate.markers_apart, separate.apart⟩

/-- The pattern `{a:[b=$,...c]=1,[k]:d=$}`, and `{x=$}=$`, where a marker is misplaced. -/
theorem markers_exact_keyed :
    let marker (start : Nat) : Expr := .name ⟨"$", ⟨start, start + 1⟩⟩
    let leaf (text : String) (start : Nat) : Pattern :=
      .name ⟨text, ⟨start, start + 1⟩⟩ ⟨start, start + 1⟩
    let list : Pattern :=
      .array [.item [] (.withDefault (leaf "b" 4) (marker 6) ⟨4, 7⟩), .rest [] (leaf "c" 11)]
        ⟨3, 13⟩
    let p : Pattern := .object
      [.prop (.fixed "a") (.withDefault list (.literal ⟨14, 15⟩) ⟨3, 15⟩),
       .prop (.computed (.name ⟨"k", ⟨17, 18⟩⟩)) (.withDefault (leaf "d" 20) (marker 22) ⟨20, 23⟩)]
      ⟨0, 24⟩
    let q : Pattern := .withDefault
      (.object [.prop (.fixed "x") (.withDefault (leaf "x" 1) (marker 3) ⟨1, 4⟩)] ⟨0, 5⟩) (marker 6)
      ⟨0, 7⟩
    let source := "\x7ba:[b=$,...c]=1,[k]:d=$\x7d".toList
    (LaidOut source [p.tree] ∧ p.markers = [⟨5, 7⟩, ⟨21, 23⟩] ∧
      p.expressions.map Expr.span = [⟨14, 15⟩, ⟨17, 18⟩]) ∧
    bindingsOfSpots (p.spots []) = .ok [⟨"b", true⟩, ⟨"c", false⟩, ⟨"d", true⟩] ∧
    bindingsOfSpots (q.spots []) = .error ⟨.duplicateMarker "x", some 1⟩ ∧
    p.markers.Pairwise Span.Apart ∧ ∀ m ∈ p.markers, ∀ e ∈ p.expressions, m.Apart e.span := by
  intro marker leaf list p q source
  have laid : LaidOut source [p.tree] := by decide
  exact ⟨⟨laid, rfl, rfl⟩, rfl, rfl, (markers_exact p).2.2.2 source laid⟩

end TaggedMarkup.Script

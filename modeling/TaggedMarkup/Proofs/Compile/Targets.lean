import Mathlib.Data.List.Forall2
import TaggedMarkup.Proofs.Compile.Effects
import TaggedMarkup.Proofs.Script.Layout

/-!
# What a walk edits

The targets of a plan are its markers and those of its sites that stand in no other site. A run that
succeeds edits the spans of the targets, in order, and a run that fails edits nothing outside of
them (`Plan.adds`). The targets of a piece of syntax lie in its spans: if these nest then no two
targets share a character (`covers_expr` and its like).
-/

namespace TaggedMarkup.Compile

open Script
open Source (Edit splitOff)
open Walk

/-! ## Spans inside others -/

/-- Spans of a source that are apart. -/
structure Placed (source : List Char) (spans : List Span) : Prop where
  proper : ∀ s ∈ spans, s.Proper source
  apart : spans.Pairwise Span.Apart

/-- Spans that are apart, each inside one of others. -/
structure Covered (source : List Char) (wholes spans : List Span) : Prop
    extends Placed source spans where
  inside : ∀ s ∈ spans, ∃ whole ∈ wholes, s.Inside whole

section Covered

variable {source : List Char} {wholes wholes' spans spans' : List Span}

/-- No spans are placed. -/
lemma Placed.nil : Placed source [] := ⟨nofun, .nil⟩

/-- Some of the placed spans are placed. -/
lemma Placed.sublist (placed : Placed source spans) (sub : spans'.Sublist spans) :
    Placed source spans' :=
  ⟨fun s mem => placed.proper s (sub.subset mem), placed.apart.sublist sub⟩

/-- The order of placed spans does not matter. -/
lemma Placed.perm (placed : Placed source spans) (perm : spans.Perm spans') :
    Placed source spans' :=
  ⟨fun s mem => placed.proper s (perm.mem_iff.2 mem),
    (perm.pairwise_iff Span.Apart.symm).1 placed.apart⟩

/-- Spans in two parts. -/
lemma placed_append : Placed source (spans ++ spans') ↔
    Placed source spans ∧ Placed source spans' ∧ ∀ s ∈ spans, ∀ t ∈ spans', s.Apart t := by
  constructor
  · intro placed
    exact ⟨placed.sublist (List.sublist_append_left ..),
      placed.sublist (List.sublist_append_right ..), (List.pairwise_append.1 placed.apart).2.2⟩
  · rintro ⟨first, second, across⟩
    refine ⟨fun s mem => ?_, List.pairwise_append.2 ⟨first.apart, second.apart, across⟩⟩
    rcases List.mem_append.1 mem with mem | mem
    · exact first.proper s mem
    · exact second.proper s mem

namespace Covered

/-- No spans are covered by any. -/
lemma nil : Covered source wholes [] := ⟨.nil, nofun⟩

/-- Placed spans are covered by themselves. -/
lemma refl (placed : Placed source spans) : Covered source spans spans :=
  ⟨placed, fun s mem => ⟨s, mem, .refl s⟩⟩

/-- Spans are covered by what the spans that cover them lie in. -/
lemma trans (outer : ∀ s ∈ spans, ∃ whole ∈ wholes, s.Inside whole)
    (inner : Covered source spans spans') : Covered source wholes spans' := by
  refine ⟨inner.toPlaced, fun s mem => ?_⟩
  obtain ⟨t, mem, st⟩ := inner.inside s mem
  obtain ⟨whole, mem, tw⟩ := outer t mem
  exact ⟨whole, mem, st.trans tw⟩

/-- Covered spans are covered by more spans. -/
lemma mono (covered : Covered source wholes spans) (sub : wholes ⊆ wholes') :
    Covered source wholes' spans :=
  ⟨covered.toPlaced, fun s mem =>
    let ⟨whole, mem, inside⟩ := covered.inside s mem
    ⟨whole, sub mem, inside⟩⟩

/-- Spans inside wholes that are apart are apart. -/
lemma append (first : Covered source wholes spans) (second : Covered source wholes' spans')
    (across : ∀ w ∈ wholes, ∀ w' ∈ wholes', w.Apart w') :
    Covered source (wholes ++ wholes') (spans ++ spans') := by
  refine ⟨placed_append.2 ⟨first.toPlaced, second.toPlaced, fun s mem t mem' => ?_⟩, ?_⟩
  · obtain ⟨whole, mem, inside⟩ := first.inside s mem
    obtain ⟨whole', mem', inside'⟩ := second.inside t mem'
    exact (across whole mem whole' mem').mono inside inside'
  · intro s mem
    rcases List.mem_append.1 mem with mem | mem
    · exact (first.mono (List.subset_append_left ..)).inside s mem
    · exact (second.mono (List.subset_append_right ..)).inside s mem

end Covered

end Covered

/-! ## Targets -/

/-- What an edit of a walk is for. -/
inductive Target where
  | marker (span : Span)
  | site (here : Site)

/-- The part of the source that is replaced. -/
def Target.span : Target → Span
  | .marker span => span
  | .site here => here.replaced

namespace Plan

/-- The targets of a plan: its markers and its outermost sites. -/
def targets : Plan → List Target
  | .done | .useTag => []
  | .seq first second => first.targets ++ second.targets
  | .scope _ first _ second => first.targets ++ second.targets
  | .remove spans => spans.map .marker
  | .site here _ => [.site here]

/-- The spans that a plan edits. -/
def spans (p : Plan) : List Span := p.targets.map Target.span

/-- Every site of a plan visits its holes, which are laid out. Inside of it, targets are apart and
lie in what the site replaces. -/
def Sound (file : File) : Plan → Prop
  | .done | .useTag | .remove _ => True
  | .seq first second => first.Sound file ∧ second.Sound file
  | .scope _ first _ second => first.Sound file ∧ second.Sound file
  | .site here inside =>
    (inside = planExprs file here.holes ∧ LaidOut file.source (treesOfExprs here.holes)) ∧
      inside.Sound file ∧ Covered file.source [here.replaced] inside.spans

/-- The spans of a sequence are those of its two halves. -/
lemma spans_seq (p q : Plan) : (Plan.seq p q).spans = p.spans ++ q.spans := List.map_append

/-- The spans of a scope are those of its two parts. -/
lemma spans_scope (params : Declared) (p : Plan) (locals : Declared) (q : Plan) :
    (Plan.scope params p locals q).spans = p.spans ++ q.spans := List.map_append

/-- The spans that are taken out. -/
lemma spans_remove (spans : List Span) : (Plan.remove spans).spans = spans := by
  rw [Plan.spans, targets, List.map_map]
  exact List.map_id spans

end Plan

/-! ## Edits of a run -/

/-- Edits of a walk: it adds some to those that are there, inside of spans. If it succeeds then
these are the spans that it edits. -/
structure Adds {α : Type} (source : List Char) (spans : List Span) (x : Walk α) : Prop where
  adds : ∀ s, ∃ new, (x.exec s).2.edits = s.edits ++ new ∧
    Covered source spans (new.map Span.ofEdit) ∧
    ∀ a, (x.exec s).1 = .ok a → new.map Span.ofEdit = spans

namespace Adds

variable {α β : Type} {source : List Char}

/-- A walk without edits. -/
lemma ofKeeps {x : Walk α} (keeps : Keeps State.edits x) : Adds source [] x :=
  ⟨fun s => ⟨[], by rw [List.append_nil]; exact keeps.keep s, .nil, fun _ _ => rfl⟩⟩

/-- A step behind one without edits. -/
lemma after {x : Walk α} {f : α → Walk β} {ys : List Span} (keeps : Keeps State.edits x)
    (second : ∀ a, Adds source ys (f a)) : Adds source ys (x >>= f) := by
  constructor
  intro s
  have kept := keeps.keep s
  rw [exec_bind]
  rcases h : x.exec s with ⟨failure | a, t⟩
  · rw [h] at kept
    exact ⟨[], by rw [List.append_nil]; exact kept, .nil, nofun⟩
  · rw [h] at kept
    rw [← kept]
    exact (second a).adds t

/-- One step behind the other. -/
lemma bind {x : Walk α} {f : α → Walk β} {xs ys : List Span} (first : Adds source xs x)
    (second : ∀ a, Adds source ys (f a)) (placed : Placed source (xs ++ ys)) :
    Adds source (xs ++ ys) (x >>= f) := by
  constructor
  intro s
  obtain ⟨new, edits, covered, all⟩ := first.adds s
  rw [exec_bind]
  rcases h : x.exec s with ⟨failure | a, t⟩
  · rw [h] at edits
    -- A failure of the first step leaves the edits of that step only.
    exact ⟨new, edits, covered.mono (List.subset_append_left ..), nofun⟩
  · rw [h] at edits all
    obtain ⟨new', edits', covered', all'⟩ := (second a).adds t
    refine ⟨new ++ new', ?_, ?_, fun b ok => ?_⟩
    · rw [edits', edits, List.append_assoc]
    · rw [List.map_append]
      exact covered.append covered' (placed_append.1 placed).2.2
    · rw [List.map_append, all a rfl, all' b ok]

/-- A scope of its own has the edits of the step in it. -/
lemma inScope {x : Walk α} {xs : List Span} (inner : Adds source xs x) :
    Adds source xs (inScope x) :=
  ⟨fun s => inner.adds { s with scopes := s.scopes.push }⟩

end Adds

/-- To declare names records no edit. -/
lemma keeps_edits_declareAll (names : Declared) : Keeps State.edits (declareAll names) :=
  keeps_declareAll names fun _ _ => rfl

/-- Names that are declared leave the edits as they are. -/
lemma edits_declareAll {names : Declared} {s t : State}
    (ok : (declareAll names).exec s = (.ok (), t)) : t.edits = s.edits := by
  have kept := (keeps_edits_declareAll names).keep s
  rwa [ok] at kept

/-- A site whose holes have been visited leaves the edits that were recorded before them. -/
lemma edits_compileSite (file : File) (here : Site) {t : State} {before inner : List Edit}
    (edits : t.edits = before ++ inner) :
    ((compileSite file before.length here.chunks here.holes here.span).exec t).2.edits =
      before := by
  rw [(exec_compileSite file before.length here.chunks here.holes here.span t).2, edits]
  simp [splitOff]

/-- A run of a plan edits the spans of its targets. -/
lemma Plan.adds {file : File} {p : Plan} (sound : p.Sound file)
    (placed : Placed file.source p.spans) : Adds file.source p.spans (p.run file) := by
  induction p with
  | done | useTag => exact .ofKeeps ⟨fun _ => rfl⟩
  | seq first second ih₁ ih₂ =>
    rw [spans_seq] at placed ⊢
    obtain ⟨placed₁, placed₂, -⟩ := placed_append.1 placed
    exact .bind (ih₁ sound.1 placed₁) (fun _ => ih₂ sound.2 placed₂) placed
  | scope params first locals second ih₁ ih₂ =>
    rw [spans_scope] at placed ⊢
    obtain ⟨placed₁, placed₂, -⟩ := placed_append.1 placed
    exact .inScope (.after (keeps_edits_declareAll params) fun _ => .bind (ih₁ sound.1 placed₁)
      (fun _ => .after (keeps_edits_declareAll locals) fun _ => ih₂ sound.2 placed₂) placed)
  | remove spans =>
    rw [spans_remove] at placed ⊢
    have same : (spans.map fun span => Edit.remove span.start span.stop).map Span.ofEdit =
        spans := by
      rw [List.map_map]
      exact List.map_id spans
    exact ⟨fun s => ⟨_, rfl, same.symm ▸ .refl placed, fun _ _ => same⟩⟩
  | site here inside ih =>
    obtain ⟨-, soundInside, covered⟩ := sound
    constructor
    intro s
    obtain ⟨inner, edits, coveredInner, -⟩ := (ih soundInside covered.toPlaced).adds s
    simp only [Plan.run, exec_bind, exec_get]
    rcases visited : (inside.run file).exec s with ⟨failure | u, t⟩
    · -- The edits inside the site stay behind when the walk ends there.
      rw [visited] at edits
      exact ⟨inner, edits, .trans covered.inside coveredInner, by simp⟩
    · rw [visited] at edits
      have kept := edits_compileSite file here edits
      dsimp only
      rcases compiled : (compileSite file s.edits.length here.chunks here.holes here.span).exec t
        with ⟨failure | code, u⟩
      · rw [compiled] at kept
        exact ⟨[], by rw [List.append_nil]; exact kept, .nil, by simp⟩
      · rw [compiled] at kept
        exact ⟨[_], congrArg (· ++ _) kept, .refl placed, fun _ _ => rfl⟩

end TaggedMarkup.Compile

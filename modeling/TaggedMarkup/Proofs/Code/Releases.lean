import Mathlib
import TaggedMarkup.Proofs.Code.Locals

/-!
# Subscriptions and releases

Behind the call of its fragment, code has the statements of its binders, one after another. A binder
declares the block that it fills, if there is one, and the subscription of its value, unless the
value is written once (`SubscribesAt`). The names to release are the declared ones
(`generate_releases_declared`): code that has none returns the fragment as it is, and other code
gives the fragment a method that releases each of them, in the order of their declarations.
-/

namespace TaggedMarkup.Code

open Template (Binder Binding Expression)

/-- The statements of the binder at place `i`, whose initializer has the number `entry`: the
declaration of a block, and one statement that hands on the value. -/
def SubscribesAt (i entry : Nat) (b : Binder) (statements : List String) : Prop :=
  ∃ node statement, b.node = some node ∧
    statements =
      (if b.target.isBlock then [s!"const __sub{i}b = {bindCall entry node};"] else []) ++
        [statement] ∧
    declared? statement = if b.binding = .value then none else some s!"__sub{i}"

/-- The statements of a binder subscribe at its number. -/
lemma subscribesAt_of_wire {i entry : Nat} {b : Binder} {statements releases : List String}
    (ok : wire i entry b = .ok (statements, releases)) : SubscribesAt i entry b statements := by
  obtain ⟨node, statement, place, rfl, declares, -⟩ := wire_shape ok
  refine ⟨node, statement, place, rfl, declares.trans ?_⟩
  have sub : subName i false = s!"__sub{i}" := String.append_empty ..
  rw [sub]
  cases b.binding <;> rfl

/-- The statements of all binders are those of each, in order. -/
lemma subscribesAt_of_wireAll {t : Tables} {i : Nat} {bs : List Binder} {w : Wiring}
    (ok : (wireAll t i bs).2 = .ok w) :
    ∃ own : List (List String), w.statements = own.flatten ∧ own.length = bs.length ∧
      ∀ j b, bs[j]? = some b → ∃ entry statements, w.binders[j]? = some (withEntry b entry) ∧
        own[j]? = some statements ∧ SubscribesAt (i + j) entry b statements := by
  induction bs generalizing t i w with
  | nil =>
    cases ok
    exact ⟨[], rfl, rfl, nofun⟩
  | cons b bs ih =>
    obtain ⟨code, rest, wired, tail, rfl⟩ := wireAll_cons_inv ok
    obtain ⟨own, joined, length, each⟩ := ih tail
    refine ⟨code.1 :: own, congrArg (code.1 ++ ·) joined, by simp [length], ?_⟩
    rintro (_ | j) b' at_j
    · cases at_j
      exact ⟨_, _, rfl, rfl, subscribesAt_of_wire wired⟩
    · obtain ⟨entry, statements, numbered, own_j, subscribes⟩ := each j b' at_j
      rw [Nat.add_right_comm] at subscribes
      exact ⟨entry, statements, numbered, own_j, subscribes⟩

/-- What code does in the end is decided by whether there is anything to release. -/
lemma RenderCode.lines_eq (code : RenderCode) (indent : Nat) :
    (code.releases = [] → code.lines indent =
      code.statements.map (⟨indent, ·⟩) ++ [⟨indent, "return __nodes[__nodes.length];"⟩]) ∧
    (code.releases ≠ [] → code.lines indent =
      code.statements.map (⟨indent, ·⟩) ++
        [⟨indent, "const __fragment = __nodes[__nodes.length];"⟩,
          ⟨indent, "__fragment.unsubscribe = () => \x7b"⟩] ++
        code.releases.map (fun name => ⟨indent + 1, s!"{name}.unsubscribe();"⟩) ++
        [⟨indent, "\x7d;"⟩, ⟨indent, "return __fragment;"⟩]) := by
  obtain ⟨fragment, statements, releases⟩ := code
  cases releases with
  | nil => exact ⟨fun _ => rfl, fun some => absurd rfl some⟩
  | cons name names =>
    refine ⟨nofun, fun _ => ?_⟩
    rw [lines, ending, List.append_assoc, List.append_assoc, List.append_assoc]
    nofun

/-- Code releases what its binders declare, and nothing else. -/
theorem generate_releases_declared {t : Tables} {fragment : Nat} {bs numbered : List Binder}
    {code : RenderCode} (ok : (generate t fragment bs).2 = .ok (numbered, code)) :
    (∃ own : List (List String),
      code.statements = s!"const __nodes = __render{fragment}();" :: own.flatten ∧
      own.length = bs.length ∧
      (∀ i b, bs[i]? = some b → ∃ entry statements, numbered[i]? = some (withEntry b entry) ∧
        own[i]? = some statements ∧ SubscribesAt i entry b statements) ∧
      own.flatten.filterMap declared? = code.releases) ∧
    code.releases.Nodup ∧
    (∀ indent,
      (code.releases = [] → code.lines indent =
        code.statements.map (⟨indent, ·⟩) ++ [⟨indent, "return __nodes[__nodes.length];"⟩]) ∧
      (code.releases ≠ [] → code.lines indent =
        code.statements.map (⟨indent, ·⟩) ++
          [⟨indent, "const __fragment = __nodes[__nodes.length];"⟩,
            ⟨indent, "__fragment.unsubscribe = () => \x7b"⟩] ++
          code.releases.map (fun name => ⟨indent + 1, s!"{name}.unsubscribe();"⟩) ++
          [⟨indent, "\x7d;"⟩, ⟨indent, "return __fragment;"⟩])) ∧
    ∀ margin,
      code.asStatements margin = printed margin (code.lines 0) ∧
      code.asBody margin = printed margin (⟨0, "\x7b"⟩ :: code.lines 1 ++ [⟨0, "\x7d"⟩]) ∧
      code.asCall margin =
        printed margin (⟨0, "(() => \x7b"⟩ :: code.lines 1 ++ [⟨0, "\x7d)()"⟩]) := by
  obtain ⟨w, wiring, rfl, rfl⟩ := generate_inv ok
  obtain ⟨own, joined, length, each⟩ := subscribesAt_of_wireAll wiring
  obtain ⟨declared, nodup, -⟩ := declared_wireAll wiring
  refine ⟨⟨own, by rw [joined], length, ?_, joined ▸ declared⟩, nodup, RenderCode.lines_eq _, ?_⟩
  · intro i b at_i
    obtain ⟨entry, statements, numbered, own_i, subscribes⟩ := each i b at_i
    rw [Nat.zero_add] at subscribes
    exact ⟨entry, statements, numbered, own_i, subscribes⟩
  · intro margin
    exact ⟨RenderCode.asStatements_eq _ margin, RenderCode.between_eq _ (by decide) margin,
      RenderCode.between_eq _ (by decide) margin⟩

/-- A block of two observables, an attribute that follows an observable, and a fixed text. -/
def threeBinders : List Binder :=
  [{ target := .block, sigil := .map, expression := { source := "rows(a, b)" }, slot := 0,
     index := .child 0, node := some 1, observables := ["a", "b"] },
   { target := .attribute, sigil := .subscribe, expression := { source := "c" }, slot := 1,
     index := .attribute "title", node := some 0 },
   { target := .text, sigil := .none, expression := { source := "d" }, slot := 2,
     index := .child 2, node := some 1 }]

/-- The block and its value are released, and the attribute, but not the fixed text. -/
theorem generate_releases_declared_threeBinders :
    ∃ numbered code, (generate {} 0 threeBinders).2 = .ok (numbered, code) ∧
      code.releases = ["__sub0b", "__sub0", "__sub1"] ∧ code.releases.Nodup ∧
      code.lines 0 = code.statements.map (⟨0, ·⟩) ++
        [⟨0, "const __fragment = __nodes[__nodes.length];"⟩,
          ⟨0, "__fragment.unsubscribe = () => \x7b"⟩] ++
        ["__sub0b", "__sub0", "__sub1"].map (fun name => ⟨1, s!"{name}.unsubscribe();"⟩) ++
        [⟨0, "\x7d;"⟩, ⟨0, "return __fragment;"⟩] ∧
      code.asStatements "" = printed "" (code.lines 0) := by
  have ok : (generate {} 0 threeBinders).2 = .ok (_, _) := rfl
  obtain ⟨-, nodup, lines, texts⟩ := generate_releases_declared ok
  refine ⟨_, _, ok, rfl, ?_⟩
  exact ⟨nodup, (lines 0).2 nofun, (texts "").1⟩

end TaggedMarkup.Code

import Mathlib
import TaggedMarkup.Code.Render

/-!
# Wired binders

Wiring enters its binders one after another, up to the first that fails (`fst_wireAll`). If none
fails, every binder has its own statements, which mention the number of its initializer once
(`Wired`): for another number they would be the same but for this mention.
-/

namespace TaggedMarkup.Code

open Template (Binder Binding)

/-! ## One binder -/

/-- The call of an initializer for a node. -/
def bindCall (entry node : Nat) : String := s!"__bind{entry}(__nodes[{node}])"

/-- The statement of a value mentions its observer once. -/
lemma valueStatement_mentions {b : Binder} {sub observer statement : String}
    (ok : valueStatement b sub observer = .ok statement) :
    ∃ before after, ∀ o, valueStatement b sub o = .ok (before ++ o ++ after) := by
  have ending (start once o : String) : start ++ o ++ once ++ ");" = start ++ o ++ (once ++ ");") :=
    String.append_assoc
  unfold valueStatement at ok ⊢
  cases binding : b.binding <;> simp only [binding] at ok ⊢
  case value =>
    refine ⟨"", "(" ++ valueCode b ++ ");", fun o => ?_⟩
    simp [toString, String.append_assoc]
  case subscribe => exact ⟨s!"const {sub} = ({valueCode b}).subscribe(", ");", fun o => rfl⟩
  case first => exact ⟨s!"const {sub} = __first({valueCode b}, ", ");", fun o => rfl⟩
  case map | mapFirst =>
    split at ok
    · exact ⟨_, _, fun o => congrArg Except.ok (ending _ _ o)⟩
    · cases ok
  case combine | combineFirst =>
    split at ok
    · exact ⟨_, _, fun o => congrArg Except.ok (ending _ _ o)⟩
    · cases ok

/-- A way of binding goes with the number of observables that its statement needs. -/
lemma classify_arity (sigil : Markup.Sigil) (isIdentifier : Bool) (n : Nat) :
    match Binding.classify sigil isIdentifier n with
    | .map | .mapFirst => n = 1
    | .combine | .combineFirst => 2 ≤ n
    | .value | .subscribe | .first => True := by
  unfold Binding.classify
  cases sigil <;> cases isIdentifier <;> rcases n with _ | _ | n <;> simp

/-- Every binder has a statement for its value. -/
lemma valueStatement_ok (b : Binder) (sub observer : String) :
    ∃ statement, valueStatement b sub observer = .ok statement := by
  have arity := classify_arity b.sigil (b.expression.isIdentifier && !b.target.isComponent)
    b.observables.length
  rw [← Binder.binding] at arity
  unfold valueStatement
  cases binding : b.binding <;> simp only [binding] at arity ⊢
  case value | subscribe | first => exact ⟨_, rfl⟩
  case map | mapFirst =>
    obtain ⟨o, one⟩ := List.length_eq_one_iff.1 arity
    rw [one]
    exact ⟨_, rfl⟩
  case combine | combineFirst =>
    obtain ⟨o, o', os, several⟩ : ∃ o o' os, b.observables = o :: o' :: os := by
      match observables : b.observables with
      | o :: o' :: os => exact ⟨o, o', os, rfl⟩
      | [] | [_] => simp [observables] at arity
    rw [several]
    exact ⟨_, rfl⟩

/-- Code can be written for a binder just if it has a node. -/
lemma wire_ok_iff (i entry : Nat) (b : Binder) :
    (∃ code, wire i entry b = .ok code) ↔ b.node.isSome = true := by
  rw [wire]
  cases b.node with
  | none => simp
  | some node =>
    simp only [Option.isSome_some, iff_true]
    obtain ⟨statement, ok⟩ := valueStatement_ok b s!"__sub{i}"
      (if b.target.isBlock then s!"__sub{i}" ++ "b.observer"
        else s!"__bind{entry}(__nodes[{node}])")
    rw [ok]
    exact ⟨_, rfl⟩

/-- Statements that mention the number of the initializer of a binder once, in its call. -/
def MentionsOnce (i entry : Nat) (b : Binder) (statements : List String) : Prop :=
  ∃ node before after, b.node = some node ∧
    String.join statements = before ++ bindCall entry node ++ after ∧
    ∀ other, ∃ statements' releases, wire i other b = .ok (statements', releases) ∧
      String.join statements' = before ++ bindCall other node ++ after

/-- A block is bound by a statement of its own, before its value. -/
lemma wire_block {i entry node : Nat} {b : Binder} (place : b.node = some node)
    (block : b.target.isBlock = true) :
    ∃ releases, wire i entry b =
      (valueStatement b s!"__sub{i}" (s!"__sub{i}" ++ "b.observer")).map fun statement =>
        (["const " ++ s!"__sub{i}" ++ "b = " ++ bindCall entry node ++ ";", statement],
          releases) := by
  refine ⟨[s!"__sub{i}" ++ "b"] ++ if b.binding.isSubscription then [s!"__sub{i}"] else [], ?_⟩
  simp only [wire, place, block, if_true]
  cases valueStatement b s!"__sub{i}" (s!"__sub{i}" ++ "b.observer") <;> rfl

/-- A binder that is no block is bound in the statement of its value. -/
lemma wire_plain {i entry node : Nat} {b : Binder} (place : b.node = some node)
    (plain : b.target.isBlock = false) :
    ∃ releases, wire i entry b =
      (valueStatement b s!"__sub{i}" (bindCall entry node)).map fun statement =>
        ([statement], releases) := by
  refine ⟨if b.binding.isSubscription then [s!"__sub{i}"] else [], ?_⟩
  simp only [wire, place, plain, Bool.false_eq_true, if_false, List.nil_append, bindCall]
  cases valueStatement b s!"__sub{i}" s!"__bind{entry}(__nodes[{node}])" <;> rfl

/-- The statements of a binder mention its initializer once. -/
lemma mentionsOnce_of_wire {i entry : Nat} {b : Binder} {statements releases : List String}
    (ok : wire i entry b = .ok (statements, releases)) : MentionsOnce i entry b statements := by
  have mentions : ∃ node before after, b.node = some node ∧ ∀ other, ∃ statements' releases,
      wire i other b = .ok (statements', releases) ∧
        String.join statements' = before ++ bindCall other node ++ after := by
    cases place : b.node with
    | none =>
      rw [wire, place] at ok
      cases ok
    | some node =>
      by_cases block : b.target.isBlock = true
      · obtain ⟨_, eq⟩ := wire_block place block
        rw [eq] at ok
        cases value : valueStatement b s!"__sub{i}" (s!"__sub{i}" ++ "b.observer") with
        | error fault =>
          rw [value] at ok
          cases ok
        | ok statement =>
          refine ⟨node, "const " ++ s!"__sub{i}" ++ "b = ", ";" ++ statement, rfl, fun other => ?_⟩
          obtain ⟨releases, eq⟩ := wire_block place block
          refine ⟨_, releases, by rw [eq, value]; rfl, ?_⟩
          simp [String.append_assoc]
      · rw [Bool.not_eq_true] at block
        obtain ⟨_, eq⟩ := wire_plain place block
        rw [eq] at ok
        cases value : valueStatement b s!"__sub{i}" (bindCall entry node) with
        | error fault =>
          rw [value] at ok
          cases ok
        | ok statement =>
          obtain ⟨before, after, mention⟩ := valueStatement_mentions value
          refine ⟨node, before, after, rfl, fun other => ?_⟩
          obtain ⟨releases, eq⟩ := wire_plain place block
          refine ⟨_, releases, by rw [eq, mention]; rfl, ?_⟩
          simp
  obtain ⟨node, before, after, place, mention⟩ := mentions
  obtain ⟨own, _, same, joined⟩ := mention entry
  rw [ok] at same
  cases same
  exact ⟨node, before, after, place, joined, mention⟩

/-- Whether code can be written for a binder does not depend on the number of its initializer. -/
lemma MentionsOnce.wire_ok {i entry : Nat} {b : Binder} {statements : List String}
    (once : MentionsOnce i entry b statements) (other : Nat) :
    ∃ statements releases, wire i other b = .ok (statements, releases) := by
  obtain ⟨_, _, _, _, _, mention⟩ := once
  obtain ⟨statements, releases, works, _⟩ := mention other
  exact ⟨statements, releases, works⟩

/-! ## All binders of a template -/

/-- The binders that are entered: those up to the first for which no code can be written. -/
def entered (i : Nat) : List Binder → List Binder
  | [] => []
  | b :: bs =>
    match wire i 0 b with
    | .error _ => [b]
    | .ok _ => b :: entered (i + 1) bs

/-- Enters binders one after another, and gives the number of each. -/
def registerAll (t : Tables) : List Binder → Tables × List (Binder × Nat)
  | [] => (t, [])
  | b :: bs =>
    let (entry, t) := register t b
    let (t, entries) := registerAll t bs
    (t, (b, entry) :: entries)

/-- A binder that knows the number of its initializer. -/
def withEntry (b : Binder) (entry : Nat) : Binder := { b with entry := some entry }

/-- Binders from place `i` on with the numbers of their initializers, and their statements. -/
inductive Wired : Nat → List Binder → List Binder → List String → Prop where
  | nil {i : Nat} : Wired i [] [] []
  | cons {i entry : Nat} {b : Binder} {bs numbered : List Binder} {own rest : List String}
      (once : MentionsOnce i entry b own) (wired : Wired (i + 1) bs numbered rest) :
      Wired i (b :: bs) (withEntry b entry :: numbered) (own ++ rest)

/-- The first binder that cannot be wired stops the others. -/
lemma wireAll_cons_error {t : Tables} {i : Nat} {b : Binder} {fault : BinderFault}
    (own : wire i (register t b).1 b = .error fault) (bs : List Binder) :
    wireAll t i (b :: bs) = ((register t b).2, .error fault) := by
  rw [wireAll]
  simp only [own]

/-- A binder that is wired comes before the others. -/
lemma wireAll_cons_ok {t : Tables} {i : Nat} {b : Binder} {statements releases : List String}
    (own : wire i (register t b).1 b = .ok (statements, releases)) (bs : List Binder) :
    wireAll t i (b :: bs) =
      ((wireAll (register t b).2 (i + 1) bs).1,
        (wireAll (register t b).2 (i + 1) bs).2.map fun rest =>
          { binders := { b with entry := some (register t b).1 } :: rest.binders
            statements := statements ++ rest.statements
            releases := releases ++ rest.releases }) := by
  rw [wireAll]
  simp only [own]
  obtain ⟨t', _ | rest⟩ := wireAll (register t b).2 (i + 1) bs <;> rfl

/-- If no binder fails, the first is wired in front of the others. -/
lemma wireAll_cons_inv {t : Tables} {i : Nat} {b : Binder} {bs : List Binder} {w : Wiring}
    (ok : (wireAll t i (b :: bs)).2 = .ok w) :
    ∃ (code : List String × List String) (rest : Wiring),
      wire i (register t b).1 b = .ok code ∧
      (wireAll (register t b).2 (i + 1) bs).2 = .ok rest ∧
      w = { binders := withEntry b (register t b).1 :: rest.binders
            statements := code.1 ++ rest.statements
            releases := code.2 ++ rest.releases } := by
  cases own : wire i (register t b).1 b with
  | error fault =>
    rw [wireAll_cons_error own] at ok
    cases ok
  | ok code =>
    rw [wireAll_cons_ok own] at ok
    cases tail : (wireAll (register t b).2 (i + 1) bs).2 with
    | error fault =>
      rw [tail] at ok
      cases ok
    | ok rest =>
      rw [tail] at ok
      cases ok
      exact ⟨code, rest, rfl, rfl, rfl⟩

/-- Wiring enters its binders up to the first that fails. -/
lemma fst_wireAll (t : Tables) (i : Nat) (bs : List Binder) :
    (wireAll t i bs).1 = (registerAll t (entered i bs)).1 := by
  induction bs generalizing t i with
  | nil => rfl
  | cons b bs ih =>
    cases own : wire i (register t b).1 b with
    | error fault =>
      have fails : ∃ fault, wire i 0 b = .error fault := by
        cases zero : wire i 0 b with
        | error fault => exact ⟨fault, rfl⟩
        | ok code =>
          obtain ⟨_, _, works⟩ := (mentionsOnce_of_wire zero).wire_ok (register t b).1
          rw [own] at works
          cases works
      obtain ⟨_, fails⟩ := fails
      rw [wireAll_cons_error own, entered, fails]
      rfl
    | ok code =>
      obtain ⟨_, _, works⟩ := (mentionsOnce_of_wire own).wire_ok 0
      rw [wireAll_cons_ok own, entered, works]
      exact ih (register t b).2 (i + 1)

/-- If no binder fails, all are entered, and each has its own statements. -/
lemma snd_wireAll {t : Tables} {i : Nat} {bs : List Binder} {w : Wiring}
    (ok : (wireAll t i bs).2 = .ok w) :
    entered i bs = bs ∧ w.binders = (registerAll t bs).2.map (fun (b, m) => withEntry b m) ∧
      Wired i bs w.binders w.statements := by
  induction bs generalizing t i w with
  | nil =>
    cases ok
    exact ⟨rfl, rfl, .nil⟩
  | cons b bs ih =>
    obtain ⟨code, rest, own, tail, rfl⟩ := wireAll_cons_inv ok
    obtain ⟨all, numbered, wired⟩ := ih tail
    have once := mentionsOnce_of_wire own
    obtain ⟨_, _, works⟩ := once.wire_ok 0
    refine ⟨?_, ?_, .cons once wired⟩
    · rw [entered, works, all]
    · exact congrArg (withEntry b (register t b).1 :: ·) numbered

/-- The code of binders is that of their wiring. -/
lemma generate_eq (t : Tables) (fragment : Nat) (bs : List Binder) :
    generate t fragment bs = ((wireAll t 0 bs).1, (wireAll t 0 bs).2.map fun wiring =>
      (wiring.binders,
        { fragment := fragment
          statements := s!"const __nodes = __render{fragment}();" :: wiring.statements
          releases := wiring.releases })) := by
  rw [generate]
  obtain ⟨t', _ | wiring⟩ := wireAll t 0 bs <;> rfl

/-- If code can be written, its binders are all wired. -/
lemma generate_inv {t : Tables} {fragment : Nat} {bs numbered : List Binder} {code : RenderCode}
    (ok : (generate t fragment bs).2 = .ok (numbered, code)) :
    ∃ w, (wireAll t 0 bs).2 = .ok w ∧ numbered = w.binders ∧
      code = { fragment := fragment
               statements := s!"const __nodes = __render{fragment}();" :: w.statements
               releases := w.releases } := by
  rw [generate_eq] at ok
  cases wiring : (wireAll t 0 bs).2 with
  | error fault =>
    rw [wiring] at ok
    cases ok
  | ok w =>
    rw [wiring] at ok
    cases ok
    exact ⟨w, rfl, rfl, rfl⟩

/-- Code starts with the call of its fragment, and goes on with the statements of its binders. -/
lemma snd_generate {t : Tables} {fragment : Nat} {bs numbered : List Binder} {code : RenderCode}
    (ok : (generate t fragment bs).2 = .ok (numbered, code)) :
    code.fragment = fragment ∧ entered 0 bs = bs ∧
      numbered = (registerAll t bs).2.map (fun (b, m) => withEntry b m) ∧
      ∃ rest, code.statements = s!"const __nodes = __render{fragment}();" :: rest ∧
        Wired 0 bs numbered rest := by
  obtain ⟨w, wiring, rfl, rfl⟩ := generate_inv ok
  obtain ⟨all, entries, wired⟩ := snd_wireAll wiring
  exact ⟨rfl, all, entries, _, rfl, wired⟩

end TaggedMarkup.Code

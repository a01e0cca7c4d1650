import Mathlib.Tactic.Common
import TaggedMarkup.Script.Grammar.Program

/-!
# Readers move forward

No reader of scripts goes back behind the token on which it starts. `Moves` says so of one reader,
and its instances follow the way readers are put together, so that what holds of a reader is found
from what holds of its parts. Readers that refer to the grammar come later, with what they read.
-/

namespace TaggedMarkup.Script

/-! ## Text -/

/-- A gap ends no earlier than it starts. -/
lemma Lexeme.le_of_skip {hides newline newline' : Bool} {gap : Gap} {pos start : Nat}
    {cs here : List Char} (skipped : skip hides gap pos newline cs = some (start, newline', here)) :
    pos ≤ start := by
  fun_induction skip hides gap pos newline cs <;> grind

namespace Cursor

/-- The current token does not end in front of its start. -/
def Sized (c : Cursor) : Prop := c.start ≤ c.stop

/-- A cursor that is moved to a position starts there or behind it. -/
lemma le_start_moveTo (c : Cursor) (pos : Nat) (cs : List Char) :
    pos ≤ (c.moveTo pos cs).start := by
  rw [moveTo, moveFrom]
  split
  · exact Nat.le_refl pos
  · next skipped => exact Lexeme.le_of_skip skipped

/-- A cursor that is moved over a gap is sized. -/
lemma sized_moveFrom (c : Cursor) (newline : Bool) (pos : Nat) (cs : List Char) :
    (c.moveFrom newline pos cs).Sized := by
  rw [moveFrom]
  split
  · exact Nat.le_refl pos
  · exact Nat.le_add_right _ _

/-- A cursor that is moved is sized. -/
lemma sized_moveTo (c : Cursor) (pos : Nat) (cs : List Char) : (c.moveTo pos cs).Sized :=
  c.sized_moveFrom false pos cs

end Cursor

namespace Parse

variable {α β σ : Type}

/-! ## Runs -/

/-- Two readers succeed if the second does where the first has ended. -/
lemma run_bind {p : Parse α} {f : α → Parse β} {c c' : Cursor} {b : β} :
    (p >>= f) c = some (b, c') ↔ ∃ a d, p c = some (a, d) ∧ f a d = some (b, c') := by
  constructor
  · intro h
    obtain ⟨⟨a, d⟩, h, h'⟩ := Option.bind_eq_some_iff.1 h
    exact ⟨a, d, h, h'⟩
  · rintro ⟨a, d, h, h'⟩
    exact Option.bind_eq_some_iff.2 ⟨⟨a, d⟩, h, h'⟩

/-- A reader that reads nothing stays where it is. -/
lemma run_pure {a b : α} {c c' : Cursor} :
    (pure a : Parse α) c = some (b, c') ↔ a = b ∧ c = c' := by
  show some (a, c) = some (b, c') ↔ _
  simp

/-- A test that succeeds stays where it is. -/
lemma run_require {b : Bool} {u : Unit} {c c' : Cursor} :
    require b c = some (u, c') ↔ b = true ∧ c = c' := by
  cases b with
  | false => exact ⟨nofun, nofun⟩
  | true => exact run_pure.trans (by simp)

/-- A run over a hole of a template: the reader starts behind the brace that opens it, and ends in
front of the one that closes it. -/
lemma run_hole {p : Parse α} {f : α → Cursor → β} {pos : Nat} {text : List Char} {c c' : Cursor}
    {b : β}
    (ran : (do
      modify (·.moveTo pos text)
      let a ← p
      let c ← get
      require (c.token == .sign "\x7d")
      return f a c : Parse β) c = some (b, c')) :
    ∃ a, p (c.moveTo pos text) = some (a, c') ∧ f a c' = b := by
  obtain ⟨_, _, moved, ran⟩ := run_bind.1 ran
  cases moved
  obtain ⟨a, d, read, ran⟩ := run_bind.1 ran
  obtain ⟨_, _, got, ran⟩ := run_bind.1 ran
  cases got
  obtain ⟨_, _, required, ran⟩ := run_bind.1 ran
  obtain ⟨-, rfl⟩ := run_require.1 required
  obtain ⟨rfl, rfl⟩ := run_pure.1 ran
  exact ⟨a, read, rfl⟩

/-- What holds of the state and the cursor in front of each round holds behind the last one. -/
lemma iterate_induct {round : σ → Parse (Round σ β)} {I : σ → Cursor → Prop}
    {J : β → Cursor → Prop}
    (step : ∀ s c r c', I s c → round s c = some (r, c') →
      match r with
      | .more s' => I s' c'
      | .done b => J b c')
    {s : σ} {c c' : Cursor} {b : β} (init : I s c) (ran : iterate s round c = some (b, c')) :
    J b c' := by
  have run : ∀ n s c, I s c → rounds round n s c = some (b, c') → J b c' := by
    intro n
    induction n with
    | zero => intro s c _ ran; cases ran
    | succ n ih =>
      intro s c init ran
      obtain ⟨r, d, first, ran⟩ := run_bind.1 ran
      have next := step s c r d init first
      cases r with
      | more s' => exact ih s' d next ran
      | done b' =>
        obtain ⟨rfl, rfl⟩ := run_pure.1 ran
        exact next
  exact run c.left s c init ran

/-! ## Readers that move forward -/

/-- A reader that never goes back. -/
class Moves {α : Type} (p : Parse α) : Prop where
  moves : ∀ {c a c'}, c.Sized → p c = some (a, c') → c.start ≤ c'.start ∧ c'.Sized

namespace Moves

instance pure (a : α) : Moves (pure a : Parse α) where
  moves sized ran := by
    obtain ⟨rfl, rfl⟩ := run_pure.1 ran
    exact ⟨Nat.le_refl _, sized⟩

instance bind {p : Parse α} {f : α → Parse β} [Moves p] [∀ a, Moves (f a)] :
    Moves (p >>= f) where
  moves sized ran := by
    obtain ⟨a, d, first, second⟩ := run_bind.1 ran
    obtain ⟨le, sized⟩ := moves sized first
    obtain ⟨le', sized⟩ := moves sized second
    exact ⟨Nat.le_trans le le', sized⟩

/-- Readers that do not go back do not do so one after the other. -/
lemma andThen {p : Parse α} {f : α → Parse β} [Moves p] (next : ∀ a, Moves (f a)) :
    Moves (p >>= f) := bind

instance ite {b : Prop} [Decidable b] {p q : Parse α} [Moves p] [Moves q] :
    Moves (if b then p else q) := by
  split <;> assumption

instance fail : Moves (fail : Parse α) where
  moves _ ran := by cases ran

instance map {f : α → β} {p : Parse α} [Moves p] : Moves (f <$> p) :=
  inferInstanceAs (Moves (p >>= fun a => Pure.pure (f a)))

instance get : Moves (get : Parse Cursor) where
  moves sized ran := by cases ran; exact ⟨Nat.le_refl _, sized⟩

instance ahead (p : Parse α) : Moves (ahead p) where
  moves sized ran := by cases ran; exact ⟨Nat.le_refl _, sized⟩

instance attempt (p : Parse α) [Moves p] : Moves (attempt p) where
  moves {c a c'} sized ran := by
    rw [Parse.attempt] at ran
    split at ran
    · next read =>
      cases ran
      exact moves sized read
    · cases ran
      exact ⟨Nat.le_refl _, sized⟩

instance forOption {x : Option α} {f : α → Parse PUnit} [∀ a, Moves (f a)] :
    Moves (x.forM f) := by
  cases x with
  | none => exact pure _
  | some a => exact inferInstanceAs (Moves (f a))

/-- A change of the cursor that does not go back. -/
lemma modify {f : Cursor → Cursor}
    (le : ∀ c, c.Sized → c.start ≤ (f c).start ∧ (f c).Sized) :
    Moves (modify f : Parse Unit) where
  moves sized ran := by cases ran; exact le _ sized

instance iterate {s : σ} {round : σ → Parse (Round σ β)} [∀ s, Moves (round s)] :
    Moves (iterate s round) where
  moves {c a c'} sized ran := by
    refine iterate_induct (I := fun _ d => c.start ≤ d.start ∧ d.Sized)
      (J := fun _ d => c.start ≤ d.start ∧ d.Sized)
      (fun s d r d' ⟨le, sized⟩ ran => ?_) ⟨Nat.le_refl _, sized⟩ ran
    obtain ⟨le', sized⟩ := moves sized ran
    cases r <;> exact ⟨Nat.le_trans le le', sized⟩

end Moves

/-! ## Tokens -/

instance : Moves token := by unfold token; infer_instance

instance : Moves here := by unfold here; infer_instance

instance : Moves prevStop := by unfold prevStop; infer_instance

instance (start : Nat) : Moves (spanFrom start) := by unfold spanFrom; infer_instance

instance : Moves onNewline := by unfold onNewline; infer_instance

instance (b : Bool) : Moves (require b) := by unfold require; infer_instance

instance : Moves advance := .modify fun c sized =>
  ⟨Nat.le_trans sized (c.le_start_moveTo _ _), c.sized_moveTo _ _⟩

instance (text : String) : Moves (isSign text) := by unfold isSign; infer_instance

instance (texts : List String) : Moves (isAnySign texts) := by
  unfold isAnySign
  refine .andThen fun t => ?_
  split <;> infer_instance

instance (text : String) : Moves (isWord text) := by unfold isWord; infer_instance

instance (text : String) : Moves (eat text) := by unfold eat; infer_instance

instance (text : String) : Moves (eatWord text) := by unfold eatWord; infer_instance

instance (text : String) : Moves (expect text) := by unfold expect; infer_instance

instance (text : String) : Moves (expectWord text) := by unfold expectWord; infer_instance

instance (p : Parse Bool) : Moves (nextIs p) := by unfold nextIs; infer_instance

instance : Moves endStatement := by unfold endStatement; infer_instance

instance (separator close : String) (item : Parse α) [Moves item] :
    Moves (listUntil separator close item) := by
  unfold listUntil
  infer_instance

instance (separator : String) (item : Parse α) [Moves item] :
    Moves (listOf separator item) := by
  unfold listOf
  infer_instance

end Parse

open Parse

variable (cx : Context)

/-! ## Words -/

instance : Moves (atIdent cx) := by
  unfold atIdent
  refine .andThen fun t => ?_
  split <;> infer_instance

instance : Moves atFreeWord := by
  unfold atFreeWord
  refine .andThen fun t => ?_
  split <;> infer_instance

instance : Moves atWord := by
  unfold atWord
  refine .andThen fun t => ?_
  split <;> infer_instance

instance : Moves atString := by
  unfold atString
  refine .andThen fun t => ?_
  split <;> infer_instance

instance : Moves atNumber := by
  unfold atNumber
  refine .andThen fun t => ?_
  split <;> infer_instance

instance (words : List String) : Moves (isAnyWord words) := by
  unfold isAnyWord
  refine .andThen fun t => ?_
  split <;> infer_instance

instance : Moves anyWord := by
  unfold anyWord
  refine .andThen fun start => .andThen fun t => ?_
  split <;> infer_instance

instance : Moves (ident cx) := by unfold ident; infer_instance

instance : Moves qualifiedName := by unfold qualifiedName; infer_instance

instance (e : Expr) : Moves (noteInType e) := .modify fun _ sized => ⟨Nat.le_refl _, sized⟩

/-! ## Modifiers -/

instance (word : String) : Moves (atModifier word) := by unfold atModifier; infer_instance

instance (allowed : List String) : Moves (modifiers allowed) := by
  unfold modifiers
  refine @Moves.iterate _ _ _ _ fun found => .andThen fun t => ?_
  split <;> infer_instance

instance : Moves accessorWord? := by unfold accessorWord?; infer_instance

/-! ## Names of imports and exports -/

instance : Moves exportName := by
  unfold exportName
  refine .andThen fun t => ?_
  split <;> infer_instance

instance : Moves moduleName := by
  unfold moduleName
  refine .andThen fun t => ?_
  split <;> infer_instance

instance : Moves importAttribute := by
  unfold importAttribute
  refine .andThen fun t => ?_
  split <;> infer_instance

instance : Moves importAttributes? := by unfold importAttributes?; infer_instance

instance : Moves (atTypeModifier cx) := by unfold atTypeModifier; infer_instance

instance (ofTypes : Bool) : Moves (eatTypeModifier cx ofTypes) := by
  unfold eatTypeModifier
  infer_instance

instance (ofTypes : Bool) : Moves (importSpecifier cx ofTypes) := by
  unfold importSpecifier
  infer_instance

instance : Moves (importAll cx) := by unfold importAll; infer_instance

-- Instances are as long as the readers that they are about.
set_option synthInstance.maxSize 100000 in
instance (ofTypes : Bool) : Moves (importClause cx ofTypes) := by
  unfold importClause
  dsimp only
  infer_instance

instance : Moves (atTypeClause cx) := by unfold atTypeClause; infer_instance

instance : Moves atPhase := by unfold atPhase; infer_instance

instance : Moves importedEntity := by unfold importedEntity; infer_instance

instance (names : List String) : Moves (noteExports names) :=
  .modify fun _ sized => ⟨Nat.le_refl _, sized⟩

instance (ofTypes : Bool) : Moves (exportSpecifier cx ofTypes) := by
  unfold exportSpecifier
  infer_instance

/-! ## Tests -/

instance : Moves (atTypeParameters cx) := by unfold atTypeParameters; infer_instance

instance : Moves atIndexSignature := by unfold atIndexSignature; infer_instance

instance : Moves atMappedType := by unfold atMappedType; infer_instance

instance : Moves atTypeArguments := by
  have split : Moves (modify Cursor.splitLess : Parse Unit) := .modify fun c sized => by
    rw [Cursor.splitLess]
    split
    · exact ⟨Nat.le_refl _, Nat.le_add_right _ _⟩
    · exact ⟨Nat.le_refl _, sized⟩
  unfold atTypeArguments
  infer_instance

instance : Moves atPlainType := by
  unfold atPlainType
  refine .andThen fun t => ?_
  split <;> infer_instance

instance : Moves atType := by unfold atType; infer_instance

instance : Moves atAsyncFunction := by unfold atAsyncFunction; infer_instance

instance : Moves followsTypeArguments := by
  unfold followsTypeArguments
  refine .andThen fun t => ?_
  split <;> infer_instance

instance (level : Nat) : Moves (operator? cx level) := by
  unfold operator?
  refine .andThen fun t => ?_
  split <;> infer_instance

instance (level : Nat) : Moves (castForm? cx level) := by unfold castForm?; infer_instance

instance : Moves arrowSign := by unfold arrowSign; infer_instance

instance : Moves opensArrow := by unfold opensArrow; infer_instance

instance : Moves atUsing := by unfold atUsing; infer_instance

instance : Moves (eatUsing cx) := by unfold eatUsing; infer_instance

instance : Moves atFunction := by unfold atFunction; infer_instance

instance : Moves (declarationModifiers cx) := by unfold declarationModifiers; infer_instance

instance : Moves atTypedDeclaration := by unfold atTypedDeclaration; infer_instance

instance : Moves (atInterface cx) := by unfold atInterface; infer_instance

set_option synthInstance.maxSize 100000 in
instance : Moves (headKind? cx) := by unfold headKind?; infer_instance

instance : Moves atStatementEnd := by unfold atStatementEnd; infer_instance

/-! ## Notes -/

instance (e : Expr) : Moves (takeTarget e) where
  moves {c a c'} sized ran := by
    obtain ⟨_, _, got, ran⟩ := run_bind.1 ran
    cases got
    obtain ⟨_, d, required, ran⟩ := run_bind.1 ran
    cases ran
    exact ⟨Nat.le_refl _, sized⟩

instance (start : Nat) (close : String) : Moves (noteSpread start close) := by
  have note : Moves (modify fun c => { c with openEnded := start :: c.openEnded } : Parse Unit) :=
    .modify fun _ sized => ⟨Nat.le_refl _, sized⟩
  unfold noteSpread
  infer_instance

instance (start : Nat) : Moves (noteShorthand start) :=
  .modify fun _ sized => ⟨Nat.le_refl _, sized⟩

end TaggedMarkup.Script

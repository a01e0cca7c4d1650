import Mathlib
import TaggedMarkup.Proofs.Compile.Phrases

/-!
# Expressions and the templates in them

Readers of expressions keep the starts of templates apart. A template with a tag starts where its
tag does, so this place has to be kept for it while the accesses behind the tag are read: that is
why `link` is shown for the offset at which the reader of accesses started, and not for any offset.
-/

namespace TaggedMarkup.Compile

open Script Parse

variable (g : Grammar) [Faithful g] (cx : Context)

/-! ## Templates -/

/-- The templates in the holes of a template start behind its own start. -/
lemma templateParts_since {n : Nat} {c c' : Cursor} {chunks : List Chunk} {holes : List Expr}
    (sized : c.Sized) (ran : templateParts g cx c = some ((chunks, holes), c')) :
    Since n (c.start + 1) (tally n holes) c' := by
  obtain ⟨_, _, got, ran⟩ := run_bind.1 ran
  cases got
  obtain ⟨_, _, required, ran⟩ := run_bind.1 ran
  obtain ⟨-, rfl⟩ := run_require.1 required
  refine iterate_induct
    (I := fun s _ => c.start ≤ s.1 ∧
      tally n s.2.2.2 ≤ if c.start + 1 ≤ n ∧ n < s.1 + 1 then 1 else 0)
    (J := fun b d => Since n (c.start + 1) (tally n b.2) d) ?_
    ⟨sized, Nat.zero_le _⟩ ran
  rintro ⟨pos, text, chunks, holes⟩ d r d' ⟨le, held⟩ ran
  rcases read : Lexeme.readChunk 0 [] text with _ | ⟨raw, size, ending, rest⟩
  · simp only [read] at ran
    cases ran
  have behind : pos < (d.moveTo (pos + size) rest).start := moves_chunk read
  have since : Since n (c.start + 1) (tally n holes) (d.moveTo (pos + size) rest) := by
    refine ⟨d.sized_moveTo _ _, le.trans_lt behind, held.trans ?_⟩
    split_ifs <;> omega
  cases ending with
  | quote =>
    simp only [read] at ran
    obtain ⟨_, _, moved, ran⟩ := run_bind.1 ran
    cases moved
    obtain ⟨rfl, rfl⟩ := run_pure.1 ran
    exact since.mono (by simp)
  | hole =>
    simp only [read] at ran
    obtain ⟨e, first, rfl⟩ :=
      run_hole (f := fun e d => Round.more (d.stop, d.after, _ :: chunks, e :: holes)) ran
    obtain ⟨sized, le', held⟩ := Reads.since since first
    have : d'.start ≤ d'.stop := sized
    refine ⟨by omega, ?_⟩
    rw [Tally.cons, Nat.add_comm]
    refine held.trans ?_
    split_ifs <;> omega

instance : Reads (templateParts g cx) where
  yields _ _ _ _ since ran :=
    (templateParts_since g cx since.sized ran).lower (Nat.le_succ _)

instance : Reads (template g cx) := by
  unfold template
  refine .of fun n lo => .skip fun start => .read fun ⟨chunks, holes⟩ => ?_
  exact Needs.yields (by simp [outlineExpr])

instance : Reads regex where
  yields n c a c' since ran := by
    obtain ⟨_, _, got, ran⟩ := run_bind.1 ran
    cases got
    rcases read : Lexeme.readRegex c.here with _ | ⟨size, rest⟩
    · simp only [read] at ran
      cases ran
    · simp only [read] at ran
      obtain ⟨_, _, went, ran⟩ := run_bind.1 ran
      cases went
      obtain ⟨rfl, rfl⟩ := run_pure.1 ran
      exact since.moves
        ⟨(Nat.le_add_right _ _).trans (c.le_start_moveTo _ _), c.sized_moveTo _ _⟩

/-! ## Literals -/

instance (start : Nat) : Reads (arrayElement g cx start) := by
  unfold arrayElement
  exact Needs.reads (by simp [outlineItem])

instance : Reads (argument g cx) := by
  unfold argument
  exact Needs.reads (by simp [outlineItem])

instance : Reads (arguments g cx) := by
  unfold arguments
  exact Needs.reads (by simp)

instance {n lo held : Nat} (key : Key) (method : Parse Function) [Reads method] :
    Needs n lo held (objectMethod key method) (tally n key ≤ held) where
  yields le := by
    unfold objectMethod
    refine Needs.yields fun _ f _ => ?_
    simp [outlineMember, outlineExpr] at le ⊢
    exact le

instance (id : Name) : Reads (shorthand g cx id) := by
  unfold shorthand
  exact Needs.reads (by simp [outlineMember])

instance (start : Nat) : Reads (objectMember g cx start) := by
  unfold objectMember
  refine .of fun n lo => .skip fun spreads => ?_
  split
  · exact Needs.yields (by simp [outlineMember])
  refine .skip fun word => ?_
  split
  · exact Needs.yields (by simp)
  refine .skip fun isAsync => ?_
  extract_lets rest
  have ends (u : Unit) : Yields n lo 0 (rest u) := by
    refine .skip fun isGenerator => .skip fun short => .read fun key => ?_
    cases short <;> exact Needs.yields (by simp [outlineMember])
  split
  · exact .skip ends
  · exact ends ()

/-! ## Primary expressions -/

instance : Reads (functionExpression g cx) := by
  unfold functionExpression
  exact Needs.reads (by simp [outlineExpr])

instance : Reads (classExpression g cx) := by
  unfold classExpression
  exact Needs.reads (by simp [outlineExpr])

instance : Reads (importExpression g cx) := by
  unfold importExpression
  dsimp only
  exact Needs.reads (by simp [outlineExpr])

instance : Reads (primary g cx) := by
  unfold primary
  refine .of fun n lo => .skip fun start => .skip fun t => ?_
  split
  all_goals exact Needs.yields (by simp [outlineExpr])

instance : Reads (construction g cx) := by
  unfold construction
  exact Needs.reads (by simp [outlineExpr])

instance : Reads (base g cx) := by
  unfold base
  exact Needs.reads (by simp)

/-! ## Accesses and calls -/

instance : Moves (argumentsOfType g cx) := by unfold argumentsOfType; infer_instance

section

variable {n lo held : Nat} (start : Nat) (e : Expr)

instance : Needs n lo held (dotAccess start e) (tally n e ≤ held) where
  yields le := by
    unfold dotAccess
    refine .skip fun t => ?_
    split <;> exact Needs.yields (by simpa [outlineExpr] using le)

instance : Needs n lo held (indexAccess g cx start e) (tally n e ≤ held) where
  yields le := by
    unfold indexAccess
    exact Needs.yields (by simpa [outlineExpr] using le)

/-- The template starts where its tag does, in front of all that its holes have. -/
instance : Needs n start held (taggedTemplate g cx start e) (tally n e ≤ held) where
  yields le c a c' since ran := by
    obtain ⟨⟨chunks, holes⟩, d, first, ran⟩ := run_bind.1 ran
    obtain ⟨span, _, got, ran⟩ := run_bind.1 ran
    cases got
    obtain ⟨rfl, rfl⟩ := run_pure.1 ran
    have parts := templateParts_since (n := n) g cx since.sized first
    cases bare : bareName? e with
    | none =>
      refine ((since.mono le).trans (parts.lower (Nat.le_succ _))).mono ?_
      simp [outlineExpr, bare]
    | some name =>
      refine ⟨parts.sized, since.le_start.trans ((Nat.le_succ _).trans parts.le_start), ?_⟩
      have := parts.held_le
      have := parts.le_start
      have := since.le_start
      simp [outlineExpr, bare] 
      split_ifs at * <;> omega

instance : Needs n lo held (optionalLink g cx start e) (tally n e ≤ held) where
  yields le := by
    unfold optionalLink
    exact Needs.yields (by simpa [outlineExpr] using le)

/-- If there is no link, then the expression is still held. -/
lemma yields_link (calls optional : Bool) (le : tally n e ≤ held) :
    @Yields _ (.orElse (e, optional)) n start held (link g cx calls start optional e) := by
  let _ : Tally (Option (Expr × Bool)) := .orElse (e, optional)
  have found (next : Expr × Bool) : tally n (some next) = tally n next := rfl
  have same : tally n (none : Option (Expr × Bool)) = tally n e := rfl
  unfold link
  refine .skip fun t => ?_
  split <;> refine Needs.yields ?_ <;> simp [outlineExpr, found, same] at le ⊢ <;> grind

end

instance (calls : Bool) : Reads (links g cx calls) where
  yields n c a c' since ran := by
    obtain ⟨start, _, got, ran⟩ := run_bind.1 ran
    cases got
    refine (?_ : Yields n c.start 0 _) since ran
    refine .read fun e => .iterate (by simp) ?_
    rintro ⟨e, optional⟩
    let _ : Tally (Option (Expr × Bool)) := .orElse (e, optional)
    refine .andThen (yields_link g cx c.start e calls optional (Nat.le_refl _)) fun r => ?_
    cases r with
    | some next => exact Needs.yields (Nat.le_refl (tally n next))
    | none =>
      change Yields n c.start (tally n e) _
      dsimp only
      split
      · exact Needs.yields (by simp)
      split <;> exact Needs.yields (by simp)

instance : Reads (accessChain g cx) := by unfold accessChain; infer_instance

instance : Reads (calleeChain g cx) := by
  unfold calleeChain
  exact Needs.reads (by simp [startsAt_withoutArguments])

/-! ## Operands -/

instance : Reads (unaryExpression g cx) := by
  unfold unaryExpression
  exact Needs.reads (by simp [outlineExpr])

instance : Reads (operand g cx) := by
  unfold operand
  refine .of fun n lo => .skip fun t => ?_
  split <;> exact Needs.yields (by simp [outlineExpr])

instance : Moves (modify fun c => if c.token == .sign ">" then c.joinGreater else c : Parse Unit) :=
  .modify fun c sized => by
    split
    · rw [Cursor.joinGreater]
      split
      · exact ⟨Nat.le_refl _, Nat.le_add_right _ _⟩
      · exact ⟨Nat.le_refl _, sized⟩
    · exact ⟨Nat.le_refl _, sized⟩

instance (level : Nat) : Reads (joinedOperands g cx level) := by
  unfold joinedOperands
  refine .of fun n lo => .skip fun start => .read fun first => .iterate (by simp) ?_
  rintro ⟨left, isOther⟩
  refine .skip fun _ => .skip fun form => ?_
  cases form with
  | some form => exact Needs.yields (by simp)
  | none =>
    refine .skip fun op => ?_
    cases op with
    | none => exact Needs.yields (by simp)
    | some op => exact Needs.yields (by simp [outlineExpr])

/-! ## Arrows -/

instance (isAsync : Bool) : Reads (arrowBody g cx isAsync) := by
  unfold arrowBody
  exact Needs.reads (by simp [outlineBody])

instance (start : Nat) (isAsync : Bool) : Reads (shortArrow g cx start isAsync) := by
  unfold shortArrow
  exact Needs.reads (by simp [outlineExpr, outlineFunction, outlinePatternItem, outlinePattern])

instance (isAsync : Bool) : Reads (arrowHead g cx isAsync) := by
  unfold arrowHead
  refine .of fun n lo => ?_
  extract_lets inner rest
  have params (u : Unit) : Yields n lo 0 (rest u) := by
    refine .read fun ⟨params, hasThis⟩ => ?_
    dsimp only
    exact Needs.yields (by simp)
  split
  · exact .skip params
  · exact params ()

instance (start : Nat) (isAsync : Bool) : Reads (longArrow? g cx start isAsync) := by
  unfold longArrow?
  refine .of fun n lo => .get fun c since => .andThen (Needs.yields trivial) fun head => ?_
  split
  · exact Needs.yields (by simp)
  · next params hasResult =>
    extract_lets arrow
    have reads : Yields n lo (tally n params) arrow :=
      Needs.yields (by simp [outlineExpr, outlineFunction])
    split
    · have whole : Yields n lo (tally n params)
          (attempt do let e ← arrow; require (← isSign ":"); return e) :=
        .attempt (.andThen reads fun e => Needs.yields (by simp))
      refine .andThen whole fun found => ?_
      cases found with
      | some e => exact Needs.yields (by simp)
      | none => exact .set since (Needs.yields (by simp))
    · exact .andThen reads fun e => Needs.yields (by simp)

instance : Reads (asyncArrow? g cx) := by
  unfold asyncArrow?
  refine .of fun n lo => .skip fun start => .skip fun follows => ?_
  split
  · exact Needs.yields (by simp)
  refine .get fun c since => .skip fun _ => .skip fun isShort => ?_
  split
  · exact Needs.yields (by simp)
  refine .read fun found => ?_
  cases found with
  | some e => exact Needs.yields (by simp)
  | none => exact .set since (Needs.yields (by simp))

instance : Reads (arrow? g cx) := by
  unfold arrow?
  refine .of fun n lo => .skip fun start => .skip fun t => ?_
  split
  · exact Needs.yields (by simp)
  · exact Needs.yields (by simp)
  · extract_lets rest
    have short (u : Unit) : Yields n lo 0 (rest u) := Needs.yields (by simp)
    split
    · refine .read fun found => ?_
      cases found with
      | some e => exact Needs.yields (by simp)
      | none => exact fun _ _ _ since => short () (since.mono (Nat.zero_le _))
    · exact short ()
  · exact Needs.yields (by simp)

/-! ## Assignments -/

instance : Reads (yieldExpression g cx) := by
  unfold yieldExpression
  dsimp only
  refine .of fun n lo => .skip fun start => .skip fun _ => .skip fun ends => ?_
  split
  · exact Needs.yields (by simp [outlineExpr])
  refine .skip fun all => .skip fun t => ?_
  split <;> exact Needs.yields (by simp [outlineExpr])

instance : Reads (assignmentExpression g cx) := by
  unfold assignmentExpression
  refine .of fun n lo => .skip fun start => .skip fun yields => ?_
  split
  · exact Needs.yields (by simp)
  refine .read fun arrow => ?_
  cases arrow <;> exact Needs.yields (by simp [outlineExpr, Nat.add_assoc])

end TaggedMarkup.Compile

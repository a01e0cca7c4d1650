import Mathlib
import TaggedMarkup.Proofs.Compile.Starts
import TaggedMarkup.Proofs.Script.Literal

/-!
# Phrases and the templates in them

Readers of patterns, types, functions and classes keep the starts of templates apart, if the grammar
does so for the phrases to which they refer (`Faithful`). Most readers need nothing but their
parts: what is left are the values at their ends.
-/

namespace TaggedMarkup.Compile

open Script Parse

/-- The readers of a grammar keep the starts of templates apart. -/
class Faithful (g : Grammar) : Prop where
  assignment (cx : Context) : Reads (g.assignment cx)
  operands (cx : Context) (level : Nat) : Reads (g.operands cx level)
  unary (cx : Context) : Reads (g.unary cx)
  access (cx : Context) : Reads (g.access cx)
  callee (cx : Context) : Reads (g.callee cx)
  statement (cx : Context) : Reads (g.statement cx)
  body (cx : Context) : Reads (g.body cx)
  binding (cx : Context) : Reads (g.binding cx)
  type (cx : Context) : Moves (g.type cx)

attribute [instance] Faithful.assignment Faithful.operands Faithful.unary Faithful.access
  Faithful.callee Faithful.statement Faithful.body Faithful.binding Faithful.type

variable (g : Grammar) [Faithful g] (cx : Context)

/-! ## Phrases in common -/

instance : Reads (expression g cx) := by
  unfold expression
  refine .of fun n lo => .skip fun start => .read fun es => ?_
  split <;> exact Needs.yields (by simp [outlineExpr])

instance : Reads (propertyKey g cx) := by
  unfold propertyKey
  refine .of fun n lo => .skip fun t => ?_
  split <;> exact Needs.yields (by simp [outlineKey])

instance : Moves (annotation? g cx) := by unfold annotation?; infer_instance

instance : Reads (statementsUntilBrace g cx) := by
  unfold statementsUntilBrace
  exact Needs.reads (by simp [Nat.add_comm])

instance : Reads (blockOf g cx) := by
  unfold blockOf
  exact Needs.reads (by simp)

/-! ## Patterns and parameters -/

instance (optional : Bool) : Reads (annotated g cx optional) := by
  unfold annotated
  dsimp only
  exact Needs.reads (by simp)

instance (target : Parse Pattern) [Reads target] : Reads (withDefault g cx target) := by
  unfold withDefault
  exact Needs.reads (by simp [startsAt_withDefault_le])

instance : Reads (element g cx) := by unfold element; infer_instance

instance (close : String) : Reads (restElement g cx close) := by
  unfold restElement
  exact Needs.reads (by simp)

instance : Reads (objectPart g cx) := by
  unfold objectPart
  dsimp only
  have short (n : Nat) (id : Name) (value : Expr) (span : Span) :
      (outlinePattern (.withDefault (.name id id.span) value span)).startsAt n ≤
        (outlineExpr value).startsAt n := by
    simpa [outlinePattern] using startsAt_withDefault_le n (.name id id.span) value span
  exact Needs.reads (by simp [outlinePart, outlineKey, short, outlinePattern.eq_1])

instance : Reads (arrayItem g cx) := by
  unfold arrayItem
  exact Needs.reads (by simp [outlinePatternItem])

instance : Reads (bindingPattern g cx) := by
  unfold bindingPattern
  refine .of fun n lo => .skip fun start => .skip fun t => ?_
  split <;> exact Needs.yields (by simp [outlinePattern])

instance : Reads (decorator g cx) := by
  unfold decorator
  exact Needs.reads (by simp)

instance : Reads (decorators g cx) := by
  unfold decorators
  exact Needs.reads (by simp [Nat.add_comm])

instance (ofConstructor : Bool) : Reads (parameter g cx ofConstructor) := by
  unfold parameter
  dsimp only
  exact Needs.reads (by simp [outlinePatternItem])

instance : Moves (thisParameter? g cx) := by
  unfold thisParameter?
  dsimp only
  infer_instance

instance (ofConstructor : Bool) : Reads (parameterList g cx ofConstructor) := by
  unfold parameterList
  exact Needs.reads (by simp)

instance (ofConstructor : Bool) : Reads (parameters g cx ofConstructor) := by
  unfold parameters
  refine .of fun n lo => .read fun ⟨params, hasThis⟩ => Needs.yields (by simp)

/-! ## Types -/

set_option synthInstance.maxSize 100000 in
instance : Moves (openTypeArguments g cx) := by unfold openTypeArguments; infer_instance

instance : Moves (typeArguments g cx) := by unfold typeArguments; infer_instance

instance : Moves (typeArguments? g cx) := by unfold typeArguments?; infer_instance

set_option synthInstance.maxSize 100000 in
instance : Moves (typeParameter g cx) := by
  unfold typeParameter
  dsimp only
  infer_instance

instance : Moves (typeParameters? g cx) := by unfold typeParameters?; infer_instance

instance : Moves (resultType g cx) := by
  unfold resultType
  dsimp only
  infer_instance

instance : Moves (resultAnnotation? g cx) := by unfold resultAnnotation?; infer_instance

instance : Moves (typeFunctionParameters g cx) := by unfold typeFunctionParameters; infer_instance

instance : Moves (signature g cx) := by unfold signature; infer_instance

instance : Moves (functionType g cx) := by unfold functionType; infer_instance

instance : Moves (opensFunctionType g cx) := by unfold opensFunctionType; infer_instance

instance : Moves (atFunctionType g cx) := by
  unfold atFunctionType
  refine .andThen fun t => ?_
  split <;> infer_instance

instance : Moves (typeReference g cx) := by unfold typeReference; infer_instance

set_option synthInstance.maxSize 100000 in
instance : Moves (importType g cx) := by
  unfold importType
  dsimp only
  infer_instance

set_option synthInstance.maxSize 100000 in
instance : Moves (tupleItem g cx) := by
  unfold tupleItem
  dsimp only
  infer_instance

instance : Moves endMember := by unfold endMember; infer_instance

set_option synthInstance.maxSize 100000 in
instance : Moves (indexSignature g cx) := by unfold indexSignature; infer_instance

instance : Moves (typeKey g cx) := by
  unfold typeKey
  refine .andThen fun key => ?_
  split <;> infer_instance

set_option synthInstance.maxSize 100000 in
instance : Moves (typeMember g cx) := by
  unfold typeMember
  dsimp only
  refine .andThen fun isSignature => ?_
  split
  · infer_instance
  refine .andThen fun isNew => .andThen fun _ => ?_
  split
  · infer_instance
  refine .andThen fun found => .andThen fun _ => .andThen fun word => ?_
  split <;> infer_instance

instance : Moves (typeMembers g cx) := by unfold typeMembers; infer_instance

instance (modifier : Parse Bool) [Moves modifier] : Moves (mappedModifier modifier) := by
  unfold mappedModifier
  infer_instance

set_option synthInstance.maxSize 100000 in
instance : Moves (mappedType g cx) := by
  unfold mappedType
  dsimp only
  infer_instance

instance (word : String) : Moves (wordType g cx word) := by
  unfold wordType
  split <;> infer_instance

/-- A chunk of a template has at least the sign that ends it. -/
lemma moves_chunk {pos size : Nat} {text raw rest : List Char} {ending : Lexeme.ChunkEnd}
    {c : Cursor} (read : Lexeme.readChunk 0 [] text = some (raw, size, ending, rest)) :
    pos < (c.moveTo (pos + size) rest).start :=
  (Nat.lt_add_of_pos_right (size_lt_readChunk read)).trans_le (c.le_start_moveTo _ _)

instance : Moves (templateType g cx) where
  moves {c a c'} sized ran := by
    obtain ⟨_, _, got, ran⟩ := run_bind.1 ran
    cases got
    refine iterate_induct (I := fun s d => c.start ≤ d.start ∧ d.Sized ∧ c.start ≤ s.1)
      (J := fun _ d => c.start ≤ d.start ∧ d.Sized) ?_ ⟨Nat.le_refl _, sized, sized⟩ ran
    rintro ⟨pos, text⟩ d r d' ⟨-, -, lo⟩ ran
    rcases read : Lexeme.readChunk 0 [] text with _ | ⟨raw, size, _ | _, rest⟩
    all_goals simp only [read] at ran
    · cases ran
    · obtain ⟨_, _, moved, ran⟩ := run_bind.1 ran
      cases moved
      obtain ⟨rfl, rfl⟩ := run_pure.1 ran
      exact ⟨lo.trans (moves_chunk read).le, d.sized_moveTo _ _⟩
    · obtain ⟨_, typed, rfl⟩ := run_hole (f := fun _ e => Round.more (e.stop, e.after)) ran
      obtain ⟨le, sized⟩ := Moves.moves (d.sized_moveTo _ _) typed
      have le : c.start ≤ d'.start := (lo.trans (moves_chunk read).le).trans le
      exact ⟨le, sized, le.trans sized⟩

instance : Moves (primaryType g cx) := by
  unfold primaryType
  dsimp only
  refine .andThen fun t => ?_
  split <;> infer_instance

instance : Moves (postfixType g cx) := by
  unfold postfixType
  dsimp only
  refine .andThen fun _ => .andThen fun form => @Moves.iterate _ _ _ _ fun form =>
    .andThen fun ends => ?_
  split
  · infer_instance
  refine .andThen fun t => ?_
  split <;> infer_instance

instance : Moves (inferredType g cx) := by unfold inferredType; infer_instance

instance : Moves (operatorType g cx) := by unfold operatorType; infer_instance

instance (sign : String) (item : Parse Unit) [Moves item] : Moves (joinedTypes sign item) := by
  unfold joinedTypes
  infer_instance

instance : Moves (unionType g cx) := by unfold unionType; infer_instance

set_option synthInstance.maxSize 100000 in
instance : Moves (anyType g cx) := by
  unfold anyType
  infer_instance

/-! ## Functions -/

instance (name : Option Name) (form : FunctionForm) : Reads (functionRest g cx name form) := by
  unfold functionRest
  refine .of fun n lo => ?_
  -- The parameters come behind the type parameters, if there are any.
  extract_lets cx rest
  have params (u : Unit) : Yields n lo 0 (rest u) := by
    refine .read fun ⟨params, hasThis⟩ => ?_
    exact Needs.yields (by simp [outlineFunction, outlineBody])
  split
  · exact .skip params
  · exact params ()

instance (isAsync needsName : Bool) : Reads (functionFrom g cx isAsync needsName) := by
  unfold functionFrom
  dsimp only
  exact Needs.reads (by simp)

instance (word : String) (needsBody : Bool) : Reads (accessorRest g cx word needsBody) := by
  unfold accessorRest
  refine .of fun n lo => .read fun ⟨name, params, body⟩ => ?_
  exact Needs.yields (by simp)

/-! ## Classes -/

instance : Reads (classKey g cx) := by
  unfold classKey
  refine .of fun n lo => .skip fun t => ?_
  split <;> exact Needs.yields (by simp [outlineKey])

section

variable {n lo held : Nat} (decs : List Expr) (found : List String) (key : Key)

instance (word : String) :
    Needs n lo held (classAccessor g cx decs found word) (tally n decs ≤ held) where
  yields le := by
    unfold classAccessor
    refine Needs.yields fun _ key _ f => ?_
    simp [outlineClassMember]
    omega

instance (isGenerator : Bool) :
    Needs n lo held (classMethod g cx decs found isGenerator key)
      (tally n decs + tally n key ≤ held) where
  yields le := by
    unfold classMethod
    dsimp only
    refine Needs.yields ?_
    simp [outlineClassMember] at le ⊢
    grind

instance :
    Needs n lo held (classField g cx decs found key) (tally n decs + tally n key ≤ held) where
  yields le := by
    unfold classField
    dsimp only
    refine Needs.yields ?_
    simp [outlineClassMember] at le ⊢
    grind

end

instance : Reads (classMember g cx) := by
  unfold classMember
  dsimp only
  refine .of fun n lo => .read fun decs => .skip fun _ => .skip fun _ => ?_
  split
  · exact Needs.yields (by simp [outlineClassMember])
  refine .skip fun found => .skip fun word => ?_
  split <;> exact Needs.yields (by simp [outlineClassMember])

instance : Reads (classMembers g cx) := by
  unfold classMembers
  exact Needs.reads (by simp [Nat.add_comm])

/-- An expression has the same starts without its type arguments. -/
lemma startsAt_withoutArguments (n : Nat) (e : Expr) :
    (outlineExpr e.withoutArguments).startsAt n = (outlineExpr e).startsAt n := by
  unfold Expr.withoutArguments
  split
  · simp [outlineExpr]
  · rfl

set_option synthInstance.maxSize 100000 in
instance {n lo held : Nat} (decs : List Expr) :
    Needs n lo held (classFrom g cx decs) (tally n decs ≤ held) where
  yields le := by
    unfold classFrom
    dsimp only
    refine Needs.yields ?_
    have same (parent : Option Expr) :
        tally n (parent.map Expr.withoutArguments) = tally n parent := by
      cases parent <;> simp [startsAt_withoutArguments]
    simp [outlineClass, same] at le ⊢
    grind

end TaggedMarkup.Compile

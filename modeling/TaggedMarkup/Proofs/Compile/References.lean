import Mathlib
import TaggedMarkup.Proofs.Compile.Edits

/-!
# References to the tag

The tag stays imported if the walk has counted a use of it. Here all references to the tag are
listed that a compiled script still has, each with the place that the walk passes over around it, if
there is one (`tagsInStatements`). The walk counts just those around which there is none
(`counts_statements`), so references in the other places do not keep the import.
-/

namespace TaggedMarkup.Compile

open Script

/-! ## Places that are passed over -/

/-- A place that the walk passes over. -/
inductive Passed where
  | assignmentTarget
  | updateTarget
  | secretMember
  | loadArgument
  | typeAssertion
  | typeArguments
  | chainEnd
  | shorthandDefault
  | classKey
  | decorator
  | accessorValue
  | catchParameter
  | loopHead
  | withStatement
  | enumValue
  | namespaceBody
  | importAlias
  | exportList
  | exportedValue
  | type
  deriving DecidableEq, Repr

/-- The outermost of two places, where `place` is the one around the other, if there is one. -/
abbrev within (place : Option Passed) (inner : Passed) : Option Passed := place <|> some inner

/-! ## References in syntax

What is passed over is listed as the rest is, with the place noted. References are told by their
text, whatever scope they stand in. -/

/-- A name that is the tag. -/
def tagIn (file : File) (place : Option Passed) (text : String) : List (Option Passed) :=
  if text = file.tag then [place] else []

mutual

/-- The references to the tag in an expression. That of a site is none, unless the site is passed
over. -/
def tagsInExpr (file : File) (place : Option Passed) : Expr → List (Option Passed)
  | .name id => tagIn file place id.text
  | .tagged tag _ holes _ =>
    (if place = none ∧ isTag file tag then [] else tagsInExpr file place tag) ++
      tagsInExprs file place holes
  | .template _ holes _ => tagsInExprs file place holes
  | .arrow f _ => tagsInFunction file place f
  | .function f _ => tagsInFunction file place f
  | .class c _ => tagsInClass file place c
  | .array items _ => tagsInItems file place items
  | .object members _ => tagsInMembers file place members
  | .call callee args _ => tagsInExpr file place callee ++ tagsInItems file place args
  | .construct callee args _ => tagsInExpr file place callee ++ tagsInItems file place args
  | .chain links _ =>
    -- The kind of the last link decides on the whole chain.
    tagsInExpr file (if isVisitedLink links then place else within place .chainEnd) links
  | .member object _ _ => tagsInExpr file place object
  | .index object index _ => tagsInExpr file place object ++ tagsInExpr file place index
  | .assign _ target value _ =>
    tagsInExpr file (within place .assignmentTarget) target ++ tagsInExpr file place value
  | .await value _ => tagsInExpr file place value
  | .yield value _ => tagsInOption file place value
  | .unary operand _ => tagsInExpr file place operand
  | .binary left right _ => tagsInExpr file place left ++ tagsInExpr file place right
  | .logical left right _ => tagsInExpr file place left ++ tagsInExpr file place right
  | .conditional test yes no _ =>
    tagsInExpr file place test ++ (tagsInExpr file place yes ++ tagsInExpr file place no)
  | .sequence items _ => tagsInExprs file place items
  | .paren inner _ => tagsInExpr file place inner
  | .cast .assertion value _ => tagsInExpr file (within place .typeAssertion) value
  | .cast .as value _ => tagsInExpr file place value
  | .cast .satisfies value _ => tagsInExpr file place value
  | .cast .nonNull value _ => tagsInExpr file place value
  | .update target _ => tagsInExpr file (within place .updateTarget) target
  | .secret object _ _ => tagsInExpr file (within place .secretMember) object
  | .hasSecret _ object _ => tagsInExpr file (within place .secretMember) object
  | .load args _ => tagsInExprs file (within place .loadArgument) args
  | .instantiate value _ => tagsInExpr file (within place .typeArguments) value
  | .literal _ | .string _ _ | .keyword _ => []

def tagsInExprs (file : File) (place : Option Passed) : List Expr → List (Option Passed)
  | [] => []
  | e :: es => tagsInExpr file place e ++ tagsInExprs file place es

def tagsInOption (file : File) (place : Option Passed) : Option Expr → List (Option Passed)
  | none => []
  | some e => tagsInExpr file place e

def tagsInItems (file : File) (place : Option Passed) : List Item → List (Option Passed)
  | [] => []
  | item :: items => tagsInItem file place item ++ tagsInItems file place items

def tagsInItem (file : File) (place : Option Passed) : Item → List (Option Passed)
  | .hole => []
  | .expr value => tagsInExpr file place value
  | .spread value => tagsInExpr file place value

def tagsInMembers (file : File) (place : Option Passed) : List Member → List (Option Passed)
  | [] => []
  | m :: ms => tagsInMember file place m ++ tagsInMembers file place ms

def tagsInMember (file : File) (place : Option Passed) : Member → List (Option Passed)
  | .pair key value => tagsInKey file place key ++ tagsInExpr file place value
  | .method key value => tagsInKey file place key ++ tagsInExpr file place value
  | .short id => tagIn file place id.text
  | .shortDefault id value =>
    tagIn file place id.text ++ tagsInExpr file (within place .shorthandDefault) value
  | .spread value => tagsInExpr file place value

def tagsInKey (file : File) (place : Option Passed) : Key → List (Option Passed)
  | .computed value => tagsInExpr file place value
  | .fixed _ | .secret _ => []

/-- The references in a pattern. Its markers are taken out, unless it is passed over. -/
def tagsInPattern (file : File) (place : Option Passed) : Pattern → List (Option Passed)
  | .name _ _ => []
  | .object parts _ => tagsInParts file place parts
  | .array items _ => tagsInPatternItems file place items
  | .withDefault target value _ =>
    tagsInPattern file place target ++
      (if place = none ∧ value.isMarker then [] else tagsInExpr file place value)

def tagsInParts (file : File) (place : Option Passed) : List PatternPart → List (Option Passed)
  | [] => []
  | part :: parts => tagsInPart file place part ++ tagsInParts file place parts

def tagsInPart (file : File) (place : Option Passed) : PatternPart → List (Option Passed)
  | .prop key target => tagsInKey file place key ++ tagsInPattern file place target
  | .rest target => tagsInPattern file place target

def tagsInPatternItems (file : File) (place : Option Passed) :
    List PatternItem → List (Option Passed)
  | [] => []
  | item :: items => tagsInPatternItem file place item ++ tagsInPatternItems file place items

def tagsInPatternItem (file : File) (place : Option Passed) : PatternItem → List (Option Passed)
  | .hole => []
  | .item decorators target =>
    tagsInExprs file (within place .decorator) decorators ++ tagsInPattern file place target
  | .rest decorators target =>
    tagsInExprs file (within place .decorator) decorators ++ tagsInPattern file place target

def tagsInFunction (file : File) (place : Option Passed) : Function → List (Option Passed)
  | .mk _ params body => tagsInPatternItems file place params ++ tagsInBody file place body

def tagsInBody (file : File) (place : Option Passed) : Body → List (Option Passed)
  | .none => []
  | .expr value => tagsInExpr file place value
  | .block body => tagsInStatements file place body

def tagsInClass (file : File) (place : Option Passed) : Script.Class → List (Option Passed)
  | .mk decorators _ parent members =>
    tagsInExprs file (within place .decorator) decorators ++
      (tagsInOption file place parent ++ tagsInClassMembers file place members)

def tagsInClassMembers (file : File) (place : Option Passed) :
    List ClassMember → List (Option Passed)
  | [] => []
  | m :: ms => tagsInClassMember file place m ++ tagsInClassMembers file place ms

def tagsInClassMember (file : File) (place : Option Passed) : ClassMember → List (Option Passed)
  | .method decorators key f =>
    tagsInExprs file (within place .decorator) decorators ++
      (tagsInKey file (within place .classKey) key ++ tagsInFunction file place f)
  | .field decorators key value =>
    tagsInExprs file (within place .decorator) decorators ++
      (tagsInKey file (within place .classKey) key ++ tagsInOption file place value)
  | .accessor decorators key value =>
    tagsInExprs file (within place .decorator) decorators ++
      (tagsInKey file (within place .classKey) key ++
        tagsInOption file (within place .accessorValue) value)
  | .block body => tagsInStatements file place body
  | .signature => []

def tagsInDecls (file : File) (place : Option Passed) : List Declarator → List (Option Passed)
  | [] => []
  | d :: ds => tagsInDecl file place d ++ tagsInDecls file place ds

def tagsInDecl (file : File) (place : Option Passed) : Declarator → List (Option Passed)
  | .mk target value => tagsInPattern file place target ++ tagsInOption file place value

def tagsInCases (file : File) (place : Option Passed) : List Case → List (Option Passed)
  | [] => []
  | c :: cs => tagsInCase file place c ++ tagsInCases file place cs

def tagsInCase (file : File) (place : Option Passed) : Case → List (Option Passed)
  | .mk test body => tagsInOption file place test ++ tagsInStatements file place body

/-- The references in statements. -/
def tagsInStatements (file : File) (place : Option Passed) : List Stmt → List (Option Passed)
  | [] => []
  | s :: ss => tagsInStatement file place s ++ tagsInStatements file place ss

def tagsInStatement (file : File) (place : Option Passed) : Stmt → List (Option Passed)
  | .expr value _ => tagsInExpr file place value
  | .block body => tagsInStatements file place body
  | .cond test yes no =>
    tagsInExpr file place test ++ (tagsInStatement file place yes ++ tagsInStatement file place no)
  | .ret value _ => tagsInOption file place value
  | .vars _ decls => tagsInDecls file place decls
  | .function f => tagsInFunction file place f
  | .class c => tagsInClass file place c
  | .loop head test update body =>
    tagsInStatement file place head ++ (tagsInOption file place test ++
      (tagsInOption file place update ++ tagsInStatement file place body))
  | .each _ (.vars _ decls) source body =>
    tagsInDecls file place decls ++
      (tagsInExpr file place source ++ tagsInStatement file place body)
  -- A head that declares nothing is a target, and is not visited.
  | .each _ head source body =>
    tagsInStatement file (within place .loopHead) head ++
      (tagsInExpr file place source ++ tagsInStatement file place body)
  | .while test body => tagsInExpr file place test ++ tagsInStatement file place body
  | .doWhile body test => tagsInStatement file place body ++ tagsInExpr file place test
  | .switch value cases => tagsInExpr file place value ++ tagsInCases file place cases
  | .try body param handler finalizer =>
    tagsInStatements file place body ++
      (tagsInPatternItems file (within place .catchParameter) param ++
        (tagsInBody file place handler ++ tagsInBody file place finalizer))
  | .labeled _ body => tagsInStatement file place body
  | .throw value => tagsInExpr file place value
  | .with object body =>
    tagsInExpr file (within place .withStatement) object ++
      tagsInStatement file (within place .withStatement) body
  | .exported decl => tagsInStatement file place decl
  | .exportedDefault decl => tagsInStatement file place decl
  | .exportedNames names source =>
    -- Names from another module are not those of this one.
    if source.isNone then names.flatMap (tagIn file (within place .exportList)) else []
  | .exportedValue value => tagsInExpr file (within place .exportedValue) value
  | .enum _ _ values => tagsInExprs file (within place .enumValue) values
  | .namespace _ body => tagsInStatements file (within place .namespaceBody) body
  | .alias _ root =>
    root.toList.flatMap fun id => tagIn file (within place .importAlias) id.text
  | .exit | .import _ | .typeOnly => []

end

/-! ## Uses that a walk counts -/

/-- The uses of the tag in a plan. -/
def Plan.uses : Plan → Nat
  | .done | .remove _ => 0
  | .useTag => 1
  | .seq first second => first.uses + second.uses
  | .scope _ first _ second => first.uses + second.uses
  | .site _ inside => inside.uses

/-- To declare names counts no use. -/
lemma tagUses_declareAll {names : Declared} {s t : State}
    (ok : (declareAll names).exec s = (.ok (), t)) : t.tagUses = s.tagUses := by
  have keeps : Walk.Keeps State.tagUses (declareAll names) := keeps_declareAll names fun _ _ => rfl
  have kept := keeps.keep s
  rwa [ok] at kept

/-- To compile a site counts no use. -/
lemma tagUses_compileSite {file : File} {mark : Nat} {chunks : List Chunk} {holes : List Expr}
    {span : Span} {s t : State} {code : Code.RenderCode}
    (ok : (compileSite file mark chunks holes span).exec s = (.ok code, t)) :
    t.tagUses = s.tagUses := by
  obtain ⟨tables, sites, log, eq⟩ := state_compileSite file mark chunks holes span s
  rw [ok] at eq
  obtain rfl : t = _ := eq
  rfl

/-- A run counts the uses of its plan. -/
lemma Plan.tagUses_run {file : File} (p : Plan) {s t : State}
    (ok : (p.run file).exec s = (.ok (), t)) : t.tagUses = s.tagUses + p.uses := by
  induction p generalizing s t with
  | done =>
    cases ok
    rfl
  | seq first second ih₁ ih₂ =>
    obtain ⟨_, s₁, ok₁, ok₂⟩ := Walk.exec_bind_ok.1 ok
    rw [ih₂ ok₂, ih₁ ok₁, uses, Nat.add_assoc]
  | scope params first locals second ih₁ ih₂ =>
    obtain ⟨s₄, inner, rfl⟩ := Walk.exec_inScope_ok.1 ok
    obtain ⟨_, s₁, ok₁, rest⟩ := Walk.exec_bind_ok.1 inner
    obtain ⟨_, s₂, ok₂, rest⟩ := Walk.exec_bind_ok.1 rest
    obtain ⟨_, s₃, ok₃, ok₄⟩ := Walk.exec_bind_ok.1 rest
    have counted := tagUses_declareAll ok₁
    simp only [ih₂ ok₄, tagUses_declareAll ok₃, ih₁ ok₂, counted, uses, Nat.add_assoc]
  | remove spans =>
    cases ok
    rfl
  | useTag =>
    cases ok
    rfl
  | site here inside ih =>
    obtain ⟨_, s₁, ok₁, rest⟩ := Walk.exec_bind_ok.1 ok
    obtain ⟨_, s₂, ok₂, rest⟩ := Walk.exec_bind_ok.1 rest
    obtain ⟨code, s₃, ok₃, ok₄⟩ := Walk.exec_bind_ok.1 rest
    cases ok₁
    cases ok₄
    exact (tagUses_compileSite ok₃).trans (ih ok₂)

/-! ## References that are counted -/

/-- The references around which nothing is passed over are the uses of a plan. -/
structure Counts (place : Option Passed) (refs : List (Option Passed)) (p : Plan) : Prop where
  count : refs.count none = if place = none then p.uses else 0

namespace Counts

variable {file : File} {place : Option Passed} {refs others : List (Option Passed)} {p q : Plan}

/-- A plan that does nothing has no uses. -/
lemma done (place : Option Passed) : Counts place [] .done := by
  constructor
  simp [Plan.uses]

/-- The uses of two plans are counted one after the other. -/
lemma append (first : Counts place refs p) (second : Counts place others q) :
    Counts place (refs ++ others) (.seq p q) := by
  constructor
  rw [List.count_append, first.count, second.count]
  split <;> rfl

/-- The uses in a scope are those of its two parts. -/
lemma scope {params locals : Declared} (first : Counts place refs p)
    (second : Counts place others q) : Counts place (refs ++ others) (.scope params p locals q) :=
  ⟨(append first second).count⟩

/-- The uses in a block are those of its body. -/
lemma block {locals : Declared} (body : Counts place refs p) :
    Counts place refs (.block locals p) := scope (done place) body

/-- What is passed over has no reference that is counted. -/
lemma passed {inner : Passed} (counts : Counts (within place inner) refs p) :
    Counts place refs .done := by
  constructor
  have some : within place inner ≠ none := by cases place <;> simp [within]
  rw [counts.count, if_neg some]
  simp [Plan.uses]

/-- What is passed over in front of the rest. -/
lemma front {inner : Passed} (first : Counts (within place inner) refs q)
    (second : Counts place others p) : Counts place (refs ++ others) p := by
  constructor
  rw [List.count_append, first.passed.count, second.count]
  simp [Plan.uses]

/-- What is passed over behind the rest. -/
lemma behind {inner : Passed} (first : Counts place refs p)
    (second : Counts (within place inner) others q) : Counts place (refs ++ others) p := by
  constructor
  rw [List.count_append, first.count, second.passed.count]
  simp [Plan.uses]

/-- A name is a use if it is the tag. -/
lemma name (text : String) :
    Counts place (tagIn file place text) (if text = file.tag then .useTag else .done) := by
  constructor
  by_cases isTag : text = file.tag <;> by_cases outside : place = none <;>
    simp [tagIn, isTag, outside, Plan.uses]

/-- Names that are passed over. -/
lemma names {inner : Passed} (texts : List String) :
    Counts place (texts.flatMap (tagIn file (within place inner))) .done := by
  induction texts with
  | nil => exact done place
  | cons text texts ih => exact front (name text) ih

/-- A test on references that both belong to the plan. -/
lemma ite (c : Prop) [Decidable c] (yes : Counts place refs p) (no : Counts place others p) :
    Counts place (if c then refs else others) p := by
  split
  · exact yes
  · exact no

/-- Markers that are taken out are no uses. -/
lemma unmarked {markers : List Span} (counts : Counts place refs p) :
    Counts place refs (.seq (.remove markers) p) := by
  constructor
  rw [counts.count, Plan.uses, Plan.uses, Nat.zero_add]

/-- A site has the uses in its holes, and its tag is no use. -/
lemma tagged {tag : Expr} {chunks : List Chunk} {holes : List Expr} {span : Span}
    (first : Counts place (tagsInExpr file place tag) (planExpr file tag))
    (second : Counts place (tagsInExprs file place holes) (planExprs file holes)) :
    Counts place (tagsInExpr file place (.tagged tag chunks holes span))
      (planExpr file (.tagged tag chunks holes span)) := by
  by_cases isTag : isTag file tag = true
  · constructor
    rw [tagsInExpr, planExpr, if_pos isTag, List.count_append, second.count, Plan.uses]
    by_cases outside : place = none
    · simp [outside, isTag]
    · simp [outside, first.count]
  · rw [tagsInExpr, planExpr, if_neg isTag, if_neg fun both => isTag both.2]
    exact append first second

/-- A chain that is not visited to its end is passed over. -/
lemma chain {links : Expr} {span : Span}
    (counts : ∀ place, Counts place (tagsInExpr file place links) (planExpr file links)) :
    Counts place (tagsInExpr file place (.chain links span))
      (planExpr file (.chain links span)) := by
  rw [tagsInExpr, planExpr]
  split
  · exact counts place
  · exact (counts _).passed

/-- A pattern with a default value, which may be a marker. -/
lemma withDefault {target : Pattern} {value : Expr} {span : Span}
    (first : Counts place (tagsInPattern file place target) (planPattern file target))
    (second : Counts place (tagsInExpr file place value) (planExpr file value)) :
    Counts place (tagsInPattern file place (.withDefault target value span))
      (planPattern file (.withDefault target value span)) := by
  rw [tagsInPattern, planPattern]
  refine append first ?_
  by_cases isMarker : value.isMarker = true
  · constructor
    by_cases outside : place = none
    · simp [outside, isMarker, Plan.uses]
    · simp [outside, second.count]
  · rw [if_neg isMarker, if_neg fun both => isMarker both.2]
    exact second

end Counts

/-- The site that an expression is has the uses of the expression. -/
lemma uses_planSite (file : File) (replaced : Span) (form : Form) :
    ∀ (e : Expr) (p : Plan), planSite file replaced form e = some p →
      p.uses = (planExpr file e).uses
  | .tagged tag chunks holes span, p, eq => by
    rw [planSite] at eq
    split at eq
    · rename_i isTag
      cases eq
      rw [planExpr, if_pos isTag, Plan.uses, Plan.uses]
    · cases eq
  | .paren inner _, p, eq => uses_planSite file replaced form inner p eq
  | .name _, _, eq | .literal _, _, eq | .string _ _, _, eq | .keyword _, _, eq
  | .template _ _ _, _, eq | .array _ _, _, eq | .object _ _, _, eq | .function _ _, _, eq
  | .arrow _ _, _, eq | .class _ _, _, eq | .unary _ _, _, eq | .update _ _, _, eq
  | .binary _ _ _, _, eq | .logical _ _ _, _, eq | .conditional _ _ _ _, _, eq
  | .assign _ _ _ _, _, eq | .sequence _ _, _, eq | .call _ _ _, _, eq | .construct _ _ _, _, eq
  | .member _ _ _, _, eq | .index _ _ _, _, eq | .secret _ _ _, _, eq | .hasSecret _ _ _, _, eq
  | .chain _ _, _, eq | .await _ _, _, eq | .yield _ _, _, eq | .load _ _, _, eq
  | .cast _ _ _, _, eq | .instantiate _ _, _, eq => (Option.some_ne_none _ eq.symm).elim

/-- A site that stands for a body or a `return` is counted as the expression that it is. -/
lemma Counts.site {file : File} {place : Option Passed} {refs : List (Option Passed)}
    (replaced : Span) (form : Form) (e : Expr) (counts : Counts place refs (planExpr file e)) :
    Counts place refs ((planSite file replaced form e).getD (planExpr file e)) := by
  constructor
  rw [counts.count]
  cases h : planSite file replaced form e with
  | none => rfl
  | some p => rw [Option.getD_some, uses_planSite file replaced form e p h]

mutual

/-- A walk counts the references in an expression. -/
lemma counts_expr (file : File) (place : Option Passed) :
    ∀ e : Expr, Counts place (tagsInExpr file place e) (planExpr file e)
  | .name id => .name id.text
  | .tagged tag _ holes _ => .tagged (counts_expr file place tag) (counts_exprs file place holes)
  | .template _ holes _ => counts_exprs file place holes
  | .arrow f _ | .function f _ => counts_function file place f
  | .class c _ => counts_class file place c
  | .array items _ => counts_items file place items
  | .object members _ => counts_members file place members
  | .call callee args _ | .construct callee args _ =>
    .append (counts_expr file place callee) (counts_items file place args)
  | .chain links _ => .chain fun place => counts_expr file place links
  | .assign _ target value _ =>
    .front (counts_expr file _ target) (counts_expr file place value)
  | .await value _ | .unary value _ | .paren value _ | .member value _ _ | .cast .as value _
  | .cast .satisfies value _ | .cast .nonNull value _ => counts_expr file place value
  | .yield value _ => counts_option file place value
  | .binary left right _ | .logical left right _ | .index left right _ =>
    .append (counts_expr file place left) (counts_expr file place right)
  | .conditional test yes no _ =>
    .append (counts_expr file place test)
      (.append (counts_expr file place yes) (counts_expr file place no))
  | .sequence items _ => counts_exprs file place items
  | .update value _ | .secret value _ _ | .hasSecret _ value _ | .cast .assertion value _
  | .instantiate value _ => (counts_expr file _ value).passed
  | .load args _ => (counts_exprs file _ args).passed
  | .literal _ | .string _ _ | .keyword _ => .done place

/-- The uses in expressions. -/
lemma counts_exprs (file : File) (place : Option Passed) :
    ∀ es : List Expr, Counts place (tagsInExprs file place es) (planExprs file es)
  | [] => .done place
  | e :: es => .append (counts_expr file place e) (counts_exprs file place es)

/-- The uses in an expression that may be missing. -/
lemma counts_option (file : File) (place : Option Passed) :
    ∀ e : Option Expr, Counts place (tagsInOption file place e) (planOption file e)
  | none => .done place
  | some e => counts_expr file place e

/-- The uses in the items of an array. -/
lemma counts_items (file : File) (place : Option Passed) :
    ∀ items : List Item, Counts place (tagsInItems file place items) (planItems file items)
  | [] => .done place
  | item :: items => .append (counts_item file place item) (counts_items file place items)

/-- The uses in an item of an array. -/
lemma counts_item (file : File) (place : Option Passed) :
    ∀ item : Item, Counts place (tagsInItem file place item) (planItem file item)
  | .hole => .done place
  | .expr value | .spread value => counts_expr file place value

/-- The uses in the members of an object. -/
lemma counts_members (file : File) (place : Option Passed) :
    ∀ ms : List Member, Counts place (tagsInMembers file place ms) (planMembers file ms)
  | [] => .done place
  | m :: ms => .append (counts_member file place m) (counts_members file place ms)

/-- The uses in a member of an object. -/
lemma counts_member (file : File) (place : Option Passed) :
    ∀ m : Member, Counts place (tagsInMember file place m) (planMember file m)
  | .pair key value | .method key value =>
    .append (counts_key file place key) (counts_expr file place value)
  | .short id => .name id.text
  | .shortDefault id value => .behind (.name id.text) (counts_expr file _ value)
  | .spread value => counts_expr file place value

/-- The uses in a key. -/
lemma counts_key (file : File) (place : Option Passed) :
    ∀ key : Key, Counts place (tagsInKey file place key) (planKey file key)
  | .computed value => counts_expr file place value
  | .fixed _ | .secret _ => .done place

/-- The uses in a pattern. -/
lemma counts_pattern (file : File) (place : Option Passed) :
    ∀ p : Pattern, Counts place (tagsInPattern file place p) (planPattern file p)
  | .name _ _ => .done place
  | .object parts _ => counts_parts file place parts
  | .array items _ => counts_patternItems file place items
  | .withDefault target value _ =>
    .withDefault (counts_pattern file place target) (counts_expr file place value)

/-- The uses in the parts of an object pattern. -/
lemma counts_parts (file : File) (place : Option Passed) :
    ∀ parts : List PatternPart, Counts place (tagsInParts file place parts) (planParts file parts)
  | [] => .done place
  | part :: parts => .append (counts_part file place part) (counts_parts file place parts)

/-- The uses in a part of an object pattern. -/
lemma counts_part (file : File) (place : Option Passed) :
    ∀ part : PatternPart, Counts place (tagsInPart file place part) (planPart file part)
  | .prop key target => .append (counts_key file place key) (counts_pattern file place target)
  | .rest target => counts_pattern file place target

/-- The uses in the items of an array pattern. -/
lemma counts_patternItems (file : File) (place : Option Passed) :
    ∀ items : List PatternItem,
      Counts place (tagsInPatternItems file place items) (planPatternItems file items)
  | [] => .done place
  | item :: items =>
    .append (counts_patternItem file place item) (counts_patternItems file place items)

/-- The uses in an item of an array pattern. -/
lemma counts_patternItem (file : File) (place : Option Passed) :
    ∀ item : PatternItem,
      Counts place (tagsInPatternItem file place item) (planPatternItem file item)
  | .hole => .done place
  | .item decorators target | .rest decorators target =>
    .front (counts_exprs file _ decorators) (counts_pattern file place target)

/-- The uses in parameters. -/
lemma counts_params (file : File) (place : Option Passed) :
    ∀ items : List PatternItem,
      Counts place (tagsInPatternItems file place items) (planParams file items)
  | [] => .done place
  | item :: items => .append (counts_param file place item) (counts_params file place items)

/-- The uses in a parameter. -/
lemma counts_param (file : File) (place : Option Passed) :
    ∀ item : PatternItem, Counts place (tagsInPatternItem file place item) (planParam file item)
  | .hole => .done place
  | .item decorators target | .rest decorators target =>
    .front (counts_exprs file _ decorators) (counts_pattern file place target).unmarked

/-- The uses in a function. -/
lemma counts_function (file : File) (place : Option Passed) :
    ∀ f : Function, Counts place (tagsInFunction file place f) (planFunction file f)
  | .mk _ params body => .scope (counts_params file place params) (counts_body file place body)

/-- The uses in a body. -/
lemma counts_body (file : File) (place : Option Passed) :
    ∀ body : Body, Counts place (tagsInBody file place body) (planBody file body)
  | .none => .done place
  | .expr value => .site _ _ value (counts_expr file place value)
  | .block body => counts_statements file place body

/-- The uses in a block. -/
lemma counts_block (file : File) (place : Option Passed) :
    ∀ body : Body, Counts place (tagsInBody file place body) (planBlock file body)
  | .none => .done place
  | .expr value => counts_expr file place value
  | .block body => .block (counts_statements file place body)

/-- The uses in a class. -/
lemma counts_class (file : File) (place : Option Passed) :
    ∀ c : Script.Class, Counts place (tagsInClass file place c) (planClass file c)
  | .mk decorators _ parent members =>
    .front (counts_exprs file _ decorators)
      (.append (counts_option file place parent) (counts_classMembers file place members))

/-- The uses in the members of a class. -/
lemma counts_classMembers (file : File) (place : Option Passed) :
    ∀ ms : List ClassMember,
      Counts place (tagsInClassMembers file place ms) (planClassMembers file ms)
  | [] => .done place
  | m :: ms => .append (counts_classMember file place m) (counts_classMembers file place ms)

/-- The uses in a member of a class. -/
lemma counts_classMember (file : File) (place : Option Passed) :
    ∀ m : ClassMember, Counts place (tagsInClassMember file place m) (planClassMember file m)
  | .method decorators key f =>
    .front (counts_exprs file _ decorators)
      (.front (counts_key file _ key) (counts_function file place f))
  | .field decorators key value =>
    .front (counts_exprs file _ decorators)
      (.front (counts_key file _ key) (counts_option file place value))
  | .accessor decorators key value =>
    .front (counts_exprs file _ decorators)
      (.front (counts_key file _ key) (counts_option file _ value).passed)
  | .block body => .block (counts_statements file place body)
  | .signature => .done place

/-- The uses in declarations. -/
lemma counts_decls (file : File) (place : Option Passed) :
    ∀ ds : List Declarator, Counts place (tagsInDecls file place ds) (planDecls file ds)
  | [] => .done place
  | d :: ds => .append (counts_decl file place d) (counts_decls file place ds)

/-- The uses in a declaration. -/
lemma counts_decl (file : File) (place : Option Passed) :
    ∀ d : Declarator, Counts place (tagsInDecl file place d) (planDecl file d)
  | .mk target value =>
    .unmarked (.append (counts_pattern file place target) (counts_option file place value))

/-- The uses in the cases of a switch. -/
lemma counts_cases (file : File) (place : Option Passed) :
    ∀ cs : List Case, Counts place (tagsInCases file place cs) (planCases file cs)
  | [] => .done place
  | c :: cs => .append (counts_case file place c) (counts_cases file place cs)

/-- The uses in a case of a switch. -/
lemma counts_case (file : File) (place : Option Passed) :
    ∀ c : Case, Counts place (tagsInCase file place c) (planCase file c)
  | .mk test body => .append (counts_option file place test) (counts_statements file place body)

/-- A walk counts the references in statements. -/
lemma counts_statements (file : File) (place : Option Passed) :
    ∀ ss : List Stmt, Counts place (tagsInStatements file place ss) (planStatements file ss)
  | [] => .done place
  | s :: ss => .append (counts_statement file place true s) (counts_statements file place ss)

/-- A walk counts the references in a statement. -/
lemma counts_statement (file : File) (place : Option Passed) (inList : Bool) :
    ∀ s : Stmt, Counts place (tagsInStatement file place s) (planStatement file inList s)
  | .expr value _ | .throw value => counts_expr file place value
  | .block body => .block (counts_statements file place body)
  | .cond test yes no =>
    .append (counts_expr file place test)
      (.append (counts_statement file place false yes) (counts_statement file place false no))
  | .ret none _ => .done place
  | .ret (some value) _ => .site _ _ value (counts_expr file place value)
  | .vars _ decls => counts_decls file place decls
  | .function f => counts_function file place f
  | .class c => counts_class file place c
  | .loop head test update body =>
    .block (.append (counts_statement file place false head)
      (.append (counts_option file place test)
        (.append (counts_option file place update) (counts_statement file place false body))))
  | .each _ head source body => by
    have rest := (counts_expr file place source).append (counts_statement file place false body)
    have passed := counts_statement file (within place .loopHead) false head
    cases head
    case vars kind decls => exact .block (.append (counts_decls file place decls) rest)
    all_goals exact .block (.front passed rest)
  | .while test body =>
    .append (counts_expr file place test) (counts_statement file place false body)
  | .doWhile body test =>
    .append (counts_statement file place false body) (counts_expr file place test)
  | .switch value cases =>
    .append (counts_expr file place value) (.block (counts_cases file place cases))
  | .try body param handler finalizer =>
    .append (.block (counts_statements file place body))
      (.front (counts_patternItems file _ param)
        (.append (.block (counts_block file place handler)) (counts_block file place finalizer)))
  | .labeled _ body => counts_statement file place false body
  | .exported decl | .exportedDefault decl => counts_statement file place true decl
  | .with object body =>
    .front (counts_expr file _ object) (counts_statement file _ false body).passed
  | .exportedNames names _ => .ite _ (.names names) (.done place)
  | .exportedValue value => (counts_expr file _ value).passed
  | .enum _ _ values => (counts_exprs file _ values).passed
  | .namespace _ body => (counts_statements file _ body).passed
  | .alias _ none => .done place
  | .alias _ (some root) => .front (.name root.text) (.done place)
  | .exit | .import _ | .typeOnly => .done place

end

end TaggedMarkup.Compile

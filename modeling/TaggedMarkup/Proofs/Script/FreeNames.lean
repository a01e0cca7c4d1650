import Mathlib
import TaggedMarkup.Proofs.Compile.Lexical
import TaggedMarkup.Proofs.FirstUse
import TaggedMarkup.Script.Free

/-!
# Free names and lexical scope

Every reference in an expression stands in scopes of the expression (`Around`), and is free if none
of them binds its name. The names that are collected as free can be others: some places are not
looked into (`Skipped`), the names of a block are held to the end of its function, and some names
are not held at all: that of a function expression, a `var` further inside, and an enumeration or
namespace. Apart from that free names are exact (`freeNames_exact`). Types are no part of an
expression here: what they refer to has no value.
-/

namespace TaggedMarkup.Script

open Compile (leafOfName leavesOfDecls lexicalsBy namesBy varsBy)

/-! ## Names that are known to be bound -/

/-- The names of bindings. -/
def namesOf (bs : List Binding) : List String := bs.map Binding.name

/-- The names that a pattern is known to bind. Of one with misplaced markers none is known. -/
def Pattern.known (p : Pattern) : List String :=
  match p.bindings with
  | .ok bs => namesOf bs
  | .error _ => []

/-- The names that parameters are known to bind. -/
def knownOfItems (items : List PatternItem) : List String :=
  (items.filterMap PatternItem.pattern?).flatMap Pattern.known

/-- The names that a declaration is known to bind. -/
def Declarator.known : Declarator → List String
  | .mk target _ => target.known

/-- The names that a declaration gives without a pattern: to an enumeration, to a namespace, or to
what an import stands for. -/
def entityNames : Stmt → List String
  | .enum id _ _ => [id.text]
  | .namespace path _ => path.head?.toList.map Name.text
  | .alias id _ => [id.text]
  | .exported decl => entityNames decl
  | .labeled _ body => entityNames body
  | _ => []

/-- The names that a statement declares in the block around it. -/
def blockNames (s : Stmt) : List String := namesOf (lexicalsBy s) ++ entityNames s

/-- The names that a statement declares in a function of which it is a statement. -/
def scopeNames (s : Stmt) : List String := namesOf (namesBy s) ++ entityNames s

/-- The names that a statement of a list is known to declare. -/
def knownBy : Stmt → List String
  | .vars _ decls => decls.flatMap Declarator.known
  | .function (.mk name _ _) => namesOf (leafOfName name)
  | .class (.mk _ name _ _) => namesOf (leafOfName name)
  | _ => []

mutual

/-- The names that stay known behind a statement: those of all blocks in it that belong to the same
function. -/
def leftBy : Stmt → List String
  | .block body => body.flatMap knownBy ++ leftIn body
  | .cond _ yes no => leftBy yes ++ leftBy no
  | _ => []

def leftIn : List Stmt → List String
  | [] => []
  | s :: ss => leftBy s ++ leftIn ss

end

/-- The names that stay known in the body of a function. -/
def Body.left : Body → List String
  | .block body => leftBy (.block body)
  | .none | .expr _ => []

/-- The names that the collector takes from a pattern are names of the pattern. -/
lemma known_subset (p : Pattern) : p.known ⊆ namesOf (p.leaves false) := by
  unfold Pattern.known
  split
  · rename_i bs ok
    rw [Pattern.leaves_of_collect ok]
    exact fun _ mem => mem
  · exact List.nil_subset _

/-- The names that the collector takes from parameters are names of the parameters. -/
lemma knownOfItems_subset (items : List PatternItem) :
    knownOfItems items ⊆ namesOf (leavesOfItems false items) := by
  induction items with
  | nil => exact List.nil_subset _
  | cons item items ih =>
    cases item with
    | hole => exact ih
    | item _ target | rest _ target =>
      have first := known_subset target
      simp only [knownOfItems, List.filterMap_cons, PatternItem.pattern?, List.flatMap_cons,
        leavesOfItems, namesOf, List.map_append] at ih first ⊢
      exact List.append_subset.2
        ⟨List.subset_append_of_subset_left _ first, List.subset_append_of_subset_right _ ih⟩

/-- The names that the collector takes from declarations are names of the declarations. -/
lemma knownOfDecls_subset (decls : List Declarator) :
    decls.flatMap Declarator.known ⊆ namesOf (leavesOfDecls decls) := by
  intro n mem
  obtain ⟨⟨target, value⟩, decl, mem⟩ := List.mem_flatMap.1 mem
  obtain ⟨b, leaf, rfl⟩ := List.mem_map.1 (known_subset target mem)
  exact List.mem_map.2 ⟨b, List.mem_flatMap.2 ⟨_, decl, leaf⟩, rfl⟩

/-- The names that the collector takes from a statement are declared by it. -/
lemma knownBy_subset (s : Stmt) : knownBy s ⊆ namesOf (namesBy s) := by
  cases s with
  | vars kind decls =>
    have decls := knownOfDecls_subset decls
    cases kind <;> simpa [knownBy, namesBy, lexicalsBy, varsBy] using decls
  | function f =>
    cases f
    exact fun n mem => by simpa [knownBy, namesBy, lexicalsBy, varsBy] using mem
  | «class» c =>
    cases c
    exact fun n mem => by simpa [knownBy, namesBy, lexicalsBy, varsBy] using mem
  | _ => exact List.nil_subset _

/-- The names that the collector takes from a list of statements are in its scope. -/
lemma knownIn_subset (body : List Stmt) : body.flatMap knownBy ⊆ body.flatMap scopeNames := by
  intro n mem
  obtain ⟨s, stmt, mem⟩ := List.mem_flatMap.1 mem
  exact List.mem_flatMap.2 ⟨s, stmt, List.mem_append_left _ (knownBy_subset s mem)⟩

/-! ## Scopes around a reference -/

/-- The names around a part of an expression that the expression binds.

* `bound` are the names in whose scope the part stands.
* `held` are the names that are taken for bound there when free names are collected.
* `ended` are names of blocks that have ended, though their function has not.
* `missed` are names that a scope binds but is not known to: the own name of a function expression,
  a `var` further inside, an enumeration or namespace, and the names of patterns with misplaced
  markers. -/
structure Around where
  bound : List String := []
  held : List String := []
  ended : List String := []
  missed : List String := []
  held_bound : ∀ n ∈ held, n ∈ bound ∨ n ∈ ended := by simp
  bound_held : ∀ n ∈ bound, n ∈ held ∨ n ∈ missed := by simp

namespace Around

/-- Enters a scope with its names, of which some are known. -/
def enter (a : Around) (names known : List String) (sub : known ⊆ names) : Around where
  bound := names ++ a.bound
  held := known ++ a.held
  ended := a.ended
  missed := names.filter (· ∉ known) ++ a.missed
  held_bound := by
    intro n mem
    have outer := a.held_bound n
    grind
  bound_held := by
    intro n mem
    have outer := a.bound_held n
    grind

/-- Enters a scope that is not taken notice of. -/
def scope (a : Around) (names : List String) : Around := a.enter names [] (List.nil_subset _)

/-- Enters a function, up to its body. -/
def params (a : Around) (items : List PatternItem) : Around :=
  a.enter (namesOf (leavesOfItems false items)) (knownOfItems items) (knownOfItems_subset items)

/-- Enters the body of a function, or a block. A `var` deep inside belongs to the function, and can
be seen in all of its blocks. -/
def block (a : Around) (body : List Stmt) : Around :=
  a.enter (body.flatMap scopeNames) (body.flatMap knownBy) (knownIn_subset body)

/-- Enters a statement without braces, which sees what it declares itself. -/
def alone (a : Around) (s : Stmt) : Around := a.scope (blockNames s)

/-- Goes past a statement that leaves names behind. -/
def after (a : Around) (names : List String) : Around where
  bound := a.bound
  held := names ++ a.held
  ended := names ++ a.ended
  missed := a.missed
  held_bound := by
    intro n mem
    have outer := a.held_bound n
    grind
  bound_held := by
    intro n mem
    have outer := a.bound_held n
    grind

end Around

/-! ## References of an expression -/

/-- A place that is not looked into when free names are collected. -/
inductive Skipped where
  | assignmentTarget
  | secretTest
  | loadArgument
  | typeArguments
  | chainEnd
  | shorthandDefault
  | pattern
  | classBody
  | statement
  deriving DecidableEq, Repr

/-- A reference with the scopes around it, and the outermost place around it that is not looked
into. -/
structure Reference where
  name : String
  around : Around
  skipped : Option Skipped := none

namespace Reference

/-- The expression does not bind the name where the reference stands. -/
def IsFree (r : Reference) : Prop := r.name ∉ r.around.bound

/-- The reference is looked at, and its name is not taken for bound. -/
def IsCounted (r : Reference) : Prop := r.skipped = none ∧ r.name ∉ r.around.held

instance : DecidablePred IsFree := fun r => inferInstanceAs (Decidable (r.name ∉ r.around.bound))

instance : DecidablePred IsCounted := fun r =>
  inferInstanceAs (Decidable (r.skipped = none ∧ r.name ∉ r.around.held))

end Reference

/-- References in a place that is not looked into. -/
def skip (place : Skipped) (refs : List Reference) : List Reference :=
  refs.map fun r => { r with skipped := some place }

/-- Whether a place to assign to is looked into. -/
def Expr.isSeenTarget : Expr → Bool
  | .name _ | .member .. | .index .. => true
  | .paren inner _ => inner.isSeenTarget
  | _ => false

/-- The name that a function has for itself, if it is an expression. -/
def Function.ownName : Function → List String
  | .mk name _ _ => namesOf (leafOfName name)

mutual

/-- The references in an expression, from left to right. -/
def refsInExpr (a : Around) : Expr → List Reference
  | .name id => [⟨id.text, a, none⟩]
  | .template _ holes _ => refsInExprs a holes
  | .tagged tag _ holes _ => refsInExpr a tag ++ refsInExprs a holes
  | .array items _ => refsInItems a items
  | .object members _ => refsInMembers a members
  | .arrow f _ => refsInFunction a f
  -- The name of a function expression is bound in the function only.
  | .function f _ => refsInFunction (a.scope f.ownName) f
  | .class c _ => skip .classBody (refsInClass a c)
  | .assign _ target value _ =>
    (if target.isSeenTarget then refsInExpr a target
      else skip .assignmentTarget (refsInExpr a target)) ++ refsInExpr a value
  | .update target _ =>
    if target.isSeenTarget then refsInExpr a target
    else skip .assignmentTarget (refsInExpr a target)
  | .await value _ => refsInExpr a value
  | .yield value _ => refsInOption a value
  | .unary operand _ => refsInExpr a operand
  | .binary left right _ => refsInExpr a left ++ refsInExpr a right
  | .logical left right _ => refsInExpr a left ++ refsInExpr a right
  | .conditional test yes no _ => refsInExpr a test ++ (refsInExpr a yes ++ refsInExpr a no)
  | .sequence items _ => refsInExprs a items
  | .paren inner _ => refsInExpr a inner
  | .call callee args _ => refsInExpr a callee ++ refsInItems a args
  | .construct callee args _ => refsInExpr a callee ++ refsInItems a args
  | .chain links _ =>
    if links.isFreeLink then refsInExpr a links else skip .chainEnd (refsInExpr a links)
  | .member object _ _ => refsInExpr a object
  | .index object index _ => refsInExpr a object ++ refsInExpr a index
  | .secret object _ _ => refsInExpr a object
  | .hasSecret _ object _ => skip .secretTest (refsInExpr a object)
  | .load args _ => skip .loadArgument (refsInExprs a args)
  | .cast _ value _ => refsInExpr a value
  | .instantiate value _ => skip .typeArguments (refsInExpr a value)
  | .literal _ | .string _ _ | .keyword _ => []

def refsInExprs (a : Around) : List Expr → List Reference
  | [] => []
  | e :: es => refsInExpr a e ++ refsInExprs a es

def refsInOption (a : Around) : Option Expr → List Reference
  | none => []
  | some e => refsInExpr a e

def refsInItems (a : Around) : List Item → List Reference
  | [] => []
  | item :: items => refsInItem a item ++ refsInItems a items

def refsInItem (a : Around) : Item → List Reference
  | .hole => []
  | .expr value => refsInExpr a value
  | .spread value => refsInExpr a value

def refsInMembers (a : Around) : List Member → List Reference
  | [] => []
  | m :: ms => refsInMember a m ++ refsInMembers a ms

def refsInMember (a : Around) : Member → List Reference
  | .pair key value => refsInKey a key ++ refsInExpr a value
  | .method key value => refsInKey a key ++ refsInExpr a value
  | .short id => [⟨id.text, a, none⟩]
  | .shortDefault id value => ⟨id.text, a, none⟩ :: skip .shorthandDefault (refsInExpr a value)
  | .spread value => refsInExpr a value

def refsInKey (a : Around) : Key → List Reference
  | .computed value => refsInExpr a value
  | .fixed _ | .secret _ => []

/-- The references in a pattern: those of its keys and default values. A marker is none. -/
def refsInPattern (a : Around) : Pattern → List Reference
  | .name _ _ => []
  | .object parts _ => refsInParts a parts
  | .array items _ => refsInPatternItems a a items
  | .withDefault target value _ =>
    refsInPattern a target ++ (if value.isMarker then [] else refsInExpr a value)

def refsInParts (a : Around) : List PatternPart → List Reference
  | [] => []
  | part :: parts => refsInPart a part ++ refsInParts a parts

def refsInPart (a : Around) : PatternPart → List Reference
  | .prop key target => refsInKey a key ++ refsInPattern a target
  | .rest target => refsInPattern a target

/-- The references in parameters. Their decorators stand outside of the function. -/
def refsInPatternItems (outer a : Around) : List PatternItem → List Reference
  | [] => []
  | item :: items => refsInPatternItem outer a item ++ refsInPatternItems outer a items

def refsInPatternItem (outer a : Around) : PatternItem → List Reference
  | .hole => []
  | .item decorators target => refsInExprs outer decorators ++ refsInPattern a target
  | .rest decorators target => refsInExprs outer decorators ++ refsInPattern a target

/-- The references in a function. Its default values see the parameters, but not the body. -/
def refsInFunction (a : Around) : Function → List Reference
  | .mk _ params body =>
    skip .pattern (refsInPatternItems a (a.params params) params) ++
      refsInBody (a.params params) body

def refsInBody (a : Around) : Body → List Reference
  | .none => []
  | .expr value => refsInExpr a value
  | .block body => refsInStatements (a.block body) body

/-- The references in a class. Its name is bound in all of it but the decorators. -/
def refsInClass (a : Around) : Class → List Reference
  | .mk decorators name parent members =>
    refsInExprs a decorators ++
      (refsInOption (a.scope (namesOf (leafOfName name))) parent ++
        refsInClassMembers (a.scope (namesOf (leafOfName name))) members)

def refsInClassMembers (a : Around) : List ClassMember → List Reference
  | [] => []
  | m :: ms => refsInClassMember a m ++ refsInClassMembers a ms

def refsInClassMember (a : Around) : ClassMember → List Reference
  | .method decorators key f =>
    refsInExprs a decorators ++ (refsInKey a key ++ refsInFunction a f)
  | .field decorators key value =>
    refsInExprs a decorators ++ (refsInKey a key ++ refsInOption a value)
  | .accessor decorators key value =>
    refsInExprs a decorators ++ (refsInKey a key ++ refsInOption a value)
  | .block body => refsInStatements (a.block body) body
  | .signature => []

def refsInDecls (a : Around) : List Declarator → List Reference
  | [] => []
  | d :: ds => refsInDecl a d ++ refsInDecls a ds

def refsInDecl (a : Around) : Declarator → List Reference
  | .mk target value => skip .pattern (refsInPattern a target) ++ refsInOption a value

def refsInCases (a : Around) : List Case → List Reference
  | [] => []
  | c :: cs => refsInCase a c ++ refsInCases a cs

def refsInCase (a : Around) : Case → List Reference
  | .mk test body => refsInOption a test ++ refsInStatements a body

def refsInStatements (a : Around) : List Stmt → List Reference
  | [] => []
  | s :: ss => refsInStatement a s ++ refsInStatements (a.after (leftBy s)) ss

/-- The references in a statement. -/
def refsInStatement (a : Around) : Stmt → List Reference
  | .expr value _ => refsInExpr a value
  | .ret value _ => refsInOption a value
  | .vars _ decls => refsInDecls a decls
  | .block body => refsInStatements (a.block body) body
  | .cond test yes no =>
    refsInExpr a test ++
      (refsInStatement (a.alone yes) yes ++ refsInStatement ((a.after (leftBy yes)).alone no) no)
  | .throw value => refsInExpr a value
  | .function f => refsInFunction a f
  | .class c => skip .classBody (refsInClass a c)
  | .loop head test update body =>
    let inner := a.scope (namesOf (lexicalsBy head))
    skip .statement (refsInStatement inner head ++ (refsInOption inner test ++
      (refsInOption inner update ++ refsInStatement (inner.alone body) body)))
  | .each _ head source body =>
    let inner := a.scope (namesOf (lexicalsBy head))
    skip .statement (refsInStatement inner head ++
      (refsInExpr inner source ++ refsInStatement (inner.alone body) body))
  | .while test body => skip .statement (refsInExpr a test ++ refsInStatement (a.alone body) body)
  | .doWhile body test => skip .statement (refsInStatement (a.alone body) body ++ refsInExpr a test)
  | .switch value cases =>
    let inner := a.scope (cases.flatMap fun | .mk _ body => body.flatMap blockNames)
    skip .statement (refsInExpr a value ++ refsInCases inner cases)
  | .try body param handler finalizer =>
    skip .statement (refsInStatements (a.block body) body ++
      (refsInPatternItems a (a.params param) param ++
        (refsInBody (a.params param) handler ++ refsInBody a finalizer)))
  | .labeled _ body => skip .statement (refsInStatement a body)
  | .with object body =>
    skip .statement (refsInExpr a object ++ refsInStatement (a.alone body) body)
  | .exported decl => skip .statement (refsInStatement a decl)
  | .exportedDefault decl => skip .statement (refsInStatement a decl)
  | .exportedNames names source =>
    -- Names from another module are no references.
    skip .statement (if source.isNone then names.map fun name => ⟨name, a, none⟩ else [])
  | .exportedValue value => skip .statement (refsInExpr a value)
  -- A value of an enumeration may refer to members by their names.
  | .enum _ members values => skip .statement (refsInExprs (a.scope members) values)
  | .namespace path body =>
    skip .statement (refsInStatements ((a.scope (path.map Name.text)).block body) body)
  | .alias _ root => skip .statement (root.toList.map fun id => ⟨id.text, a, none⟩)
  | .exit | .import _ | .typeOnly => []

end

/-- The references in an expression. -/
def references (e : Expr) : List Reference := refsInExpr {} e

/-- The names of some of the references, in the order of their first use. -/
def namesWhere (p : Reference → Prop) [DecidablePred p] (refs : List Reference) : List String :=
  ((refs.filter (p ·)).map Reference.name).eraseDups

/-- The names to which an expression refers in places where it does not bind them. -/
def lexicalFree (e : Expr) : List String := namesWhere Reference.IsFree (references e)

/-! ## Names that are found -/

namespace Free

/-- The names that are taken for bound. -/
def Holds (s : Free) (held : List String) : Prop := ∀ n, (∃ frame ∈ s.bound, n ∈ frame) ↔ n ∈ held

/-- Adds a name behind the others, unless it is among them. -/
def add (found : List String) (name : String) : List String :=
  if name ∈ found then found else found ++ [name]

/-- Finds the names of references that count. -/
def note (s : Free) (refs : List Reference) : Free :=
  { s with found := ((refs.filter (·.IsCounted)).map Reference.name).foldl add s.found }

variable {s : Free} {a : Around} {refs : List Reference}

/-- Names are found in the order of their first use. -/
lemma found_note (refs : List Reference) :
    (note {} refs).found = namesWhere Reference.IsCounted refs := by
  unfold note namesWhere
  induction (refs.filter (·.IsCounted)).map Reference.name using List.reverseRecOn with
  | nil => rfl
  | append_singleton names name ih =>
    simp only at ih
    simp only [List.foldl_append, List.foldl_cons, List.foldl_nil, ih, eraseDups_append_singleton,
      add, List.mem_eraseDups]

/-- References are noted one after the other. -/
lemma note_append (s : Free) (refs refs' : List Reference) :
    s.note (refs ++ refs') = (s.note refs).note refs' := by
  simp only [note, List.filter_append, List.map_append, List.foldl_append]

/-- References in a place that is skipped leave the collector as it is. -/
@[simp] lemma note_skip (s : Free) (place : Skipped) (refs : List Reference) :
    s.note (skip place refs) = s := by
  have none : (skip place refs).filter (·.IsCounted) = [] := by
    rw [List.filter_eq_nil_iff]
    intro r mem
    obtain ⟨r, -, rfl⟩ := List.mem_map.1 mem
    simp [Reference.IsCounted]
  rw [note, none]
  rfl

/-- Without names nothing becomes known. -/
@[simp] lemma bind_nil (s : Free) : s.bind [] = s := by
  obtain ⟨found, bound⟩ := s
  cases bound with
  | nil => rfl
  | cons frame frames => simp [bind]

/-- Names become known one after the other. -/
lemma bind_append (s : Free) (names names' : List String) :
    s.bind (names ++ names') = (s.bind names).bind names' := by
  obtain ⟨found, bound⟩ := s
  cases bound with
  | nil => rfl
  | cons frame frames => simp [bind]

/-- Names that become known do not change what has been noted before. -/
lemma note_bind (s : Free) (names : List String) (refs : List Reference) :
    (s.bind names).note refs = (s.note refs).bind names := by
  obtain ⟨found, bound⟩ := s
  cases bound <;> rfl

/-- A reference is noted, unless its name is held. -/
lemma refer_eq (h : s.Holds a.held) (name : String) : s.refer name = s.note [⟨name, a, none⟩] := by
  have held : s.bound.any (·.contains name) = decide (name ∈ a.held) := by
    rw [Bool.eq_iff_iff, decide_eq_true_iff, ← h name]
    simp
  unfold refer note
  rw [held]
  by_cases isHeld : name ∈ a.held <;> by_cases isFound : name ∈ s.found <;>
    simp [Reference.IsCounted, isHeld, isFound, add]

/-- Names that become known are held with those that were known before. -/
lemma Holds.bind {held : List String} (h : s.Holds held) (inside : s.bound ≠ [])
    (names : List String) : (s.bind names).Holds (names ++ held) := by
  obtain ⟨frame, frames, bound⟩ := List.exists_cons_of_ne_nil inside
  intro n
  have outer := h n
  rw [bound] at outer
  simp only [Free.bind, bound, List.mem_cons, exists_eq_or_imp, List.mem_append] at outer ⊢
  rw [← outer]
  tauto

/-- Steps that each make names known make all of them known. -/
lemma foldl_bind {α : Type} {step : Free → α → Free} {names : α → List String}
    (each : ∀ s x, step s x = s.bind (names x)) (xs : List α) (s : Free) :
    xs.foldl step s = s.bind (xs.flatMap names) := by
  induction xs generalizing s with
  | nil => exact (bind_nil s).symm
  | cons x xs ih => rw [List.foldl_cons, ih, each, List.flatMap_cons, bind_append]

/-- A pattern makes its known names known. -/
lemma bindPattern_eq (s : Free) (p : Pattern) : s.bindPattern p = s.bind p.known := by
  unfold bindPattern Pattern.known
  cases p.bindings with
  | ok bs => rfl
  | error failure => exact (bind_nil s).symm

/-- Parameters make their known names known. -/
lemma bindItems_eq (items : List PatternItem) (s : Free) :
    s.bindItems items = s.bind (knownOfItems items) :=
  foldl_bind bindPattern_eq _ s

/-- A statement makes known what it is known to declare. -/
lemma declare_eq (s : Free) (stmt : Stmt) : s.declare stmt = s.bind (knownBy stmt) := by
  cases stmt with
  | vars kind decls =>
    refine foldl_bind (fun s d => ?_) decls s
    cases d
    exact bindPattern_eq s _
  | function f =>
    obtain ⟨name, params, body⟩ := f
    cases name with
    | none => exact (bind_nil s).symm
    | some name => rfl
  | «class» c =>
    obtain ⟨decorators, name, parent, members⟩ := c
    cases name with
    | none => exact (bind_nil s).symm
    | some name => rfl
  | _ => exact (bind_nil s).symm

/-- Statements make known what they are known to declare. -/
lemma declareAll_eq (body : List Stmt) (s : Free) :
    s.declareAll body = s.bind (body.flatMap knownBy) :=
  foldl_bind declare_eq body s

end Free

/-- A step of the collector where some names are held: it finds the references that count, and
leaves names known in the innermost function. -/
structure Collects (held : List String) (refs : List Reference) (left : List String)
    (step : Free → Free) : Prop where
  run : ∀ s, s.Holds held → (left ≠ [] → s.bound ≠ []) → step s = (s.note refs).bind left

namespace Collects

variable {held : List String} {refs others : List Reference} {left left' : List String}
  {f g : Free → Free}

/-- A step that does nothing finds nothing. -/
lemma pass (held : List String) : Collects held [] [] fun s => s :=
  ⟨fun s _ _ => (Free.bind_nil s).symm⟩

/-- A name is a reference that counts, unless it is held. -/
lemma name (a : Around) (text : String) : Collects a.held [⟨text, a, none⟩] [] (Free.refer text) :=
  ⟨fun s h _ => by rw [Free.refer_eq h, Free.bind_nil]⟩

/-- Whatever stands in a place that is skipped is not found. -/
lemma skipped (held : List String) (place : Skipped) (others : List Reference) :
    Collects held (skip place others) [] fun s => s :=
  ⟨fun s _ _ => by rw [Free.note_skip, Free.bind_nil]⟩

/-- One step behind another, which sees what the first one has left. -/
lemma seq (first : Collects held refs left f) (second : Collects (left ++ held) others left' g) :
    Collects held (refs ++ others) (left ++ left') fun s => g (f s) := by
  constructor
  intro s holds inside
  have inside₁ : left ≠ [] → s.bound ≠ [] := fun some => inside (by simp [some])
  have inside₂ : left' ≠ [] → s.bound ≠ [] := fun some => inside (by simp [some])
  -- Outside of functions nothing can be bound, but then nothing is left either.
  have holds' : ((s.note refs).bind left).Holds (left ++ held) := by
    by_cases none : left = []
    · subst none
      rw [Free.bind_nil]
      exact holds
    · exact Free.Holds.bind (s := s.note refs) holds (inside₁ none) left
  have bound : ((s.note refs).bind left).bound = [] → s.bound = [] := by
    intro empty
    cases here : s.bound with
    | nil => rfl
    | cons frame frames => simp [Free.bind, Free.note, here] at empty
  rw [first.run s holds inside₁, second.run _ holds' fun some empty => inside₂ some (bound empty),
    Free.note_bind, Free.note_append, Free.bind_append]

/-- Two steps that leave no names find their references one after the other. -/
lemma append (first : Collects held refs [] f) (second : Collects held others [] g) :
    Collects held (refs ++ others) [] fun s => g (f s) := seq first second

/-- A block leaves its own names to the rest of the function. -/
lemma block {body : List Stmt} (h : Collects (body.flatMap knownBy ++ held) refs left f) :
    Collects held refs (body.flatMap knownBy ++ left) fun s => f (s.declareAll body) := by
  have declared : Collects held [] (body.flatMap knownBy) (Free.declareAll body) :=
    ⟨fun s _ _ => Free.declareAll_eq body s⟩
  exact seq declared h

/-- A function leaves nothing. Its parameters are bound in it, and skipped. -/
lemma function {params : List PatternItem} {place : Skipped}
    (h : Collects (knownOfItems params ++ held) refs left f) :
    Collects held (skip place others ++ refs) []
      fun s => (f (s.enter.bindItems params)).leave := by
  constructor
  intro s holds _
  have entered : s.enter.Holds held := by
    intro n
    rw [← holds n]
    simp [Free.enter]
  have bound := entered.bind (List.cons_ne_nil _ _) (knownOfItems params)
  rw [Free.bindItems_eq, h.run _ bound fun _ => List.cons_ne_nil _ _, Free.note_append,
    Free.note_skip, Free.bind_nil]
  rfl

/-- What is looked into in some cases is skipped in the others. -/
lemma ite {c : Bool} {place : Skipped} (h : Collects held refs [] f) :
    Collects held (if c then refs else skip place refs) [] fun s => if c then f s else s := by
  cases c with
  | true => exact h
  | false => exact skipped held place refs

end Collects

/-- A target that is looked into is so as an expression. -/
lemma freeTarget_eq (s : Free) :
    ∀ e : Expr, e.freeTarget s = if e.isSeenTarget then e.free s else s
  | .name id => rfl
  | .member object _ _ => rfl
  | .index object index _ => rfl
  | .paren inner _ => by
    rw [Expr.freeTarget, freeTarget_eq s inner]
    rfl
  | .literal _ | .string _ _ | .keyword _ | .template _ _ _ | .tagged _ _ _ _ | .array _ _
  | .object _ _ | .function _ _ | .arrow _ _ | .class _ _ | .unary _ _ | .update _ _
  | .binary _ _ _ | .logical _ _ _ | .conditional _ _ _ _ | .assign _ _ _ _ | .sequence _ _
  | .call _ _ _ | .construct _ _ _ | .secret _ _ _ | .hasSecret _ _ _ | .chain _ _ | .await _ _
  | .yield _ _ | .load _ _ | .cast _ _ _ | .instantiate _ _ => rfl

/-- The target of an assignment is seen as an expression, or skipped. -/
lemma Collects.target {held : List String} {refs : List Reference} {e : Expr}
    (h : Collects held refs [] fun s => e.free s) :
    Collects held (if e.isSeenTarget then refs else skip .assignmentTarget refs) []
      fun s => e.freeTarget s := by
  simp only [freeTarget_eq]
  exact h.ite

mutual

/-- The names of an expression are those of its references. -/
lemma collects_expr (a : Around) :
    ∀ e : Expr, Collects a.held (refsInExpr a e) [] fun s => e.free s
  | .name id => .name a id.text
  | .template _ holes _ | .sequence holes _ => collects_exprs a holes
  | .tagged tag _ holes _ => .append (collects_expr a tag) (collects_exprs a holes)
  | .array items _ => collects_items a items
  | .object members _ => collects_members a members
  | .arrow f _ => collects_function a f
  -- Nothing more is held in the scope of the own name.
  | .function f _ => collects_function (a.scope f.ownName) f
  | .class _ _ => .skipped _ _ _
  | .assign _ target value _ => .append (.target (collects_expr a target)) (collects_expr a value)
  | .update target _ => .target (collects_expr a target)
  | .await value _ | .unary value _ | .paren value _ | .member value _ _ | .secret value _ _
  | .cast _ value _ => collects_expr a value
  | .yield value _ => collects_option a value
  | .binary left right _ | .logical left right _ | .index left right _ =>
    .append (collects_expr a left) (collects_expr a right)
  | .conditional test yes no _ =>
    .append (collects_expr a test) (.append (collects_expr a yes) (collects_expr a no))
  | .call callee args _ | .construct callee args _ =>
    .append (collects_expr a callee) (collects_items a args)
  | .chain links _ => .ite (collects_expr a links)
  | .hasSecret _ _ _ | .load _ _ | .instantiate _ _ => .skipped _ _ _
  | .literal _ | .string _ _ | .keyword _ => .pass _

/-- Expressions are collected one by one. -/
lemma collects_exprs (a : Around) :
    ∀ es : List Expr, Collects a.held (refsInExprs a es) [] fun s => freeExprs s es
  | [] => .pass _
  | e :: es => .append (collects_expr a e) (collects_exprs a es)

/-- An expression that may be missing is collected if it is there. -/
lemma collects_option (a : Around) :
    ∀ e : Option Expr, Collects a.held (refsInOption a e) [] fun s => freeOption s e
  | none => .pass _
  | some e => collects_expr a e

/-- The items of an array are collected one by one. -/
lemma collects_items (a : Around) :
    ∀ items : List Item, Collects a.held (refsInItems a items) [] fun s => freeItems s items
  | [] => .pass _
  | item :: items => .append (collects_item a item) (collects_items a items)

/-- An item of an array is collected. -/
lemma collects_item (a : Around) :
    ∀ item : Item, Collects a.held (refsInItem a item) [] fun s => item.free s
  | .hole => .pass _
  | .expr value | .spread value => collects_expr a value

/-- The members of an object are collected one by one. -/
lemma collects_members (a : Around) :
    ∀ ms : List Member, Collects a.held (refsInMembers a ms) [] fun s => freeMembers s ms
  | [] => .pass _
  | m :: ms => .append (collects_member a m) (collects_members a ms)

/-- A member of an object is collected. -/
lemma collects_member (a : Around) :
    ∀ m : Member, Collects a.held (refsInMember a m) [] fun s => m.free s
  | .pair key value | .method key value => .append (collects_key a key) (collects_expr a value)
  | .short id => .name a id.text
  | .shortDefault id _ => .append (.name a id.text) (.skipped _ _ _)
  | .spread value => collects_expr a value

/-- A key is collected if it is computed. -/
lemma collects_key (a : Around) :
    ∀ key : Key, Collects a.held (refsInKey a key) [] fun s => key.free s
  | .computed value => collects_expr a value
  | .fixed _ | .secret _ => .pass _

/-- A function is collected with its parameters known. -/
lemma collects_function (a : Around) :
    ∀ f : Function, Collects a.held (refsInFunction a f) [] fun s => f.free s
  | .mk _ params body => .function (collects_body (a.params params) body)

/-- The names of a body are those of its references. -/
lemma collects_body (a : Around) :
    ∀ body : Body, Collects a.held (refsInBody a body) body.left fun s => body.free s
  | .none => .pass _
  | .expr value => collects_expr a value
  | .block body => .block (collects_stmts (a.block body) body)

/-- Statements are collected one by one, each with the names that those before it have left. -/
lemma collects_stmts (a : Around) :
    ∀ ss : List Stmt, Collects a.held (refsInStatements a ss) (leftIn ss) fun s => freeStmts s ss
  | [] => .pass _
  | s :: ss => .seq (collects_stmt a s) (collects_stmts (a.after (leftBy s)) ss)

/-- The names of a statement are those of its references. -/
lemma collects_stmt (a : Around) :
    ∀ stmt : Stmt, Collects a.held (refsInStatement a stmt) (leftBy stmt) fun s => stmt.free s
  | .expr value _ | .throw value => collects_expr a value
  | .ret value _ => collects_option a value
  | .vars _ decls => collects_decls a decls
  | .block body => .block (collects_stmts (a.block body) body)
  | .cond test yes no =>
    .seq (collects_expr a test)
      (.seq (collects_stmt (a.alone yes) yes) (collects_stmt ((a.after (leftBy yes)).alone no) no))
  | .function f => collects_function a f
  | .class _ | .loop _ _ _ _ | .each _ _ _ _ | .while _ _ | .doWhile _ _ | .switch _ _
  | .try _ _ _ _ | .labeled _ _ | .with _ _ | .exported _ | .exportedDefault _
  | .exportedNames _ _ | .exportedValue _ | .enum _ _ _ | .namespace _ _ | .alias _ _ =>
    .skipped _ _ _
  | .exit | .import _ | .typeOnly => .pass _

/-- Declarations are collected one by one. -/
lemma collects_decls (a : Around) :
    ∀ ds : List Declarator, Collects a.held (refsInDecls a ds) [] fun s => freeDecls s ds
  | [] => .pass _
  | d :: ds => .append (collects_decl a d) (collects_decls a ds)

/-- The value of a declaration is collected, and its pattern is skipped. -/
lemma collects_decl (a : Around) :
    ∀ d : Declarator, Collects a.held (refsInDecl a d) [] fun s => d.free s
  | .mk _ value => .append (.skipped _ _ _) (collects_option a value)

end

/-! ## Free names -/

/-- The names of the references that meet a condition. -/
lemma mem_namesWhere {p : Reference → Prop} [DecidablePred p] {refs : List Reference} {n : String} :
    n ∈ namesWhere p refs ↔ ∃ r ∈ refs, p r ∧ r.name = n := by
  simp [namesWhere, and_assoc]

/-- The free names of an expression are the names of the references that count. -/
lemma freeNames_eq (e : Expr) : e.freeNames = namesWhere Reference.IsCounted (references e) := by
  have nothing : Free.Holds {} ({} : Around).held := fun n => by simp
  have run := (collects_expr {} e).run {} nothing fun some => absurd rfl some
  rw [← Free.found_note, Expr.freeNames, run, Free.bind_nil]
  rfl

namespace Reference

variable {r : Reference}

/-- A free reference that does not count is skipped, or stands behind a block with its name. -/
lemma IsFree.counted (free : r.IsFree) :
    r.IsCounted ∨ r.skipped ≠ none ∨ r.name ∈ r.around.ended := by
  by_cases seen : r.skipped = none
  · by_cases held : r.name ∈ r.around.held
    · exact .inr (.inr ((r.around.held_bound _ held).resolve_left free))
    · exact .inl ⟨seen, held⟩
  · exact .inr (.inl seen)

/-- A reference that counts is free, or one of its scopes is missed. -/
lemma IsCounted.free (counted : r.IsCounted) : r.IsFree ∨ r.name ∈ r.around.missed := by
  by_cases bound : r.name ∈ r.around.bound
  · exact .inr ((r.around.bound_held _ bound).resolve_left counted.2)
  · exact .inl bound

end Reference

/-- The free names of an expression are those of the references that count, each once, in the order
of their first use. A name too many belongs to a scope that is missed around one of its references.
A name that is wanting has a free reference in a place that is not looked into, or behind a block
that has bound the name. Without such references the free names are the ones that the expression
does not bind. -/
theorem freeNames_exact (e : Expr) :
    e.freeNames.Nodup ∧ e.freeNames = namesWhere Reference.IsCounted (references e) ∧
    (∀ n ∈ e.freeNames, n ∈ lexicalFree e ∨
      ∃ r ∈ references e, r.name = n ∧ r.IsCounted ∧ n ∈ r.around.missed) ∧
    (∀ n ∈ lexicalFree e, n ∈ e.freeNames ∨
      ∃ r ∈ references e, r.name = n ∧ r.IsFree ∧ (r.skipped ≠ none ∨ n ∈ r.around.ended)) ∧
    ((∀ r ∈ references e, r.IsCounted → r.name ∉ r.around.missed) →
      (∀ r ∈ references e, r.IsFree → r.skipped = none ∧ r.name ∉ r.around.ended) →
      e.freeNames = lexicalFree e) := by
  rw [freeNames_eq]
  refine ⟨nodup_eraseDups _, rfl, fun n mem => ?_, fun n mem => ?_, fun noMissed noSkipped => ?_⟩
  · obtain ⟨r, ref, counted, rfl⟩ := mem_namesWhere.1 mem
    exact counted.free.imp (fun free => mem_namesWhere.2 ⟨r, ref, free, rfl⟩)
      fun missed => ⟨r, ref, rfl, counted, missed⟩
  · obtain ⟨r, ref, free, rfl⟩ := mem_namesWhere.1 mem
    exact free.counted.imp (fun counted => mem_namesWhere.2 ⟨r, ref, counted, rfl⟩)
      fun passed => ⟨r, ref, rfl, free, passed⟩
  · have same : ∀ r ∈ references e, (r.IsCounted ↔ r.IsFree) := by
      intro r ref
      constructor
      · intro counted
        exact counted.free.resolve_right (noMissed r ref counted)
      · intro free
        obtain ⟨seen, notEnded⟩ := noSkipped r ref free
        exact free.counted.resolve_right fun passed => passed.elim (absurd seen) notEnded
    unfold lexicalFree namesWhere
    rw [List.filter_congr fun r ref => decide_eq_decide.2 (same r ref)]

/-- A function with a parameter that a block inside declares again. -/
theorem freeNames_exact_shadowed :
    let name (text : String) : Expr := .name ⟨text, ⟨0, 0⟩⟩
    let leaf (text : String) : Pattern := .name ⟨text, ⟨0, 0⟩⟩ ⟨0, 0⟩
    -- item => { const n = item + offset; { let item = n; use(item); } return items; }
    let inner : Stmt := .block
      [.vars .let [.mk (leaf "item") (some (name "n"))],
       .expr (.call (name "use") [.expr (name "item")] ⟨0, 0⟩) ⟨0, 0⟩]
    let body : List Stmt :=
      [.vars .const [.mk (leaf "n") (some (.binary (name "item") (name "offset") ⟨0, 0⟩))], inner,
       .ret (some (name "items")) ⟨0, 0⟩]
    let e : Expr := .arrow (.mk none [.item [] (leaf "item")] (.block body)) ⟨0, 0⟩
    ((∀ r ∈ references e, r.IsCounted → r.name ∉ r.around.missed) ∧
      (∀ r ∈ references e, r.IsFree → r.skipped = none ∧ r.name ∉ r.around.ended) ∧
      lexicalFree e = ["offset", "use", "items"]) ∧
    e.freeNames = lexicalFree e := by
  intro name leaf inner body e
  have counted : ∀ r ∈ references e, r.IsCounted → r.name ∉ r.around.missed := by decide +kernel
  have free : ∀ r ∈ references e, r.IsFree → r.skipped = none ∧ r.name ∉ r.around.ended := by
    decide +kernel
  exact ⟨⟨counted, free, by decide +kernel⟩, (freeNames_exact e).2.2.2.2 counted free⟩

-- (function g() { return g; }) and () => { { let x = 1; } return x; }, then
-- () => { enum E { A } return E; } and class { m(@d(x) p) {} }
example :
    let name (text : String) : Expr := .name ⟨text, ⟨0, 0⟩⟩
    let named : Expr := .function
      (.mk (some ⟨"g", ⟨0, 0⟩⟩) [] (.block [.ret (some (name "g")) ⟨0, 0⟩])) ⟨0, 0⟩
    let block : Stmt := .block
      [.vars .let [.mk (.name ⟨"x", ⟨0, 0⟩⟩ ⟨0, 0⟩) (some (.literal ⟨0, 0⟩))]]
    let behind : Expr := .arrow
      (.mk none [] (.block [block, .ret (some (name "x")) ⟨0, 0⟩])) ⟨0, 0⟩
    let listed : Expr := .arrow (.mk none []
      (.block [.enum ⟨"E", ⟨0, 0⟩⟩ ["A"] [], .ret (some (name "E")) ⟨0, 0⟩])) ⟨0, 0⟩
    let decorated : Expr := .class (.mk [] none none [.method [] (.fixed "m") (.mk none
      [.item [.call (name "d") [.expr (name "x")] ⟨0, 0⟩] (.name ⟨"p", ⟨0, 0⟩⟩ ⟨0, 0⟩)]
      (.block []))]) ⟨0, 0⟩
    (named.freeNames = ["g"] ∧ lexicalFree named = []) ∧
    (behind.freeNames = [] ∧ lexicalFree behind = ["x"]) ∧
    (listed.freeNames = ["E"] ∧ lexicalFree listed = []) ∧
    (decorated.freeNames = [] ∧ lexicalFree decorated = ["d", "x"]) := by
  decide +kernel

end TaggedMarkup.Script

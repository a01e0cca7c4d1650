import Mathlib
import TaggedMarkup.Proofs.Compile.Outline

/-!
# Patterns that scopes introduce

The patterns of a scope are its parameters and the targets of its variables, in whatever statement
they stand (`Opening.introduced`). Their roles differ: a variable may be declared in the list of the
scope, in the head of a loop, or in a statement without braces, where it is in no list.

Outlines know where the walk takes markers out, and these are the markers of the patterns of the
scope around them (`Outline.Owned`), all but those of a handler.
-/

namespace TaggedMarkup.Compile

open Script

/-! ## Patterns -/

/-- How a pattern comes into its scope.

* `listed` is a variable of a declaration that stands in the list of the scope.
* `head` is a variable in the head of a loop.
* `handler` is the parameter of a `catch`.
* `loose` is a variable of a declaration that stands in no list, such as a branch of an `if`. -/
inductive Role where
  | parameter
  | listed
  | head
  | handler
  | loose
  deriving DecidableEq, Repr

/-- A pattern in its role. -/
structure Introduced where
  role : Role
  pattern : Pattern

/-- Patterns in one role. -/
def introducedAs (role : Role) (ps : List Pattern) : List Introduced := ps.map (Introduced.mk role)

/-- The patterns of declarations. -/
def introducedDecls (role : Role) (decls : List Declarator) : List Introduced :=
  introducedAs role (decls.map fun | .mk target _ => target)

/-- The patterns of parameters. -/
def introducedItems (role : Role) (items : List PatternItem) : List Introduced :=
  introducedAs role (items.filterMap PatternItem.pattern?)

/-- The patterns that a statement introduces into the scope around it, where `role` is that of its
own declaration. -/
def introducedBy (role : Role) : Stmt → List Introduced
  | .vars _ decls => introducedDecls role decls
  | .exported decl => introducedBy role decl
  | .exportedDefault decl => introducedBy .loose decl
  | .cond _ yes no => introducedBy .loose yes ++ introducedBy .loose no
  | .while _ body => introducedBy .loose body
  | .doWhile body _ => introducedBy .loose body
  | .labeled _ body => introducedBy .loose body
  | _ => []

/-- The patterns that the head of a loop introduces. -/
def introducedHead : Stmt → List Introduced
  | .vars _ decls => introducedDecls .head decls
  | s => introducedBy .loose s

/-- The patterns that the body of a function introduces. -/
def introducedBody : Body → List Introduced
  | .block body => body.flatMap (introducedBy .listed)
  | .none | .expr _ => []

/-- The patterns of a scope itself. -/
def Opening.introduced : Opening → List Introduced
  | .function params body => introducedItems .parameter params ++ introducedBody body
  | .unit body | .block body => body.flatMap (introducedBy .listed)
  | .switch cases => cases.flatMap fun | .mk _ body => body.flatMap (introducedBy .listed)
  | .loop head body => introducedHead head ++ introducedBy .loose body
  | .each (.vars _ decls) body => introducedDecls .head decls ++ introducedBy .loose body
  | .each _ body => introducedBy .loose body
  | .handler param => introducedItems .handler param

/-- The markers of the patterns that are no parameter of a handler. -/
def strippedOf (is : List Introduced) : List Span :=
  (is.filter (·.role ≠ .handler)).flatMap (·.pattern.markers)

/-! ## Markers in outlines -/

/-- The markers of declarations. -/
def markersOfDecls (decls : List Declarator) : List Span :=
  decls.flatMap fun | .mk target _ => target.markers

/-- The markers that the walk takes out for a statement itself. -/
def markersBy : Stmt → List Span
  | .vars _ decls => markersOfDecls decls
  | .exported decl => markersBy decl
  | .exportedDefault decl => markersBy decl
  | .cond _ yes no => markersBy yes ++ markersBy no
  | .while _ body => markersBy body
  | .doWhile body _ => markersBy body
  | .labeled _ body => markersBy body
  | _ => []

/-- The markers that the walk takes out for the statements of a list. -/
def markersIn (body : List Stmt) : List Span := body.flatMap markersBy

/-- The markers that the walk takes out for the body of a function. -/
def markersOfBody : Body → List Span
  | .block body => markersIn body
  | .none | .expr _ => []

/-- The markers that the walk takes out for a scope itself. -/
def Opening.markers : Opening → List Span
  | .function params body => markersOfItems params ++ markersOfBody body
  | .unit body | .block body => markersIn body
  | .switch cases => cases.flatMap fun | .mk _ body => markersIn body
  | .loop head body => markersBy head ++ markersBy body
  | .each (.vars _ decls) body => markersOfDecls decls ++ markersBy body
  | .each _ body => markersBy body
  | .handler _ => []

section

/-- Patterns in one role are all kept, or none of them. -/
lemma filter_introducedAs (keeps : Role → Bool) (role : Role) (ps : List Pattern) :
    (introducedAs role ps).filter (fun i => keeps i.role) =
      if keeps role then introducedAs role ps else [] := by
  split
  · rename_i kept
    exact List.filter_eq_self.2 fun i mem => by
      obtain ⟨p, -, rfl⟩ := List.mem_map.1 mem
      exact kept
  · rename_i dropped
    exact List.filter_eq_nil_iff.2 fun i mem => by
      obtain ⟨p, -, rfl⟩ := List.mem_map.1 mem
      exact dropped

/-- Markers are taken out of two lists one after the other. -/
lemma strippedOf_append (is js : List Introduced) :
    strippedOf (is ++ js) = strippedOf is ++ strippedOf js := by
  rw [strippedOf, List.filter_append, List.flatMap_append]
  rfl

/-- The markers of a list of items are those of each item. -/
lemma strippedOf_flatMap {α : Type} {items : List α} {introduced : α → List Introduced}
    {markers : α → List Span} (each : ∀ a, strippedOf (introduced a) = markers a) :
    strippedOf (items.flatMap introduced) = items.flatMap markers := by
  induction items with
  | nil => rfl
  | cons a items ih =>
    rw [List.flatMap_cons, List.flatMap_cons, strippedOf_append, each, ih]

/-- The markers of a pattern that is of no handler come first. -/
lemma strippedOf_cons {role : Role} (other : role ≠ .handler) (p : Pattern)
    (is : List Introduced) : strippedOf (⟨role, p⟩ :: is) = p.markers ++ strippedOf is := by
  simp [strippedOf, other]

/-- The markers of declarations are taken out, unless they are of a handler. -/
lemma strippedOf_decls {role : Role} (other : role ≠ .handler) :
    ∀ decls : List Declarator, strippedOf (introducedDecls role decls) = markersOfDecls decls
  | [] => rfl
  | .mk target _ :: decls =>
    (strippedOf_cons other target _).trans
      (congrArg (target.markers ++ ·) (strippedOf_decls other decls))

/-- The markers of parameters are taken out. -/
lemma strippedOf_params :
    ∀ items : List PatternItem,
      strippedOf (introducedItems .parameter items) = markersOfItems items
  | [] => rfl
  | .hole :: items => strippedOf_params items
  | .item _ target :: items | .rest _ target :: items =>
    congrArg (target.markers ++ ·) (strippedOf_params items)

/-- The markers of a handler stay. -/
lemma strippedOf_handler (items : List PatternItem) :
    strippedOf (introducedItems .handler items) = [] := by
  have none : (introducedItems .handler items).filter (·.role ≠ .handler) = [] :=
    filter_introducedAs (fun role => role ≠ .handler) .handler _
  rw [strippedOf, none]
  rfl

/-- The markers of what a statement declares are taken out, unless it is of a handler. -/
lemma strippedOf_by {role : Role} (other : role ≠ .handler) :
    ∀ s : Stmt, strippedOf (introducedBy role s) = markersBy s
  | .vars _ decls => strippedOf_decls other decls
  | .exported decl => strippedOf_by other decl
  | .cond _ yes no =>
    (strippedOf_append _ _).trans
      (congrArg₂ (· ++ ·) (strippedOf_by (by decide) yes) (strippedOf_by (by decide) no))
  | .exportedDefault body | .while _ body | .doWhile body _ | .labeled _ body =>
    strippedOf_by (by decide) body
  | .expr _ _ | .block _ | .ret _ _ | .function _ | .class _ | .loop _ _ _ _ | .each _ _ _ _
  | .switch _ _ | .try _ _ _ _ | .throw _ | .with _ _ | .exit | .import _ | .exportedNames _ _
  | .exportedValue _ | .enum _ _ _ | .namespace _ _ | .alias _ _ | .typeOnly => rfl

/-- The markers of what a list of statements declares are taken out. -/
lemma strippedOf_list (body : List Stmt) :
    strippedOf (body.flatMap (introducedBy .listed)) = markersIn body :=
  strippedOf_flatMap (strippedOf_by (by decide))

/-- The walk takes out the markers of all patterns of a scope but those of a handler. -/
lemma Opening.markers_eq (opening : Opening) : opening.markers = strippedOf opening.introduced := by
  symm
  cases opening with
  | function params body =>
    refine (strippedOf_append _ _).trans (congrArg₂ (· ++ ·) (strippedOf_params params) ?_)
    cases body with
    | block body => exact strippedOf_list body
    | none | expr _ => rfl
  | unit body | block body => exact strippedOf_list body
  | switch cases =>
    apply strippedOf_flatMap
    rintro ⟨test, body⟩
    exact strippedOf_list body
  | loop head body =>
    refine (strippedOf_append _ _).trans (congrArg₂ (· ++ ·) ?_ (strippedOf_by (by decide) body))
    cases head with
    | vars kind decls => exact strippedOf_decls (by decide) decls
    | _ => exact strippedOf_by (by decide) _
  | each head body =>
    have rest : strippedOf (introducedBy .loose body) = markersBy body :=
      strippedOf_by (by decide) body
    cases head with
    | vars kind decls =>
      exact (strippedOf_append _ _).trans
        (congrArg₂ (· ++ ·) (strippedOf_decls (by decide) decls) rest)
    | _ => exact rest
  | handler param => exact strippedOf_handler param

end

namespace Outline

/-- The markers that are taken out for the scope around. -/
def own : Outline → List Span
  | .nothing | .reference _ | .scope _ _ _ => []
  | .markers spans => spans
  | .seq first second => first.own ++ second.own
  | .beside _ _ rest => rest.own
  | .template _ _ holes => holes.own

/-- In every scope that is visited, just the markers of its own patterns are taken out. -/
def Owned : Outline → Prop
  | .nothing | .reference _ | .markers _ => True
  | .seq first second => first.Owned ∧ second.Owned
  | .beside _ _ rest => rest.Owned
  | .template _ _ holes => holes.Owned
  | .scope opening first second =>
    first.own ++ second.own = opening.markers ∧ first.Owned ∧ second.Owned

end Outline

/-- An outline has the markers that its syntax brings into the scope around. -/
structure Owns (o : Outline) (spans : List Span) : Prop where
  own : o.own = spans
  owned : o.Owned

namespace Owns

variable {o o' : Outline} {xs ys : List Span}

/-- No syntax has no markers. -/
lemma nothing : Owns .nothing [] := ⟨rfl, trivial⟩

/-- The markers of a sequence are those of its two halves. -/
lemma seq (first : Owns o xs) (second : Owns o' ys) : Owns (.seq o o') (xs ++ ys) :=
  ⟨congrArg₂ (· ++ ·) first.own second.own, first.owned, second.owned⟩

/-- The second half has no markers. -/
lemma front (first : Owns o xs) (second : Owns o' []) : Owns (.seq o o') xs := by
  have both := first.seq second
  rwa [List.append_nil] at both

/-- The first half has no markers. -/
lemma behind (first : Owns o []) (second : Owns o' ys) : Owns (.seq o o') ys := first.seq second

/-- Syntax that the walk passes over does not count. -/
lemma beside {place : Passed} (inner : Outline) (rest : Owns o xs) :
    Owns (.beside place inner o) xs := ⟨rest.own, rest.owned⟩

/-- A name has no markers. -/
lemma reference (name : String) : Owns (.reference name) [] := ⟨rfl, trivial⟩

/-- Markers stand for themselves. -/
lemma markers (spans : List Span) : Owns (.markers spans) spans := ⟨rfl, trivial⟩

/-- The markers of a template are those of its holes. -/
lemma template {tag : String} {site : Site} (holes : Owns o xs) : Owns (.template tag site o) xs :=
  ⟨holes.own, holes.owned⟩

/-- The markers in a scope are those of its opening, and none are left to the scopes around it. -/
lemma scope (opening : Opening) (first : Owns o xs) (second : Owns o' ys)
    (all : xs ++ ys = opening.markers) : Owns (.scope opening o o') [] := by
  refine ⟨rfl, ?_, first.owned, second.owned⟩
  rw [first.own, second.own, all]

/-- The markers do not depend on a test if both of its cases have them. -/
lemma ite (c : Prop) [Decidable c] (yes : Owns o xs) (no : Owns o' xs) :
    Owns (if c then o else o') xs := by
  split
  · exact yes
  · exact no

/-- A template has no markers if its tag and its holes have none. -/
lemma tagged {tag : Expr} {chunks : List Chunk} {holes : List Expr} {span : Span}
    (first : Owns (outlineExpr tag) []) (second : Owns (outlineExprs holes) []) :
    Owns (outlineExpr (.tagged tag chunks holes span)) [] := by
  rw [outlineExpr]
  split
  · exact .template second
  · exact first.behind second

/-- A site has no markers if its template has none. -/
lemma site {tag : Expr} {chunks : List Chunk} {holes : List Expr} {span : Span}
    (replaced : Span) (form : Form) (whole : Owns (outlineExpr (.tagged tag chunks holes span)) [])
    (second : Owns (outlineExprs holes) []) :
    Owns ((outlineSite replaced form (.tagged tag chunks holes span)).getD
      (outlineExpr (.tagged tag chunks holes span))) [] := by
  rw [outlineSite]
  cases bareName? tag with
  | none => exact whole
  | some name => exact .template second

end Owns

mutual

/-- An expression has no markers if it stands as a site. -/
lemma owns_site (replaced : Span) (form : Form) :
    ∀ e : Expr, Owns (outlineExpr e) [] →
      Owns ((outlineSite replaced form e).getD (outlineExpr e)) []
  | .tagged _ _ holes _, whole => .site replaced form whole (owns_exprs holes)
  | .paren inner _, whole => owns_site replaced form inner whole
  | .name _, whole | .literal _, whole | .string _ _, whole | .keyword _, whole
  | .template _ _ _, whole | .array _ _, whole | .object _ _, whole | .function _ _, whole
  | .arrow _ _, whole | .class _ _, whole | .unary _ _, whole | .update _ _, whole
  | .binary _ _ _, whole | .logical _ _ _, whole | .conditional _ _ _ _, whole
  | .assign _ _ _ _, whole | .sequence _ _, whole | .call _ _ _, whole
  | .construct _ _ _, whole | .member _ _ _, whole | .index _ _ _, whole | .secret _ _ _, whole
  | .hasSecret _ _ _, whole | .chain _ _, whole | .await _ _, whole | .yield _ _, whole
  | .load _ _, whole | .cast _ _ _, whole | .instantiate _ _, whole => whole

/-- No expression brings a pattern into the scope around it. -/
lemma owns_expr : ∀ e : Expr, Owns (outlineExpr e) []
  | .name id => .reference id.text
  | .tagged tag _ holes _ => .tagged (owns_expr tag) (owns_exprs holes)
  | .template _ holes _ => owns_exprs holes
  | .arrow f _ | .function f _ => owns_function f
  | .class c _ => owns_class c
  | .array items _ => owns_items items
  | .object members _ => owns_members members
  | .call callee args _ | .construct callee args _ => .behind (owns_expr callee) (owns_items args)
  | .chain links _ => .ite _ (owns_expr links) (.beside _ .nothing)
  | .assign _ _ value _ => .beside _ (owns_expr value)
  | .await value _ | .unary value _ | .paren value _ | .member value _ _ | .cast .as value _
  | .cast .satisfies value _ | .cast .nonNull value _ => owns_expr value
  | .yield value _ => owns_option value
  | .binary left right _ | .logical left right _ | .index left right _ =>
    .behind (owns_expr left) (owns_expr right)
  | .conditional test yes no _ => .behind (owns_expr test) (.behind (owns_expr yes) (owns_expr no))
  | .sequence items _ => owns_exprs items
  | .update _ _ | .secret _ _ _ | .hasSecret _ _ _ | .cast .assertion _ _ | .instantiate _ _
  | .load _ _ => .beside _ .nothing
  | .literal _ | .string _ _ | .keyword _ => .nothing

/-- Expressions leave no markers to the scope around them. -/
lemma owns_exprs : ∀ es : List Expr, Owns (outlineExprs es) []
  | [] => .nothing
  | e :: es => .behind (owns_expr e) (owns_exprs es)

/-- An expression that may be missing leaves no markers. -/
lemma owns_option : ∀ e : Option Expr, Owns (outlineOption e) []
  | none => .nothing
  | some e => owns_expr e

/-- The items of an array leave no markers. -/
lemma owns_items : ∀ items : List Item, Owns (outlineItems items) []
  | [] => .nothing
  | .hole :: items => .behind .nothing (owns_items items)
  | .expr value :: items | .spread value :: items => .behind (owns_expr value) (owns_items items)

/-- The members of an object leave no markers. -/
lemma owns_members : ∀ ms : List Member, Owns (outlineMembers ms) []
  | [] => .nothing
  | .pair key value :: ms | .method key value :: ms =>
    .behind (.behind (owns_key key) (owns_expr value)) (owns_members ms)
  | .short id :: ms => .behind (.reference id.text) (owns_members ms)
  | .shortDefault id _ :: ms => .behind (.beside _ (.reference id.text)) (owns_members ms)
  | .spread value :: ms => .behind (owns_expr value) (owns_members ms)

/-- A key leaves no markers. -/
lemma owns_key : ∀ key : Key, Owns (outlineKey key) []
  | .computed value => owns_expr value
  | .fixed _ | .secret _ => .nothing

/-- A pattern by itself leaves no markers: they are taken out where it is declared. -/
lemma owns_pattern : ∀ p : Pattern, Owns (outlinePattern p) []
  | .name _ _ => .nothing
  | .object parts _ => owns_parts parts
  | .array items _ => owns_patternItems items
  | .withDefault target value _ =>
    .behind (owns_pattern target) (.ite _ .nothing (owns_expr value))

/-- The parts of an object pattern leave no markers. -/
lemma owns_parts : ∀ parts : List PatternPart, Owns (outlineParts parts) []
  | [] => .nothing
  | .prop key target :: parts =>
    .behind (.behind (owns_key key) (owns_pattern target)) (owns_parts parts)
  | .rest target :: parts => .behind (owns_pattern target) (owns_parts parts)

/-- The items of an array pattern leave no markers. -/
lemma owns_patternItems : ∀ items : List PatternItem, Owns (outlinePatternItems items) []
  | [] => .nothing
  | .hole :: items => .behind .nothing (owns_patternItems items)
  | .item _ target :: items | .rest _ target :: items =>
    .behind (.beside _ (owns_pattern target)) (owns_patternItems items)

/-- Parameters leave their own markers. -/
lemma owns_params : ∀ items : List PatternItem, Owns (outlineParams items) (markersOfItems items)
  | [] => .nothing
  | .hole :: items => .behind .nothing (owns_params items)
  | .item _ target :: items | .rest _ target :: items =>
    .seq (.beside _ (.front (.markers target.markers) (owns_pattern target))) (owns_params items)

/-- A function leaves no markers, since they are those of its scope. -/
lemma owns_function : ∀ f : Function, Owns (outlineFunction f) []
  | .mk _ params body =>
    .scope (.function params body) (owns_params params) (owns_body body) rfl

/-- A body leaves the markers of its statements. -/
lemma owns_body : ∀ body : Body, Owns (outlineBody body) (markersOfBody body)
  | .none => .nothing
  | .expr value => owns_site value.span .body value (owns_expr value)
  | .block body => owns_statements body

/-- A block leaves no markers, since they are those of its scope. -/
lemma owns_block : ∀ body : Body, Owns (outlineBlock body) []
  | .none => .nothing
  | .expr value => owns_expr value
  | .block body => .scope (.block body) .nothing (owns_statements body) rfl

/-- A class leaves no markers. -/
lemma owns_class : ∀ c : Script.Class, Owns (outlineClass c) []
  | .mk _ _ parent members => .beside _ (.behind (owns_option parent) (owns_classMembers members))

/-- The members of a class leave no markers. -/
lemma owns_classMembers : ∀ ms : List ClassMember, Owns (outlineClassMembers ms) []
  | [] => .nothing
  | .method _ _ f :: ms => .behind (.beside _ (.beside _ (owns_function f))) (owns_classMembers ms)
  | .field _ _ value :: ms =>
    .behind (.beside _ (.beside _ (owns_option value))) (owns_classMembers ms)
  | .accessor _ _ _ :: ms =>
    .behind (.beside _ (.beside _ (.beside _ .nothing))) (owns_classMembers ms)
  | .block body :: ms =>
    .behind (.scope (.unit body) .nothing (owns_statements body) rfl) (owns_classMembers ms)
  | .signature :: ms => .behind .nothing (owns_classMembers ms)

/-- Declarations leave the markers of their patterns. -/
lemma owns_decls : ∀ ds : List Declarator, Owns (outlineDecls ds) (markersOfDecls ds)
  | [] => .nothing
  | .mk target value :: ds =>
    .seq (.front (.markers target.markers) (.behind (owns_pattern target) (owns_option value)))
      (owns_decls ds)

/-- The cases of a switch leave the markers of their statements. -/
lemma owns_cases : ∀ cs : List Case, Owns (outlineCases cs) (Opening.markers (.switch cs))
  | [] => .nothing
  | .mk test body :: cs => .seq (.behind (owns_option test) (owns_statements body)) (owns_cases cs)

/-- Statements bring the patterns of their variables into the scope around them. -/
lemma owns_statements : ∀ ss : List Stmt, Owns (outlineStatements ss) (markersIn ss)
  | [] => .nothing
  | s :: ss => .seq (owns_statement true s) (owns_statements ss)

/-- A statement leaves the markers of the patterns that it declares. -/
lemma owns_statement (inList : Bool) : ∀ s : Stmt, Owns (outlineStatement inList s) (markersBy s)
  | .expr value _ | .throw value => owns_expr value
  | .block body => .scope (.block body) .nothing (owns_statements body) rfl
  | .cond test yes no =>
    .behind (owns_expr test) (.seq (owns_statement false yes) (owns_statement false no))
  | .ret none _ => .nothing
  | .ret (some value) span => owns_site span _ value (owns_expr value)
  | .vars _ decls => owns_decls decls
  | .function f => owns_function f
  | .class c => owns_class c
  | .loop head test update body =>
    .scope (.loop head body) .nothing (.seq (owns_statement false head)
      (.behind (owns_option test) (.behind (owns_option update) (owns_statement false body)))) rfl
  | .each _ head source body => by
    have rest := (owns_expr source).behind (owns_statement false body)
    cases head
    case vars kind decls =>
      exact .scope (.each (.vars kind decls) body) .nothing (.seq (owns_decls decls) rest) rfl
    all_goals exact .scope (.each _ body) .nothing (.beside _ rest) rfl
  | .while test body => .behind (owns_expr test) (owns_statement false body)
  | .doWhile body test => .front (owns_statement false body) (owns_expr test)
  | .switch value cases =>
    .behind (owns_expr value) (.scope (.switch cases) .nothing (owns_cases cases) rfl)
  | .try body param handler finalizer =>
    .behind (.scope (.block body) .nothing (owns_statements body) rfl)
      (.beside _ (.behind (.scope (.handler param) .nothing (owns_block handler) rfl)
        (owns_block finalizer)))
  | .labeled _ body => owns_statement false body
  | .exported decl | .exportedDefault decl => owns_statement true decl
  | .with _ _ | .exportedValue _ | .enum _ _ _ | .namespace _ _ => .beside _ .nothing
  | .exit | .import _ | .exportedNames _ _ | .alias _ _ | .typeOnly => .nothing

end

end TaggedMarkup.Compile

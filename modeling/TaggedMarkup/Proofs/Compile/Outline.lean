import Mathlib
import TaggedMarkup.Proofs.Compile.References

/-!
# Outlines of syntax

The outline of a piece of syntax has all of its templates and scopes, also those in places that the
walk passes over. It does not depend on the tag of a file. For a tag it gives the plan of the walk,
and this is the plan of the syntax (`sketches_statements` and its like). So what holds of the
templates and scopes of all scripts can be shown by induction on outlines.

A site that is returned is written as bare statements if the `return` stands in a list. Then it
stands in the list of the scope around it (`Outline.Sound`).
-/

namespace TaggedMarkup.Compile

open Script

/-! ## Scopes -/

/-- How a scope opens. -/
inductive Opening where
  | function (params : List PatternItem) (body : Body)
  /-- A whole script, or a static block of a class. -/
  | unit (body : List Stmt)
  | block (body : List Stmt)
  | switch (cases : List Case)
  | loop (head body : Stmt)
  | each (head body : Stmt)
  | handler (param : List PatternItem)

namespace Opening

/-- The names that are declared in front of the first part. -/
def params : Opening → Declared
  | .function params _ => declaredItems params
  | _ => []

/-- The names that are declared in front of the second part. -/
def locals : Opening → Declared
  | .function _ body => declaredBody body
  | .unit body | .block body => body.flatMap declaredBy
  | .switch cases => declaredCases cases
  | .loop head _ | .each head _ => declaredHead head
  | .handler param => declaredItems param

end Opening

/-! ## Returned sites -/

/-- The name that an expression is, if it is nothing else. -/
def bareName? : Expr → Option String
  | .name id => some id.text
  | _ => none

/-- The site that an expression is, with or without parentheses. -/
def siteIn (tag : String) (replaced : Span) (form : Form) : Expr → List Site
  | .tagged t chunks holes span =>
    if bareName? t = some tag then [⟨chunks, holes, span, replaced, form⟩] else []
  | .paren inner _ => siteIn tag replaced form inner
  | _ => []

/-- The sites that a statement returns into the scope around it: its own, if it is a `return` in a
list. What stands in a statement without braces is in no list, unless it is exported. -/
def returned (tag : String) (inList : Bool) : Stmt → List Site
  | .ret (some value) span => if inList then siteIn tag span .statements value else []
  | .exported decl => returned tag true decl
  | .exportedDefault decl => returned tag true decl
  | .cond _ yes no => returned tag false yes ++ returned tag false no
  | .while _ body => returned tag false body
  | .doWhile body _ => returned tag false body
  | .labeled _ body => returned tag false body
  | _ => []

/-- The sites that the statements of a list return. -/
def returnedAll (tag : String) (body : List Stmt) : List Site := body.flatMap (returned tag true)

/-- The sites that the statements of a body return. -/
def returnedBody (tag : String) : Body → List Site
  | .block body => returnedAll tag body
  | .none | .expr _ => []

/-- The sites that the statements of a scope itself return. All cases of a switch are one scope. -/
def Opening.returned (tag : String) : Opening → List Site
  | .function _ body => returnedBody tag body
  | .unit body | .block body => returnedAll tag body
  | .switch cases => cases.flatMap fun | .mk _ body => returnedAll tag body
  | .loop head body => Compile.returned tag false head ++ Compile.returned tag false body
  | .each _ body => Compile.returned tag false body
  | .handler _ => []

/-! ## Outlines -/

/-- Templates and scopes of a piece of syntax.

* `beside` has a place that the walk passes over, and the rest, which it visits.
* `template` has a template whose tag is a name, and what stands in its holes. -/
inductive Outline where
  | nothing
  | seq (first second : Outline)
  | beside (place : Passed) (inner rest : Outline)
  | reference (name : String)
  | markers (spans : List Span)
  | template (tag : String) (site : Site) (holes : Outline)
  | scope (opening : Opening) (first second : Outline)

/-- The scopes around something, and whether it stands behind the local names of a scope or among
its parameters. -/
structure Enclosing where
  opening : Opening
  inBody : Bool

/-- Where a site stands: in a place that is passed over, if there is one, and in scopes, the
innermost first. -/
structure Location where
  site : Site
  passed : Option Passed
  around : List Enclosing

/-- Whether the walk comes to a site. -/
def Location.isVisited (l : Location) : Bool := l.passed.isNone

namespace Outline

/-- What a walk does for a tag. -/
def plan (file : File) : Outline → Plan
  | .nothing => .done
  | .seq first second => .seq (first.plan file) (second.plan file)
  | .beside _ _ rest => rest.plan file
  | .reference name => if name = file.tag then .useTag else .done
  | .markers spans => .remove spans
  | .template tag site holes =>
    if tag = file.tag then .site site (holes.plan file) else .seq .done (holes.plan file)
  | .scope opening first second =>
    .scope opening.params (first.plan file) opening.locals (second.plan file)

/-- All sites of a tag, those in the holes of a site in front of it. -/
def sites (tag : String) (place : Option Passed) (around : List Enclosing) :
    Outline → List Location
  | .nothing | .reference _ | .markers _ => []
  | .seq first second => first.sites tag place around ++ second.sites tag place around
  | .beside passed inner rest =>
    inner.sites tag (within place passed) around ++ rest.sites tag place around
  | .template t site holes =>
    holes.sites tag place around ++ if t = tag then [⟨site, place, around⟩] else []
  | .scope opening first second =>
    first.sites tag place (⟨opening, false⟩ :: around) ++
      second.sites tag place (⟨opening, true⟩ :: around)

/-- The sites that are written as bare statements in the scope around. -/
def bare (tag : String) : Outline → List Site
  | .nothing | .reference _ | .markers _ | .scope _ _ _ => []
  | .seq first second => first.bare tag ++ second.bare tag
  | .beside _ _ rest => rest.bare tag
  | .template t site _ => if t = tag ∧ site.form = .statements then [site] else []

/-- In every scope that is visited, just those sites are written as bare statements that its own
statements return. The holes of a template are expressions, and return nothing. -/
def Sound (tag : String) : Outline → Prop
  | .nothing | .reference _ | .markers _ => True
  | .seq first second => first.Sound tag ∧ second.Sound tag
  | .beside _ _ rest => rest.Sound tag
  | .template _ _ holes => holes.bare tag = [] ∧ holes.Sound tag
  | .scope opening first second =>
    first.bare tag ++ second.bare tag = opening.returned tag ∧ first.Sound tag ∧ second.Sound tag

end Outline

mutual

/-- The outline of the template that an expression is, with or without parentheses. -/
def outlineSite (replaced : Span) (form : Form) : Expr → Option Outline
  | .tagged tag chunks holes span =>
    (bareName? tag).map fun name =>
      .template name ⟨chunks, holes, span, replaced, form⟩ (outlineExprs holes)
  | .paren inner _ => outlineSite replaced form inner
  | _ => none

/-- The outline of an expression. -/
def outlineExpr : Expr → Outline
  | .name id => .reference id.text
  | .tagged tag chunks holes span =>
    match bareName? tag with
    | some name => .template name ⟨chunks, holes, span, span, .call⟩ (outlineExprs holes)
    | none => .seq (outlineExpr tag) (outlineExprs holes)
  | .template _ holes _ => outlineExprs holes
  | .arrow f _ => outlineFunction f
  | .function f _ => outlineFunction f
  | .class c _ => outlineClass c
  | .array items _ => outlineItems items
  | .object members _ => outlineMembers members
  | .call callee args _ => .seq (outlineExpr callee) (outlineItems args)
  | .construct callee args _ => .seq (outlineExpr callee) (outlineItems args)
  | .chain links _ =>
    if isVisitedLink links then outlineExpr links
    else .beside .chainEnd (outlineExpr links) .nothing
  | .member object _ _ => outlineExpr object
  | .index object index _ => .seq (outlineExpr object) (outlineExpr index)
  | .assign _ target value _ => .beside .assignmentTarget (outlineExpr target) (outlineExpr value)
  | .await value _ => outlineExpr value
  | .yield value _ => outlineOption value
  | .unary operand _ => outlineExpr operand
  | .binary left right _ => .seq (outlineExpr left) (outlineExpr right)
  | .logical left right _ => .seq (outlineExpr left) (outlineExpr right)
  | .conditional test yes no _ =>
    .seq (outlineExpr test) (.seq (outlineExpr yes) (outlineExpr no))
  | .sequence items _ => outlineExprs items
  | .paren inner _ => outlineExpr inner
  | .cast .assertion value _ => .beside .typeAssertion (outlineExpr value) .nothing
  | .cast .as value _ => outlineExpr value
  | .cast .satisfies value _ => outlineExpr value
  | .cast .nonNull value _ => outlineExpr value
  | .update target _ => .beside .updateTarget (outlineExpr target) .nothing
  | .secret object _ _ => .beside .secretMember (outlineExpr object) .nothing
  | .hasSecret _ object _ => .beside .secretMember (outlineExpr object) .nothing
  | .load args _ => .beside .loadArgument (outlineExprs args) .nothing
  | .instantiate value _ => .beside .typeArguments (outlineExpr value) .nothing
  | .literal _ | .string _ _ | .keyword _ => .nothing

def outlineExprs : List Expr → Outline
  | [] => .nothing
  | e :: es => .seq (outlineExpr e) (outlineExprs es)

def outlineOption : Option Expr → Outline
  | none => .nothing
  | some e => outlineExpr e

def outlineItems : List Item → Outline
  | [] => .nothing
  | item :: items => .seq (outlineItem item) (outlineItems items)

def outlineItem : Item → Outline
  | .hole => .nothing
  | .expr value => outlineExpr value
  | .spread value => outlineExpr value

def outlineMembers : List Member → Outline
  | [] => .nothing
  | m :: ms => .seq (outlineMember m) (outlineMembers ms)

def outlineMember : Member → Outline
  | .pair key value => .seq (outlineKey key) (outlineExpr value)
  | .method key value => .seq (outlineKey key) (outlineExpr value)
  | .short id => .reference id.text
  | .shortDefault id value => .beside .shorthandDefault (outlineExpr value) (.reference id.text)
  | .spread value => outlineExpr value

def outlineKey : Key → Outline
  | .computed value => outlineExpr value
  | .fixed _ | .secret _ => .nothing

/-- The outline of the expressions in a pattern. -/
def outlinePattern : Pattern → Outline
  | .name _ _ => .nothing
  | .object parts _ => outlineParts parts
  | .array items _ => outlinePatternItems items
  | .withDefault target value _ =>
    .seq (outlinePattern target) (if value.isMarker then .nothing else outlineExpr value)

def outlineParts : List PatternPart → Outline
  | [] => .nothing
  | part :: parts => .seq (outlinePart part) (outlineParts parts)

def outlinePart : PatternPart → Outline
  | .prop key target => .seq (outlineKey key) (outlinePattern target)
  | .rest target => outlinePattern target

def outlinePatternItems : List PatternItem → Outline
  | [] => .nothing
  | item :: items => .seq (outlinePatternItem item) (outlinePatternItems items)

def outlinePatternItem : PatternItem → Outline
  | .hole => .nothing
  | .item decorators target =>
    .beside .decorator (outlineExprs decorators) (outlinePattern target)
  | .rest decorators target =>
    .beside .decorator (outlineExprs decorators) (outlinePattern target)

def outlineParams : List PatternItem → Outline
  | [] => .nothing
  | item :: items => .seq (outlineParam item) (outlineParams items)

def outlineParam : PatternItem → Outline
  | .hole => .nothing
  | .item decorators target =>
    .beside .decorator (outlineExprs decorators)
      (.seq (.markers target.markers) (outlinePattern target))
  | .rest decorators target =>
    .beside .decorator (outlineExprs decorators)
      (.seq (.markers target.markers) (outlinePattern target))

def outlineFunction : Function → Outline
  | .mk _ params body => .scope (.function params body) (outlineParams params) (outlineBody body)

def outlineBody : Body → Outline
  | .none => .nothing
  | .expr value => (outlineSite value.span .body value).getD (outlineExpr value)
  | .block body => outlineStatements body

/-- The outline of statements in braces. -/
def outlineBlock : Body → Outline
  | .none => .nothing
  | .expr value => outlineExpr value
  | .block body => .scope (.block body) .nothing (outlineStatements body)

def outlineClass : Script.Class → Outline
  | .mk decorators _ parent members =>
    .beside .decorator (outlineExprs decorators)
      (.seq (outlineOption parent) (outlineClassMembers members))

def outlineClassMembers : List ClassMember → Outline
  | [] => .nothing
  | m :: ms => .seq (outlineClassMember m) (outlineClassMembers ms)

def outlineClassMember : ClassMember → Outline
  | .method decorators key f =>
    .beside .decorator (outlineExprs decorators)
      (.beside .classKey (outlineKey key) (outlineFunction f))
  | .field decorators key value =>
    .beside .decorator (outlineExprs decorators)
      (.beside .classKey (outlineKey key) (outlineOption value))
  | .accessor decorators key value =>
    .beside .decorator (outlineExprs decorators)
      (.beside .classKey (outlineKey key) (.beside .accessorValue (outlineOption value) .nothing))
  | .block body => .scope (.unit body) .nothing (outlineStatements body)
  | .signature => .nothing

def outlineDecls : List Declarator → Outline
  | [] => .nothing
  | d :: ds => .seq (outlineDecl d) (outlineDecls ds)

def outlineDecl : Declarator → Outline
  | .mk target value =>
    .seq (.markers target.markers) (.seq (outlinePattern target) (outlineOption value))

def outlineCases : List Case → Outline
  | [] => .nothing
  | c :: cs => .seq (outlineCase c) (outlineCases cs)

def outlineCase : Case → Outline
  | .mk test body => .seq (outlineOption test) (outlineStatements body)

/-- The outline of the statements of a list. -/
def outlineStatements : List Stmt → Outline
  | [] => .nothing
  | s :: ss => .seq (outlineStatement true s) (outlineStatements ss)

/-- The outline of a statement. -/
def outlineStatement (inList : Bool) : Stmt → Outline
  | .expr value _ => outlineExpr value
  | .block body => .scope (.block body) .nothing (outlineStatements body)
  | .cond test yes no =>
    .seq (outlineExpr test) (.seq (outlineStatement false yes) (outlineStatement false no))
  | .ret none _ => .nothing
  | .ret (some value) span =>
    (outlineSite span (if inList then .statements else .body) value).getD (outlineExpr value)
  | .vars _ decls => outlineDecls decls
  | .function f => outlineFunction f
  | .class c => outlineClass c
  | .loop head test update body =>
    .scope (.loop head body) .nothing (.seq (outlineStatement false head)
      (.seq (outlineOption test) (.seq (outlineOption update) (outlineStatement false body))))
  | .each _ (.vars kind decls) source body =>
    .scope (.each (.vars kind decls) body) .nothing
      (.seq (outlineDecls decls) (.seq (outlineExpr source) (outlineStatement false body)))
  -- A head that declares nothing is a target, and is not visited.
  | .each _ head source body =>
    .scope (.each head body) .nothing (.beside .loopHead (outlineStatement false head)
      (.seq (outlineExpr source) (outlineStatement false body)))
  | .while test body => .seq (outlineExpr test) (outlineStatement false body)
  | .doWhile body test => .seq (outlineStatement false body) (outlineExpr test)
  | .switch value cases =>
    .seq (outlineExpr value) (.scope (.switch cases) .nothing (outlineCases cases))
  | .try body param handler finalizer =>
    .seq (.scope (.block body) .nothing (outlineStatements body))
      (.beside .catchParameter (outlinePatternItems param)
        (.seq (.scope (.handler param) .nothing (outlineBlock handler)) (outlineBlock finalizer)))
  | .labeled _ body => outlineStatement false body
  | .throw value => outlineExpr value
  | .with object body =>
    .beside .withStatement (.seq (outlineExpr object) (outlineStatement false body)) .nothing
  | .exported decl => outlineStatement true decl
  | .exportedDefault decl => outlineStatement true decl
  | .exportedValue value => .beside .exportedValue (outlineExpr value) .nothing
  | .enum _ _ values => .beside .enumValue (outlineExprs values) .nothing
  | .namespace _ body => .beside .namespaceBody (outlineStatements body) .nothing
  | .exit | .import _ | .exportedNames _ _ | .alias _ _ | .typeOnly => .nothing

end

/-- All sites of a script. -/
def sitesOf (tag : String) (script : List Stmt) : List Location :=
  (outlineStatements script).sites tag none [⟨.unit script, true⟩]

/-- All sites of expressions that stand in types. -/
def sitesInTypes (tag : String) (types : List Expr) : List Site :=
  ((outlineExprs types).sites tag (some .type) []).map Location.site

/-! ## The outline of syntax gives its plan -/

/-- An outline gives the plan of a walk for the tag of a file, and has the sites that its syntax
returns into the scope around. -/
structure Sketches (file : File) (o : Outline) (p : Plan) (returned : List Site) : Prop where
  plan : p = o.plan file
  bare : o.bare file.tag = returned
  sound : o.Sound file.tag

namespace Sketches

variable {file : File} {o o' : Outline} {p p' : Plan} {rs rs' : List Site}

/-- No syntax has a plan that does nothing. -/
lemma nothing : Sketches file .nothing .done [] := ⟨rfl, rfl, trivial⟩

/-- Outlines and plans in a row. -/
lemma seq (first : Sketches file o p rs) (second : Sketches file o' p' rs') :
    Sketches file (.seq o o') (.seq p p') (rs ++ rs') :=
  ⟨congrArg₂ Plan.seq first.plan second.plan, congrArg₂ (· ++ ·) first.bare second.bare,
    first.sound, second.sound⟩

/-- A part that returns nothing behind another one. -/
lemma front (first : Sketches file o p rs) (second : Sketches file o' p' []) :
    Sketches file (.seq o o') (.seq p p') rs := by
  have both := first.seq second
  rwa [List.append_nil] at both

/-- A part that returns nothing in front of another one. -/
lemma behind (first : Sketches file o p []) (second : Sketches file o' p' rs) :
    Sketches file (.seq o o') (.seq p p') rs := first.seq second

/-- Parts that return nothing. -/
lemma both (first : Sketches file o p []) (second : Sketches file o' p' []) :
    Sketches file (.seq o o') (.seq p p') [] := first.seq second

/-- What the walk passes over has no plan. -/
lemma beside {place : Passed} (inner : Outline) (rest : Sketches file o p rs) :
    Sketches file (.beside place inner o) p rs := ⟨rest.plan, rest.bare, rest.sound⟩

/-- The plan of a name counts it if it is the tag. -/
lemma reference (name : String) :
    Sketches file (.reference name) (if name = file.tag then .useTag else .done) [] :=
  ⟨rfl, rfl, trivial⟩

/-- The plan of markers takes them out. -/
lemma markers (spans : List Span) : Sketches file (.markers spans) (.remove spans) [] :=
  ⟨rfl, rfl, trivial⟩

/-- A scope returns nothing into the one around it. -/
lemma scope (opening : Opening) (first : Sketches file o p []) (second : Sketches file o' p' rs)
    (own : rs = opening.returned file.tag) :
    Sketches file (.scope opening o o') (.scope opening.params p opening.locals p') [] := by
  refine ⟨?_, rfl, ?_, first.sound, second.sound⟩
  · rw [Outline.plan, first.plan, second.plan]
  · rw [first.bare, second.bare, own, List.nil_append]

/-- A test in the outline that is one of the plan. -/
lemma ite (c : Prop) [Decidable c] (yes : Sketches file o p rs) (no : Sketches file o' p' rs) :
    Sketches file (if c then o else o') (if c then p else p') rs := by
  split
  · exact yes
  · exact no

/-- Whether an expression is the tag can be told by the name that it is. -/
lemma isTag_eq (file : File) (tag : Expr) :
    isTag file tag = decide (bareName? tag = some file.tag) := by
  cases tag with
  | name id => simp [isTag, bareName?, Bool.beq_eq_decide_eq]
  | _ => simp [isTag, bareName?]

/-- A name that is not the tag is no use of it. -/
lemma plan_of_bareName {tag : Expr} {name : String} (bare : bareName? tag = some name)
    (other : name ≠ file.tag) : planExpr file tag = .done := by
  cases tag with
  | name id =>
    cases bare
    rw [planExpr, if_neg other]
  | _ => cases bare

/-- A template whose tag is a name is a site, or something around its holes. -/
lemma template {tag : Expr} {name : String} (here : Site) (bare : bareName? tag = some name)
    (holes : Sketches file o p []) :
    Sketches file (.template name here o)
      (if isTag file tag then .site here p else .seq (planExpr file tag) p)
      (if name = file.tag ∧ here.form = .statements then [here] else []) := by
  refine ⟨?_, rfl, holes.bare, holes.sound⟩
  rw [Outline.plan, isTag_eq, bare, ← holes.plan]
  by_cases same : name = file.tag
  · simp [same]
  · simp [same, plan_of_bareName bare same]

/-- The plan of a template, whether or not it has the tag. -/
lemma tagged {tag : Expr} {chunks : List Chunk} {holes : List Expr} {span : Span}
    (first : Sketches file (outlineExpr tag) (planExpr file tag) [])
    (second : Sketches file (outlineExprs holes) (planExprs file holes) []) :
    Sketches file (outlineExpr (.tagged tag chunks holes span))
      (planExpr file (.tagged tag chunks holes span)) [] := by
  rw [outlineExpr, planExpr]
  cases bare : bareName? tag with
  | none =>
    rw [isTag_eq, bare]
    exact first.both second
  | some name =>
    have here := template ⟨chunks, holes, span, span, .call⟩ bare second
    simpa using here

/-- A template that is a body or is returned, or another expression. -/
lemma site {tag : Expr} {chunks : List Chunk} {holes : List Expr} {span : Span}
    (replaced : Span) (form : Form)
    (whole : Sketches file (outlineExpr (.tagged tag chunks holes span))
      (planExpr file (.tagged tag chunks holes span)) [])
    (second : Sketches file (outlineExprs holes) (planExprs file holes) []) :
    Sketches file
      ((outlineSite replaced form (.tagged tag chunks holes span)).getD
        (outlineExpr (.tagged tag chunks holes span)))
      ((planSite file replaced form (.tagged tag chunks holes span)).getD
        (planExpr file (.tagged tag chunks holes span)))
      (if form = .statements then siteIn file.tag replaced form (.tagged tag chunks holes span)
        else []) := by
  rw [outlineSite, planSite, siteIn]
  cases bare : bareName? tag with
  | none =>
    rw [isTag_eq, bare]
    simpa using whole
  | some name =>
    have here := template ⟨chunks, holes, span, replaced, form⟩ bare second
    rw [planExpr]
    by_cases same : name = file.tag
    · simpa [isTag_eq, bare, same] using here
    · simpa [isTag_eq, bare, same] using here

/-- An expression that is no template. -/
lemma other (form : Form) (whole : Sketches file o p []) :
    Sketches file o p (if form = .statements then [] else []) := by
  rwa [ite_self]

end Sketches

mutual

/-- The site that an expression is, or the expression. -/
lemma sketches_site (file : File) (replaced : Span) (form : Form) :
    ∀ e : Expr, Sketches file (outlineExpr e) (planExpr file e) [] →
      Sketches file ((outlineSite replaced form e).getD (outlineExpr e))
        ((planSite file replaced form e).getD (planExpr file e))
        (if form = .statements then siteIn file.tag replaced form e else [])
  | .tagged _ _ holes _, whole => .site replaced form whole (sketches_exprs file holes)
  | .paren inner _, whole => sketches_site file replaced form inner whole
  | .name _, whole | .literal _, whole | .string _ _, whole | .keyword _, whole
  | .template _ _ _, whole | .array _ _, whole | .object _ _, whole | .function _ _, whole
  | .arrow _ _, whole | .class _ _, whole | .unary _ _, whole | .update _ _, whole
  | .binary _ _ _, whole | .logical _ _ _, whole | .conditional _ _ _ _, whole
  | .assign _ _ _ _, whole | .sequence _ _, whole | .call _ _ _, whole
  | .construct _ _ _, whole | .member _ _ _, whole | .index _ _ _, whole | .secret _ _ _, whole
  | .hasSecret _ _ _, whole | .chain _ _, whole | .await _ _, whole | .yield _ _, whole
  | .load _ _, whole | .cast _ _ _, whole | .instantiate _ _, whole => .other form whole

/-- An outline of an expression. -/
lemma sketches_expr (file : File) :
    ∀ e : Expr, Sketches file (outlineExpr e) (planExpr file e) []
  | .name id => .reference id.text
  | .tagged tag _ holes _ => .tagged (sketches_expr file tag) (sketches_exprs file holes)
  | .template _ holes _ => sketches_exprs file holes
  | .arrow f _ | .function f _ => sketches_function file f
  | .class c _ => sketches_class file c
  | .array items _ => sketches_items file items
  | .object members _ => sketches_members file members
  | .call callee args _ | .construct callee args _ =>
    .both (sketches_expr file callee) (sketches_items file args)
  | .chain links _ => .ite _ (sketches_expr file links) (.beside _ .nothing)
  | .assign _ _ value _ => .beside _ (sketches_expr file value)
  | .await value _ | .unary value _ | .paren value _ | .member value _ _ | .cast .as value _
  | .cast .satisfies value _ | .cast .nonNull value _ => sketches_expr file value
  | .yield value _ => sketches_option file value
  | .binary left right _ | .logical left right _ | .index left right _ =>
    .both (sketches_expr file left) (sketches_expr file right)
  | .conditional test yes no _ =>
    .both (sketches_expr file test) (.both (sketches_expr file yes) (sketches_expr file no))
  | .sequence items _ => sketches_exprs file items
  | .update _ _ | .secret _ _ _ | .hasSecret _ _ _ | .cast .assertion _ _ | .instantiate _ _
  | .load _ _ => .beside _ .nothing
  | .literal _ | .string _ _ | .keyword _ => .nothing

/-- The plan of expressions. -/
lemma sketches_exprs (file : File) :
    ∀ es : List Expr, Sketches file (outlineExprs es) (planExprs file es) []
  | [] => .nothing
  | e :: es => .both (sketches_expr file e) (sketches_exprs file es)

/-- The plan of an expression that may be missing. -/
lemma sketches_option (file : File) :
    ∀ e : Option Expr, Sketches file (outlineOption e) (planOption file e) []
  | none => .nothing
  | some e => sketches_expr file e

/-- The plan of the items of an array. -/
lemma sketches_items (file : File) :
    ∀ items : List Item, Sketches file (outlineItems items) (planItems file items) []
  | [] => .nothing
  | item :: items => .both (sketches_item file item) (sketches_items file items)

/-- The plan of an item of an array. -/
lemma sketches_item (file : File) :
    ∀ item : Item, Sketches file (outlineItem item) (planItem file item) []
  | .hole => .nothing
  | .expr value | .spread value => sketches_expr file value

/-- The plan of the members of an object. -/
lemma sketches_members (file : File) :
    ∀ ms : List Member, Sketches file (outlineMembers ms) (planMembers file ms) []
  | [] => .nothing
  | m :: ms => .both (sketches_member file m) (sketches_members file ms)

/-- The plan of a member of an object. -/
lemma sketches_member (file : File) :
    ∀ m : Member, Sketches file (outlineMember m) (planMember file m) []
  | .pair key value | .method key value =>
    .both (sketches_key file key) (sketches_expr file value)
  | .short id => .reference id.text
  | .shortDefault id _ => .beside _ (.reference id.text)
  | .spread value => sketches_expr file value

/-- The plan of a key. -/
lemma sketches_key (file : File) :
    ∀ key : Key, Sketches file (outlineKey key) (planKey file key) []
  | .computed value => sketches_expr file value
  | .fixed _ | .secret _ => .nothing

/-- The plan of a pattern. -/
lemma sketches_pattern (file : File) :
    ∀ p : Pattern, Sketches file (outlinePattern p) (planPattern file p) []
  | .name _ _ => .nothing
  | .object parts _ => sketches_parts file parts
  | .array items _ => sketches_patternItems file items
  | .withDefault target value _ =>
    .both (sketches_pattern file target) (.ite _ .nothing (sketches_expr file value))

/-- The plan of the parts of an object pattern. -/
lemma sketches_parts (file : File) :
    ∀ parts : List PatternPart, Sketches file (outlineParts parts) (planParts file parts) []
  | [] => .nothing
  | part :: parts => .both (sketches_part file part) (sketches_parts file parts)

/-- The plan of a part of an object pattern. -/
lemma sketches_part (file : File) :
    ∀ part : PatternPart, Sketches file (outlinePart part) (planPart file part) []
  | .prop key target => .both (sketches_key file key) (sketches_pattern file target)
  | .rest target => sketches_pattern file target

/-- The plan of the items of an array pattern. -/
lemma sketches_patternItems (file : File) :
    ∀ items : List PatternItem,
      Sketches file (outlinePatternItems items) (planPatternItems file items) []
  | [] => .nothing
  | item :: items => .both (sketches_patternItem file item) (sketches_patternItems file items)

/-- The plan of an item of an array pattern. -/
lemma sketches_patternItem (file : File) :
    ∀ item : PatternItem,
      Sketches file (outlinePatternItem item) (planPatternItem file item) []
  | .hole => .nothing
  | .item _ target | .rest _ target => .beside _ (sketches_pattern file target)

/-- The plan of parameters. -/
lemma sketches_params (file : File) :
    ∀ items : List PatternItem, Sketches file (outlineParams items) (planParams file items) []
  | [] => .nothing
  | item :: items => .both (sketches_param file item) (sketches_params file items)

/-- The plan of a parameter. -/
lemma sketches_param (file : File) :
    ∀ item : PatternItem, Sketches file (outlineParam item) (planParam file item) []
  | .hole => .nothing
  | .item _ target | .rest _ target =>
    .beside _ (.both (.markers _) (sketches_pattern file target))

/-- The plan of a function. -/
lemma sketches_function (file : File) :
    ∀ f : Function, Sketches file (outlineFunction f) (planFunction file f) []
  | .mk _ params body =>
    .scope (.function params body) (sketches_params file params) (sketches_body file body) rfl

/-- The body of a function returns what its statements do. -/
lemma sketches_body (file : File) :
    ∀ body : Body, Sketches file (outlineBody body) (planBody file body)
      (returnedBody file.tag body)
  | .none => .nothing
  | .expr value => sketches_site file value.span .body value (sketches_expr file value)
  | .block body => sketches_statements file body

/-- The plan of a block. -/
lemma sketches_block (file : File) :
    ∀ body : Body, Sketches file (outlineBlock body) (planBlock file body) []
  | .none => .nothing
  | .expr value => sketches_expr file value
  | .block body => .scope (.block body) .nothing (sketches_statements file body) rfl

/-- The plan of a class. -/
lemma sketches_class (file : File) :
    ∀ c : Script.Class, Sketches file (outlineClass c) (planClass file c) []
  | .mk _ _ parent members =>
    .beside _ (.both (sketches_option file parent) (sketches_classMembers file members))

/-- The plan of the members of a class. -/
lemma sketches_classMembers (file : File) :
    ∀ ms : List ClassMember,
      Sketches file (outlineClassMembers ms) (planClassMembers file ms) []
  | [] => .nothing
  | m :: ms => .both (sketches_classMember file m) (sketches_classMembers file ms)

/-- The plan of a member of a class. -/
lemma sketches_classMember (file : File) :
    ∀ m : ClassMember, Sketches file (outlineClassMember m) (planClassMember file m) []
  | .method _ _ f => .beside _ (.beside _ (sketches_function file f))
  | .field _ _ value => .beside _ (.beside _ (sketches_option file value))
  | .accessor _ _ _ => .beside _ (.beside _ (.beside _ .nothing))
  | .block body => .scope (.unit body) .nothing (sketches_statements file body) rfl
  | .signature => .nothing

/-- The plan of declarations. -/
lemma sketches_decls (file : File) :
    ∀ ds : List Declarator, Sketches file (outlineDecls ds) (planDecls file ds) []
  | [] => .nothing
  | d :: ds => .both (sketches_decl file d) (sketches_decls file ds)

/-- The plan of a declaration. -/
lemma sketches_decl (file : File) :
    ∀ d : Declarator, Sketches file (outlineDecl d) (planDecl file d) []
  | .mk target value =>
    .both (.markers _) (.both (sketches_pattern file target) (sketches_option file value))

/-- The plan of the cases of a switch. -/
lemma sketches_cases (file : File) :
    ∀ cs : List Case, Sketches file (outlineCases cs) (planCases file cs)
      (Opening.returned file.tag (.switch cs))
  | [] => .nothing
  | .mk test body :: cs =>
    .seq (.behind (sketches_option file test) (sketches_statements file body))
      (sketches_cases file cs)

/-- An outline of the statements of a list, and of what they return. -/
lemma sketches_statements (file : File) :
    ∀ ss : List Stmt, Sketches file (outlineStatements ss) (planStatements file ss)
      (returnedAll file.tag ss)
  | [] => .nothing
  | s :: ss => .seq (sketches_statement file true s) (sketches_statements file ss)

/-- An outline of a statement, and of what it returns. -/
lemma sketches_statement (file : File) (inList : Bool) :
    ∀ s : Stmt, Sketches file (outlineStatement inList s) (planStatement file inList s)
      (returned file.tag inList s)
  | .expr value _ | .throw value => sketches_expr file value
  | .block body => .scope (.block body) .nothing (sketches_statements file body) rfl
  | .cond test yes no =>
    .behind (sketches_expr file test)
      (.seq (sketches_statement file false yes) (sketches_statement file false no))
  | .ret none _ => .nothing
  | .ret (some value) span => by
    have whole := sketches_expr file value
    cases inList with
    | true => exact sketches_site file span .statements value whole
    | false => exact sketches_site file span .body value whole
  | .vars _ decls => sketches_decls file decls
  | .function f => sketches_function file f
  | .class c => sketches_class file c
  | .loop head test update body =>
    .scope (.loop head body) .nothing (.seq (sketches_statement file false head)
      (.behind (sketches_option file test)
        (.behind (sketches_option file update) (sketches_statement file false body)))) rfl
  | .each _ head source body => by
    have rest := (sketches_expr file source).behind (sketches_statement file false body)
    cases head
    case vars kind decls =>
      exact .scope (.each (.vars kind decls) body) .nothing
        (.behind (sketches_decls file decls) rest) rfl
    all_goals exact .scope (.each _ body) .nothing (.beside _ rest) rfl
  | .while test body => .behind (sketches_expr file test) (sketches_statement file false body)
  | .doWhile body test => .front (sketches_statement file false body) (sketches_expr file test)
  | .switch value cases =>
    .both (sketches_expr file value)
      (.scope (.switch cases) .nothing (sketches_cases file cases) rfl)
  | .try body param handler finalizer =>
    .both (.scope (.block body) .nothing (sketches_statements file body) rfl)
      (.beside _ (.both (.scope (.handler param) .nothing (sketches_block file handler) rfl)
        (sketches_block file finalizer)))
  | .labeled _ body => sketches_statement file false body
  | .exported decl | .exportedDefault decl => sketches_statement file true decl
  | .with _ _ | .exportedValue _ | .enum _ _ _ | .namespace _ _ => .beside _ .nothing
  | .exit | .import _ | .exportedNames _ _ | .alias _ _ | .typeOnly => .nothing

end

end TaggedMarkup.Compile

import Mathlib.Tactic.Common
import TaggedMarkup.Compile.Script

/-!
# What a walk does

A walk has few effects: it opens scopes and declares names in them, takes markers out, counts uses
of the tag, and compiles sites. The `Plan` of a piece of syntax lists them in order, and to visit
the syntax is to run its plan (`visitExpr_eq_run` and its like). What a walk does to its state can
then be shown by induction on plans, which have six forms, and not on all of syntax.

Declarations have their place at the two ends of a scope: no plan changes the scopes around it.
-/

namespace TaggedMarkup.Compile

open Code (RenderCode)
open Script
open Walk

/-- What is declared at one point: the names of patterns, where a pattern with misplaced markers is
a failure. -/
abbrev Declared := List (Except Failure (List Binding))

/-- Declares all names. -/
def declareAll : Declared → Walk Unit
  | [] => pure ()
  | names :: rest => do
    let bindings ← Walk.ofExcept names
    mapScopes (·.declareAll bindings)
    declareAll rest

/-- The form in which the code of a site is written. -/
inductive Form where
  | call
  | body
  | statements
  deriving DecidableEq, Repr

/-- The code of a site in a form. -/
def Form.print (form : Form) (code : RenderCode) (margin : String) : String :=
  match form with
  | .call => code.asCall margin
  | .body => code.asBody margin
  | .statements => code.asStatements margin

/-- A site that a walk compiles. The code takes the place of `replaced`, which is the template or
more. -/
structure Site where
  chunks : List Chunk
  holes : List Expr
  span : Span
  replaced : Span
  form : Form

/-- What a walk does.

* `scope` opens a scope. Names are declared in front of both parts.
* `remove` takes markers out of the source.
* `site` compiles a site after its holes have been visited. -/
inductive Plan where
  | done
  | seq (first second : Plan)
  | scope (params : Declared) (first : Plan) (locals : Declared) (second : Plan)
  | remove (spans : List Span)
  | useTag
  | site (site : Site) (inside : Plan)

namespace Plan

/-- A scope with declarations at its start only. -/
abbrev block (locals : Declared) (body : Plan) : Plan := .scope [] .done locals body

/-- Carries a plan out. -/
def run (file : File) : Plan → Walk Unit
  | .done => pure ()
  | .seq first second => do
    first.run file
    second.run file
  | .scope params first locals second => inScope do
    declareAll params
    first.run file
    declareAll locals
    second.run file
  | .remove spans => modify fun s =>
    { s with edits := s.edits ++ spans.map fun span => .remove span.start span.stop }
  | .useTag => Walk.useTag
  | .site here inside => do
    let mark := (← get).edits.length
    inside.run file
    let code ← compileSite file mark here.chunks here.holes here.span
    edit ⟨here.replaced.start, here.replaced.stop,
      here.form.print code (marginAt file here.replaced.start)⟩

end Plan

/-! ## Declarations -/

/-- The names of parameters. -/
def declaredItems (items : List PatternItem) : Declared :=
  (items.filterMap PatternItem.pattern?).map Pattern.bindings

/-- The names of variables. -/
def declaredVariables (decls : List Declarator) : Declared :=
  decls.map fun | .mk target _ => target.bindings

/-- A name that may be missing. -/
def declaredName (name : Option Name) : Declared :=
  (name.map fun n => .ok [⟨n.text, false⟩]).toList

/-- What a statement declares. -/
def declaredBy : Stmt → Declared
  | .vars _ decls => declaredVariables decls
  | .function (.mk name _ _) => declaredName name
  | .class (.mk _ name _ _) => declaredName name
  | .exported decl => declaredBy decl
  | _ => []

/-- What the cases of a switch declare. -/
def declaredCases (cases : List Case) : Declared :=
  cases.flatMap fun | .mk _ body => body.flatMap declaredBy

/-- The variables in the head of a loop. -/
def declaredHead : Stmt → Declared
  | .vars _ decls => declaredVariables decls
  | _ => []

/-- What the body of a function declares. -/
def declaredBody : Body → Declared
  | .block body => body.flatMap declaredBy
  | _ => []

/-- Names are declared one list behind the other. -/
lemma declareAll_append (first second : Declared) :
    declareAll (first ++ second) = (do declareAll first; declareAll second) := by
  induction first with
  | nil => simp [declareAll]
  | cons names rest ih => simp [declareAll, ih]

/-- A pattern declares its names. -/
lemma declarePattern_eq (p : Pattern) : declarePattern p = declareAll [p.bindings] := by
  simp [declarePattern, declareAll]

/-- Parameters declare what has been collected from them. -/
lemma declareItems_eq (items : List PatternItem) :
    declareItems items = declareAll (declaredItems items) := by
  induction items with
  | nil => rfl
  | cons item items ih =>
    cases item <;>
      simp [declareItems, declaredItems, List.filterMap_cons, PatternItem.pattern?,
        declarePattern_eq, declareAll, ih]

/-- Variables declare what has been collected from them. -/
lemma declareVariables_eq (decls : List Declarator) :
    declareVariables decls = declareAll (declaredVariables decls) := by
  induction decls with
  | nil => rfl
  | cons d decls ih =>
    obtain ⟨target, value⟩ := d
    simp [declareVariables, declaredVariables, declarePattern_eq, declareAll, ih]

/-- A name declares itself. -/
lemma declareName_eq (name : Option Name) : declareName name = declareAll (declaredName name) := by
  cases name with
  | none => rfl
  | some n => simp [declareName, declaredName, declareAll, Walk.ofExcept, Scopes.declareAll]

/-- A statement declares what has been collected from it. -/
lemma declareStatement_eq (s : Stmt) : declareStatement s = declareAll (declaredBy s) := by
  fun_induction declareStatement s with
  | case1 kind decls => rw [declaredBy, declareVariables_eq]
  | case2 name params body => rw [declaredBy, declareName_eq]
  | case3 decorators name parent members => rw [declaredBy, declareName_eq]
  | case4 decl ih => rw [declaredBy, ih]
  | case5 s notVars notFunction notClass notExported =>
    rw [declaredBy, declareAll] <;> assumption

/-- Statements declare what has been collected from them. -/
lemma declareStatements_eq (ss : List Stmt) :
    declareStatements ss = declareAll (ss.flatMap declaredBy) := by
  induction ss with
  | nil => rfl
  | cons s ss ih =>
    rw [declareStatements, declareStatement_eq, ih, List.flatMap_cons, declareAll_append]

/-- The cases of a switch declare what has been collected from them. -/
lemma declareCases_eq (cs : List Case) : declareCases cs = declareAll (declaredCases cs) := by
  induction cs with
  | nil => rfl
  | cons c cs ih =>
    obtain ⟨test, body⟩ := c
    rw [declareCases, declareStatements_eq, ih, declaredCases, declaredCases, List.flatMap_cons,
      declareAll_append]

/-- The head of a loop declares what has been collected from it. -/
lemma declareHead_eq (head : Stmt) : declareHead head = declareAll (declaredHead head) := by
  fun_cases declareHead head with
  | case1 kind decls => exact declareVariables_eq decls
  | case2 head notVars =>
    rw [declaredHead, declareAll]
    assumption

/-! ## Plans of syntax -/

mutual

/-- The site that an expression is, with or without parentheses. -/
def planSite (file : File) (replaced : Span) (form : Form) : Expr → Option Plan
  | .tagged tag chunks holes span =>
    if isTag file tag then some (.site ⟨chunks, holes, span, replaced, form⟩ (planExprs file holes))
    else none
  | .paren inner _ => planSite file replaced form inner
  | _ => none

/-- The plan of an expression. -/
def planExpr (file : File) : Expr → Plan
  | .tagged tag chunks holes span =>
    if isTag file tag then .site ⟨chunks, holes, span, span, .call⟩ (planExprs file holes)
    else .seq (planExpr file tag) (planExprs file holes)
  | .name id => if id.text = file.tag then .useTag else .done
  | .template _ holes _ => planExprs file holes
  | .arrow f _ => planFunction file f
  | .function f _ => planFunction file f
  | .class c _ => planClass file c
  | .array items _ => planItems file items
  | .object members _ => planMembers file members
  | .call callee args _ => .seq (planExpr file callee) (planItems file args)
  | .construct callee args _ => .seq (planExpr file callee) (planItems file args)
  | .chain links _ => if isVisitedLink links then planExpr file links else .done
  | .member object _ _ => planExpr file object
  | .index object index _ => .seq (planExpr file object) (planExpr file index)
  | .assign _ _ value _ => planExpr file value
  | .await value _ => planExpr file value
  | .yield value _ => planOption file value
  | .unary operand _ => planExpr file operand
  | .binary left right _ => .seq (planExpr file left) (planExpr file right)
  | .logical left right _ => .seq (planExpr file left) (planExpr file right)
  | .conditional test yes no _ =>
    .seq (planExpr file test) (.seq (planExpr file yes) (planExpr file no))
  | .sequence items _ => planExprs file items
  | .paren inner _ => planExpr file inner
  | .cast .as value _ => planExpr file value
  | .cast .satisfies value _ => planExpr file value
  | .cast .nonNull value _ => planExpr file value
  | .literal _ | .string _ _ | .keyword _ | .update _ _ | .secret _ _ _ | .hasSecret _ _ _
  | .load _ _ | .cast .assertion _ _ | .instantiate _ _ => .done

/-- The plan of several expressions. -/
def planExprs (file : File) : List Expr → Plan
  | [] => .done
  | e :: es => .seq (planExpr file e) (planExprs file es)

/-- The plan of an expression that may be missing. -/
def planOption (file : File) : Option Expr → Plan
  | none => .done
  | some e => planExpr file e

/-- The plan of array items or arguments. -/
def planItems (file : File) : List Item → Plan
  | [] => .done
  | item :: items => .seq (planItem file item) (planItems file items)

/-- The plan of an array item or argument. -/
def planItem (file : File) : Item → Plan
  | .hole => .done
  | .expr value => planExpr file value
  | .spread value => planExpr file value

/-- The plan of the members of an object. -/
def planMembers (file : File) : List Member → Plan
  | [] => .done
  | m :: ms => .seq (planMember file m) (planMembers file ms)

/-- The plan of a member of an object. -/
def planMember (file : File) : Member → Plan
  | .pair key value => .seq (planKey file key) (planExpr file value)
  | .method key value => .seq (planKey file key) (planExpr file value)
  | .short id => if id.text = file.tag then .useTag else .done
  | .shortDefault id _ => if id.text = file.tag then .useTag else .done
  | .spread value => planExpr file value

/-- The plan of a computed key. -/
def planKey (file : File) : Key → Plan
  | .computed value => planExpr file value
  | .fixed _ | .secret _ => .done

/-- The plan of the expressions in a pattern. -/
def planPattern (file : File) : Pattern → Plan
  | .name _ _ => .done
  | .object parts _ => planParts file parts
  | .array items _ => planPatternItems file items
  | .withDefault target value _ =>
    .seq (planPattern file target) (if value.isMarker then .done else planExpr file value)

/-- The plan of the parts of an object pattern. -/
def planParts (file : File) : List PatternPart → Plan
  | [] => .done
  | part :: parts => .seq (planPart file part) (planParts file parts)

/-- The plan of a part of an object pattern. -/
def planPart (file : File) : PatternPart → Plan
  | .prop key target => .seq (planKey file key) (planPattern file target)
  | .rest target => planPattern file target

/-- The plan of the items of an array pattern. -/
def planPatternItems (file : File) : List PatternItem → Plan
  | [] => .done
  | item :: items => .seq (planPatternItem file item) (planPatternItems file items)

/-- The plan of an item of an array pattern. -/
def planPatternItem (file : File) : PatternItem → Plan
  | .hole => .done
  | .item _ target => planPattern file target
  | .rest _ target => planPattern file target

/-- The plan of parameters. -/
def planParams (file : File) : List PatternItem → Plan
  | [] => .done
  | item :: items => .seq (planParam file item) (planParams file items)

/-- The plan of a parameter. -/
def planParam (file : File) : PatternItem → Plan
  | .hole => .done
  | .item _ target => .seq (.remove target.markers) (planPattern file target)
  | .rest _ target => .seq (.remove target.markers) (planPattern file target)

/-- The plan of a function. -/
def planFunction (file : File) : Function → Plan
  | .mk _ params body =>
    .scope (declaredItems params) (planParams file params) (declaredBody body) (planBody file body)

/-- The plan of the body of a function. -/
def planBody (file : File) : Body → Plan
  | .none => .done
  | .expr value => (planSite file value.span .body value).getD (planExpr file value)
  | .block body => planStatements file body

/-- The plan of statements in braces. -/
def planBlock (file : File) : Body → Plan
  | .none => .done
  | .expr value => planExpr file value
  | .block body => .block (body.flatMap declaredBy) (planStatements file body)

/-- The plan of a class. -/
def planClass (file : File) : Script.Class → Plan
  | .mk _ _ parent members => .seq (planOption file parent) (planClassMembers file members)

/-- The plan of the members of a class. -/
def planClassMembers (file : File) : List ClassMember → Plan
  | [] => .done
  | m :: ms => .seq (planClassMember file m) (planClassMembers file ms)

/-- The plan of a member of a class. -/
def planClassMember (file : File) : ClassMember → Plan
  | .method _ _ f => planFunction file f
  | .field _ _ value => planOption file value
  | .block body => .block (body.flatMap declaredBy) (planStatements file body)
  | .accessor _ _ _ | .signature => .done

/-- The plan of declarations. -/
def planDecls (file : File) : List Declarator → Plan
  | [] => .done
  | d :: ds => .seq (planDecl file d) (planDecls file ds)

/-- The plan of a declaration. -/
def planDecl (file : File) : Declarator → Plan
  | .mk target value =>
    .seq (.remove target.markers) (.seq (planPattern file target) (planOption file value))

/-- The plan of the cases of a switch. -/
def planCases (file : File) : List Case → Plan
  | [] => .done
  | c :: cs => .seq (planCase file c) (planCases file cs)

/-- The plan of a case of a switch. -/
def planCase (file : File) : Case → Plan
  | .mk test body => .seq (planOption file test) (planStatements file body)

/-- The plan of the statements of a list. -/
def planStatements (file : File) : List Stmt → Plan
  | [] => .done
  | s :: ss => .seq (planStatement file true s) (planStatements file ss)

/-- The plan of a statement. -/
def planStatement (file : File) (inList : Bool) : Stmt → Plan
  | .expr value _ => planExpr file value
  | .block body => .block (body.flatMap declaredBy) (planStatements file body)
  | .cond test yes no =>
    .seq (planExpr file test) (.seq (planStatement file false yes) (planStatement file false no))
  | .ret none _ => .done
  | .ret (some value) span =>
    (planSite file span (if inList then .statements else .body) value).getD (planExpr file value)
  | .vars _ decls => planDecls file decls
  | .function f => planFunction file f
  | .class c => planClass file c
  | .loop head test update body => .block (declaredHead head) (.seq (planStatement file false head)
      (.seq (planOption file test) (.seq (planOption file update) (planStatement file false body))))
  | .each _ (.vars _ decls) source body => .block (declaredVariables decls)
      (.seq (planDecls file decls) (.seq (planExpr file source) (planStatement file false body)))
  | .each _ _ source body => .block [] (.seq (planExpr file source) (planStatement file false body))
  | .while test body => .seq (planExpr file test) (planStatement file false body)
  | .doWhile body test => .seq (planStatement file false body) (planExpr file test)
  | .switch value cases =>
    .seq (planExpr file value) (.block (declaredCases cases) (planCases file cases))
  | .try body param handler finalizer =>
    .seq (.block (body.flatMap declaredBy) (planStatements file body))
      (.seq (.block (declaredItems param) (planBlock file handler)) (planBlock file finalizer))
  | .labeled _ body => planStatement file false body
  | .throw value => planExpr file value
  | .exported decl => planStatement file true decl
  | .exportedDefault decl => planStatement file true decl
  | .with _ _ | .exit | .import _ | .exportedNames _ _ | .exportedValue _ | .enum _ _ _
  | .namespace _ _ | .alias _ _ | .typeOnly => .done

end

/-! ## To visit is to run the plan

The steps of a visit are put together as those of its plan are, by the lemmas on `Plan.run` that
come first. -/

namespace Plan

variable {file : File}

/-- One step behind the other. -/
lemma run_seq {v w : Walk Unit} {p q : Plan} (first : v = p.run file) (second : w = q.run file) :
    (do v; w) = (Plan.seq p q).run file := by
  rw [first, second, run]

/-- Statements in a scope of their own. -/
lemma run_block {declare v : Walk Unit} {locals : Declared} {p : Plan}
    (declared : declare = declareAll locals) (body : v = p.run file) :
    inScope (do declare; v) = (Plan.block locals p).run file := by
  simp [run, declareAll, declared, body]

/-- A step in a scope without declarations. -/
lemma run_inScope {v : Walk Unit} {p : Plan} (body : v = p.run file) :
    inScope v = (Plan.block [] p).run file := by
  simp [run, declareAll, body]

/-- A function, whose body comes with its declarations. -/
lemma run_scope {declare v w : Walk Unit} {params locals : Declared} {p q : Plan}
    (declared : declare = declareAll params) (first : v = p.run file)
    (second : w = (do declareAll locals; q.run file)) :
    inScope (do declare; v; w) = (Plan.scope params p locals q).run file := by
  rw [declared, first, second, run]

/-- One of two steps. -/
lemma run_ite (c : Prop) [Decidable c] {v w : Walk Unit} {p q : Plan} (yes : v = p.run file)
    (no : w = q.run file) : (if c then v else w) = (if c then p else q).run file := by
  split
  · exact yes
  · exact no

/-- A step that there may be, or another. -/
lemma run_getD (o : Option Plan) {v : Walk Unit} {p : Plan} (other : v = p.run file) :
    (o.map (run file)).getD v = (o.getD p).run file := by
  cases o with
  | none => exact other
  | some q => rfl

/-- A template is compiled after its holes have been visited, and gets its code. -/
lemma run_site {visit : Walk Unit} {inside : Plan} (here : Site) (holes : visit = inside.run file) :
    (do
      let mark := (← get).edits.length
      visit
      let code ← compileSite file mark here.chunks here.holes here.span
      edit ⟨here.replaced.start, here.replaced.stop,
        here.form.print code (marginAt file here.replaced.start)⟩) =
      (Plan.site here inside).run file := by
  rw [run, holes]

/-- A template gets its code if its tag is that of the file, and otherwise something else is
done. -/
lemma run_siteCode (c : Prop) [Decidable c] {visit : Walk Unit} {inside : Plan} (here : Site)
    (holes : visit = inside.run file) (other : Walk Unit) :
    ((if c then do
        let mark := (← get).edits.length
        visit
        return some (← compileSite file mark here.chunks here.holes here.span)
      else return none : Walk (Option RenderCode)) >>= fun
      | some code => edit ⟨here.replaced.start, here.replaced.stop,
          here.form.print code (marginAt file here.replaced.start)⟩
      | none => other) =
      ((if c then some (Plan.site here inside) else none).map (run file)).getD other := by
  split
  · simp [run, holes]
  · simp

end Plan

open Plan

mutual

/-- A site is compiled and gets its code, and otherwise something else is done. -/
lemma siteCode_eq_run (file : File) (replaced : Span) (form : Form) (other : Walk Unit) :
    ∀ e : Expr, (do
      match ← siteCode file e with
      | some code => edit ⟨replaced.start, replaced.stop,
          form.print code (marginAt file replaced.start)⟩
      | none => other) = ((planSite file replaced form e).map (Plan.run file)).getD other
  | .tagged _ chunks holes span =>
    run_siteCode _ ⟨chunks, holes, span, replaced, form⟩ (visitExprs_eq_run file holes) other
  | .paren inner _ => siteCode_eq_run file replaced form other inner
  | .name _ | .literal _ | .string _ _ | .keyword _ | .template _ _ _ | .array _ _ | .object _ _
  | .function _ _ | .arrow _ _ | .class _ _ | .unary _ _ | .update _ _ | .binary _ _ _
  | .logical _ _ _ | .conditional _ _ _ _ | .assign _ _ _ _ | .sequence _ _ | .call _ _ _
  | .construct _ _ _ | .member _ _ _ | .index _ _ _ | .secret _ _ _ | .hasSecret _ _ _ | .chain _ _
  | .await _ _ | .yield _ _ | .load _ _ | .cast _ _ _ | .instantiate _ _ => rfl

/-- To visit an expression is to run its plan. -/
lemma visitExpr_eq_run (file : File) : ∀ e : Expr, visitExpr file e = (planExpr file e).run file
  | .tagged tag chunks holes span =>
    run_ite _ (run_site ⟨chunks, holes, span, span, .call⟩ (visitExprs_eq_run file holes))
      (run_seq (visitExpr_eq_run file tag) (visitExprs_eq_run file holes))
  | .name _ => run_ite _ rfl rfl
  | .template _ holes _ => visitExprs_eq_run file holes
  | .arrow f _ | .function f _ => visitFunction_eq_run file f
  | .class c _ => visitClass_eq_run file c
  | .array items _ => visitItems_eq_run file items
  | .object members _ => visitMembers_eq_run file members
  | .call callee args _ | .construct callee args _ =>
    run_seq (visitExpr_eq_run file callee) (visitItems_eq_run file args)
  | .chain links _ => run_ite _ (visitExpr_eq_run file links) rfl
  | .member object _ _ => visitExpr_eq_run file object
  | .index object index _ => run_seq (visitExpr_eq_run file object) (visitExpr_eq_run file index)
  | .assign _ _ value _ | .await value _ | .unary value _ | .paren value _ | .cast .as value _
  | .cast .satisfies value _ | .cast .nonNull value _ => visitExpr_eq_run file value
  | .yield value _ => visitOption_eq_run file value
  | .binary left right _ | .logical left right _ =>
    run_seq (visitExpr_eq_run file left) (visitExpr_eq_run file right)
  | .conditional test yes no _ =>
    run_seq (visitExpr_eq_run file test)
      (run_seq (visitExpr_eq_run file yes) (visitExpr_eq_run file no))
  | .sequence items _ => visitExprs_eq_run file items
  | .literal _ | .string _ _ | .keyword _ | .update _ _ | .secret _ _ _ | .hasSecret _ _ _
  | .load _ _ | .cast .assertion _ _ | .instantiate _ _ => rfl

/-- To visit expressions is to run their plan. -/
lemma visitExprs_eq_run (file : File) :
    ∀ es : List Expr, visitExprs file es = (planExprs file es).run file
  | [] => rfl
  | e :: es => run_seq (visitExpr_eq_run file e) (visitExprs_eq_run file es)

/-- To visit an expression that may be missing is to run its plan. -/
lemma visitOption_eq_run (file : File) :
    ∀ e : Option Expr, visitOption file e = (planOption file e).run file
  | none => rfl
  | some e => visitExpr_eq_run file e

/-- To visit the items of an array is to run their plan. -/
lemma visitItems_eq_run (file : File) :
    ∀ items : List Item, visitItems file items = (planItems file items).run file
  | [] => rfl
  | item :: items => run_seq (visitItem_eq_run file item) (visitItems_eq_run file items)

/-- To visit an item of an array is to run its plan. -/
lemma visitItem_eq_run (file : File) :
    ∀ item : Item, visitItem file item = (planItem file item).run file
  | .hole => rfl
  | .expr value | .spread value => visitExpr_eq_run file value

/-- To visit the members of an object is to run their plan. -/
lemma visitMembers_eq_run (file : File) :
    ∀ ms : List Member, visitMembers file ms = (planMembers file ms).run file
  | [] => rfl
  | m :: ms => run_seq (visitMember_eq_run file m) (visitMembers_eq_run file ms)

/-- To visit a member of an object is to run its plan. -/
lemma visitMember_eq_run (file : File) :
    ∀ m : Member, visitMember file m = (planMember file m).run file
  | .pair key value | .method key value =>
    run_seq (visitKey_eq_run file key) (visitExpr_eq_run file value)
  | .short _ | .shortDefault _ _ => run_ite _ rfl rfl
  | .spread value => visitExpr_eq_run file value

/-- To visit a key is to run its plan. -/
lemma visitKey_eq_run (file : File) : ∀ key : Key, visitKey file key = (planKey file key).run file
  | .computed value => visitExpr_eq_run file value
  | .fixed _ | .secret _ => rfl

/-- To visit the expressions in a pattern is to run its plan. -/
lemma visitPattern_eq_run (file : File) :
    ∀ p : Pattern, visitPattern file p = (planPattern file p).run file
  | .name _ _ => rfl
  | .object parts _ => visitParts_eq_run file parts
  | .array items _ => visitPatternItems_eq_run file items
  | .withDefault target value _ =>
    run_seq (visitPattern_eq_run file target) (run_ite _ rfl (visitExpr_eq_run file value))

/-- To visit the parts of an object pattern is to run their plan. -/
lemma visitParts_eq_run (file : File) :
    ∀ parts : List PatternPart, visitParts file parts = (planParts file parts).run file
  | [] => rfl
  | part :: parts => run_seq (visitPart_eq_run file part) (visitParts_eq_run file parts)

/-- To visit a part of an object pattern is to run its plan. -/
lemma visitPart_eq_run (file : File) :
    ∀ part : PatternPart, visitPart file part = (planPart file part).run file
  | .prop key target => run_seq (visitKey_eq_run file key) (visitPattern_eq_run file target)
  | .rest target => visitPattern_eq_run file target

/-- To visit the items of an array pattern is to run their plan. -/
lemma visitPatternItems_eq_run (file : File) :
    ∀ items : List PatternItem,
      visitPatternItems file items = (planPatternItems file items).run file
  | [] => rfl
  | item :: items =>
    run_seq (visitPatternItem_eq_run file item) (visitPatternItems_eq_run file items)

/-- To visit an item of an array pattern is to run its plan. -/
lemma visitPatternItem_eq_run (file : File) :
    ∀ item : PatternItem, visitPatternItem file item = (planPatternItem file item).run file
  | .hole => rfl
  | .item _ target | .rest _ target => visitPattern_eq_run file target

/-- To visit parameters is to run their plan. -/
lemma visitParams_eq_run (file : File) :
    ∀ items : List PatternItem, visitParams file items = (planParams file items).run file
  | [] => rfl
  | item :: items => run_seq (visitParam_eq_run file item) (visitParams_eq_run file items)

/-- To visit a parameter is to run its plan. -/
lemma visitParam_eq_run (file : File) :
    ∀ item : PatternItem, visitParam file item = (planParam file item).run file
  | .hole => rfl
  | .item _ target | .rest _ target =>
    run_seq (p := .remove target.markers) rfl (visitPattern_eq_run file target)

/-- To visit a function is to run its plan. -/
lemma visitFunction_eq_run (file : File) :
    ∀ f : Function, visitFunction file f = (planFunction file f).run file
  | .mk _ params body =>
    run_scope (declareItems_eq params) (visitParams_eq_run file params) (visitBody_eq_run file body)

/-- To visit the body of a function is to declare its names and run its plan. -/
lemma visitBody_eq_run (file : File) :
    ∀ body : Body, visitBody file body =
      (do declareAll (declaredBody body); (planBody file body).run file)
  | .none => (pure_bind () fun _ => Plan.done.run file).symm
  | .expr value =>
    ((siteCode_eq_run file value.span .body (visitExpr file value) value).trans
      (run_getD _ (visitExpr_eq_run file value))).trans
      (pure_bind () fun _ => (planBody file (.expr value)).run file).symm
  | .block body =>
    congrArg₂ (fun declare visit : Walk Unit => do declare; visit) (declareStatements_eq body)
      (visitStatements_eq_run file body)

/-- To visit a block is to run its plan. -/
lemma visitBlock_eq_run (file : File) :
    ∀ body : Body, visitBlock file body = (planBlock file body).run file
  | .none => rfl
  | .expr value => visitExpr_eq_run file value
  | .block body => run_block (declareStatements_eq body) (visitStatements_eq_run file body)

/-- To visit a class is to run its plan. -/
lemma visitClass_eq_run (file : File) :
    ∀ c : Script.Class, visitClass file c = (planClass file c).run file
  | .mk _ _ parent members =>
    run_seq (visitOption_eq_run file parent) (visitClassMembers_eq_run file members)

/-- To visit the members of a class is to run their plan. -/
lemma visitClassMembers_eq_run (file : File) :
    ∀ ms : List ClassMember, visitClassMembers file ms = (planClassMembers file ms).run file
  | [] => rfl
  | m :: ms => run_seq (visitClassMember_eq_run file m) (visitClassMembers_eq_run file ms)

/-- To visit a member of a class is to run its plan. -/
lemma visitClassMember_eq_run (file : File) :
    ∀ m : ClassMember, visitClassMember file m = (planClassMember file m).run file
  | .method _ _ f => visitFunction_eq_run file f
  | .field _ _ value => visitOption_eq_run file value
  | .block body => run_block (declareStatements_eq body) (visitStatements_eq_run file body)
  | .accessor _ _ _ | .signature => rfl

/-- To visit declarations is to run their plan. -/
lemma visitDecls_eq_run (file : File) :
    ∀ ds : List Declarator, visitDecls file ds = (planDecls file ds).run file
  | [] => rfl
  | d :: ds => run_seq (visitDecl_eq_run file d) (visitDecls_eq_run file ds)

/-- To visit a declaration is to run its plan. -/
lemma visitDecl_eq_run (file : File) :
    ∀ d : Declarator, visitDecl file d = (planDecl file d).run file
  | .mk target value =>
    run_seq (p := .remove target.markers) rfl
      (run_seq (visitPattern_eq_run file target) (visitOption_eq_run file value))

/-- To visit the cases of a switch is to run their plan. -/
lemma visitCases_eq_run (file : File) :
    ∀ cs : List Case, visitCases file cs = (planCases file cs).run file
  | [] => rfl
  | c :: cs => run_seq (visitCase_eq_run file c) (visitCases_eq_run file cs)

/-- To visit a case of a switch is to run its plan. -/
lemma visitCase_eq_run (file : File) : ∀ c : Case, visitCase file c = (planCase file c).run file
  | .mk test body => run_seq (visitOption_eq_run file test) (visitStatements_eq_run file body)

/-- To visit statements is to run their plan. -/
lemma visitStatements_eq_run (file : File) :
    ∀ ss : List Stmt, visitStatements file ss = (planStatements file ss).run file
  | [] => rfl
  | s :: ss => run_seq (visitStatement_eq_run file true s) (visitStatements_eq_run file ss)

/-- To visit a statement is to run its plan. -/
lemma visitStatement_eq_run (file : File) (inList : Bool) :
    ∀ s : Stmt, visitStatement file inList s = (planStatement file inList s).run file
  | .expr value _ | .throw value => visitExpr_eq_run file value
  | .block body => run_block (declareStatements_eq body) (visitStatements_eq_run file body)
  | .cond test yes no =>
    run_seq (visitExpr_eq_run file test)
      (run_seq (visitStatement_eq_run file false yes) (visitStatement_eq_run file false no))
  | .ret none _ => rfl
  | .ret (some value) span => by
    have site (form : Form) := (siteCode_eq_run file span form (visitExpr file value) value).trans
      (run_getD _ (visitExpr_eq_run file value))
    cases inList with
    | true => exact site .statements
    | false => exact site .body
  | .vars _ decls => visitDecls_eq_run file decls
  | .function f => visitFunction_eq_run file f
  | .class c => visitClass_eq_run file c
  | .loop head test update body =>
    run_block (declareHead_eq head) (run_seq (visitStatement_eq_run file false head)
      (run_seq (visitOption_eq_run file test)
        (run_seq (visitOption_eq_run file update) (visitStatement_eq_run file false body))))
  | .each _ head source body => by
    have rest := run_seq (visitExpr_eq_run file source) (visitStatement_eq_run file false body)
    cases head
    case vars kind decls =>
      exact run_block (declareVariables_eq decls) (run_seq (visitDecls_eq_run file decls) rest)
    all_goals exact run_inScope rest
  | .while test body =>
    run_seq (visitExpr_eq_run file test) (visitStatement_eq_run file false body)
  | .doWhile body test =>
    run_seq (visitStatement_eq_run file false body) (visitExpr_eq_run file test)
  | .switch value cases =>
    run_seq (visitExpr_eq_run file value)
      (run_block (declareCases_eq cases) (visitCases_eq_run file cases))
  | .try body param handler finalizer =>
    run_seq (run_block (declareStatements_eq body) (visitStatements_eq_run file body))
      (run_seq (run_block (declareItems_eq param) (visitBlock_eq_run file handler))
        (visitBlock_eq_run file finalizer))
  | .labeled _ body => visitStatement_eq_run file false body
  | .exported decl | .exportedDefault decl => visitStatement_eq_run file true decl
  | .with _ _ | .exit | .import _ | .exportedNames _ _ | .exportedValue _ | .enum _ _ _
  | .namespace _ _ | .alias _ _ | .typeOnly => rfl

end

/-- The file of a script. -/
def scriptFile (runtime : Runtime) (name : String) (source : List Char) (script : List Stmt) :
    File :=
  { source := source, name := name, tag := (Imports.ofScript runtime source script).tag }

/-- To visit a script is to declare its names and run its plan. -/
lemma visitScript_eq_run (file : File) (script : List Stmt) :
    visitScript file script =
      (do declareAll (script.flatMap declaredBy); (planStatements file script).run file) := by
  rw [visitScript, declareStatements_eq, visitStatements_eq_run]

end TaggedMarkup.Compile

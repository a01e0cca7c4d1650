import TaggedMarkup.Compile.Site

/-!
# The walk over a script

The walk keeps track of scopes, takes markers out of patterns, and puts code in place of every
site it comes to. A site that is returned, or that is the body of an arrow function, becomes
statements; any other becomes an expression.

The walk does not look everywhere: places to assign to, updates, private members, computed keys of
classes and the like are passed over.
-/

namespace TaggedMarkup.Compile

open Code (RenderCode)
open Script
open Walk

/-- Whether the last link of an optional chain is visited. -/
def isVisitedLink : Expr → Bool
  | .call .. | .member .. | .index .. => true
  | _ => false

/-- Declares a name that may be missing. -/
def declareName : Option Name → Walk Unit
  | none => pure ()
  | some name => mapScopes (·.declare ⟨name.text, false⟩)

/-- Declares the names of variables. -/
def declareVariables : List Declarator → Walk Unit
  | [] => pure ()
  | .mk target _ :: decls => do
    declarePattern target
    declareVariables decls

/-- Declares what a statement declares. -/
def declareStatement : Stmt → Walk Unit
  | .vars _ decls => declareVariables decls
  | .function (.mk name _ _) => declareName name
  | .class (.mk _ name _ _) => declareName name
  | .exported decl => declareStatement decl
  | _ => pure ()

/-- Declares what the statements of a list declare, before any of them is visited. -/
def declareStatements : List Stmt → Walk Unit
  | [] => pure ()
  | s :: ss => do
    declareStatement s
    declareStatements ss

/-- Declares what the cases of a switch declare. -/
def declareCases : List Case → Walk Unit
  | [] => pure ()
  | .mk _ body :: cases => do
    declareStatements body
    declareCases cases

/-- Declares the variables in the head of a loop. -/
def declareHead : Stmt → Walk Unit
  | .vars _ decls => declareVariables decls
  | _ => pure ()

/-- The indent of the line of an offset. -/
def marginAt (file : File) (offset : Nat) : String := Source.lineIndent file.source offset

mutual

/-- Compiles the site that an expression is, with or without parentheses. -/
def siteCode (file : File) : Expr → Walk (Option RenderCode)
  | .tagged tag chunks holes span =>
    if isTag file tag then do
      let mark := (← get).edits.length
      visitExprs file holes
      return some (← compileSite file mark chunks holes span)
    else return none
  | .paren inner _ => siteCode file inner
  | _ => return none

/-- Visits an expression. -/
def visitExpr (file : File) : Expr → Walk Unit
  | .tagged tag chunks holes span =>
    if isTag file tag then do
      let mark := (← get).edits.length
      visitExprs file holes
      let code ← compileSite file mark chunks holes span
      edit ⟨span.start, span.stop, code.asCall (marginAt file span.start)⟩
    else do
      visitExpr file tag
      visitExprs file holes
  | .name id => if id.text = file.tag then useTag else pure ()
  | .template _ holes _ => visitExprs file holes
  | .arrow f _ => visitFunction file f
  | .function f _ => visitFunction file f
  | .class c _ => visitClass file c
  | .array items _ => visitItems file items
  | .object members _ => visitMembers file members
  | .call callee args _ => do
    visitExpr file callee
    visitItems file args
  | .construct callee args _ => do
    visitExpr file callee
    visitItems file args
  | .chain links _ => if isVisitedLink links then visitExpr file links else pure ()
  | .member object _ _ => visitExpr file object
  | .index object index _ => do
    visitExpr file object
    visitExpr file index
  | .assign _ _ value _ => visitExpr file value
  | .await value _ => visitExpr file value
  | .yield value _ => visitOption file value
  | .unary operand _ => visitExpr file operand
  | .binary left right _ => do
    visitExpr file left
    visitExpr file right
  | .logical left right _ => do
    visitExpr file left
    visitExpr file right
  | .conditional test yes no _ => do
    visitExpr file test
    visitExpr file yes
    visitExpr file no
  | .sequence items _ => visitExprs file items
  | .paren inner _ => visitExpr file inner
  | .cast .as value _ => visitExpr file value
  | .cast .satisfies value _ => visitExpr file value
  | .cast .nonNull value _ => visitExpr file value
  | .literal _ | .string _ _ | .keyword _ | .update _ _ | .secret _ _ _ | .hasSecret _ _ _
  | .load _ _ | .cast .assertion _ _ | .instantiate _ _ => pure ()

/-- Visits several expressions. -/
def visitExprs (file : File) : List Expr → Walk Unit
  | [] => pure ()
  | e :: es => do
    visitExpr file e
    visitExprs file es

/-- Visits an expression that may be missing. -/
def visitOption (file : File) : Option Expr → Walk Unit
  | none => pure ()
  | some e => visitExpr file e

/-- Visits array items or arguments. -/
def visitItems (file : File) : List Item → Walk Unit
  | [] => pure ()
  | item :: items => do
    visitItem file item
    visitItems file items

/-- Visits an array item or argument. -/
def visitItem (file : File) : Item → Walk Unit
  | .hole => pure ()
  | .expr value => visitExpr file value
  | .spread value => visitExpr file value

/-- Visits the members of an object. -/
def visitMembers (file : File) : List Member → Walk Unit
  | [] => pure ()
  | m :: ms => do
    visitMember file m
    visitMembers file ms

/-- Visits a member of an object. -/
def visitMember (file : File) : Member → Walk Unit
  | .pair key value => do
    visitKey file key
    visitExpr file value
  | .method key value => do
    visitKey file key
    visitExpr file value
  | .short id => if id.text = file.tag then useTag else pure ()
  | .shortDefault id _ => if id.text = file.tag then useTag else pure ()
  | .spread value => visitExpr file value

/-- Visits a computed key. -/
def visitKey (file : File) : Key → Walk Unit
  | .computed value => visitExpr file value
  | .fixed _ | .secret _ => pure ()

/-- Visits the expressions in a pattern. -/
def visitPattern (file : File) : Pattern → Walk Unit
  | .name _ _ => pure ()
  | .object parts _ => visitParts file parts
  | .array items _ => visitPatternItems file items
  | .withDefault target value _ => do
    visitPattern file target
    if value.isMarker then pure () else visitExpr file value

/-- Visits the expressions in the parts of an object pattern. -/
def visitParts (file : File) : List PatternPart → Walk Unit
  | [] => pure ()
  | part :: parts => do
    visitPart file part
    visitParts file parts

/-- Visits the expressions in a part of an object pattern. -/
def visitPart (file : File) : PatternPart → Walk Unit
  | .prop key target => do
    visitKey file key
    visitPattern file target
  | .rest target => visitPattern file target

/-- Visits the expressions in the items of an array pattern. -/
def visitPatternItems (file : File) : List PatternItem → Walk Unit
  | [] => pure ()
  | item :: items => do
    visitPatternItem file item
    visitPatternItems file items

/-- Visits the expressions in an item of an array pattern. -/
def visitPatternItem (file : File) : PatternItem → Walk Unit
  | .hole => pure ()
  | .item _ target => visitPattern file target
  | .rest _ target => visitPattern file target

/-- Visits parameters, which are declared already. -/
def visitParams (file : File) : List PatternItem → Walk Unit
  | [] => pure ()
  | item :: items => do
    visitParam file item
    visitParams file items

/-- Visits a parameter, but not its decorators. -/
def visitParam (file : File) : PatternItem → Walk Unit
  | .hole => pure ()
  | .item _ target => do
    removeMarkers target
    visitPattern file target
  | .rest _ target => do
    removeMarkers target
    visitPattern file target

/-- Visits a function in a scope of its own. -/
def visitFunction (file : File) : Function → Walk Unit
  | .mk _ params body => inScope do
    declareItems params
    visitParams file params
    visitBody file body

/-- Visits the body of a function. A site that is the whole body becomes a block. -/
def visitBody (file : File) : Body → Walk Unit
  | .none => pure ()
  | .expr value => do
    match ← siteCode file value with
    | some code =>
      let span := value.span
      edit ⟨span.start, span.stop, code.asBody (marginAt file span.start)⟩
    | none => visitExpr file value
  | .block body => do
    declareStatements body
    visitStatements file body

/-- Visits statements in a scope of their own, if there are any braces around them. -/
def visitBlock (file : File) : Body → Walk Unit
  | .none => pure ()
  | .expr value => visitExpr file value
  | .block body => inScope do
    declareStatements body
    visitStatements file body

/-- Visits a class. -/
def visitClass (file : File) : Script.Class → Walk Unit
  | .mk _ _ parent members => do
    visitOption file parent
    visitClassMembers file members

/-- Visits the members of a class. -/
def visitClassMembers (file : File) : List ClassMember → Walk Unit
  | [] => pure ()
  | m :: ms => do
    visitClassMember file m
    visitClassMembers file ms

/-- Visits a member of a class. -/
def visitClassMember (file : File) : ClassMember → Walk Unit
  | .method _ _ f => visitFunction file f
  | .field _ _ value => visitOption file value
  | .block body => inScope do
    declareStatements body
    visitStatements file body
  | .accessor _ _ _ | .signature => pure ()

/-- Visits declarations, which are declared already. -/
def visitDecls (file : File) : List Declarator → Walk Unit
  | [] => pure ()
  | d :: ds => do
    visitDecl file d
    visitDecls file ds

/-- Visits a declaration. -/
def visitDecl (file : File) : Declarator → Walk Unit
  | .mk target value => do
    removeMarkers target
    visitPattern file target
    visitOption file value

/-- Visits the cases of a switch. -/
def visitCases (file : File) : List Case → Walk Unit
  | [] => pure ()
  | c :: cs => do
    visitCase file c
    visitCases file cs

/-- Visits a case of a switch. -/
def visitCase (file : File) : Case → Walk Unit
  | .mk test body => do
    visitOption file test
    visitStatements file body

/-- Visits the statements of a list. -/
def visitStatements (file : File) : List Stmt → Walk Unit
  | [] => pure ()
  | s :: ss => do
    visitStatement file true s
    visitStatements file ss

/-- Visits a statement. One that does not stand in a list needs braces around its code. -/
def visitStatement (file : File) (inList : Bool) : Stmt → Walk Unit
  | .expr value _ => visitExpr file value
  | .block body => inScope do
    declareStatements body
    visitStatements file body
  | .cond test yes no => do
    visitExpr file test
    visitStatement file false yes
    visitStatement file false no
  | .ret none _ => pure ()
  | .ret (some value) span => do
    match ← siteCode file value with
    | some code =>
      let margin := marginAt file span.start
      let text := if inList then code.asStatements margin else code.asBody margin
      edit ⟨span.start, span.stop, text⟩
    | none => visitExpr file value
  | .vars _ decls => visitDecls file decls
  | .function f => visitFunction file f
  | .class c => visitClass file c
  | .loop head test update body => inScope do
    declareHead head
    visitStatement file false head
    visitOption file test
    visitOption file update
    visitStatement file false body
  | .each _ (.vars kind decls) source body => inScope do
    declareVariables decls
    visitStatement file false (.vars kind decls)
    visitExpr file source
    visitStatement file false body
  | .each _ _ source body => inScope do
    visitExpr file source
    visitStatement file false body
  | .while test body => do
    visitExpr file test
    visitStatement file false body
  | .doWhile body test => do
    visitStatement file false body
    visitExpr file test
  | .switch value cases => do
    visitExpr file value
    inScope do
      declareCases cases
      visitCases file cases
  | .try body param handler finalizer => do
    inScope do
      declareStatements body
      visitStatements file body
    inScope do
      declareItems param
      visitBlock file handler
    visitBlock file finalizer
  | .labeled _ body => visitStatement file false body
  | .throw value => visitExpr file value
  | .exported decl => visitStatement file true decl
  | .exportedDefault decl => visitStatement file true decl
  | .with _ _ | .exit | .import _ | .exportedNames _ _ | .exportedValue _ | .enum _ _ _
  | .namespace _ _ | .alias _ _ | .typeOnly => pure ()

end

end TaggedMarkup.Compile

import TaggedMarkup.Script.Grammar.Declaration

/-!
# The grammar of host scripts: statements

A statement that is the body of another one is neither a class nor a declaration of block
variables, and a function there is neither async nor a generator.
-/

namespace TaggedMarkup.Script

open Parse

/-! ## Loops -/

/-- An expression in parentheses. -/
def parenthesized (g : Grammar) (cx : Context) : Parse Expr := do
  expect "("
  let e ← expression g cx
  expect ")"
  return e

/-- What follows the head of a loop over the members of a value. A waiting loop is one over the
values. -/
def eachRest (g : Grammar) (cx : Context) (waits : Bool) (head : Stmt) : Parse Stmt := do
  let kind : EachKind := if ← isWord "of" then .values else .keys
  require !(waits && kind == .keys)
  advance
  let source ← match kind with
    | .values => g.assignment cx
    | .keys => expression g cx
  expect ")"
  return .each kind head source (← g.body cx)

/-- What follows the head of a counting loop. -/
def loopRest (g : Grammar) (cx : Context) (waits : Bool) (head : Stmt) : Parse Stmt := do
  require !waits
  expect ";"
  let test ← if ← isAnySign [";", ")"] then pure none else some <$> expression g cx.inner
  expect ";"
  let update ← if ← isSign ")" then pure none else some <$> expression g cx.inner
  expect ")"
  return .loop head test update (← g.body cx)

/-- Whether all variables in the head of a counting loop have the values that they need there:
patterns and constants do. -/
def haveValues (kind : VarKind) : List Declarator → Bool
  | [] => true
  | .mk target value :: ds =>
    (value.isSome || (target.isName && kind != .const)) && haveValues kind ds

/-- The kind of the variables that the head of a loop declares, of which the keywords are read. -/
def headKind? (cx : Context) : Parse (Option VarKind) := do
  if ← eatWord "var" then return some .var
  if ← eatWord "const" then return some .const
  if ← isWord "let" then
    let follows ← nextIs (return (← isAnySign ["[", "\x7b"]) || ((← atWord) && !(← isWord "in")))
    if !follows then return none
    advance
    return some .let
  if (← isWord "using") && (← nextIs (isWord "of")) then return none
  if ← eatUsing cx then return some .using
  return none

/-- A loop whose head declares variables. -/
def declaringLoop (g : Grammar) (cx : Context) (waits : Bool) (kind : VarKind) : Parse Stmt := do
  let decls ← declarators g { cx with allowIn := false } kind false
  let head : Stmt := .vars kind decls
  if ← isAnyWord ["of", "in"] then
    require !(kind == .using && (← isWord "in"))
    return ← eachRest g cx waits head
  require (cx.ambient || haveValues kind decls)
  loopRest g cx waits head

/-- A loop whose head is an expression. -/
def expressionLoop (g : Grammar) (cx : Context) (waits : Bool) : Parse Stmt := do
  let isAsyncOf := (← isWord "async") && (← nextIs (isWord "of"))
  let e ← expression g { cx with allowIn := false }
  let head : Stmt := .expr e e.span
  if ← isAnyWord ["of", "in"] then
    require !(isAsyncOf && !waits && (← isWord "of"))
    takeTarget e
    return ← eachRest g cx waits head
  loopRest g cx waits head

/-- A loop that starts with `for`. -/
def forStatement (g : Grammar) (cx : Context) : Parse Stmt := do
  expectWord "for"
  let waits ← eatWord "await"
  require (!waits || cx.await)
  expect "("
  if ← isSign ";" then return ← loopRest g cx waits .exit
  match ← headKind? cx with
  | some kind => declaringLoop g cx waits kind
  | none => expressionLoop g cx waits

/-! ## Branches -/

/-- A conditional statement. -/
def ifStatement (g : Grammar) (cx : Context) : Parse Stmt := do
  expectWord "if"
  let test ← parenthesized g cx
  let yes ← g.body cx
  let no ← if ← eatWord "else" then g.body cx else pure .exit
  return .cond test yes no

/-- A branch of a `switch`. -/
def switchCase (g : Grammar) (cx : Context) : Parse Case := do
  let test ← if ← eatWord "default" then pure none
    else do
      expectWord "case"
      some <$> expression g cx
  expect ":"
  let body ← iterate ([] : List Stmt) fun stmts => do
    if (← isAnyWord ["case", "default"]) || (← isSign "\x7d") then return .done stmts.reverse
    return .more ((← g.statement cx) :: stmts)
  return .mk test body

/-- A choice between branches. -/
def switchStatement (g : Grammar) (cx : Context) : Parse Stmt := do
  expectWord "switch"
  let value ← parenthesized g cx
  expect "\x7b"
  let cases ← iterate ([] : List Case) fun cases => do
    if ← eat "\x7d" then return .done cases.reverse
    return .more ((← switchCase g cx) :: cases)
  return .switch value cases

/-- The parameter of a handler. -/
def handlerParameter (g : Grammar) (cx : Context) : Parse (List PatternItem) := do
  if ← eat "(" then
    let p ← annotated g cx false
    expect ")"
    return [.item [] p]
  return []

/-- Statements whose failures are handled. -/
def tryStatement (g : Grammar) (cx : Context) : Parse Stmt := do
  expectWord "try"
  let body ← blockOf g cx
  let mut param : List PatternItem := []
  let mut handler : Body := .none
  let mut finalizer : Body := .none
  let handles ← eatWord "catch"
  if handles then
    param ← handlerParameter g cx
    handler := .block (← blockOf g cx)
  let finishes ← eatWord "finally"
  if finishes then
    finalizer := .block (← blockOf g cx)
  require (handles || finishes)
  return .try body param handler finalizer

/-! ## Leaving -/

/-- Whether a statement may end here without a semicolon. -/
def atStatementEnd : Parse Bool :=
  return (← onNewline) || (← isAnySign [";", "\x7d"]) || (← token) == .finish

/-- A `return` with its value. -/
def returnStatement (g : Grammar) (cx : Context) : Parse Stmt := do
  require cx.inFunction
  let start ← here
  expectWord "return"
  let value ← if ← atStatementEnd then pure none else some <$> expression g cx.inner
  endStatement
  return .ret value (← spanFrom start)

/-- A `throw` with its value, which starts on the same line. -/
def throwStatement (g : Grammar) (cx : Context) : Parse Stmt := do
  expectWord "throw"
  require !(← onNewline)
  let value ← expression g cx
  endStatement
  return .throw value

/-- A `break` or `continue` with the label that may follow. -/
def jumpStatement (cx : Context) : Parse Stmt := do
  advance
  if !(← atStatementEnd) then
    let _ ← ident cx
  endStatement
  return .exit

/-! ## All statements -/

/-- An expression as a statement, or a label with its statement. -/
def expressionStatement (g : Grammar) (cx : Context) : Parse Stmt := do
  if (← atIdent cx) && (← nextIs (isSign ":")) then
    let label ← ident cx
    advance
    return .labeled label (← g.body cx)
  let start ← here
  let e ← expression g cx
  endStatement
  return .expr e (← spanFrom start)

/-- What `let` is in front of a token. -/
inductive LetForm where
  /-- A name that accesses or calls follow. -/
  | base
  /-- A name that an operator follows. -/
  | operand
  /-- A name on its own. -/
  | name
  | keyword
  deriving DecidableEq, Repr

/-- What `let` is in front of the current token. In the body of another statement it is a keyword
only in front of a bracket. -/
def letForm (alone : Bool) : Parse LetForm := do
  match ← token with
  | .sign s =>
    let isOperator := (Operator.ofSign? s).any fun op => !op.isLogical
    if isOperator || assigningSigns.contains s then return .operand
    if [".", "("].contains s then return .base
    if s == ";" || (alone && s != "[") then return .name
    return .keyword
  | .word w _ =>
    if ["in", "instanceof"].contains w then return .operand
    return if alone then .name else .keyword
  | _ => return if alone then .name else .keyword

/-- A statement that starts with `let`. -/
def letStatement (g : Grammar) (cx : Context) (alone : Bool) : Parse Stmt := do
  let start ← here
  let asStatement (e : Expr) : Parse Stmt := do
    endStatement
    return .expr e (← spanFrom start)
  match (← ahead (advance *> letForm alone)).getD .keyword with
  | .base => asStatement (← expression g cx)
  | .operand => asStatement (← g.assignment cx)
  | .name => asStatement (.name (← anyWord))
  | .keyword =>
    require !alone
    advance
    variableStatement g cx .let

/-- A function declaration as a statement. -/
def functionStatement (g : Grammar) (cx : Context) (alone : Bool) : Parse Stmt := do
  let isAsync ← isWord "async"
  let isGenerator ← nextIs (isSign "*")
  require !(alone && (isAsync || isGenerator))
  functionDeclaration g cx [] true

/-- A statement that starts with decorators. -/
def decoratedStatement (g : Grammar) (cx : Context) (alone : Bool) : Parse Stmt := do
  let decs ← decorators g cx
  if ← isWord "export" then return ← exportDeclaration g cx decs
  require !alone
  let found ← declarationModifiers cx
  classDeclaration g cx found decs

/-- A statement that starts with a keyword, if one stands here. -/
def keywordStatement? (g : Grammar) (cx : Context) (alone : Bool) (word : String) :
    Parse (Option Stmt) := do
  match word with
  | "function" => some <$> functionStatement g cx alone
  | "class" =>
    require !alone
    some <$> classDeclaration g cx [] []
  | "var" =>
    advance
    some <$> variableStatement g cx .var
  | "let" => some <$> letStatement g cx alone
  | "const" =>
    if cx.typed && (← nextIs (isWord "enum")) then return some (← declaration g cx [] [])
    require !alone
    advance
    some <$> variableStatement g cx .const
  | "if" => some <$> ifStatement g cx
  | "for" => some <$> forStatement g cx
  | "while" =>
    advance
    let test ← parenthesized g cx
    return some (.while test (← g.body cx))
  | "do" =>
    advance
    let body ← g.body cx
    expectWord "while"
    let test ← parenthesized g cx
    let _ ← eat ";"
    return some (.doWhile body test)
  | "switch" => some <$> switchStatement g cx
  | "try" => some <$> tryStatement g cx
  | "throw" => some <$> throwStatement g cx
  | "return" => some <$> returnStatement g cx
  | "break" | "continue" => some <$> jumpStatement cx
  | "debugger" =>
    advance
    endStatement
    return some .exit
  | "with" =>
    advance
    let object ← parenthesized g cx
    return some (.with object (← g.body cx))
  | "import" =>
    if ← nextIs (isAnySign ["(", "."]) then return none
    some <$> importDeclaration cx
  | "export" => some <$> exportDeclaration g cx []
  | _ => return none

/-- Words with which a declaration starts only where types are part of the language. -/
def typedStarts : List String :=
  typedModifiers ++
    ["accessor", "enum", "global", "interface", "module", "namespace", "static", "type"]

/-- A statement. -/
def statementRule (g : Grammar) (cx : Context) (alone : Bool) : Parse Stmt := do
  match ← token with
  | .sign "\x7b" => return .block (← blockOf g cx)
  | .sign ";" =>
    advance
    return .exit
  | .sign "@" => decoratedStatement g cx alone
  | .word word false =>
    if let some s ← keywordStatement? g cx alone word then return s
    if ← atAsyncFunction then return ← functionStatement g cx alone
    if ← eatUsing cx then return ← variableStatement g cx .using
    if cx.typed && typedStarts.contains word && (← atTypedDeclaration) then
      let found ← declarationModifiers cx
      return ← declaration g cx found []
    expressionStatement g cx
  | _ => expressionStatement g cx

end TaggedMarkup.Script

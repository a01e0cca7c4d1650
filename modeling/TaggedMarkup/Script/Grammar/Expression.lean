import TaggedMarkup.Script.Grammar.Function
import TaggedMarkup.Script.Grammar.Target

/-!
# The grammar of host scripts: expressions
-/

namespace TaggedMarkup.Script

open Parse

/-! ## Templates and regular expressions -/

/-- The literal parts and the holes of a template, in order. -/
def templateParts (g : Grammar) (cx : Context) : Parse (List Chunk × List Expr) := do
  let c ← get
  require (c.token == .tick)
  let start : Nat × List Char × List Chunk × List Expr := (c.stop, c.after, [], [])
  iterate start fun (pos, text, chunks, holes) => do
    match Lexeme.readChunk 0 [] text with
    | none => fail
    | some (raw, size, .quote, rest) =>
      modify (·.moveTo (pos + size) rest)
      let chunk : Chunk := ⟨String.ofList raw.reverse, ⟨pos, pos + size - 1⟩⟩
      return .done ((chunk :: chunks).reverse, holes.reverse)
    | some (raw, size, .hole, rest) =>
      modify (·.moveTo (pos + size) rest)
      let chunk : Chunk := ⟨String.ofList raw.reverse, ⟨pos, pos + size - 2⟩⟩
      let e ← expression g cx.inner
      let c ← get
      require (c.token == .sign "\x7d")
      return .more (c.stop, c.after, chunk :: chunks, e :: holes)

/-- A template without a tag. -/
def template (g : Grammar) (cx : Context) : Parse Expr := do
  let start ← here
  let (chunks, holes) ← templateParts g cx
  require (chunks.all fun c => Lexeme.validEscapes c.raw.toList)
  return .template chunks holes (← spanFrom start)

/-- A regular expression. -/
def regex : Parse Expr := do
  let c ← get
  match Lexeme.readRegex c.here with
  | none => fail
  | some (size, rest) =>
    set (c.moveTo (c.start + size) rest)
    return .literal ⟨c.start, c.start + size⟩

/-! ## Literals -/

/-- An element of the array literal that starts at an offset. -/
def arrayElement (g : Grammar) (cx : Context) (start : Nat) : Parse Item := do
  if ← isSign "," then return .hole
  if ← eat "..." then
    let e ← g.assignment cx
    noteSpread start "]"
    return .spread e
  return .expr (← g.assignment cx)

/-- An argument of a call. -/
def argument (g : Grammar) (cx : Context) : Parse Item := do
  if ← eat "..." then return .spread (← g.assignment cx)
  return .expr (← g.assignment cx)

/-- The arguments of a call in parentheses. -/
def arguments (g : Grammar) (cx : Context) : Parse (List Item) := do
  expect "("
  listUntil "," ")" (argument g cx.inner)

/-- A method of an object literal as a member. -/
def objectMethod (key : Key) (method : Parse Function) : Parse Member := do
  let start ← here
  let f ← method
  return .method key (.function f (← spanFrom start))

/-- A shorthand in an object literal, behind its name. -/
def shorthand (g : Grammar) (cx : Context) (id : Name) : Parse Member := do
  if ← eat "=" then
    let value ← g.assignment cx
    noteShorthand id.span.start
    return .shortDefault id value
  return .short id

/-- A member of the object literal that starts at an offset. -/
def objectMember (g : Grammar) (cx : Context) (start : Nat) : Parse Member := do
  if ← eat "..." then
    let e ← g.assignment cx
    noteSpread start "\x7d"
    return .spread e
  if let some word ← accessorWord? then
    let key ← propertyKey g cx
    return ← objectMethod key (accessorRest g cx word true)
  let isAsync ← atModifier "async"
  if isAsync then advance
  let isGenerator ← eat "*"
  let short ← ahead (ident cx)
  let key ← propertyKey g cx
  if isGenerator || (← isSign "(") || (← atTypeParameters cx) then
    return ← objectMethod key (functionRest g cx none { isAsync, isGenerator, needsBody := true })
  require !isAsync
  if ← eat ":" then return .pair key (← g.assignment cx)
  match short with
  | none => fail
  | some id => shorthand g cx id

/-! ## Primary expressions -/

/-- A function expression, perhaps with `async` in front of it. -/
def functionExpression (g : Grammar) (cx : Context) : Parse Expr := do
  let start ← here
  let isAsync ← eatWord "async"
  let f ← functionFrom g cx isAsync false
  return .function f (← spanFrom start)

/-- A class expression. -/
def classExpression (g : Grammar) (cx : Context) : Parse Expr := do
  let start ← here
  let decs ← decorators g cx
  let c ← classFrom g cx decs
  return .class c (← spanFrom start)

/-- `import` in an expression: a call, perhaps with the phase of the import in front of it, or a
property of the module. -/
def importExpression (g : Grammar) (cx : Context) : Parse Expr := do
  let start ← here
  expectWord "import"
  if ← eat "." then
    if ← eatWord "meta" then return .keyword (← spanFrom start)
    require (← isAnyWord ["source", "defer"])
    advance
  expect "("
  let args ← listUntil "," ")" (g.assignment cx.inner)
  require (args.length == 1 || args.length == 2)
  return .load args (← spanFrom start)

/-- Whether an async function starts here. -/
def atAsyncFunction : Parse Bool := do
  if !(← isWord "async") then return false
  nextIs (return (← isWord "function") && !(← onNewline))

/-- An expression that is a single token or stands in brackets. -/
def primary (g : Grammar) (cx : Context) : Parse Expr := do
  let start ← here
  match ← token with
  | .number _ =>
    advance
    return .literal (← spanFrom start)
  | .string value _ =>
    advance
    return .string value (← spanFrom start)
  | .tick => template g cx
  | .sign "(" =>
    advance
    let e ← expression g cx.inner
    expect ")"
    return .paren e (← spanFrom start)
  | .sign "[" =>
    advance
    let items ← listUntil "," "]" (arrayElement g cx.inner start)
    return .array items (← spanFrom start)
  | .sign "\x7b" =>
    advance
    let members ← listUntil "," "\x7d" (objectMember g cx.inner start)
    return .object members (← spanFrom start)
  | .sign "/" | .sign "/=" => regex
  | .sign "@" => classExpression g cx
  | .word word escaped =>
    if !escaped then
      if word == "function" then return ← functionExpression g cx
      if ← atAsyncFunction then return ← functionExpression g cx
      if word == "class" then return ← classExpression g cx
      if word == "import" then return ← importExpression g cx
      if ["null", "true", "false"].contains word then
        advance
        return .literal (← spanFrom start)
      if word == "this" then
        advance
        return .keyword (← spanFrom start)
      if word == "super" then
        advance
        require (← isAnySign ["(", ".", "["])
        return .keyword (← spanFrom start)
    let id ← ident cx
    return .name id
  | _ => fail

/-! ## Operators -/

/-- An operator between two operands. -/
structure Operator where
  /-- Operators of a higher level bind their operands first. -/
  level : Nat
  /-- Whether the operator on the right of two binds first. -/
  rightFirst : Bool := false
  isLogical : Bool := false
  deriving DecidableEq, Repr

/-- The level of the operators that compare. -/
def Operator.comparison : Nat := 8

/-- The operator that a sign stands for. -/
def Operator.ofSign? (text : String) : Option Operator :=
  match text with
  | "??" => some { level := 1, isLogical := true }
  | "||" => some { level := 2, isLogical := true }
  | "&&" => some { level := 3, isLogical := true }
  | "|" => some { level := 4 }
  | "^" => some { level := 5 }
  | "&" => some { level := 6 }
  | "==" | "!=" | "===" | "!==" => some { level := 7 }
  | "<" | ">" | "<=" | ">=" => some { level := comparison }
  | "<<" | ">>" | ">>>" => some { level := 9 }
  | "+" | "-" => some { level := 10 }
  | "*" | "/" | "%" => some { level := 11 }
  | "**" => some { level := 12, rightFirst := true }
  | _ => none

/-- Whether the operator takes its left operand for the value if there is one. -/
def Operator.coalesces (op : Operator) : Bool := op.level == 1

/-- Whether an operand that ends in front of the operator is complete at a level. -/
def Operator.endsAt (op : Operator) (level : Nat) : Bool :=
  if op.rightFirst then op.level < level else op.level ≤ level

/-! ## Accesses and calls -/

/-- Whether an expression loads a module. -/
def Expr.isLoad : Expr → Bool
  | .load _ _ => true
  | _ => false

/-- `new` with what it constructs. -/
def construction (g : Grammar) (cx : Context) : Parse Expr := do
  let start ← here
  expectWord "new"
  if ← eat "." then
    expectWord "target"
    return .keyword (← spanFrom start)
  let callee ← g.callee cx
  require !callee.isLoad
  if ← isSign "(" then
    let args ← arguments g cx
    return .construct callee args (← spanFrom start)
  require (!(← isSign "?."))
  return .construct callee [] (← spanFrom start)

/-- What accesses and calls start from. -/
def base (g : Grammar) (cx : Context) : Parse Expr := do
  if ← isWord "new" then construction g cx else primary g cx

/-- Whether an expression may start with the sign. -/
def signStartsExpression (text : String) : Bool :=
  ["(", "[", "\x7b", "+", "-", "!", "~", "++", "--", "/", "/=", "<", "@"].contains text

/-- Whether an expression may start with the word. -/
def wordStartsExpression (text : String) : Bool :=
  !reservedWords.contains text
    || ["class", "delete", "false", "function", "import", "new", "null", "super", "this", "true",
        "typeof", "void"].contains text

/-- Whether a token behind type arguments shows that they were type arguments: it continues a call
or an operation, or no expression could start with it. -/
def followsTypeArguments : Parse Bool := do
  match ← token with
  | .tick | .finish => return true
  | .sign s =>
    if s == "(" then return true
    if ["<", ">", "+", "-"].contains s then return false
    return (← onNewline) || (Operator.ofSign? s).isSome || !signStartsExpression s
  | .word w _ =>
    return (← onNewline) || ["as", "satisfies"].contains w || !wordStartsExpression w
  | _ => onNewline

/-- Type arguments in an expression, if they are to be read as such. -/
def argumentsOfType (g : Grammar) (cx : Context) : Parse Bool := do
  if !(cx.typed && (← isAnySign ["<", "<<"])) then return false
  let found ← attempt do
    openTypeArguments g cx
    require ((← get).joinGreater.token != .sign ">=")
    advance
    require (← followsTypeArguments)
  return found.isSome

/-- An access of a member behind a dot. -/
def dotAccess (start : Nat) (e : Expr) : Parse Expr := do
  match ← token with
  | .secret text =>
    let begin ← here
    advance
    let id : Name := ⟨text, ← spanFrom begin⟩
    return .secret e id (← spanFrom start)
  | _ =>
    let id ← anyWord
    return .member e id (← spanFrom start)

/-- An access in brackets. -/
def indexAccess (g : Grammar) (cx : Context) (start : Nat) (e : Expr) : Parse Expr := do
  expect "["
  let i ← expression g cx.inner
  expect "]"
  return .index e i (← spanFrom start)

/-- A template whose tag stands in front of it. -/
def taggedTemplate (g : Grammar) (cx : Context) (start : Nat) (tag : Expr) : Parse Expr := do
  let (chunks, holes) ← templateParts g cx
  return .tagged tag chunks holes (← spanFrom start)

/-- The link behind `?.`. -/
def optionalLink (g : Grammar) (cx : Context) (start : Nat) (e : Expr) : Parse Expr := do
  if ← isSign "(" then
    let args ← arguments g cx
    return .call e args (← spanFrom start)
  if ← isSign "[" then return ← indexAccess g cx start e
  if ← argumentsOfType g cx then
    let args ← arguments g cx
    return .call e args (← spanFrom start)
  dotAccess start e

/-- One access or call behind an expression; `none` if there is none. Calls and optional links are
read only where `calls` holds; the flag of the result tells an optional link. -/
def link (g : Grammar) (cx : Context) (calls : Bool) (start : Nat) (optional : Bool) (e : Expr) :
    Parse (Option (Expr × Bool)) := do
  match ← token with
  | .sign "." =>
    advance
    return some (← dotAccess start e, optional)
  | .sign "[" =>
    if cx.inDecorator then return none
    return some (← indexAccess g cx start e, optional)
  | .tick =>
    require !optional
    return some (← taggedTemplate g cx start e, optional)
  | .sign "?." =>
    if !calls then return none
    advance
    return some (← optionalLink g cx start e, true)
  | .sign "(" =>
    if !calls then return none
    let args ← arguments g cx
    return some (.call e args (← spanFrom start), optional)
  | .sign "!" =>
    if !cx.typed || (← onNewline) then return none
    advance
    return some (.cast .nonNull e (← spanFrom start), optional)
  | .sign "<" | .sign "<<" =>
    if !(← argumentsOfType g cx) then return none
    if (← isSign "(") || (← token) == .tick then
      if (← isSign "(") && calls then
        let args ← arguments g cx
        return some (.call e args (← spanFrom start), optional)
      if (← token) == .tick then
        require !optional
        return some (← taggedTemplate g cx start e, optional)
    return some (.instantiate e (← spanFrom start), optional)
  | _ => return none

/-- An expression with all accesses behind it, and with the calls where `calls` holds. -/
def links (g : Grammar) (cx : Context) (calls : Bool) : Parse Expr := do
  let start ← here
  let e ← base g cx
  iterate (e, false) fun (e, optional) => do
    match ← link g cx calls start optional e with
    | some next => return .more next
    | none =>
      if !optional then return .done e
      match e with
      | .instantiate inner span => return .done (.instantiate (.chain inner inner.span) span)
      | e => return .done (.chain e e.span)

/-- A primary expression with its accesses and calls. -/
def accessChain (g : Grammar) (cx : Context) : Parse Expr := links g cx true

/-- What `new` constructs. -/
def calleeChain (g : Grammar) (cx : Context) : Parse Expr := do
  return (← links g cx false).withoutArguments

/-! ## Operands -/

/-- An expression with at most one operand. -/
def unaryExpression (g : Grammar) (cx : Context) : Parse Expr := do
  let start ← here
  if (← isAnySign ["!", "~", "+", "-"]) || (← isWord "delete") || (← isWord "void")
      || (← isWord "typeof") then
    advance
    let e ← g.unary cx
    return .unary e (← spanFrom start)
  if ← isAnySign ["++", "--"] then
    advance
    let e ← g.unary cx
    require e.isSimpleTarget
    return .update e (← spanFrom start)
  if cx.await && (← isWord "await") then
    advance
    let e ← g.unary cx
    return .await e (← spanFrom start)
  if ← atTypeParameters cx then
    advance
    g.type cx
    expect ">"
    let e ← g.unary cx
    return .cast .assertion e (← spanFrom start)
  let e ← accessChain g cx
  if (← isAnySign ["++", "--"]) && !(← onNewline) then
    require e.isSimpleTarget
    advance
    return .update e (← spanFrom start)
  return e

/-- The operator that stands here and binds more tightly than the level says. -/
def operator? (cx : Context) (level : Nat) : Parse (Option Operator) := do
  let found : Option Operator ← match ← token with
    | .sign s => pure (Operator.ofSign? s)
    | .word "instanceof" false => pure (some { level := Operator.comparison })
    | .word "in" false => pure (if cx.allowIn then some { level := Operator.comparison } else none)
    | _ => pure none
  return found.filter fun op => !op.endsAt level

/-- The form of cast that a word introduces. -/
def castForm? (cx : Context) (level : Nat) : Parse (Option Cast) := do
  if !cx.typed || Operator.comparison ≤ level || (← onNewline) then return none
  if ← isWord "as" then return some .as
  if ← isWord "satisfies" then return some .satisfies
  return none

/-- Whether an expression is an operator with one operand. -/
def Expr.isUnary : Expr → Bool
  | .unary _ _ | .await _ _ => true
  | _ => false

/-- Whether an expression is joined by a logical operator. -/
def Expr.isLogical : Expr → Bool
  | .logical _ _ _ => true
  | _ => false

/-- Whether an expression asks for a private name. -/
def Expr.isHasSecret : Expr → Bool
  | .hasSecret _ _ _ => true
  | _ => false

/-- An operand: an expression, or a private name that is looked for in an object. -/
def operand (g : Grammar) (cx : Context) : Parse Expr := do
  match ← token with
  | .secret text =>
    require cx.allowIn
    let start ← here
    advance
    let id : Name := ⟨text, ← spanFrom start⟩
    expectWord "in"
    let object ← g.operands cx Operator.comparison
    require !object.isHasSecret
    return .hasSecret id object (← spanFrom start)
  | _ => unaryExpression g cx

/-- Operands with operators between them that bind more tightly than the level says. The operator
`??` does not mix with the other logical ones. -/
def joinedOperands (g : Grammar) (cx : Context) (level : Nat) : Parse Expr := do
  let start ← here
  let first ← operand g cx
  iterate (first, false) fun (left, isOther) => do
    modify fun c => if c.token == .sign ">" then c.joinGreater else c
    match ← castForm? cx level with
    | some form =>
      advance
      g.type cx
      return .more (.cast form left (← spanFrom start), false)
    | none =>
      match ← operator? cx level with
      | none => return .done left
      | some op =>
        require !(op.rightFirst && left.isUnary)
        advance
        let right ← g.operands cx op.level
        require !(op.coalesces && (isOther || right.isLogical))
        let span ← spanFrom start
        if op.isLogical then return .more (.logical left right span, !op.coalesces)
        return .more (.binary left right span, false)

/-! ## Arrows -/

/-- The body of an arrow, behind `=>`. -/
def arrowBody (g : Grammar) (cx : Context) (isAsync : Bool) : Parse Body := do
  if ← isSign "\x7b" then return .block (← blockOf g (cx.enterArrow isAsync))
  let e ← g.assignment { cx with await := isAsync, yield := false }
  return .expr e

/-- The sign of an arrow, on the line of what stands in front of it. -/
def arrowSign : Parse Unit := do
  require !(← onNewline)
  expect "=>"

/-- An arrow with one parameter and no parentheses. -/
def shortArrow (g : Grammar) (cx : Context) (start : Nat) (isAsync : Bool) : Parse Expr := do
  let id ← ident (if isAsync then { cx with await := true } else cx)
  arrowSign
  let body ← arrowBody g cx isAsync
  return .arrow (.mk none [.item [] (.name id id.span)] body) (← spanFrom start)

/-- The parameters of an arrow in parentheses, up to its sign; the flag tells a result type. -/
def arrowHead (g : Grammar) (cx : Context) (isAsync : Bool) : Parse (List PatternItem × Bool) := do
  if cx.typed then typeParameters? g cx
  let (params, hasThis) ← parameterList g { cx.inner with await := cx.await || isAsync } false
  require !hasThis
  let hasResult := cx.typed && (← isSign ":")
  if hasResult then resultAnnotation? g cx
  arrowSign
  return (params, hasResult)

/-- Whether the parenthesis that stands here may open the parameters of an arrow. -/
def opensArrow : Parse Bool :=
  nextIs (return (← isAnySign [")", "[", "\x7b", "..."]) || (← atFreeWord) || (← isWord "this"))

/-- An arrow with parentheses around its parameters, if one stands here. A result type in the
middle operand of a conditional counts only if the second sign of the conditional follows. -/
def longArrow? (g : Grammar) (cx : Context) (start : Nat) (isAsync : Bool) :
    Parse (Option Expr) := do
  let c ← get
  match ← attempt (arrowHead g cx isAsync) with
  | none => return none
  | some (params, hasResult) =>
    let arrow : Parse Expr := do
      let body ← arrowBody g cx isAsync
      return .arrow (.mk none params body) (← spanFrom start)
    if hasResult && cx.inBranch then
      match ← attempt (do let e ← arrow; require (← isSign ":"); return e) with
      | some e => return some e
      | none =>
        set c
        return none
    return some (← arrow)

/-- An arrow with `async` in front of it, if one stands here. -/
def asyncArrow? (g : Grammar) (cx : Context) : Parse (Option Expr) := do
  let start ← here
  let follows ← nextIs do
    if ← onNewline then return false
    if ← isSign "(" then return ← opensArrow
    if ← atTypeParameters cx then return true
    return (← atWord) && !(← isWord "function") && (← nextIs (isSign "=>"))
  if !follows then return none
  let c ← get
  advance
  if ← atWord then return some (← shortArrow g cx start true)
  match ← longArrow? g cx start true with
  | some e => return some e
  | none =>
    set c
    return none

/-- An arrow, if one stands here. -/
def arrow? (g : Grammar) (cx : Context) : Parse (Option Expr) := do
  let start ← here
  match ← token with
  | .sign "(" => if ← opensArrow then longArrow? g cx start false else return none
  | .sign "<" => if cx.typed then longArrow? g cx start false else return none
  | .word word escaped =>
    if word == "async" && !escaped then
      match ← asyncArrow? g cx with
      | some e => return some e
      | none => pure ()
    if cx.isIdent word && (← nextIs (return (← isSign "=>") && !(← onNewline))) then
      return some (← shortArrow g cx start false)
    return none
  | _ => return none

/-! ## Assignments -/

/-- A `yield` with its value. -/
def yieldExpression (g : Grammar) (cx : Context) : Parse Expr := do
  let start ← here
  expectWord "yield"
  if ← onNewline then return .yield none (← spanFrom start)
  let all ← eat "*"
  let ends ← match ← token with
    | .finish => pure true
    | .sign s => pure ([")", "]", "\x7d", ",", ";", ":"].contains s)
    | .word w _ => pure (w == "in")
    | _ => pure false
  if ends && !all then return .yield none (← spanFrom start)
  let e ← g.assignment { cx with inBranch := false }
  return .yield (some e) (← spanFrom start)

/-- The signs that assign. -/
def assigningSigns : List String :=
  ["=", "+=", "-=", "*=", "/=", "%=", "**=", "<<=", ">>=", ">>>=", "&=", "|=", "^=", "&&=", "||=",
   "??="]

/-- An expression without a comma at its top. -/
def assignmentExpression (g : Grammar) (cx : Context) : Parse Expr := do
  let start ← here
  if cx.yield && (← isWord "yield") then return ← yieldExpression g cx
  if let some e ← arrow? g cx then return e
  let first ← joinedOperands g cx 0
  if ← isAnySign assigningSigns then
    takeTarget first
    let isPlain ← isSign "="
    advance
    let value ← g.assignment cx
    return .assign isPlain first value (← spanFrom start)
  if ← eat "?" then
    let yes ← g.assignment { cx with allowIn := true, inBranch := cx.typed }
    expect ":"
    let no ← g.assignment cx
    return .conditional first yes no (← spanFrom start)
  return first

end TaggedMarkup.Script

import TaggedMarkup.Script.Cursor

/-!
# The grammar of host scripts: phrases

The grammar is written as open recursion. A `Phrase` is a part of the grammar that other parts may
refer back to, and a `Grammar` gives a reader for each of them. Every rule takes the grammar as an
argument and is not recursive itself; the knot is tied once, in `Script.Grammar.Program`.
-/

namespace TaggedMarkup.Script

/-- What surrounds a phrase and changes how it is read. -/
structure Context where
  /-- Whether type annotations are part of the language. -/
  typed : Bool := false
  /-- Whether `in` is an operator here. -/
  allowIn : Bool := true
  /-- Whether `await` is an operator here. -/
  await : Bool := false
  /-- Whether `yield` is an operator here. -/
  yield : Bool := false
  /-- Whether `return` may stand here. -/
  inFunction : Bool := false
  /-- Whether declarations only announce what is defined elsewhere. -/
  ambient : Bool := false
  /-- Whether the phrase is the middle operand of a conditional. -/
  inBranch : Bool := false
  /-- Whether the phrase is a decorator, to which no index belongs. -/
  inDecorator : Bool := false
  /-- Whether a type may be a conditional one here. -/
  conditionals : Bool := true
  deriving DecidableEq, Repr

namespace Context

/-- Inside brackets of any kind. -/
def inner (cx : Context) : Context :=
  { cx with allowIn := true, inBranch := false, inDecorator := false }

/-- Inside the parameters and the body of a function. -/
def enter (cx : Context) (isAsync isGenerator : Bool) : Context :=
  { cx.inner with await := isAsync, yield := isGenerator, inFunction := true }

/-- Inside the body of an arrow, where `in` means what it means outside. -/
def enterArrow (cx : Context) (isAsync : Bool) : Context :=
  { cx with await := isAsync, yield := false, inFunction := true, inBranch := false }

/-- Inside the value of a class field. -/
def inField (cx : Context) : Context := { cx.inner with await := false, yield := false }

/-- Inside a static block of a class. -/
def inStaticBlock (cx : Context) : Context :=
  { cx with await := true, yield := false, inFunction := false }

end Context

/-- The parts of the grammar that refer back to each other. -/
inductive Phrase where
  | assignment (cx : Context)
  /-- Operands joined by operators that bind more tightly than the level says. -/
  | operands (cx : Context) (level : Nat)
  | unary (cx : Context)
  /-- A primary expression with its accesses and calls. -/
  | access (cx : Context)
  /-- What `new` constructs: a primary expression with its accesses. -/
  | callee (cx : Context)
  /-- A statement; `alone` tells that it is the body of another one and not in a list. -/
  | statement (cx : Context) (alone : Bool)
  | binding (cx : Context)
  | type (cx : Context)

/-- What reading a phrase yields. -/
@[reducible] def Phrase.Tree : Phrase → Type
  | .assignment _ | .operands _ _ | .unary _ | .access _ | .callee _ => Expr
  | .statement _ _ => Stmt
  | .binding _ => Pattern
  | .type _ => Unit

/-- A reader for each phrase. -/
abbrev Grammar := (p : Phrase) → Parse p.Tree

namespace Grammar

def assignment (g : Grammar) (cx : Context) : Parse Expr := g (.assignment cx)

def operands (g : Grammar) (cx : Context) (level : Nat) : Parse Expr := g (.operands cx level)

def unary (g : Grammar) (cx : Context) : Parse Expr := g (.unary cx)

def access (g : Grammar) (cx : Context) : Parse Expr := g (.access cx)

def callee (g : Grammar) (cx : Context) : Parse Expr := g (.callee cx)

/-- A statement in a list of statements. -/
def statement (g : Grammar) (cx : Context) : Parse Stmt := g (.statement cx false)

/-- A statement that is the body of another one. -/
def body (g : Grammar) (cx : Context) : Parse Stmt := g (.statement cx true)

def binding (g : Grammar) (cx : Context) : Parse Pattern := g (.binding cx)

def type (g : Grammar) (cx : Context) : Parse Unit := g (.type cx)

end Grammar

open Parse

/-! ## Words -/

/-- Words that are never identifiers. -/
def reservedWords : List String :=
  ["break", "case", "catch", "class", "const", "continue", "debugger", "default", "delete", "do",
   "else", "enum", "export", "extends", "false", "finally", "for", "function", "if", "import",
   "in", "instanceof", "new", "null", "return", "super", "switch", "this", "throw", "true", "try",
   "typeof", "var", "void", "while", "with"]

/-- Whether a word may be an identifier. -/
def Context.isIdent (cx : Context) (word : String) : Bool :=
  !(reservedWords.contains word || (cx.await && word == "await") || (cx.yield && word == "yield"))

/-- Whether the current token is an identifier. -/
def atIdent (cx : Context) : Parse Bool := do
  match ← token with
  | .word w _ => return cx.isIdent w
  | _ => return false

/-- Whether the current token is a word that is an identifier at least in some places. -/
def atFreeWord : Parse Bool := do
  match ← token with
  | .word w _ => return !reservedWords.contains w
  | _ => return false

/-- Whether the current token is a word of any kind. -/
def atWord : Parse Bool := do
  match ← token with
  | .word _ _ => return true
  | _ => return false

/-- Whether the current token is a string. -/
def atString : Parse Bool := do
  match ← token with
  | .string _ _ => return true
  | _ => return false

/-- Whether the current token is one of the words, written without escapes. -/
def isAnyWord (words : List String) : Parse Bool := do
  match ← token with
  | .word w false => return words.contains w
  | _ => return false

/-- A word of any kind. -/
def anyWord : Parse Name := do
  let start ← here
  match ← token with
  | .word w _ =>
    advance
    return ⟨w, ← spanFrom start⟩
  | _ => fail

/-- An identifier. -/
def ident (cx : Context) : Parse Name := do
  let n ← anyWord
  require (cx.isIdent n.text)
  return n

/-! ## Expressions -/

/-- A list of expressions with commas between them, as one expression. -/
def expression (g : Grammar) (cx : Context) : Parse Expr := do
  let start ← here
  match ← listOf "," (g.assignment { cx with inBranch := false, inDecorator := false }) with
  | [e] => return e
  | es => return .sequence es (← spanFrom start)

/-- The name of a member that is not private. -/
def propertyKey (g : Grammar) (cx : Context) : Parse Key := do
  match ← token with
  | .word w _ =>
    advance
    return .fixed w
  | .string s _ =>
    advance
    return .fixed s
  | .number text =>
    advance
    return .fixed text
  | .sign "[" =>
    advance
    let e ← g.assignment cx.inner
    expect "]"
    return .computed e
  | _ => fail

/-- Whether the current token can start the name of a member. -/
def atMemberKey : Parse Bool := do
  match ← token with
  | .word _ _ | .string _ _ | .number _ | .secret _ | .sign "[" => return true
  | _ => return false

/-- Notes what stands in a type. -/
def noteInType (e : Expr) : Parse Unit := modify fun c => { c with inTypes := e :: c.inTypes }

/-- A type behind a colon, if there is one. -/
def annotation? (g : Grammar) (cx : Context) : Parse Unit := do
  if ← eat ":" then g.type cx

/-! ## Statements -/

/-- Statements up to a closing brace, which is read as well. -/
def statementsUntilBrace (g : Grammar) (cx : Context) : Parse (List Stmt) :=
  iterate ([] : List Stmt) fun stmts => do
    if ← eat "\x7d" then return .done stmts.reverse
    return .more ((← g.statement cx) :: stmts)

/-- Statements in braces. -/
def blockOf (g : Grammar) (cx : Context) : Parse (List Stmt) := do
  expect "\x7b"
  statementsUntilBrace g cx

/-- Whether the current token is a number. -/
def atNumber : Parse Bool := do
  match ← token with
  | .number _ => return true
  | _ => return false

end TaggedMarkup.Script

import TaggedMarkup.Script.Grammar.Statement

/-!
# The grammar of host scripts: whole scripts

The knot of the grammar. A reference back to a phrase is made only behind something that has been
read, up to a fixed number of steps, so the size of the script bounds the depth of the references.
-/

namespace TaggedMarkup.Script

open Parse

/-- The rule of each phrase, over a grammar for the phrases that it refers to. -/
def phraseRule (g : Grammar) : Grammar
  | .assignment cx => assignmentExpression g cx
  | .operands cx level => joinedOperands g cx level
  | .unary cx => unaryExpression g cx
  | .access cx => accessChain g cx
  | .callee cx => calleeChain g cx
  | .statement cx alone => statementRule g cx alone
  | .binding cx => bindingPattern g cx
  | .type cx => anyType g cx

/-- The grammar whose references go at most so deep. -/
def grammarOfDepth : Nat → Grammar
  | 0 => fun _ => fail
  | n + 1 => phraseRule (grammarOfDepth n)

/-- The languages a script may be written in. The elements of JSX, which the host parser reads in
files of some extensions, are part of none of them: scripts that have any are left out. -/
inductive Dialect where
  | module
  | script
  | typed
  /-- A typed language in which scripts are not modules. -/
  | typedScript
  /-- Declarations of types without definitions. -/
  | declarations
  deriving DecidableEq, Repr

namespace Dialect

/-- Whether type annotations are part of the language. -/
def isTyped : Dialect → Bool
  | .module | .script => false
  | .typed | .typedScript | .declarations => true

/-- Whether a script of the language is not a module. -/
def isScript : Dialect → Bool
  | .script | .typedScript => true
  | .module | .typed | .declarations => false

/-- What surrounds a script. -/
def context (d : Dialect) : Context :=
  { typed := d.isTyped, await := !d.isScript, ambient := d == .declarations }

end Dialect

/-- The part of a file name behind its last dot, if something stands in front of that dot. -/
def extension? (filename : String) : Option String :=
  let name := filename.toList.reverse.takeWhile (· != '/')
  let ext := name.takeWhile (· != '.')
  let stem := (name.drop ext.length).drop 1
  if stem.isEmpty || ext.length == name.length then none else some (String.ofList ext.reverse)

/-- The language of a file, by its name. -/
def Dialect.ofFilename (filename : String) : Dialect :=
  match extension? filename with
  | some "cjs" => .script
  | some "ts" =>
    if ".d.ts".toList.reverse.isPrefixOf filename.toList.reverse then .declarations else .typed
  | some "mts" | some "tsx" => .typed
  | some "cts" => .typedScript
  | _ => .module

/-- Runs a reader from a cursor on. At its end no shorthand with a default may be left that has not
become a target. -/
def parseFrom {α : Type} (rule : Grammar → Parse α) (c : Cursor) : Option (α × Cursor) := do
  let g := grammarOfDepth (4 * c.total + 16)
  let (a, c) ← rule g c
  guard (c.token != .malformed && c.loose.isEmpty)
  return (a, c)

/-- The statements of a script, and what stands in its types; `none` if the text is malformed. Where
types are not part of the language no name is exported twice. -/
def readScript (dialect : Dialect) (source : List Char) : Option (List Stmt × List Expr) := do
  let statements (g : Grammar) : Parse (List Stmt) :=
    iterate ([] : List Stmt) fun stmts => do
      if (← token) == .finish then return .done stmts.reverse
      return .more ((← g.statement dialect.context) :: stmts)
  let (stmts, c) ← parseFrom statements (Cursor.ofScript dialect.isScript source)
  guard (dialect.isTyped || decide c.exports.Nodup)
  return (stmts, c.inTypes.reverse)

/-- The statements of a script. -/
def parseScript (dialect : Dialect) (source : List Char) : Option (List Stmt) :=
  (readScript dialect source).map Prod.fst

/-- The expression that a text starts with; what follows behind the next token is not looked at. -/
def parseExpression (dialect : Dialect) (source : List Char) : Option Expr := do
  let (e, _) ← parseFrom (fun g => expression g dialect.context) (Cursor.ofText source)
  return e

end TaggedMarkup.Script

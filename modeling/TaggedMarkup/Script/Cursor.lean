import TaggedMarkup.Script.Lexeme
import TaggedMarkup.Script.Syntax
import TaggedMarkup.Text.Utf8

/-!
# Reading a script token by token

A `Cursor` stands on one token of a script and knows the text from there on. `Parse` is a reader
that moves the cursor and may fail; since a cursor is a value, going back is only a matter of
keeping the old one. Where a reader repeats something, `iterate` bounds the repetition by the
length of the remaining text.
-/

namespace TaggedMarkup.Script

/-- A place in a script. -/
structure Cursor where
  /-- The text from the start of the current token on. -/
  here : List Char
  token : Token
  start : Nat
  stop : Nat
  /-- The text behind the current token. -/
  after : List Char
  /-- Whether a line ends between the previous token and this one. -/
  newline : Bool
  /-- Where the previous token ends. -/
  prevStop : Nat
  /-- Where shorthands with a default stand that no assignment has made targets yet. -/
  loose : List Nat
  /-- Where literals start that end with a spread and a comma. -/
  openEnded : List Nat
  /-- The names that the script has exported so far. -/
  exports : List String
  /-- The names and expressions in the types that have been read so far, the last first. -/
  inTypes : List Expr
  /-- Whether lines may be hidden from readers of markup. -/
  hides : Bool
  /-- The size of the whole script in bytes. -/
  total : Nat
  deriving Inhabited

namespace Cursor

/-- Moves to the first token of the text that starts at an offset; `newline` tells that a line
ends there. -/
def moveFrom (c : Cursor) (newline : Bool) (pos : Nat) (cs : List Char) : Cursor :=
  match Lexeme.skip c.hides .blank pos newline cs with
  | none =>
    { c with
      here := [], token := .malformed, start := pos, stop := pos, after := [], newline := false,
      prevStop := pos }
  | some (start, newline, here) =>
    let (token, size, after) := Lexeme.readToken here
    { c with here, token, start, stop := start + size, after, newline, prevStop := pos }

/-- Moves to the first token of the text that starts at an offset. -/
def moveTo (c : Cursor) (pos : Nat) (cs : List Char) : Cursor := c.moveFrom false pos cs

/-- The cursor on the first token of a text. -/
def ofText (cs : List Char) : Cursor :=
  ({ (default : Cursor) with total := Text.byteSize cs }).moveFrom true 0 cs

/-- The cursor on the first token of a script, whose first line may name its interpreter. -/
def ofScript (hides : Bool) (cs : List Char) : Cursor :=
  let body := Lexeme.skipHashbang cs
  let size := Text.byteSize cs
  ({ (default : Cursor) with hides, total := size }).moveFrom true (size - Text.byteSize body) body

/-- The cursor on the next token. -/
def next (c : Cursor) : Cursor := c.moveTo c.stop c.after

/-- A bound for the number of tokens from here on. -/
def left (c : Cursor) : Nat := c.total - c.start + 2

/-- The same place with the current token ending elsewhere. -/
def resize (c : Cursor) (token : Token) (size : Nat) (after : List Char) : Cursor :=
  { c with token, stop := c.start + size, after }

/-- The operators that start with `>`, the longer ones first. -/
def greaterSigns : List String := [">>>=", ">>>", ">>=", ">>", ">="]

/-- Joins a `>` with the signs directly behind it. -/
def joinGreater (c : Cursor) : Cursor :=
  match greaterSigns.find? fun s => s.toList.isPrefixOf c.here with
  | some s => c.resize (.sign s) s.toList.length (c.here.drop s.toList.length)
  | none => c

/-- Takes the first half of `<<` as a sign of its own. -/
def splitLess (c : Cursor) : Cursor :=
  match c.token, c.here with
  | .sign "<<", _ :: after => c.resize (.sign "<") 1 after
  | _, _ => c

end Cursor

/-- A reader of scripts. -/
abbrev Parse (α : Type) := StateT Cursor Option α

namespace Parse

/-- Gives up. -/
def fail {α : Type} : Parse α := fun _ => none

/-- Gives up unless the condition holds. -/
def require (b : Bool) : Parse Unit := if b then pure () else fail

/-- The current token. -/
def token : Parse Token := return (← get).token

/-- The offset at which the current token starts. -/
def here : Parse Nat := return (← get).start

/-- Where the token read last ends. -/
def prevStop : Parse Nat := return (← get).prevStop

/-- The span from an offset to the end of the token read last. -/
def spanFrom (start : Nat) : Parse Span := return ⟨start, ← prevStop⟩

/-- Moves to the next token. -/
def advance : Parse Unit := modify Cursor.next

/-- Whether a line ends in front of the current token. -/
def onNewline : Parse Bool := return (← get).newline

/-- Whether the current token is the sign. -/
def isSign (text : String) : Parse Bool := return (← token) == .sign text

/-- Whether the current token is one of the signs. -/
def isAnySign (texts : List String) : Parse Bool := do
  match ← token with
  | .sign s => return texts.contains s
  | _ => return false

/-- Whether the current token is the word, written without escapes. -/
def isWord (text : String) : Parse Bool := return (← token) == .word text false

/-- Moves over the sign if it is there. -/
def eat (text : String) : Parse Bool := do
  if ← isSign text then
    advance
    return true
  return false

/-- Moves over the word if it is there. -/
def eatWord (text : String) : Parse Bool := do
  if ← isWord text then
    advance
    return true
  return false

/-- Moves over the sign. -/
def expect (text : String) : Parse Unit := do
  require (← eat text)

/-- Moves over the word. -/
def expectWord (text : String) : Parse Unit := do
  require (← eatWord text)

/-- Runs a reader and stays where it was if the reader fails. -/
def attempt {α : Type} (p : Parse α) : Parse (Option α) := fun c =>
  match p c with
  | some (a, c') => some (some a, c')
  | none => some (none, c)

/-- The value of a reader without its move. -/
def ahead {α : Type} (p : Parse α) : Parse (Option α) := fun c =>
  some ((p c).map (·.1), c)

/-- Whether the condition holds on the next token. -/
def nextIs (p : Parse Bool) : Parse Bool := do
  return (← ahead (advance *> p)).getD false

/-- Whether a round of a repetition is the last one. -/
inductive Round (σ β : Type) where
  | more (s : σ)
  | done (b : β)

/-- Repeats rounds at most as often as the number says. -/
def rounds {σ β : Type} (round : σ → Parse (Round σ β)) : Nat → σ → Parse β
  | 0, _ => fail
  | n + 1, s => do
    match ← round s with
    | .more s => rounds round n s
    | .done b => return b

/-- Repeats rounds, of which each but the last has to read something. -/
def iterate {σ β : Type} (s : σ) (round : σ → Parse (Round σ β)) : Parse β := fun c =>
  rounds round c.left s c

/-- Items up to a closing sign, with a separator between them and perhaps behind the last one. The
closing sign is read as well. -/
def listUntil {α : Type} (separator close : String) (item : Parse α) : Parse (List α) :=
  iterate ([] : List α) fun items => do
    if ← eat close then return .done items.reverse
    let a ← item
    if ← eat separator then return .more (a :: items)
    expect close
    return .done (a :: items).reverse

/-- One item and all that follow it behind a separator. -/
def listOf {α : Type} (separator : String) (item : Parse α) : Parse (List α) :=
  iterate ([] : List α) fun items => do
    let a ← item
    if ← eat separator then return .more (a :: items)
    return .done (a :: items).reverse

/-- The end of a statement: a semicolon, or a place where one may be left out. -/
def endStatement : Parse Unit := do
  if ← eat ";" then return
  require ((← onNewline) || (← isSign "\x7d") || (← token) == .finish)

end Parse

end TaggedMarkup.Script

import TaggedMarkup.Text.Ident

/-!
# Lexemes of host scripts

What a script is made of below the level of its grammar: blanks and comments, words, numbers,
strings, signs, and the literal parts of templates and regular expressions. Each reader takes the
characters in front of it and returns the characters behind what it has read; `none` means that
the text is malformed there.

A `>` is always a sign of its own, so that closing brackets of type arguments need no splitting;
`Cursor` joins it with what follows where an operator is expected.
-/

namespace TaggedMarkup.Script

open TaggedMarkup.Text

/-- The units that the grammar is written in. -/
inductive Token where
  /-- An identifier or a keyword, with its escapes decoded. -/
  | word (text : String) (escaped : Bool)
  /-- A private name, without its `#`. -/
  | secret (text : String)
  | number (text : String)
  /-- A string; one whose units do not pair up is not well formed. -/
  | string (value : String) (wellFormed : Bool)
  | sign (text : String)
  /-- The quote that opens a template. -/
  | tick
  | finish
  | malformed
  deriving DecidableEq, Repr, Inhabited

namespace Lexeme

/-- Whether the character ends a line. -/
def isNewline (c : Char) : Bool :=
  c == '\n' || c == '\r' || c == '\u2028' || c == '\u2029'

/-- Whether the character is blank and does not end a line. -/
def isSpace (c : Char) : Bool :=
  c == ' ' || c == '\t' || c == '\x0b' || c == '\x0c' || c == '\u0085' || c == '\u00a0'
    || c == '\u1680' || ('\u2000' ≤ c && c ≤ '\u200b') || c == '\u202f' || c == '\u205f'
    || c == '\u3000' || c == '\ufeff'

/-! ## Blanks and comments -/

/-- What kind of text between two tokens is being skipped. -/
inductive Gap where
  | blank
  | line
  | block
  deriving DecidableEq, Repr

/-- Whether one of the two marks stands here that hide a line from readers of markup: `<!--`, or
`-->` at the start of a line. -/
def startsHidden (newline : Bool) (cs : List Char) : Bool :=
  ['<', '!', '-', '-'].isPrefixOf cs || (newline && ['-', '-', '>'].isPrefixOf cs)

/-- Skips blanks and comments; lines may be hidden where `hides` holds. Returns the offset reached,
whether a line ended on the way, and the rest; a block comment has to be closed. -/
def skip (hides : Bool) : Gap → Nat → Bool → List Char → Option (Nat × Bool × List Char)
  | .block, _, _, [] => none
  | _, pos, newline, [] => some (pos, newline, [])
  | .blank, pos, newline, '/' :: '/' :: cs => skip hides .line (pos + 2) newline cs
  | .blank, pos, newline, '/' :: '*' :: cs => skip hides .block (pos + 2) newline cs
  | .blank, pos, newline, c :: cs =>
    if isNewline c then skip hides .blank (pos + c.utf8Size) true cs
    else if isSpace c then skip hides .blank (pos + c.utf8Size) newline cs
    else if hides && startsHidden newline (c :: cs) then skip hides .line (pos + 1) newline cs
    else some (pos, newline, c :: cs)
  | .line, pos, newline, c :: cs =>
    if isNewline c then skip hides .blank (pos + c.utf8Size) true cs
    else skip hides .line (pos + c.utf8Size) newline cs
  | .block, pos, newline, '*' :: '/' :: cs => skip hides .blank (pos + 2) newline cs
  | .block, pos, newline, c :: cs =>
    skip hides .block (pos + c.utf8Size) (newline || isNewline c) cs

/-- Drops a first line that starts with `#!`. -/
def skipHashbang : List Char → List Char
  | '#' :: '!' :: cs => cs.dropWhile fun c => !isNewline c
  | cs => cs

/-! ## Digits and code points -/

/-- The value of a hexadecimal digit. -/
def hexDigit? (c : Char) : Option Nat :=
  if '0' ≤ c && c ≤ '9' then some (c.toNat - 48)
  else if 'a' ≤ c && c ≤ 'f' then some (c.toNat - 87)
  else if 'A' ≤ c && c ≤ 'F' then some (c.toNat - 55)
  else none

/-- Whether a number is the code of a character, half of a pair of units, or neither. -/
def isCode (n : Nat) : Bool := n ≤ 0x10ffff

/-- The characters that a list of code points and UTF-16 units stands for: a high unit joins the
low unit after it, and a unit left alone is the replacement character. -/
def ofUnits : List Nat → List Char
  | [] => []
  | high :: low :: rest =>
    if 0xd800 ≤ high && high < 0xdc00 && 0xdc00 ≤ low && low < 0xe000 then
      Char.ofNat (0x10000 + (high - 0xd800) * 0x400 + (low - 0xdc00)) :: ofUnits rest
    else if 0xd800 ≤ high && high < 0xe000 then '\ufffd' :: ofUnits (low :: rest)
    else Char.ofNat high :: ofUnits (low :: rest)
  | [n] => if 0xd800 ≤ n && n < 0xe000 then ['\ufffd'] else [Char.ofNat n]

/-- Whether every high unit is followed by a low one and every low unit follows a high one. -/
def areWellFormed : List Nat → Bool
  | [] => true
  | high :: low :: rest =>
    if 0xd800 ≤ high && high < 0xdc00 then 0xdc00 ≤ low && low < 0xe000 && areWellFormed rest
    else !(0xdc00 ≤ high && high < 0xe000) && areWellFormed (low :: rest)
  | [n] => !(0xd800 ≤ n && n < 0xe000)

/-! ## Words -/

/-- How far the reading of an escape in a word has come. -/
inductive WordState where
  | plain
  | slash
  | digits (left value : Nat)
  | opened
  | braces (value : Nat)
  deriving DecidableEq, Repr

/-- Adds one character to a word, of which `acc` holds the characters read so far, last first.
The first character has to be one that starts an identifier. -/
def pushWord (acc : List Char) (c : Char) : Option (List Char) :=
  if acc.isEmpty then if startsIdent c then some [c] else none
  else if continuesIdent c then some (c :: acc) else none

/-- Reads a word. Returns its characters, whether an escape was among them, how many bytes it
takes, and the rest. -/
def readWord : WordState → Bool → List Char → Nat → List Char →
    Option (List Char × Bool × Nat × List Char)
  | .plain, escaped, acc, size, [] =>
    if acc.isEmpty then none else some (acc.reverse, escaped, size, [])
  | _, _, _, _, [] => none
  | .plain, escaped, acc, size, '\\' :: cs => readWord .slash escaped acc (size + 1) cs
  | .plain, escaped, acc, size, c :: cs =>
    match pushWord acc c with
    | some acc => readWord .plain escaped acc (size + c.utf8Size) cs
    | none => if acc.isEmpty then none else some (acc.reverse, escaped, size, c :: cs)
  | .slash, _, acc, size, 'u' :: cs => readWord .opened true acc (size + 1) cs
  | .slash, _, _, _, _ => none
  | .opened, escaped, acc, size, '\x7b' :: cs => readWord (.braces 0) escaped acc (size + 1) cs
  | .opened, escaped, acc, size, c :: cs => do
    let d ← hexDigit? c
    readWord (.digits 3 d) escaped acc (size + 1) cs
  | .digits left value, escaped, acc, size, c :: cs => do
    let d ← hexDigit? c
    let value := value * 16 + d
    if left ≤ 1 then readWord .plain escaped (← pushWord acc (Char.ofNat value)) (size + 1) cs
    else readWord (.digits (left - 1) value) escaped acc (size + 1) cs
  | .braces value, escaped, acc, size, '\x7d' :: cs => do
    readWord .plain escaped (← pushWord acc (Char.ofNat value)) (size + 1) cs
  | .braces value, escaped, acc, size, c :: cs => do
    let d ← hexDigit? c
    let value := value * 16 + d
    if isCode value then readWord (.braces value) escaped acc (size + 1) cs else none

/-! ## Numbers

All characters of a number take one byte, so its readers count characters. -/

/-- Whether no underscore stands behind another one or at the end. -/
def areSeparated : List Char → Bool
  | [] => true
  | ['_'] => false
  | '_' :: '_' :: _ => false
  | _ :: cs => areSeparated cs

/-- Digits with single underscores between them; `none` if there is no digit. Returns their number
added to `size`, and the rest. -/
def readDigits (isDigit : Char → Bool) (size : Nat) (cs : List Char) :
    Option (Nat × List Char) :=
  let digits := cs.takeWhile fun c => isDigit c || c == '_'
  if digits.isEmpty || digits.head? == some '_' || !areSeparated digits then none
  else some (size + digits.length, cs.dropWhile fun c => isDigit c || c == '_')

/-- The exponent of a decimal number, if one follows. -/
def readExponent : Nat × List Char → Option (Nat × List Char)
  | (size, 'e' :: '+' :: cs) | (size, 'e' :: '-' :: cs) | (size, 'E' :: '+' :: cs)
  | (size, 'E' :: '-' :: cs) => readDigits Char.isDigit (size + 2) cs
  | (size, 'e' :: cs) | (size, 'E' :: cs) => readDigits Char.isDigit (size + 1) cs
  | rest => some rest

/-- What may follow the integral digits of a decimal number. -/
def readFraction : Nat × List Char → Option (Nat × List Char)
  | (size, 'n' :: cs) => some (size + 1, cs)
  | (size, '.' :: c :: cs) =>
    if c.isDigit then (readDigits Char.isDigit (size + 1) (c :: cs)).bind readExponent
    else readExponent (size + 1, c :: cs)
  | (size, ['.']) => some (size + 1, [])
  | rest => readExponent rest

/-- The suffix of a big integer, if one follows. -/
def dropBig : Nat × List Char → Nat × List Char
  | (size, 'n' :: cs) => (size + 1, cs)
  | rest => rest

/-- Reads several digits that start with a zero. If they are all octal the number ends with them,
and it never is a big integer. -/
def readZeros (cs : List Char) : Option (Nat × List Char) :=
  let digits := cs.takeWhile Char.isDigit
  let rest := cs.dropWhile Char.isDigit
  if digits.all (· < '8') || rest.head? == some 'n' then some (digits.length, rest)
  else readFraction (digits.length, rest)

/-- Reads a number; neither a digit nor a word may stand directly behind it. -/
def readNumber (cs : List Char) : Option (Nat × List Char) := do
  let (size, rest) ← match cs with
    | '0' :: 'x' :: cs | '0' :: 'X' :: cs =>
      (readDigits (fun c => (hexDigit? c).isSome) 2 cs).map dropBig
    | '0' :: 'o' :: cs | '0' :: 'O' :: cs =>
      (readDigits (fun c => '0' ≤ c && c ≤ '7') 2 cs).map dropBig
    | '0' :: 'b' :: cs | '0' :: 'B' :: cs =>
      (readDigits (fun c => c == '0' || c == '1') 2 cs).map dropBig
    | '.' :: cs => (readDigits Char.isDigit 1 cs).bind readExponent
    | '0' :: c :: cs =>
      if c.isDigit then readZeros ('0' :: c :: cs) else readFraction (1, c :: cs)
    | cs => (readDigits Char.isDigit 0 cs).bind readFraction
  match rest with
  | c :: _ => if startsIdent c || c.isDigit || c == '\\' then none else some (size, rest)
  | [] => some (size, rest)

/-! ## Strings -/

/-- How far the reading of an escape in a string has come. -/
inductive StringState where
  /-- Outside an escape, or behind one in octal that may take so many digits more. -/
  | plain (octals : Nat)
  | slash
  | digits (left value : Nat)
  | opened
  | braces (value : Nat)
  deriving DecidableEq, Repr

/-- The code point of an escape of one character. -/
def simpleEscape (c : Char) : Nat :=
  match c with
  | 'n' => 10
  | 't' => 9
  | 'r' => 13
  | 'b' => 8
  | 'v' => 11
  | 'f' => 12
  | c => c.toNat

/-- Whether the character is an octal digit. -/
def isOctal (c : Char) : Bool := '0' ≤ c && c ≤ '7'

/-- Adds an octal digit to the code point read last. -/
def pushOctal (c : Char) : List Nat → List Nat
  | [] => []
  | n :: acc => (n * 8 + (c.toNat - 48)) :: acc

/-- Reads a string up to its closing quote. Returns the code points and units of its value, last
first, how many bytes were read, and the rest. -/
def readString (quote : Char) : StringState → List Nat → Nat → List Char →
    Option (List Nat × Nat × List Char)
  | _, _, _, [] => none
  | .plain _, acc, size, '\\' :: '\r' :: '\n' :: cs =>
    readString quote (.plain 0) acc (size + 3) cs
  | .plain _, acc, size, '\\' :: cs => readString quote .slash acc (size + 1) cs
  | .plain octals, acc, size, c :: cs =>
    if c == quote then some (acc, size + 1, cs)
    else if c == '\n' || c == '\r' then none
    else if 0 < octals && isOctal c then
      readString quote (.plain (octals - 1)) (pushOctal c acc) (size + 1) cs
    else readString quote (.plain 0) (c.toNat :: acc) (size + c.utf8Size) cs
  | .slash, acc, size, 'x' :: cs => readString quote (.digits 2 0) acc (size + 1) cs
  | .slash, acc, size, 'u' :: cs => readString quote .opened acc (size + 1) cs
  | .slash, acc, size, c :: cs =>
    if isNewline c then readString quote (.plain 0) acc (size + c.utf8Size) cs
    else if isOctal c then
      readString quote (.plain (if c ≤ '3' then 2 else 1)) ((c.toNat - 48) :: acc) (size + 1) cs
    else readString quote (.plain 0) (simpleEscape c :: acc) (size + c.utf8Size) cs
  | .opened, acc, size, '\x7b' :: c :: cs => do
    let d ← hexDigit? c
    readString quote (.braces d) acc (size + 2) cs
  | .opened, acc, size, c :: cs => do
    let d ← hexDigit? c
    readString quote (.digits 3 d) acc (size + 1) cs
  | .digits left value, acc, size, c :: cs => do
    let d ← hexDigit? c
    let value := value * 16 + d
    if left ≤ 1 then readString quote (.plain 0) (value :: acc) (size + 1) cs
    else readString quote (.digits (left - 1) value) acc (size + 1) cs
  | .braces value, acc, size, '\x7d' :: cs =>
    readString quote (.plain 0) (value :: acc) (size + 1) cs
  | .braces value, acc, size, c :: cs => do
    let d ← hexDigit? c
    let value := value * 16 + d
    if isCode value then readString quote (.braces value) acc (size + 1) cs else none

/-! ## Templates -/

/-- How a literal part of a template ends: at the closing quote or in front of a hole. -/
inductive ChunkEnd where
  | quote
  | hole
  deriving DecidableEq, Repr

/-- Reads a literal part of a template. Returns its raw characters, last first, how many bytes it
takes with its end, how it ends, and the rest. All line ends become `\n`. -/
def readChunk : Nat → List Char → List Char → Option (List Char × Nat × ChunkEnd × List Char)
  | _, _, [] => none
  | size, acc, '\x60' :: cs => some (acc, size + 1, .quote, cs)
  | size, acc, '$' :: '\x7b' :: cs => some (acc, size + 2, .hole, cs)
  | size, acc, '\\' :: '\r' :: '\n' :: cs => readChunk (size + 3) ('\n' :: '\\' :: acc) cs
  | size, acc, '\\' :: '\r' :: cs => readChunk (size + 2) ('\n' :: '\\' :: acc) cs
  | size, acc, '\\' :: c :: cs => readChunk (size + 1 + c.utf8Size) (c :: '\\' :: acc) cs
  | size, acc, '\r' :: '\n' :: cs => readChunk (size + 2) ('\n' :: acc) cs
  | size, acc, '\r' :: cs => readChunk (size + 1) ('\n' :: acc) cs
  | size, acc, c :: cs => readChunk (size + c.utf8Size) (c :: acc) cs

/-- Whether every escape of raw template text stands for something; a template without a tag has
to satisfy it. -/
def validEscapes (raw : List Char) : Bool :=
  match raw with
  | [] => true
  | '\\' :: '0' :: cs =>
    (match cs with
      | c :: _ => !c.isDigit
      | [] => true) && validEscapes cs
  | '\\' :: 'x' :: cs =>
    (match cs with
      | a :: b :: _ => (hexDigit? a).isSome && (hexDigit? b).isSome
      | _ => false) && validEscapes cs
  | '\\' :: 'u' :: cs =>
    (match cs with
      | '\x7b' :: cs =>
        let digits := cs.takeWhile fun c => (hexDigit? c).isSome
        !digits.isEmpty && (cs.dropWhile fun c => (hexDigit? c).isSome).head? == some '\x7d'
          && isCode (digits.foldl (fun n c => n * 16 + (hexDigit? c).getD 0) 0)
      | a :: b :: c :: d :: _ => [a, b, c, d].all fun c => (hexDigit? c).isSome
      | _ => false) && validEscapes cs
  | '\\' :: c :: cs => !c.isDigit && validEscapes cs
  | _ :: cs => validEscapes cs

/-! ## Regular expressions -/

/-- Where in the body of a regular expression the reading is. -/
inductive RegexState where
  | body
  | set
  | bodySlash
  | setSlash
  deriving DecidableEq, Repr

/-- Reads the body of a regular expression up to its closing slash. Returns the bytes read and
the rest. -/
def readRegexBody : RegexState → Nat → List Char → Option (Nat × List Char)
  | _, _, [] => none
  | state, size, c :: cs =>
    let size := size + c.utf8Size
    if isNewline c then none
    else match state with
      | .bodySlash => readRegexBody .body size cs
      | .setSlash => readRegexBody .set size cs
      | .body =>
        if c == '\\' then readRegexBody .bodySlash size cs
        else if c == '[' then readRegexBody .set size cs
        else if c == '/' then some (size, cs)
        else readRegexBody .body size cs
      | .set =>
        if c == '\\' then readRegexBody .setSlash size cs
        else if c == ']' then readRegexBody .body size cs
        else readRegexBody .set size cs

/-- Reads the flags of a regular expression: known letters, none of them twice, and not both ways
of matching whole characters. -/
def readRegexFlags : Nat × List Char → Option (Nat × List Char)
  | (size, cs) =>
    let flags := cs.takeWhile continuesIdent
    if flags.all (fun c => ['d', 'g', 'i', 'm', 's', 'u', 'v', 'y'].contains c)
        && flags.eraseDups.length == flags.length
        && !(flags.contains 'u' && flags.contains 'v') then
      some (size + flags.length, cs.dropWhile continuesIdent)
    else none

/-- Reads a regular expression that starts with a slash. -/
def readRegex : List Char → Option (Nat × List Char)
  | '/' :: cs => (readRegexBody .body 1 cs).bind readRegexFlags
  | _ => none

/-! ## Signs -/

/-- The signs of more than one character, the longer ones first. -/
def longSigns : List String :=
  ["...", "===", "!==", "**=", "<<=", "&&=", "||=", "??=",
   "=>", "==", "!=", "<=", "<<", "**", "*=", "++", "+=", "--", "-=", "/=", "%=", "&&", "&=",
   "||", "|=", "^=", "??"]

/-- The signs of one character. -/
def shortSigns : List Char :=
  ['\x7b', '\x7d', '(', ')', '[', ']', ';', ',', '<', '>', '+', '-', '*', '/', '%', '&', '|', '^',
   '!', '~', '?', ':', '=', '.', '@']

/-- Reads the longest sign. `?.` in front of a digit is two signs. -/
def readSign (cs : List Char) : Option (String × Nat × List Char) :=
  match longSigns.find? fun s => s.toList.isPrefixOf cs with
  | some s => some (s, s.toList.length, cs.drop s.toList.length)
  | none =>
    match cs with
    | '?' :: '.' :: c :: rest =>
      if c.isDigit then some ("?", 1, '.' :: c :: rest) else some ("?.", 2, c :: rest)
    | ['?', '.'] => some ("?.", 2, [])
    | c :: rest => if shortSigns.contains c then some (String.singleton c, 1, rest) else none
    | [] => none

/-! ## Tokens -/

/-- Reads one token in front of which there is no blank. Returns its size in bytes and the rest
behind it; the text ends with the token `finish`, over and over. -/
def readToken (cs : List Char) : Token × Nat × List Char :=
  match cs with
  | [] => (.finish, 0, [])
  | '\x60' :: rest => (.tick, 1, rest)
  | '#' :: rest =>
    match readWord .plain false [] 1 rest with
    | some (text, _, size, rest) => (.secret (String.ofList text), size, rest)
    | none => (.malformed, 0, [])
  | c :: rest =>
    if c == '\x22' || c == '\x27' then
      match readString c (.plain 0) [] 1 rest with
      | some (units, size, rest) =>
        let units := units.reverse
        (.string (String.ofList (ofUnits units)) (areWellFormed units), size, rest)
      | none => (.malformed, 0, [])
    else if c.isDigit || (c == '.' && (rest.head?.map Char.isDigit).getD false) then
      match readNumber cs with
      | some (size, rest) => (.number (String.ofList (cs.take size)), size, rest)
      | none => (.malformed, 0, [])
    else if startsIdent c || c == '\\' then
      match readWord .plain false [] 0 cs with
      | some (text, escaped, size, rest) => (.word (String.ofList text) escaped, size, rest)
      | none => (.malformed, 0, [])
    else
      match readSign cs with
      | some (text, size, rest) => (.sign text, size, rest)
      | none => (.malformed, 0, [])

end Lexeme

end TaggedMarkup.Script

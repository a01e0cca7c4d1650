import TaggedMarkup.Json.Value

/-!
# Reading JSON

The reader is strict: no comments, no trailing commas, no leading zeros, and nothing but blanks
around the value.
-/

namespace TaggedMarkup.Json

/-- Skips blanks. -/
def skipBlanks : List Char → List Char
  | [] => []
  | c :: cs => if c == ' ' || c == '\n' || c == '\t' || c == '\r' then skipBlanks cs else c :: cs

/-- The value of a hexadecimal digit. -/
def hexValue? (c : Char) : Option Nat :=
  if c.isDigit then some (c.toNat - 48)
  else if 'a' ≤ c && c ≤ 'f' then some (c.toNat - 87)
  else if 'A' ≤ c && c ≤ 'F' then some (c.toNat - 55)
  else none

/-- Reads four hexadecimal digits. -/
def readHex : List Char → Option (Nat × List Char)
  | a :: b :: c :: d :: cs => do
    return ((((← hexValue? a) * 16 + (← hexValue? b)) * 16 + (← hexValue? c)) * 16
      + (← hexValue? d), cs)
  | _ => none

/-- The character of an escape with a single letter. -/
def shortEscape? (c : Char) : Option Char :=
  if c = '\x22' || c = '\\' || c = '/' then some c
  else if c = 'b' then some '\x08'
  else if c = 'f' then some '\x0c'
  else if c = 'n' then some '\n'
  else if c = 'r' then some '\r'
  else if c = 't' then some '\t'
  else none

/-- A unit of a string: a character, or the value of an escape with four digits. -/
inductive Part where
  | char (c : Char)
  | code (n : Nat)
  deriving DecidableEq, Repr

/-- Reads the units of a string up to its closing quote. -/
def readParts : Nat → List Char → Option (List Part × List Char)
  | 0, _ => none
  | _ + 1, [] => none
  | n + 1, c :: cs =>
    if c = '\x22' then some ([], cs)
    else if c = '\\' then
      match cs with
      | 'u' :: cs => do
        let (code, cs) ← readHex cs
        let (parts, cs) ← readParts n cs
        return (.code code :: parts, cs)
      | e :: cs => do
        let c ← shortEscape? e
        let (parts, cs) ← readParts n cs
        return (.char c :: parts, cs)
      | [] => none
    else if c.toNat < 32 then none
    else do
      let (parts, cs) ← readParts n cs
      return (.char c :: parts, cs)

/-- Whether a code is the first half of a surrogate pair. -/
def isHigh (n : Nat) : Bool := 0xD800 ≤ n && n < 0xDC00

/-- Whether a code is the second half of a surrogate pair. -/
def isLow (n : Nat) : Bool := 0xDC00 ≤ n && n < 0xE000

/-- The text of the units of a string. -/
def decode : List Part → Option (List Char)
  | [] => some []
  | .char c :: parts => (decode parts).map (c :: ·)
  | .code n :: .code m :: parts =>
    if isHigh n then
      if isLow m then
        (decode parts).map (Char.ofNat (0x10000 + (n - 0xD800) * 0x400 + (m - 0xDC00)) :: ·)
      else none
    else if isLow n then none
    else (decode (.code m :: parts)).map (Char.ofNat n :: ·)
  | .code n :: parts =>
    if isHigh n || isLow n then none else (decode parts).map (Char.ofNat n :: ·)

/-- Reads a string behind its opening quote. -/
def readString (cs : List Char) : Option (Option String × List Char) := do
  let (parts, cs) ← readParts (cs.length + 1) cs
  return ((decode parts).map String.ofList, cs)

/-- Skips digits, of which there has to be one. -/
def skipDigits (cs : List Char) : Option (List Char) :=
  match cs with
  | c :: _ => if c.isDigit then some (cs.dropWhile Char.isDigit) else none
  | [] => none

/-- Skips the digits in front of a decimal point. Several do not start with zero. -/
def skipWhole : List Char → Option (List Char)
  | '0' :: c :: cs => if c.isDigit then none else some (c :: cs)
  | cs => skipDigits cs

/-- Skips the digits behind a decimal point, if there is one. -/
def skipFraction : List Char → Option (List Char)
  | '.' :: cs => skipDigits cs
  | cs => some cs

/-- Skips an exponent, if there is one. -/
def skipExponent : List Char → Option (List Char)
  | c :: cs =>
    if c = 'e' || c = 'E' then
      match cs with
      | '+' :: cs => skipDigits cs
      | '-' :: cs => skipDigits cs
      | cs => skipDigits cs
    else some (c :: cs)
  | [] => some []

/-- Skips a number. -/
def skipNumber (cs : List Char) : Option (List Char) := do
  let cs := match cs with
    | '-' :: cs => cs
    | cs => cs
  skipExponent (← skipFraction (← skipWhole cs))

mutual

/-- Reads a value. -/
def readValue : Nat → List Char → Option (Json × List Char)
  | 0, _ => none
  | n + 1, cs =>
    match skipBlanks cs with
    | 'n' :: 'u' :: 'l' :: 'l' :: cs => some (.null, cs)
    | 't' :: 'r' :: 'u' :: 'e' :: cs => some (.bool true, cs)
    | 'f' :: 'a' :: 'l' :: 's' :: 'e' :: cs => some (.bool false, cs)
    | '\x22' :: cs => do
      let (text, cs) ← readString cs
      return (.string text, cs)
    | '[' :: cs =>
      match skipBlanks cs with
      | ']' :: cs => some (.array [], cs)
      | cs => do
        let (items, cs) ← readItems n cs
        return (.array items, cs)
    | '\x7b' :: cs =>
      match skipBlanks cs with
      | '\x7d' :: cs => some (.object [], cs)
      | cs => do
        let (members, cs) ← readMembers n cs
        return (.object members, cs)
    | cs => do
      let cs ← skipNumber cs
      return (.number, cs)

/-- Reads the items of an array up to its end. -/
def readItems : Nat → List Char → Option (List Json × List Char)
  | 0, _ => none
  | n + 1, cs => do
    let (item, cs) ← readValue n cs
    match skipBlanks cs with
    | ',' :: cs =>
      let (items, cs) ← readItems n cs
      return (item :: items, cs)
    | ']' :: cs => return ([item], cs)
    | _ => none

/-- Reads the members of an object up to its end. -/
def readMembers : Nat → List Char → Option (List (Option String × Json) × List Char)
  | 0, _ => none
  | n + 1, cs => do
    match skipBlanks cs with
    | '\x22' :: cs =>
      let (key, cs) ← readString cs
      match skipBlanks cs with
      | ':' :: cs =>
        let (value, cs) ← readValue n cs
        match skipBlanks cs with
        | ',' :: cs =>
          let (members, cs) ← readMembers n cs
          return ((key, value) :: members, cs)
        | '\x7d' :: cs => return ([(key, value)], cs)
        | _ => none
      | _ => none
    | _ => none

end

/-- Reads a text that holds one value. -/
def read? (text : String) : Option Json := do
  let cs := text.toList
  let (value, rest) ← readValue (2 * cs.length + 2) cs
  guard (skipBlanks rest).isEmpty
  return value

end TaggedMarkup.Json

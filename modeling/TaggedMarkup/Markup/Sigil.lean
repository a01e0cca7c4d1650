/-!
# Sigils and block markers

The last character in front of a hole may be a sigil, which tells how the hole follows its value.
The first character behind a hole may be the block marker. A backslash takes the meaning away from
either, and is dropped itself.
-/

namespace TaggedMarkup.Markup

/-- How a hole follows its value. -/
inductive Sigil where
  | none
  | map
  | subscribe
  | once
  deriving DecidableEq, Repr, Inhabited

/-- The sigil that a character is. -/
def Sigil.ofChar? (c : Char) : Option Sigil :=
  if c = '*' then some .map
  else if c = '^' then some .subscribe
  else if c = '$' then some .once
  else Option.none

/-- Whether the number of backslashes at the start of a list is odd. -/
def oddBackslashes : List Char → Bool
  | '\\' :: cs => !oddBackslashes cs
  | _ => false

/-- Reads the sigil off the end of a chunk, given as its characters from last to first. -/
def scanSigilReversed : List Char → Sigil × List Char
  | [] => (.none, [])
  | c :: body =>
    match Sigil.ofChar? c with
    | Option.none => (.none, c :: body)
    | some sigil => if oddBackslashes body then (.none, c :: body.drop 1) else (sigil, body)

/-- Reads the sigil off the end of a chunk. -/
def scanSigil (chunk : String) : Sigil × String :=
  let (sigil, text) := scanSigilReversed chunk.toList.reverse
  (sigil, String.ofList text.reverse)

/-- Reads the block marker off the start of a list of characters. -/
def scanBlockList : List Char → Bool × List Char
  | '#' :: cs => (true, cs)
  | '\\' :: '#' :: cs => (false, '#' :: cs)
  | cs => (false, cs)

/-- Reads the block marker off the start of a chunk. -/
def scanBlock (chunk : String) : Bool × String :=
  let (block, text) := scanBlockList chunk.toList
  (block, String.ofList text)

end TaggedMarkup.Markup

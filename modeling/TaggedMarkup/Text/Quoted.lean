/-!
# Quoted strings

A quoted string stands between double quotes. The quote, the backslash and the characters below
the blank are escaped, the latter with a letter of their own where there is one and with four
hexadecimal digits otherwise; all other characters stand for themselves.
-/

namespace TaggedMarkup.Text.Quoted

/-- A hexadecimal digit below sixteen. -/
def hexDigit (n : Nat) : Char := if n < 10 then Char.ofNat (48 + n) else Char.ofNat (87 + n)

/-- The escape of a character, or the character itself. -/
def escape (c : Char) : List Char :=
  if c = '\x22' then ['\\', '\x22']
  else if c = '\\' then ['\\', '\\']
  else if c = '\x08' then ['\\', 'b']
  else if c = '\x0c' then ['\\', 'f']
  else if c = '\n' then ['\\', 'n']
  else if c = '\r' then ['\\', 'r']
  else if c = '\t' then ['\\', 't']
  else if c.toNat < 32 then ['\\', 'u', '0', '0', hexDigit (c.toNat / 16), hexDigit (c.toNat % 16)]
  else [c]

/-- The characters between the quotes. -/
def escapeAll (cs : List Char) : List Char := cs.flatMap escape

/-- The quoted form of a text. -/
def quote (s : String) : String :=
  String.ofList ('\x22' :: escapeAll s.toList ++ ['\x22'])

end TaggedMarkup.Text.Quoted

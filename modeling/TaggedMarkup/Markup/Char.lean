/-!
# Character classes of markup
-/

namespace TaggedMarkup.Markup

/-- Tab, line feed, form feed, carriage return and blank. -/
def isBlank (c : Char) : Bool :=
  c == '\t' || c == '\n' || c == '\x0c' || c == '\r' || c == ' '

/-- A letter of ASCII. -/
def isLetter (c : Char) : Bool := c.isAlpha

/-- A single or a double quote. -/
def isQuote (c : Char) : Bool := c == '\x27' || c == '\x22'

/-- A character that cannot be part of a tag or attribute name. -/
def endsName (c : Char) : Bool :=
  isBlank c || c == '>' || c == '/' || c == '=' || c == '<' || isQuote c

end TaggedMarkup.Markup

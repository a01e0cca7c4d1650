/-!
# Elements

Void elements have neither children nor an end tag. The case of a name makes no difference.
-/

namespace TaggedMarkup.Markup

/-- The lower-case form of a letter, where it is a letter of ASCII. Besides the capitals of ASCII
only the kelvin sign has such a form. -/
def lowerLetter (c : Char) : Char := if c == '\u212a' then 'k' else c.toLower

/-- The names of the void elements. -/
def voidNames : List String :=
  ["area", "base", "br", "col", "embed", "hr", "img", "input", "link", "meta", "param", "source",
   "track", "wbr"]

/-- Whether a name is that of a void element. -/
def isVoid (name : String) : Bool :=
  voidNames.contains (String.ofList (name.toList.map lowerLetter))

/-- Whether two names differ at most in the case of letters of ASCII. -/
def sameName (a b : String) : Bool :=
  a.toList.map Char.toLower == b.toList.map Char.toLower

end TaggedMarkup.Markup

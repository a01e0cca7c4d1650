/-!
# Splitting texts
-/

namespace TaggedMarkup.Text

/-- The parts of a text between the places of a character, of which there is one more than there
are places. -/
def split (sep : Char) : List Char → List (List Char)
  | [] => [[]]
  | c :: cs =>
    if c = sep then [] :: split sep cs
    else
      match split sep cs with
      | [] => [[c]]
      | part :: parts => (c :: part) :: parts

/-- The parts of a text, where an empty last part does not count. -/
def splitTerminated (sep : Char) (cs : List Char) : List (List Char) :=
  let parts := split sep cs
  if parts.getLast? == some [] then parts.dropLast else parts

/-- Whether a text starts with another one. -/
def startsWith : List Char → List Char → Bool
  | _, [] => true
  | [], _ :: _ => false
  | c :: cs, d :: ds => c == d && startsWith cs ds

/-- Whether a text has another one somewhere inside. -/
def contains (part : List Char) : List Char → Bool
  | [] => part.isEmpty
  | c :: cs => startsWith (c :: cs) part || contains part cs

end TaggedMarkup.Text

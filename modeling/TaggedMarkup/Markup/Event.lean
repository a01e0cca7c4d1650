/-!
# Markup events and the places of holes
-/

namespace TaggedMarkup.Markup

/-- What the lexer reports while it reads markup. -/
inductive Event where
  | openTag (name : String)
  | attribute (name : String) (value : Option String)
  | openTagEnd (selfClosing : Bool)
  | text (text : String)
  | closeTag (name : String)
  | comment (text : String)
  | finish
  deriving DecidableEq, Repr

/-- Where in the markup a hole falls. -/
inductive Place where
  | text
  | attributeValue (name : String)
  | partOfValue (name : String)
  | tagName (name : String)
  | tagOpening
  | inTag
  | closingTag
  | comment
  deriving DecidableEq, Repr

/-- A place in the words of a report. -/
def Place.describe : Place → String
  | .text => "text"
  | .attributeValue name => s!"attribute \"{name}\""
  | .partOfValue name => s!"partial value of attribute \"{name}\""
  | .tagName name => s!"tag name <{name}"
  | .tagOpening => "tag opening"
  | .inTag => "open tag"
  | .closingTag => "closing tag"
  | .comment => "comment"

end TaggedMarkup.Markup

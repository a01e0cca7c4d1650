import TaggedMarkup.Failure
import TaggedMarkup.Markup.Char

/-!
# The markup lexer

The lexer reads markup one character at a time and reports events. Markup comes in chunks with a
hole between one and the next, so all that the lexer knows stands in its state, and between two
chunks it can tell the place into which the hole falls.

A step never fails without a new state: after a fault the state is the one that the fault left.
-/

namespace TaggedMarkup.Markup

/-- What the lexer is in the middle of. -/
inductive Mode where
  | text
  | tagOpening
  | tagName
  | beforeAttribute
  | attributeName
  | afterAttribute
  | beforeValue
  | quotedValue (quote : Char)
  | unquotedValue
  | selfClosing
  | closingName
  | afterClosingName
  | declaration
  | commentDash
  | comment
  | commentEndDash
  | commentEnd
  | bogusComment
  deriving DecidableEq, Repr

/-- The state of the lexer: its mode and the unfinished parts. A value is bound once a hole has
claimed it between its quotes. -/
structure Lexer where
  mode : Mode := .text
  text : String := ""
  tag : String := ""
  name : String := ""
  value : String := ""
  comment : String := ""
  bound : Bool := false
  deriving DecidableEq, Repr

/-- What a piece of input does: the state behind it, the events on the way, and the fault that
stopped the lexer, if one did. -/
structure Outcome where
  lexer : Lexer
  events : List Event := []
  fault : Option Cause := none
  deriving DecidableEq, Repr

namespace Outcome

/-- Puts events in front of an outcome. -/
def after (events : List Event) (o : Outcome) : Outcome :=
  { o with events := events ++ o.events }

/-- Goes on from an outcome, unless it is a fault. -/
def andThen (o : Outcome) (next : Lexer → Outcome) : Outcome :=
  match o.fault with
  | none => (next o.lexer).after o.events
  | some _ => o

end Outcome

namespace Lexer

/-- The state before any input. -/
def empty : Lexer := {}

/-- The event of the pending text. There is none for the empty text. -/
def pendingText (l : Lexer) : List Event := if l.text = "" then [] else [.text l.text]

/-- Reports the end of a start tag. -/
def endOpenTag (l : Lexer) (selfClosing : Bool) : Outcome :=
  { lexer := { l with mode := .text }, events := [.openTagEnd selfClosing] }

/-- Reports an end tag. -/
def endCloseTag (l : Lexer) : Outcome :=
  { lexer := { l with mode := .text, tag := "" }, events := [.closeTag l.tag] }

/-- Reports a comment. -/
def endComment (l : Lexer) : Outcome :=
  { lexer := { l with mode := .text, comment := "" }, events := [.comment l.comment] }

/-- A character of text. -/
def stepText (l : Lexer) (c : Char) : Outcome :=
  if c = '<' then { lexer := { l with mode := .tagOpening } }
  else { lexer := { l with text := l.text.push c } }

/-- The character behind a `<`, which is part of the text unless it starts a tag or a comment. -/
def stepTagOpening (l : Lexer) (c : Char) : Outcome :=
  if isLetter c || c == '#' then
    { lexer := { l with mode := .tagName, text := "", tag := String.singleton c },
      events := l.pendingText }
  else if c = '/' then
    { lexer := { l with mode := .closingName, text := "", tag := "" }, events := l.pendingText }
  else if c = '!' then
    { lexer := { l with mode := .declaration, text := "", comment := "" }, events := l.pendingText }
  else stepText { l with mode := .text, text := l.text.push '<' } c

/-- A character in front of an attribute. -/
def stepBeforeAttribute (l : Lexer) (c : Char) : Outcome :=
  if isBlank c then { lexer := l }
  else if c = '>' then l.endOpenTag false
  else if c = '/' then { lexer := { l with mode := .selfClosing } }
  else if c == '=' || isQuote c || c == '<' then
    { lexer := l, fault := some (.markup (.inTag c l.tag)) }
  else { lexer := { l with mode := .attributeName, name := String.singleton c } }

/-- A character of a tag name, which ends in front of the first character that cannot be in it. -/
def stepTagName (l : Lexer) (c : Char) : Outcome :=
  if endsName c then
    (stepBeforeAttribute { l with mode := .beforeAttribute } c).after [.openTag l.tag]
  else { lexer := { l with tag := l.tag.push c } }

/-- A character behind an attribute name. Without an equals sign the attribute has no value. -/
def stepAfterAttribute (l : Lexer) (c : Char) : Outcome :=
  if isBlank c then { lexer := l }
  else if c = '=' then { lexer := { l with mode := .beforeValue, value := "" } }
  else
    (stepBeforeAttribute { l with mode := .beforeAttribute, name := "" } c).after
      [.attribute l.name none]

/-- A character of an attribute name. -/
def stepAttributeName (l : Lexer) (c : Char) : Outcome :=
  if endsName c then stepAfterAttribute { l with mode := .afterAttribute } c
  else { lexer := { l with name := l.name.push c } }

/-- A character in front of an attribute value. -/
def stepBeforeValue (l : Lexer) (c : Char) : Outcome :=
  if isBlank c then { lexer := l }
  else if isQuote c then { lexer := { l with mode := .quotedValue c } }
  else if c = '>' then
    (endOpenTag { l with name := "" } false).after [.attribute l.name (some "")]
  else { lexer := { l with mode := .unquotedValue, value := l.value.push c } }

/-- A character of a value between quotes. Beside a hole there may be nothing else. -/
def stepQuotedValue (l : Lexer) (quote c : Char) : Outcome :=
  if c = quote then
    if l.bound then { lexer := { l with mode := .beforeAttribute, bound := false } }
    else
      { lexer := { l with mode := .beforeAttribute, name := "", value := "" },
        events := [.attribute l.name (some l.value)] }
  else if l.bound then { lexer := l, fault := some (.unsupported .textAfterHole) }
  else { lexer := { l with value := l.value.push c } }

/-- A character of a value without quotes. -/
def stepUnquotedValue (l : Lexer) (c : Char) : Outcome :=
  if isBlank c || c == '>' then
    let ended := { l with mode := .beforeAttribute, name := "", value := "" }
    (if c = '>' then endOpenTag ended false else { lexer := ended }).after
      [.attribute l.name (some l.value)]
  else { lexer := { l with value := l.value.push c } }

/-- The character behind a slash in a start tag. -/
def stepSelfClosing (l : Lexer) (c : Char) : Outcome :=
  if c = '>' then l.endOpenTag true
  else stepBeforeAttribute { l with mode := .beforeAttribute } c

/-- A character of the name in an end tag. -/
def stepClosingName (l : Lexer) (c : Char) : Outcome :=
  if c = '>' then l.endCloseTag
  else if isBlank c then { lexer := { l with mode := .afterClosingName } }
  else { lexer := { l with tag := l.tag.push c } }

/-- A character behind the name in an end tag. -/
def stepAfterClosingName (l : Lexer) (c : Char) : Outcome :=
  if c = '>' then l.endCloseTag
  else if isBlank c then { lexer := l }
  else { lexer := l, fault := some (.markup (.inClosingTag c l.tag)) }

/-- A character of a comment that has no dashes around it. -/
def stepBogusComment (l : Lexer) (c : Char) : Outcome :=
  if c = '>' then l.endComment else { lexer := { l with comment := l.comment.push c } }

/-- The character behind `<!`. -/
def stepDeclaration (l : Lexer) (c : Char) : Outcome :=
  if c = '-' then { lexer := { l with mode := .commentDash } }
  else stepBogusComment { l with mode := .bogusComment } c

/-- The character behind `<!-`. -/
def stepCommentDash (l : Lexer) (c : Char) : Outcome :=
  if c = '-' then { lexer := { l with mode := .comment } }
  else stepBogusComment { l with mode := .bogusComment, comment := l.comment.push '-' } c

/-- A character of a comment. -/
def stepComment (l : Lexer) (c : Char) : Outcome :=
  if c = '-' then { lexer := { l with mode := .commentEndDash } }
  else { lexer := { l with comment := l.comment.push c } }

/-- The character behind a dash in a comment. -/
def stepCommentEndDash (l : Lexer) (c : Char) : Outcome :=
  if c = '-' then { lexer := { l with mode := .commentEnd } }
  else { lexer := { l with mode := .comment, comment := (l.comment.push '-').push c } }

/-- The character behind two dashes in a comment. -/
def stepCommentEnd (l : Lexer) (c : Char) : Outcome :=
  if c = '>' then l.endComment
  else if c = '-' then { lexer := { l with comment := l.comment.push '-' } }
  else
    { lexer := { l with mode := .comment, comment := ((l.comment.push '-').push '-').push c } }

/-- Reads a character. -/
def step (l : Lexer) (c : Char) : Outcome :=
  match l.mode with
  | .text => l.stepText c
  | .tagOpening => l.stepTagOpening c
  | .tagName => l.stepTagName c
  | .beforeAttribute => l.stepBeforeAttribute c
  | .attributeName => l.stepAttributeName c
  | .afterAttribute => l.stepAfterAttribute c
  | .beforeValue => l.stepBeforeValue c
  | .quotedValue quote => l.stepQuotedValue quote c
  | .unquotedValue => l.stepUnquotedValue c
  | .selfClosing => l.stepSelfClosing c
  | .closingName => l.stepClosingName c
  | .afterClosingName => l.stepAfterClosingName c
  | .declaration => l.stepDeclaration c
  | .commentDash => l.stepCommentDash c
  | .comment => l.stepComment c
  | .commentEndDash => l.stepCommentEndDash c
  | .commentEnd => l.stepCommentEnd c
  | .bogusComment => l.stepBogusComment c

/-- Reads characters up to the first fault. -/
def writeList (l : Lexer) : List Char → Outcome
  | [] => { lexer := l }
  | c :: cs => (l.step c).andThen fun l' => l'.writeList cs

/-- Reads a chunk up to the first fault. -/
def write (l : Lexer) (chunk : String) : Outcome := l.writeList chunk.toList

/-- Reports the text read so far, so that what comes next stands behind it. -/
def flush (l : Lexer) : Outcome :=
  match l.mode with
  | .text => { lexer := { l with text := "" }, events := l.pendingText }
  | _ => { lexer := l }

/-- Gives the pending attribute value to a hole. The name of the attribute is used up, also when
the hole cannot have the value. -/
def bindValue (l : Lexer) : Lexer × Except Cause String :=
  let unnamed := { l with name := "" }
  match l.mode with
  | .beforeValue => ({ unnamed with mode := .beforeAttribute }, .ok l.name)
  | .quotedValue _ =>
    if l.value = "" then ({ unnamed with bound := true }, .ok l.name)
    else (unnamed, .error (.unsupported (.partOfValue l.name)))
  | _ => (unnamed, .error (.unsupported (.partOfValue l.name)))

/-- Ends the input. -/
def finish (l : Lexer) : Outcome :=
  match l.mode with
  | .text => l.flush.andThen fun l' => { lexer := l', events := [.finish] }
  | .tagOpening =>
    (flush { l with mode := .text, text := l.text.push '<' }).andThen fun l' =>
      { lexer := l', events := [.finish] }
  | .declaration | .commentDash | .comment | .commentEndDash | .commentEnd | .bogusComment =>
    { lexer := l, fault := some (.markup .openComment) }
  | _ => { lexer := l, fault := some (.markup (.openTag l.tag)) }

/-- The place of a hole at this point. -/
def place (l : Lexer) : Place :=
  match l.mode with
  | .text => .text
  | .tagName => .tagName l.tag
  | .beforeValue => .attributeValue l.name
  | .quotedValue _ => if l.value = "" then .attributeValue l.name else .partOfValue l.name
  | .unquotedValue => .partOfValue l.name
  | .tagOpening => .tagOpening
  | .closingName | .afterClosingName => .closingTag
  | .declaration | .commentDash | .comment | .commentEndDash | .commentEnd | .bogusComment =>
    .comment
  | .beforeAttribute | .attributeName | .afterAttribute | .selfClosing => .inTag

end Lexer

end TaggedMarkup.Markup

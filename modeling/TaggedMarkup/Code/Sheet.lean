import TaggedMarkup.Text.Quoted

/-!
# Sheets of code

A sheet collects code line by line, with an indent of two blanks for each level. Every line but
the first also gets the margin, which is the indent of the line into which the code goes.
-/

namespace TaggedMarkup.Code

/-- A line and its level of indent. -/
structure Line where
  indent : Nat
  text : String := ""
  deriving DecidableEq, Repr

namespace Line

/-- Whether nothing is on a line. -/
def isEmpty (l : Line) : Bool := l.text == ""

/-- The text of a line behind a margin. An empty line has neither margin nor indent. -/
def render (margin : String) (l : Line) : String :=
  if l.isEmpty then "" else margin ++ String.join (List.replicate l.indent "  ") ++ l.text

end Line

/-- Code under construction: the finished lines, the line that is being written, the level of
indent for the next one, and the margin. -/
structure Sheet where
  finished : List Line := []
  current : Line := ⟨0, ""⟩
  indent : Nat := 0
  margin : String := ""
  deriving DecidableEq, Repr

namespace Sheet

/-- An empty sheet that starts at a level of indent. -/
def atIndent (indent : Nat) : Sheet := { current := ⟨indent, ""⟩, indent := indent }

/-- An empty sheet with a margin. -/
def withMargin (margin : String) : Sheet := { margin := margin }

/-- Whether the line that is being written is empty. -/
def lineIsEmpty (s : Sheet) : Bool := s.current.isEmpty

/-- Adds text to the line. -/
def print (s : Sheet) (text : String) : Sheet :=
  { s with current := { s.current with text := s.current.text ++ text } }

/-- Starts a new line. -/
def newLine (s : Sheet) : Sheet :=
  { s with finished := s.finished ++ [s.current], current := ⟨s.indent, ""⟩ }

/-- Adds text to the line and ends it. -/
def printLine (s : Sheet) (text : String) : Sheet := (s.print text).newLine

/-- Sets the level of indent, also of the line, if it is still empty. -/
def setIndent (s : Sheet) (indent : Nat) : Sheet :=
  { s with
    indent := indent
    current := if s.lineIsEmpty then { s.current with indent := indent } else s.current }

/-- Indents what follows by one level more. -/
def indentMore (s : Sheet) : Sheet := s.setIndent (s.indent + 1)

/-- Indents what follows by one level less, if it is indented. -/
def indentLess (s : Sheet) : Sheet := s.setIndent (s.indent - 1)

/-- Adds several lines. -/
def printLines (s : Sheet) (lines : List String) : Sheet := lines.foldl printLine s

/-- The lines of a sheet, where an empty last line does not count. -/
def lines (s : Sheet) : List Line :=
  if s.lineIsEmpty then s.finished else s.finished ++ [s.current]

/-- The text of a sheet. -/
def source (s : Sheet) : String :=
  match s.lines with
  | [] => ""
  | first :: rest => "\n".intercalate (first.render "" :: rest.map (·.render s.margin))

end Sheet

/-- Whether a character can start a plain property key. -/
def startsKey (c : Char) : Bool := c.isAlpha || c == '_' || c == '$'

/-- Whether a name is a plain property key. -/
def isPlainKey (name : String) : Bool :=
  match name.toList with
  | [] => false
  | c :: cs => startsKey c && cs.all fun c => startsKey c || c.isDigit

/-- The key of a property, which is quoted unless it is plain. -/
def propertyKey (name : String) : String :=
  if isPlainKey name then name else Text.Quoted.quote name

end TaggedMarkup.Code

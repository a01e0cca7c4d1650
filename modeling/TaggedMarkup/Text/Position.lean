import TaggedMarkup.Text.Utf8

/-!
# Lines and columns

Where an offset lies, in the words of a report: lines are separated by line feeds, and lines and
columns count from one. A column counts characters, an offset bytes.
-/

namespace TaggedMarkup.Text

/-- A place in a text. -/
structure Position where
  line : Nat
  column : Nat
  deriving DecidableEq, Repr

namespace Position

/-- The first place of every text. -/
def first : Position := ⟨1, 1⟩

/-- The place behind a character. -/
def advance (p : Position) (c : Char) : Position :=
  if c = '\n' then ⟨p.line + 1, 1⟩ else ⟨p.line, p.column + 1⟩

/-- The place behind a text. -/
def behind (cs : List Char) : Position := cs.foldl advance first

/-- The place of an offset, where an offset past the end stands for the end. There is none inside
a character. -/
def ofOffset? (source : List Char) (offset : Nat) : Option Position :=
  (cut? (min offset (byteSize source)) source).map fun (before, _) => behind before

/-- A place as it is reported. -/
def text (p : Position) : String := s!"{p.line}:{p.column}"

end Position

/-- An offset as it is reported; an offset inside a character has no report. -/
def reportOffset (source : List Char) (offset : Nat) : String :=
  ((Position.ofOffset? source offset).map Position.text).getD ""

end TaggedMarkup.Text

import TaggedMarkup.Text.Utf8

/-!
# Edits of a source

An edit replaces the part of a source between two offsets. Edits are recorded in any order and
applied from the last start to the first, so that the offsets of those that wait stay right.
-/

namespace TaggedMarkup.Source

open Text (byteSize cut? slice?)

/-- Puts a text in place of the part between two offsets. -/
structure Edit where
  start : Nat
  stop : Nat
  text : String
  deriving DecidableEq, Repr

namespace Edit

/-- Inserts a text. -/
def insert (offset : Nat) (text : String) : Edit := ⟨offset, offset, text⟩

/-- Removes the part between two offsets. -/
def remove (start stop : Nat) : Edit := ⟨start, stop, ""⟩

/-- Whether an edit lies between two offsets. -/
def within (start stop : Nat) (e : Edit) : Bool := start ≤ e.start && e.stop ≤ stop

end Edit

/-- Puts an edit in front of the first that does not start behind it. -/
def insertInOrder (e : Edit) : List Edit → List Edit
  | [] => [e]
  | x :: xs => if x.start ≤ e.start then e :: x :: xs else x :: insertInOrder e xs

/-- The edits in the order in which they are applied, from the last start to the first. Of edits
with one start the first recorded comes first. -/
def inOrder (edits : List Edit) : List Edit := edits.foldr insertInOrder []

/-- A text that is being edited from its end: the source still stands up to an offset, and a text
has taken the place of all behind it. -/
structure Progress where
  upTo : Nat
  behind : String
  deriving DecidableEq, Repr

/-- What is left of a text behind its first bytes. -/
def dropBytes? (n : Nat) (text : String) : Option String :=
  if n = 0 then some text
  else (cut? n text.toList).map fun (_, rest) => String.ofList rest

namespace Progress

/-- What follows an offset. -/
def from? (source : List Char) (p : Progress) (offset : Nat) : Option String :=
  if offset ≤ p.upTo then
    (slice? offset p.upTo source).map fun between => String.ofList between ++ p.behind
  else dropBytes? (offset - p.upTo) p.behind

/-- Applies an edit that starts no later than those before it. Where they overlap, the part that
it replaces includes text that they have put there. -/
def step? (source : List Char) (p : Progress) (e : Edit) : Option Progress :=
  if e.start ≤ e.stop then
    (cut? e.start source).bind fun _ =>
      (p.from? source e.stop).map fun rest => ⟨e.start, e.text ++ rest⟩
  else none

end Progress

/-- The part of a source between two offsets with the edits in it applied. There is none if a cut
falls inside a character or outside the text, or if a start lies behind its end. -/
def applyRange? (source : List Char) (start stop : Nat) (edits : List Edit) : Option String :=
  (slice? start stop source).bind fun _ =>
    ((inOrder (edits.filter (·.within start stop))).foldlM (Progress.step? source)
      ⟨stop, ""⟩).bind fun p => p.from? source start

/-- A source with all edits applied. -/
def applyAll? (source : List Char) (edits : List Edit) : Option String :=
  applyRange? source 0 (byteSize source) edits

/-- The edits recorded before a mark, and those recorded since. -/
def splitOff (mark : Nat) (edits : List Edit) : List Edit × List Edit := edits.splitAt mark

/-- The blanks and tabs that start the line of an offset, up to the offset. -/
def lineIndent (source : List Char) (offset : Nat) : String :=
  let before := ((Text.cut? (min offset (byteSize source)) source).map Prod.fst).getD []
  let line := (before.reverse.takeWhile (· != '\n')).reverse
  String.ofList (line.takeWhile fun c => c == ' ' || c == '\t')

end TaggedMarkup.Source

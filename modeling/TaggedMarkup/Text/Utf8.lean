/-!
# Byte offsets

Offsets into a text count the bytes of its UTF-8 form, so a cut is possible only between two
characters. The functions work on lists of characters and are total: a cut inside a character or
past the end is `none`.
-/

namespace TaggedMarkup.Text

/-- The number of bytes that the characters take. -/
def byteSize : List Char → Nat
  | [] => 0
  | c :: cs => c.utf8Size + byteSize cs

/-- Cuts a text in two at a byte offset. -/
def cut? : Nat → List Char → Option (List Char × List Char)
  | 0, cs => some ([], cs)
  | _ + 1, [] => none
  | n + 1, c :: cs =>
    if c.utf8Size ≤ n + 1 then
      (cut? (n + 1 - c.utf8Size) cs).map fun (before, after) => (c :: before, after)
    else none

/-- The part of a text between two byte offsets. -/
def slice? (start stop : Nat) (cs : List Char) : Option (List Char) := do
  guard (start ≤ stop)
  let (_, after) ← cut? start cs
  let (middle, _) ← cut? (stop - start) after
  return middle

/-- The part of a text between two byte offsets, and nothing if there is none. -/
def slice (start stop : Nat) (cs : List Char) : String :=
  String.ofList ((slice? start stop cs).getD [])

end TaggedMarkup.Text

import TaggedMarkup.Text.Split

/-!
# Glob patterns

In a pattern `?` stands for one character, `*` for any number of them, brackets for one of some
characters or for any other, and `**` as a whole part of a path for any number of directories.
-/

namespace TaggedMarkup.Files

/-- What is wrong with a pattern. -/
inductive GlobFault where
  | wildcards
  | recursive
  | range
  deriving DecidableEq, Repr

/-- A fault in words. -/
def GlobFault.detail : GlobFault → String
  | .wildcards => "wildcards are either regular `*` or recursive `**`"
  | .recursive => "recursive wildcards must form a single path component"
  | .range => "invalid range pattern"

/-- A fault and its place, in characters from the start of the pattern. -/
structure GlobError where
  position : Nat
  fault : GlobFault
  deriving DecidableEq, Repr

/-- A malformed pattern in words. -/
def GlobError.message (e : GlobError) : String :=
  s!"Pattern syntax error near position {e.position}: {e.fault.detail}"

/-- The characters from one to another, both included. -/
structure CharRange where
  low : Char
  high : Char
  deriving DecidableEq, Repr

/-- Whether a character is in one of some ranges. -/
def inRanges (ranges : List CharRange) (c : Char) : Bool :=
  ranges.any fun r => r.low ≤ c && c ≤ r.high

/-- A part of a pattern. -/
inductive GlobToken where
  | char (c : Char)
  | any
  | many
  | deep
  | oneOf (ranges : List CharRange)
  | noneOf (ranges : List CharRange)
  deriving DecidableEq, Repr

/-- The ranges between brackets. A dash between two characters makes a range. -/
def readRanges : List Char → List CharRange
  | [] => []
  | a :: '-' :: b :: cs => ⟨a, b⟩ :: readRanges cs
  | a :: cs => ⟨a, a⟩ :: readRanges cs

/-- Reads up to a closing bracket. The first character is never the end. -/
def readBrackets : List Char → Option (List Char × List Char)
  | [] => none
  | c :: cs =>
    match cs.dropWhile (· != ']') with
    | [] => none
    | _ :: rest => some (c :: cs.takeWhile (· != ']'), rest)

/-- Adds a recursive wildcard to tokens, the last one first. Consecutive ones are one, unless
nothing stands in front of the first. -/
def pushDeep : List GlobToken → List GlobToken
  | .deep :: t :: ts => .deep :: t :: ts
  | ts => .deep :: ts

/-- Reads a pattern from a position on. `boundary` tells that a part of a path starts there, and
`tokens` are those read so far, the last one first. -/
def readTokens : Nat → Nat → Bool → List GlobToken → List Char → Except GlobError (List GlobToken)
  | 0, _, _, tokens, _ => .ok tokens.reverse
  | _ + 1, _, _, tokens, [] => .ok tokens.reverse
  | n + 1, i, boundary, tokens, c :: cs =>
    if c = '?' then readTokens n (i + 1) false (.any :: tokens) cs
    else if c = '*' then
      let stars := 1 + (cs.takeWhile (· == '*')).length
      let rest := cs.dropWhile (· == '*')
      if stars = 1 then readTokens n (i + 1) false (.many :: tokens) rest
      else if stars = 2 then
        if boundary then
          match rest with
          | [] => readTokens n (i + 2) false (pushDeep tokens) []
          | '/' :: rest => readTokens n (i + 3) true (pushDeep tokens) rest
          | _ => .error ⟨i + 2, .recursive⟩
        else .error ⟨i - 1, .recursive⟩
      else .error ⟨i + 2, .wildcards⟩
    else if c = '[' then
      match cs with
      | '!' :: inner =>
        match readBrackets inner with
        | some (cls, rest) =>
          readTokens n (i + cls.length + 3) false (.noneOf (readRanges cls) :: tokens) rest
        | none => .error ⟨i, .range⟩
      | inner =>
        match readBrackets inner with
        | some (cls, rest) =>
          readTokens n (i + cls.length + 2) false (.oneOf (readRanges cls) :: tokens) rest
        | none => .error ⟨i, .range⟩
    else readTokens n (i + 1) (c == '/') (.char c :: tokens) cs

/-- A glob pattern. -/
structure Glob where
  tokens : List GlobToken
  deriving DecidableEq, Repr

/-- The ends of a list. -/
def suffixes {α : Type} : List α → List (List α)
  | [] => [[]]
  | a :: as => (a :: as) :: suffixes as

/-- What is left of a text behind each of its slashes. -/
def behindSlashes : List Char → List (List Char)
  | [] => []
  | c :: cs => if c = '/' then cs :: behindSlashes cs else behindSlashes cs

/-- Whether tokens match a whole text. -/
def matchTokens : List GlobToken → List Char → Bool
  | [], cs => cs.isEmpty
  | .many :: ts, cs => (suffixes cs).any (matchTokens ts)
  | .deep :: ts, cs =>
    matchTokens ts cs || (behindSlashes cs).any (matchTokens ts) || matchTokens ts []
  | .any :: ts, _ :: cs => matchTokens ts cs
  | .char c :: ts, d :: cs => c == d && matchTokens ts cs
  | .oneOf ranges :: ts, c :: cs => inRanges ranges c && matchTokens ts cs
  | .noneOf ranges :: ts, c :: cs => !inRanges ranges c && matchTokens ts cs
  | _ :: _, [] => false

/-- The text of tokens that are plain characters. -/
def plainText? : List GlobToken → Option (List Char)
  | [] => some []
  | .char c :: ts => (plainText? ts).map (c :: ·)
  | _ :: _ => none

namespace Glob

/-- Reads a pattern. -/
def read (cs : List Char) : Except GlobError Glob :=
  (readTokens cs.length 0 true [] cs).map Glob.mk

/-- Whether a pattern matches a whole text, in which slashes are characters like any other. -/
def accepts (g : Glob) (text : String) : Bool := matchTokens g.tokens text.toList

/-- Whether a pattern stands for any number of directories. -/
def isDeep (g : Glob) : Bool := g.tokens.contains .deep

/-- The only text that a pattern without wildcards matches. -/
def plain? (g : Glob) : Option String := (plainText? g.tokens).map String.ofList

/-- Whether a pattern starts with a dot. -/
def startsWithDot (g : Glob) : Bool := g.tokens.head? == some (.char '.')

end Glob

end TaggedMarkup.Files

import TaggedMarkup.Markup.Lexer
import TaggedMarkup.Template.Skeleton

/-!
# Reading a template

A template has one chunk of literal text more than it has expressions. The sigil of a hole ends
the chunk in front of it, and the block marker starts the chunk behind it.
-/

namespace TaggedMarkup.Template

open Markup (Lexer Sigil scanSigil scanBlock)

/-- The state of reading: the lexer and what its events have built. -/
structure Parser where
  lexer : Lexer := {}
  skeleton : Skeleton := {}
  deriving Repr

namespace Parser

/-- Hands the events of a piece of input on. A fault of the skeleton comes before that of the
lexer, which stands behind the events. -/
def take (p : Parser) (o : Markup.Outcome) : Except Cause Parser :=
  match p.skeleton.handleAll o.events with
  | .error cause => .error cause
  | .ok skeleton =>
    match o.fault with
    | some cause => .error cause
    | none => .ok ⟨o.lexer, skeleton⟩

/-- Reads literal text. -/
def write (p : Parser) (text : String) : Except Cause Parser := p.take (p.lexer.write text)

/-- Puts an expression into the hole at this point. -/
def bind (p : Parser) (slot : Nat) (sigil : Sigil) (block : Bool) (expression : Expression) :
    Except Cause Parser :=
  match p.lexer.place with
  | .text =>
    match p.take p.lexer.flush with
    | .error cause => .error cause
    | .ok p =>
      let target := if block then .block else .text
      .ok { p with skeleton := p.skeleton.addChildBinder target sigil expression slot }
  | .attributeValue _ =>
    if block then .error (.unsupported .blockInAttribute)
    else
      match p.lexer.bindValue with
      | (_, .error cause) => .error cause
      | (lexer, .ok name) =>
        match p.skeleton.addAttributeBinder name sigil expression slot with
        | .error cause => .error cause
        | .ok skeleton => .ok ⟨lexer, skeleton⟩
  | .tagName name =>
    if name = componentTag then
      if block then .error (.unsupported .blockComponent)
      else if sigil = .none then
        .ok { p with skeleton := p.skeleton.setComponent sigil expression slot }
      else .error (.unsupported .sigilComponent)
    else .error (.unsupported (.holeIn (.tagName name)))
  | place => .error (.unsupported (.holeIn place))

/-- Reads a chunk and what follows it, which is expressions each with the chunk behind it. The
first chunk has lost its block marker already. -/
def run (p : Parser) (slot : Nat) (chunk : String) :
    List (Expression × String) → Except Failure Parser
  | [] =>
    match p.write chunk with
    | .error cause => .error ⟨cause, none⟩
    | .ok p => .ok p
  | (expression, next) :: rest =>
    let (sigil, text) := scanSigil chunk
    match p.write text with
    | .error cause => .error ⟨cause, none⟩
    | .ok p =>
      let (block, next) := scanBlock next
      match p.bind slot sigil block expression with
      | .error cause => .error (Failure.locate ⟨cause, none⟩ expression.offset)
      | .ok p => p.run (slot + 1) next rest

/-- Ends the input. -/
def finish (p : Parser) : Except Failure Fragment :=
  match p.take p.lexer.finish with
  | .error cause => .error ⟨cause, none⟩
  | .ok p => .ok p.skeleton.finish

end Parser

/-- Reads a template. -/
def parse (chunks : List String) (expressions : List Expression) : Except Failure Fragment :=
  let mismatch : Except Failure Fragment :=
    .error ⟨.markup (.chunks chunks.length expressions.length), none⟩
  match chunks with
  | [] => mismatch
  | first :: rest =>
    if rest.length = expressions.length then
      match ({} : Parser).run 0 first (expressions.zip rest) with
      | .error failure => .error failure
      | .ok p => p.finish
    else mismatch

end TaggedMarkup.Template

import TaggedMarkup.Code.Render
import TaggedMarkup.Log
import TaggedMarkup.Script.Free
import TaggedMarkup.Script.Scope
import TaggedMarkup.Source.Edit
import TaggedMarkup.Template.Parser
import TaggedMarkup.Text.Position

/-!
# The state of a compilation

A walk over a script keeps the scopes, the edits recorded so far, the tables of the file and the
log. A failure ends the walk, and leaves the state as it is at that point.
-/

namespace TaggedMarkup.Compile

open Code (RenderCode Tables)
open Script (Expr Pattern PatternItem Scopes Span)
open Source (Edit)
open Template (Binder Expression)

/-- A script that is being compiled: its text, its name, and the local name of the tag. -/
structure File where
  source : List Char
  name : String
  tag : String
  deriving Repr

/-- What a walk keeps. `sites` has the start and the fragment of every compiled template, and
`tagUses` counts the uses of the tag other than on a template. -/
structure State where
  scopes : Scopes := {}
  edits : List Edit := []
  tables : Tables := {}
  sites : List (Nat × Nat) := []
  tagUses : Nat := 0
  log : List Entry := []
  deriving Repr

/-- A step of a walk. -/
abbrev Walk := ExceptT Failure (StateM State)

namespace Walk

/-- Takes over the failure of a computation that has no state. -/
def ofExcept {α : Type} : Except Failure α → Walk α
  | .ok a => pure a
  | .error failure => throw failure

/-- Changes the scopes. -/
def mapScopes (f : Scopes → Scopes) : Walk Unit :=
  modify fun s => { s with scopes := f s.scopes }

/-- Runs a step in a scope of its own, which ends also if the step fails. -/
def inScope {α : Type} (step : Walk α) : Walk α := fun s =>
  let (result, after) := step { s with scopes := s.scopes.push }
  (result, { after with scopes := after.scopes.pop })

/-- Records an edit. -/
def edit (e : Edit) : Walk Unit := modify fun s => { s with edits := s.edits ++ [e] }

/-- Counts a use of the tag. -/
def useTag : Walk Unit := modify fun s => { s with tagUses := s.tagUses + 1 }

/-- Declares the names of a pattern. -/
def declarePattern (p : Pattern) : Walk Unit := do
  let bindings ← ofExcept p.bindings
  mapScopes (·.declareAll bindings)

/-- Declares the names of parameters. -/
def declareItems : List PatternItem → Walk Unit
  | [] => pure ()
  | item :: items => do
    match item.pattern? with
    | some p => declarePattern p
    | none => pure ()
    declareItems items

/-- Takes the markers of a pattern out of the source. -/
def removeMarkers (p : Pattern) : Walk Unit :=
  modify fun s =>
    { s with edits := s.edits ++ p.markers.map fun span => .remove span.start span.stop }

end Walk

end TaggedMarkup.Compile

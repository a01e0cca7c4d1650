import TaggedMarkup.Script.Syntax
import TaggedMarkup.Source.Edit

/-!
# Imports of a script

Compiled code needs helpers in place of the tag. They are added to the import that brings in the
tag, or to the first other import of names from the runtime; if there is none, a new import goes
to the top of the file. Declarations follow the last import.
-/

namespace TaggedMarkup.Script

open Source (Edit)

/-- Where the tag comes from, and what it is called there. -/
structure Runtime where
  module : String := "fragment-runtime"
  tag : String := "_"
  deriving DecidableEq, Repr

/-- A named import as it is written. -/
structure Specifier where
  imported : String
  localName : String
  text : String
  span : Span
  deriving DecidableEq, Repr

/-- What the imports of a script tell: the local name of the tag, the specifiers of the import to
which helpers are added, and the end of the last import. -/
structure Imports where
  tag : String
  specifiers : List Specifier := []
  stop : Option Nat := none
  found : Bool := false
  deriving DecidableEq, Repr

/-- The named imports of a declaration, whether they are values or types. -/
def Import.specifiers (source : List Char) (decl : Import) : List Specifier :=
  (decl.names.getD []).filterMap fun
    | .named _ imported localName span =>
      some ⟨imported, localName.text, Text.slice span.start span.stop source, span⟩
    | _ => none

namespace Imports

/-- Takes an import declaration into account. -/
def add (runtime : Runtime) (source : List Char) (i : Imports) (decl : Import) : Imports :=
  let i := { i with stop := some decl.span.stop }
  if decl.module ≠ runtime.module then i
  else
    match decl.specifiers source with
    | [] => i
    | specifiers =>
      if i.found then i
      else
        match specifiers.find? fun s => s.imported == runtime.tag with
        | some s => { i with tag := s.localName, specifiers := specifiers, found := true }
        | none => if i.specifiers.isEmpty then { i with specifiers := specifiers } else i

/-- What the imports of a script tell. -/
def ofScript (runtime : Runtime) (source : List Char) (script : List Stmt) : Imports :=
  let decls := script.filterMap fun
    | .import decl => some decl
    | _ => none
  decls.foldl (add runtime source) { tag := runtime.tag }

/-- Whether a specifier brings in the tag. -/
def isTag (i : Imports) (s : Specifier) : Bool := s.localName == i.tag

/-- The specifiers of the import to which helpers are added. The tag is left out unless it is
kept, and a helper that is there already is not added. -/
def merged (i : Imports) (helpers : List String) (keepTag : Bool) : List String :=
  let kept := i.specifiers.filter fun s => keepTag || !i.isTag s
  let missing := helpers.filter fun h =>
    !i.specifiers.any fun s => s.localName == h && !i.isTag s
  kept.map Specifier.text ++ missing

/-- An import of helpers. -/
def newImport (runtime : Runtime) (helpers : List String) : String :=
  "import \x7b " ++ ", ".intercalate helpers ++ " \x7d from '" ++ runtime.module ++ "';"

/-- The edits that add helpers and declarations. -/
def edits (i : Imports) (runtime : Runtime) (helpers declarations : List String) (keepTag : Bool) :
    List Edit :=
  let declarations := "\n".intercalate declarations
  match i.specifiers.head?, i.specifiers.getLast? with
  | some first, some last =>
    [⟨first.span.start, last.span.stop, ", ".intercalate (i.merged helpers keepTag)⟩,
     .insert (i.stop.getD last.span.stop) ("\n" ++ declarations)]
  | _, _ =>
    let line := newImport runtime helpers
    match i.stop with
    | some stop => [.insert 0 (line ++ "\n"), .insert stop ("\n" ++ declarations)]
    | none => [.insert 0 (line ++ "\n" ++ declarations ++ "\n")]

end Imports

end TaggedMarkup.Script

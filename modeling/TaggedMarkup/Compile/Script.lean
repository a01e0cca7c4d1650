import TaggedMarkup.Compile.Walk
import TaggedMarkup.Script.Grammar.Program
import TaggedMarkup.Script.Imports

/-!
# Compiling a script

Every site of a script gets its code, and the script imports what the code needs. A script without
sites stays as it is.
-/

namespace TaggedMarkup.Compile

open Script (Dialect Imports Runtime Stmt)

/-- What a compilation leaves: the log, and the compiled text or why there is none. -/
structure Compiled where
  log : List Entry
  result : Except Failure String

/-- The failure of a text that is no script. -/
def notAScript : Failure := ⟨.malformed "unexpected token", none⟩

/-- Visits a whole script. -/
def visitScript (file : File) (script : List Stmt) : Walk Unit := do
  declareStatements script
  visitStatements file script

/-- The log entry of a script with sites. -/
def summaryEntry (file : File) (s : State) : Entry :=
  let fragments := s.tables.fragments.length
  let binders := s.tables.initializers.length
  ⟨.info, s!"{file.name}: compiled {s.sites.length} templates into {fragments} fragments and {binders} binders"⟩

/-- The text of a script after the walk. -/
def finishScript (runtime : Runtime) (imports : Imports) (file : File) (s : State) : Compiled :=
  if s.sites.isEmpty then
    { log := s.log ++ [⟨.debug, s!"{file.name}: no templates"⟩]
      result := .ok (String.ofList file.source) }
  else
    let edits := s.edits ++
      imports.edits runtime s.tables.importNames s.tables.declarations (0 < s.tagUses)
    { log := s.log ++ [summaryEntry file s]
      result := .ok ((Source.applyAll? file.source edits).getD "") }

/-- Compiles a script that has been read. -/
def compileScript (runtime : Runtime) (name : String) (source : List Char) (script : List Stmt) :
    Compiled :=
  let imports := Imports.ofScript runtime source script
  let file := { source := source, name := name, tag := imports.tag }
  match (visitScript file script).run {} with
  | (.error failure, s) => { log := s.log, result := .error failure }
  | (.ok (), s) => finishScript runtime imports file s

/-- Compiles the text of a script. Its name tells the dialect. -/
def compileSource (runtime : Runtime) (name source : String) : Compiled :=
  let chars := source.toList
  match Script.parseScript (Dialect.ofFilename name) chars with
  | none => { log := [], result := .error notAScript }
  | some script => compileScript runtime name chars script

end TaggedMarkup.Compile

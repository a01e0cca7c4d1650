import TaggedMarkup.Compile.Script
import TaggedMarkup.Files.Tree

/-!
# Compiling files

Files are compiled one by one, and the failure of one does not touch the others.
-/

namespace TaggedMarkup.Compile

open Files (FileError Tree)
open Script (Runtime)

/-- Why there is no output for a file. -/
inductive Problem where
  | unreadable (path : String) (reason : FileError)
  | failed (path : String) (position : Option String) (cause : Cause)
  deriving DecidableEq, Repr

namespace Problem

/-- A problem in words, without the reason of the system. -/
def message : Problem → String
  | .unreadable path _ => s!"failed to read {path}"
  | .failed path none cause => s!"{path}: {cause.message}"
  | .failed path (some position) cause => s!"{path}:{position}: {cause.message}"

/-- A problem in words. -/
def fullMessage : Problem → String
  | .unreadable path reason => s!"failed to read {path}: {reason.message}"
  | p => p.message

end Problem

/-- What becomes of a file. -/
structure Output where
  path : String
  result : Except Problem String

/-- Whether there is no output for a file. -/
def Output.isFailed (o : Output) : Bool :=
  match o.result with
  | .ok _ => false
  | .error _ => true

/-- The problem of a script that cannot be compiled. -/
def problemOf (path source : String) (f : Failure) : Problem :=
  .failed path (f.offset.map (Text.reportOffset source.toList)) f.cause

/-- Compiles a file of a tree. -/
def compileFile (t : Tree) (runtime : Runtime) (path : String) : Output × List Entry :=
  match t.read path with
  | .error e => (⟨path, .error (.unreadable path e)⟩, [])
  | .ok source =>
    let compiled := compileSource runtime path source
    match compiled.result with
    | .ok text => (⟨path, .ok text⟩, compiled.log)
    | .error failure => (⟨path, .error (problemOf path source failure)⟩, compiled.log)

/-- Compiles several files of a tree. -/
def compileEach (t : Tree) (runtime : Runtime) (paths : List String) :
    List Output × List Entry :=
  let compiled := paths.map (compileFile t runtime)
  (compiled.map Prod.fst, compiled.flatMap Prod.snd)

/-- The log of a compilation with its first and its last entry. -/
def batchLog (elapsed : String) (outputs : List Output) (log : List Entry) : List Entry :=
  let failed := (outputs.filter Output.isFailed).length
  let started := ⟨.info, s!"Compiling {outputs.length} files in parallel..."⟩
  let finished := ⟨.info, s!"Compilation finished in {elapsed} ({failed} failed)"⟩
  started :: log ++ [finished]

/-- Compiles files, in the given time. -/
def compileFiles (t : Tree) (runtime : Runtime) (elapsed : String) (paths : List String) :
    List Output × List Entry :=
  let (outputs, log) := compileEach t runtime paths
  (outputs, batchLog elapsed outputs log)

end TaggedMarkup.Compile

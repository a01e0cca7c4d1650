import TaggedMarkup.CommandLine.Options
import TaggedMarkup.Compile.Batch
import TaggedMarkup.Config
import TaggedMarkup.Files.Discovery

/-!
# The command line

The command compiles the files that its arguments or the configuration name. Compiled text goes to
the standard output, or into files below a directory; the log goes to the standard error.
-/

namespace TaggedMarkup.CommandLine

open Compile (Output)
open Files

/-- Why there is no configuration. -/
inductive ConfigError where
  | unreadable (path : String) (reason : FileError)
  | invalid (path : String)
  deriving DecidableEq, Repr

namespace ConfigError

/-- An error in words, without the reason of the system. -/
def message : ConfigError → String
  | .unreadable path _ => s!"failed to read {path}"
  | .invalid path => s!"invalid config file {path}"

/-- An error in words. -/
def fullMessage : ConfigError → String
  | .unreadable path reason => s!"failed to read {path}: {reason.message}"
  | e => e.message

end ConfigError

/-- Reads a configuration file. -/
def loadConfig (t : Tree) (path : String) : Except ConfigError Config :=
  match t.read path with
  | .error e => .error (.unreadable path e)
  | .ok text =>
    match Config.ofText? text with
    | none => .error (.invalid path)
    | some config => .ok config

/-- Reads the configuration file of a directory, or takes the defaults if there is none. -/
def discoverConfig (t : Tree) (directory : String) : Except ConfigError Config :=
  let path := Path.join directory Config.fileName
  if t.isFile path then loadConfig t path else .ok {}

/-- What a run leaves. -/
structure Run where
  status : Nat
  stdout : String
  stderr : List String
  tree : Tree

/-- A configuration with the options of the command in place of its own. -/
def applyOptions (o : Options) (c : Config) : Config :=
  { c with
    outDir := o.outDir.or c.outDir
    runtime := { c.runtime with module := o.runtimeModule.getD c.runtime.module }
    logLevel := if o.verbose then .debug else c.logLevel }

/-- Writes a compiled file below a directory. -/
def writeOutput (t : Tree) (outDir path text : String) : Except String Tree :=
  let target := Path.join outDir path
  let parent := Path.parent target
  match t.makeDirectory parent with
  | .error e => .error s!"failed to create {parent}: {e.message}"
  | .ok t =>
    match t.write target text with
    | .error e => .error s!"failed to write {target}: {e.message}"
    | .ok t => .ok t

/-- The state of handing out: the text for the standard output, the log, and the files. -/
structure Delivery where
  stdout : String := ""
  log : List Entry := []
  failed : Bool := false
  tree : Tree

/-- Notes an error. -/
def Delivery.fail (d : Delivery) (message : String) : Delivery :=
  { d with log := d.log ++ [⟨.error, message⟩], failed := true }

/-- Hands out what became of a file. -/
def deliver (outDir : Option String) (d : Delivery) (o : Output) : Delivery :=
  match o.result, outDir with
  | .error problem, _ => d.fail problem.fullMessage
  | .ok text, none => { d with stdout := d.stdout ++ text ++ "\n" }
  | .ok text, some dir =>
    match writeOutput d.tree dir o.path text with
    | .ok tree => { d with tree := tree }
    | .error message => d.fail message

/-- The lines of the log that a level lets through. -/
def shownLines (level : Level) (log : List Entry) : List String :=
  (log.filter fun e => e.level.enabledAt level).map Entry.line

/-- A run that ends without output. -/
def Run.quiet (t : Tree) (status : Nat) (stderr : List String) : Run :=
  { status := status, stdout := "", stderr := stderr, tree := t }

/-- Files to compile, and how to. -/
structure Job where
  tree : Tree
  config : Config
  paths : List String
  log : List Entry

namespace Job

/-- Compiles the files. -/
def compile (job : Job) : List Output × List Entry :=
  Compile.compileEach job.tree job.config.runtime job.paths

/-- Hands out what became of the files, in the given time. -/
def finish (job : Job) (elapsed : String) (compiled : List Output × List Entry) : Run :=
  let (outputs, log) := compiled
  let d := outputs.foldl (deliver job.config.outDir) { tree := job.tree }
  { status := if d.failed then 1 else 0
    stdout := d.stdout
    stderr := shownLines job.config.logLevel
      (job.log ++ Compile.batchLog elapsed outputs log ++ d.log)
    tree := d.tree }

end Job

/-- The job of some options under a configuration. Without files there is none. -/
def jobOf (t : Tree) (o : Options) (c : Config) : Except Run Job :=
  let patterns := if o.inputs.isEmpty then c.included else o.inputs
  let (paths, log) := Files.discover (.ofTree t) "." patterns c.excluded
  if paths.isEmpty then
    .error (.quiet t 0 (shownLines c.logLevel (log ++ [⟨.warn, "No input files"⟩])))
  else .ok { tree := t, config := c, paths := paths, log := log }

/-- What arguments ask for in a tree: a job, or a run that ends at once. -/
def plan (t : Tree) (arguments : List String) : Except Run Job :=
  match readOptions {} arguments with
  | .error e => .error (.quiet t 2 [e.message])
  | .ok o =>
    let loaded :=
      match o.config with
      | some path => loadConfig t path
      | none => discoverConfig t "."
    match loaded with
    | .error e => .error (.quiet t 1 [s!"[ERROR] {e.fullMessage}"])
    | .ok c => jobOf t o (applyOptions o c)

/-- Runs the command in a tree, in the given time. -/
def run (t : Tree) (elapsed : String) (arguments : List String) : Run :=
  match plan t arguments with
  | .error r => r
  | .ok job => job.finish elapsed job.compile

end TaggedMarkup.CommandLine

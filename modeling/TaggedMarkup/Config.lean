import TaggedMarkup.Json.Reader
import TaggedMarkup.Log
import TaggedMarkup.Script.Imports

/-!
# Configuration

The configuration of a project is a JSON object. Members that are missing have defaults, and
unknown ones are ignored. An array stands for an object whose members come in the order of the
fields.
-/

namespace TaggedMarkup

open Script (Runtime)

/-- The level that a JSON value names: its name, or an object with the name as its only key. -/
def Level.ofJson? : Json → Option Level
  | .string (some name) => Level.ofName? name
  | .object [(some name, .null)] => Level.ofName? name
  | _ => none

/-- The level at which a log starts unless it is told otherwise. -/
def Level.default : Level := .warn

/-- How a project is compiled. -/
structure Config where
  runtime : Runtime := {}
  included : List String := ["src/**/*.js"]
  excluded : List String := ["node_modules/**"]
  outDir : Option String := none
  logLevel : Level := .default
  deriving DecidableEq, Repr

namespace Config

/-- The name of the configuration file. -/
def fileName : String := "fragment.config.json"

/-- A member of the configuration. -/
inductive Field where
  | runtimeModule
  | tagName
  | included
  | excluded
  | outDir
  | logLevel
  deriving DecidableEq, Repr

namespace Field

/-- The fields in their order. -/
def all : List Field := [.runtimeModule, .tagName, .included, .excluded, .outDir, .logLevel]

/-- The key of a field. -/
def key : Field → String
  | .runtimeModule => "runtimeModule"
  | .tagName => "tagName"
  | .included => "include"
  | .excluded => "exclude"
  | .outDir => "outDir"
  | .logLevel => "logLevel"

/-- The field of a key. -/
def ofKey? (key : String) : Option Field := all.find? fun f => f.key == key

end Field

/-- The text of an optional setting. -/
def optionalText? : Json → Option (Option String)
  | .null => some none
  | json => json.text?.map some

/-- Sets a field, if the value fits. -/
def set? (c : Config) (json : Json) : Field → Option Config
  | .runtimeModule => json.text?.map fun s => { c with runtime := { c.runtime with module := s } }
  | .tagName => json.text?.map fun s => { c with runtime := { c.runtime with tag := s } }
  | .included => json.texts?.map fun ss => { c with included := ss }
  | .excluded => json.texts?.map fun ss => { c with excluded := ss }
  | .outDir => (optionalText? json).map fun s => { c with outDir := s }
  | .logLevel => (Level.ofJson? json).map fun l => { c with logLevel := l }

/-- Takes the members of an object, none of whose fields is among those seen or comes twice. -/
def ofMembers? (c : Config) (seen : List Field) : List (Option String × Json) → Option Config
  | [] => some c
  | (none, _) :: _ => none
  | (some key, json) :: members =>
    match Field.ofKey? key with
    | none => ofMembers? c seen members
    | some field =>
      if seen.contains field then none
      else
        match c.set? json field with
        | none => none
        | some c => ofMembers? c (field :: seen) members

/-- Takes values in the order of the fields. There may be fewer, but not more. -/
def ofItems? (c : Config) : List Field → List Json → Option Config
  | _, [] => some c
  | [], _ :: _ => none
  | field :: fields, json :: items =>
    match c.set? json field with
    | none => none
    | some c => ofItems? c fields items

/-- The configuration that a JSON value describes. -/
def ofJson? : Json → Option Config
  | .object members => ofMembers? {} [] members
  | .array items => ofItems? {} Field.all items
  | _ => none

/-- The configuration that a text describes. -/
def ofText? (text : String) : Option Config := (Json.read? text).bind ofJson?

end Config

end TaggedMarkup

/-!
# The options of the command

An option has a long name behind two dashes, and some have a letter behind one. Its value is the
next argument, or follows in the same one. All other arguments are inputs.
-/

namespace TaggedMarkup.CommandLine

/-- The arguments of the command. -/
structure Options where
  inputs : List String := []
  config : Option String := none
  outDir : Option String := none
  runtimeModule : Option String := none
  verbose : Bool := false
  deriving DecidableEq, Repr

/-- An option of the command. -/
inductive Flag where
  | config
  | outDir
  | runtimeModule
  | verbose
  deriving DecidableEq, Repr

/-- Why arguments are refused. -/
inductive UsageError where
  | unknown (argument : String)
  | noValue (argument : String)
  | unexpectedValue (argument : String)
  | repeated (argument : String)
  deriving DecidableEq, Repr

/-- A refusal in words. -/
def UsageError.message : UsageError → String
  | .unknown argument => s!"error: unexpected argument '{argument}' found"
  | .noValue argument => s!"error: a value is required for '{argument}' but none was supplied"
  | .unexpectedValue argument => s!"error: unexpected value for '{argument}' found"
  | .repeated argument => s!"error: the argument '{argument}' cannot be used multiple times"

namespace Flag

/-- The option of a long name. -/
def ofLong? (name : String) : Option Flag :=
  if name = "config" then some .config
  else if name = "out-dir" then some .outDir
  else if name = "runtime-module" then some .runtimeModule
  else if name = "verbose" then some .verbose
  else none

/-- The option of a single letter. -/
def ofShort? (c : Char) : Option Flag :=
  if c = 'c' then some .config
  else if c = 'o' then some .outDir
  else if c = 'v' then some .verbose
  else none

end Flag

namespace Options

/-- Sets an option with a value, unless it is set already. -/
def setValue (o : Options) (argument value : String) : Flag → Except UsageError Options
  | .config =>
    if o.config.isSome then .error (.repeated argument) else .ok { o with config := some value }
  | .outDir =>
    if o.outDir.isSome then .error (.repeated argument) else .ok { o with outDir := some value }
  | .runtimeModule =>
    if o.runtimeModule.isSome then .error (.repeated argument)
    else .ok { o with runtimeModule := some value }
  | .verbose => .error (.unexpectedValue argument)

/-- Sets the option without a value. -/
def setVerbose (o : Options) (argument : String) : Except UsageError Options :=
  if o.verbose then .error (.repeated argument) else .ok { o with verbose := true }

/-- Adds an input. -/
def addInput (o : Options) (input : String) : Options := { o with inputs := o.inputs ++ [input] }

end Options

/-- What an argument asks for: to go on, or to take the next argument as a value. -/
inductive Step where
  | next (options : Options)
  | value (flag : Flag)
  deriving DecidableEq, Repr

/-- Reads an argument behind two dashes. -/
def readLong (o : Options) (argument : String) (cs : List Char) : Except UsageError Step :=
  let name := String.ofList (cs.takeWhile (· != '='))
  match Flag.ofLong? name with
  | none => .error (.unknown argument)
  | some flag =>
    match cs.dropWhile (· != '=') with
    | _ :: value => (o.setValue argument (String.ofList value) flag).map .next
    | [] => if flag = .verbose then (o.setVerbose argument).map .next else .ok (.value flag)

/-- Reads the letters behind a dash. An option with a value takes all that follows it. -/
def readShort (o : Options) (argument : String) : List Char → Except UsageError Step
  | [] => .ok (.next o)
  | c :: cs =>
    match Flag.ofShort? c with
    | none => .error (.unknown argument)
    | some .verbose =>
      match o.setVerbose argument with
      | .error e => .error e
      | .ok o => readShort o argument cs
    | some flag =>
      match cs with
      | [] => .ok (.value flag)
      | '=' :: value => (o.setValue argument (String.ofList value) flag).map .next
      | value => (o.setValue argument (String.ofList value) flag).map .next

/-- Reads an argument. -/
def readArgument (o : Options) (argument : String) : Except UsageError Step :=
  match argument.toList with
  | '-' :: '-' :: cs => readLong o argument cs
  | '-' :: c :: cs => readShort o argument (c :: cs)
  | _ => .ok (.next (o.addInput argument))

/-- Whether an argument can be the value of an option. -/
def isValue (argument : String) : Bool :=
  match argument.toList with
  | '-' :: _ :: _ => false
  | _ => true

/-- Reads arguments. Behind two bare dashes all are inputs. -/
def readOptions (o : Options) : List String → Except UsageError Options
  | [] => .ok o
  | argument :: rest =>
    if argument = "--" then .ok (rest.foldl Options.addInput o)
    else
      match readArgument o argument with
      | .error e => .error e
      | .ok (.next o) => readOptions o rest
      | .ok (.value flag) =>
        match rest with
        | [] => .error (.noValue argument)
        | value :: rest =>
          if isValue value then
            match o.setValue argument value flag with
            | .error e => .error e
            | .ok o => readOptions o rest
          else .error (.noValue argument)

end TaggedMarkup.CommandLine

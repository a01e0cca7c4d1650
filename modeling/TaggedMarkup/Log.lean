/-!
# Log entries
-/

namespace TaggedMarkup

/-- The weight of a log entry, in rising order. -/
inductive Level where
  | debug
  | info
  | warn
  | error
  deriving DecidableEq, Repr

namespace Level

/-- The levels in rising order. -/
def all : List Level := [.debug, .info, .warn, .error]

/-- The rank of a level. -/
def rank : Level → Nat
  | .debug => 0
  | .info => 1
  | .warn => 2
  | .error => 3

/-- The name of a level. -/
def name : Level → String
  | .debug => "debug"
  | .info => "info"
  | .warn => "warn"
  | .error => "error"

/-- The level of a name. -/
def ofName? (s : String) : Option Level := all.find? fun l => l.name == s

/-- The label of a level in front of a message. -/
def label : Level → String
  | .debug => "[DEBUG]"
  | .info => "[INFO]"
  | .warn => "[WARN]"
  | .error => "[ERROR]"

/-- Whether entries of a level are shown by a log that starts at another one. -/
def enabledAt (l start : Level) : Bool := start.rank ≤ l.rank

/-- The level of a log that shows nothing. -/
def silent : Level := .error

end Level

/-- A message of the compiler. -/
structure Entry where
  level : Level
  message : String
  deriving DecidableEq, Repr

/-- An entry as a line. -/
def Entry.line (e : Entry) : String := s!"{e.level.label} {e.message}"

end TaggedMarkup

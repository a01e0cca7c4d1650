import TaggedMarkup.Script.Grammar.Basic

/-!
# The grammar of host scripts: modifiers

Words in front of a declaration, a member or a parameter that change its meaning. A word is a
modifier only if something follows that it can modify, so each of them may also be a name.
-/

namespace TaggedMarkup.Script

open Parse

/-- The modifiers that tell from where a member may be used. -/
def visibilities : List String := ["private", "protected", "public"]

/-- The modifiers that exist only where types are part of the language. -/
def typedModifiers : List String :=
  visibilities ++ ["abstract", "declare", "override", "readonly"]

/-- All words that can be modifiers somewhere. -/
def modifierWords : List String :=
  typedModifiers ++ ["accessor", "async", "const", "default", "export", "in", "out", "static"]

/-- The modifiers of a member of a class. -/
def memberModifiers (cx : Context) : List String :=
  ["accessor", "async", "static"] ++ if cx.typed then typedModifiers else []

/-- The modifiers in front of which a modifier has to stand. -/
def precedes (modifier : String) : List String :=
  if visibilities.contains modifier then
    ["abstract", "accessor", "async", "override", "readonly", "static"]
  else match modifier with
    | "static" => ["accessor", "async", "override", "readonly"]
    | "override" => ["accessor", "async", "readonly"]
    | "abstract" => ["accessor", "override"]
    | _ => []

/-- Whether a modifier may follow the others: none stands twice, none behind one that it precedes,
and only one tells the visibility. -/
def mayFollow (found : List String) (modifier : String) : Bool :=
  !(found.contains modifier || found.any (precedes modifier).contains
    || (visibilities.contains modifier && found.any visibilities.contains))

/-- Whether something stands here that a modifier can modify. -/
def atModified : Parse Bool := do
  if ← isAnySign ["\x7b", "*", "..."] then return true
  atMemberKey

/-- Whether the current word modifies what follows it. Only `static`, `get` and `set` may end their
line. -/
def atModifier (word : String) : Parse Bool := do
  if !(← isWord word) then return false
  nextIs do
    let mayEndLine := ["static", "get", "set"].contains word
    if (← onNewline) && !mayEndLine then return false
    atModified

/-- Reads the modifiers that stand here, of those that are allowed. -/
def modifiers (allowed : List String) : Parse (List String) :=
  iterate ([] : List String) fun found => do
    match ← token with
    | .word w false =>
      let again := w == "static" && found.contains w
      if allowed.contains w && !again && (← atModifier w) then
        require (mayFollow found w)
        advance
        return .more (w :: found)
      return .done found
    | _ => return .done found

/-- Whether every modifier is one of the allowed ones. -/
def areAllowed (allowed found : List String) : Bool := found.all allowed.contains

/-- Moves over `get` or `set` in front of the name of a member; the result tells which one. -/
def accessorWord? : Parse (Option String) := do
  if ← atModifier "get" then
    advance
    return some "get"
  if ← atModifier "set" then
    advance
    return some "set"
  return none

end TaggedMarkup.Script

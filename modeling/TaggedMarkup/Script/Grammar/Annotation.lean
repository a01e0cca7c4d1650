import TaggedMarkup.Script.Grammar.Binding

/-!
# The grammar of host scripts: types

Types have no meaning for the compiler, so their readers only move over them. What they refer to and
the expressions in them are noted apart from the script. The type behind `extends` in a conditional
type is not itself a conditional one, and a bound of an `infer` there is never taken for the
condition of the type around it.
-/

namespace TaggedMarkup.Script

open Parse

/-- Inside brackets of a type. -/
def Context.innerType (cx : Context) : Context := { cx with conditionals := true }

/-! ## Arguments and parameters of types -/

/-- Whether a `<` stands here, perhaps as the first half of `<<`, which it then is split off from.
-/
def atTypeArguments : Parse Bool := do
  modify Cursor.splitLess
  isSign "<"

/-- Type arguments up to the bracket that closes them. -/
def openTypeArguments (g : Grammar) (cx : Context) : Parse Unit := do
  require (← atTypeArguments)
  advance
  iterate () fun _ => do
    g.type cx.innerType
    if (← eat ",") && !(← isSign ">") then return .more ()
    return .done ()
  require (← isSign ">")

/-- Type arguments in angle brackets. -/
def typeArguments (g : Grammar) (cx : Context) : Parse Unit := do
  openTypeArguments g cx
  advance

/-- Type arguments on the same line, if there are any. -/
def typeArguments? (g : Grammar) (cx : Context) : Parse Unit := do
  if ← onNewline then return
  if ← atTypeArguments then typeArguments g cx

/-- One type parameter, with its bound and its default. -/
def typeParameter (g : Grammar) (cx : Context) : Parse Unit := do
  iterate () fun _ => do
    if (← isAnyWord ["const", "in", "out"]) && (← nextIs atWord) then
      advance
      return .more ()
    return .done ()
  let _ ← ident cx
  if ← eatWord "extends" then g.type cx
  if ← eat "=" then g.type cx

/-- Type parameters in angle brackets, if there are any. -/
def typeParameters? (g : Grammar) (cx : Context) : Parse Unit := do
  if ← eat "<" then
    let found ← listUntil "," ">" (typeParameter g cx.innerType)
    require !found.isEmpty

/-! ## Functions -/

/-- A result type, which may be a statement about a parameter. -/
def resultType (g : Grammar) (cx : Context) : Parse Unit := do
  if (← atFreeWord) && (← nextIs (return (← isWord "is") && !(← onNewline))) then
    advance
    advance
  g.type cx

/-- A result type behind a colon, if there is one. -/
def resultAnnotation? (g : Grammar) (cx : Context) : Parse Unit := do
  if ← eat ":" then resultType g cx

/-- The parameters of a function in a type. -/
def typeFunctionParameters (g : Grammar) (cx : Context) : Parse Unit := do
  let start ← here
  let params ← parameters g cx false
  noteInType (.function (.mk none params .none) (← spanFrom start))

/-- What follows the name of a method in a type. -/
def signature (g : Grammar) (cx : Context) : Parse Unit := do
  typeParameters? g cx
  typeFunctionParameters g cx
  resultAnnotation? g cx

/-- A function type from its type parameters on. -/
def functionType (g : Grammar) (cx : Context) : Parse Unit := do
  typeParameters? g cx
  typeFunctionParameters g cx
  expect "=>"
  resultType g cx

/-- Whether the parenthesis that stands here opens the parameters of a function type. -/
def opensFunctionType (g : Grammar) (cx : Context) : Parse Bool := do
  let found ← ahead do
    expect "("
    if ← isAnySign [")", "..."] then return true
    let _ ← modifiers modifierWords
    if (← atFreeWord) || (← isWord "this") then advance
    else
      require (← isAnySign ["[", "\x7b"])
      let _ ← g.binding cx
    if ← isAnySign [":", ",", "?", "="] then return true
    return (← eat ")") && (← isSign "=>")
  return found == some true

/-- Whether a function type or the type of a constructor stands here. -/
def atFunctionType (g : Grammar) (cx : Context) : Parse Bool := do
  match ← token with
  | .sign "<" => return true
  | .sign "(" => opensFunctionType g cx
  | .word "new" false => return true
  | .word "abstract" false => nextIs (isWord "new")
  | _ => return false

/-! ## Starts of types -/

/-- Reserved words that start a type. -/
def typeWords : List String :=
  ["false", "function", "import", "new", "null", "this", "true", "typeof", "void"]

/-- Whether a type starts here, if it does not start with a parenthesis. -/
def atPlainType : Parse Bool := do
  match ← token with
  | .word w _ => return !reservedWords.contains w || typeWords.contains w
  | .string _ _ | .number _ | .tick => return true
  | .sign "-" => nextIs atNumber
  | .sign s => return ["\x7b", "[", "<", "|", "&", "*", "?", "!", "..."].contains s
  | _ => return false

/-- Whether a type starts here. -/
def atType : Parse Bool := do
  if ← isSign "(" then
    nextIs do
      if ← isAnySign ["(", ")", "@"] then return true
      return (← atPlainType) || (← isAnyWord ["const", "export", "default", "in"])
  else atPlainType

/-! ## Names -/

/-- A name with its qualifications, of which the first is what it refers to. -/
def qualifiedName : Parse (List Name) := listOf "." anyWord

/-- A name with its qualifications and type arguments. -/
def typeReference (g : Grammar) (cx : Context) : Parse Unit := do
  let path ← qualifiedName
  path.head?.forM fun id => noteInType (.name id)
  typeArguments? g cx

/-- The type of a module, or of a member of it. -/
def importType (g : Grammar) (cx : Context) : Parse Unit := do
  expectWord "import"
  expect "("
  g.type cx
  if ← eat "," then
    if !(← isSign ")") then
      require (← isSign "\x7b")
      noteInType (← g.assignment cx.inner)
    let _ ← eat ","
  expect ")"
  if ← eat "." then
    let _ ← qualifiedName
  typeArguments? g cx

/-! ## Members -/

/-- A member of a tuple type. -/
def tupleItem (g : Grammar) (cx : Context) : Parse Unit := do
  let _ ← eat "..."
  let named ← ahead do
    let _ ← anyWord
    let _ ← eat "?"
    isSign ":"
  if named == some true then
    advance
    let _ ← eat "?"
    advance
    let _ ← eat "..."
  g.type cx

/-- Whether an index signature stands here. -/
def atIndexSignature : Parse Bool := do
  let found ← ahead do
    expect "["
    if ← isAnySign ["...", "]"] then return true
    let isModifier ← isAnyWord modifierWords
    require (← atFreeWord)
    advance
    if isModifier && (← atFreeWord) then return true
    if ← isAnySign [":", ","] then return true
    return (← eat "?") && (← isAnySign [":", ",", "]"])
  return found == some true

/-- The end of a member of an object type: a comma, a semicolon, or nothing. -/
def endMember : Parse Unit := do
  if !(← eat ",") then
    let _ ← eat ";"

/-- An index signature with its type. -/
def indexSignature (g : Grammar) (cx : Context) : Parse Unit := do
  expect "["
  let _ ← anyWord
  expect ":"
  g.type cx
  expect "]"
  expect ":"
  g.type cx
  endMember

/-- The name of a member of an object type. -/
def typeKey (g : Grammar) (cx : Context) : Parse Unit := do
  match ← propertyKey g cx with
  | .computed e => noteInType e
  | _ => pure ()

/-- One member of an object type. -/
def typeMember (g : Grammar) (cx : Context) : Parse Unit := do
  if ← isAnySign ["(", "<"] then
    signature g cx
    return ← endMember
  if (← isWord "new") && (← nextIs (isAnySign ["(", "<"])) then
    advance
    signature g cx
    return ← endMember
  require (areAllowed ["readonly"] (← modifiers modifierWords))
  if let some word ← accessorWord? then
    typeKey g cx
    typeFunctionParameters g cx
    if word == "get" then resultAnnotation? g cx else require !(← isSign ":")
    return ← endMember
  if ← atIndexSignature then return ← indexSignature g cx
  typeKey g cx
  let _ ← eat "?"
  if ← isAnySign ["(", "<"] then signature g cx else annotation? g cx
  endMember

/-- The members of an object type in braces. -/
def typeMembers (g : Grammar) (cx : Context) : Parse Unit := do
  expect "\x7b"
  let cx := cx.innerType
  iterate () fun _ => do
    if ← eat "\x7d" then return .done ()
    typeMember g cx
    return .more ()

/-- A plus or minus in front of a modifier of a mapped type, with the modifier. -/
def mappedModifier (modifier : Parse Bool) : Parse Unit := do
  if ← isAnySign ["+", "-"] then
    advance
    require (← modifier)
  else
    let _ ← modifier

/-- Whether a mapped type stands here. -/
def atMappedType : Parse Bool := do
  let found ← ahead do
    expect "\x7b"
    if ← isAnySign ["+", "-"] then
      advance
      return ← isWord "readonly"
    let _ ← eatWord "readonly"
    expect "["
    let _ ← anyWord
    isWord "in"
  return found == some true

/-- A type with a member for each key of another type. -/
def mappedType (g : Grammar) (cx : Context) : Parse Unit := do
  expect "\x7b"
  let cx := cx.innerType
  mappedModifier (eatWord "readonly")
  expect "["
  let _ ← anyWord
  expectWord "in"
  g.type cx
  if ← eatWord "as" then g.type cx
  expect "]"
  mappedModifier (eat "?")
  annotation? g cx
  let _ ← eat ";"
  expect "\x7d"

/-- A template whose holes are types. -/
def templateType (g : Grammar) (cx : Context) : Parse Unit := do
  let c ← get
  iterate (c.stop, c.after) fun (pos, text) => do
    match Lexeme.readChunk 0 [] text with
    | none => fail
    | some (_, size, .quote, rest) =>
      modify (·.moveTo (pos + size) rest)
      return .done ()
    | some (_, size, .hole, rest) =>
      modify (·.moveTo (pos + size) rest)
      g.type cx.innerType
      let c ← get
      require (c.token == .sign "\x7d")
      return .more (c.stop, c.after)

/-! ## Types by how tightly they bind -/

/-- Whether a type is a list: an array or a tuple. -/
inductive TypeForm where
  | list
  | other
  deriving DecidableEq, Repr

/-- The types that are words of the language, and take no arguments. -/
def plainTypes : List String :=
  ["any", "unknown", "never", "undefined", "string", "number", "boolean", "symbol", "object",
   "bigint"]

/-- A type that starts with a word. -/
def wordType (g : Grammar) (cx : Context) (word : String) : Parse Unit := do
  match word with
  | "typeof" =>
    advance
    if ← isWord "import" then importType g cx else typeReference g cx
  | "import" => importType g cx
  | "void" | "null" | "true" | "false" => advance
  | "this" =>
    advance
    if (← isWord "is") && !(← onNewline) then
      advance
      g.type cx
  | "asserts" =>
    if ← nextIs (return (← atWord) && !(← onNewline)) then
      advance
      advance
      if ← eatWord "is" then g.type cx
    else typeReference g cx
  | _ =>
    if plainTypes.contains word && !(← nextIs (isSign ".")) then advance else typeReference g cx

/-- A type that no operator joins to others. -/
def primaryType (g : Grammar) (cx : Context) : Parse TypeForm := do
  match ← token with
  | .sign "(" =>
    advance
    g.type cx
    expect ")"
    return .other
  | .sign "[" =>
    advance
    let _ ← listUntil "," "]" (tupleItem g cx)
    return .list
  | .sign "\x7b" =>
    if ← atMappedType then mappedType g cx else typeMembers g cx
    return .other
  | .sign "-" =>
    advance
    require (← atNumber)
    advance
    return .other
  | .sign "?" =>
    advance
    if !(← isAnySign [",", "\x7d", ")", ">", "=", "|"]) then g.type cx
    return .other
  | .string _ _ | .number _ =>
    advance
    return .other
  | .tick =>
    templateType g cx
    return .other
  | .word w _ =>
    wordType g cx w
    return .other
  | _ => fail

/-- A type with the signs behind it: brackets of arrays and of index accesses, and the marks for
types with and without an empty value. A question mark in front of a type belongs to a
conditional. -/
def postfixType (g : Grammar) (cx : Context) : Parse TypeForm := do
  let cx := cx.innerType
  iterate () fun _ => do
    if ← eat "!" then return .more ()
    return .done ()
  let form ← primaryType g cx
  iterate form fun form => do
    if ← onNewline then return .done form
    match ← token with
    | .sign "!" =>
      advance
      return .more .other
    | .sign "?" =>
      if ← nextIs atType then return .done form
      advance
      return .more .other
    | .sign "[" =>
      advance
      let isIndex ← atType
      if isIndex then g.type cx
      expect "]"
      return .more (if isIndex then .other else .list)
    | _ => return .done form

/-- The name behind `infer` with the bound that may follow it. A bound in front of a question mark
is none where a conditional type may stand. -/
def inferredType (g : Grammar) (cx : Context) : Parse Unit := do
  expectWord "infer"
  let _ ← ident cx
  let _ ← attempt do
    expectWord "extends"
    g.type { cx with conditionals := false }
    require !(cx.conditionals && (← isSign "?"))

/-- A type with the words in front of it that make another type of it; `readonly` stands in front
of lists only. -/
def operatorType (g : Grammar) (cx : Context) : Parse Unit := do
  let onList ← iterate false fun onList => do
    if ← isAnyWord ["keyof", "unique", "readonly"] then
      require !onList
      let isReadonly ← isWord "readonly"
      advance
      return .more isReadonly
    return .done onList
  if ← isWord "infer" then
    require !onList
    inferredType g cx
  else
    let form ← postfixType g cx
    require (!onList || form == .list)

/-- Types joined by a sign, which may also stand in front of the first. -/
def joinedTypes (sign : String) (item : Parse Unit) : Parse Unit := do
  let _ ← eat sign
  let _ ← listOf sign item

/-- A union of intersections. -/
def unionType (g : Grammar) (cx : Context) : Parse Unit :=
  joinedTypes "|" (joinedTypes "&" (operatorType g cx))

/-- A type of any form. -/
def anyType (g : Grammar) (cx : Context) : Parse Unit := do
  if ← atFunctionType g cx then
    let _ ← eatWord "abstract"
    let _ ← eatWord "new"
    return ← functionType g cx
  unionType g cx
  if cx.conditionals && (← isWord "extends") && !(← onNewline) then
    advance
    g.type { cx with conditionals := false }
    expect "?"
    g.type cx
    expect ":"
    g.type cx

end TaggedMarkup.Script

import TaggedMarkup.Script.Grammar.Expression

/-!
# The grammar of host scripts: imports and names of exports
-/

namespace TaggedMarkup.Script

open Parse

/-! ## Names -/

/-- The name of an export: a word or a well-formed string. -/
def exportName : Parse String := do
  match ← token with
  | .word w _ =>
    advance
    return w
  | .string s wellFormed =>
    require wellFormed
    advance
    return s
  | _ => fail

/-- The text of the module that a declaration names. -/
def moduleName : Parse String := do
  match ← token with
  | .string s _ =>
    advance
    return s
  | _ => fail

/-- One attribute of an import: the text of its name. -/
def importAttribute : Parse String := do
  let name ← match ← token with
    | .string s _ => pure s
    | .word w _ => pure w
    | _ => fail
  advance
  expect ":"
  let _ ← moduleName
  return name

/-- The attributes of an import, if there are any; no two have the same name. -/
def importAttributes? : Parse Unit := do
  if (← isWord "with") || ((← isWord "assert") && !(← onNewline)) then
    advance
    expect "\x7b"
    let names ← listUntil "," "\x7d" importAttribute
    require (decide names.Nodup)

/-- Whether `type` is a modifier of the name that follows it in a list of names. -/
def atTypeModifier (cx : Context) : Parse Bool := do
  if !cx.typed || !(← isWord "type") then return false
  nextIs do
    if ← isWord "as" then
      return ← nextIs do
        if ← isWord "as" then return ← nextIs (return (← atWord) || (← atString))
        return !((← atWord) || (← atString))
    return (← atWord) || (← atString)

/-! ## Imports -/

/-- Moves over a `type` that restricts the name behind it to types, if it is there. It may not stand
where the whole list is so restricted. -/
def eatTypeModifier (cx : Context) (ofTypes : Bool) : Parse Bool := do
  if ← atTypeModifier cx then
    require !ofTypes
    advance
    return true
  return false

/-- A named import; `ofTypes` tells that the declaration imports only types. -/
def importSpecifier (cx : Context) (ofTypes : Bool) : Parse ImportName := do
  let start ← here
  let onlyType ← eatTypeModifier cx ofTypes
  let nameStart ← here
  let isString ← atString
  let imported ← exportName
  let nameSpan ← spanFrom nameStart
  if ← eatWord "as" then
    let localName ← ident cx
    return .named onlyType imported localName (← spanFrom start)
  require (!isString && cx.isIdent imported)
  return .named onlyType imported ⟨imported, nameSpan⟩ (← spanFrom start)

/-- All exports of a module under one name. -/
def importAll (cx : Context) : Parse ImportName := do
  expect "*"
  expectWord "as"
  return .all (← ident cx)

/-- The names that an import declaration brings in. -/
def importClause (cx : Context) (ofTypes : Bool) : Parse (List ImportName) := do
  let mut names : List ImportName := []
  if ← atFreeWord then
    names := [.default (← ident cx)]
    if !(← eat ",") then return names
  if ← isSign "*" then return names ++ [← importAll cx]
  expect "\x7b"
  return names ++ (← listUntil "," "\x7d" (importSpecifier cx ofTypes))

/-- Whether the word behind `import` restricts it to types. -/
def atTypeClause (cx : Context) : Parse Bool := do
  if !cx.typed || !(← isWord "type") then return false
  nextIs do
    if ← isWord "from" then return ← nextIs (return (← isWord "from") || (← isSign "="))
    return (← atFreeWord) || (← isAnySign ["\x7b", "*"])

/-- Whether the word behind `import` tells its phase: `source` in front of a name, or `defer` in
front of a star. -/
def atPhase : Parse Bool := do
  if ← isWord "source" then
    return ← nextIs (return (← atFreeWord) && (← nextIs (isWord "from")))
  if ← isWord "defer" then return ← nextIs (isSign "*")
  return false

/-- What an import stands for that gives a name to another one: a module, or a member of a
namespace, of which it is the root that is told. -/
def importedEntity : Parse (Option Name) := do
  if (← isWord "require") && (← nextIs (isSign "(")) then
    advance
    advance
    let _ ← moduleName
    expect ")"
    return none
  return (← qualifiedName).head?

/-- An import declaration. -/
def importDeclaration (cx : Context) : Parse Stmt := do
  let start ← here
  expectWord "import"
  if ← atString then
    let module ← moduleName
    importAttributes?
    endStatement
    return .import ⟨false, module, none, ← spanFrom start⟩
  let ofTypes ← atTypeClause cx
  if ofTypes || (← atPhase) then advance
  if cx.typed && (← atFreeWord) && (← nextIs (isSign "=")) then
    let id ← ident cx
    advance
    let root ← importedEntity
    endStatement
    return .alias id root
  let names ← importClause cx ofTypes
  expectWord "from"
  let module ← moduleName
  importAttributes?
  endStatement
  return .import ⟨ofTypes, module, some names, ← spanFrom start⟩

/-! ## Names of exports -/

/-- Notes names as exported. -/
def noteExports (names : List String) : Parse Unit :=
  modify fun c => { c with exports := names ++ c.exports }

mutual

/-- The names that a pattern binds. -/
def Pattern.names : Pattern → List String
  | .name id _ => [id.text]
  | .object parts _ => partNames parts
  | .array items _ => itemNames items
  | .withDefault target _ _ => target.names

/-- The names that the parts of an object pattern bind. -/
def partNames : List PatternPart → List String
  | [] => []
  | .prop _ target :: ps | .rest target :: ps => target.names ++ partNames ps

/-- The names that the elements of an array pattern bind. -/
def itemNames : List PatternItem → List String
  | [] => []
  | .hole :: is => itemNames is
  | .item _ target :: is | .rest _ target :: is => target.names ++ itemNames is

end

/-- The names that a declaration binds. -/
def Stmt.names : Stmt → List String
  | .vars _ decls => decls.flatMap fun | .mk target _ => target.names
  | .function (.mk name _ _) => (name.map Name.text).toList
  | .class (.mk _ name _ _) => (name.map Name.text).toList
  | _ => []

/-- A name in the list of an export. -/
structure ExportName where
  /-- The name that is exported, and whether it is a string. -/
  localName : String
  isString : Bool
  /-- The name under which it is exported. -/
  exported : String
  deriving DecidableEq, Repr

/-- A name in the list of an export; `ofTypes` tells that the declaration exports only types. -/
def exportSpecifier (cx : Context) (ofTypes : Bool) : Parse ExportName := do
  let _ ← eatTypeModifier cx ofTypes
  let isString ← atString
  let localName ← exportName
  if ← eatWord "as" then return ⟨localName, isString, ← exportName⟩
  return ⟨localName, isString, localName⟩

/-- Words that are identifiers in some scripts, but never the name of something exported. -/
def strictWords : List String :=
  ["await", "implements", "interface", "let", "package", "private", "protected", "public",
   "static", "yield"]

/-- Whether the name is one that the script itself can declare. -/
def ExportName.isDeclarable (name : ExportName) : Bool :=
  !(name.isString || reservedWords.contains name.localName
    || strictWords.contains name.localName)

/-- The names of an export in braces, and the module they come from. A `from` may also end the
declaration. -/
def exportNames (cx : Context) (ofTypes : Bool) : Parse Stmt := do
  expect "\x7b"
  let names ← listUntil "," "\x7d" (exportSpecifier cx ofTypes)
  let source ← if (← eatWord "from") && (← atString) then some <$> moduleName else pure none
  if source.isSome then importAttributes? else require (names.all ExportName.isDeclarable)
  endStatement
  noteExports (names.map ExportName.exported)
  return .exportedNames (names.map ExportName.localName) source

/-- An export of all names of a module. -/
def exportAll : Parse Stmt := do
  expect "*"
  if ← eatWord "as" then noteExports [← exportName]
  expectWord "from"
  let source ← moduleName
  importAttributes?
  endStatement
  return .exportedNames [] (some source)

end TaggedMarkup.Script

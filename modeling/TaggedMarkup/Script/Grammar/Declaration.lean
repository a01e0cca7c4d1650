import TaggedMarkup.Script.Grammar.Module

/-!
# The grammar of host scripts: declarations
-/

namespace TaggedMarkup.Script

open Parse

/-! ## Variables -/

/-- Whether a variable of the kind can do without a value. -/
def VarKind.mayLackValue : VarKind → Bool
  | .var | .let => true
  | .const | .using => false

/-- One variable with its value; `needsValue` tells that one may not be left out where the
variable cannot do without. -/
def declarator (g : Grammar) (cx : Context) (kind : VarKind) (needsValue : Bool) :
    Parse Declarator := do
  let p ← g.binding cx
  require (kind != .using || p.isName)
  let mut target := p
  if cx.typed then
    if p.isName && !(← onNewline) then
      let _ ← eat "!"
    let _ ← eat "?"
    if ← isSign ":" then
      annotation? g cx
      target := p.extend (← prevStop)
  let value ← if ← eat "=" then some <$> g.assignment cx else pure none
  require (value.isSome || !needsValue || cx.ambient || (p.isName && kind.mayLackValue))
  return .mk target value

/-- Variables with commas between them. -/
def declarators (g : Grammar) (cx : Context) (kind : VarKind) (needsValue : Bool) :
    Parse (List Declarator) :=
  listOf "," (declarator g cx kind needsValue)

/-- Whether `using` stands here in front of a name on its line. -/
def atUsing : Parse Bool := do
  if !(← isWord "using") then return false
  nextIs (return (← atFreeWord) && !(← onNewline))

/-- Moves over `using`, or `await using`, if a declaration starts with it here. -/
def eatUsing (cx : Context) : Parse Bool := do
  if ← atUsing then
    advance
    return true
  if cx.await && (← isWord "await") && (← nextIs (return (← atUsing) && !(← onNewline))) then
    advance
    advance
    return true
  return false

/-- A statement that declares variables, behind the keyword. -/
def variableStatement (g : Grammar) (cx : Context) (kind : VarKind) : Parse Stmt := do
  let decls ← declarators g cx kind true
  endStatement
  return .vars kind decls

/-! ## Functions and classes -/

/-- Whether a function has a body. -/
def Function.hasBody : Function → Bool
  | .mk _ _ .none => false
  | .mk _ _ _ => true

/-- A function declaration, perhaps with `async` in front of it. A body does not go with
`declare`. -/
def functionDeclaration (g : Grammar) (cx : Context) (found : List String) (needsName : Bool) :
    Parse Stmt := do
  require (areAllowed ["declare"] found)
  let isAsync ← eatWord "async"
  let f ← functionFrom g cx isAsync needsName
  require !(found.contains "declare" && f.hasBody)
  return .function f

/-- A class declaration. -/
def classDeclaration (g : Grammar) (cx : Context) (found : List String) (decs : List Expr) :
    Parse Stmt := do
  require (areAllowed ["abstract", "declare"] found)
  return .class (← classFrom g cx decs)

/-! ## Types -/

/-- A type under a name. -/
def typeAlias (g : Grammar) (cx : Context) : Parse Stmt := do
  expectWord "type"
  let _ ← ident cx
  typeParameters? g cx
  expect "="
  g.type cx
  endStatement
  return .typeOnly

/-- An interface. -/
def interfaceDeclaration (g : Grammar) (cx : Context) : Parse Stmt := do
  expectWord "interface"
  let _ ← ident cx
  typeParameters? g cx
  if ← eatWord "extends" then
    let _ ← listOf "," (typeReference g cx)
  typeMembers g cx
  return .typeOnly

/-- The fixed text that an expression is. -/
def Expr.text? : Expr → Option String
  | .string value _ => some value
  | .template chunks [] _ => some (String.join (chunks.map Chunk.raw))
  | _ => none

/-- The name of a member of an enumeration: a word or a text. -/
def enumKey (g : Grammar) (cx : Context) : Parse String := do
  match ← token with
  | .word text _ | .string text _ =>
    advance
    return text
  | .sign "[" =>
    advance
    match (← g.assignment cx.inner).text? with
    | some text =>
      expect "]"
      return text
    | none => fail
  | _ => fail

/-- A member of an enumeration: its name, and the value that may be given. -/
def enumMember (g : Grammar) (cx : Context) : Parse (String × Option Expr) := do
  let name ← enumKey g cx
  if ← eat "=" then return (name, some (← g.assignment cx.inner))
  return (name, none)

/-- An enumeration. -/
def enumDeclaration (g : Grammar) (cx : Context) : Parse Stmt := do
  expectWord "enum"
  let id ← ident cx
  expect "\x7b"
  let members ← listUntil "," "\x7d" (enumMember g cx)
  return .enum id (members.map Prod.fst) (members.filterMap Prod.snd)

/-- A namespace with its statements, or the module that a string names; the latter may come without
statements. -/
def namespaceDeclaration (g : Grammar) (cx : Context) : Parse Stmt := do
  let mut path : List Name := []
  if !(← eatWord "global") then
    advance
    if ← atString then
      advance
      if !(← isSign "\x7b") then
        endStatement
        return .namespace [] []
    else
      path ← qualifiedName
  return .namespace path (← blockOf g { cx with await := false })

/-! ## All declarations -/

/-- Whether a function declaration starts here. -/
def atFunction : Parse Bool := return (← isWord "function") || (← atAsyncFunction)

/-- A declaration behind its modifiers that exists only where types are part of the language, if
one stands here. -/
def typedDeclaration? (g : Grammar) (cx : Context) (found : List String) :
    Parse (Option Stmt) := do
  if !cx.typed then return none
  if (← isWord "enum") || ((← isWord "const") && (← nextIs (isWord "enum"))) then
    require (areAllowed ["declare"] found)
    let _ ← eatWord "const"
    return some (← enumDeclaration g cx)
  if ← isAnyWord ["type", "interface", "namespace", "module", "global"] then
    require (areAllowed ["declare"] found)
    if ← isWord "type" then return some (← typeAlias g cx)
    if ← isWord "interface" then return some (← interfaceDeclaration g cx)
    return some (← namespaceDeclaration g cx)
  if ← isWord "import" then
    require found.isEmpty
    let decl ← importDeclaration cx
    match decl with
    | .alias _ _ => return some decl
    | _ => fail
  return none

/-- A declaration behind its modifiers and decorators; only a class has decorators. -/
def declaration (g : Grammar) (cx : Context) (found : List String) (decs : List Expr) :
    Parse Stmt := do
  let cx := if found.contains "declare" then { cx with ambient := true } else cx
  if ← isWord "class" then return ← classDeclaration g cx found decs
  require decs.isEmpty
  if ← atFunction then return ← functionDeclaration g cx found true
  if let some decl ← typedDeclaration? g cx found then return decl
  require (areAllowed ["declare"] found)
  if ← eatWord "var" then return ← variableStatement g cx .var
  if ← eatWord "let" then return ← variableStatement g cx .let
  expectWord "const"
  variableStatement g cx .const

/-- The modifiers of a declaration. -/
def declarationModifiers (cx : Context) : Parse (List String) :=
  if cx.typed then modifiers ("accessor" :: "static" :: typedModifiers) else pure []

/-- Whether a declaration starts here that its modifiers or its keyword show to be one. -/
def atTypedDeclaration : Parse Bool := do
  let found ← ahead do
    iterate () fun _ => do
      if ← isAnyWord ["var", "let", "const", "function", "class", "enum"] then return .done true
      match ← token with
      | .word word false =>
        advance
        let sameLine := !(← onNewline)
        if ["interface", "type"].contains word then return .done ((← atFreeWord) && sameLine)
        if ["module", "namespace"].contains word then
          return .done (((← atFreeWord) || (← atString)) && sameLine)
        if word == "global" then
          return .done ((← isSign "\x7b") || (← atFreeWord) || (← isWord "export"))
        if word == "import" then
          return .done ((← atString) || (← isAnySign ["*", "\x7b"]) || (← atFreeWord))
        if word == "static" then return .more ()
        if modifierWords.contains word && sameLine then return .more ()
        return .done false
      | _ => return .done false
  return found == some true

/-! ## Exports -/

/-- Whether an interface stands here. -/
def atInterface (cx : Context) : Parse Bool := do
  if !(cx.typed && (← isWord "interface")) then return false
  nextIs (return (← atFreeWord) && !(← onNewline))

/-- A default export behind its keywords. -/
def exportDefault (g : Grammar) (cx : Context) (decs : List Expr) : Parse Stmt := do
  noteExports ["default"]
  let decs := decs ++ (← decorators g cx)
  let isAbstract := cx.typed && (← isWord "abstract") && (← nextIs (isWord "class"))
  if isAbstract then advance
  if ← isWord "class" then return .exportedDefault (← classDeclaration g cx [] decs)
  require decs.isEmpty
  if ← atFunction then return .exportedDefault (← functionDeclaration g cx [] false)
  if ← atInterface cx then return .exportedDefault (← interfaceDeclaration g cx)
  let e ← g.assignment cx
  endStatement
  return .exportedDefault (.expr e e.span)

/-- An export that exists only where types are part of the language, if one stands here. -/
def typedExport? (g : Grammar) (cx : Context) : Parse (Option Stmt) := do
  if !cx.typed then return none
  if ← eat "=" then
    let e ← expression g cx
    endStatement
    return some (.exportedValue e)
  if (← isWord "as") && (← nextIs (isWord "namespace")) then
    advance
    advance
    let _ ← anyWord
    endStatement
    return some .typeOnly
  if (← isWord "type") && (← nextIs (isAnySign ["\x7b", "*"])) then
    advance
    if ← isSign "*" then return some (← exportAll)
    return some (← exportNames cx true)
  return none

/-- An export declaration; decorators stand in front of `export` or behind it. -/
def exportDeclaration (g : Grammar) (cx : Context) (decs : List Expr) : Parse Stmt := do
  expectWord "export"
  if ← eatWord "default" then return ← exportDefault g cx decs
  let more ← decorators g cx
  require (decs.isEmpty || more.isEmpty)
  let decs := decs ++ more
  if decs.isEmpty then
    if ← isSign "*" then return ← exportAll
    if ← isSign "\x7b" then return ← exportNames cx false
    if let some decl ← typedExport? g cx then return decl
  let found ← declarationModifiers cx
  let decl ← declaration g cx found decs
  noteExports decl.names
  return .exported decl

end TaggedMarkup.Script

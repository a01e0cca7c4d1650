import TaggedMarkup.Script.Grammar.Annotation

/-!
# The grammar of host scripts: functions and classes
-/

namespace TaggedMarkup.Script

open Parse

/-! ## Functions -/

/-- What a function is besides its parameters and its body. -/
structure FunctionForm where
  isAsync : Bool := false
  isGenerator : Bool := false
  /-- Whether its parameters may be properties. -/
  isConstructor : Bool := false
  /-- Whether its body may not be left out. -/
  needsBody : Bool := false
  deriving DecidableEq, Repr

/-- Whether a `<` stands here that opens type parameters. -/
def atTypeParameters (cx : Context) : Parse Bool := return cx.typed && (← isSign "<")

/-- Parameters, result type and body of a function. Where types are part of the language the body
may be missing. A constructor has neither type parameters nor the pseudo parameter `this`. -/
def functionRest (g : Grammar) (cx : Context) (name : Option Name) (form : FunctionForm) :
    Parse Function := do
  let cx := cx.enter form.isAsync form.isGenerator
  if cx.typed && !form.isConstructor then typeParameters? g cx
  let (params, hasThis) ← parameterList g cx form.isConstructor
  require !(form.isConstructor && hasThis)
  if cx.typed then resultAnnotation? g cx
  if cx.typed && !form.needsBody && !(← isSign "\x7b") then
    endStatement
    return .mk name params .none
  return .mk name params (.block (← blockOf g { cx with ambient := false }))

/-- A function that starts with its keyword; `needsName` tells that it is a declaration. -/
def functionFrom (g : Grammar) (cx : Context) (isAsync needsName : Bool) : Parse Function := do
  expectWord "function"
  let isGenerator ← eat "*"
  let nameContext := if needsName then cx else cx.enter isAsync isGenerator
  let name ← if ← atFreeWord then some <$> ident nameContext else pure none
  require (!needsName || name.isSome)
  functionRest g cx name { isAsync, isGenerator }

/-- Whether a pattern has a default. -/
def Pattern.hasDefault : Pattern → Bool
  | .withDefault _ _ _ => true
  | _ => false

/-- Whether the parameters fit a method that reads a property (`get`) or writes one (`set`). Where
types are part of the language, the value that is written has no default. -/
def fitAccessor (cx : Context) (word : String) : List PatternItem → Bool
  | [] => word == "get"
  | [.item _ p] => word == "set" && !(cx.typed && p.hasDefault)
  | _ => false

/-- The method behind `get` or `set`, from its parameters on. -/
def accessorRest (g : Grammar) (cx : Context) (word : String) (needsBody : Bool) :
    Parse Function := do
  match ← functionRest g cx none { needsBody } with
  | .mk name params body =>
    require (fitAccessor cx word params)
    return .mk name params body

/-! ## Members of classes -/

/-- The name of a member of a class. -/
def classKey (g : Grammar) (cx : Context) : Parse Key := do
  match ← token with
  | .secret s =>
    require (s != "constructor")
    advance
    return .secret s
  | _ => propertyKey g cx

/-- Whether a key is the fixed text. -/
def Key.isFixed (text : String) : Key → Bool
  | .fixed s => s == text
  | _ => false

/-- The modifiers that a member may have whatever it is. -/
def commonModifiers : List String := visibilities ++ ["abstract", "override", "static"]

/-- A member behind `get` or `set`. -/
def classAccessor (g : Grammar) (cx : Context) (decs : List Expr) (found : List String)
    (word : String) : Parse ClassMember := do
  require (areAllowed commonModifiers found)
  let key ← classKey g cx
  require !(key.isFixed (if found.contains "static" then "prototype" else "constructor"))
  return .method decs key (← accessorRest g cx word false)

/-- A method from its parameters on. -/
def classMethod (g : Grammar) (cx : Context) (decs : List Expr) (found : List String)
    (isGenerator : Bool) (key : Key) : Parse ClassMember := do
  let isStatic := found.contains "static"
  let isConstructor := !isStatic && key.isFixed "constructor"
  if isConstructor then
    require (decs.isEmpty && !isGenerator && areAllowed visibilities found)
  else
    require (areAllowed ("accessor" :: "async" :: commonModifiers) found)
    require !(isStatic && key.isFixed "prototype")
  let form : FunctionForm := { isAsync := found.contains "async", isGenerator, isConstructor }
  return .method decs key (← functionRest g cx none form)

/-- A field behind its name. -/
def classField (g : Grammar) (cx : Context) (decs : List Expr) (found : List String) (key : Key) :
    Parse ClassMember := do
  require (!found.contains "async" && !key.isFixed "constructor")
  require !(found.contains "static" && key.isFixed "prototype")
  if cx.typed then annotation? g cx
  let value ← if ← eat "=" then some <$> g.assignment cx.inField else pure none
  endStatement
  if found.contains "accessor" then return .accessor decs key value
  return .field decs key value

/-- One member of a class. -/
def classMember (g : Grammar) (cx : Context) : Parse ClassMember := do
  let decs ← decorators g cx
  if (← isWord "static") && (← nextIs (isSign "\x7b")) then
    require decs.isEmpty
    advance
    return .block (← blockOf g cx.inStaticBlock)
  let found ← modifiers (memberModifiers cx)
  if let some word ← accessorWord? then return ← classAccessor g cx decs found word
  if cx.typed && (← atIndexSignature) then
    require (decs.isEmpty && areAllowed ["readonly", "static"] found)
    indexSignature g cx
    return .signature
  let isGenerator ← eat "*"
  let key ← classKey g cx
  let optional ← if cx.typed then eat "?" else pure false
  if isGenerator || (← isSign "(") || (← atTypeParameters cx) then
    return ← classMethod g cx decs found isGenerator key
  require !(optional && found.contains "accessor")
  if cx.typed && !optional then
    let _ ← eat "!"
  classField g cx decs found key

/-- The members of a class in braces. -/
def classMembers (g : Grammar) (cx : Context) : Parse (List ClassMember) := do
  expect "\x7b"
  iterate ([] : List ClassMember) fun members => do
    if ← eat "\x7d" then return .done members.reverse
    if ← eat ";" then return .more members
    return .more ((← classMember g cx) :: members)

/-! ## Classes -/

/-- The expression in front of type arguments. -/
def Expr.withoutArguments : Expr → Expr
  | .instantiate e _ => e
  | e => e

/-- A class that starts with its keyword. The name may be missing in declarations too. -/
def classFrom (g : Grammar) (cx : Context) (decs : List Expr) : Parse Class := do
  expectWord "class"
  let named := (← atFreeWord) && !(← isWord "implements")
  let name ← if named then some <$> ident cx else pure none
  if cx.typed then typeParameters? g cx
  let parent ← if ← eatWord "extends" then some <$> g.access cx else pure none
  if cx.typed then
    if parent.isSome then
      if ← atTypeArguments then typeArguments g cx
    if ← eatWord "implements" then
      let _ ← listOf "," (typeReference g cx)
  return .mk decs name (parent.map Expr.withoutArguments) (← classMembers g cx)

end TaggedMarkup.Script

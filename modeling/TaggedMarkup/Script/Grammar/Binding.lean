import TaggedMarkup.Script.Grammar.Modifier

/-!
# The grammar of host scripts: patterns and parameters

A pattern's span covers the question mark and the type annotation behind it, so that a default
starts where they end.
-/

namespace TaggedMarkup.Script

open Parse

/-! ## Patterns -/

/-- A pattern with the type annotation that may follow it; `optional` tells that a question mark
may stand in front of the annotation. -/
def annotated (g : Grammar) (cx : Context) (optional : Bool) : Parse Pattern := do
  let p ← g.binding cx
  if cx.typed then
    let marked ← if optional then eat "?" else pure false
    if ← isSign ":" then
      annotation? g cx
      return p.extend (← prevStop)
    if marked then return p.extend (← prevStop)
  return p

/-- A pattern with the default that may follow it. -/
def withDefault (g : Grammar) (cx : Context) (target : Parse Pattern) : Parse Pattern := do
  let start ← here
  let p ← target
  if ← eat "=" then
    let value ← g.assignment cx.inner
    return .withDefault p value (← spanFrom start)
  return p

/-- A pattern with its annotation and its default. -/
def element (g : Grammar) (cx : Context) : Parse Pattern :=
  withDefault g cx (annotated g cx true)

/-- What takes the rest behind `...`; it stands last and has no default. -/
def restElement (g : Grammar) (cx : Context) (close : String) : Parse Pattern := do
  let p ← annotated g cx false
  require (← isSign close)
  return p

/-- Whether a pattern is a single name. -/
def Pattern.isName : Pattern → Bool
  | .name _ _ => true
  | _ => false

/-- A part of an object pattern. In a shorthand `await` and `yield` are names everywhere. -/
def objectPart (g : Grammar) (cx : Context) : Parse PatternPart := do
  if ← eat "..." then
    let p ← restElement g cx "\x7d"
    require p.isName
    return .rest p
  if (← atFreeWord) && !(← nextIs (isSign ":")) then
    let id ← anyWord
    let target : Pattern := .name id id.span
    if ← eat "=" then
      let value ← g.assignment cx.inner
      return .prop (.fixed id.text) (.withDefault target value (← spanFrom id.span.start))
    return .prop (.fixed id.text) target
  let key ← propertyKey g cx
  expect ":"
  return .prop key (← element g cx)

/-- An element of an array pattern. -/
def arrayItem (g : Grammar) (cx : Context) : Parse PatternItem := do
  if ← isSign "," then return .hole
  if ← eat "..." then return .rest [] (← restElement g cx "]")
  return .item [] (← element g cx)

/-- What a name is bound by, without annotation and default. -/
def bindingPattern (g : Grammar) (cx : Context) : Parse Pattern := do
  let start ← here
  match ← token with
  | .sign "\x7b" =>
    advance
    let parts ← listUntil "," "\x7d" (objectPart g cx)
    return .object parts (← spanFrom start)
  | .sign "[" =>
    advance
    let items ← listUntil "," "]" (arrayItem g cx)
    return .array items (← spanFrom start)
  | _ =>
    let id ← ident cx
    return .name id id.span

/-! ## Parameters -/

/-- A decorator. -/
def decorator (g : Grammar) (cx : Context) : Parse Expr := do
  expect "@"
  g.access { cx with inDecorator := true }

/-- All decorators that stand here. -/
def decorators (g : Grammar) (cx : Context) : Parse (List Expr) :=
  iterate ([] : List Expr) fun found => do
    if ← isSign "@" then return .more ((← decorator g cx) :: found)
    return .done found.reverse

/-- Modifiers that make a property of a parameter; only a constructor may have them. -/
def propertyModifiers : List String := visibilities ++ ["override", "readonly"]

/-- One parameter. -/
def parameter (g : Grammar) (cx : Context) (ofConstructor : Bool) : Parse PatternItem := do
  let decs ← decorators g cx
  if ← eat "..." then
    let p ← annotated g cx false
    require ((← isSign ")") || (cx.ambient && (← isSign ",") && (← nextIs (isSign ")"))))
    return .rest decs p
  if cx.typed && ofConstructor then
    let _ ← modifiers propertyModifiers
  return .item decs (← element g cx)

/-- The pseudo parameter `this`, if it stands here. -/
def thisParameter? (g : Grammar) (cx : Context) : Parse Bool := do
  if !(cx.typed && (← isWord "this")) then return false
  advance
  annotation? g cx
  if !(← isSign ")") then expect ","
  return true

/-- The parameters of a function in parentheses; the flag tells the pseudo parameter `this`. -/
def parameterList (g : Grammar) (cx : Context) (ofConstructor : Bool) :
    Parse (List PatternItem × Bool) := do
  expect "("
  let hasThis ← thisParameter? g cx
  return (← listUntil "," ")" (parameter g cx ofConstructor), hasThis)

/-- The parameters of a function in parentheses. -/
def parameters (g : Grammar) (cx : Context) (ofConstructor : Bool) : Parse (List PatternItem) := do
  return (← parameterList g cx ofConstructor).1

end TaggedMarkup.Script

import TaggedMarkup.Code.Sheet
import TaggedMarkup.Code.Tables
import TaggedMarkup.Failure

/-!
# Render code

The code of a template renders its fragment, ties every binder to its node, and returns the
fragment. If anything stays subscribed, the fragment can release it.
-/

namespace TaggedMarkup.Code

open Template (Binder Binding Index)

/-- The code of one template: its statements, and the names of what it has to release. -/
structure RenderCode where
  fragment : Nat
  statements : List String
  releases : List String
  deriving DecidableEq, Repr

namespace RenderCode

/-- Writes the statements and the return of the fragment. -/
def write (code : RenderCode) (s : Sheet) : Sheet :=
  let s := s.printLines code.statements
  match code.releases with
  | [] => s.printLine "return __nodes[__nodes.length];"
  | releases =>
    let s := s.printLine "const __fragment = __nodes[__nodes.length];"
    let s := (s.printLine "__fragment.unsubscribe = () => \x7b").indentMore
    let s := (s.printLines (releases.map fun name => s!"{name}.unsubscribe();")).indentLess
    (s.printLine "\x7d;").printLine "return __fragment;"

/-- The code between two brackets. -/
def between (code : RenderCode) (left right margin : String) : String :=
  let s := ((Sheet.withMargin margin).printLine left).indentMore
  ((code.write s).indentLess.print right).source

/-- The code as an expression, which is a function called at once. -/
def asCall (code : RenderCode) (margin : String) : String :=
  code.between "(() => \x7b" "\x7d)()" margin

/-- The code as the body of a function. -/
def asBody (code : RenderCode) (margin : String) : String := code.between "\x7b" "\x7d" margin

/-- The code as bare statements. -/
def asStatements (code : RenderCode) (margin : String) : String :=
  (code.write (Sheet.withMargin margin)).source

end RenderCode

/-- A property in the call of a component. -/
def propertyCode (property : Binder) : Option String :=
  match property.index with
  | .attribute name => some s!"{propertyKey name}: {property.expression.source}"
  | .child _ => none

/-- The code of the value of a binder. A component is called with an object of its properties. -/
def valueCode (b : Binder) : String :=
  if b.target.isComponent then
    match b.properties.filterMap propertyCode with
    | [] => b.expression.source ++ "(\x7b\x7d)"
    | properties => b.expression.source ++ "(\x7b " ++ ", ".intercalate properties ++ " \x7d)"
  else b.expression.source

/-- The last argument of a projection that takes only the first value. -/
def onceArgument (binding : Binding) : String := if binding.isFirstOnly then ", true" else ""

/-- The statement that hands the value of a binder to an observer. -/
def valueStatement (b : Binder) (sub observer : String) : Except BinderFault String :=
  let value := valueCode b
  let once := onceArgument b.binding
  let arity := BinderFault.arity b.binding b.observables.length
  match b.binding with
  | .value => .ok s!"{observer}({value});"
  | .subscribe => .ok s!"const {sub} = ({value}).subscribe({observer});"
  | .first => .ok s!"const {sub} = __first({value}, {observer});"
  | .map | .mapFirst =>
    match b.observables with
    | [o] => .ok s!"const {sub} = __map({o}, {o} => ({value}), {observer}{once});"
    | _ => .error arity
  | .combine | .combineFirst =>
    match b.observables with
    | _ :: _ :: _ =>
      let os := ", ".intercalate b.observables
      .ok s!"const {sub} = __combine([{os}], ({os}) => ({value}), {observer}{once});"
    | _ => .error arity

/-- The statements of the binder at place `i`, whose initializer has the number `entry`, and the
names that they leave to release. -/
def wire (i entry : Nat) (b : Binder) : Except BinderFault (List String × List String) :=
  match b.node with
  | none => .error (.noNode i)
  | some node =>
    let call := s!"__bind{entry}(__nodes[{node}])"
    let sub := s!"__sub{i}"
    let block := b.target.isBlock
    let observer := if block then sub ++ "b.observer" else call
    match valueStatement b sub observer with
    | .error fault => .error fault
    | .ok statement =>
      .ok ((if block then [s!"const {sub}b = {call};"] else []) ++ [statement],
        (if block then [sub ++ "b"] else []) ++
          (if b.binding.isSubscription then [sub] else []))

/-- Enters a binder into the tables, whether or not code can be written for it. -/
def register (t : Tables) (b : Binder) : Nat × Tables :=
  let (entry, t) := t.addBinder b
  (entry, t.useBinding b.binding)

/-- What becomes of binders: the binders with the numbers of their initializers, their statements
and their releases. -/
structure Wiring where
  binders : List Binder := []
  statements : List String := []
  releases : List String := []
  deriving Repr

/-- Wires binders from place `i` on, up to the first that fails. The tables keep what was entered
up to there. -/
def wireAll (t : Tables) (i : Nat) : List Binder → Tables × Except BinderFault Wiring
  | [] => (t, .ok {})
  | b :: bs =>
    let (entry, t) := register t b
    match wire i entry b with
    | .error fault => (t, .error fault)
    | .ok (statements, releases) =>
      match wireAll t (i + 1) bs with
      | (t, .error fault) => (t, .error fault)
      | (t, .ok rest) =>
        (t, .ok
          { binders := { b with entry := some entry } :: rest.binders
            statements := statements ++ rest.statements
            releases := releases ++ rest.releases })

/-- The code of a template whose skeleton is the given fragment. -/
def generate (t : Tables) (fragment : Nat) (binders : List Binder) :
    Tables × Except BinderFault (List Binder × RenderCode) :=
  match wireAll t 0 binders with
  | (t, .error fault) => (t, .error fault)
  | (t, .ok wiring) =>
    (t, .ok (wiring.binders,
      { fragment := fragment
        statements := s!"const __nodes = __render{fragment}();" :: wiring.statements
        releases := wiring.releases }))

end TaggedMarkup.Code

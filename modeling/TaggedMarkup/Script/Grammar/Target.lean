import TaggedMarkup.Script.Cursor

/-!
# The grammar of host scripts: assignment targets

An array or object literal in front of an assignment is a target. It is read as a literal first
and checked afterwards. Two things of a literal matter only if it becomes a target, and the cursor
remembers where they stand: a shorthand with a default is allowed only in a target, and a comma
behind a spread only in a literal.
-/

namespace TaggedMarkup.Script

open Parse

/-- Whether an expression names one place to assign to. -/
def Expr.isSimpleTarget : Expr → Bool
  | .name _ | .member _ _ _ | .index _ _ _ | .secret _ _ _ => true
  | .paren e _ | .cast _ e _ => e.isSimpleTarget
  | _ => false

mutual

/-- Whether an expression may stand in front of an assignment. No literal among `openEnded` may,
since it ends with a spread and a comma. -/
def Expr.isTarget (openEnded : List Nat) : Expr → Bool
  | .name _ | .member _ _ _ | .index _ _ _ | .secret _ _ _ => true
  | .paren e _ | .cast _ e _ => e.isSimpleTarget
  | .array items span => !openEnded.contains span.start && areTargetItems openEnded items
  | .object members span => !openEnded.contains span.start && areTargetMembers openEnded members
  | _ => false

/-- Whether the elements of an array literal are targets. -/
def areTargetItems (openEnded : List Nat) : List Item → Bool
  | [] => true
  | .hole :: is => areTargetItems openEnded is
  | .expr (.assign isPlain _ _ _) :: is => isPlain && areTargetItems openEnded is
  | .expr e :: is => e.isTarget openEnded && areTargetItems openEnded is
  | .spread e :: is => e.isTarget openEnded && is.isEmpty

/-- Whether the members of an object literal are targets. -/
def areTargetMembers (openEnded : List Nat) : List Member → Bool
  | [] => true
  | .pair _ (.assign isPlain _ _ _) :: ms => isPlain && areTargetMembers openEnded ms
  | .pair _ e :: ms => e.isTarget openEnded && areTargetMembers openEnded ms
  | .method _ _ :: _ => false
  | .short _ :: ms => areTargetMembers openEnded ms
  | .shortDefault _ _ :: ms => areTargetMembers openEnded ms
  | .spread e :: ms => e.isSimpleTarget && ms.isEmpty

end

mutual

/-- Where the shorthands with a default stand that are part of a target. -/
def Expr.shorthands : Expr → List Nat
  | .array items _ => itemShorthands items
  | .object members _ => memberShorthands members
  | _ => []

/-- Where the shorthands with a default stand in the elements of a target. -/
def itemShorthands : List Item → List Nat
  | [] => []
  | .hole :: is => itemShorthands is
  | .expr e :: is => e.shorthands ++ itemShorthands is
  | .spread e :: is => e.shorthands ++ itemShorthands is

/-- Where the shorthands with a default stand in the members of a target. -/
def memberShorthands : List Member → List Nat
  | [] => []
  | .pair _ e :: ms => e.shorthands ++ memberShorthands ms
  | .shortDefault id _ :: ms => id.span.start :: memberShorthands ms
  | .method _ _ :: ms | .short _ :: ms | .spread _ :: ms => memberShorthands ms

end

/-- Takes an expression as a target, with the shorthands in it. -/
def takeTarget (e : Expr) : Parse Unit := do
  let c ← get
  require (e.isTarget c.openEnded)
  let taken := e.shorthands
  set { c with loose := c.loose.filter fun start => !taken.contains start }

/-- Notes a spread at the end of the literal that starts at an offset, if a comma follows. -/
def noteSpread (start : Nat) (close : String) : Parse Unit := do
  if (← isSign ",") && (← nextIs (isSign close)) then
    modify fun c => { c with openEnded := start :: c.openEnded }

/-- Notes a shorthand with a default at an offset. -/
def noteShorthand (start : Nat) : Parse Unit :=
  modify fun c => { c with loose := start :: c.loose }

end TaggedMarkup.Script

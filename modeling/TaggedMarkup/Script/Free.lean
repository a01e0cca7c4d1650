import TaggedMarkup.Script.Marker

/-!
# Free names of an expression

The names to which an expression refers, in the order of their first appearance. Names that a
function inside the expression binds do not count within it: its parameters and the declarations
of its body. Declarations of a block count from the block on to the end of the function.

Of the statements in a function body only those are looked into that are expressions, returns,
declarations, blocks, conditionals and throws; default values of parameters are not looked into.
-/

namespace TaggedMarkup.Script

/-- What is known on the way: the free names so far, and the names bound by each function around,
the innermost first. -/
structure Free where
  found : List String := []
  bound : List (List String) := []
  deriving DecidableEq, Repr

namespace Free

/-- Notes a reference. -/
def refer (name : String) (s : Free) : Free :=
  if s.bound.any (·.contains name) || s.found.contains name then s
  else { s with found := s.found ++ [name] }

/-- Binds names in the innermost function. Outside of functions nothing is bound. -/
def bind (names : List String) (s : Free) : Free :=
  match s.bound with
  | [] => s
  | frame :: frames => { s with bound := (frame ++ names) :: frames }

/-- Enters a function. -/
def enter (s : Free) : Free := { s with bound := [] :: s.bound }

/-- Leaves a function. -/
def leave (s : Free) : Free := { s with bound := s.bound.tail }

/-- Binds the names of a pattern. One with misplaced markers binds none. -/
def bindPattern (p : Pattern) (s : Free) : Free :=
  match p.bindings with
  | .ok bs => s.bind (bs.map Binding.name)
  | .error _ => s

/-- Binds the names of parameters. -/
def bindItems (items : List PatternItem) (s : Free) : Free :=
  (items.filterMap PatternItem.pattern?).foldl (fun s p => s.bindPattern p) s

/-- Binds what a statement declares. -/
def declare (s : Free) : Stmt → Free
  | .vars _ decls => decls.foldl (fun s d => match d with | .mk target _ => s.bindPattern target) s
  | .function (.mk (some name) _ _) => s.bind [name.text]
  | .class (.mk _ (some name) _ _) => s.bind [name.text]
  | _ => s

/-- Binds what the statements of a list declare. -/
def declareAll (stmts : List Stmt) (s : Free) : Free := stmts.foldl declare s

end Free

/-- Whether the last link of an optional chain is looked into for names. -/
def Expr.isFreeLink : Expr → Bool
  | .call .. | .member .. | .index .. | .secret .. | .cast .nonNull _ _ => true
  | _ => false

mutual

/-- Adds the names of an expression. -/
def Expr.free (s : Free) : Expr → Free
  | .name id => s.refer id.text
  | .template _ holes _ => freeExprs s holes
  | .tagged tag _ holes _ => freeExprs (tag.free s) holes
  | .array items _ => freeItems s items
  | .object members _ => freeMembers s members
  | .arrow f _ => f.free s
  | .function f _ => f.free s
  | .assign _ target value _ => value.free (target.freeTarget s)
  | .update target _ => target.freeTarget s
  | .await value _ => value.free s
  | .yield value _ => freeOption s value
  | .unary operand _ => operand.free s
  | .binary left right _ => right.free (left.free s)
  | .logical left right _ => right.free (left.free s)
  | .conditional test yes no _ => no.free (yes.free (test.free s))
  | .sequence items _ => freeExprs s items
  | .paren inner _ => inner.free s
  | .call callee args _ => freeItems (callee.free s) args
  | .construct callee args _ => freeItems (callee.free s) args
  | .chain links _ => if links.isFreeLink then links.free s else s
  | .member object _ _ => object.free s
  | .index object index _ => index.free (object.free s)
  | .secret object _ _ => object.free s
  | .cast _ value _ => value.free s
  | .literal _ | .string _ _ | .keyword _ | .class _ _ | .hasSecret _ _ _ | .load _ _
  | .instantiate _ _ => s

/-- Adds the names of a place to assign to. Of a pattern none count. -/
def Expr.freeTarget (s : Free) : Expr → Free
  | .name id => s.refer id.text
  | .member object _ _ => object.free s
  | .index object index _ => index.free (object.free s)
  | .paren inner _ => inner.freeTarget s
  | _ => s

/-- Adds the names of several expressions. -/
def freeExprs (s : Free) : List Expr → Free
  | [] => s
  | e :: es => freeExprs (e.free s) es

/-- Adds the names of an expression that may be missing. -/
def freeOption (s : Free) : Option Expr → Free
  | none => s
  | some e => e.free s

/-- Adds the names of array items or arguments. -/
def freeItems (s : Free) : List Item → Free
  | [] => s
  | item :: items => freeItems (item.free s) items

/-- Adds the names of an array item or argument. -/
def Item.free (s : Free) : Item → Free
  | .hole => s
  | .expr value => value.free s
  | .spread value => value.free s

/-- Adds the names of the members of an object. -/
def freeMembers (s : Free) : List Member → Free
  | [] => s
  | m :: ms => freeMembers (m.free s) ms

/-- Adds the names of a member of an object. -/
def Member.free (s : Free) : Member → Free
  | .pair key value => value.free (key.free s)
  | .method key value => value.free (key.free s)
  | .short id => s.refer id.text
  | .shortDefault id _ => s.refer id.text
  | .spread value => value.free s

/-- Adds the names of a computed key. -/
def Key.free (s : Free) : Key → Free
  | .computed value => value.free s
  | _ => s

/-- Adds the names of a function. -/
def Function.free (s : Free) : Function → Free
  | .mk _ params body => (body.free (s.enter.bindItems params)).leave

/-- Adds the names of the body of a function. -/
def Body.free (s : Free) : Body → Free
  | .none => s
  | .expr value => value.free s
  | .block stmts => freeStmts (s.declareAll stmts) stmts

/-- Adds the names of statements. -/
def freeStmts (s : Free) : List Stmt → Free
  | [] => s
  | stmt :: stmts => freeStmts (stmt.free s) stmts

/-- Adds the names of a statement. -/
def Stmt.free (s : Free) : Stmt → Free
  | .expr value _ => value.free s
  | .ret value _ => freeOption s value
  | .vars _ decls => freeDecls s decls
  | .block stmts => freeStmts (s.declareAll stmts) stmts
  | .cond test yes no => no.free (yes.free (test.free s))
  | .throw value => value.free s
  | .function f => f.free s
  | _ => s

/-- Adds the names of the initial values of declarations. -/
def freeDecls (s : Free) : List Declarator → Free
  | [] => s
  | d :: ds => freeDecls (d.free s) ds

/-- Adds the names of an initial value. -/
def Declarator.free (s : Free) : Declarator → Free
  | .mk _ value => freeOption s value

end

/-- The free names of an expression. -/
def Expr.freeNames (e : Expr) : List String := (e.free {}).found

end TaggedMarkup.Script

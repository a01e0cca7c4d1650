/-!
# Syntax trees of host scripts

A host script is a module of statements, expressions and binding patterns. Every node that the
compiler edits or reports carries its span: the byte offsets of its first character and of the
character after its last one. Parentheses are nodes of their own, and an optional chain is one
`chain` node around its links.
-/

namespace TaggedMarkup.Script

/-- A half-open range of byte offsets. -/
structure Span where
  start : Nat
  stop : Nat
  deriving DecidableEq, Repr, Inhabited

/-- One occurrence of an identifier. -/
structure Name where
  text : String
  span : Span
  deriving DecidableEq, Repr, Inhabited

/-- The literal text between two holes of a template, escapes kept as they are written. -/
structure Chunk where
  raw : String
  span : Span
  deriving DecidableEq, Repr, Inhabited

/-- Forms of a type cast; none of them changes the value. -/
inductive Cast where
  | as
  | satisfies
  | nonNull
  | assertion
  deriving DecidableEq, Repr

/-- Declarations that bind patterns. -/
inductive VarKind where
  | var
  | «let»
  | const
  | using
  deriving DecidableEq, Repr

/-- The two loops over the members of a value. -/
inductive EachKind where
  | keys
  | values
  deriving DecidableEq, Repr

/-- One name that an import declaration brings in. -/
inductive ImportName where
  /-- The default export under a local name. -/
  | default (localName : Name)
  /-- All exports as one object. -/
  | all (localName : Name)
  /-- A named export; the span covers the specifier as it is written. One that is `ofTypes` is no
  value. -/
  | named (ofTypes : Bool) (imported : String) (localName : Name) (span : Span)
  deriving DecidableEq, Repr

/-- An import declaration; `names` is `none` when it is written without a clause. One that is
`ofTypes` brings in no values. -/
structure Import where
  ofTypes : Bool
  module : String
  names : Option (List ImportName)
  span : Span
  deriving DecidableEq, Repr

mutual

inductive Expr where
  | name (id : Name)
  | literal (span : Span)
  | string (value : String) (span : Span)
  /-- `this`, `super`, `new.target` and `import.meta`. -/
  | keyword (span : Span)
  | template (chunks : List Chunk) (holes : List Expr) (span : Span)
  | tagged (tag : Expr) (chunks : List Chunk) (holes : List Expr) (span : Span)
  | array (items : List Item) (span : Span)
  | object (members : List Member) (span : Span)
  | function (f : Function) (span : Span)
  | arrow (f : Function) (span : Span)
  | class (c : Class) (span : Span)
  | unary (operand : Expr) (span : Span)
  | update (target : Expr) (span : Span)
  | binary (left right : Expr) (span : Span)
  | logical (left right : Expr) (span : Span)
  | conditional (test yes no : Expr) (span : Span)
  /-- An assignment; one that is not plain computes with the old value. -/
  | assign (isPlain : Bool) (target value : Expr) (span : Span)
  | sequence (items : List Expr) (span : Span)
  | paren (inner : Expr) (span : Span)
  | call (callee : Expr) (args : List Item) (span : Span)
  | construct (callee : Expr) (args : List Item) (span : Span)
  | member (object : Expr) (property : Name) (span : Span)
  | index (object index : Expr) (span : Span)
  | secret (object : Expr) (property : Name) (span : Span)
  | hasSecret (property : Name) (object : Expr) (span : Span)
  | chain (links : Expr) (span : Span)
  | await (value : Expr) (span : Span)
  | yield (value : Option Expr) (span : Span)
  | load (args : List Expr) (span : Span)
  | cast (form : Cast) (value : Expr) (span : Span)
  | instantiate (value : Expr) (span : Span)

/-- An element of an array literal or of an argument list. -/
inductive Item where
  | hole
  | expr (value : Expr)
  | spread (value : Expr)

/-- How a property, a method or a field is named. -/
inductive Key where
  | fixed (text : String)
  | computed (value : Expr)
  | secret (text : String)

/-- A member of an object literal. -/
inductive Member where
  | pair (key : Key) (value : Expr)
  | method (key : Key) (value : Expr)
  | short (id : Name)
  /-- `id = value`: a literal holds it only as an assignment target. -/
  | shortDefault (id : Name) (value : Expr)
  | spread (value : Expr)

/-- What a name is bound by; a pattern's span covers its type annotation. -/
inductive Pattern where
  | name (id : Name) (span : Span)
  | object (parts : List PatternPart) (span : Span)
  | array (items : List PatternItem) (span : Span)
  | withDefault (target : Pattern) (value : Expr) (span : Span)

inductive PatternPart where
  | prop (key : Key) (target : Pattern)
  | rest (target : Pattern)

/-- An element of an array pattern or of a parameter list. Only parameters have decorators. -/
inductive PatternItem where
  | hole
  | item (decorators : List Expr) (target : Pattern)
  | rest (decorators : List Expr) (target : Pattern)

/-- Parameters and body of a function, a method or an arrow. -/
inductive Function where
  | mk (name : Option Name) (params : List PatternItem) (body : Body)

inductive Body where
  | none
  | expr (value : Expr)
  | block (body : List Stmt)

inductive Class where
  | mk (decorators : List Expr) (name : Option Name) (parent : Option Expr)
      (members : List ClassMember)

inductive ClassMember where
  | method (decorators : List Expr) (key : Key) (f : Function)
  | field (decorators : List Expr) (key : Key) (value : Option Expr)
  | accessor (decorators : List Expr) (key : Key) (value : Option Expr)
  | block (body : List Stmt)
  | signature

inductive Declarator where
  | mk (target : Pattern) (value : Option Expr)

inductive Case where
  | mk (test : Option Expr) (body : List Stmt)

inductive Stmt where
  | expr (value : Expr) (span : Span)
  | block (body : List Stmt)
  /-- A missing branch is the empty statement. -/
  | cond (test : Expr) (yes no : Stmt)
  | ret (value : Option Expr) (span : Span)
  | vars (kind : VarKind) (decls : List Declarator)
  | function (f : Function)
  | class (c : Class)
  /-- The head declares variables, is an expression, or is empty. -/
  | loop (head : Stmt) (test update : Option Expr) (body : Stmt)
  | each (kind : EachKind) (head : Stmt) (source : Expr) (body : Stmt)
  | while (test : Expr) (body : Stmt)
  | doWhile (body : Stmt) (test : Expr)
  | switch (value : Expr) (cases : List Case)
  /-- The parameter of the handler is a list of at most one item. -/
  | try (body : List Stmt) (param : List PatternItem) (handler finalizer : Body)
  | labeled (label : Name) (body : Stmt)
  | throw (value : Expr)
  | with (object : Expr) (body : Stmt)
  /-- `break`, `continue`, `debugger` and the empty statement. -/
  | exit
  | «import» (decl : Import)
  | exported (decl : Stmt)
  | exportedDefault (decl : Stmt)
  /-- `export` with a list of local names; `from` tells that they are names of another module. -/
  | exportedNames (names : List String) («from» : Option String)
  | exportedValue (value : Expr)
  /-- An enumeration, with the names of its members and the values that are given. -/
  | enum (id : Name) (members : List String) (values : List Expr)
  /-- A namespace under the names of its path, or the module that a string names. -/
  | «namespace» (path : List Name) (body : List Stmt)
  /-- `import id = root.member`, or without a root the name of a required module. -/
  | alias (id : Name) (root : Option Name)
  /-- A declaration that has a meaning for types only. -/
  | typeOnly

end

instance : Inhabited Expr := ⟨.literal default⟩
instance : Inhabited Stmt := ⟨.exit⟩

/-- The span of an expression. -/
def Expr.span : Expr → Span
  | .name id => id.span
  | .literal s | .string _ s | .keyword s | .template _ _ s | .tagged _ _ _ s | .array _ s
  | .object _ s | .function _ s | .arrow _ s | .class _ s | .unary _ s | .update _ s
  | .binary _ _ s | .logical _ _ s | .conditional _ _ _ s | .assign _ _ _ s | .sequence _ s
  | .paren _ s | .call _ _ s | .construct _ _ s | .member _ _ s | .index _ _ s | .secret _ _ s
  | .hasSecret _ _ s | .chain _ s | .await _ s | .yield _ s | .load _ s | .cast _ _ s
  | .instantiate _ s => s

/-- The span of a pattern. -/
def Pattern.span : Pattern → Span
  | .name _ s | .object _ s | .array _ s | .withDefault _ _ s => s

/-- The same pattern with its span stretched to `stop`. -/
def Pattern.extend (stop : Nat) : Pattern → Pattern
  | .name id s => .name id ⟨s.start, stop⟩
  | .object ps s => .object ps ⟨s.start, stop⟩
  | .array is s => .array is ⟨s.start, stop⟩
  | .withDefault t v s => .withDefault t v ⟨s.start, stop⟩

/-- Whether an expression is an identifier and nothing else. -/
def Expr.isName : Expr → Bool
  | .name _ => true
  | _ => false

end TaggedMarkup.Script

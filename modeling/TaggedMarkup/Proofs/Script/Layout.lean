import Mathlib.Data.List.Pairwise
import Mathlib.Tactic.Common
import TaggedMarkup.Proofs.Source.Splice
import TaggedMarkup.Script.Syntax

/-!
# The layout of a script

Where the statements, expressions and patterns of a script stand in its source. A node with a span
of its own is a node of a `SpanTree`, and the parts of other nodes count as parts of the node around
them. A script is `LaidOut` in a source if spans nest: every span holds at least one character and
cuts none, parts lie inside the whole, and no two parts of one node share a character.
-/

namespace TaggedMarkup.Script

namespace Span

/-- A span of a source: it is not empty, and cuts no character. -/
structure Proper (source : List Char) (s : Span) : Prop where
  start_lt_stop : s.start < s.stop
  cutStart : Text.IsCut source s.start
  cutStop : Text.IsCut source s.stop

/-- A span lies inside another. -/
structure Inside (s whole : Span) : Prop where
  start_le : whole.start ≤ s.start
  stop_le : s.stop ≤ whole.stop

/-- One of two spans ends in front of the other. -/
def Apart (s t : Span) : Prop := s.stop ≤ t.start ∨ t.stop ≤ s.start

instance (source : List Char) (s : Span) : Decidable (s.Proper source) :=
  decidable_of_iff (s.start < s.stop ∧ Text.IsCut source s.start ∧ Text.IsCut source s.stop)
    ⟨fun ⟨lt, first, last⟩ => ⟨lt, first, last⟩, fun ⟨lt, first, last⟩ => ⟨lt, first, last⟩⟩

instance (s whole : Span) : Decidable (s.Inside whole) :=
  decidable_of_iff (whole.start ≤ s.start ∧ s.stop ≤ whole.stop)
    ⟨fun ⟨start, stop⟩ => ⟨start, stop⟩, fun ⟨start, stop⟩ => ⟨start, stop⟩⟩

instance (s t : Span) : Decidable (s.Apart t) := inferInstanceAs (Decidable (_ ∨ _))

variable {s t u v : Span}

/-- A span lies in itself. -/
lemma Inside.refl (s : Span) : s.Inside s := ⟨Nat.le_refl _, Nat.le_refl _⟩

/-- A span lies in what a span around it lies in. -/
lemma Inside.trans (st : s.Inside t) (tu : t.Inside u) : s.Inside u :=
  ⟨Nat.le_trans tu.start_le st.start_le, Nat.le_trans st.stop_le tu.stop_le⟩

/-- Spans are apart from each other. -/
lemma Apart.symm (apart : s.Apart t) : t.Apart s := Or.symm apart

/-- What lies inside spans that are apart is apart. -/
lemma Apart.mono (apart : t.Apart v) (st : s.Inside t) (uv : u.Inside v) : s.Apart u := by
  obtain ⟨start, stop⟩ := st
  obtain ⟨start', stop'⟩ := uv
  rcases apart with apart | apart
  · exact .inl (by omega)
  · exact .inr (by omega)

/-- A span that is not empty does not lie inside two that are apart. -/
lemma Apart.not_inside (apart : t.Apart u) (lt : s.start < s.stop) (st : s.Inside t) :
    ¬ s.Inside u := by
  rintro ⟨start', stop'⟩
  obtain ⟨start, stop⟩ := st
  rcases apart with apart | apart <;> omega

end Span

/-- The span of an edit. -/
def Span.ofEdit (e : Source.Edit) : Span := ⟨e.start, e.stop⟩

/-- The span of a node, with the spans of its parts. -/
inductive SpanTree where
  | node (span : Span) (parts : List SpanTree)

/-- The span of the whole. -/
def SpanTree.span : SpanTree → Span
  | .node span _ => span

mutual

/-- The spans of a tree nest in a source. -/
def SpanTree.Nested (source : List Char) : SpanTree → Prop
  | .node span parts =>
    span.Proper source ∧ (∀ part ∈ parts, part.span.Inside span) ∧ LaidOut source parts

/-- The spans of all trees nest in a source, and the trees are apart. -/
def LaidOut (source : List Char) : List SpanTree → Prop
  | [] => True
  | t :: ts => t.Nested source ∧ (∀ u ∈ ts, t.span.Apart u.span) ∧ LaidOut source ts

end

mutual

def SpanTree.decNested (source : List Char) : ∀ t : SpanTree, Decidable (t.Nested source)
  | .node span parts =>
    have := decLaidOut source parts
    inferInstanceAs (Decidable
      (span.Proper source ∧ (∀ part ∈ parts, part.span.Inside span) ∧ LaidOut source parts))

def decLaidOut (source : List Char) : ∀ ts : List SpanTree, Decidable (LaidOut source ts)
  | [] => inferInstanceAs (Decidable True)
  | t :: ts =>
    have := SpanTree.decNested source t
    have := decLaidOut source ts
    inferInstanceAs (Decidable
      (t.Nested source ∧ (∀ u ∈ ts, t.span.Apart u.span) ∧ LaidOut source ts))

end

instance (source : List Char) (ts : List SpanTree) : Decidable (LaidOut source ts) :=
  decLaidOut source ts

/-- Trees are laid out if those of two parts are, and the trees of the one part are apart from those
of the other. -/
lemma laidOut_append {source : List Char} {ts us : List SpanTree} :
    LaidOut source (ts ++ us) ↔
      LaidOut source ts ∧ LaidOut source us ∧ ∀ t ∈ ts, ∀ u ∈ us, t.span.Apart u.span := by
  induction ts with
  | nil => simp [LaidOut]
  | cons t ts ih =>
    simp only [List.cons_append, LaidOut, ih, List.mem_append, List.mem_cons]
    constructor
    · rintro ⟨nested, apart, first, second, across⟩
      refine ⟨⟨nested, fun u mem => apart u (.inl mem), first⟩, second, ?_⟩
      rintro u (rfl | mem) v mem'
      · exact apart v (.inr mem')
      · exact across u mem v mem'
    · rintro ⟨⟨nested, apart, first⟩, second, across⟩
      refine ⟨nested, ?_, first, second, fun u mem v mem' => across u (.inr mem) v mem'⟩
      rintro u (mem | mem)
      · exact apart u mem
      · exact across t (.inl rfl) u mem

/-- The span of a nested tree is proper. -/
lemma SpanTree.Nested.proper {source : List Char} {t : SpanTree} (nested : t.Nested source) :
    t.span.Proper source := by
  obtain ⟨span, parts⟩ := t
  exact nested.1

/-- A single tree is laid out just if it is nested. -/
lemma laidOut_singleton {source : List Char} {t : SpanTree} :
    LaidOut source [t] ↔ t.Nested source := by
  simp [LaidOut]

/-- Trees that are laid out are nested. -/
lemma LaidOut.nested {source : List Char} {ts : List SpanTree} (laid : LaidOut source ts)
    {t : SpanTree} (mem : t ∈ ts) : t.Nested source := by
  induction ts with
  | nil => cases mem
  | cons u ts ih =>
    rcases List.mem_cons.1 mem with rfl | mem
    · exact laid.1
    · exact ih laid.2.2 mem

/-- Trees that are laid out are apart. -/
lemma LaidOut.pairwise {source : List Char} {ts : List SpanTree} (laid : LaidOut source ts) :
    ts.Pairwise fun t u => t.span.Apart u.span := by
  induction ts with
  | nil => exact .nil
  | cons t ts ih => exact .cons laid.2.1 (ih laid.2.2)

/-- Two trees that are laid out together are one, or apart. -/
lemma LaidOut.apart {source : List Char} {ts : List SpanTree} (laid : LaidOut source ts)
    {t u : SpanTree} (mem : t ∈ ts) (mem' : u ∈ ts) : t = u ∨ t.span.Apart u.span := by
  by_cases same : t = u
  · exact .inl same
  · have symm : Std.Symm fun t u : SpanTree => t.span.Apart u.span := ⟨fun _ _ => Span.Apart.symm⟩
    exact .inr (laid.pairwise.forall mem mem' same)

/-- A node is laid out if its span is proper and holds its parts, which are laid out. -/
lemma laidOut_node {source : List Char} {span : Span} {parts : List SpanTree} :
    LaidOut source [.node span parts] ↔
      span.Proper source ∧ (∀ part ∈ parts, part.span.Inside span) ∧ LaidOut source parts := by
  rw [laidOut_singleton, SpanTree.Nested]

/-! ## The trees of a script -/

/-- The spans of the named imports of a declaration. -/
def Import.namedSpans (decl : Import) : List Span :=
  (decl.names.getD []).filterMap fun
    | .named _ _ _ span => some span
    | _ => none

/-- The tree of an import declaration. Named imports stand in a list from the first to the last. -/
def Import.tree (decl : Import) : SpanTree :=
  .node decl.span <|
    match decl.namedSpans.head?, decl.namedSpans.getLast? with
    | some first, some last =>
      [.node ⟨first.start, last.stop⟩ (decl.namedSpans.map (.node · []))]
    | _, _ => []

mutual

/-- The tree of an expression. -/
def Expr.tree : Expr → SpanTree
  | .name id => .node id.span []
  | .literal span | .string _ span | .keyword span => .node span []
  | .template _ holes span => .node span (treesOfExprs holes)
  | .tagged tag _ holes span => .node span (tag.tree :: treesOfExprs holes)
  | .array items span => .node span (treesOfItems items)
  | .object members span => .node span (treesOfMembers members)
  | .function f span | .arrow f span => .node span f.trees
  | .class c span => .node span c.trees
  | .unary value span | .update value span | .paren value span | .member value _ span
  | .secret value _ span | .hasSecret _ value span | .chain value span | .await value span
  | .cast _ value span | .instantiate value span => .node span [value.tree]
  | .binary left right span | .logical left right span | .index left right span
  | .assign _ left right span => .node span [left.tree, right.tree]
  | .conditional test yes no span => .node span [test.tree, yes.tree, no.tree]
  | .sequence items span | .load items span => .node span (treesOfExprs items)
  | .call callee args span | .construct callee args span =>
    .node span (callee.tree :: treesOfItems args)
  | .yield value span => .node span (treesOfOption value)

/-- The trees of expressions. -/
def treesOfExprs : List Expr → List SpanTree
  | [] => []
  | e :: es => e.tree :: treesOfExprs es

/-- The tree of an expression that may be missing. -/
def treesOfOption : Option Expr → List SpanTree
  | none => []
  | some e => [e.tree]

/-- The trees of array items or arguments. -/
def treesOfItems : List Item → List SpanTree
  | [] => []
  | item :: items => item.trees ++ treesOfItems items

/-- The trees in an array item or argument. -/
def Item.trees : Item → List SpanTree
  | .hole => []
  | .expr value | .spread value => [value.tree]

/-- The trees in a key. -/
def Key.trees : Key → List SpanTree
  | .computed value => [value.tree]
  | .fixed _ | .secret _ => []

/-- The trees of the members of an object. -/
def treesOfMembers : List Member → List SpanTree
  | [] => []
  | m :: ms => m.trees ++ treesOfMembers ms

/-- The trees in a member of an object. -/
def Member.trees : Member → List SpanTree
  | .pair key value | .method key value => key.trees ++ [value.tree]
  | .short _ => []
  | .shortDefault _ value | .spread value => [value.tree]

/-- The tree of a pattern. A default value is, with its equals sign, a part behind the target. -/
def Pattern.tree : Pattern → SpanTree
  | .name _ span => .node span []
  | .object parts span => .node span (treesOfParts parts)
  | .array items span => .node span (treesOfPatternItems items)
  | .withDefault target value span =>
    .node span [target.tree, .node ⟨target.span.stop, span.stop⟩ [value.tree]]

/-- The trees of the parts of an object pattern. -/
def treesOfParts : List PatternPart → List SpanTree
  | [] => []
  | part :: parts => part.trees ++ treesOfParts parts

/-- The trees in a part of an object pattern. -/
def PatternPart.trees : PatternPart → List SpanTree
  | .prop key target => key.trees ++ [target.tree]
  | .rest target => [target.tree]

/-- The trees of the items of an array pattern or of parameters. -/
def treesOfPatternItems : List PatternItem → List SpanTree
  | [] => []
  | item :: items => item.trees ++ treesOfPatternItems items

/-- The trees in an item of an array pattern or in a parameter. -/
def PatternItem.trees : PatternItem → List SpanTree
  | .hole => []
  | .item decorators target | .rest decorators target => treesOfExprs decorators ++ [target.tree]

/-- The trees in a function. -/
def Function.trees : Function → List SpanTree
  | .mk _ params body => treesOfPatternItems params ++ body.trees

/-- The trees in a body. -/
def Body.trees : Body → List SpanTree
  | .none => []
  | .expr value => [value.tree]
  | .block body => treesOfStatements body

/-- The trees in a class. -/
def Class.trees : Class → List SpanTree
  | .mk decorators _ parent members =>
    treesOfExprs decorators ++ (treesOfOption parent ++ treesOfClassMembers members)

/-- The trees of the members of a class. -/
def treesOfClassMembers : List ClassMember → List SpanTree
  | [] => []
  | m :: ms => m.trees ++ treesOfClassMembers ms

/-- The trees in a member of a class. -/
def ClassMember.trees : ClassMember → List SpanTree
  | .method decorators key f => treesOfExprs decorators ++ key.trees ++ f.trees
  | .field decorators key value | .accessor decorators key value =>
    treesOfExprs decorators ++ key.trees ++ treesOfOption value
  | .block body => treesOfStatements body
  | .signature => []

/-- The trees of declarations. -/
def treesOfDecls : List Declarator → List SpanTree
  | [] => []
  | d :: ds => d.trees ++ treesOfDecls ds

/-- The trees in a declaration. -/
def Declarator.trees : Declarator → List SpanTree
  | .mk target value => target.tree :: treesOfOption value

/-- The trees of the cases of a switch. -/
def treesOfCases : List Case → List SpanTree
  | [] => []
  | c :: cs => c.trees ++ treesOfCases cs

/-- The trees in a case of a switch. -/
def Case.trees : Case → List SpanTree
  | .mk test body => treesOfOption test ++ treesOfStatements body

/-- The trees of statements. -/
def treesOfStatements : List Stmt → List SpanTree
  | [] => []
  | s :: ss => s.trees ++ treesOfStatements ss

/-- The trees in a statement. -/
def Stmt.trees : Stmt → List SpanTree
  | .expr value span => [.node span [value.tree]]
  | .block body | .namespace _ body => treesOfStatements body
  | .cond test yes no => test.tree :: (yes.trees ++ no.trees)
  | .ret value span => [.node span (treesOfOption value)]
  | .vars _ decls => treesOfDecls decls
  | .function f => f.trees
  | .class c => c.trees
  | .loop head test update body =>
    head.trees ++ (treesOfOption test ++ (treesOfOption update ++ body.trees))
  | .each _ head source body => head.trees ++ source.tree :: body.trees
  | .while test body | .with test body => test.tree :: body.trees
  | .doWhile body test => body.trees ++ [test.tree]
  | .switch value cases => value.tree :: treesOfCases cases
  | .try body param handler finalizer =>
    treesOfStatements body ++ ((treesOfPatternItems param ++ handler.trees) ++ finalizer.trees)
  | .labeled _ body | .exported body | .exportedDefault body => body.trees
  | .throw value | .exportedValue value => [value.tree]
  | .import decl => [decl.tree]
  | .enum _ _ values => treesOfExprs values
  | .exit | .exportedNames _ _ | .alias _ _ | .typeOnly => []

end

/-- The tree of an expression has its span. -/
@[simp] lemma Expr.span_tree (e : Expr) : e.tree.span = e.span := by
  cases e <;> rfl

/-- The tree of a pattern has its span. -/
@[simp] lemma Pattern.span_tree (p : Pattern) : p.tree.span = p.span := by
  cases p <;> rfl

end TaggedMarkup.Script

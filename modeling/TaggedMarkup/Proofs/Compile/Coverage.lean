import TaggedMarkup.Proofs.Compile.Targets

/-!
# Targets of laid out syntax

The plan of a piece of syntax has its targets in the spans of that syntax. If these nest, then the
targets are apart, and so are those inside every site. There is one rule for each way to put plans
together, and the lemmas on syntax follow the plans.
-/

namespace TaggedMarkup.Compile

open Script

/-- If trees are laid out, then the targets of a plan are apart and lie in the trees. -/
structure Covers (file : File) (ts : List SpanTree) (p : Plan) : Prop where
  cover : LaidOut file.source ts →
    Covered file.source (ts.map SpanTree.span) p.spans ∧ p.Sound file

/-- If the tree of an expression is laid out, then the plan of the site that it is replaces a span
around it, and is sound. -/
structure CoversSite (file : File) (replaced : Span) (e : Expr) (o : Option Plan) : Prop where
  cover : LaidOut file.source [e.tree] → e.span.Inside replaced →
    ∀ p, o = some p → p.spans = [replaced] ∧ p.Sound file

section

variable {file : File} {span replaced : Span} {t : SpanTree} {ts us parts : List SpanTree}
  {p q : Plan}

/-- A span that is covered by those of trees lies in one of the trees. -/
lemma Covered.inside_tree {source : List Char} {spans : List Span}
    (covered : Covered source (ts.map SpanTree.span) spans) {s : Span} (mem : s ∈ spans) :
    ∃ t ∈ ts, s.Inside t.span := by
  obtain ⟨whole, isSpan, inside⟩ := covered.inside s mem
  obtain ⟨t, isTree, rfl⟩ := List.mem_map.1 isSpan
  exact ⟨t, isTree, inside⟩

/-- What lies in the parts of a node lies in the node. -/
lemma Covered.node {source : List Char} {spans : List Span}
    (inside : ∀ part ∈ parts, part.span.Inside span)
    (covered : Covered source (parts.map SpanTree.span) spans) : Covered source [span] spans := by
  refine ⟨covered.toPlaced, fun s mem => ⟨span, List.mem_singleton_self span, ?_⟩⟩
  obtain ⟨part, isPart, sub⟩ := covered.inside_tree mem
  exact sub.trans (inside part isPart)

namespace Covers

/-- A plan that does nothing has no targets. -/
lemma done (ts : List SpanTree) : Covers file ts .done := ⟨fun _ => ⟨.nil, trivial⟩⟩

/-- A use of the tag has no targets. -/
lemma useTag (ts : List SpanTree) : Covers file ts .useTag := ⟨fun _ => ⟨.nil, trivial⟩⟩

/-- Only the spans of a plan and its sites matter. -/
lemma perm (covers : Covers file ts p) (perm : p.spans.Perm q.spans)
    (sound : p.Sound file → q.Sound file) : Covers file ts q := by
  constructor
  intro laid
  obtain ⟨covered, soundP⟩ := covers.cover laid
  exact ⟨⟨covered.perm perm, fun s mem => covered.inside s (perm.mem_iff.2 mem)⟩, sound soundP⟩

/-- The targets of two plans lie in the trees of both. -/
lemma append (first : Covers file ts p) (second : Covers file us q) :
    Covers file (ts ++ us) (.seq p q) := by
  constructor
  intro laid
  obtain ⟨laid₁, laid₂, across⟩ := laidOut_append.1 laid
  obtain ⟨covered₁, sound₁⟩ := first.cover laid₁
  obtain ⟨covered₂, sound₂⟩ := second.cover laid₂
  refine ⟨?_, sound₁, sound₂⟩
  rw [List.map_append, Plan.spans_seq]
  refine covered₁.append covered₂ ?_
  simpa only [List.forall_mem_map] using across

/-- The targets of a plan in the first tree, and those of another in the rest. -/
lemma cons (first : Covers file [t] p) (second : Covers file us q) :
    Covers file (t :: us) (.seq p q) := append first second

/-- The targets in a scope are those of its two parts. -/
lemma scope {params locals : Declared} (first : Covers file ts p) (second : Covers file us q) :
    Covers file (ts ++ us) (.scope params p locals q) := ⟨(append first second).cover⟩

/-- The targets in a block are those of its body. -/
lemma block {locals : Declared} (body : Covers file ts p) :
    Covers file ts (.block locals p) := scope (done []) body

/-- Parts in front of those that a plan is about. -/
lemma right (covers : Covers file us p) : Covers file (ts ++ us) p := by
  constructor
  intro laid
  obtain ⟨covered, sound⟩ := covers.cover (laidOut_append.1 laid).2.1
  exact ⟨covered.mono (List.map_append ▸ List.subset_append_right ..), sound⟩

/-- A tree without targets may stand in front. -/
lemma tail (covers : Covers file us p) : Covers file (t :: us) p :=
  show Covers file ([t] ++ us) p from covers.right

/-- A node around the parts that a plan is about. -/
lemma node (covers : Covers file parts p) : Covers file [.node span parts] p := by
  constructor
  intro laid
  obtain ⟨-, inside, laid⟩ := laidOut_node.1 laid
  obtain ⟨covered, sound⟩ := covers.cover laid
  exact ⟨covered.node inside, sound⟩

/-- The targets do not depend on a test if both of its cases lie in the trees. -/
lemma ite (c : Prop) [Decidable c] (yes : Covers file ts p) (no : Covers file ts q) :
    Covers file ts (if c then p else q) := by
  split
  · exact yes
  · exact no

/-- A site replaces its node. -/
lemma site {tag : Expr} {chunks : List Chunk} {holes : List Expr} {form : Form}
    (covers : Covers file (treesOfExprs holes) (planExprs file holes)) :
    Covers file [(Expr.tagged tag chunks holes span).tree]
      (.site ⟨chunks, holes, span, span, form⟩ (planExprs file holes)) := by
  constructor
  intro laid
  obtain ⟨proper, within, laidParts⟩ := laidOut_node.1 laid
  obtain ⟨covered, sound⟩ := (covers.tail (t := tag.tree)).cover laidParts
  refine ⟨.refl ⟨?_, List.pairwise_singleton _ _⟩, ⟨rfl, laidParts.2.2⟩, sound,
    covered.node within⟩
  intro s mem
  rwa [List.mem_singleton.1 mem]

/-! ### Patterns

The markers of a pattern are taken out in front of all else in it. -/

/-- Without markers nothing is taken out. -/
lemma unmarked (covers : Covers file ts p) : Covers file ts (.seq (.remove []) p) :=
  ⟨fun laid => ⟨(covers.cover laid).1, trivial, (covers.cover laid).2⟩⟩

/-- The markers of two parts are taken out together. -/
lemma interleave {ms ns : List Span} (first : Covers file ts (.seq (.remove ms) p))
    (second : Covers file us (.seq (.remove ns) q)) :
    Covers file (ts ++ us) (.seq (.remove (ms ++ ns)) (.seq p q)) := by
  -- Both plans edit the same spans in another order.
  refine (append first second).perm ?_ fun ⟨⟨_, sound₁⟩, _, sound₂⟩ => ⟨trivial, sound₁, sound₂⟩
  simp only [Plan.spans_seq, Plan.spans_remove, List.append_assoc]
  exact (List.perm_append_comm_assoc ..).append_left ms

/-- Something that has no markers follows a pattern. -/
lemma behind {ms : List Span} (first : Covers file [t] (.seq (.remove ms) p))
    (second : Covers file us q) : Covers file (t :: us) (.seq (.remove ms) (.seq p q)) :=
  List.append_nil ms ▸ interleave first second.unmarked

/-- A marker is a part of its own. -/
lemma marker : Covers file [.node span parts] (.seq (.remove [span]) .done) := by
  constructor
  intro laid
  refine ⟨.refl ⟨?_, List.pairwise_singleton _ _⟩, trivial, trivial⟩
  intro s mem
  rw [List.mem_singleton.1 mem]
  exact (laidOut_node.1 laid).1

/-- A pattern with a default value, which may be a marker. -/
lemma withDefault {target : Pattern} {value : Expr}
    (first : Covers file [target.tree] (.seq (.remove target.markers) (planPattern file target)))
    (second : Covers file [value.tree] (planExpr file value)) :
    Covers file [(Pattern.withDefault target value span).tree]
      (.seq (.remove (Pattern.withDefault target value span).markers)
        (planPattern file (.withDefault target value span))) := by
  by_cases isMarker : value.isMarker = true
  · -- The marker goes with its equals sign, and is not visited as a value.
    simp only [Pattern.markers, planPattern, isMarker, if_true]
    refine node ((interleave first marker).perm ?_ id)
    simp only [Plan.spans_seq, Plan.spans_remove]
    exact List.perm_append_comm.append_right _
  · simp only [Pattern.markers, planPattern, isMarker]
    exact node (behind first (node second))

end Covers

namespace CoversSite

/-- What is no site has no plan. -/
lemma none (e : Expr) : CoversSite file replaced e none := ⟨nofun⟩

/-- A template with the tag is replaced as a whole, and its holes are sound. -/
lemma tagged {tag : Expr} {chunks : List Chunk} {holes : List Expr} {form : Form} (c : Prop)
    [Decidable c] (covers : Covers file (treesOfExprs holes) (planExprs file holes)) :
    CoversSite file replaced (.tagged tag chunks holes span)
      (if c then some (.site ⟨chunks, holes, span, replaced, form⟩ (planExprs file holes))
        else Option.none) := by
  constructor
  intro laid within p eq
  split at eq
  · cases eq
    obtain ⟨-, parts, laid⟩ := laidOut_node.1 laid
    obtain ⟨covered, sound⟩ := (covers.tail (t := tag.tree)).cover laid
    refine ⟨rfl, ⟨rfl, laid.2.2⟩, sound, .trans ?_ (covered.node parts)⟩
    intro s mem
    exact ⟨replaced, List.mem_singleton_self _, List.mem_singleton.1 mem ▸ within⟩
  · cases eq

/-- Parentheses around a site. -/
lemma paren {inner : Expr} {o : Option Plan} (covers : CoversSite file replaced inner o) :
    CoversSite file replaced (.paren inner span) o := by
  constructor
  intro laid within
  obtain ⟨-, parts, laid⟩ := laidOut_node.1 laid
  have inside := parts inner.tree List.mem_cons_self
  exact covers.cover laid ((inner.span_tree ▸ inside).trans within)

/-- A site that is a whole body, or another expression. -/
lemma body {e : Expr} {o : Option Plan} (site : CoversSite file e.span e o)
    (other : Covers file [e.tree] p) : Covers file [e.tree] (o.getD p) := by
  cases o with
  | none => exact other
  | some q =>
    constructor
    intro laid
    obtain ⟨spans, sound⟩ := site.cover laid (.refl _) q rfl
    refine ⟨?_, sound⟩
    rw [Option.getD_some, spans, List.map_singleton, e.span_tree]
    refine .refl ⟨fun s mem => ?_, List.pairwise_singleton _ _⟩
    rw [List.mem_singleton.1 mem, ← e.span_tree]
    exact (laidOut_singleton.1 laid).proper

/-- A site that is returned, or another expression. -/
lemma ret {e : Expr} {o : Option Plan} (site : CoversSite file span e o)
    (other : Covers file [e.tree] p) : Covers file [.node span [e.tree]] (o.getD p) := by
  cases o with
  | none => exact other.node
  | some q =>
    constructor
    intro laid
    obtain ⟨proper, parts, laid⟩ := laidOut_node.1 laid
    have inside := parts e.tree List.mem_cons_self
    obtain ⟨spans, sound⟩ := site.cover laid (e.span_tree ▸ inside) q rfl
    refine ⟨?_, sound⟩
    rw [Option.getD_some, spans]
    refine .refl ⟨fun s mem => ?_, List.pairwise_singleton _ _⟩
    rwa [List.mem_singleton.1 mem]

end CoversSite

end

/-! ## Syntax

One lemma for each plan, by recursion on syntax. What a walk passes over stands in front of the
rest, and is skipped by `right` and `tail`. -/

open Covers

mutual

/-- The site that an expression is replaces a span around it. -/
lemma covers_site (file : File) (replaced : Span) (form : Form) :
    ∀ e : Expr, CoversSite file replaced e (planSite file replaced form e)
  | .tagged _ _ holes _ => .tagged _ (covers_exprs file holes)
  | .paren inner _ => (covers_site file replaced form inner).paren
  | .name _ | .literal _ | .string _ _ | .keyword _ | .template _ _ _ | .array _ _ | .object _ _
  | .function _ _ | .arrow _ _ | .class _ _ | .unary _ _ | .update _ _ | .binary _ _ _
  | .logical _ _ _ | .conditional _ _ _ _ | .assign _ _ _ _ | .sequence _ _ | .call _ _ _
  | .construct _ _ _ | .member _ _ _ | .index _ _ _ | .secret _ _ _ | .hasSecret _ _ _ | .chain _ _
  | .await _ _ | .yield _ _ | .load _ _ | .cast _ _ _ | .instantiate _ _ => .none _

/-- The targets of an expression lie in it. -/
lemma covers_expr (file : File) : ∀ e : Expr, Covers file [e.tree] (planExpr file e)
  | .tagged tag _ holes _ =>
    .ite _ (.site (covers_exprs file holes))
      (.node (.cons (covers_expr file tag) (covers_exprs file holes)))
  | .name _ => .ite _ (.useTag _) (.done _)
  | .template _ holes _ => .node (covers_exprs file holes)
  | .arrow f _ | .function f _ => .node (covers_function file f)
  | .class c _ => .node (covers_class file c)
  | .array items _ => .node (covers_items file items)
  | .object members _ => .node (covers_members file members)
  | .call callee args _ | .construct callee args _ =>
    .node (.cons (covers_expr file callee) (covers_items file args))
  | .chain links _ => .ite _ (.node (covers_expr file links)) (.done _)
  | .assign _ _ value _ => .node (covers_expr file value).tail
  | .await value _ | .unary value _ | .paren value _ | .member value _ _ | .cast .as value _
  | .cast .satisfies value _ | .cast .nonNull value _ => .node (covers_expr file value)
  | .yield value _ => .node (covers_option file value)
  | .binary left right _ | .logical left right _ | .index left right _ =>
    .node (.cons (covers_expr file left) (covers_expr file right))
  | .conditional test yes no _ =>
    .node (.cons (covers_expr file test) (.cons (covers_expr file yes) (covers_expr file no)))
  | .sequence items _ => .node (covers_exprs file items)
  | .literal _ | .string _ _ | .keyword _ | .update _ _ | .secret _ _ _ | .hasSecret _ _ _
  | .load _ _ | .cast .assertion _ _ | .instantiate _ _ => .done _

/-- The targets in expressions. -/
lemma covers_exprs (file : File) :
    ∀ es : List Expr, Covers file (treesOfExprs es) (planExprs file es)
  | [] => .done _
  | e :: es => .cons (covers_expr file e) (covers_exprs file es)

/-- The targets in an expression that may be missing. -/
lemma covers_option (file : File) :
    ∀ e : Option Expr, Covers file (treesOfOption e) (planOption file e)
  | none => .done _
  | some e => covers_expr file e

/-- The targets in the items of an array. -/
lemma covers_items (file : File) :
    ∀ items : List Item, Covers file (treesOfItems items) (planItems file items)
  | [] => .done _
  | item :: items => .append (covers_item file item) (covers_items file items)

/-- The targets in an item of an array. -/
lemma covers_item (file : File) : ∀ item : Item, Covers file item.trees (planItem file item)
  | .hole => .done _
  | .expr value | .spread value => covers_expr file value

/-- The targets in the members of an object. -/
lemma covers_members (file : File) :
    ∀ ms : List Member, Covers file (treesOfMembers ms) (planMembers file ms)
  | [] => .done _
  | m :: ms => .append (covers_member file m) (covers_members file ms)

/-- The targets in a member of an object. -/
lemma covers_member (file : File) : ∀ m : Member, Covers file m.trees (planMember file m)
  | .pair key value | .method key value => .append (covers_key file key) (covers_expr file value)
  | .short _ | .shortDefault _ _ => .ite _ (.useTag _) (.done _)
  | .spread value => covers_expr file value

/-- The targets in a key. -/
lemma covers_key (file : File) : ∀ key : Key, Covers file key.trees (planKey file key)
  | .computed value => covers_expr file value
  | .fixed _ | .secret _ => .done _

/-- The markers of a pattern and the targets in its expressions lie in it. -/
lemma covers_pattern (file : File) :
    ∀ p : Pattern, Covers file [p.tree] (.seq (.remove p.markers) (planPattern file p))
  | .name _ _ => .unmarked (.done _)
  | .object parts _ => .node (covers_parts file parts)
  | .array items _ => .node (covers_patternItems file items)
  | .withDefault target value _ =>
    .withDefault (covers_pattern file target) (covers_expr file value)

/-- The targets in the parts of an object pattern, with their markers. -/
lemma covers_parts (file : File) :
    ∀ parts : List PatternPart, Covers file (treesOfParts parts)
      (.seq (.remove (markersOfParts parts)) (planParts file parts))
  | [] => .unmarked (.done _)
  | part :: parts => .interleave (covers_part file part) (covers_parts file parts)

/-- The targets in a part of an object pattern, with its markers. -/
lemma covers_part (file : File) :
    ∀ part : PatternPart,
      Covers file part.trees (.seq (.remove part.markers) (planPart file part))
  | .prop key target => .interleave (covers_key file key).unmarked (covers_pattern file target)
  | .rest target => covers_pattern file target

/-- The targets in the items of an array pattern, with their markers. -/
lemma covers_patternItems (file : File) :
    ∀ items : List PatternItem, Covers file (treesOfPatternItems items)
      (.seq (.remove (markersOfItems items)) (planPatternItems file items))
  | [] => .unmarked (.done _)
  | item :: items => .interleave (covers_patternItem file item) (covers_patternItems file items)

/-- The targets in an item of an array pattern, with its markers. -/
lemma covers_patternItem (file : File) :
    ∀ item : PatternItem,
      Covers file item.trees (.seq (.remove item.markers) (planPatternItem file item))
  | .hole => .unmarked (.done _)
  | .item _ target | .rest _ target => (covers_pattern file target).right

/-- The targets in parameters. -/
lemma covers_params (file : File) :
    ∀ items : List PatternItem, Covers file (treesOfPatternItems items) (planParams file items)
  | [] => .done _
  | item :: items => .append (covers_param file item) (covers_params file items)

/-- The targets in a parameter. -/
lemma covers_param (file : File) :
    ∀ item : PatternItem, Covers file item.trees (planParam file item)
  | .hole => .done _
  | .item _ target | .rest _ target => (covers_pattern file target).right

/-- The targets of a function lie in its parameters and its body. -/
lemma covers_function (file : File) :
    ∀ f : Function, Covers file f.trees (planFunction file f)
  | .mk _ params body => .scope (covers_params file params) (covers_body file body)

/-- The targets in a body. -/
lemma covers_body (file : File) : ∀ body : Body, Covers file body.trees (planBody file body)
  | .none => .done _
  | .expr value => (covers_site file value.span .body value).body (covers_expr file value)
  | .block body => covers_statements file body

/-- The targets in a block. -/
lemma covers_block (file : File) : ∀ body : Body, Covers file body.trees (planBlock file body)
  | .none => .done _
  | .expr value => covers_expr file value
  | .block body => .block (covers_statements file body)

/-- The targets in a class. -/
lemma covers_class (file : File) : ∀ c : Script.Class, Covers file c.trees (planClass file c)
  | .mk _ _ parent members =>
    (append (covers_option file parent) (covers_classMembers file members)).right

/-- The targets in the members of a class. -/
lemma covers_classMembers (file : File) :
    ∀ ms : List ClassMember, Covers file (treesOfClassMembers ms) (planClassMembers file ms)
  | [] => .done _
  | m :: ms => .append (covers_classMember file m) (covers_classMembers file ms)

/-- The targets in a member of a class. -/
lemma covers_classMember (file : File) :
    ∀ m : ClassMember, Covers file m.trees (planClassMember file m)
  | .method _ _ f => (covers_function file f).right
  | .field _ _ value => (covers_option file value).right
  | .block body => .block (covers_statements file body)
  | .accessor _ _ _ | .signature => .done _

/-- The targets in declarations. -/
lemma covers_decls (file : File) :
    ∀ ds : List Declarator, Covers file (treesOfDecls ds) (planDecls file ds)
  | [] => .done _
  | d :: ds => .append (covers_decl file d) (covers_decls file ds)

/-- The targets in a declaration. -/
lemma covers_decl (file : File) : ∀ d : Declarator, Covers file d.trees (planDecl file d)
  | .mk target value => .behind (covers_pattern file target) (covers_option file value)

/-- The targets in the cases of a switch. -/
lemma covers_cases (file : File) :
    ∀ cs : List Case, Covers file (treesOfCases cs) (planCases file cs)
  | [] => .done _
  | c :: cs => .append (covers_case file c) (covers_cases file cs)

/-- The targets in a case of a switch. -/
lemma covers_case (file : File) : ∀ c : Case, Covers file c.trees (planCase file c)
  | .mk test body => .append (covers_option file test) (covers_statements file body)

/-- The targets of statements lie in them. -/
lemma covers_statements (file : File) :
    ∀ ss : List Stmt, Covers file (treesOfStatements ss) (planStatements file ss)
  | [] => .done _
  | s :: ss => .append (covers_statement file true s) (covers_statements file ss)

/-- The targets of a statement lie in it. -/
lemma covers_statement (file : File) (inList : Bool) :
    ∀ s : Stmt, Covers file s.trees (planStatement file inList s)
  | .expr value _ => .node (covers_expr file value)
  | .throw value => covers_expr file value
  | .block body => .block (covers_statements file body)
  | .cond test yes no =>
    .cons (covers_expr file test)
      (.append (covers_statement file false yes) (covers_statement file false no))
  | .ret none _ => .done _
  | .ret (some value) span => (covers_site file span _ value).ret (covers_expr file value)
  | .vars _ decls => covers_decls file decls
  | .function f => covers_function file f
  | .class c => covers_class file c
  | .loop head test update body =>
    .block (.append (covers_statement file false head) (.append (covers_option file test)
      (.append (covers_option file update) (covers_statement file false body))))
  | .each _ head source body => by
    have rest := cons (covers_expr file source) (covers_statement file false body)
    cases head
    case vars kind decls => exact .block (.append (covers_decls file decls) rest)
    all_goals exact .block rest.right
  | .while test body => .cons (covers_expr file test) (covers_statement file false body)
  | .doWhile body test => .append (covers_statement file false body) (covers_expr file test)
  | .switch value cases => .cons (covers_expr file value) (.block (covers_cases file cases))
  | .try body _ handler finalizer =>
    .append (.block (covers_statements file body))
      (.append (.block (covers_block file handler).right) (covers_block file finalizer))
  | .labeled _ body => covers_statement file false body
  | .exported decl | .exportedDefault decl => covers_statement file true decl
  | .with _ _ | .exit | .import _ | .exportedNames _ _ | .exportedValue _ | .enum _ _ _
  | .namespace _ _ | .alias _ _ | .typeOnly => .done _

end

end TaggedMarkup.Compile

import TaggedMarkup.Proofs.Compile.Coverage
import TaggedMarkup.Proofs.Script.Imports

/-!
# The edits of a script

The edits that a walk records in a script that is laid out can all be applied at once: no two share
a character, those inside a site end up in the texts of its holes (`holesApart`), of which its code
is made (`Target.Records`), and the edits of imports keep away from the others. So the compiled text
is a splice: the source, with code in place of sites, without markers, and with the edits of imports
(`edits_spliced`).
-/

namespace TaggedMarkup.Compile

open Script
open Source (Edit applyRange? splice splitOff)
open Text (IsCut byteSize)
open Walk

/-- What a walk records, whatever comes of it, are edits inside a span. None is empty, and no two
share a character. -/
structure EditsInside (whole : Span) (x : Walk Unit) : Prop where
  edits : ∀ s, ∃ new, (x.exec s).2.edits = s.edits ++ new ∧
    (∀ d ∈ new, d.start < d.stop ∧ (Span.ofEdit d).Inside whole) ∧ new.Pairwise Edit.Apart

/-- The text of a hole is its part of the source with the edits inside it applied at once. -/
structure HoleText (source : List Char) (inner : List Edit) (e : Expr)
    (text : Template.Expression) : Prop where
  offset : text.offset = e.span.start
  isIdentifier : text.isIdentifier = e.isName
  spliced : ∃ ordered,
    ordered.Perm (inner.filter (·.within e.span.start e.span.stop)) ∧
    ordered.Pairwise (fun a b => a.stop ≤ b.start) ∧
    text.source = splice source e.span.start e.span.stop ordered

/-- The edits inside the holes of a site: each lies in one hole and in no other, and becomes part of
the text of that hole. -/
structure HolesApart (file : File) (holes : List Expr) (inner : List Edit) : Prop where
  unique : ∀ d ∈ inner, ∃! i : Nat, ∃ e : Expr,
    holes[i]? = some e ∧ d.within e.span.start e.span.stop = true
  all : (holes.flatMap fun e => inner.filter (·.within e.span.start e.span.stop)) = inner
  texts : ∀ e ∈ holes, HoleText file.source inner e (holeExpression file inner e)

/-- The edit of a target. A marker is taken out. A site gets code that is made of the texts of its
holes, and these have the edits of all targets in the holes. -/
inductive Target.Records (file : File) : Target → Edit → Prop where
  | marker (span : Span) : Records file (.marker span) (.remove span.start span.stop)
  | site {here : Site} {inner : List Edit} {s : State} {code : Code.RenderCode}
    (inside : List.Forall₂ (Records file) (planExprs file here.holes).targets inner)
    (apart : HolesApart file here.holes inner)
    (made : MadeOf file s here.chunks here.holes (here.holes.map (holeExpression file inner))
      code) :
    Records file (.site here) ⟨here.replaced.start, here.replaced.stop,
      here.form.print code (marginAt file here.replaced.start)⟩

/-- A walk that succeeds records one edit, which is that of a site. -/
structure Replaces (file : File) (here : Site) (x : Walk Unit) : Prop where
  edit : ∀ s s', x.exec s = (.ok (), s') →
    ∃ d, s'.edits = s.edits ++ [d] ∧ Target.Records file (.site here) d

/-- An expression is a site, with or without parentheses. -/
inductive IsSite (file : File) (chunks : List Chunk) (holes : List Expr) (span : Span) :
    Expr → Prop where
  | tagged {tag : Expr} (isTag : isTag file tag = true) :
    IsSite file chunks holes span (.tagged tag chunks holes span)
  | paren {inner : Expr} {outer : Span} (site : IsSite file chunks holes span inner) :
    IsSite file chunks holes span (.paren inner outer)

variable {source : List Char}

/-! ## Nodes -/

/-- Edits of placed spans agree, and fit the source. -/
lemma Placed.agree {edits : List Edit} (placed : Placed source (edits.map Span.ofEdit)) :
    edits.Pairwise Edit.Agrees ∧ ∀ d ∈ edits, d.start < d.stop ∧ d.Fits source := by
  have proper {d : Edit} (mem : d ∈ edits) : (Span.ofEdit d).Proper source :=
    placed.proper _ (List.mem_map_of_mem mem)
  refine ⟨?_, fun d mem => ?_⟩
  · have apart := List.pairwise_map.1 placed.apart
    exact apart.imp_of_mem fun {a b} memA memB (apart : a.Apart b) =>
      apart.agrees (proper memA).start_lt_stop (proper memB).start_lt_stop
  · obtain ⟨lt, first, last⟩ := proper mem
    exact ⟨lt, Nat.le_of_lt lt, first, last⟩

/-- A walk over syntax that is laid out edits the spans of its targets. -/
lemma Covers.adds {file : File} {ts : List SpanTree} {p : Plan} (covers : Covers file ts p)
    (laid : LaidOut file.source ts) : Adds file.source p.spans (p.run file) := by
  obtain ⟨covered, sound⟩ := covers.cover laid
  exact p.adds sound covered.toPlaced

/-- A walk over syntax that is laid out records edits inside it, whatever comes of the walk. -/
lemma Covers.edits {file : File} {ts : List SpanTree} {p : Plan} (covers : Covers file ts p)
    (laid : LaidOut file.source ts) (s : State) :
    ∃ new, ((p.run file).exec s).2.edits = s.edits ++ new ∧
      Covered file.source (ts.map SpanTree.span) (new.map Span.ofEdit) := by
  obtain ⟨new, edits, recorded, -⟩ := (covers.adds laid).adds s
  exact ⟨new, edits, .trans (covers.cover laid).1.inside recorded⟩

/-- The edits of syntax lie in a span around its trees. -/
lemma Covers.editsInside {file : File} {ts : List SpanTree} {p : Plan} {x : Walk Unit}
    {whole : Span} (covers : Covers file ts p) (visit : x = p.run file)
    (laid : LaidOut file.source ts) (inside : ∀ t ∈ ts, t.span.Inside whole) :
    EditsInside whole x := by
  subst visit
  constructor
  intro s
  obtain ⟨new, edits, covered⟩ := covers.edits laid s
  have agree := covered.toPlaced.agree
  refine ⟨new, edits, fun d mem => ⟨(agree.2 d mem).1, ?_⟩, agree.1.imp fun agrees => agrees.apart⟩
  obtain ⟨t, isTree, sub⟩ := covered.inside_tree (List.mem_map_of_mem mem)
  exact sub.trans (inside t isTree)

/-! ## Holes -/

/-- An edit is applied with those of a span if it lies inside. -/
lemma within_iff {d : Edit} {s : Span} :
    d.within s.start s.stop = true ↔ (Span.ofEdit d).Inside s := by
  simp only [Edit.within, Bool.and_eq_true, decide_eq_true_eq]
  constructor
  · rintro ⟨start, stop⟩
    exact ⟨start, stop⟩
  · rintro ⟨start, stop⟩
    exact ⟨start, stop⟩

/-- The trees of expressions are those of each expression. -/
lemma treesOfExprs_eq_map (es : List Expr) : treesOfExprs es = es.map Expr.tree := by
  induction es with
  | nil => rfl
  | cons e es ih => rw [treesOfExprs, ih, List.map_cons]

/-- The edits of expressions lie each in one of them. -/
lemma mem_edits_exprs {file : File} {es : List Expr} (laid : LaidOut file.source (treesOfExprs es))
    (s : State) :
    ∃ new, (((planExprs file es).run file).exec s).2.edits = s.edits ++ new ∧
      Placed file.source (new.map Span.ofEdit) ∧
      ∀ d ∈ new, ∃ e ∈ es, (Span.ofEdit d).Inside e.span := by
  obtain ⟨new, edits, covered⟩ := (covers_exprs file es).edits laid s
  refine ⟨new, edits, covered.toPlaced, fun d mem => ?_⟩
  obtain ⟨t, isTree, inside⟩ := covered.inside_tree (List.mem_map_of_mem mem)
  rw [treesOfExprs_eq_map] at isTree
  obtain ⟨e, isExpr, rfl⟩ := List.mem_map.1 isTree
  exact ⟨e, isExpr, e.span_tree ▸ inside⟩

/-- The edits in expressions come in the order of the expressions. -/
lemma flatMap_edits_exprs {file : File} {es : List Expr} {s t : State} {new : List Edit}
    (laid : LaidOut file.source (treesOfExprs es))
    (ok : ((planExprs file es).run file).exec s = (.ok (), t)) (edits : t.edits = s.edits ++ new) :
    (es.flatMap fun e => new.filter (·.within e.span.start e.span.stop)) = new := by
  induction es generalizing s new with
  | nil =>
    cases ok
    exact (List.self_eq_append_right.1 edits).symm
  | cons e es ih =>
    obtain ⟨_, u, visited, ok⟩ := exec_bind_ok.1 ok
    obtain ⟨nested, across, laid⟩ := laid
    obtain ⟨first, edits₁, covered⟩ := (covers_expr file e).edits (laidOut_singleton.2 nested) s
    obtain ⟨second, edits₂, placed, inside₂⟩ := mem_edits_exprs laid u
    rw [visited] at edits₁
    rw [ok] at edits₂
    -- The edits of the first expression come in front of those of the others.
    have new_eq : new = first ++ second := by
      have both : s.edits ++ new = s.edits ++ (first ++ second) := by
        rw [← edits, edits₂, edits₁, List.append_assoc]
      exact List.append_cancel_left both
    have apart : ∀ e' ∈ es, e.span.Apart e'.span := by
      intro e' mem
      rw [← e.span_tree, ← e'.span_tree]
      exact across e'.tree (treesOfExprs_eq_map es ▸ List.mem_map_of_mem mem)
    have own : ∀ d ∈ first, d.start < d.stop ∧ (Span.ofEdit d).Inside e.span := by
      intro d mem
      obtain ⟨t, isTree, inside⟩ := covered.inside_tree (List.mem_map_of_mem mem)
      rw [List.mem_singleton.1 isTree, e.span_tree] at inside
      exact ⟨(covered.toPlaced.agree.2 d mem).1, inside⟩
    -- What is recorded in one expression lies in no other.
    have here : first.filter (·.within e.span.start e.span.stop) = first :=
      List.filter_eq_self.2 fun d mem => within_iff.2 (own d mem).2
    have later : second.filter (·.within e.span.start e.span.stop) = [] := by
      refine List.filter_eq_nil_iff.2 fun d mem => mt within_iff.1 ?_
      obtain ⟨e', isExpr, inside⟩ := inside₂ d mem
      exact (apart e' isExpr).symm.not_inside (placed.agree.2 d mem).1 inside
    have elsewhere : ∀ e' ∈ es, (first ++ second).filter (·.within e'.span.start e'.span.stop) =
        second.filter (·.within e'.span.start e'.span.stop) := by
      intro e' mem
      rw [List.filter_append, List.filter_eq_nil_iff.2, List.nil_append]
      exact fun d isFirst => mt within_iff.1 ((apart e' mem).not_inside (own d isFirst).1
        (own d isFirst).2)
    rw [new_eq, List.flatMap_cons, List.filter_append, here, later, List.append_nil,
      List.flatMap_congr elsewhere, ih laid ok edits₂]

/-- An edit that is not empty lies in no two expressions that are apart. -/
lemma existsUnique_within {es : List Expr} {d : Edit} {e : Expr}
    (apart : es.Pairwise fun a b => a.span.Apart b.span) (nonempty : d.start < d.stop)
    (mem : e ∈ es) (inside : (Span.ofEdit d).Inside e.span) :
    ∃! i : Nat, ∃ e : Expr, es[i]? = some e ∧ d.within e.span.start e.span.stop = true := by
  obtain ⟨i, at_i⟩ := List.getElem?_of_mem mem
  refine ⟨i, ⟨e, at_i, within_iff.2 inside⟩, ?_⟩
  rintro j ⟨e', at_j, within⟩
  have apart_of_lt {k l : Nat} {a b : Expr} (lt : k < l) (at_k : es[k]? = some a)
      (at_l : es[l]? = some b) : a.span.Apart b.span := by
    obtain ⟨_, rfl⟩ := List.getElem?_eq_some_iff.1 at_k
    obtain ⟨_, rfl⟩ := List.getElem?_eq_some_iff.1 at_l
    exact List.pairwise_iff_getElem.1 apart k l _ _ lt
  rcases Nat.lt_trichotomy i j with lt | same | lt
  · exact absurd (within_iff.1 within) ((apart_of_lt lt at_i at_j).not_inside nonempty inside)
  · exact same.symm
  · exact absurd inside ((apart_of_lt lt at_j at_i).not_inside nonempty (within_iff.1 within))

/-- The holes of a site that is laid out keep their edits apart, and have them in their texts. -/
lemma holesApart {file : File} {holes : List Expr} {s t : State} {inner : List Edit}
    (laid : LaidOut file.source (treesOfExprs holes))
    (ok : ((planExprs file holes).run file).exec s = (.ok (), t))
    (edits : t.edits = s.edits ++ inner) : HolesApart file holes inner := by
  obtain ⟨new, edits', placed, inside⟩ := mem_edits_exprs laid s
  rw [ok] at edits'
  obtain rfl : inner = new := List.append_cancel_left (edits.symm.trans edits')
  obtain ⟨agree, fits⟩ := placed.agree
  have apart : holes.Pairwise fun e e' => e.span.Apart e'.span := by
    have trees := laid.pairwise
    rw [treesOfExprs_eq_map, List.pairwise_map] at trees
    simpa only [Expr.span_tree] using trees
  refine ⟨?_, flatMap_edits_exprs laid ok edits, ?_⟩
  · intro d mem
    obtain ⟨e, isHole, sub⟩ := inside d mem
    exact existsUnique_within apart (fits d mem).1 isHole sub
  · intro e isHole
    have proper : e.span.Proper file.source := by
      have nested := laid.nested (treesOfExprs_eq_map holes ▸ List.mem_map_of_mem isHole)
      exact e.span_tree ▸ nested.proper
    obtain ⟨ordered, perm, chain, applied⟩ := Source.applyRange?_spliced
      (Nat.le_of_lt proper.start_lt_stop) proper.cutStart proper.cutStop
      (fun d mem => (fits d mem).2) agree
    exact ⟨rfl, rfl, ordered, perm, chain, by rw [holeExpression, applied, Option.getD_some]⟩

/-! ## Sites -/

/-- A run that succeeds records one edit for each target. -/
lemma Plan.records {file : File} {p : Plan} {s t : State} (sound : p.Sound file)
    (ok : (p.run file).exec s = (.ok (), t)) :
    ∃ new, t.edits = s.edits ++ new ∧ List.Forall₂ (Target.Records file) p.targets new := by
  induction p generalizing s t with
  | done | useTag =>
    cases ok
    exact ⟨[], (List.append_nil _).symm, .nil⟩
  | seq first second ih₁ ih₂ =>
    obtain ⟨_, u, ok₁, ok₂⟩ := exec_bind_ok.1 ok
    obtain ⟨new, edits, records⟩ := ih₁ sound.1 ok₁
    obtain ⟨new', edits', records'⟩ := ih₂ sound.2 ok₂
    exact ⟨new ++ new', by rw [edits', edits, List.append_assoc],
      List.rel_append records records'⟩
  | scope params first locals second ih₁ ih₂ =>
    obtain ⟨_, inner, rfl⟩ := exec_inScope_ok.1 ok
    obtain ⟨_, s₁, declared, inner⟩ := exec_bind_ok.1 inner
    obtain ⟨_, s₂, ok₁, inner⟩ := exec_bind_ok.1 inner
    obtain ⟨_, s₃, declared', ok₂⟩ := exec_bind_ok.1 inner
    obtain ⟨new, edits, records⟩ := ih₁ sound.1 ok₁
    obtain ⟨new', edits', records'⟩ := ih₂ sound.2 ok₂
    refine ⟨new ++ new', ?_, List.rel_append records records'⟩
    simp only [edits', edits_declareAll declared', edits, edits_declareAll declared,
      List.append_assoc]
  | remove spans =>
    cases ok
    exact ⟨_, rfl, List.forall₂_map_left_iff.2 (List.forall₂_map_right_iff.2
      (List.forall₂_same.2 fun span _ => .marker span))⟩
  | site here inside ih =>
    obtain ⟨⟨rfl, laid⟩, sound, -⟩ := sound
    obtain ⟨_, _, got, ok⟩ := exec_bind_ok.1 ok
    cases got
    obtain ⟨_, u, visited, ok⟩ := exec_bind_ok.1 ok
    obtain ⟨code, r, compiled, recorded⟩ := exec_bind_ok.1 ok
    cases recorded
    obtain ⟨inner, edits, inside⟩ := ih sound visited
    have kept := edits_compileSite file here edits
    rw [compiled] at kept
    have made := (compileSite_ok compiled).1
    rw [edits, splitOff, List.splitAt_eq, List.drop_left] at made
    exact ⟨[_], congrArg (· ++ _) kept,
      .cons (.site inside (holesApart laid visited edits) made) .nil⟩

/-- A plan that is a site records the edit of the site. -/
lemma Covers.replaces {file : File} {ts : List SpanTree} {p : Plan} {here : Site}
    {x : Walk Unit} (covers : Covers file ts p) (visit : x = p.run file)
    (laid : LaidOut file.source ts) (targets : p.targets = [.site here]) :
    Replaces file here x := by
  subst visit
  constructor
  intro s s' ok
  obtain ⟨new, edits, records⟩ := p.records (covers.cover laid).2 ok
  rw [targets] at records
  obtain ⟨d, rest, record, none, rfl⟩ := List.forall₂_cons_left_iff.1 records
  cases none
  exact ⟨d, edits, record⟩

section Replaces

variable {file : File} {chunks : List Chunk} {holes : List Expr} {span : Span} {e : Expr}

/-- An expression that is a site has the plan of one. -/
lemma IsSite.plan (site : IsSite file chunks holes span e) (replaced : Span) (form : Form) :
    planSite file replaced form e =
      some (.site ⟨chunks, holes, span, replaced, form⟩ (planExprs file holes)) := by
  induction site with
  | tagged isTag => exact if_pos isTag
  | paren _ ih => exact ih

/-- A site in an expression is replaced by a call. -/
lemma replaces_call {tag : Expr} (isTag : isTag file tag = true)
    (laid : LaidOut file.source [(Expr.tagged tag chunks holes span).tree]) :
    Replaces file ⟨chunks, holes, span, span, .call⟩
      (visitExpr file (.tagged tag chunks holes span)) := by
  have plan : planExpr file (.tagged tag chunks holes span) =
      .site ⟨chunks, holes, span, span, .call⟩ (planExprs file holes) := if_pos isTag
  exact (covers_expr file (.tagged tag chunks holes span)).replaces (visitExpr_eq_run file _) laid
    (congrArg Plan.targets plan)

/-- A site that is a whole body is replaced by a block. -/
lemma IsSite.replaces_body (site : IsSite file chunks holes span e)
    (laid : LaidOut file.source [e.tree]) :
    Replaces file ⟨chunks, holes, span, e.span, .body⟩ (visitBody file (.expr e)) := by
  have visit : visitBody file (.expr e) = (planBody file (.expr e)).run file :=
    (visitBody_eq_run file (.expr e)).trans (pure_bind ..)
  have targets : (planBody file (.expr e)).targets =
      [.site ⟨chunks, holes, span, e.span, .body⟩] := by
    rw [planBody, site.plan]
    rfl
  exact (covers_body file (.expr e)).replaces visit laid targets

/-- The return of a site is replaced by statements. -/
lemma IsSite.replaces_ret {outer : Span} (inList : Bool) (site : IsSite file chunks holes span e)
    (laid : LaidOut file.source (Stmt.ret (some e) outer).trees) :
    Replaces file ⟨chunks, holes, span, outer, if inList then .statements else .body⟩
      (visitStatement file inList (.ret (some e) outer)) := by
  have plan := site.plan outer (if inList then .statements else .body)
  have targets := congrArg (fun o => (o.getD (planExpr file e)).targets) plan
  exact (covers_statement file inList (.ret (some e) outer)).replaces
    (visitStatement_eq_run file inList _) laid targets

end Replaces

/-! ## Scripts -/

/-- A walk over a script edits nothing in its imports. -/
lemma spans_apart_import {file : File} {script : List Stmt} {decl : Import}
    (laid : LaidOut file.source (treesOfStatements script)) (mem : Stmt.import decl ∈ script) :
    ∀ s ∈ (planStatements file script).spans, s.Apart decl.span := by
  induction script with
  | nil => cases mem
  | cons st script ih =>
    obtain ⟨laid₁, laid₂, across⟩ := laidOut_append.1 laid
    intro s isSpan
    rw [planStatements, Plan.spans_seq, List.mem_append] at isSpan
    rcases isSpan with first | rest
    · have covered := ((covers_statement file true st).cover laid₁).1
      obtain ⟨t, isTree, inside⟩ := covered.inside_tree first
      rcases List.mem_cons.1 mem with rfl | mem
      · -- An import has no targets.
        cases first
      · exact (across t isTree decl.tree (decl.tree_mem mem)).mono inside (.refl _)
    · have covered := ((covers_statements file script).cover laid₂).1
      obtain ⟨t, isTree, inside⟩ := covered.inside_tree rest
      rcases List.mem_cons.1 mem with rfl | mem
      · exact (across decl.tree List.mem_cons_self t isTree).symm.mono inside (.refl _)
      · exact ih laid₂ mem s rest

/-- The edits of a walk over a whole script: one for each target, away from imports. -/
lemma edits_script {file : File} {script : List Stmt} {s : State}
    (laid : LaidOut file.source (treesOfStatements script))
    (ok : (visitScript file script).exec {} = (.ok (), s)) :
    List.Forall₂ (Target.Records file) (planStatements file script).targets s.edits ∧
      Placed file.source (s.edits.map Span.ofEdit) ∧
      ∀ d ∈ s.edits, ∀ decl, Stmt.import decl ∈ script → (Span.ofEdit d).Apart decl.span := by
  have covers := covers_statements file script
  obtain ⟨placed, sound⟩ := covers.cover laid
  rw [visitScript_eq_run] at ok
  obtain ⟨_, t, declared, ran⟩ := exec_bind_ok.1 ok
  have none : t.edits = [] := edits_declareAll declared
  obtain ⟨new, edits, records⟩ := (planStatements file script).records sound ran
  obtain ⟨new', edits', -, same⟩ := (covers.adds laid).adds t
  rw [ran] at edits' same
  obtain rfl : new = new' := List.append_cancel_left (edits.symm.trans edits')
  rw [none, List.nil_append] at edits
  have same := same () rfl
  rw [edits]
  refine ⟨records, same ▸ placed.toPlaced, fun d mem decl isImport => ?_⟩
  exact spans_apart_import laid isImport _ (same ▸ List.mem_map_of_mem mem)

/-- What becomes of a script after the walk. -/
lemma compileScript_eq (runtime : Runtime) (name : String) (source : List Char)
    (script : List Stmt) :
    compileScript runtime name source script =
      match (visitScript (scriptFile runtime name source script) script).exec {} with
      | (.error failure, s) => ⟨s.log, .error failure⟩
      | (.ok (), s) =>
        finishScript runtime (Imports.ofScript runtime source script)
          (scriptFile runtime name source script) s := rfl

/-- A script that is visited to its end has the text that its edits give. -/
lemma compileScript_result {runtime : Runtime} {name : String} {script : List Stmt} {s : State}
    (ok : (visitScript (scriptFile runtime name source script) script).exec {} = (.ok (), s)) :
    (compileScript runtime name source script).result =
      .ok (if s.sites.isEmpty then String.ofList source
        else (Source.applyAll? source (s.edits ++
          (Imports.ofScript runtime source script).edits runtime s.tables.importNames
            s.tables.declarations (0 < s.tagUses))).getD "") := by
  rw [compileScript_eq, ok]
  dsimp only [finishScript]
  split <;> rfl

section

variable {runtime : Runtime} {name text : String} {script : List Stmt}

/-- A text that is a script is compiled as one. -/
lemma compileSource_of_script
    (read : parseScript (Dialect.ofFilename name) text.toList = some script) :
    compileSource runtime name text = compileScript runtime name text.toList script := by
  simp only [compileSource, read]

/-- A text that is no script fails at once. -/
lemma compileSource_of_none (read : parseScript (Dialect.ofFilename name) text.toList = none) :
    compileSource runtime name text = ⟨[], .error notAScript⟩ := by
  simp only [compileSource, read]

/-- A result that is there is no failure. -/
lemma eq_ok_of_toOption {ε α : Type} {r : Except ε α} {a : α} (done : r.toOption = some a) :
    r = .ok a := by
  cases r with
  | error e => cases done
  | ok b => exact congrArg Except.ok (Option.some.inj done)

/-- A text that is compiled is a script, and the walk over it comes to its end. -/
lemma compileSource_ok {output : String}
    (compiled : (compileSource runtime name text).result = .ok output) :
    ∃ script types s,
      readScript (Dialect.ofFilename name) text.toList = some (script, types) ∧
      (visitScript (scriptFile runtime name text.toList script) script).exec {} = (.ok (), s) ∧
      compileSource runtime name text =
        finishScript runtime (Imports.ofScript runtime text.toList script)
          (scriptFile runtime name text.toList script) s ∧
      output = if s.sites.isEmpty then text
        else (Source.applyAll? text.toList (s.edits ++
          (Imports.ofScript runtime text.toList script).edits runtime s.tables.importNames
            s.tables.declarations (0 < s.tagUses))).getD "" := by
  cases read : readScript (Dialect.ofFilename name) text.toList with
  | none =>
    rw [compileSource_of_none (by rw [parseScript, read]; rfl)] at compiled
    cases compiled
  | some found =>
    obtain ⟨script, types⟩ := found
    have whole : compileSource runtime name text = _ :=
      compileSource_of_script (by rw [parseScript, read]; rfl)
    rcases ok : (visitScript (scriptFile runtime name text.toList script) script).exec {} with
      ⟨failure | _, s⟩
    · rw [whole, compileScript_eq, ok] at compiled
      cases compiled
    refine ⟨script, types, s, rfl, ok, by rw [whole, compileScript_eq, ok], ?_⟩
    rw [whole, compileScript_result ok, String.ofList_toList] at compiled
    exact (Except.ok.inj compiled).symm

end

/-- The edits of a whole script agree, and the compiled text is the source with all of them applied
at once. -/
lemma compileScript_spliced {runtime : Runtime} {name : String} {script : List Stmt} {s : State}
    (laid : LaidOut source (treesOfStatements script))
    (ok : (visitScript (scriptFile runtime name source script) script).exec {} = (.ok (), s)) :
    let edits := s.edits ++ (Imports.ofScript runtime source script).edits runtime
      s.tables.importNames s.tables.declarations (0 < s.tagUses)
    edits.Pairwise Edit.Agrees ∧
      ∃ ordered, ordered.Perm edits ∧ ordered.Pairwise (fun a b => a.stop ≤ b.start) ∧
        (compileScript runtime name source script).result =
          .ok (if s.sites.isEmpty then String.ofList source
            else splice source 0 (byteSize source) ordered) := by
  intro edits
  obtain ⟨-, placed, away⟩ := edits_script laid ok
  obtain ⟨agree, fits⟩ := placed.agree
  obtain ⟨agree', atImports⟩ := Imports.edits_agree runtime laid s.tables.importNames
    s.tables.declarations (0 < s.tagUses)
  have allAgree : edits.Pairwise Edit.Agrees :=
    List.pairwise_append.2 ⟨agree, agree', fun d isFirst e isImport =>
      (atImports e isImport).1.agrees d (fits d isFirst).1 (away d isFirst)⟩
  have allFit : ∀ e ∈ edits, e.Fits source := by
    intro e mem
    rcases List.mem_append.1 mem with mem | mem
    · exact (fits e mem).2
    · exact (atImports e mem).1.fits
  -- All edits lie in the source, so none is left out.
  have allWithin : edits.filter (·.within 0 (byteSize source)) = edits :=
    List.filter_eq_self.2 fun e mem => by
      simpa [Edit.within] using (allFit e mem).cutStop.le_byteSize
  obtain ⟨ordered, perm, chain, applied⟩ := Source.applyRange?_spliced (Nat.zero_le _)
    (Text.isCut_zero source) (Text.isCut_byteSize source) allFit allAgree
  rw [allWithin] at perm
  refine ⟨allAgree, ordered, perm, chain, ?_⟩
  rw [compileScript_result ok, Source.applyAll?, applied, Option.getD_some]

/-- The edits of a script. In syntax that is laid out,

* the edits of an expression, of a pattern with its markers and of a statement lie inside it, are
  not empty and keep apart, whatever comes of the walk;
* the edits in the holes of a site lie each in exactly one hole. The text of a hole is its part of
  the source with its edits applied at once, the code of the site is made of these texts, and one
  edit is left that puts the code in place of the site, the body that it is, or the `return` around
  it;
* the edits of a whole script are one for each marker and outermost site, in order, and those of
  imports. They agree, and the compiled text is the source with all of them applied at once. -/
theorem edits_spliced (runtime : Runtime) (name : String) (source : List Char)
    (script : List Stmt) :
    let file := scriptFile runtime name source script
    (∀ e : Expr, LaidOut source [e.tree] → EditsInside e.span (visitExpr file e)) ∧
    (∀ decorators (p : Pattern), LaidOut source [p.tree] →
      EditsInside p.span (visitParam file (.item decorators p))) ∧
    (∀ (inList : Bool) (st : Stmt) (whole : Span), LaidOut source st.trees →
      (∀ t ∈ st.trees, t.span.Inside whole) → EditsInside whole (visitStatement file inList st)) ∧
    (∀ tag chunks holes span, isTag file tag = true →
      LaidOut source [(Expr.tagged tag chunks holes span).tree] →
      Replaces file ⟨chunks, holes, span, span, .call⟩
        (visitExpr file (.tagged tag chunks holes span)) ∧
      ∀ s t, (visitExprs file holes).exec s = (.ok (), t) →
        ∃ inner, splitOff s.edits.length t.edits = (s.edits, inner) ∧
          HolesApart file holes inner) ∧
    (∀ e chunks holes span, IsSite file chunks holes span e →
      (LaidOut source [e.tree] →
        Replaces file ⟨chunks, holes, span, e.span, .body⟩ (visitBody file (.expr e))) ∧
      ∀ inList outer, LaidOut source (Stmt.ret (some e) outer).trees →
        Replaces file ⟨chunks, holes, span, outer, if inList then .statements else .body⟩
          (visitStatement file inList (.ret (some e) outer))) ∧
    (LaidOut source (treesOfStatements script) →
      ∀ s, (visitScript file script).exec {} = (.ok (), s) →
      let imports := (Imports.ofScript runtime source script).edits runtime
        s.tables.importNames s.tables.declarations (0 < s.tagUses)
      List.Forall₂ (Target.Records file) (planStatements file script).targets s.edits ∧
      (∀ e ∈ imports, IsImportEdit runtime source script e) ∧
      (s.edits ++ imports).Pairwise Edit.Agrees ∧
      ∃ ordered, ordered.Perm (s.edits ++ imports) ∧
        ordered.Pairwise (fun a b => a.stop ≤ b.start) ∧
        (compileScript runtime name source script).result =
          .ok (if s.sites.isEmpty then String.ofList source
            else splice source 0 (byteSize source) ordered)) := by
  intro file
  have whole {t : SpanTree} : ∀ u ∈ [t], u.span.Inside t.span :=
    fun u mem => List.mem_singleton.1 mem ▸ .refl _
  refine ⟨fun e laid => ?_, fun decorators p laid => ?_, fun inList st span laid inside => ?_,
    fun tag chunks holes span isTag laid => ⟨replaces_call isTag laid, fun s t ok => ?_⟩,
    fun e chunks holes span site => ⟨site.replaces_body,
      fun inList outer => site.replaces_ret inList⟩, fun laid s ok => ?_⟩
  · exact (covers_expr file e).editsInside (visitExpr_eq_run file e) laid (e.span_tree ▸ whole)
  · exact (covers_pattern file p).editsInside (visitParam_eq_run file (.item decorators p)) laid
      (p.span_tree ▸ whole)
  · exact (covers_statement file inList st).editsInside (visitStatement_eq_run file inList st) laid
      inside
  · have parts : LaidOut file.source (treesOfExprs holes) := (laidOut_node.1 laid).2.2.2.2
    rw [visitExprs_eq_run] at ok
    obtain ⟨inner, edits, -⟩ := mem_edits_exprs parts s
    rw [ok] at edits
    have edits : t.edits = s.edits ++ inner := edits
    exact ⟨inner, by simp [splitOff, edits], holesApart parts ok edits⟩
  · have agree := Imports.edits_agree runtime laid s.tables.importNames
      s.tables.declarations (0 < s.tagUses)
    obtain ⟨allAgree, spliced⟩ := compileScript_spliced laid ok
    exact ⟨(edits_script laid ok).1, fun e mem => (agree.2 e mem).2, allAgree, spliced⟩

/-- A script with an import, a marker, and a site that has another one in its hole. -/
def arrowScript : List Stmt :=
  [.import ⟨false, "m", some [.named false "_" ⟨"_", ⟨7, 8⟩⟩ ⟨7, 8⟩], ⟨0, 17⟩⟩,
   .expr (.arrow (.mk none
      [.item [] (.withDefault (.name ⟨"x", ⟨18, 19⟩⟩ ⟨18, 19⟩) (.name ⟨"$", ⟨20, 21⟩⟩) ⟨18, 21⟩)]
      (.expr (.tagged (.name ⟨"_", ⟨24, 25⟩⟩) [⟨"", ⟨26, 26⟩⟩, ⟨"", ⟨32, 32⟩⟩]
        [.tagged (.name ⟨"_", ⟨28, 29⟩⟩) [⟨"", ⟨30, 30⟩⟩] [] ⟨28, 31⟩] ⟨24, 33⟩))) ⟨17, 33⟩)
    ⟨17, 33⟩]

/-- The text of the script. -/
def arrowSource : List Char := "import\x7b_\x7dfrom'm';(x=$)=>_`$\x7b_``\x7d`".toList

/-- The script when it is compiled. -/
def arrowCompiled : String :=
  "import\x7brenderer, makeFragment, __textBinder\x7dfrom'm';\n" ++
    "const __render0 = renderer(makeFragment(``));\n" ++
    "const __render1 = renderer(makeFragment(`<text-node></text-node>`));\n" ++
    "const __bind0 = __textBinder(0);(x)=>\x7b\n  const __nodes = __render1();\n" ++
    "  __bind0(__nodes[0])((() => \x7b\n  const __nodes = __render0();\n" ++
    "  return __nodes[__nodes.length];\n\x7d)());\n" ++
    "  return __nodes[__nodes.length];\n\x7d"

/-- The marker, the outer site, the named import and the end of the import are edited. The code of
the inner site is part of the outer one. -/
theorem edits_spliced_arrow :
    let runtime : Runtime := ⟨"m", "_"⟩
    LaidOut arrowSource (treesOfStatements arrowScript) ∧
      ∃ edits ordered, edits.map Span.ofEdit = [⟨19, 21⟩, ⟨24, 33⟩, ⟨7, 8⟩, ⟨17, 17⟩] ∧
        edits.Pairwise Edit.Agrees ∧ ordered.Perm edits ∧
        ordered.Pairwise (fun a b => a.stop ≤ b.start) ∧
        (compileScript runtime "a.js" arrowSource arrowScript).result =
          .ok (splice arrowSource 0 (byteSize arrowSource) ordered) ∧
        splice arrowSource 0 (byteSize arrowSource) ordered = arrowCompiled := by
  intro runtime
  have laid : LaidOut arrowSource (treesOfStatements arrowScript) := by decide
  obtain ⟨-, -, -, -, -, final⟩ := edits_spliced runtime "a.js" arrowSource arrowScript
  obtain ⟨-, -, agree, ordered, perm, chain, result⟩ := final laid _ rfl
  have text : (compileScript runtime "a.js" arrowSource arrowScript).result.toOption =
      some arrowCompiled := by
    decide +kernel
  rw [result] at text
  exact ⟨laid, _, ordered, rfl, agree, perm, chain, result, Option.some.inj text⟩

end TaggedMarkup.Compile

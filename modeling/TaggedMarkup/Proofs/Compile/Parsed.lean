import Mathlib
import TaggedMarkup.Proofs.Compile.Expressions
import TaggedMarkup.Proofs.Compile.Stable

/-!
# Scripts that have been read

Readers of declarations and statements keep the starts of templates apart, and so does the grammar
as a whole. No two templates of a script start at the same place (`nodup_starts`), so the sites of a
compiled text are counted one by one (`sites_compiled`).
-/

namespace TaggedMarkup.Compile

open Script Parse

section

variable (g : Grammar) [Faithful g] (cx : Context)

/-! ## Declarations -/

set_option synthInstance.maxSize 100000 in
instance (kind : VarKind) (needsValue : Bool) : Reads (declarator g cx kind needsValue) := by
  unfold declarator
  dsimp only
  exact Needs.reads (by simp [outlineDecl])

instance (kind : VarKind) (needsValue : Bool) : Reads (declarators g cx kind needsValue) := by
  unfold declarators
  infer_instance

instance (kind : VarKind) : Reads (variableStatement g cx kind) := by
  unfold variableStatement
  exact Needs.reads (by simp [outlineStatement])

instance (found : List String) (needsName : Bool) :
    Reads (functionDeclaration g cx found needsName) := by
  unfold functionDeclaration
  exact Needs.reads (by simp [outlineStatement])

instance {n lo held : Nat} (found : List String) (decs : List Expr) :
    Needs n lo held (classDeclaration g cx found decs) (tally n decs ≤ held) where
  yields le := by
    unfold classDeclaration
    exact Needs.yields (by simpa [outlineStatement] using le)

instance : Reads (typeAlias g cx) := by
  unfold typeAlias
  exact Needs.reads (by simp [outlineStatement])

instance : Reads (interfaceDeclaration g cx) := by
  unfold interfaceDeclaration
  dsimp only
  exact Needs.reads (by simp [outlineStatement])

instance : Moves (enumKey g cx) := by
  unfold enumKey
  refine .andThen fun t => ?_
  split
  iterate 2 infer_instance
  · refine .andThen fun _ => .andThen fun e => ?_
    split <;> infer_instance
  · infer_instance

instance : Reads (enumMember g cx) := by
  unfold enumMember
  exact Needs.reads (by simp)

/-- The values of members hold what the members hold. -/
lemma tally_values {α : Type} [Tally α] (n : Nat) (members : List (String × Option α)) :
    tally n (members.filterMap Prod.snd) = tally n members := by
  induction members with
  | nil => rfl
  | cons m ms ih => obtain ⟨name, _ | value⟩ := m <;> simp [ih]

instance : Reads (enumDeclaration g cx) := by
  unfold enumDeclaration
  exact Needs.reads (by simp [outlineStatement, tally_values])

instance : Reads (namespaceDeclaration g cx) := by
  unfold namespaceDeclaration
  dsimp only
  exact Needs.reads (by simp [outlineStatement])

instance : Reads (importDeclaration cx) := by
  unfold importDeclaration
  dsimp only
  exact Needs.reads (by simp [outlineStatement])

instance (ofTypes : Bool) : Reads (exportNames cx ofTypes) := by
  unfold exportNames
  dsimp only
  exact Needs.reads (by simp [outlineStatement])

instance : Reads exportAll := by
  unfold exportAll
  dsimp only
  exact Needs.reads (by simp [outlineStatement])

instance (found : List String) : Reads (typedDeclaration? g cx found) := by
  unfold typedDeclaration?
  refine .of fun n lo => ?_
  split
  · exact Needs.yields (by simp)
  refine .skip fun isEnum => .skip fun isConst => .skip fun _ => ?_
  split
  · exact Needs.yields (by simp)
  refine .skip fun isOfTypes => ?_
  split
  · exact Needs.yields (by simp)
  refine .skip fun isImport => ?_
  split
  · refine .skip fun _ => .read fun decl => ?_
    split <;> exact Needs.yields (by simp)
  · exact Needs.yields (by simp)

section

variable {n lo held : Nat} (decs : List Expr)

instance (found : List String) :
    Needs n lo held (declaration g cx found decs) (tally n decs ≤ held) where
  yields le := by
    unfold declaration
    dsimp only
    refine .skip fun isClass => ?_
    split
    · exact Needs.yields (by simpa using le)
    refine .skip fun _ => .skip fun isFunction => ?_
    split
    · exact Needs.yields (by simp)
    refine .read fun found => ?_
    cases found <;> exact Needs.yields (by simp)

instance : Needs n lo held (exportDefault g cx decs) (tally n decs ≤ held) where
  yields le := by
    unfold exportDefault
    dsimp only
    refine Needs.yields ?_
    simp [outlineStatement] at le ⊢
    grind

end

instance : Reads (typedExport? g cx) := by
  unfold typedExport?
  exact Needs.reads (by simp [outlineStatement])

instance {n lo held : Nat} (decs : List Expr) :
    Needs n lo held (exportDeclaration g cx decs) (tally n decs ≤ held) where
  yields le := by
    unfold exportDeclaration
    refine .skip fun _ => .skip fun isDefault => ?_
    split
    · exact Needs.yields (by simpa using le)
    refine .read fun more => .skip fun _ => ?_
    extract_lets all rest
    have decl (u : Unit) : Yields n lo (held + tally n more) (rest u) := by
      refine Needs.yields ?_
      simp [outlineStatement, all]
      grind
    split
    · refine .skip fun isAll => ?_
      split
      · exact Needs.yields (by simp)
      refine .skip fun isNames => ?_
      split
      · exact Needs.yields (by simp)
      refine .read fun found => ?_
      cases found with
      | some decl => exact Needs.yields (by simp)
      | none => exact decl ()
    · exact decl ()

/-! ## Loops -/

instance : Reads (parenthesized g cx) := by
  unfold parenthesized
  exact Needs.reads (by simp)

section

variable {n lo held : Nat} (waits : Bool) (head : Stmt)

instance : Needs n lo held (eachRest g cx waits head) (tally n head ≤ held) where
  yields le := by
    unfold eachRest
    dsimp only
    refine .skip fun isValues => .skip fun _ => .skip fun _ => ?_
    split <;> refine Needs.yields ?_ <;> simp at le ⊢ <;> grind

instance : Needs n lo held (loopRest g cx waits head) (tally n head ≤ held) where
  yields le := by
    unfold loopRest
    dsimp only
    refine Needs.yields ?_
    simp [outlineStatement] at le ⊢
    grind

end

instance (waits : Bool) (kind : VarKind) : Reads (declaringLoop g cx waits kind) := by
  unfold declaringLoop
  exact Needs.reads (by simp [outlineStatement])

instance (waits : Bool) : Reads (expressionLoop g cx waits) := by
  unfold expressionLoop
  dsimp only
  exact Needs.reads (by simp [outlineStatement])

instance : Reads (forStatement g cx) := by
  unfold forStatement
  refine .of fun n lo => .skip fun _ => .skip fun waits => .skip fun _ => .skip fun _ =>
    .skip fun isLoop => ?_
  split
  · exact Needs.yields (by simp [outlineStatement])
  refine .skip fun kind => ?_
  cases kind <;> exact Needs.yields (by simp)

/-! ## Branches -/

instance : Reads (ifStatement g cx) := by
  unfold ifStatement
  dsimp only
  exact Needs.reads (by simp [outlineStatement, Nat.add_assoc])

instance : Reads (switchCase g cx) := by
  unfold switchCase
  have body : Reads (iterate ([] : List Stmt) fun stmts => do
      if (← isAnyWord ["case", "default"]) || (← isSign "\x7d") then return .done stmts.reverse
      return .more ((← g.statement cx) :: stmts)) :=
    Needs.reads (by simp [Nat.add_comm])
  dsimp only
  exact Needs.reads (by simp [outlineCase])

instance : Reads (switchStatement g cx) := by
  unfold switchStatement
  have cases_ : Reads (iterate ([] : List Case) fun cases => do
      if ← eat "\x7d" then return .done cases.reverse
      return .more ((← switchCase g cx) :: cases)) :=
    Needs.reads (by simp [Nat.add_comm])
  exact Needs.reads (by simp [outlineStatement])

instance : Reads (handlerParameter g cx) := by
  unfold handlerParameter
  exact Needs.reads (by simp [outlinePatternItem])

instance : Reads (tryStatement g cx) := by
  unfold tryStatement
  dsimp only
  refine Needs.reads ?_
  simp [outlineStatement, outlineBody]
  grind

/-! ## Leaving -/

instance : Reads (returnStatement g cx) := by
  unfold returnStatement
  dsimp only
  exact Needs.reads (by simp)

instance : Reads (throwStatement g cx) := by
  unfold throwStatement
  exact Needs.reads (by simp [outlineStatement])

instance : Reads (jumpStatement cx) := by
  unfold jumpStatement
  dsimp only
  exact Needs.reads (by simp [outlineStatement])

/-! ## All statements -/

instance : Reads (expressionStatement g cx) := by
  unfold expressionStatement
  exact Needs.reads (by simp [outlineStatement])

instance (alone : Bool) : Reads (letStatement g cx alone) := by
  unfold letStatement
  refine .of fun n lo => .skip fun start => ?_
  extract_lets asStatement
  have ends (e : Expr) : Yields n lo (tally n e) (asStatement e) :=
    Needs.yields (by simp [outlineStatement])
  refine .skip fun form => ?_
  split
  · exact .andThen (Needs.yields trivial) ends
  · exact .andThen (Needs.yields trivial) ends
  · exact .skip fun id => ends (.name id)
  · exact Needs.yields (by simp)

instance (alone : Bool) : Reads (functionStatement g cx alone) := by
  unfold functionStatement
  exact Needs.reads (by simp)

instance (alone : Bool) : Reads (decoratedStatement g cx alone) := by
  unfold decoratedStatement
  exact Needs.reads (by simp)

instance (alone : Bool) (word : String) : Reads (keywordStatement? g cx alone word) := by
  unfold keywordStatement?
  refine .of fun n lo => ?_
  split <;> exact Needs.yields (by simp [outlineStatement])

instance (alone : Bool) : Reads (statementRule g cx alone) := by
  unfold statementRule
  refine .of fun n lo => .skip fun t => ?_
  split
  · exact Needs.yields (by simp [outlineStatement])
  · exact Needs.yields (by simp [outlineStatement])
  · exact Needs.yields (by simp)
  · refine .read fun found => ?_
    cases found <;> exact Needs.yields (by simp)
  · exact Needs.yields (by simp)

end

/-! ## Scripts -/

/-- The rules for phrases keep a grammar faithful. -/
lemma faithful_phraseRule (g : Grammar) [Faithful g] : Faithful (phraseRule g) where
  assignment cx := inferInstanceAs (Reads (assignmentExpression g cx))
  operands cx level := inferInstanceAs (Reads (joinedOperands g cx level))
  unary cx := inferInstanceAs (Reads (unaryExpression g cx))
  access cx := inferInstanceAs (Reads (accessChain g cx))
  callee cx := inferInstanceAs (Reads (calleeChain g cx))
  statement cx := inferInstanceAs (Reads (statementRule g cx false))
  body cx := inferInstanceAs (Reads (statementRule g cx true))
  binding cx := inferInstanceAs (Reads (bindingPattern g cx))
  type cx := inferInstanceAs (Moves (anyType g cx))

instance faithful_grammarOfDepth (depth : Nat) : Faithful (grammarOfDepth depth) := by
  induction depth with
  | zero =>
    have none {α : Type} [Tally α] : Reads (fail : Parse α) := Needs.reads fun _ _ => trivial
    exact ⟨fun _ => none, fun _ _ => none, fun _ => none, fun _ => none, fun _ => none,
      fun _ => none, fun _ => none, fun _ => none, fun _ => Moves.fail⟩
  | succ depth ih => exact faithful_phraseRule (grammarOfDepth depth)

/-- No two templates of a script that has been read start at the same place. -/
lemma startsAt_parsed {dialect : Dialect} {source : List Char} {script : List Stmt}
    (read : parseScript dialect source = some script) (n : Nat) :
    (outlineStatements script).startsAt n ≤ 1 := by
  let g := grammarOfDepth (4 * (Cursor.ofScript dialect.isScript source).total + 16)
  obtain ⟨⟨_, types⟩, whole, rfl⟩ := Option.map_eq_some_iff.1 read
  obtain ⟨⟨stmts, c⟩, ran, read⟩ := Option.bind_eq_some_iff.1 whole
  obtain ⟨_, -, eq⟩ := Option.bind_eq_some_iff.1 read
  cases eq
  obtain ⟨⟨stmts, d⟩, ran, ended⟩ := Option.bind_eq_some_iff.1 ran
  obtain ⟨_, -, eq⟩ := Option.bind_eq_some_iff.1 ended
  cases eq
  have reads : Yields n 0 0 (iterate ([] : List Stmt) fun stmts => do
      if (← token) == .finish then return .done stmts.reverse
      return .more ((← g.statement dialect.context) :: stmts)) :=
    Needs.yields (by simp [Nat.add_comm])
  have since := reads ⟨Cursor.sized_moveFrom _ _ _ _, Nat.zero_le _, Nat.zero_le _⟩ ran
  rw [startsAt_statements]
  exact since.held_le.trans (by split_ifs <;> omega)

/-- No two sites of a script that has been read start at the same place. -/
lemma nodup_starts {dialect : Dialect} {source : List Char} {script : List Stmt}
    (read : parseScript dialect source = some script) (tag : String) :
    ((sitesOf tag script).map (·.site.span.start)).Nodup :=
  List.nodup_iff_count_le_one.2 fun n =>
    (Outline.count_sites_le n tag _ _ _).trans (startsAt_parsed read n)

/-! ## Sites of compiled texts -/

/-- All of a list are chosen, and there are no others, just if as many are chosen as there are. -/
lemma length_filter_eq_iff {α β : Type} {as : List α} {chosen : α → Bool} {others : List β} :
    (as.filter chosen).length = as.length + others.length ↔
      (∀ a ∈ as, chosen a = true) ∧ others = [] := by
  have le := List.length_filter_le chosen as
  rw [← List.length_filter_eq_length_iff, ← List.length_eq_zero_iff]
  omega

/-- The sites of a text that is compiled.

* The walk comes to just those sites that stand in no place that is passed over, in the order of
  the script, those in the holes of a site in front of it. It comes to no type.
* Each of them gets its code, and one edit puts it in place of the site. Edits inside the holes of a
  site are part of its code, all others are applied to the source. There are no other edits but
  those that take markers out.
* If the script is laid out, then the code of a site is made of the texts of its holes with the
  edits inside them applied at once.
* No two sites start at the same place, so just the sites to which the walk comes are counted. All
  sites are compiled if and only if none is passed over, and none stands in a type. -/
theorem sites_compiled (runtime : Runtime) (name source output : String)
    (compiled : (compileSource runtime name source).result = .ok output) :
    ∃ script types s,
      readScript (Dialect.ofFilename name) source.toList = some (script, types) ∧
      let imports := Imports.ofScript runtime source.toList script
      let file := scriptFile runtime name source.toList script
      let found := sitesOf file.tag script
      let inTypes := sitesInTypes file.tag types
      let visited := found.filter Location.isVisited
      let visits := visitsOf file script
      (visitScript file script).exec {} = (.ok (), s) ∧
      compileSource runtime name source = finishScript runtime imports file s ∧
      output = (if visited = [] then source
        else (Source.applyAll? source.toList (s.edits ++ imports.edits runtime
          s.tables.importNames s.tables.declarations (0 < s.tagUses))).getD "") ∧
      visits.map Visit.site = visited.map Location.site ∧
      (∀ v ∈ visits, ∃ code, v.code? file = some code ∧ v.edits file = [v.edit file code] ∧
        MadeOf file v.compiled v.site.chunks v.site.holes
          (v.site.holes.map (holeExpression file v.inner)) code) ∧
      (LaidOut source.toList (treesOfStatements script) →
        ∀ v ∈ visits, HolesApart file v.site.holes v.inner) ∧
      (s.edits ++ visits.flatMap Visit.inner).Perm
        ((planStatements file script).removals ++ visits.flatMap (Visit.edits file)) ∧
      (found.map (·.site.span.start)).Nodup ∧
      s.sites.length = visited.length ∧
      (s.sites.length = found.length + inTypes.length ↔
        (∀ l ∈ found, l.passed = none) ∧ inTypes = []) := by
  obtain ⟨script, types, s, read, ok, whole, result⟩ := compileSource_ok compiled
  have parsed : parseScript (Dialect.ofFilename name) source.toList = some script := by
    rw [parseScript, read]
    rfl
  have nodup := nodup_starts parsed (scriptFile runtime name source.toList script).tag
  have length : s.sites.length =
      ((sitesOf (scriptFile runtime name source.toList script).tag script).filter
        Location.isVisited).length := by
    rw [length_sites_script ok, List.toFinset_card_of_nodup
      (nodup.sublist (List.filter_sublist.map _)), List.length_map]
  refine ⟨script, types, s, read, ok, whole, ?_, map_site_visitsOf _ script, code_visitsOf ok,
    fun laid => holesApart_visitsOf laid ok, perm_edits_script ok, nodup, length, ?_⟩
  · have none := List.length_eq_zero_iff.symm.trans (Eq.congr_left length)
    rw [result]
    simp only [List.isEmpty_iff, none, List.length_eq_zero_iff]
  · rw [length, length_filter_eq_iff]
    simp [Location.isVisited]

/-- A script with a template in the target of an assignment, and two in its value. Two more stand in
the decorator of a parameter and in its type. -/
def storeText : String :=
  "import\x7b_\x7dfrom'm';a[_``]=_`$\x7b_``\x7d`;class A\x7bm(@_`` x:\x7b[_``]:1\x7d)\x7b\x7d\x7d"

/-- The script when it is compiled. -/
def storeCompiled : String :=
  "import\x7brenderer, makeFragment, __textBinder\x7dfrom'm';\n" ++
    "const __render0 = renderer(makeFragment(``));\n" ++
    "const __render1 = renderer(makeFragment(`<text-node></text-node>`));\n" ++
    "const __bind0 = __textBinder(0);a[_``]=(() => \x7b\n" ++
    "  const __nodes = __render1();\n  __bind0(__nodes[0])((() => \x7b\n" ++
    "  const __nodes = __render0();\n  return __nodes[__nodes.length];\n\x7d)());\n" ++
    "  return __nodes[__nodes.length];\n\x7d)();class A\x7bm(@_`` x:\x7b[_``]:1\x7d)\x7b\x7d\x7d"

/-- The templates in the value are compiled, and the other three stay. -/
theorem sites_compiled_store :
    let runtime : Runtime := ⟨"m", "_"⟩
    (compileSource runtime "a.ts" storeText).result = .ok storeCompiled ∧
    ∃ script types s,
      readScript (Dialect.ofFilename "a.ts") storeText.toList = some (script, types) ∧
      let file := scriptFile runtime "a.ts" storeText.toList script
      (visitScript file script).exec {} = (.ok (), s) ∧
      (sitesOf file.tag script).map (fun l => (l.site.span.start, l.passed)) =
        [(19, some .assignmentTarget), (28, none), (24, none), (45, some .decorator)] ∧
      (sitesInTypes file.tag types).map (·.span.start) = [53] ∧
      s.sites.length = 2 := by
  intro runtime
  have compiled : (compileSource runtime "a.ts" storeText).result = .ok storeCompiled :=
    eq_ok_of_toOption (by decide +kernel)
  obtain ⟨script, types, s, read, ok, -, -, -, -, -, -, -, count, -⟩ :=
    sites_compiled runtime "a.ts" storeText storeCompiled compiled
  have places : (readScript (Dialect.ofFilename "a.ts") storeText.toList).map (fun x =>
      let file := scriptFile runtime "a.ts" storeText.toList x.1
      let found := sitesOf file.tag x.1
      (found.map (fun l => (l.site.span.start, l.passed)),
        (sitesInTypes file.tag x.2).map (·.span.start),
        (found.filter Location.isVisited).length)) =
      some ([(19, some .assignmentTarget), (28, none), (24, none), (45, some .decorator)],
        [53], 2) := by
    decide +kernel
  rw [read] at places
  simp only [Option.map_some, Option.some.injEq, Prod.mk.injEq] at places
  obtain ⟨all, inTypes, visited⟩ := places
  exact ⟨compiled, script, types, s, read, ok, all, inTypes, count.trans visited⟩

end TaggedMarkup.Compile

import Mathlib
import TaggedMarkup.Proofs.Code.Printed
import TaggedMarkup.Proofs.Code.Releases
import TaggedMarkup.Proofs.Compile.Stable
import TaggedMarkup.Proofs.Script.Bindings

/-!
# Scripts that are compiled twice

A script with sites is changed, if it has no markers to take out. The last of its edits puts code in
place of a site, or declarations behind the last import, and code does not end as what it stands for
does (`compileScript_ne_source`).

Whether a compiled text stays as it is when it is compiled again depends on its tag, which its own
imports give. They are those of the source, without the tag if that is not needed any more, and with
helpers. So the tag can be another one the second time (`Imports.nextTag`). The compiled text stays
just if it is a script, and its tag is the old one or that of no template of the source
(`compile_again_iff`).
-/

namespace TaggedMarkup.Compile

open Script
open Source (Edit)
open Walk

/-! ## How texts end -/

/-- The last character of a text, apart from a semicolon. -/
def closing? (text : List Char) : Option Char :=
  match text.reverse with
  | [] => none
  | c :: rest => if c == ';' then rest.head? else some c

/-- The last character in front of an offset, apart from a semicolon. -/
def closingAt? (source : List Char) (offset : Nat) : Option Char :=
  (Text.cut? offset source).bind fun parts => closing? parts.1

/-- Whether a character ends a gap between two tokens: it is blank, or ends a comment. -/
def endsGap (c : Char) : Bool := c == '/' || Lexeme.isSpace c || Lexeme.isNewline c

/-- Whether what is replaced by code can end with a character. A template ends with a backtick, a
body may also end with a parenthesis, and in a `return` there may be a gap in front of the
semicolon. -/
def Form.endsWith : Form → Char → Bool
  | .call, c => c == '`'
  | .body, c | .statements, c => c == '`' || c == ')' || endsGap c

/-- Whether an import can end with a character: the quote of its module, the brace of its
attributes, or a gap in front of its semicolon. -/
def endsImport (c : Char) : Bool := c == '\'' || c == '"' || c == '\x7d' || endsGap c

/-- How a script is written: its syntax is laid out, its imports end one behind the other, and
imports and what is replaced by code end as they can. -/
structure Spelled (tag : String) (source : List Char) (script : List Stmt) : Prop where
  laid : LaidOut source (treesOfStatements script)
  order : (importsOf script).Pairwise fun a b => a.span.stop ≤ b.span.stop
  imports : ∀ decl ∈ importsOf script, (closingAt? source decl.span.stop).any endsImport = true
  sites : ∀ l ∈ (sitesOf tag script).filter Location.isVisited,
    (closingAt? source l.site.replaced.stop).any l.site.form.endsWith = true

instance (tag : String) (source : List Char) (script : List Stmt) :
    Decidable (Spelled tag source script) :=
  decidable_of_iff
    (LaidOut source (treesOfStatements script) ∧
      ((importsOf script).Pairwise fun a b => a.span.stop ≤ b.span.stop) ∧
      (∀ decl ∈ importsOf script, (closingAt? source decl.span.stop).any endsImport = true) ∧
      ∀ l ∈ (sitesOf tag script).filter Location.isVisited,
        (closingAt? source l.site.replaced.stop).any l.site.form.endsWith = true)
    ⟨fun h => ⟨h.1, h.2.1, h.2.2.1, h.2.2.2⟩, fun h => ⟨h.laid, h.order, h.imports, h.sites⟩⟩

section

variable {runtime : Runtime} {name : String} {source : List Char} {script : List Stmt} {s : State}

/-- How a text ends does not depend on what stands in front of its last characters. -/
lemma closing?_append (front : List Char) {back : List Char} (some : back ≠ [])
    (more : back ≠ [';']) : closing? (front ++ back) = closing? back := by
  obtain ⟨init, last, rfl⟩ := (List.eq_nil_or_concat back).resolve_left some
  rw [List.concat_eq_append] at more ⊢
  rw [closing?, closing?, List.reverse_append, List.reverse_append]
  by_cases semicolon : last = ';'
  · cases reverse : init.reverse with
    | nil =>
      rw [List.reverse_eq_nil_iff.1 reverse, semicolon] at more
      exact (more rfl).elim
    | cons c rest => simp
  · simp [semicolon]

/-- A text does not end in some way if its last characters do not. -/
lemma any_closing?_append {ends : Char → Bool} (front : List Char) {back : List Char}
    (other : (back ≠ [] ∧ back ≠ [';']) ∧ (closing? back).any ends = false) :
    (closing? (front ++ back)).any ends = false := by
  rw [closing?_append front other.1.1 other.1.2]
  exact other.2

/-- What stands closest in front of an offset is told by the text up to it. -/
lemma closingAt?_of_cut {offset : Nat} {before after : List Char}
    (cut : Text.cut? offset source = some (before, after)) :
    closingAt? source offset = closing? before := by
  rw [closingAt?, cut]
  rfl

/-! ### Texts of code -/

/-- Texts in lines end with the last one. -/
lemma intercalate_concat (init : List String) (last : String) :
    ∃ before, "\n".intercalate (init ++ [last]) = before ++ last := by
  cases init with
  | nil => exact ⟨"", by simp⟩
  | cons first init =>
    refine ⟨first ++ String.join (init.map ("\n" ++ ·)) ++ "\n", ?_⟩
    rw [List.cons_append, Code.intercalate_newline, List.map_append, String.join_append]
    simp [String.append_assoc]

/-- Lines end with the text of the last one, if there is any on it. -/
lemma printed_concat (margin : String) (lines : List Code.Line) (indent : Nat) {text : String}
    (some : text ≠ "") :
    ∃ before, Code.printed margin (lines ++ [⟨indent, text⟩]) = before ++ text := by
  have last (margin : String) : (⟨indent, text⟩ : Code.Line).render margin = _ :=
    Code.Line.render_of_ne_empty some margin
  cases lines with
  | nil => exact ⟨_, last ""⟩
  | cons first lines =>
    obtain ⟨before, eq⟩ := intercalate_concat (first.render "" :: lines.map (·.render margin))
      ((⟨indent, text⟩ : Code.Line).render margin)
    rw [last, ← String.append_assoc] at eq
    refine ⟨_, Eq.trans ?_ eq⟩
    rw [List.cons_append, Code.printed, List.map_append, List.map_singleton, last,
      List.cons_append]

/-- The last line of code returns the fragment. -/
lemma exists_lines_eq (code : Code.RenderCode) :
    ∃ lines, ∃ last ∈ ["return __nodes[__nodes.length];", "return __fragment;"],
      code.lines 0 = lines ++ [⟨0, last⟩] := by
  obtain ⟨nothing, something⟩ := code.lines_eq 0
  by_cases releases : code.releases = []
  · exact ⟨_, _, .head _, nothing releases⟩
  · exact ⟨_, _, .tail _ (.head _), (something releases).trans (List.append_cons ..)⟩

/-- Code ends with the bracket behind it, or with the statement that returns the fragment. -/
lemma exists_print_eq (form : Form) (code : Code.RenderCode) (margin : String) :
    ∃ before, ∃ last ∈ (match form with
      | .call => ["\x7d)()"]
      | .body => ["\x7d"]
      | .statements => ["return __nodes[__nodes.length];", "return __fragment;"] : List String),
      form.print code margin = before ++ last := by
  have bracketed (left : String) {right : String} (some : right ≠ "") :
      ∃ before, code.between left right margin = before ++ right := by
    rw [code.between_eq some margin]
    exact printed_concat margin _ 0 some
  cases form with
  | call =>
    obtain ⟨before, eq⟩ := bracketed "(() => \x7b" (show "\x7d)()" ≠ "" by decide)
    exact ⟨before, _, .head _, eq⟩
  | body =>
    obtain ⟨before, eq⟩ := bracketed "\x7b" (show "\x7d" ≠ "" by decide)
    exact ⟨before, _, .head _, eq⟩
  | statements =>
    obtain ⟨lines, last, mem, eq⟩ := exists_lines_eq code
    have some : last ≠ "" := by
      rintro rfl
      simp at mem
    obtain ⟨before, printed⟩ := printed_concat margin lines 0 some
    exact ⟨before, last, mem, (code.asStatements_eq margin).trans (eq ▸ printed)⟩

/-- Code does not end as what it is put in place of. -/
lemma closing?_print (form : Form) (code : Code.RenderCode) (margin : String)
    (before : List Char) :
    (closing? (before ++ (form.print code margin).toList)).any form.endsWith = false := by
  obtain ⟨front, last, mem, eq⟩ := exists_print_eq form code margin
  rw [eq, String.toList_append, ← List.append_assoc]
  cases form with
  | call =>
    obtain rfl := List.mem_singleton.1 mem
    exact any_closing?_append _ (by decide)
  | body =>
    obtain rfl := List.mem_singleton.1 mem
    exact any_closing?_append _ (by decide)
  | statements =>
    obtain rfl | rfl := List.mem_pair.1 mem
    · exact any_closing?_append _ (by decide)
    · exact any_closing?_append _ (by decide)

/-- Every declaration ends with a call. -/
lemma exists_declaration_eq {tables : Code.Tables} {d : String} (mem : d ∈ tables.declarations) :
    ∃ before, ∃ last ∈ ["`));", ");"], d = before ++ last := by
  rcases List.mem_append.1 mem with mem | mem
  · obtain ⟨⟨html, i⟩, -, rfl⟩ := List.mem_map.1 mem
    exact ⟨_, _, .head _, rfl⟩
  · obtain ⟨⟨initializer, i⟩, -, rfl⟩ := List.mem_map.1 mem
    have code : initializer.code =
      initializer.target.factory ++ "(" ++ initializer.index.code ++ ")" := rfl
    refine ⟨"const __bind" ++ toString i ++ " = " ++
      (initializer.target.factory ++ "(" ++ initializer.index.code), _, .tail _ (.head _), ?_⟩
    show "const __bind" ++ toString i ++ " = " ++ initializer.code ++ ";" = _
    rw [code]
    simp only [String.append_assoc]
    rfl

/-- Declarations do not end as an import. -/
lemma closing?_declarations {tables : Code.Tables} (some : tables.fragments ≠ [])
    (before : List Char) :
    (closing? (before ++ ("\n" ++ "\n".intercalate tables.declarations).toList)).any endsImport =
      false := by
  have nonempty : tables.declarations ≠ [] := by
    obtain ⟨html, fragments, eq⟩ := List.exists_cons_of_ne_nil some
    simp [Code.Tables.declarations, eq]
  obtain ⟨init, d, eq⟩ := (List.eq_nil_or_concat tables.declarations).resolve_left nonempty
  rw [List.concat_eq_append] at eq
  obtain ⟨front, last, isLast, rfl⟩ :=
    exists_declaration_eq (eq ▸ List.mem_append_right init (List.mem_singleton_self d))
  obtain ⟨text, whole⟩ := intercalate_concat init (front ++ last)
  rw [eq, whole, ← String.append_assoc, ← String.append_assoc, String.toList_append,
    ← List.append_assoc]
  obtain rfl | rfl := List.mem_pair.1 isLast
  · exact any_closing?_append _ (by decide)
  · exact any_closing?_append _ (by decide)

end

/-! ## Fragments of a run -/

/-- To enter a binder adds no fragment. -/
lemma fragments_register (t : Code.Tables) (b : Template.Binder) :
    (Code.register t b).2.fragments = t.fragments := by
  have used (t : Code.Tables) : (t.useBinding b.binding).fragments = t.fragments := by
    rw [Code.Tables.useBinding]
    cases Code.Helper.ofBinding? b.binding <;> rfl
  rw [Code.register, Code.Tables.addBinder_eq]
  exact used _

/-- To generate code adds no fragment. -/
lemma fragments_generate (t : Code.Tables) (fragment : Nat) (bs : List Template.Binder) :
    (Code.generate t fragment bs).1.fragments = t.fragments := by
  have entered (bs : List Template.Binder) (t : Code.Tables) :
      (Code.registerAll t bs).1.fragments = t.fragments := by
    induction bs generalizing t with
    | nil => rfl
    | cons b bs ih => exact (ih _).trans (fragments_register t b)
  rw [Code.generate_eq, Code.fst_wireAll, entered]

/-- A skeleton that is entered is a fragment. -/
lemma fragments_addFragment (t : Code.Tables) (html : String) :
    (t.addFragment html).2.fragments ≠ [] := by
  show (Code.enter id html t.fragments).2 ≠ []
  rw [Code.enter]
  split
  · rename_i found
    obtain ⟨lt, -⟩ := List.findIdx?_eq_some_iff_getElem.1 found
    exact List.ne_nil_of_length_pos (Nat.zero_lt_of_lt lt)
  · exact List.append_ne_nil_of_right_ne_nil _ (List.cons_ne_nil _ _)

/-- A site that is compiled has a fragment. -/
lemma fragments_compileSite {file : File} {mark : Nat} {chunks : List Chunk} {holes : List Expr}
    {span : Span} {s t : State} {code : Code.RenderCode}
    (ok : (compileSite file mark chunks holes span).exec s = (.ok code, t)) :
    t.tables.fragments ≠ [] := by
  simp only [compileSite, exec_bind, exec_get, exec_modify] at ok
  split at ok
  · cases ok
  · simp only [exec_bind, exec_get, exec_set] at ok
    split at ok
    · cases ok
    · cases ok
      rw [fragments_generate]
      exact fragments_addFragment s.tables _

/-- Where sites have been entered there are fragments. -/
lemma Plan.Runs.fragments {file : File} {p : Plan} {s t : State} {vs : List Visit}
    (ran : p.Runs file s vs t) (before : s.sites ≠ [] → s.tables.fragments ≠ []) :
    t.sites ≠ [] → t.tables.fragments ≠ [] := by
  have declared {names : Declared} {s t : State} (ok : (declareAll names).exec s = (.ok (), t)) :
      t.sites = s.sites ∧ t.tables = s.tables := by
    obtain ⟨-, rfl⟩ := exec_declareAll_ok.1 ok
    exact ⟨rfl, rfl⟩
  induction ran with
  | done | remove | useTag => exact before
  | seq _ _ ih₁ ih₂ => exact ih₂ (ih₁ before)
  | scope opened _ inside _ ih₁ ih₂ =>
    obtain ⟨sites, tables⟩ := declared opened
    obtain ⟨sites', tables'⟩ := declared inside
    rw [sites, tables] at ih₁
    rw [sites', tables'] at ih₂
    exact ih₂ (ih₁ before)
  | @site here _ s t u _ code _ compiled _ =>
    have some : u.tables.fragments ≠ [] := fragments_compileSite compiled
    exact fun _ => some

/-! ## Scripts with sites -/

section

variable {runtime : Runtime} {name : String} {source : List Char} {script : List Stmt} {s : State}

/-- The last import ends behind all others, where imports end in their order. -/
lemma le_stop (runtime : Runtime) (source : List Char)
    (order : (importsOf script).Pairwise fun a b => a.span.stop ≤ b.span.stop)
    {decl : Import} (mem : decl ∈ importsOf script) :
    ∃ last ∈ importsOf script, (Imports.ofScript runtime source script).stop = some last.span.stop ∧
      decl.span.stop ≤ last.span.stop := by
  obtain ⟨init, last, split⟩ :=
    (List.eq_nil_or_concat (importsOf script)).resolve_left (List.ne_nil_of_mem mem)
  rw [List.concat_eq_append] at split
  have stop : (Imports.ofScript runtime source script).stop = some last.span.stop := by
    have folded : Imports.ofScript runtime source script =
        (importsOf script).foldl (Imports.add runtime source) { tag := runtime.tag } := rfl
    rw [folded, split, List.foldl_append]
    exact Imports.add_stop ..
  refine ⟨last, split ▸ List.mem_append_right _ (List.mem_singleton_self _), stop, ?_⟩
  rw [split] at order mem
  rcases List.mem_append.1 mem with mem | mem
  · exact (List.pairwise_append.1 order).2.2 decl mem last (List.mem_singleton_self _)
  · rw [List.mem_singleton.1 mem]

/-- Where edits leave a script as it is, the last one puts no declarations behind an import, since
declarations do not end as an import. -/
lemma last_ne_declarations {tables : Code.Tables} {last : Edit} {before after : List Char}
    (spelled : Spelled (Imports.ofScript runtime source script).tag source script)
    (fragments : tables.fragments ≠ [])
    (cut : Text.cut? last.stop source = some (before ++ last.text.toList, after))
    {decl : Import} (isImport : decl ∈ importsOf script) :
    last ≠ .insert decl.span.stop ("\n" ++ "\n".intercalate tables.declarations) := by
  rintro rfl
  have ends := spelled.imports decl isImport
  rw [show closingAt? source decl.span.stop = _ from closingAt?_of_cut cut] at ends
  exact Bool.false_ne_true ((closing?_declarations fragments before).symm.trans ends)

/-- Where edits leave a script as it is, the last one puts nothing in front of it. -/
lemma last_ne_start {last : Edit} {before after : List Char} {text : String} (some : text ≠ "")
    (cut : Text.cut? last.stop source = .some (before ++ last.text.toList, after)) :
    last ≠ .insert 0 text := by
  rintro rfl
  have none : (before = [] ∧ text = "") ∧ source = after := by
    simpa [Edit.insert, Text.cut?] using cut
  exact some none.1.2

/-- Where edits leave a script as it is, the last one is none of its imports. -/
lemma last_not_mem_imports {helpers : List String} {tables : Code.Tables} {keepTag : Bool}
    {init : List Edit} {last : Edit} {before after : List Char}
    (spelled : Spelled (Imports.ofScript runtime source script).tag source script)
    (fragments : tables.fragments ≠ [])
    (cut : Text.cut? last.stop source = some (before ++ last.text.toList, after))
    (all : ∀ e ∈ (Imports.ofScript runtime source script).edits runtime helpers
      tables.declarations keepTag, e ∈ init ++ [last])
    (chain : (init ++ [last]).Pairwise fun a b => a.stop ≤ b.start) :
    last ∉ (Imports.ofScript runtime source script).edits runtime helpers tables.declarations
      keepTag := by
  intro mem
  simp only [Imports.edits] at mem all
  split at mem
  · rename_i first final head getLast
    obtain none | ⟨decl, isImport, -, own⟩ := Imports.ofScript_specifiers runtime source script
    · simp [none] at head
    obtain ⟨behind, isLast, stop, le⟩ :=
      le_stop runtime source spelled.order (mem_importsOf.2 isImport)
    simp only [stop, head, getLast, Option.getD_some] at mem all
    rcases List.mem_pair.1 mem with isNamed | isInsertion
    · -- The declarations stand behind the named imports, so these are not edited last.
      rw [own] at head getLast
      obtain ⟨proper, inside⟩ :=
        Import.named_proper (spelled.laid.nested (decl.tree_mem isImport)) head getLast
      have lt := proper.start_lt_stop
      have stop_le := inside.stop_le
      rcases List.mem_append.1 (all _ (.tail _ (.head _))) with inFront | same
      · have order := (List.pairwise_append.1 chain).2.2 _ inFront last (.head _)
        rw [isNamed] at order
        simp only [Edit.insert] at order lt stop_le
        omega
      · have edit := (List.mem_singleton.1 same).trans isNamed
        have start := congrArg Edit.start edit
        have stop := congrArg Edit.stop edit
        simp only [Edit.insert] at start stop lt
        omega
    · exact last_ne_declarations spelled fragments cut isLast isInsertion
  · split at mem
    · rename_i n stop
      obtain ⟨decl, isImport, rfl⟩ := Imports.ofScript_stop stop
      rcases List.mem_pair.1 mem with isLine | isInsertion
      · exact last_ne_start (by simp [Imports.newImport]) cut isLine
      · exact last_ne_declarations spelled fragments cut (mem_importsOf.2 isImport)
          isInsertion
    · exact last_ne_start (by simp [Imports.newImport]) cut (List.mem_singleton.1 mem)

/-- Where edits leave a script as it is, the last one is not that of a site. -/
lemma last_not_mem_edits {last : Edit} {before after : List Char}
    (spelled : Spelled (Imports.ofScript runtime source script).tag source script)
    (unmarked : (planStatements (scriptFile runtime name source script) script).removals = [])
    (ok : (visitScript (scriptFile runtime name source script) script).exec {} = (.ok (), s))
    (cut : Text.cut? last.stop source = some (before ++ last.text.toList, after)) :
    last ∉ s.edits := by
  intro mem
  have isEdit := (perm_edits_script ok).mem_iff.1 (List.mem_append_left _ mem)
  rw [unmarked, List.nil_append] at isEdit
  obtain ⟨v, isVisit, isEdit⟩ := List.mem_flatMap.1 isEdit
  obtain ⟨code, -, edits, -⟩ := code_visitsOf ok v isVisit
  rw [edits] at isEdit
  obtain rfl := List.mem_singleton.1 isEdit
  have isSite := List.mem_map_of_mem (f := Visit.site) isVisit
  rw [map_site_visitsOf] at isSite
  obtain ⟨l, isVisited, same⟩ := List.mem_map.1 isSite
  -- The code of a site does not end as the site.
  have ends := spelled.sites l isVisited
  rw [same, show closingAt? source v.site.replaced.stop = _ from closingAt?_of_cut cut] at ends
  exact Bool.false_ne_true ((closing?_print ..).symm.trans ends)

/-- A script with sites and without markers to take out is changed. -/
lemma compileScript_ne_source
    (spelled : Spelled (Imports.ofScript runtime source script).tag source script)
    (unmarked : (planStatements (scriptFile runtime name source script) script).removals = [])
    (ok : (visitScript (scriptFile runtime name source script) script).exec {} = (.ok (), s))
    (entered : s.sites ≠ []) :
    (compileScript runtime name source script).result ≠ .ok (String.ofList source) := by
  intro same
  obtain ⟨-, ordered, perm, chain, result⟩ := compileScript_spliced spelled.laid ok
  rw [same, if_neg (by simpa using entered)] at result
  have nonempty : ordered ≠ [] := by
    rintro rfl
    exact Imports.edits_ne_nil (List.append_eq_nil_iff.1 (List.nil_perm.1 perm)).2
  obtain ⟨init, last, eq⟩ := (List.eq_nil_or_concat ordered).resolve_left nonempty
  rw [List.concat_eq_append] at eq
  subst eq
  have isLast := perm.mem_iff.1 (List.mem_append_right init (.head _))
  have fits : last.Fits source := by
    rcases List.mem_append.1 isLast with mem | mem
    · exact ((edits_script spelled.laid ok).2.1.agree.2 last mem).2
    · exact ((Imports.edits_agree runtime spelled.laid ..).2 last mem).1.fits
  -- What stands in front of the end of the last edit ends with its text.
  obtain ⟨before, after, cut⟩ := Source.front_of_splice_eq fits.cutStop (Except.ok.inj result).symm
  rcases List.mem_append.1 isLast with mem | mem
  · exact last_not_mem_edits spelled unmarked ok cut mem
  · obtain ⟨t, declared, ran⟩ := runs_script ok
    have fragments : s.tables.fragments ≠ [] :=
      ran.fragments (fun some => (some (sites_declareAll declared)).elim) entered
    exact last_not_mem_imports spelled fragments cut
      (fun e mem => perm.mem_iff.2 (List.mem_append_right _ mem)) chain mem

end

/-! ## Templates of all tags -/

/-- The tags of the templates to which a walk comes, whatever the tag of the file is. -/
def Outline.tags : Outline → List String
  | .nothing | .reference _ | .markers _ => []
  | .seq first second | .scope _ first second => first.tags ++ second.tags
  | .beside _ _ rest => rest.tags
  | .template tag _ holes => holes.tags ++ [tag]

/-- The tags of the templates of a script to which a walk comes. -/
def tagsOf (script : List Stmt) : List String := (outlineStatements script).tags

/-- The sites of a tag that are visited are the templates with this tag. -/
lemma Outline.length_visited (o : Outline) (tag : String) (around : List Enclosing) :
    (o.visited tag around).length = o.tags.count tag := by
  induction o generalizing around with
  | nothing | reference _ | markers _ => rfl
  | seq first second ih₁ ih₂ =>
    rw [visited_seq, List.length_append, ih₁, ih₂, tags, List.count_append]
  | beside place inner rest _ ih => rw [visited_beside, ih, tags]
  | template t site holes ih =>
    rw [visited_template, List.length_append, ih, tags, List.count_append, List.count_singleton]
    by_cases same : t = tag
    · simp [same]
    · simp [same]
  | scope opening first second ih₁ ih₂ =>
    rw [visited_scope, List.length_append, ih₁, ih₂, tags, List.count_append]

section

variable {runtime : Runtime} {file : File} {source : List Char} {script : List Stmt} {s t : State}

/-- Every template with the tag of the file gets code in one edit. -/
lemma length_edits_visitsOf (ok : (visitScript file script).exec {} = (.ok (), s)) :
    ((visitsOf file script).flatMap (Visit.edits file)).length =
      (tagsOf script).count file.tag := by
  have once : ∀ v ∈ visitsOf file script, (v.edits file).length = 1 := by
    intro v mem
    obtain ⟨code, -, edits, -⟩ := code_visitsOf ok v mem
    rw [edits, List.length_singleton]
  have sites := congrArg List.length (map_site_visitsOf file script)
  rw [List.length_map, List.length_map] at sites
  rw [List.length_flatMap, List.map_congr_left once, List.map_const', List.sum_replicate,
    smul_eq_mul, Nat.mul_one, sites]
  exact Outline.length_visited ..

/-- No site is visited just if no template has the tag of the script. -/
lemma unvisited_iff :
    Unvisited runtime source script ↔
      (Imports.ofScript runtime source script).tag ∉ tagsOf script := by
  have visited := Outline.length_visited (outlineStatements script)
    (Imports.ofScript runtime source script).tag [⟨.unit script, true⟩]
  rw [← List.count_eq_zero, tagsOf, ← visited, List.length_eq_zero_iff, Outline.visited,
    List.filter_eq_nil_iff]
  exact forall₂_congr fun l _ => by simp [Location.isVisited]

/-- A template with the tag of the file is entered as a site. -/
lemma sites_ne_nil (ok : (visitScript file script).exec {} = (.ok (), s))
    (mem : file.tag ∈ tagsOf script) : s.sites ≠ [] := by
  intro none
  have length := length_sites_script ok
  rw [none, List.length_nil, eq_comm, Finset.card_eq_zero, List.toFinset_eq_empty_iff,
    List.map_eq_nil_iff] at length
  have visited := Outline.length_visited (outlineStatements script) file.tag [⟨.unit script, true⟩]
  rw [show (outlineStatements script).visited file.tag _ = [] from length] at visited
  exact List.count_eq_zero.1 visited.symm mem

/-- Of a walk that succeeds no marker is misplaced. -/
lemma Outline.wellMarked {o : Outline} (ok : ((o.plan file).run file).exec s = (.ok (), t)) :
    WellMarked o.declared := by
  induction o generalizing s t with
  | nothing | reference _ | markers _ => exact fun _ mem => absurd mem List.not_mem_nil
  | seq first second ih₁ ih₂ =>
    obtain ⟨_, u, ok₁, ok₂⟩ := exec_bind_ok.1 ok
    exact wellMarked_append.2 ⟨ih₁ ok₁, ih₂ ok₂⟩
  | beside place inner rest _ ih => exact ih ok
  | template tag site holes ih =>
    rw [plan] at ok
    split at ok
    · obtain ⟨_, _, got, ok⟩ := exec_bind_ok.1 ok
      cases got
      obtain ⟨_, _, ok, -⟩ := exec_bind_ok.1 ok
      exact ih ok
    · obtain ⟨_, _, done, ok⟩ := exec_bind_ok.1 ok
      cases done
      exact ih ok
  | scope opening first second ih₁ ih₂ =>
    obtain ⟨_, inner, rfl⟩ := exec_inScope_ok.1 ok
    obtain ⟨_, opened, declared, inner⟩ := exec_bind_ok.1 inner
    obtain ⟨_, visited, ok₁, inner⟩ := exec_bind_ok.1 inner
    obtain ⟨_, inside, declared', ok₂⟩ := exec_bind_ok.1 inner
    exact wellMarked_append.2 ⟨(exec_declareAll_ok.1 declared).1, wellMarked_append.2
      ⟨ih₁ ok₁, wellMarked_append.2 ⟨(exec_declareAll_ok.1 declared').1, ih₂ ok₂⟩⟩⟩

/-- Of a script that is visited to its end no marker is misplaced. -/
lemma wellMarked_declaredIn (ok : (visitScript file script).exec {} = (.ok (), s)) :
    WellMarked (declaredIn script) := by
  rw [visitScript_eq_run, (sketches_statements file script).plan] at ok
  obtain ⟨_, t, declared, ran⟩ := exec_bind_ok.1 ok
  exact wellMarked_append.2 ⟨(exec_declareAll_ok.1 declared).1, Outline.wellMarked ran⟩

end

/-! ## Compiled texts -/

/-- A compiled text is read as it is meant.

* The named imports from the runtime are those that have been written, and the text of one tells
  what it imports and under which name, before and after.
* Its templates are those of the source that have got no code.
* What it declares has no markers, or is declared so in the source.
* If all markers to take out of the source have been taken out, then it has none. -/
structure ReadsBack (runtime : Runtime) (file : File) (script : List Stmt) (s : State)
    (output : List Char) (script' : List Stmt) : Prop where
  specifiers : (Imports.candidates runtime output (importsOf script')).map
      (·.map Specifier.text) =
    (Imports.ofScript runtime file.source script).written runtime file.source
      s.tables.importNames (0 < s.tagUses) (importsOf script)
  names : ∃ names : String → String × String,
    (∀ sp ∈ (Imports.candidates runtime file.source (importsOf script)).flatten,
      names sp.text = (sp.imported, sp.localName)) ∧
    (∀ sp ∈ (Imports.candidates runtime output (importsOf script')).flatten,
      names sp.text = (sp.imported, sp.localName)) ∧
    ∀ h ∈ s.tables.importNames, names h = (h, h)
  templates : (tagsOf script' ++
      ((visitsOf file script).flatMap (Visit.edits file)).map fun _ => file.tag).Perm
    (tagsOf script)
  declared : ∀ d ∈ declaredIn script',
    d ∈ declaredIn script ∨ ∃ bs, d = .ok bs ∧ ∀ b ∈ bs, b.observable = false
  markers : (planStatements file script).removals ⊆
      s.edits ++ (visitsOf file script).flatMap Visit.inner →
    (planStatements (scriptFile runtime file.name output script') script').removals = []
  spelled : Spelled (Imports.ofScript runtime output script').tag output script'

namespace ReadsBack

variable {runtime : Runtime} {file : File} {script script' : List Stmt} {s : State}
  {output : List Char}

/-- How many templates with a tag are left. -/
lemma count_tags (reads : ReadsBack runtime file script s output script')
    (ok : (visitScript file script).exec {} = (.ok (), s)) (tag : String) :
    (tagsOf script').count tag = if tag = file.tag then 0 else (tagsOf script).count tag := by
  have count := reads.templates.count_eq tag
  rw [List.count_append, List.map_const', List.count_replicate, length_edits_visitsOf ok] at count
  by_cases same : tag = file.tag
  · subst same
    have none : (tagsOf script').count file.tag + (tagsOf script).count file.tag =
        (tagsOf script).count file.tag := by simpa using count
    rw [if_pos rfl]
    omega
  · simpa [same, Ne.symm same] using count

/-- The tag of the compiled text. -/
lemma tag_eq (reads : ReadsBack runtime file script s output script') :
    (Imports.ofScript runtime output script').tag =
      (Imports.ofScript runtime file.source script).nextTag runtime file.source
        s.tables.importNames (0 < s.tagUses) (importsOf script) := by
  obtain ⟨names, before, after, own⟩ := reads.names
  exact Imports.tag_of_written reads.specifiers before after own

/-- No marker of the compiled text is misplaced. -/
lemma wellMarked (reads : ReadsBack runtime file script s output script')
    (ok : (visitScript file script).exec {} = (.ok (), s)) : WellMarked (declaredIn script') := by
  intro d mem
  obtain old | ⟨bs, eq, -⟩ := reads.declared d mem
  · exact wellMarked_declaredIn ok d old
  · exact ⟨bs, eq⟩

/-- No marker is to be taken out of the compiled text. -/
lemma removals (reads : ReadsBack runtime file script s output script')
    (ok : (visitScript file script).exec {} = (.ok (), s)) :
    (planStatements (scriptFile runtime file.name output script') script').removals = [] :=
  reads.markers fun _ mem => (perm_edits_script ok).mem_iff.2 (List.mem_append_left _ mem)

/-- The compiled text has no template with its own tag just if the tag is the old one, or that of no
template of the source. -/
lemma unvisited (reads : ReadsBack runtime file script s output script')
    (ok : (visitScript file script).exec {} = (.ok (), s)) {next : String}
    (tag : (Imports.ofScript runtime output script').tag = next) :
    Unvisited runtime output script' ↔ next = file.tag ∨ next ∉ tagsOf script := by
  rw [unvisited_iff, tag, ← List.count_eq_zero, reads.count_tags ok]
  by_cases same : next = file.tag
  · simp [same]
  · simp [same, List.count_eq_zero]

end ReadsBack

/-- A compiled text that stays as it is when it is compiled again has no sites. -/
lemma compileSource_eq_self_iff {runtime : Runtime} {name text : String} {script : List Stmt}
    (read : parseScript (Dialect.ofFilename name) text.toList = some script)
    (spelled : Spelled (Imports.ofScript runtime text.toList script).tag text.toList script)
    (unmarked : (planStatements (scriptFile runtime name text.toList script) script).removals = [])
    (marked : WellMarked (declaredIn script)) :
    ((compileSource runtime name text).result = .ok text ↔ Unvisited runtime text.toList script) ∧
      (Unvisited runtime text.toList script →
        compileSource runtime name text = ⟨unchangedLog name, .ok text⟩) := by
  have stays (unvisited : Unvisited runtime text.toList script) :
      compileSource runtime name text = ⟨unchangedLog name, .ok text⟩ :=
    compileSource_eq_unchanged_iff.2 ⟨script, read, unvisited, marked⟩
  refine ⟨⟨fun same => ?_, fun unvisited => by rw [stays unvisited]⟩, stays⟩
  by_contra visited
  rw [compileSource_of_script read] at same
  obtain ⟨failure, failed⟩ | ⟨s, ok, entered, -⟩ := compileScript_visited visited
  · rw [same] at failed
    cases failed
  · refine compileScript_ne_source spelled unmarked ok (List.ne_nil_of_length_pos entered) ?_
    rw [same, String.ofList_toList]

/-- A script that imports the tag under another name, and has a template whose tag only has the name
of the tag. -/
def aliasText : String := "import\x7b_ as h\x7dfrom'm';h``;_``"

/-- Its compiled text. The tag is not imported any more. -/
def aliasCompiled : String :=
  "import\x7brenderer, makeFragment\x7dfrom'm';\nconst __render0 = renderer(makeFragment(``));" ++
    "(() => \x7b\n  const __nodes = __render0();\n  return __nodes[__nodes.length];\n\x7d)();_``"

/-- The compiled text when it is compiled again: the other template is compiled too, and a name is
declared twice. -/
def aliasAgain : String :=
  "import\x7brenderer, makeFragment\x7dfrom'm';\nconst __render0 = renderer(makeFragment(``));\n" ++
    "const __render0 = renderer(makeFragment(``));" ++
    "(() => \x7b\n  const __nodes = __render0();\n  return __nodes[__nodes.length];\n\x7d)();" ++
    "(() => \x7b\n  const __nodes = __render0();\n  return __nodes[__nodes.length];\n\x7d)()"

/-- What the named imports of the two texts mean. -/
def aliasNames (text : String) : String × String :=
  if text = "_ as h" then ("_", "h") else (text, text)

end TaggedMarkup.Compile

import Mathlib
import TaggedMarkup.Proofs.Code.Tables
import TaggedMarkup.Proofs.Code.Wiring

/-!
# Names that code declares

The text of generated code is made of lines (`RenderCode.lines`). Bare statements declare the nodes
of the fragment, what has to be released, and the fragment itself if there is anything to release
(`declared_generate`). All these names differ (`nodup_declared`). Between brackets the same lines
stand one level deeper, and declare nothing outside.
-/

namespace TaggedMarkup.Code

open Template (Binder Binding)

/-! ## Lines -/

namespace Sheet

/-- A sheet at the start of a line. -/
def atLine (finished : List Line) (indent : Nat) (margin : String) : Sheet :=
  { finished := finished, current := ⟨indent, ""⟩, indent := indent, margin := margin }

variable (finished : List Line) (indent : Nat) (margin : String)

/-- A line is printed behind the finished ones. -/
lemma printLine_atLine (text : String) :
    (atLine finished indent margin).printLine text =
      atLine (finished ++ [⟨indent, text⟩]) indent margin := by
  simp [atLine, printLine, print, newLine]

/-- Lines are printed behind the finished ones. -/
lemma printLines_atLine (texts : List String) :
    (atLine finished indent margin).printLines texts =
      atLine (finished ++ texts.map (⟨indent, ·⟩)) indent margin := by
  induction texts generalizing finished with
  | nil => simp [printLines]
  | cons text texts ih =>
    rw [printLines, List.foldl_cons, ← printLines, printLine_atLine, ih]
    simp

/-- The next lines have one more indent. -/
lemma indentMore_atLine :
    (atLine finished indent margin).indentMore = atLine finished (indent + 1) margin := rfl

/-- The next lines have one indent less. -/
lemma indentLess_atLine :
    (atLine finished (indent + 1) margin).indentLess = atLine finished indent margin := rfl

end Sheet

/-- The text of lines. -/
def printed (margin : String) : List Line → String
  | [] => ""
  | first :: rest => "\n".intercalate (first.render "" :: rest.map (·.render margin))

namespace RenderCode

/-- What follows the statements of the binders. -/
def ending (releases : List String) (indent : Nat) : List Line :=
  match releases with
  | [] => [⟨indent, "return __nodes[__nodes.length];"⟩]
  | releases =>
    [⟨indent, "const __fragment = __nodes[__nodes.length];"⟩,
      ⟨indent, "__fragment.unsubscribe = () => \x7b"⟩] ++
    releases.map (fun name => ⟨indent + 1, s!"{name}.unsubscribe();"⟩) ++
    [⟨indent, "\x7d;"⟩, ⟨indent, "return __fragment;"⟩]

/-- The lines of code at a level. -/
def lines (code : RenderCode) (indent : Nat) : List Line :=
  code.statements.map (⟨indent, ·⟩) ++ ending code.releases indent

/-- The lines of code are indented at least as the code is. -/
lemma le_indent_of_mem_lines {code : RenderCode} {indent : Nat} {line : Line}
    (mem : line ∈ code.lines indent) : indent ≤ line.indent := by
  obtain ⟨fragment, statements, releases⟩ := code
  rcases List.mem_append.1 mem with mem | mem
  · obtain ⟨_, _, rfl⟩ := List.mem_map.1 mem
    exact le_refl indent
  · cases releases with
    | nil =>
      cases List.mem_singleton.1 mem
      exact le_refl indent
    | cons name names =>
      simp only [ending, List.mem_append, List.mem_cons, List.mem_map, List.not_mem_nil] at mem
      grind

/-- Code is written line by line. -/
lemma write_atLine (code : RenderCode) (finished : List Line) (indent : Nat) (margin : String) :
    code.write (.atLine finished indent margin) =
      .atLine (finished ++ code.lines indent) indent margin := by
  obtain ⟨fragment, statements, releases⟩ := code
  cases releases with
  | nil => simp [write, lines, ending, Sheet.printLines_atLine, Sheet.printLine_atLine]
  | cons name names =>
    simp [write, lines, ending, Sheet.printLines_atLine, Sheet.printLine_atLine,
      Sheet.indentMore_atLine, Sheet.indentLess_atLine, Function.comp_def]

/-- Bare statements are the lines at the level of the text around them. -/
lemma asStatements_eq (code : RenderCode) (margin : String) :
    code.asStatements margin = printed margin (code.lines 0) := by
  rw [asStatements, show Sheet.withMargin margin = .atLine [] 0 margin from rfl, write_atLine]
  rfl

/-- Between brackets the lines stand one level deeper. -/
lemma between_eq (code : RenderCode) {left right : String} (bracket : right ≠ "")
    (margin : String) :
    code.between left right margin =
      printed margin (⟨0, left⟩ :: code.lines 1 ++ [⟨0, right⟩]) := by
  have opened : ((Sheet.withMargin margin).printLine left).indentMore =
      .atLine [⟨0, left⟩] 1 margin := by
    rw [show Sheet.withMargin margin = .atLine [] 0 margin from rfl, Sheet.printLine_atLine]
    rfl
  rw [between, opened, write_atLine, Sheet.indentLess_atLine]
  simp [Sheet.source, Sheet.lines, Sheet.print, Sheet.atLine, Sheet.lineIsEmpty, Line.isEmpty,
    bracket, printed]

end RenderCode

/-! ## Declarations -/

/-- The name that a statement declares, if it declares one. -/
def declared? (statement : String) : Option String :=
  if "const ".toList <+: statement.toList then some (declaredName statement) else none

/-- The names that lines declare in the scope around them. Lines at a deeper level are inside
brackets. -/
def declaredByLines (lines : List Line) : List String :=
  (lines.filter (·.indent == 0)).filterMap fun line => declared? line.text

/-- A constant declares its name. -/
lemma declared_const {name : String} (noBlank : ' ' ∉ name.toList) (rest : String) :
    declared? ("const " ++ name ++ (" " ++ rest)) = some name := by
  have start : "const ".toList <+: ("const " ++ name ++ (" " ++ rest)).toList := by
    rw [String.toList_append, String.toList_append, List.append_assoc]
    exact List.prefix_append _ _
  rw [declared?, if_pos start, declaredName_const noBlank]

/-- A statement that starts with another letter declares nothing. -/
lemma declared_of_head {statement : String} {c : Char} (head : statement.toList.head? = some c)
    (other : c ≠ 'c') : declared? statement = none := by
  refine if_neg fun ⟨rest, eq⟩ => other ?_
  rw [← eq] at head
  exact (Option.some.inj head).symm

/-- A value is handed to its observer by a call, or by the declaration of a subscription. -/
lemma declared_valueStatement {b : Binder} {sub observer statement : String}
    (noBlank : ' ' ∉ sub.toList) (head : observer.toList.head? = some '_')
    (ok : valueStatement b sub observer = .ok statement) :
    declared? statement = if b.binding.isSubscription then some sub else none := by
  have declares {statement : String} (rest : String)
      (eq : statement.toList = ("const " ++ sub ++ (" " ++ rest)).toList) :
      declared? statement = some sub := by
    rw [String.toList_injective eq]
    exact declared_const noBlank rest
  unfold valueStatement at ok
  cases binding : b.binding <;> simp only [binding] at ok
  case value =>
    cases ok
    refine declared_of_head (c := '_') ?_ (by decide)
    simp [toString, head]
  case subscribe =>
    cases ok
    exact declares ("= (" ++ valueCode b ++ ").subscribe(" ++ observer ++ ");") (by simp [toString])
  case first =>
    cases ok
    exact declares ("= __first(" ++ valueCode b ++ ", " ++ observer ++ ");") (by simp [toString])
  case map | mapFirst =>
    split at ok
    · rename_i o _
      cases ok
      exact declares ("= __map(" ++ o ++ ", " ++ o ++ " => (" ++ valueCode b ++ "), " ++ observer ++
        onceArgument b.binding ++ ");") (by simp [toString, binding])
    · cases ok
  case combine | combineFirst =>
    split at ok
    · cases ok
      exact declares ("= __combine([" ++ ", ".intercalate b.observables ++ "], (" ++
        ", ".intercalate b.observables ++ ") => (" ++ valueCode b ++ "), " ++ observer ++
        onceArgument b.binding ++ ");") (by simp [toString, binding])
    · cases ok

/-- The name of what the binder at a place has to release: its value, or the block itself. -/
def subName (i : Nat) (block : Bool) : String :=
  "__sub" ++ toString i ++ if block then "b" else ""

/-- The name of a subscription has no blanks. -/
lemma blank_notMem_subName (i : Nat) (block : Bool) : ' ' ∉ (subName i block).toList := by
  have number : ' ' ∉ ("__sub" ++ toString i).toList := blank_notMem_numbered (by decide) i
  cases block with
  | false => simpa [subName] using number
  | true => simpa [subName] using number

/-- A subscription is told by its name. -/
lemma subName_injective {i j : Nat} {block block' : Bool}
    (same : subName i block = subName j block') : i = j ∧ block = block' := by
  have chars := congrArg String.toList same
  simp only [subName, String.toList_append, List.append_assoc] at chars
  have numbers := List.append_cancel_left chars
  -- The letter is no digit, so it tells whether it has been added.
  have letter (n : Nat) (block : Bool) :
      'b' ∈ (toString n).toList ++ (if block then "b" else "").toList ↔ block = true := by
    have noDigit : 'b' ∉ (toString n).toList := fun mem =>
      absurd (Template.isDigit_of_mem_toString mem) (by decide)
    rw [List.mem_append, or_iff_right noDigit]
    cases block <;> simp
  obtain rfl : block = block' := by rw [Bool.eq_iff_iff, ← letter i, numbers, letter j]
  exact ⟨Nat.repr_injective (String.toList_injective (List.append_cancel_right numbers)), rfl⟩

/-- The names that the binder at a place leaves to release. -/
def released (i : Nat) (b : Binder) : List String :=
  (if b.target.isBlock then [subName i true] else []) ++
    if b.binding.isSubscription then [subName i false] else []

/-- The statement of a block declares it. -/
lemma declared_blockStatement (i : Nat) (call : String) :
    declared? s!"const __sub{i}b = {call};" = some (subName i true) := by
  have parts : s!"const __sub{i}b = {call};" =
      "const " ++ subName i true ++ (" " ++ ("= " ++ call ++ ";")) :=
    String.toList_injective (by simp [subName, toString])
  rw [parts]
  exact declared_const (blank_notMem_subName i true) _

/-- A block is declared in front of the one statement that hands on the value, and this statement
declares the subscription, if there is one. -/
lemma wire_shape {i entry : Nat} {b : Binder} {statements releases : List String}
    (ok : wire i entry b = .ok (statements, releases)) :
    ∃ node statement, b.node = some node ∧
      statements =
        (if b.target.isBlock then [s!"const __sub{i}b = {bindCall entry node};"] else []) ++
          [statement] ∧
      declared? statement =
        (if b.binding.isSubscription then some (subName i false) else none) ∧
      releases = released i b := by
  have sub : s!"__sub{i}" = subName i false := (String.append_empty ..).symm
  cases place : b.node with
  | none =>
    rw [wire, place] at ok
    cases ok
  | some node =>
    simp only [wire, place] at ok
    split at ok
    · cases ok
    · rename_i statement value
      cases ok
      refine ⟨node, statement, rfl, rfl, ?_, by rw [released, ← sub]; rfl⟩
      rw [sub] at value
      refine declared_valueStatement (blank_notMem_subName i false) ?_ value
      split <;> simp [subName, toString]

/-- The statements of a binder declare what it leaves to release. -/
lemma declared_wire {i entry : Nat} {b : Binder} {statements releases : List String}
    (ok : wire i entry b = .ok (statements, releases)) :
    statements.filterMap declared? = released i b ∧ releases = released i b := by
  obtain ⟨node, statement, -, rfl, last, eq⟩ := wire_shape ok
  refine ⟨?_, eq⟩
  rw [released, List.filterMap_append, List.filterMap_cons, last, List.filterMap_nil]
  refine congrArg₂ (· ++ ·) ?_ ?_
  · split
    · rw [List.filterMap_cons, declared_blockStatement, List.filterMap_nil]
    · rfl
  · cases b.binding.isSubscription <;> rfl

/-- The statements of all binders declare what is left to release, and all names differ. -/
lemma declared_wireAll {t : Tables} {i : Nat} {bs : List Binder} {w : Wiring}
    (ok : (wireAll t i bs).2 = .ok w) :
    w.statements.filterMap declared? = w.releases ∧ w.releases.Nodup ∧
      ∀ name ∈ w.releases, ∃ j block, i ≤ j ∧ name = subName j block := by
  induction bs generalizing t i w with
  | nil =>
    cases ok
    exact ⟨rfl, .nil, nofun⟩
  | cons b bs ih =>
    obtain ⟨code, rest, own, tail, rfl⟩ := wireAll_cons_inv ok
    obtain ⟨declared, nodup, later⟩ := ih tail
    obtain ⟨own, eq⟩ := declared_wire own
    -- The names of one binder have its number, and the others have later ones.
    have here : ∀ name ∈ released i b, ∃ block, name = subName i block := by
      intro name mem
      simp only [released, List.mem_append, List.mem_ite_nil_right, List.mem_singleton] at mem
      rcases mem with ⟨-, rfl⟩ | ⟨-, rfl⟩ <;> exact ⟨_, rfl⟩
    have apart : (released i b).Nodup := by
      have differ : subName i true ≠ subName i false := fun same =>
        Bool.noConfusion (subName_injective same).2
      unfold released
      split <;> split <;> simp [differ]
    refine ⟨?_, ?_, ?_⟩
    · rw [List.filterMap_append, own, eq, declared]
    · rw [eq]
      refine List.nodup_append.2 ⟨apart, nodup, ?_⟩
      rintro name mem _ mem' rfl
      obtain ⟨block, rfl⟩ := here name mem
      obtain ⟨j, block', later, same⟩ := later _ mem'
      have number := (subName_injective same).1
      omega
    · rw [eq]
      intro name mem
      rcases List.mem_append.1 mem with mem | mem
      · obtain ⟨block, rfl⟩ := here name mem
        exact ⟨i, block, le_refl i, rfl⟩
      · obtain ⟨j, block, le, rfl⟩ := later name mem
        exact ⟨j, block, by omega, rfl⟩

namespace RenderCode

/-- The names that the code of a template declares. -/
def declared (code : RenderCode) : List String :=
  "__nodes" :: code.releases ++ if code.releases.isEmpty then [] else ["__fragment"]

end RenderCode

/-- Lines declare what each part of them does. -/
lemma declaredByLines_append (lines lines' : List Line) :
    declaredByLines (lines ++ lines') = declaredByLines lines ++ declaredByLines lines' := by
  simp [declaredByLines]

/-- The lines of statements declare what the statements do. -/
lemma declaredByLines_statements (statements : List String) :
    declaredByLines (statements.map (⟨0, ·⟩)) = statements.filterMap declared? := by
  simp [declaredByLines, List.filter_map, List.filterMap_map, Function.comp_def]

/-- Lines inside brackets declare nothing outside. -/
lemma declaredByLines_deeper {lines : List Line} (deeper : ∀ line ∈ lines, 0 < line.indent) :
    declaredByLines lines = [] := by
  have none : lines.filter (·.indent == 0) = [] :=
    List.filter_eq_nil_iff.2 fun line mem => by simpa using (deeper line mem).ne'
  rw [declaredByLines, none]
  rfl

/-- The lines behind the statements declare the fragment, if there is anything to release. -/
lemma declaredByLines_ending (releases : List String) :
    declaredByLines (RenderCode.ending releases 0) =
      if releases.isEmpty then [] else ["__fragment"] := by
  cases releases with
  | nil => decide
  | cons name names =>
    have inside : declaredByLines ((name :: names).map fun name =>
        (⟨0 + 1, s!"{name}.unsubscribe();"⟩ : Line)) = [] :=
      declaredByLines_deeper (by simp)
    rw [RenderCode.ending, declaredByLines_append, declaredByLines_append, inside]
    · rfl
    · nofun

/-- Bare statements declare their names, and all of them differ. -/
lemma declared_generate {t : Tables} {fragment : Nat} {bs numbered : List Binder}
    {code : RenderCode} (ok : (generate t fragment bs).2 = .ok (numbered, code)) :
    declaredByLines (code.lines 0) = code.declared ∧ code.declared.Nodup := by
  obtain ⟨w, wiring, -, rfl⟩ := generate_inv ok
  obtain ⟨declared, nodup, numbered⟩ := declared_wireAll wiring
  constructor
  · have nodes : declared? s!"const __nodes = __render{fragment}();" = some "__nodes" := by
      have parts : s!"const __nodes = __render{fragment}();" =
          "const " ++ "__nodes" ++ (" " ++ ("= __render" ++ toString fragment ++ "();")) :=
        String.toList_injective (by simp [toString])
      rw [parts]
      exact declared_const (by decide) _
    rw [RenderCode.lines, declaredByLines_append, declaredByLines_statements,
      declaredByLines_ending, List.filterMap_cons, nodes, declared]
    rfl
  · -- The third letter tells the names of releases from the other two.
    have third : ∀ name ∈ w.releases, name.toList[2]? = some 's' := by
      intro name mem
      obtain ⟨j, block, -, rfl⟩ := numbered name mem
      simp [subName]
    have noNodes : "__nodes" ∉ w.releases := fun mem => absurd (third _ mem) (by decide)
    have noFragment : "__fragment" ∉ w.releases := fun mem => absurd (third _ mem) (by decide)
    rw [RenderCode.declared]
    split
    · simp [noNodes, nodup]
    · refine List.nodup_cons.2 ⟨by simp [noNodes], List.nodup_append.2 ⟨nodup, by simp, ?_⟩⟩
      rintro name mem _ last rfl
      exact noFragment (List.mem_singleton.1 last ▸ mem)

end TaggedMarkup.Code

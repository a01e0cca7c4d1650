import Mathlib
import TaggedMarkup.Proofs.Code.Locals

/-!
# Printed code

The code of a template is printed in three forms: as bare statements, as the body of a function,
and as a function called at once. All three are made of the same lines (`RenderCode.lines`), and
`forms_of_lines` gives the text of each form from them. A line is never changed, whatever it holds:
it may go over several lines itself, which are then neither indented nor moved to the margin.

Only an empty line would be printed without its margin, and no line is empty if no statement is
(`text_ne_empty_of_mem_lines`).
-/

namespace TaggedMarkup.Code

/-! ## The text of lines -/

/-- A line below other text, so many levels deeper than it is noted. -/
def Line.below (margin : String) (depth : Nat) (l : Line) : String :=
  "\n" ++ margin ++ String.join (List.replicate (l.indent + depth) "  ") ++ l.text

/-- A line that is not empty is indented. -/
lemma Line.render_of_ne_empty {l : Line} (nonempty : l.text ≠ "") (margin : String) :
    l.render margin = margin ++ String.join (List.replicate l.indent "  ") ++ l.text :=
  if_neg (by simpa [isEmpty] using nonempty)

/-- Lines are put together with a line feed before each but the first. -/
lemma intercalate_newline (first : String) (rest : List String) :
    "\n".intercalate (first :: rest) = first ++ String.join (rest.map ("\n" ++ ·)) := by
  induction rest generalizing first with
  | nil => simp
  | cons second rest ih =>
    rw [String.intercalate_cons_cons, ih, List.map_cons, String.join_cons]
    simp only [String.append_assoc]

/-- Lines with something on them, of which the first is not indented. -/
lemma printed_cons (margin first : String) {rest : List Line} (some : first ≠ "")
    (nonempty : ∀ l ∈ rest, l.text ≠ "") :
    printed margin (⟨0, first⟩ :: rest) =
      first ++ String.join (rest.map (Line.below margin 0)) := by
  have start : (⟨0, first⟩ : Line).render "" = first := by
    rw [Line.render_of_ne_empty some]
    simp
  have below : rest.map (fun l => "\n" ++ l.render margin) = rest.map (Line.below margin 0) := by
    refine List.map_congr_left fun l mem => ?_
    rw [Line.render_of_ne_empty (nonempty l mem), Line.below, Nat.add_zero]
    simp only [String.append_assoc]
  rw [printed, intercalate_newline, start, List.map_map, ← below]
  rfl

namespace RenderCode

/-- At another level the lines are the same, but for their indent. -/
lemma lines_eq_map (code : RenderCode) (indent : Nat) :
    code.lines indent = (code.lines 0).map fun l => ⟨l.indent + indent, l.text⟩ := by
  obtain ⟨fragment, statements, releases⟩ := code
  cases releases with
  | nil => simp [lines, ending]
  | cons name names => simp [lines, ending, Nat.add_comm, Function.comp_def]

/-- No line of code is empty if no statement is. -/
lemma text_ne_empty_of_mem_lines {code : RenderCode} (nonempty : ∀ s ∈ code.statements, s ≠ "")
    {l : Line} (mem : l ∈ code.lines 0) : l.text ≠ "" := by
  obtain ⟨fragment, statements, releases⟩ := code
  rcases List.mem_append.1 mem with mem | mem
  · obtain ⟨s, stated, rfl⟩ := List.mem_map.1 mem
    exact nonempty s stated
  · cases releases with
    | nil =>
      cases List.mem_singleton.1 mem
      decide
    | cons name names =>
      simp only [ending, List.mem_append, List.mem_cons, List.mem_map, List.not_mem_nil,
        or_false] at mem
      rcases mem with ((rfl | rfl) | ⟨release, -, rfl⟩) | rfl | rfl
      · decide
      · decide
      · simp [toString]
      · decide
      · decide

/-- Statements come first among the lines. -/
lemma texts_lines (code : RenderCode) :
    (code.lines 0).map (·.text) = code.statements ++ (ending code.releases 0).map (·.text) := by
  simp [lines, Function.comp_def]

/-- The first line is not indented. -/
lemma exists_lines_eq_cons (code : RenderCode) :
    ∃ first rest, code.lines 0 = ⟨0, first⟩ :: rest := by
  obtain ⟨fragment, statements, releases⟩ := code
  cases statements with
  | cons s statements => exact ⟨s, _, rfl⟩
  | nil => cases releases with
    | nil => exact ⟨_, _, rfl⟩
    | cons name names => exact ⟨_, _, rfl⟩

/-- Bare statements start with the first line, and have the others below it. -/
lemma asStatements_eq_below {code : RenderCode} (nonempty : ∀ s ∈ code.statements, s ≠ "")
    {first : String} {rest : List Line} (start : code.lines 0 = ⟨0, first⟩ :: rest)
    (margin : String) :
    code.asStatements margin = first ++ String.join (rest.map (Line.below margin 0)) := by
  have inside (l : Line) (mem : l ∈ code.lines 0) : l.text ≠ "" :=
    text_ne_empty_of_mem_lines nonempty mem
  rw [start] at inside
  rw [asStatements_eq, start]
  exact printed_cons margin first (inside _ List.mem_cons_self) fun l mem =>
    inside l (List.mem_cons_of_mem _ mem)

/-- Code between brackets has every line one level deeper. -/
lemma between_eq_below {code : RenderCode} (nonempty : ∀ s ∈ code.statements, s ≠ "")
    {left right : String} (opens : left ≠ "") (closes : right ≠ "") (margin : String) :
    code.between left right margin =
      left ++ String.join ((code.lines 0).map (Line.below margin 1)) ++ "\n" ++ margin ++
        right := by
  have inside : ∀ l ∈ code.lines 1 ++ [⟨0, right⟩], l.text ≠ "" := by
    intro l mem
    rw [lines_eq_map, List.mem_append, List.mem_map, List.mem_singleton] at mem
    obtain ⟨line, inLines, rfl⟩ | rfl := mem
    · show line.text ≠ ""
      exact text_ne_empty_of_mem_lines nonempty inLines
    · exact closes
  have deeper : (code.lines 1).map (Line.below margin 0) =
      (code.lines 0).map (Line.below margin 1) := by
    rw [lines_eq_map, List.map_map]
    rfl
  have last : Line.below margin 0 ⟨0, right⟩ = "\n" ++ margin ++ right := by
    simp [Line.below]
  rw [between_eq code closes, List.cons_append, printed_cons margin left opens inside,
    List.map_append, deeper, List.map_singleton, String.join_append, String.join_cons, last]
  simp [String.append_assoc]

end RenderCode

/-! ## Parts of a text -/

/-- The parts stand in a text one behind the other, with anything between them. -/
inductive Carries : String → List String → Prop where
  | nil (text : String) : Carries text []
  | cons (before part : String) {after : String} {parts : List String} (h : Carries after parts) :
    Carries (before ++ part ++ after) (part :: parts)

namespace Carries

variable {text : String} {parts : List String}

/-- A text carries the same parts behind another text. -/
lemma behind (h : Carries text parts) (before : String) : Carries (before ++ text) parts := by
  cases h with
  | nil => exact .nil _
  | cons between part h =>
    have later := cons (before ++ between) part h
    simpa only [String.append_assoc] using later

/-- Lines are parts of their text. -/
lemma of_lines (margin : String) (depth : Nat) (lines : List Line) (after : String) :
    Carries (String.join (lines.map (Line.below margin depth)) ++ after) (lines.map (·.text)) := by
  induction lines with
  | nil => exact .nil _
  | cons l lines ih =>
    rw [List.map_cons, String.join_cons, String.append_assoc, Line.below]
    exact .cons _ l.text ih

/-- A text that carries parts carries the first of them. -/
lemma of_append {more : List String} (h : Carries text (parts ++ more)) : Carries text parts := by
  induction parts generalizing text with
  | nil => exact .nil text
  | cons part parts ih =>
    cases h with
    | cons before part h => exact .cons before part (ih h)

/-- Code as statements carries its statements. -/
lemma of_asStatements {code : RenderCode} (nonempty : ∀ s ∈ code.statements, s ≠ "")
    (margin : String) : Carries (code.asStatements margin) code.statements := by
  obtain ⟨first, rest, start⟩ := code.exists_lines_eq_cons
  have lines := cons "" first (of_lines margin 0 rest "")
  rw [← List.map_cons (f := Line.text) (a := ⟨0, first⟩), ← start, code.texts_lines] at lines
  rw [RenderCode.asStatements_eq_below nonempty start]
  simpa using lines.of_append

/-- Code between two texts carries its statements. -/
lemma of_between {code : RenderCode} (nonempty : ∀ s ∈ code.statements, s ≠ "")
    {left right : String} (opens : left ≠ "") (closes : right ≠ "") (margin : String) :
    Carries (code.between left right margin) code.statements := by
  have lines := of_lines margin 1 (code.lines 0) ("\n" ++ (margin ++ right))
  rw [code.texts_lines] at lines
  rw [RenderCode.between_eq_below nonempty opens closes]
  simpa only [String.append_assoc] using lines.of_append.behind left

end Carries

/-! ## The three forms -/

/-- The three forms of code carry the same lines. Bare statements start with the first line, and
have the others below it; between brackets all lines are below, one level deeper. So every statement
stands unchanged and in order in all three. -/
theorem forms_of_lines (code : RenderCode) (nonempty : ∀ s ∈ code.statements, s ≠ "")
    (margin : String) :
    (∃ first rest, code.lines 0 = first :: rest ∧
      code.asStatements margin = first.text ++ String.join (rest.map (Line.below margin 0))) ∧
    code.asBody margin =
      "\x7b" ++ String.join ((code.lines 0).map (Line.below margin 1)) ++ "\n" ++ margin ++ "\x7d" ∧
    code.asCall margin =
      "(() => \x7b" ++ String.join ((code.lines 0).map (Line.below margin 1)) ++ "\n" ++ margin ++
        "\x7d)()" ∧
    ∀ text ∈ [code.asStatements margin, code.asBody margin, code.asCall margin],
      Carries text code.statements := by
  obtain ⟨first, rest, start⟩ := code.exists_lines_eq_cons
  refine ⟨⟨_, rest, start, RenderCode.asStatements_eq_below nonempty start margin⟩,
    RenderCode.between_eq_below nonempty (by decide) (by decide) margin,
    RenderCode.between_eq_below nonempty (by decide) (by decide) margin, ?_⟩
  intro text mem
  simp only [List.mem_cons, List.not_mem_nil, or_false] at mem
  obtain rfl | rfl | rfl := mem
  · exact .of_asStatements nonempty margin
  · exact .of_between nonempty (by decide) (by decide) margin
  · exact .of_between nonempty (by decide) (by decide) margin

/-- A statement over two lines, and something to release. -/
def twoLineCode : RenderCode :=
  { fragment := 0
    statements := ["const __nodes = __render0();", "const __sub0 = (`a\n  b`).subscribe(f);"]
    releases := ["__sub0"] }

/-- Code with a statement of two lines, the second of which keeps its own indent. -/
theorem forms_of_lines_twoLineCode :
    (∀ s ∈ twoLineCode.statements, s ≠ "") ∧
      twoLineCode.asBody "    " =
        "\x7b\n      const __nodes = __render0();\n" ++
        "      const __sub0 = (`a\n  b`).subscribe(f);\n" ++
        "      const __fragment = __nodes[__nodes.length];\n" ++
        "      __fragment.unsubscribe = () => \x7b\n        __sub0.unsubscribe();\n      \x7d;\n" ++
        "      return __fragment;\n    \x7d" ∧
      Carries (twoLineCode.asBody "    ") twoLineCode.statements := by
  have nonempty : ∀ s ∈ twoLineCode.statements, s ≠ "" := by decide
  obtain ⟨-, body, -, parts⟩ := forms_of_lines twoLineCode nonempty "    "
  exact ⟨nonempty, body.trans (by decide +kernel), parts _ (by simp)⟩

end TaggedMarkup.Code

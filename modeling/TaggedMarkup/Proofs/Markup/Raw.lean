import Mathlib
import TaggedMarkup.Markup.Sigil

/-!
# Raw text

Raw text is text as it stands between the backticks of a template: neither a backtick nor the start
of a hole is in it without a backslash (`IsUnbroken`), and it does not end within an escape
(`IsRaw`). Such text is scanned character by character (`Scan`). Ordinary characters end whatever
came before them, so text between ordinary characters is scanned on its own.

A chunk without its sigil and its block marker is raw again (`reads_scanSigil`,
`reads_scanBlock`).
-/

namespace TaggedMarkup.Markup

/-- Whether no backtick and no start of a hole stands in a text without a backslash. -/
def IsUnbroken (text : List Char) : Prop :=
  (∀ before after, text = before ++ '\x60' :: after → oddBackslashes before.reverse = true) ∧
    ∀ before after, text = before ++ '$' :: '\x7b' :: after → oddBackslashes before.reverse = true

/-- Whether a text can stand between the backticks of a template. -/
def IsRaw (text : String) : Prop :=
  IsUnbroken text.toList ∧ oddBackslashes text.toList.reverse = false

/-! ## Scanning -/

/-- What has been read of raw text: nothing that counts, a backslash, or a dollar sign. -/
inductive Scan where
  | plain
  | escape
  | dollar
  deriving DecidableEq, Repr

namespace Scan

/-- Reads a character, where `returns` tells whether it may be a carriage return. -/
def step (returns : Bool) (σ : Scan) (c : Char) : Option Scan :=
  if c = '\r' ∧ returns = false then none
  else if σ = .escape then some .plain
  else if c = '\\' then some .escape
  else if c = '$' then some .dollar
  else if c = '\x60' ∨ c = '\x7b' ∧ σ = .dollar then none
  else some .plain

/-- Reads characters. -/
def run (returns : Bool) (σ : Scan) (text : List Char) : Option Scan := text.foldlM (step returns) σ

variable {returns : Bool} {σ τ : Scan}

/-- An empty text leaves the scan as it is. -/
@[simp] lemma run_nil : run returns σ [] = some σ := rfl

/-- A text is scanned from its first character on. -/
@[simp] lemma run_cons (c : Char) (text : List Char) :
    run returns σ (c :: text) = (step returns σ c).bind fun τ => run returns τ text := rfl

/-- Two texts are scanned one after the other. -/
@[simp] lemma run_append (front behind : List Char) :
    run returns σ (front ++ behind) = (run returns σ front).bind fun τ => run returns τ behind :=
  List.foldlM_append

end Scan

/-! ## Scanned text is unbroken -/

/-- An odd number of backslashes becomes even with one more, and ends with any other character. -/
lemma oddBackslashes_concat (text : List Char) (c : Char) :
    oddBackslashes (text ++ [c]).reverse =
      (decide (c = '\\') && !oddBackslashes text.reverse) := by
  rw [List.reverse_append, List.reverse_singleton, List.singleton_append]
  by_cases backslash : c = '\\'
  · simp [backslash, oddBackslashes]
  · simp [backslash, oddBackslashes]

/-- An even run of backslashes makes no difference to a run that it goes on with. -/
lemma oddBackslashes_append {behind : List Char} (even : oddBackslashes behind = false)
    (cs : List Char) : oddBackslashes (cs ++ behind) = oddBackslashes cs := by
  induction cs with
  | nil => exact even
  | cons c cs ih =>
    by_cases backslash : c = '\\'
    · subst backslash
      simp only [List.cons_append, oddBackslashes, ih]
    · simp [oddBackslashes, backslash]

/-- An odd run of backslashes is one backslash and an even run. -/
lemma eq_cons_of_oddBackslashes {cs : List Char} (odd : oddBackslashes cs = true) :
    ∃ rest, cs = '\\' :: rest ∧ oddBackslashes rest = false := by
  unfold oddBackslashes at odd
  split at odd
  · exact ⟨_, rfl, by simpa using odd⟩
  · cases odd

/-- A text stays unbroken with a character that breaks nothing, or is escaped. -/
lemma isUnbroken_concat (text : List Char) (c : Char) :
    IsUnbroken (text ++ [c]) ↔ IsUnbroken text ∧
      (c = '\x60' → oddBackslashes text.reverse = true) ∧
      (c = '\x7b' → ∀ before, text = before ++ ['$'] → oddBackslashes before.reverse = true) := by
  constructor
  · rintro ⟨ticks, holes⟩
    refine ⟨⟨fun before after split => ?_, fun before after split => ?_⟩, ?_, ?_⟩
    · exact ticks before (after ++ [c]) (by simp [split])
    · exact holes before (after ++ [c]) (by simp [split])
    · rintro rfl
      exact ticks text [] rfl
    · rintro rfl before rfl
      exact holes before [] (by simp)
  · rintro ⟨⟨ticks, holes⟩, tick, hole⟩
    constructor
    · intro before after split
      rcases List.eq_nil_or_concat' after with rfl | ⟨after, d, rfl⟩
      · obtain ⟨rfl, same⟩ := List.append_inj' split rfl
        exact tick (List.singleton_inj.1 same)
      · rw [← List.cons_append, ← List.append_assoc] at split
        exact ticks before after (List.append_inj' split rfl).1
    · intro before after split
      rcases List.eq_nil_or_concat' after with rfl | ⟨after, d, rfl⟩
      · have split : text ++ [c] = (before ++ ['$']) ++ ['\x7b'] := by simpa using split
        obtain ⟨front, same⟩ := List.append_inj' split rfl
        exact hole (List.singleton_inj.1 same) before front
      · rw [← List.cons_append, ← List.cons_append, ← List.append_assoc] at split
        exact holes before after (List.append_inj' split rfl).1

namespace Scan

/-- What the state of a scan tells about the text. -/
lemma run_plain_eq {text : List Char} {σ : Scan} (scanned : run true .plain text = some σ) :
    (σ = .escape ↔ oddBackslashes text.reverse = true) ∧
      (σ = .dollar ↔ ∃ before, text = before ++ ['$'] ∧ oddBackslashes before.reverse = false) := by
  induction text using List.reverseRecOn generalizing σ with
  | nil =>
    cases scanned
    simp [oddBackslashes]
  | append_singleton text c ih =>
    rw [run_append] at scanned
    obtain ⟨τ, front, last⟩ := Option.bind_eq_some_iff.1 scanned
    obtain ⟨escape, dollar⟩ := ih front
    have ends : (∃ before, text ++ [c] = before ++ ['$'] ∧ oddBackslashes before.reverse = false) ↔
        c = '$' ∧ oddBackslashes text.reverse = false := by
      constructor
      · rintro ⟨before, split, even⟩
        obtain ⟨rfl, same⟩ := List.append_inj' split rfl
        exact ⟨List.singleton_inj.1 same, even⟩
      · rintro ⟨rfl, even⟩
        exact ⟨text, rfl, even⟩
    rw [oddBackslashes_concat, ends]
    simp only [run_cons, run_nil, Option.bind_fun_some, step] at last
    grind

/-- Just the unbroken texts are scanned. -/
lemma isSome_run_plain (text : List Char) :
    (run true .plain text).isSome = true ↔ IsUnbroken text := by
  induction text using List.reverseRecOn with
  | nil => simp [IsUnbroken]
  | append_singleton text c ih =>
    rw [isUnbroken_concat, ← ih, run_append]
    cases front : run true .plain text with
    | none => simp
    | some τ =>
      obtain ⟨escape, dollar⟩ := run_plain_eq front
      simp only [Option.bind_some, run_cons, run_nil, Option.bind_fun_some, step]
      grind

/-- Carriage returns are all that `returns` is about. -/
lemma run_eq_some {returns : Bool} {text : List Char} {σ τ : Scan} :
    run returns σ text = some τ ↔
      run true σ text = some τ ∧ (returns = false → '\r' ∉ text) := by
  induction text generalizing σ with
  | nil => simp
  | cons c text ih =>
    by_cases forbidden : c = '\r' ∧ returns = false
    · simp [forbidden, step]
    · have same : step returns σ c = step true σ c := by simp [step, forbidden]
      rw [run_cons, run_cons, same]
      cases step true σ c with
      | none => simp
      | some ρ => grind

/-- Whether a text is scanned and ends outside of an escape. -/
def Reads (returns : Bool) (text : List Char) : Prop :=
  ∃ σ, run returns .plain text = some σ ∧ σ ≠ .escape

/-- An even number of backslashes at the end escapes nothing. -/
lemma ne_escape_of_run {returns : Bool} {text : List Char} {σ : Scan}
    (scanned : run returns .plain text = some σ) (even : oddBackslashes text.reverse = false) :
    σ ≠ .escape := by
  intro escape
  rw [((run_plain_eq (run_eq_some.1 scanned).1).1).1 escape] at even
  cases even

end Scan

/-- Raw texts are scanned to their end. -/
lemma reads_iff {returns : Bool} {text : String} :
    Scan.Reads returns text.toList ↔ IsRaw text ∧ (returns = false → '\r' ∉ text.toList) := by
  rw [IsRaw, ← Scan.isSome_run_plain, Scan.Reads]
  constructor
  · rintro ⟨σ, scanned, ends⟩
    obtain ⟨scanned, noReturn⟩ := Scan.run_eq_some.1 scanned
    refine ⟨⟨by simp [scanned], Bool.eq_false_iff.2 fun odd => ends ?_⟩, noReturn⟩
    exact ((Scan.run_plain_eq scanned).1).2 odd
  · rintro ⟨⟨scanned, even⟩, noReturn⟩
    obtain ⟨σ, scanned⟩ := Option.isSome_iff_exists.1 scanned
    exact ⟨σ, Scan.run_eq_some.2 ⟨scanned, noReturn⟩, Scan.ne_escape_of_run scanned even⟩

/-! ## Ordinary characters -/

/-- Whether a character has no meaning in raw text. -/
def isOrdinary (c : Char) : Bool :=
  c != '\\' && c != '\x60' && c != '$' && c != '\x7b' && c != '\r'

namespace Scan

variable {returns : Bool} {σ τ : Scan}

/-- After an ordinary character the scan is plain. -/
lemma step_ordinary {c : Char} (ordinary : isOrdinary c = true) :
    step returns σ c = some .plain := by
  simp only [isOrdinary, Bool.and_eq_true, bne_iff_ne] at ordinary
  simp [step, ordinary]

/-- A carriage return ends what came before it, if it is allowed. -/
lemma step_delimiter {c : Char} (delimits : isOrdinary c = true ∨ c = '\r')
    (scanned : step returns σ c = some τ) : τ = .plain := by
  obtain ordinary | rfl := delimits
  · rw [step_ordinary ordinary] at scanned
    exact (Option.some.inj scanned).symm
  · simp only [step] at scanned
    grind

/-- Ordinary text ends what came before it. -/
lemma run_ordinary {text : List Char} (ordinary : ∀ c ∈ text, isOrdinary c = true)
    (nonempty : text ≠ []) : run returns σ text = some .plain := by
  induction text generalizing σ with
  | nil => exact absurd rfl nonempty
  | cons c text ih =>
    obtain ⟨here, ordinary⟩ := List.forall_mem_cons.1 ordinary
    rw [run_cons, step_ordinary here, Option.bind_some]
    cases text with
    | nil => rfl
    | cons d text => exact ih ordinary (List.cons_ne_nil d text)

end Scan

/-! ## Chunks -/

/-- A chunk without its sigil. -/
lemma reads_scanSigil {returns : Bool} {chunk : String} (reads : Scan.Reads returns chunk.toList) :
    Scan.Reads returns (scanSigil chunk).2.toList := by
  have split : chunk.toList = chunk.toList.reverse.reverse := by rw [List.reverse_reverse]
  simp only [scanSigil, String.toList_ofList]
  rw [split] at reads
  generalize chunk.toList.reverse = cs at reads
  cases cs with
  | nil => exact reads
  | cons c body =>
    rw [scanSigilReversed]
    split
    · exact reads
    · rename_i sigil isSigil
      obtain ⟨σ, scanned, -⟩ := reads
      rw [List.reverse_cons, Scan.run_append] at scanned
      obtain ⟨τ, front, last⟩ := Option.bind_eq_some_iff.1 scanned
      split
      · rename_i odd
        -- The last of an odd number of backslashes goes, so the sigil stands behind an even number.
        obtain ⟨rest, rfl, even⟩ := eq_cons_of_oddBackslashes odd
        rw [List.reverse_cons, Scan.run_append] at front
        obtain ⟨ρ, start, -⟩ := Option.bind_eq_some_iff.1 front
        have outside := Scan.ne_escape_of_run start (by simpa using even)
        have kept : ∃ τ, Scan.step returns ρ c = some τ ∧ τ ≠ .escape := by
          unfold Sigil.ofChar? at isSigil
          simp only [Scan.step]
          grind
        obtain ⟨τ, here, ends⟩ := kept
        refine ⟨τ, ?_, ends⟩
        rw [List.drop_one, List.tail_cons, List.reverse_cons, Scan.run_append, start]
        simpa using here
      · rename_i even
        exact ⟨τ, front, Scan.ne_escape_of_run front (by simpa using even)⟩

/-- A chunk without its block marker. -/
lemma reads_scanBlock {returns : Bool} {chunk : String} (reads : Scan.Reads returns chunk.toList) :
    Scan.Reads returns (scanBlock chunk).2.toList := by
  simp only [scanBlock, String.toList_ofList]
  generalize chunk.toList = cs at reads
  unfold scanBlockList
  split
  · exact reads
  · exact reads
  · exact reads

end TaggedMarkup.Markup

import Mathlib
import TaggedMarkup.Proofs.Markup.Raw
import TaggedMarkup.Proofs.Source.Splice
import TaggedMarkup.Proofs.Text.Quoted
import TaggedMarkup.Script.Lexeme

/-!
# Quoted strings in scripts

The quoted form of a text is a string literal of a script: it is one token, whose value is the text
(`readToken_quote`). What stands between the quotes can be enclosed in them (`IsEnclosable`), so
the literal ends at its last character and on its first line.
-/

namespace TaggedMarkup.Text.Quoted

open Json (shortEscape?)
open Markup (oddBackslashes oddBackslashes_append)

/-! ## Between the quotes -/

/-- Whether characters can stand between two quotes: none is below the blank, every quote is behind
an odd run of backslashes, and the run at the end is even. -/
structure IsEnclosable (cs : List Char) : Prop where
  printable : ∀ c ∈ cs, 32 ≤ c.toNat
  escaped : ∀ before after, cs = before ++ '\x22' :: after → oddBackslashes before.reverse = true
  ends : oddBackslashes cs.reverse = false

namespace IsEnclosable

/-- The empty text can be enclosed. -/
lemma nil : IsEnclosable [] := ⟨by simp, by simp, rfl⟩

/-- Texts that can be enclosed can be so together. -/
lemma append {cs ds : List Char} (front : IsEnclosable cs) (back : IsEnclosable ds) :
    IsEnclosable (cs ++ ds) where
  printable c mem := (List.mem_append.1 mem).elim (front.printable c) (back.printable c)
  escaped before after split := by
    obtain ⟨middle, rfl, eq⟩ | ⟨middle, rfl, eq⟩ := List.append_eq_append_iff.1 split
    · rw [List.reverse_append, oddBackslashes_append front.ends]
      exact back.escaped middle after eq
    · cases middle with
      | nil => exact absurd (back.escaped [] after eq.symm) (by decide)
      | cons c middle =>
        obtain ⟨rfl, -⟩ := List.cons.inj eq
        exact front.escaped before middle rfl
  ends := by rw [List.reverse_append, oddBackslashes_append front.ends, back.ends]

/-- Plain characters can be enclosed. -/
lemma of_plain {cs : List Char} (plain : ∀ c ∈ cs, 32 ≤ c.toNat ∧ c ≠ '\x22' ∧ c ≠ '\\') :
    IsEnclosable cs where
  printable c mem := (plain c mem).1
  escaped before after split := by
    have mem : '\x22' ∈ cs := by simp [split]
    exact absurd rfl (plain _ mem).2.1
  ends := by
    rcases List.eq_nil_or_concat' cs with rfl | ⟨front, c, rfl⟩
    · rfl
    · simp [oddBackslashes, (plain c (by simp)).2.2]

/-- A backslash and the character that it escapes, whichever that is. -/
lemma pair {e : Char} (printable : 32 ≤ e.toNat) : IsEnclosable ['\\', e] where
  printable := by simpa using printable
  escaped before after split := by
    rcases before with _ | ⟨c, _ | ⟨d, before⟩⟩
    · exact absurd (List.cons.inj split).1 (by decide)
    · obtain ⟨rfl, -⟩ := List.cons.inj split
      rfl
    · simp at split
  ends := by
    by_cases backslash : e = '\\' <;> simp [oddBackslashes, backslash]

end IsEnclosable

/-- The letter of a short escape is printable. -/
lemma printable_of_shortEscape? {e c : Char} (short : shortEscape? e = some c) : 32 ≤ e.toNat := by
  unfold shortEscape? at short
  split_ifs at short with same
  · simp only [Bool.or_eq_true, decide_eq_true_eq] at same
    obtain (rfl | rfl) | rfl := same <;> decide
  all_goals
    subst e
    decide

/-- The digits of an escape are plain. -/
lemma plain_hexDigit : ∀ n < 16,
    32 ≤ (hexDigit n).toNat ∧ hexDigit n ≠ '\x22' ∧ hexDigit n ≠ '\\' := by decide

/-- An escaped character can be enclosed. -/
lemma isEnclosable_escape (c : Char) : IsEnclosable (escape c) := by
  obtain ⟨e, form, short, -⟩ | ⟨form, control⟩ | ⟨form, noQuote, noBackslash, noControl⟩ :=
    escape_cases c
  · rw [form]
    exact .pair (printable_of_shortEscape? short)
  · have high := plain_hexDigit (c.toNat / 16) (by omega)
    have low := plain_hexDigit (c.toNat % 16) (by omega)
    have digits : IsEnclosable ['0', '0', hexDigit (c.toNat / 16), hexDigit (c.toNat % 16)] :=
      .of_plain (by simpa using ⟨high, low⟩)
    rw [form]
    exact (IsEnclosable.pair (e := 'u') (by decide)).append digits
  · rw [form]
    exact .of_plain (by simpa using ⟨by omega, noQuote, noBackslash⟩)

/-- An escaped text can be enclosed. -/
lemma isEnclosable_escapeAll (cs : List Char) : IsEnclosable (escapeAll cs) := by
  induction cs with
  | nil => exact .nil
  | cons c cs ih =>
    rw [escapeAll, List.flatMap_cons]
    exact (isEnclosable_escape c).append ih

end TaggedMarkup.Text.Quoted

namespace TaggedMarkup.Script.Lexeme

open Text (byteSize byteSize_append)
open Text.Quoted (escape escapeAll escape_cases hexDigit quote)
open Json (shortEscape?)

/-! ## Reading the literal -/

/-- An escape of one character that is neither a digit nor the end of a line. -/
lemma readString_simple {e : Char} (noHex : e ≠ 'x' ∧ e ≠ 'u') (noNewline : isNewline e = false)
    (noOctal : isOctal e = false) (acc : List Nat) (size : Nat) (rest : List Char) :
    readString '\x22' (.plain 0) acc size ('\\' :: e :: rest) =
      readString '\x22' (.plain 0) (simpleEscape e :: acc) (size + (1 + e.utf8Size)) rest := by
  have noReturn : e ≠ '\r' := by
    rintro rfl
    cases noNewline
  rw [readString, readString, noNewline, noOctal, Nat.add_assoc]
  · rfl
  · exact noHex.1
  · exact noHex.2
  · intro cs eq
    exact noReturn (List.cons.inj eq).1

/-- A plain character is read as it is. -/
lemma readString_plain {c : Char} (noQuote : c ≠ '\x22') (noBackslash : c ≠ '\\')
    (noControl : ¬c.toNat < 32) (acc : List Nat) (size : Nat) (rest : List Char) :
    readString '\x22' (.plain 0) acc size (c :: rest) =
      readString '\x22' (.plain 0) (c.toNat :: acc) (size + c.utf8Size) rest := by
  have noFeed : c ≠ '\n' ∧ c ≠ '\r' := by
    constructor
    all_goals
      rintro rfl
      exact noControl (by decide)
  rw [readString]
  · simp [noQuote, noFeed]
  · intro cs eq
    exact absurd eq noBackslash
  · exact noBackslash

/-- The escape of a control character is read as the character. -/
lemma readString_control {c : Char} (control : c.toNat < 32) (acc : List Nat) (size : Nat)
    (rest : List Char) :
    readString '\x22' (.plain 0) acc size
        ('\\' :: 'u' :: '0' :: '0' :: hexDigit (c.toNat / 16) :: hexDigit (c.toNat % 16) :: rest) =
      readString '\x22' (.plain 0) (c.toNat :: acc) (size + 6) rest := by
  have digits : ∀ n < 32, hexDigit? (hexDigit (n / 16)) = some (n / 16) ∧
      hexDigit? (hexDigit (n % 16)) = some (n % 16) := by decide
  obtain ⟨high, low⟩ := digits c.toNat control
  have whole : c.toNat / 16 * 16 + c.toNat % 16 = c.toNat := Nat.div_add_mod' _ _
  calc readString '\x22' (.plain 0) acc size _
      = readString '\x22' (.digits 2 0) acc (size + 4)
          (hexDigit (c.toNat / 16) :: hexDigit (c.toNat % 16) :: rest) := rfl
    _ = readString '\x22' (.digits 1 (c.toNat / 16)) acc (size + 5)
          (hexDigit (c.toNat % 16) :: rest) := by
        rw [readString, high]
        simp
    _ = readString '\x22' (.plain 0) (c.toNat :: acc) (size + 6) rest := by
        rw [readString, low]
        simp [whole]

/-- The reader takes the escape of a character for the character. -/
lemma readString_escape (c : Char) (acc : List Nat) (size : Nat) (rest : List Char) :
    readString '\x22' (.plain 0) acc size (escape c ++ rest) =
      readString '\x22' (.plain 0) (c.toNat :: acc) (size + byteSize (escape c)) rest := by
  obtain ⟨e, form, short, -⟩ | ⟨form, control⟩ | ⟨form, noQuote, noBackslash, noControl⟩ :=
    escape_cases c
  · have simple : (e ≠ 'x' ∧ e ≠ 'u') ∧ isNewline e = false ∧ isOctal e = false ∧
        simpleEscape e = c.toNat := by
      unfold shortEscape? at short
      split_ifs at short with same
      · cases short
        simp only [Bool.or_eq_true, decide_eq_true_eq] at same
        obtain (rfl | rfl) | rfl := same <;> decide
      all_goals
        cases short
        subst e
        decide
    obtain ⟨noHex, noNewline, noOctal, value⟩ := simple
    rw [form, ← value]
    exact readString_simple noHex noNewline noOctal acc size rest
  · have sizes : ∀ n < 32, (hexDigit (n / 16)).utf8Size = 1 ∧ (hexDigit (n % 16)).utf8Size = 1 := by
      decide
    have six : byteSize (escape c) = 6 := by
      rw [form]
      simp only [byteSize, sizes c.toNat control]
      rfl
    rw [six, form]
    exact readString_control control acc size rest
  · rw [form]
    exact readString_plain noQuote noBackslash noControl acc size rest

/-- The literal is read up to the quote behind it. -/
lemma readString_escapeAll (cs : List Char) (acc : List Nat) (size : Nat) (rest : List Char) :
    readString '\x22' (.plain 0) acc size (escapeAll cs ++ '\x22' :: rest) =
      some ((cs.map Char.toNat).reverse ++ acc, size + byteSize (escapeAll cs) + 1, rest) := by
  induction cs generalizing acc size with
  | nil => rfl
  | cons c cs ih =>
    rw [escapeAll, List.flatMap_cons, List.append_assoc, readString_escape, ← escapeAll, ih,
      byteSize_append]
    simp [Nat.add_assoc]

/-! ## The value of the literal -/

/-- No character is half of a pair of units. -/
lemma toNat_not_surrogate (c : Char) : c.toNat < 0xd800 ∨ 0xe000 ≤ c.toNat := by
  obtain valid | valid := c.valid
  · exact .inl valid
  · exact .inr valid.1

/-- The units of characters stand for the characters. -/
lemma ofUnits_toNat (cs : List Char) : ofUnits (cs.map Char.toNat) = cs := by
  induction cs with
  | nil => rfl
  | cons c cs ih =>
    have apart := toNat_not_surrogate c
    have noHigh : ¬(0xd800 ≤ c.toNat ∧ c.toNat < 0xdc00) := by omega
    have noHalf : ¬(0xd800 ≤ c.toNat ∧ c.toNat < 0xe000) := by omega
    cases cs with
    | nil => simp [ofUnits, noHalf]
    | cons d cs =>
      rw [List.map_cons] at ih
      simp [ofUnits, noHigh, noHalf, ih]

/-- The units of characters are well-formed. -/
lemma areWellFormed_toNat (cs : List Char) : areWellFormed (cs.map Char.toNat) = true := by
  induction cs with
  | nil => rfl
  | cons c cs ih =>
    have apart := toNat_not_surrogate c
    have noHigh : ¬(0xd800 ≤ c.toNat ∧ c.toNat < 0xdc00) := by omega
    have noLow : c.toNat < 0xdc00 ∨ 0xe000 ≤ c.toNat := by omega
    cases cs with
    | nil => simpa [areWellFormed] using apart
    | cons d cs =>
      rw [List.map_cons] at ih
      simpa [areWellFormed, noHigh, ih] using noLow

/-- A quoted text is one token, whose value is the text, in front of anything. -/
lemma readToken_quote (s : String) (rest : List Char) :
    readToken ((quote s).toList ++ rest) =
      (.string s true, byteSize (quote s).toList, rest) := by
  have split : (quote s).toList = '\x22' :: escapeAll s.toList ++ ['\x22'] := by simp [quote]
  have size : byteSize (quote s).toList = 1 + byteSize (escapeAll s.toList) + 1 := by
    rw [split, byteSize_append]
    rfl
  have read := readString_escapeAll s.toList [] 1 rest
  rw [size, split, List.append_assoc, List.cons_append, List.singleton_append]
  simp [readToken, read, ofUnits_toNat, areWellFormed_toNat]

end TaggedMarkup.Script.Lexeme

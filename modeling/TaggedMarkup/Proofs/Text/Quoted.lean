import Mathlib
import TaggedMarkup.Json.Reader
import TaggedMarkup.Text.Quoted

/-!
# Quoted strings are read back

The strict reader finds the end of a quoted string, and gives back the text that was quoted
(`readString_quote`). So the quoted form tells the text, also in front of other characters.
-/

namespace TaggedMarkup.Text.Quoted

open Json (Part decode hexValue? isHigh isLow readHex readParts readString shortEscape?)

/-- A unit stands for a character: it is the character, or the code of one below the blank. -/
inductive Stands : Part → Char → Prop where
  | char (c : Char) : Stands (.char c) c
  | code {c : Char} (small : c.toNat < 32) : Stands (.code c.toNat) c

/-- A control character is no surrogate. -/
lemma not_surrogate {n : Nat} (small : n < 32) : isHigh n = false ∧ isLow n = false := by
  have noHigh : ¬0xD800 ≤ n := by omega
  have noLow : ¬0xDC00 ≤ n := by omega
  constructor
  · rw [isHigh, decide_eq_false noHigh, Bool.false_and]
  · rw [isLow, decide_eq_false noLow, Bool.false_and]

/-- A part that stands for a character is decoded to it. -/
lemma Stands.decode_cons {part : Part} {c : Char} (h : Stands part c) (parts : List Part) :
    decode (part :: parts) = (decode parts).map (c :: ·) := by
  cases h with
  | char => rfl
  | code small =>
    obtain ⟨noHigh, noLow⟩ := not_surrogate small
    -- A code in front of another code could be the first half of a pair.
    rcases parts with _ | ⟨_ | m, parts⟩
    · simp only [decode, noHigh, noLow, Bool.or_self, Bool.false_eq_true, if_false,
        Char.ofNat_toNat]
    · simp only [decode, noHigh, noLow, Bool.or_self, Bool.false_eq_true, if_false,
        Char.ofNat_toNat]
    · conv_lhs => unfold decode
      simp only [noHigh, noLow, Bool.false_eq_true, if_false, Char.ofNat_toNat]

/-- The number of a control character is read from its digits. -/
lemma readHex_control {n : Nat} (small : n < 32) (rest : List Char) :
    readHex ('0' :: '0' :: hexDigit (n / 16) :: hexDigit (n % 16) :: rest) = some (n, rest) := by
  have digits : ∀ n < 32, hexValue? (hexDigit (n / 16)) = some (n / 16) ∧
      hexValue? (hexDigit (n % 16)) = some (n % 16) := by decide
  have zero : hexValue? '0' = some 0 := by decide
  obtain ⟨high, low⟩ := digits n small
  have whole : ((0 * 16 + 0) * 16 + n / 16) * 16 + n % 16 = n := by omega
  simp only [readHex, zero, high, low, Option.pure_def, Option.bind_eq_bind, Option.bind_some,
    whole]

/-- A short escape is read as its character. -/
lemma readParts_short {e c : Char} (short : shortEscape? e = some c) (other : e ≠ 'u') (n : Nat)
    (rest : List Char) :
    readParts (n + 1) ('\\' :: e :: rest) =
      (readParts n rest).map fun (parts, rest) => (.char c :: parts, rest) := by
  rw [readParts, if_neg (by decide), if_pos rfl, short]
  · cases readParts n rest <;> rfl
  · exact other

/-- The escape of a control character is read as its number. -/
lemma readParts_code {c : Char} (control : c.toNat < 32) (n : Nat) (rest : List Char) :
    readParts (n + 1)
        ('\\' :: 'u' :: '0' :: '0' :: hexDigit (c.toNat / 16) :: hexDigit (c.toNat % 16) :: rest) =
      (readParts n rest).map fun (parts, rest) => (.code c.toNat :: parts, rest) := by
  rw [readParts, if_neg (by decide), if_pos rfl, readHex_control control]
  show (readParts n rest).bind _ = _
  cases readParts n rest <;> rfl

/-- A plain character is read as it is. -/
lemma readParts_plain {c : Char} (noQuote : c ≠ '\x22') (noBackslash : c ≠ '\\')
    (noControl : ¬c.toNat < 32) (n : Nat) (rest : List Char) :
    readParts (n + 1) (c :: rest) =
      (readParts n rest).map fun (parts, rest) => (.char c :: parts, rest) := by
  conv_lhs => unfold readParts
  rw [if_neg noQuote, if_neg noBackslash, if_neg noControl]
  cases readParts n rest <;> rfl

/-- The three forms of an escaped character. -/
lemma escape_cases (c : Char) :
    (∃ e, escape c = ['\\', e] ∧ shortEscape? e = some c ∧ e ≠ 'u') ∨
      (escape c =
          ['\\', 'u', '0', '0', hexDigit (c.toNat / 16), hexDigit (c.toNat % 16)] ∧ c.toNat < 32) ∨
      (escape c = [c] ∧ c ≠ '\x22' ∧ c ≠ '\\' ∧ ¬c.toNat < 32) := by
  by_cases short : c = '\x22' ∨ c = '\\' ∨ c = '\x08' ∨ c = '\x0c' ∨ c = '\n' ∨ c = '\r' ∨ c = '\t'
  · left
    rcases short with rfl | rfl | rfl | rfl | rfl | rfl | rfl
    all_goals exact ⟨_, rfl, rfl, by decide⟩
  · simp only [not_or] at short
    obtain ⟨quote, backslash, backspace, feed, line, carriage, tab⟩ := short
    right
    rw [escape, if_neg quote, if_neg backslash, if_neg backspace, if_neg feed, if_neg line,
      if_neg carriage, if_neg tab]
    by_cases control : c.toNat < 32
    · exact .inl ⟨if_pos control, control⟩
    · exact .inr ⟨if_neg control, quote, backslash, control⟩

/-- The reader takes one step for a character, however it is escaped. -/
lemma readParts_escape (c : Char) : ∃ part, Stands part c ∧ ∀ n rest,
    readParts (n + 1) (escape c ++ rest) =
      (readParts n rest).map fun (parts, rest) => (part :: parts, rest) := by
  obtain ⟨e, form, short, other⟩ | ⟨form, control⟩ | ⟨form, noQuote, noBackslash, noControl⟩ :=
    escape_cases c
  · rw [form]
    exact ⟨_, .char c, readParts_short short other⟩
  · rw [form]
    exact ⟨_, .code control, readParts_code control⟩
  · rw [form]
    exact ⟨_, .char c, readParts_plain noQuote noBackslash noControl⟩

/-- The units of an escaped text, up to its closing quote. -/
lemma readParts_escapeAll (cs rest : List Char) {n : Nat} (fuel : cs.length < n) :
    ∃ parts, readParts n (escapeAll cs ++ '\x22' :: rest) = some (parts, rest) ∧
      decode parts = some cs := by
  induction cs generalizing n with
  | nil =>
    obtain ⟨m, rfl⟩ := Nat.exists_eq_add_of_lt fuel
    exact ⟨[], by rw [Nat.add_assoc]; rfl, rfl⟩
  | cons c cs ih =>
    obtain ⟨m, rfl⟩ : ∃ m, n = m + 1 := ⟨n - 1, by omega⟩
    obtain ⟨part, stands, step⟩ := readParts_escape c
    obtain ⟨parts, read, decoded⟩ := ih (by simpa using fuel)
    refine ⟨part :: parts, ?_, ?_⟩
    · rw [escapeAll, List.flatMap_cons, List.append_assoc, step, ← escapeAll, read]
      rfl
    · rw [stands.decode_cons, decoded]
      rfl

/-- No character is escaped to nothing. -/
lemma escape_ne_nil (c : Char) : escape c ≠ [] := by
  obtain ⟨e, form, -⟩ | ⟨form, -⟩ | ⟨form, -⟩ := escape_cases c
  all_goals
    rw [form]
    exact List.cons_ne_nil _ _

/-- A text does not get shorter when it is escaped. -/
lemma length_le_escapeAll (cs : List Char) : cs.length ≤ (escapeAll cs).length := by
  induction cs with
  | nil => exact Nat.zero_le _
  | cons c cs ih =>
    have some := List.length_pos_iff.2 (escape_ne_nil c)
    rw [escapeAll, List.flatMap_cons, List.length_append, ← escapeAll, List.length_cons]
    omega

/-- Behind its first quote, a quoted string is read back, and nothing behind it is read. -/
lemma readString_quote (s : String) (rest : List Char) :
    ∃ tail, (quote s).toList ++ rest = '\x22' :: tail ∧ readString tail = some (some s, rest) := by
  refine ⟨escapeAll s.toList ++ '\x22' :: rest, by simp [quote], ?_⟩
  have fuel : s.toList.length < (escapeAll s.toList ++ '\x22' :: rest).length + 1 := by
    have := length_le_escapeAll s.toList
    simp only [List.length_append, List.length_cons]
    omega
  obtain ⟨parts, read, decoded⟩ := readParts_escapeAll s.toList rest fuel
  rw [readString, read]
  simp [decoded]

/-- The quoted form tells the text, also in front of other characters. -/
lemma quote_append_inj {s t : String} {cs ds : List Char}
    (same : (quote s).toList ++ cs = (quote t).toList ++ ds) : s = t ∧ cs = ds := by
  obtain ⟨tail, eq, read⟩ := readString_quote s cs
  obtain ⟨tail', eq', read'⟩ := readString_quote t ds
  rw [eq, eq'] at same
  obtain rfl := (List.cons.inj same).2
  rw [read] at read'
  obtain ⟨hs, hc⟩ := Prod.mk.inj (Option.some.inj read')
  exact ⟨Option.some.inj hs, hc⟩

end TaggedMarkup.Text.Quoted

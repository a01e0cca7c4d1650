import Mathlib
import TaggedMarkup.Code.Sheet
import TaggedMarkup.Proofs.Code.Tables
import TaggedMarkup.Proofs.Script.Quoted

/-!
# Names in code

Texts and names go into code as literals, which stand for nothing but themselves
(`isLiteralOf_quote`). The key of a property is left as it is if it is an identifier. The call that
makes a binder tells its function and its argument (`call_inj`), just as the text does by which
initializers are looked up: `names_decode`.
-/

namespace TaggedMarkup.Code

open Script.Lexeme (pushWord readToken readWord)
open Template (Expression Index Initializer Target)
open Text (byteSize continuesIdent startsIdent)
open Text.Quoted (IsEnclosable escapeAll isEnclosable_escapeAll quote readString_quote)

/-! ## Literals -/

/-- A text is a string literal of a value: it is the value in JSON, and one token of that value in
a script, whatever follows it; and it ends at the first quote that is not escaped. -/
structure IsLiteralOf (text value : String) : Prop where
  json : Json.read? text = some (.string (some value))
  token : ∀ rest,
    readToken (text.toList ++ rest) = (.string value true, byteSize text.toList, rest)
  enclosed : ∃ inner, text.toList = '\x22' :: inner ++ ['\x22'] ∧ IsEnclosable inner

/-- A quoted text is a literal of the text. -/
lemma isLiteralOf_quote (value : String) : IsLiteralOf (quote value) value where
  json := by
    obtain ⟨tail, chars, read⟩ := readString_quote value []
    rw [List.append_nil] at chars
    rw [Json.read?, chars]
    simp [Json.readValue, Json.skipBlanks, read]
  token := Script.Lexeme.readToken_quote value
  enclosed := ⟨escapeAll value.toList, by simp [quote], isEnclosable_escapeAll _⟩

/-! ## Keys of properties -/

/-- Whether a character is an ASCII letter, `_` or `$`. -/
def IsNameStart (c : Char) : Prop := c.isAlpha = true ∨ c = '_' ∨ c = '$'

/-- Whether a name is an ASCII identifier. Digits may stand behind its first character. -/
def IsAsciiIdentifier (name : String) : Prop :=
  ∃ c cs, name.toList = c :: cs ∧ IsNameStart c ∧ ∀ d ∈ cs, IsNameStart d ∨ d.isDigit = true

/-- A plain key starts as a name does. -/
lemma startsKey_iff (c : Char) : startsKey c = true ↔ IsNameStart c := by
  simp [startsKey, IsNameStart, or_assoc]

/-- A key is plain just if it is an identifier in basic letters. -/
lemma isPlainKey_iff (name : String) : isPlainKey name = true ↔ IsAsciiIdentifier name := by
  unfold isPlainKey IsAsciiIdentifier
  cases name.toList with
  | nil => simp
  | cons c cs => simp [startsKey_iff]

/-- The basic letters by number. -/
lemma isAlpha_iff_toNat (c : Char) :
    c.isAlpha = true ↔ 65 ≤ c.toNat ∧ c.toNat ≤ 90 ∨ 97 ≤ c.toNat ∧ c.toNat ≤ 122 := by
  simp [Char.isAlpha, Char.isUpper, Char.isLower, UInt32.le_iff_toNat_le]

/-- The start of a name is a basic character. -/
lemma IsNameStart.toNat_lt {c : Char} (start : IsNameStart c) : c.toNat < 128 := by
  obtain letter | rfl | rfl := start
  · rw [isAlpha_iff_toNat] at letter
    omega
  · decide
  · decide

/-- The start of a name is no digit. -/
lemma IsNameStart.isDigit {c : Char} (start : IsNameStart c) : c.isDigit = false := by
  obtain letter | rfl | rfl := start
  · rw [isAlpha_iff_toNat] at letter
    rw [← Bool.not_eq_true, Char.isDigit_iff_toNat]
    simp only [Char.reduceToNat]
    omega
  · decide
  · decide

/-- The start of a name starts an identifier. -/
lemma IsNameStart.startsIdent {c : Char} (start : IsNameStart c) : startsIdent c = true := by
  rw [Text.startsIdent, if_pos start.toNat_lt]
  obtain letter | rfl | rfl := start
  · rw [letter, Bool.true_or, Bool.true_or]
  · decide
  · decide

/-- What is in a name continues an identifier. -/
lemma continuesIdent_of_name {c : Char} (part : IsNameStart c ∨ c.isDigit = true) :
    continuesIdent c = true := by
  obtain start | digit := part
  · rw [continuesIdent, if_pos start.toNat_lt]
    obtain letter | rfl | rfl := start
    · simp [Char.isAlphanum, letter]
    · decide
    · decide
  · have ascii : c.toNat < 128 := by
      rw [Char.isDigit_iff_toNat] at digit
      exact digit.2.trans_lt (by decide)
    rw [continuesIdent, if_pos ascii]
    simp [Char.isAlphanum, digit]

/-- A word goes on as long as characters of names follow. -/
lemma readWord_of_name {cs : List Char} (names : ∀ d ∈ cs, IsNameStart d ∨ d.isDigit = true)
    {acc : List Char} (started : acc ≠ []) (size : Nat) :
    readWord .plain false acc size cs =
      some (acc.reverse ++ cs, false, size + byteSize cs, []) := by
  induction cs generalizing acc size with
  | nil => simp [readWord, started, byteSize]
  | cons c cs ih =>
    obtain ⟨here, names⟩ := List.forall_mem_cons.1 names
    have push : pushWord acc c = some (c :: acc) := by
      simp [pushWord, started, continuesIdent_of_name here]
    have noBackslash : c ≠ '\\' := by
      rintro rfl
      exact absurd (continuesIdent_of_name here) (by decide)
    rw [readWord, push]
    · show readWord .plain false (c :: acc) (size + c.utf8Size) cs = _
      rw [ih names (List.cons_ne_nil c acc)]
      simp [byteSize, Nat.add_assoc]
    · exact noBackslash

/-- An identifier is one token, which is the word itself. -/
lemma readToken_of_isAsciiIdentifier {name : String} (identifier : IsAsciiIdentifier name) :
    readToken name.toList = (.word name false, byteSize name.toList, []) := by
  obtain ⟨c, cs, chars, start, names⟩ := identifier
  have other {d : Char} (different : startsIdent d = false) : c ≠ d := by
    rintro rfl
    rw [start.startsIdent] at different
    cases different
  have push : pushWord [] c = some [c] := by
    simp [pushWord, start.startsIdent]
  have read : readWord .plain false [] 0 (c :: cs) =
      some (c :: cs, false, byteSize (c :: cs), []) := by
    rw [readWord, push]
    · show readWord .plain false [c] (0 + c.utf8Size) cs = _
      rw [readWord_of_name names (List.cons_ne_nil c []), Nat.zero_add]
      rfl
    · exact other (by decide)
  have value : String.ofList (c :: cs) = name := by
    rw [← chars, String.ofList_toList]
  rw [chars, readToken]
  · simp [start.isDigit, start.startsIdent, read, value, other (d := '\x22') (by decide),
      other (d := '\x27') (by decide), other (d := '.') (by decide)]
  · exact other (by decide)
  · exact other (by decide)

/-- A key is its name if that is an identifier, and is quoted if it is not. -/
lemma propertyKey_cases (name : String) :
    IsAsciiIdentifier name ∧ propertyKey name = name ∨
      ¬IsAsciiIdentifier name ∧ propertyKey name = quote name := by
  rw [propertyKey, ← isPlainKey_iff]
  by_cases plain : isPlainKey name = true
  · exact .inl ⟨plain, if_pos plain⟩
  · exact .inr ⟨plain, if_neg plain⟩

/-- No identifier is quoted. -/
lemma IsAsciiIdentifier.ne_quote {name : String} (identifier : IsAsciiIdentifier name)
    (other : String) : name ≠ quote other := by
  rintro rfl
  obtain ⟨c, cs, chars, start, -⟩ := identifier
  obtain ⟨inner, literal, -⟩ := (isLiteralOf_quote other).enclosed
  obtain ⟨rfl, -⟩ := List.cons.inj (chars.symm.trans literal)
  exact absurd start.startsIdent (by decide)

/-- A name is told by its key. -/
lemma propertyKey_injective : Function.Injective propertyKey := by
  intro a b same
  obtain ⟨plain, key⟩ | ⟨-, key⟩ := propertyKey_cases a <;>
    obtain ⟨plain', key'⟩ | ⟨-, key'⟩ := propertyKey_cases b
  all_goals rw [key, key'] at same
  · exact same
  · exact absurd same (plain.ne_quote b)
  · exact absurd same.symm (plain'.ne_quote a)
  · exact Index.attribute.inj (Index.code_injective same)

/-! ## Calls -/

/-- No index ends in a bracket and another index. -/
lemma code_ne_append_call (i j : Index) (before : List Char) :
    i.code.toList ≠ before ++ '(' :: j.code.toList := by
  intro split
  rcases i with n | name
  · have mem : '(' ∈ (toString n).toList := by
      rw [show (toString n).toList = _ from split]
      simp
    exact absurd (Template.isDigit_of_mem_toString mem) (by decide)
  · obtain ⟨inner, literal, enclosable⟩ := (isLiteralOf_quote name).enclosed
    rw [show (Index.attribute name).code.toList = _ from literal] at split
    rcases j with m | other
    · -- The number at the end would have to end in the quote.
      have last : '\x22' ∈ '(' :: (toString m).toList := by
        have same := congrArg List.getLast? split
        rw [List.getLast?_concat, List.getLast?_append_of_ne_nil _ (List.cons_ne_nil _ _)] at same
        exact List.mem_of_getLast? same.symm
      obtain quote | mem := List.mem_cons.1 last
      · exact absurd quote (by decide)
      · exact absurd (Template.isDigit_of_mem_toString mem) (by decide)
    · -- The first quote of the second literal would be inside the first one without a backslash.
      obtain ⟨inner', literal', -⟩ := (isLiteralOf_quote other).enclosed
      rw [show (Index.attribute other).code.toList = _ from literal'] at split
      have closed : ('\x22' :: inner) ++ ['\x22'] =
          (before ++ '(' :: '\x22' :: inner') ++ ['\x22'] := by
        simpa using split
      have cut := List.append_cancel_right closed
      cases before with
      | nil => exact absurd (List.cons.inj cut).1 (by decide)
      | cons c before =>
        have inside : inner = (before ++ ['(']) ++ '\x22' :: inner' := by
          simpa using (List.cons.inj cut).2
        have odd := enclosable.escaped _ _ inside
        simp [Markup.oddBackslashes] at odd

/-- A call tells its function and its argument, whatever the name of the function. -/
lemma call_inj {f g : String} {i j : Index}
    (same : f ++ "(" ++ i.code ++ ")" = g ++ "(" ++ j.code ++ ")") : f = g ∧ i = j := by
  have closed : (f.toList ++ '(' :: i.code.toList) ++ [')'] =
      (g.toList ++ '(' :: j.code.toList) ++ [')'] := by
    simpa using congrArg String.toList same
  -- Of two names one starts the other, and what is left of it is in front of the other call.
  have rest {i j : Index} {middle : List Char}
      (split : '(' :: i.code.toList = middle ++ '(' :: j.code.toList) : middle = [] ∧ i = j := by
    cases middle with
    | nil =>
      have codes := (List.cons.inj split).2
      exact ⟨rfl, Index.code_injective (String.toList_injective codes)⟩
    | cons c middle => exact absurd (List.cons.inj split).2 (code_ne_append_call i j middle)
  obtain ⟨middle, name, split⟩ | ⟨middle, name, split⟩ :=
    List.append_eq_append_iff.1 (List.append_cancel_right closed)
  · obtain ⟨rfl, index⟩ := rest split
    rw [List.append_nil] at name
    exact ⟨(String.toList_injective name).symm, index⟩
  · obtain ⟨rfl, index⟩ := rest split
    rw [List.append_nil] at name
    exact ⟨String.toList_injective name, index.symm⟩

/-- Initializers have the same code just if they have the same factory and index. -/
lemma code_eq_iff (a b : Initializer) :
    a.code = b.code ↔ a.target.factory = b.target.factory ∧ a.index = b.index := by
  constructor
  · exact call_inj
  · rintro ⟨factory, index⟩
    rw [Initializer.code, Initializer.code, factory, index]

/-- Initializers have the same key just if they have the same factory and index. -/
lemma key_eq_iff (a b : Initializer) :
    a.key = b.key ↔ a.target.factory = b.target.factory ∧ a.index = b.index := by
  constructor
  · intro same
    rw [Initializer.key_injective same]
    exact ⟨rfl, rfl⟩
  · rintro ⟨factory, index⟩
    rw [Initializer.key, Initializer.key, factory, index]

/-- Names and texts of code stand for themselves. A fixed text and the name of an attribute are
literals of their values; the key of a property is the name, if that is an identifier and so a word
of its own, and otherwise a literal of it, and different names have different keys. Equal keys and
equal calls of initializers mean an equal function and an equal argument, where a number is never
the name of its digits. -/
theorem names_decode :
    (∀ value offset, IsLiteralOf (Expression.ofText value offset).source value) ∧
    (∀ name, IsLiteralOf (Index.attribute name).code name) ∧
    Function.Injective propertyKey ∧
    (∀ name,
      IsAsciiIdentifier name ∧ propertyKey name = name ∧
          readToken name.toList = (.word name false, byteSize name.toList, []) ∨
        ¬IsAsciiIdentifier name ∧ IsLiteralOf (propertyKey name) name) ∧
    (∀ a b : Initializer,
      (a.key = b.key ↔ a.code = b.code) ∧
        (a.code = b.code ↔ a.target.factory = b.target.factory ∧ a.index = b.index)) ∧
    ∀ (s t : Target) (n : Nat),
      Initializer.key ⟨s, .child n⟩ ≠ Initializer.key ⟨t, .attribute (toString n)⟩ ∧
        Initializer.code ⟨s, .child n⟩ ≠ Initializer.code ⟨t, .attribute (toString n)⟩ := by
  refine ⟨fun value _ => isLiteralOf_quote value, isLiteralOf_quote, propertyKey_injective,
    fun name => ?_, fun a b => ⟨(key_eq_iff a b).trans (code_eq_iff a b).symm, code_eq_iff a b⟩,
    fun s t n => ⟨fun same => ?_, fun same => ?_⟩⟩
  · obtain ⟨identifier, key⟩ | ⟨noIdentifier, key⟩ := propertyKey_cases name
    · exact .inl ⟨identifier, key, readToken_of_isAsciiIdentifier identifier⟩
    · rw [key]
      exact .inr ⟨noIdentifier, isLiteralOf_quote name⟩
  · cases ((key_eq_iff _ _).1 same).2
  · cases ((code_eq_iff _ _).1 same).2

end TaggedMarkup.Code

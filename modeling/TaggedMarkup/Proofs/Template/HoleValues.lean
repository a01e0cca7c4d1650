import Mathlib
import TaggedMarkup.Proofs.Template.Frames

/-!
# Holes as attribute values

A hole is bound to the attribute whose name and equals sign stand in front of it (`AsksValue`). This
follows from what the lexer has read when it comes to the hole (`Lexer.HasRead`), signal by signal.
Behind the hole its value has to end, as the lexer takes no text there (`HoleValue`). It does take
more holes between the same quotes, and these find the name used up: `holeValue_of_mem_items`.
-/

namespace TaggedMarkup.Template

open Markup (IsName Lexer Outcome isBlank isQuote scanBlock scanSigil)

/-! ## Attributes in front of a value -/

/-- Whether a name cannot go on over a signal. -/
def Signal.endsName : Signal → Bool
  | .char c => Markup.endsName c
  | .hole _ => true

/-- Signals behind which a name is at its start. -/
def EndsNames (read : List Signal) : Prop := ∃ s, read.getLast? = some s ∧ s.endsName = true

/-- Signals that end in the name of an attribute. -/
def GivesName (name : String) (read : List Signal) : Prop :=
  ∃ before, EndsNames before ∧ IsName name ∧ read = before ++ name.toList.map .char

/-- Signals that end in the name of an attribute and blanks behind it. -/
def GaveName (name : String) (read : List Signal) : Prop :=
  ∃ (before : List Signal) (blanks : List Char), GivesName name before ∧
    (∀ c ∈ blanks, isBlank c = true) ∧ read = before ++ blanks.map .char

/-- Signals that end in the name of an attribute and an equals sign, with blanks around it. -/
def AsksValue (name : String) (read : List Signal) : Prop :=
  ∃ (before : List Signal) (blanks : List Char), GaveName name before ∧
    (∀ c ∈ blanks, isBlank c = true) ∧ read = before ++ .char '=' :: blanks.map .char

/-- Holes as the value of an attribute, with what follows it. Between quotes there is nothing but
holes. Without quotes there is one hole, and then a blank, a slash, the end of the tag, or another
name. -/
inductive HoleValue : List Hole → List Signal → List Signal → Prop
  | bare {h : Hole} {c : Char} {rest : List Signal}
      (next : isBlank c = true ∨ c = '>' ∨ c = '/' ∨ Markup.endsName c = false) :
      HoleValue [h] [.hole h] (.char c :: rest)
  | quoted {hs : List Hole} {quote : Char} {rest : List Signal} (isQuote : isQuote quote = true) :
      HoleValue hs (.char quote :: hs.map .hole ++ [.char quote]) rest

/-- Among the signals stands an attribute of a name, whose value is made of holes. -/
def HasHoleValue (signals : List Signal) (name : String) (hs : List Hole) : Prop :=
  ∃ before value behind, signals = before ++ value ++ behind ∧ AsksValue name before ∧
    HoleValue hs value behind

/-- A blank ends a name. -/
lemma endsName_of_isBlank {c : Char} (blank : isBlank c = true) : Markup.endsName c = true := by
  simp [Markup.endsName, blank]

/-- A quote ends a name. -/
lemma endsName_of_isQuote {c : Char} (quote : isQuote c = true) : Markup.endsName c = true := by
  simp [Markup.endsName, quote]

variable {read : List Signal} {name : String} {c : Char}

/-- A character that ends names is read last. -/
lemma endsNames_char (read : List Signal) (ends : Markup.endsName c = true) :
    EndsNames (read ++ [.char c]) :=
  ⟨_, List.getLast?_concat, ends⟩

/-- A hole ends a name. -/
lemma endsNames_hole (read : List Signal) (h : Hole) : EndsNames (read ++ [.hole h]) :=
  ⟨_, List.getLast?_concat, rfl⟩

/-- A name starts behind what ends names. -/
lemma EndsNames.givesName (fresh : EndsNames read) (other : Markup.endsName c = false) :
    GivesName (String.singleton c) (read ++ [.char c]) :=
  ⟨read, fresh, Markup.isName_singleton other, by simp⟩

/-- A name goes on up to a character that ends it. -/
lemma GivesName.push (named : GivesName name read) (other : Markup.endsName c = false) :
    GivesName (name.push c) (read ++ [.char c]) := by
  obtain ⟨before, fresh, isName, rfl⟩ := named
  exact ⟨before, fresh, isName.push other, by simp⟩

/-- A name that has just been read has been read. -/
lemma GivesName.gaveName (named : GivesName name read) : GaveName name read :=
  ⟨read, [], named, by simp, by simp⟩

/-- Blanks may stand behind a name. -/
lemma GaveName.blank (named : GaveName name read) (blank : isBlank c = true) :
    GaveName name (read ++ [.char c]) := by
  obtain ⟨before, blanks, named, all, rfl⟩ := named
  refine ⟨before, blanks ++ [c], named, ?_, by simp⟩
  simpa [or_imp, forall_and] using ⟨all, blank⟩

/-- An equals sign behind a name asks for its value. -/
lemma GaveName.asksValue (named : GaveName name read) : AsksValue name (read ++ [.char '=']) :=
  ⟨read, [], named, by simp, by simp⟩

/-- Blanks may stand in front of a value. -/
lemma AsksValue.blank (asks : AsksValue name read) (blank : isBlank c = true) :
    AsksValue name (read ++ [.char c]) := by
  obtain ⟨before, blanks, named, all, rfl⟩ := asks
  refine ⟨before, blanks ++ [c], named, ?_, by simp⟩
  simpa [or_imp, forall_and] using ⟨all, blank⟩

end TaggedMarkup.Template

namespace TaggedMarkup.Markup.Lexer

open Template (AsksValue EndsNames GaveName GivesName Hole Signal endsNames_char endsNames_hole
  endsName_of_isBlank endsName_of_isQuote)

/-! ## What the lexer has read -/

/-- What the state of the lexer tells of the signals that led to it. -/
def HasRead (l : Lexer) (read : List Signal) : Prop :=
  match l.mode with
  | .beforeAttribute | .selfClosing => EndsNames read
  | .attributeName => GivesName l.name read
  | .afterAttribute => EndsNames read ∧ GaveName l.name read
  | .beforeValue => l.value = "" ∧ AsksValue l.name read
  | .quotedValue quote => isQuote quote = true ∧
    if l.bound then
      ∃ (name : String) (before : List Signal) (hs : List Hole), hs ≠ [] ∧
        AsksValue name before ∧ read = before ++ .char quote :: hs.map .hole
    else
      ∃ before, AsksValue l.name before ∧ read = before ++ .char quote :: l.value.toList.map .char
  | _ => True

variable {l l' : Lexer} {read : List Signal}

/-- A step in front of an attribute tells what has been read. -/
lemma stepBeforeAttribute_hasRead {c : Char} (mode : l.mode = .beforeAttribute)
    (fresh : endsName c = true ∨ EndsNames read) (ok : (l.stepBeforeAttribute c).fault = none) :
    (l.stepBeforeAttribute c).lexer.HasRead (read ++ [.char c]) := by
  unfold stepBeforeAttribute at ok ⊢
  split
  · rename_i blank
    simpa only [HasRead, mode] using endsNames_char read (endsName_of_isBlank blank)
  · rename_i noBlank
    split
    · trivial
    · rename_i noEnd
      split
      · rename_i slash
        subst slash
        exact endsNames_char read rfl
      · rename_i noSlash
        simp only [noBlank, noEnd, noSlash, Bool.false_eq_true, if_false] at ok
        split
        · rename_i sign
          rw [if_pos sign] at ok
          cases ok
        · rename_i noSign
          have other : endsName c = false := by simp_all [endsName]
          exact (fresh.resolve_left (by simp [other])).givesName other

/-- A step behind the name of an attribute tells what has been read. -/
lemma stepAfterAttribute_hasRead {c : Char} (mode : l.mode = .afterAttribute)
    (fresh : endsName c = true ∨ EndsNames read) (named : GaveName l.name read)
    (ok : (l.stepAfterAttribute c).fault = none) :
    (l.stepAfterAttribute c).lexer.HasRead (read ++ [.char c]) := by
  unfold stepAfterAttribute at ok ⊢
  split
  · rename_i blank
    simp only [HasRead, mode]
    exact ⟨endsNames_char read (endsName_of_isBlank blank), named.blank blank⟩
  · rename_i noBlank
    rw [if_neg noBlank] at ok
    split
    · rename_i equals
      subst equals
      exact ⟨rfl, named.asksValue⟩
    · rename_i noEquals
      rw [if_neg noEquals] at ok
      exact stepBeforeAttribute_hasRead rfl fresh ok

/-- A step in front of a value tells what has been read. -/
lemma stepBeforeValue_hasRead {c : Char} (unbound : l.bound = false) (mode : l.mode = .beforeValue)
    (empty : l.value = "") (asks : AsksValue l.name read) :
    (l.stepBeforeValue c).lexer.HasRead (read ++ [.char c]) := by
  unfold stepBeforeValue
  split
  · rename_i blank
    simp only [HasRead, mode]
    exact ⟨empty, asks.blank blank⟩
  · split
    · rename_i quote
      refine ⟨quote, ?_⟩
      simp only [unbound, Bool.false_eq_true, if_false]
      exact ⟨read, asks, by simp [empty]⟩
    · split <;> trivial

/-- A step in a quoted value tells what has been read. -/
lemma stepQuotedValue_hasRead {quote c : Char} (mode : l.mode = .quotedValue quote)
    (h : l.HasRead read) (ok : (l.stepQuotedValue quote c).fault = none) :
    (l.stepQuotedValue quote c).lexer.HasRead (read ++ [.char c]) := by
  have kept := h
  simp only [HasRead, mode] at h
  obtain ⟨isQuote, h⟩ := h
  unfold stepQuotedValue at ok ⊢
  split
  · rename_i same
    subst same
    have ended := endsNames_char read (endsName_of_isQuote isQuote)
    split <;> exact ended
  · rename_i other
    rw [if_neg other] at ok
    split
    · rename_i bound
      rw [if_pos bound] at ok
      cases ok
    · rename_i unbound
      rw [if_neg unbound] at h
      obtain ⟨before, asks, rfl⟩ := h
      simp only [HasRead, mode]
      refine ⟨isQuote, ?_⟩
      rw [if_neg unbound]
      exact ⟨before, asks, by simp⟩

/-- One more character. -/
lemma step_hasRead {c : Char} (sound : l.Sound) (h : l.HasRead read)
    (ok : (l.step c).fault = none) : (l.step c).lexer.HasRead (read ++ [.char c]) := by
  unfold step at ok ⊢
  cases mode : l.mode <;> simp only [mode] at ok ⊢ <;> simp only [HasRead, mode] at h
  case tagName =>
    unfold stepTagName at ok ⊢
    split
    · rename_i ends
      rw [if_pos ends] at ok
      exact stepBeforeAttribute_hasRead rfl (.inl ends) ok
    · simp only [HasRead, mode]
  case beforeAttribute => exact stepBeforeAttribute_hasRead mode (.inr h) ok
  case attributeName =>
    unfold stepAttributeName at ok ⊢
    split
    · rename_i ends
      rw [if_pos ends] at ok
      exact stepAfterAttribute_hasRead rfl (.inl ends) h.gaveName ok
    · rename_i other
      simp only [HasRead, mode]
      exact h.push (Bool.eq_false_iff.2 other)
  case afterAttribute => exact stepAfterAttribute_hasRead mode (.inr h.1) h.2 ok
  case beforeValue =>
    exact stepBeforeValue_hasRead (sound.unbound (by simp [mode])) mode h.1 h.2
  case quotedValue quote =>
    refine stepQuotedValue_hasRead mode ?_ ok
    simpa only [HasRead, mode] using h
  case unquotedValue =>
    unfold stepUnquotedValue
    split
    · rename_i ends
      have last : EndsNames (read ++ [.char c]) := by
        refine endsNames_char read ?_
        simp_all [endsName]
      dsimp only
      split
      · trivial
      · exact last
    · simp only [HasRead, mode]
  case selfClosing =>
    unfold stepSelfClosing at ok ⊢
    split
    · trivial
    · rename_i noEnd
      rw [if_neg noEnd] at ok
      exact stepBeforeAttribute_hasRead rfl (.inr h) ok
  -- The other states tell nothing, and lead to none that does.
  case text =>
    unfold stepText
    split <;> simp [HasRead, mode]
  case tagOpening =>
    unfold stepTagOpening stepText
    split_ifs <;> trivial
  case closingName =>
    unfold stepClosingName
    split_ifs <;> simp [HasRead, mode, endCloseTag]
  case afterClosingName =>
    unfold stepAfterClosingName
    split_ifs <;> simp [HasRead, mode, endCloseTag]
  case declaration =>
    unfold stepDeclaration stepBogusComment
    split_ifs <;> trivial
  case commentDash =>
    unfold stepCommentDash stepBogusComment
    split_ifs <;> trivial
  case comment =>
    unfold stepComment
    split_ifs <;> simp [HasRead, mode]
  case commentEndDash =>
    unfold stepCommentEndDash
    split_ifs <;> trivial
  case commentEnd =>
    unfold stepCommentEnd
    split_ifs <;> simp [HasRead, mode, endComment]
  case bogusComment =>
    unfold stepBogusComment
    split_ifs <;> simp [HasRead, mode, endComment]

/-- A hole ends what was to be read in front of it. -/
lemma passHole_hasRead (h : l.HasRead read) (hole : Hole)
    (place : l.place = .text ∨ (∃ name, l.place = .attributeValue name) ∨
      ∃ name, l.place = .tagName name) :
    l.passHole.lexer.HasRead (read ++ [.hole hole]) := by
  obtain place | ⟨name, place⟩ | ⟨name, place⟩ := place
  · simp [passHole, place, flush, mode_of_place_text place, HasRead]
  · simp only [passHole, place]
    obtain ⟨-, mode | ⟨quote, mode, empty⟩⟩ := mode_of_place_attributeValue place
    · simp only [bindValue, mode]
      exact endsNames_hole read hole
    · simp only [HasRead, mode] at h
      obtain ⟨isQuote, h⟩ := h
      simp only [bindValue, mode, empty, if_true]
      refine ⟨isQuote, ?_⟩
      rw [if_pos rfl]
      split at h
      · obtain ⟨name, before, hs, -, asks, rfl⟩ := h
        exact ⟨name, before, hs ++ [hole], by simp, asks, by simp⟩
      · obtain ⟨before, asks, rfl⟩ := h
        exact ⟨l.name, before, [hole], by simp, asks, by simp [empty]⟩
  · simp [passHole, place, HasRead, (mode_of_place_tagName place).1]

/-! ## Runs over signals -/

/-- The state behind a signal, unless the lexer refuses it. -/
def pass? (l : Lexer) : Signal → Option Lexer
  | .char c =>
    match (l.step c).fault with
    | none => some (l.step c).lexer
    | some _ => none
  | .hole _ =>
    match l.place with
    | .text | .attributeValue _ | .tagName _ => some l.passHole.lexer
    | _ => none

/-- A character is passed if it has no fault. -/
lemma pass?_char {c : Char} :
    l.pass? (.char c) = some l' ↔ (l.step c).fault = none ∧ (l.step c).lexer = l' := by
  rw [pass?]
  split <;> simp_all

/-- A hole is passed in a text, in a value and in the name of a tag. -/
lemma pass?_hole {hole : Hole} :
    l.pass? (.hole hole) = some l' ↔
      (l.place = .text ∨ (∃ name, l.place = .attributeValue name) ∨
        ∃ name, l.place = .tagName name) ∧ l.passHole.lexer = l' := by
  rw [pass?]
  split <;> simp_all

/-- The state behind signals, unless the lexer refuses one. -/
def passAll? (l : Lexer) (signals : List Signal) : Option Lexer := signals.foldlM pass? l

/-- Signals are passed from the first one on. -/
lemma passAll?_cons {s : Signal} {signals : List Signal} :
    l.passAll? (s :: signals) = some l' ↔
      ∃ between, l.pass? s = some between ∧ between.passAll? signals = some l' := by
  rw [passAll?, List.foldlM_cons]
  exact Option.bind_eq_some_iff

/-- Signals are passed one part after the other. -/
lemma passAll?_append {front back : List Signal} :
    l.passAll? (front ++ back) = some l' ↔
      ∃ between, l.passAll? front = some between ∧ between.passAll? back = some l' := by
  rw [passAll?, List.foldlM_append]
  exact Option.bind_eq_some_iff

/-- After any run, the state tells what was read. -/
lemma passAll?_hasRead (sound : l.Sound) (h : l.HasRead read) {signals : List Signal}
    (ok : l.passAll? signals = some l') : l'.Sound ∧ l'.HasRead (read ++ signals) := by
  induction signals generalizing l read with
  | nil =>
    cases ok
    exact ⟨sound, by rwa [List.append_nil]⟩
  | cons s signals ih =>
    obtain ⟨between, passed, rest⟩ := passAll?_cons.1 ok
    rw [List.append_cons]
    cases s with
    | char c =>
      obtain ⟨fault, rfl⟩ := pass?_char.1 passed
      exact ih (step_sound sound c).lexer (step_hasRead sound h fault) rest
    | hole hole =>
      obtain ⟨place, rfl⟩ := pass?_hole.1 passed
      exact ih (passHole_sound sound).lexer (passHole_hasRead h hole place) rest

/-- Characters that are not refused are written. -/
lemma writeList_of_passAll? {cs : List Char} (ok : l.passAll? (cs.map .char) = some l') :
    (l.writeList cs).lexer = l' := by
  induction cs generalizing l with
  | nil =>
    cases ok
    rfl
  | cons c cs ih =>
    obtain ⟨between, passed, rest⟩ := passAll?_cons.1 ok
    obtain ⟨fault, rfl⟩ := pass?_char.1 passed
    rw [writeList, Outcome.andThen_of_none fault]
    exact ih rest

/-! ## What follows a hole -/

/-- A value without quotes ends with its hole. -/
lemma behind_bare (mode : l.mode = .beforeAttribute) {behind : List Signal}
    (ok : l.passAll? behind = some l') (ended : l'.finish.fault = none) :
    ∃ c rest, behind = .char c :: rest ∧
      (isBlank c = true ∨ c = '>' ∨ c = '/' ∨ endsName c = false) := by
  cases behind with
  | nil =>
    cases ok
    simp [finish, mode] at ended
  | cons s rest =>
    obtain ⟨between, passed, -⟩ := passAll?_cons.1 ok
    cases s with
    | hole hole =>
      obtain ⟨place, -⟩ := pass?_hole.1 passed
      simp [Lexer.place, mode] at place
    | char c =>
      obtain ⟨fault, -⟩ := pass?_char.1 passed
      refine ⟨c, rest, rfl, ?_⟩
      simp only [step, mode, stepBeforeAttribute] at fault
      split_ifs at fault <;> simp_all [endsName]

/-- Between quotes a hole changes nothing but the name. -/
lemma passHole_quoted {quote : Char} (mode : l.mode = .quotedValue quote) (empty : l.value = "") :
    l.passHole.lexer.mode = .quotedValue quote ∧ l.passHole.lexer.bound = true ∧
      l.passHole.lexer.value = "" := by
  simp [passHole, place, bindValue, mode, empty]

/-- Between quotes there are only holes behind a hole. -/
lemma behind_quoted {quote : Char} (mode : l.mode = .quotedValue quote) (bound : l.bound = true)
    (empty : l.value = "") {behind : List Signal} (ok : l.passAll? behind = some l')
    (ended : l'.finish.fault = none) :
    ∃ (hs : List Hole) (rest : List Signal), behind = hs.map .hole ++ .char quote :: rest := by
  induction behind generalizing l with
  | nil =>
    cases ok
    simp [finish, mode] at ended
  | cons s behind ih =>
    obtain ⟨between, passed, rest⟩ := passAll?_cons.1 ok
    cases s with
    | char c =>
      obtain ⟨fault, -⟩ := pass?_char.1 passed
      simp only [step, mode, stepQuotedValue, bound, if_true] at fault
      split at fault
      · rename_i same
        subst same
        exact ⟨[], behind, rfl⟩
      · cases fault
    | hole hole =>
      obtain ⟨-, rfl⟩ := pass?_hole.1 passed
      obtain ⟨mode, bound, empty⟩ := passHole_quoted mode empty
      obtain ⟨hs, behind', rfl⟩ := ih mode bound empty rest
      exact ⟨hole :: hs, behind', rfl⟩

end TaggedMarkup.Markup.Lexer

namespace TaggedMarkup.Template

open Markup (Lexer Place scanBlock scanSigil)

/-! ## The holes of a template -/

/-- A signal that the parser accepts is not refused by its lexer. -/
lemma Parser.pass?_of_accept {p q : Parser} {s : Signal} (ok : p.accept s = .ok q) :
    p.lexer.pass? s = some q.lexer := by
  cases s with
  | char c =>
    rw [accept] at ok
    cases taken : p.take (p.lexer.step c) with
    | error cause =>
      rw [taken] at ok
      cases ok
    | ok r =>
      rw [taken] at ok
      cases ok
      obtain ⟨-, fault, lexer⟩ := take_ok taken
      exact Lexer.pass?_char.2 ⟨fault, lexer.symm⟩
  | hole hole =>
    rw [accept] at ok
    cases bound : p.bind hole.slot hole.sigil hole.block hole.expression with
    | error cause =>
      rw [bound] at ok
      cases ok
    | ok r =>
      rw [bound] at ok
      cases ok
      obtain ⟨⟨s, -, taken⟩, lexer⟩ := bind_ok bound
      refine Lexer.pass?_hole.2 ⟨?_, lexer.symm⟩
      exact (Skeleton.takeHole_place taken).imp_right (Or.imp_right fun tag => ⟨_, tag⟩)

/-- The lexer passes all that the parser accepts. -/
lemma Parser.passAll?_of_accept {p q : Parser} {signals : List Signal}
    (ok : signals.foldlM accept p = .ok q) : p.lexer.passAll? signals = some q.lexer := by
  induction signals generalizing p with
  | nil =>
    cases ok
    rfl
  | cons s signals ih =>
    rw [List.foldlM_cons] at ok
    cases accepted : p.accept s with
    | error failure =>
      rw [accepted] at ok
      cases ok
    | ok r =>
      rw [accepted] at ok
      exact Lexer.passAll?_cons.2 ⟨r.lexer, pass?_of_accept accepted, ih ok⟩

/-- The lexer reads all signals of a template that can be read, and can end behind them. -/
lemma passAll?_of_parse {chunks : List String} {expressions : List Expression} {fragment : Fragment}
    (ok : parse chunks expressions = .ok fragment) :
    ∃ l, Lexer.passAll? {} (signals chunks expressions) = some l ∧ l.finish.fault = none := by
  unfold parse at ok
  split at ok
  · cases ok
  · rename_i first rest
    split at ok
    · split at ok
      · cases ok
      · rename_i p ran
        rw [Parser.run_eq_accept] at ran
        refine ⟨p.lexer, Parser.passAll?_of_accept ran, ?_⟩
        rw [Parser.finish] at ok
        split at ok
        · cases ok
        · rename_i q taken
          exact (Parser.take_ok taken).2.1
    · cases ok

/-- A hole among the items is a signal, in whose place the lexer stands behind the signals in front
of it. -/
lemma exists_signal_of_mem_itemsFrom {l l' : Lexer} {slot : Nat} {chunk : String}
    {rest : List (Expression × String)} {place : Place} {h : Hole}
    (ok : l.passAll? (signalsFrom slot chunk rest) = some l')
    (mem : .hole place h ∈ itemsFrom l slot chunk rest) :
    ∃ before behind between, signalsFrom slot chunk rest = before ++ .hole h :: behind ∧
      l.passAll? before = some between ∧ between.place = place := by
  induction rest generalizing l slot chunk with
  | nil =>
    obtain ⟨e, -, eq⟩ := List.mem_map.1 mem
    cases eq
  | cons pair rest ih =>
    obtain ⟨expression, next⟩ := pair
    rw [signalsFrom] at ok ⊢
    obtain ⟨reached, written, behind⟩ := Lexer.passAll?_append.1 ok
    obtain ⟨passed, here, behind⟩ := Lexer.passAll?_cons.1 behind
    have front : (l.write (scanSigil chunk).2).lexer = reached :=
      Lexer.writeList_of_passAll? written
    obtain ⟨-, rfl⟩ := Lexer.pass?_hole.1 here
    rw [itemsFrom, front] at mem
    rcases List.mem_append.1 mem with event | mem
    · obtain ⟨e, -, eq⟩ := List.mem_map.1 event
      cases eq
    · rcases List.mem_cons.1 mem with same | mem
      · cases same
        exact ⟨_, _, reached, rfl, written, rfl⟩
      · obtain ⟨before, after, between, split, run, place⟩ := ih behind mem
        refine ⟨(scanSigil chunk).2.toList.map .char ++
          .hole ⟨slot, (scanSigil chunk).1, (scanBlock next).1, expression⟩ :: before,
          after, between, ?_, ?_, place⟩
        · rw [split, List.append_assoc, List.cons_append]
        · exact Lexer.passAll?_append.2 ⟨reached, written, Lexer.passAll?_cons.2 ⟨_, here, run⟩⟩

/-- A hole in the place of an attribute value is part of the value of a named attribute, and beside
it there are only holes. The first of them has the name. -/
lemma holeValue_of_mem_items {chunks : List String} {expressions : List Expression}
    {fragment : Fragment} (ok : parse chunks expressions = .ok fragment) {name : String} {h : Hole}
    (mem : .hole (.attributeValue name) h ∈ items chunks expressions) :
    ∃ written earlier later,
      HasHoleValue (signals chunks expressions) written (earlier ++ h :: later) ∧
        name = if earlier = [] then written else "" := by
  obtain ⟨last, run, ended⟩ := passAll?_of_parse ok
  cases chunks with
  | nil => cases mem
  | cons first rest =>
    rw [signals] at run ⊢
    rw [items] at mem
    obtain ⟨before, behind, l, split, reached, place⟩ := exists_signal_of_mem_itemsFrom run mem
    have start : ({} : Lexer).HasRead [] := trivial
    obtain ⟨sound, read⟩ := Lexer.passAll?_hasRead Lexer.sound_empty start reached
    rw [split] at run ⊢
    obtain ⟨_, same, run⟩ := Lexer.passAll?_append.1 run
    cases reached.symm.trans same
    obtain ⟨passed, here, run⟩ := Lexer.passAll?_cons.1 run
    obtain ⟨-, rfl⟩ := Lexer.pass?_hole.1 here
    obtain ⟨rfl, mode | ⟨quote, mode, empty⟩⟩ := Lexer.mode_of_place_attributeValue place
    · simp only [Lexer.HasRead, mode] at read
      have passes : l.passHole.lexer.mode = .beforeAttribute := by
        simp [Lexer.passHole, place, Lexer.bindValue, mode]
      obtain ⟨c, rest, rfl, next⟩ := Lexer.behind_bare passes run ended
      exact ⟨l.name, [], [],
        ⟨before, [.hole h], .char c :: rest, by simp, read.2, .bare next⟩, rfl⟩
    · obtain ⟨mode', bound', empty'⟩ := Lexer.passHole_quoted mode empty
      obtain ⟨later, rest, rfl⟩ := Lexer.behind_quoted mode' bound' empty' run ended
      simp only [Lexer.HasRead, mode] at read
      obtain ⟨isQuote, read⟩ := read
      split at read
      · rename_i bound
        have legible := sound.legible
        simp only [Lexer.LegibleSoFar, mode, bound, if_true] at legible
        obtain ⟨name, front, hs, some, asks, rfl⟩ := read
        refine ⟨name, hs, later, ⟨front, _, rest, ?_, asks, .quoted isQuote⟩, ?_⟩
        · simp
        · rw [if_neg some, legible.1]
      · obtain ⟨front, asks, rfl⟩ := read
        refine ⟨l.name, [], later, ⟨front, _, rest, ?_, asks, .quoted isQuote⟩, rfl⟩
        simp [empty]

end TaggedMarkup.Template

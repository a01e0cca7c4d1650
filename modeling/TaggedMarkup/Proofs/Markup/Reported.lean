import Mathlib
import TaggedMarkup.Proofs.Markup.Legible
import TaggedMarkup.Proofs.Template.Items

/-!
# What the lexer reports is legible

Whatever the lexer has read, its unfinished parts are starts of legible ones (`Lexer.Sound`). A step
keeps this, and so does a hole, so everything that is reported is legible
(`Template.legible_of_mem_items`). Only the name that a hole binds may be missing: between two
quotes a second hole finds it used up.
-/

namespace TaggedMarkup.Markup

/-! ## One more character -/

/-- What holds of a text and of a character holds of the text with the character. -/
lemma forall_mem_push {P : Char → Prop} {s : String} {c : Char} (all : ∀ d ∈ s.toList, P d)
    (here : P c) : ∀ d ∈ (s.push c).toList, P d := by
  intro d mem
  rw [String.toList_push, List.mem_append] at mem
  obtain old | new := mem
  · exact all d old
  · cases List.mem_singleton.1 new
    exact here

/-- The last character of a text. -/
lemma getLast?_push (s : String) (c : Char) : (s.push c).toList.getLast? = some c := by
  rw [String.toList_push, List.getLast?_concat]

/-- A plain text stays plain with a character that opens no tag. -/
lemma IsPlain.push {text : String} {c : Char} (h : IsPlain text)
    (last : text.toList.getLast? = some '<' → opensTag c = false) : IsPlain (text.push c) := by
  rw [IsPlain, String.toList_push, List.isChain_append]
  refine ⟨h, .singleton c, ?_⟩
  rintro a ha b hb rfl
  cases hb
  exact last ha

/-- The name of a tag goes on up to a character that ends it. -/
lemma IsTagName.push {name : String} {c : Char} (h : IsTagName name) (other : endsName c = false) :
    IsTagName (name.push c) := by
  obtain ⟨⟨d, head, start⟩, all⟩ := h
  refine ⟨⟨d, ?_, start⟩, forall_mem_push all other⟩
  rw [String.toList_push, List.head?_append, head]
  rfl

/-- The name of a tag starts with a letter or a number sign. -/
lemma isTagName_singleton {c : Char} (start : isLetter c = true ∨ c = '#') :
    IsTagName (String.singleton c) := by
  have other : endsName c = false := by
    rw [Bool.eq_false_iff]
    intro ends
    simp only [endsName, isBlank, isQuote, Bool.or_eq_true, beq_iff_eq] at ends
    rcases ends with
      (((((((((rfl | rfl) | rfl) | rfl) | rfl) | rfl) | rfl) | rfl) | rfl) | rfl | rfl) <;>
      revert start <;> decide
  simpa [IsTagName, other] using start

/-- The name of an attribute starts with any character that does not end it. -/
lemma isName_singleton {c : Char} (other : endsName c = false) : IsName (String.singleton c) := by
  simp [IsName, other]

/-- The name of an attribute goes on up to a character that ends it. -/
lemma IsName.push {name : String} {c : Char} (h : IsName name) (other : endsName c = false) :
    IsName (name.push c) :=
  ⟨by simp, forall_mem_push h.2 other⟩

/-- The text of a comment goes on up to its end. -/
lemma IsCommentText.push {text : String} {c : Char} (h : IsCommentText text)
    (last : c = '>' → ¬['-', '-'] <:+ text.toList) : IsCommentText (text.push c) := by
  rw [IsCommentText, String.toList_push, List.infix_concat_iff]
  rintro (atEnd | inside)
  · rw [List.suffix_concat_iff] at atEnd
    obtain empty | ⟨dashes, split, suffix⟩ := atEnd
    · cases empty
    · have parts : dashes ++ [c] = ['-', '-'] ++ ['>'] := split.symm
      obtain ⟨rfl, same⟩ := List.append_inj' parts rfl
      exact last (List.singleton_inj.1 same) suffix
  · exact h inside

/-- A text without the sign that ends a comment can be that of a comment. -/
lemma isCommentText_of_notMem {text : String} (h : '>' ∉ text.toList) : IsCommentText text := by
  intro inside
  exact h (inside.subset (by simp))

/-! ## States and events -/

/-- Whether the parts of an event are legible. -/
def Event.Legible : Event → Prop
  | .text s => s ≠ "" ∧ IsPlain s
  | .comment s => IsCommentText s
  | .openTag name => IsTagName name
  | .attribute name _ => IsName name
  | .closeTag name => IsEndName name
  | .openTagEnd _ | .finish => True

namespace Lexer

/-- The text that is still to be reported is plain. A `<` at its end is kept back. -/
def PlainSoFar (l : Lexer) : Prop :=
  match l.mode with
  | .text => IsPlain l.text ∧ l.text.toList.getLast? ≠ some '<'
  | .tagOpening => IsPlain l.text
  | _ => l.text = ""

/-- The part that is being read is legible so far. Dashes at the end of a comment are kept back. -/
def LegibleSoFar (l : Lexer) : Prop :=
  match l.mode with
  | .tagName => IsTagName l.tag
  | .attributeName | .afterAttribute | .beforeValue | .unquotedValue => IsName l.name
  | .quotedValue _ => if l.bound then l.name = "" ∧ l.value = "" else IsName l.name
  | .closingName | .afterClosingName => IsEndName l.tag
  | .declaration | .commentDash => l.comment = ""
  | .comment | .commentEndDash => IsCommentText l.comment ∧ l.comment.toList.getLast? ≠ some '-'
  | .commentEnd => IsCommentText l.comment
  | .bogusComment => '>' ∉ l.comment.toList
  | .text | .tagOpening | .beforeAttribute | .selfClosing => True

/-- A state between two characters. A value is bound only between quotes. -/
structure Sound (l : Lexer) : Prop where
  plain : l.PlainSoFar
  legible : l.LegibleSoFar
  bound : l.bound = false ∨ ∃ quote, l.mode = .quotedValue quote

/-- Only a quoted value can be bound. -/
lemma Sound.unbound {l : Lexer} (h : l.Sound) (other : ∀ quote, l.mode ≠ .quotedValue quote) :
    l.bound = false :=
  h.bound.resolve_right fun ⟨quote, mode⟩ => other quote mode

end Lexer

/-- What was reported is legible, and the lexer can go on. -/
structure Outcome.Sound (o : Outcome) : Prop where
  events : ∀ e ∈ o.events, e.Legible
  lexer : o.lexer.Sound

namespace Outcome.Sound

variable {o : Outcome}

/-- An outcome without events is sound if its lexer is. -/
lemma silent {l : Lexer} (h : l.Sound) {fault : Option Cause} :
    Sound { lexer := l, fault := fault } :=
  ⟨fun _ mem => absurd mem List.not_mem_nil, h⟩

/-- An outcome with one legible event. -/
lemma single {l : Lexer} (h : l.Sound) {e : Event} (legible : e.Legible) :
    Sound { lexer := l, events := [e] } :=
  ⟨fun _ mem => List.mem_singleton.1 mem ▸ legible, h⟩

/-- Legible events in front of a sound outcome. -/
lemma after (h : o.Sound) {es : List Event} (legible : ∀ e ∈ es, e.Legible) : (o.after es).Sound :=
  ⟨fun e mem => (List.mem_append.1 mem).elim (legible e) (h.events e), h.lexer⟩

/-- Two sound steps one after the other. -/
lemma andThen (h : o.Sound) {next : Lexer → Outcome} (h' : (next o.lexer).Sound) :
    (o.andThen next).Sound := by
  unfold Outcome.andThen
  split
  · exact h'.after h.events
  · exact h

end Outcome.Sound

namespace Lexer

variable {l : Lexer}

/-- A pending text that is plain can be reported. -/
lemma legible_pendingText (plain : IsPlain l.text) : ∀ e ∈ l.pendingText, e.Legible := by
  intro e mem
  unfold pendingText at mem
  split at mem
  · cases mem
  · rename_i some
    cases List.mem_singleton.1 mem
    exact ⟨some, plain⟩

/-! ## Steps -/

/-- A character of text, unless it makes a tag of a `<` in front of it. -/
lemma stepText_sound {c : Char} (mode : l.mode = .text) (unbound : l.bound = false)
    (plain : IsPlain l.text) (last : l.text.toList.getLast? = some '<' → opensTag c = false) :
    (l.stepText c).Sound := by
  unfold stepText
  split
  · apply Outcome.Sound.silent
    exact ⟨plain, trivial, .inl unbound⟩
  · rename_i other
    apply Outcome.Sound.silent
    refine ⟨?_, ?_, .inl unbound⟩
    · simp only [PlainSoFar, mode]
      refine ⟨plain.push last, ?_⟩
      rw [getLast?_push]
      simpa using other
    · simp only [LegibleSoFar, mode]

/-- A step behind an angle bracket is sound. -/
lemma stepTagOpening_sound (c : Char) (h : l.Sound) (mode : l.mode = .tagOpening) :
    (l.stepTagOpening c).Sound := by
  have unbound := h.unbound (by simp [mode])
  have plain : IsPlain l.text := by simpa only [PlainSoFar, mode] using h.plain
  have pending := legible_pendingText plain
  unfold stepTagOpening
  split
  · rename_i start
    refine ⟨pending, rfl, ?_, .inl unbound⟩
    exact isTagName_singleton (by simpa using start)
  · rename_i noName
    split
    · exact ⟨pending, rfl, by simp [LegibleSoFar, IsEndName], .inl unbound⟩
    · rename_i noSlash
      split
      · exact ⟨pending, rfl, rfl, .inl unbound⟩
      · rename_i noBang
        -- The `<` was text, and so is what follows it.
        apply stepText_sound
        · rfl
        · exact unbound
        · exact plain.push fun _ => by decide
        · intro _
          simp_all [opensTag]

/-- The end of a start tag is sound. -/
lemma endOpenTag_sound (selfClosing : Bool) (empty : l.text = "") (unbound : l.bound = false) :
    (l.endOpenTag selfClosing).Sound := by
  have sound : Sound { l with mode := .text } :=
    ⟨by simp [PlainSoFar, empty, IsPlain], trivial, .inl unbound⟩
  exact .single sound trivial

/-- In front of an attribute nothing is pending. -/
lemma stepBeforeAttribute_sound (c : Char) (empty : l.text = "") (unbound : l.bound = false)
    (mode : l.mode = .beforeAttribute) : (l.stepBeforeAttribute c).Sound := by
  have sound : l.Sound := by
    refine ⟨?_, ?_, .inl unbound⟩
    · simpa only [PlainSoFar, mode] using empty
    · simp only [LegibleSoFar, mode]
  unfold stepBeforeAttribute
  split
  · exact .silent sound
  · rename_i noBlank
    split
    · exact endOpenTag_sound false empty unbound
    · rename_i noEnd
      split
      · apply Outcome.Sound.silent
        exact ⟨empty, trivial, .inl unbound⟩
      · rename_i noSlash
        split
        · exact .silent sound
        · rename_i noSign
          apply Outcome.Sound.silent
          refine ⟨empty, isName_singleton ?_, .inl unbound⟩
          simp_all [endsName]

/-- A step in the name of a tag is sound. -/
lemma stepTagName_sound (c : Char) (h : l.Sound) (mode : l.mode = .tagName) :
    (l.stepTagName c).Sound := by
  have unbound := h.unbound (by simp [mode])
  have empty : l.text = "" := by simpa only [PlainSoFar, mode] using h.plain
  have legible : IsTagName l.tag := by simpa only [LegibleSoFar, mode] using h.legible
  unfold stepTagName
  split
  · apply Outcome.Sound.after
    · exact stepBeforeAttribute_sound c empty unbound rfl
    · simpa [Event.Legible] using legible
  · rename_i other
    apply Outcome.Sound.silent
    refine ⟨?_, ?_, .inl unbound⟩
    · simpa only [PlainSoFar, mode] using empty
    · simp only [LegibleSoFar, mode]
      exact legible.push (Bool.eq_false_iff.2 other)

/-- Behind the name of an attribute. -/
lemma stepAfterAttribute_sound (c : Char) (empty : l.text = "") (unbound : l.bound = false)
    (legible : IsName l.name) (mode : l.mode = .afterAttribute) :
    (l.stepAfterAttribute c).Sound := by
  unfold stepAfterAttribute
  split
  · apply Outcome.Sound.silent
    refine ⟨?_, ?_, .inl unbound⟩
    · simpa only [PlainSoFar, mode] using empty
    · simpa only [LegibleSoFar, mode] using legible
  · split
    · apply Outcome.Sound.silent
      exact ⟨empty, legible, .inl unbound⟩
    · apply Outcome.Sound.after
      · exact stepBeforeAttribute_sound c empty unbound rfl
      · simpa [Event.Legible] using legible

/-- A step in the name of an attribute is sound. -/
lemma stepAttributeName_sound (c : Char) (h : l.Sound) (mode : l.mode = .attributeName) :
    (l.stepAttributeName c).Sound := by
  have unbound := h.unbound (by simp [mode])
  have empty : l.text = "" := by simpa only [PlainSoFar, mode] using h.plain
  have legible : IsName l.name := by simpa only [LegibleSoFar, mode] using h.legible
  unfold stepAttributeName
  split
  · exact stepAfterAttribute_sound c empty unbound legible rfl
  · rename_i other
    apply Outcome.Sound.silent
    refine ⟨?_, ?_, .inl unbound⟩
    · simpa only [PlainSoFar, mode] using empty
    · simp only [LegibleSoFar, mode]
      exact legible.push (Bool.eq_false_iff.2 other)

/-- A step in front of a value is sound. -/
lemma stepBeforeValue_sound (c : Char) (h : l.Sound) (mode : l.mode = .beforeValue) :
    (l.stepBeforeValue c).Sound := by
  have unbound := h.unbound (by simp [mode])
  have empty : l.text = "" := by simpa only [PlainSoFar, mode] using h.plain
  have legible : IsName l.name := by simpa only [LegibleSoFar, mode] using h.legible
  unfold stepBeforeValue
  split
  · exact .silent h
  · split
    · apply Outcome.Sound.silent
      exact ⟨empty, by simpa [LegibleSoFar, unbound] using legible, .inl unbound⟩
    · split
      · apply Outcome.Sound.after
        · exact endOpenTag_sound false empty unbound
        · simpa [Event.Legible] using legible
      · apply Outcome.Sound.silent
        exact ⟨empty, legible, .inl unbound⟩

/-- A step in a quoted value is sound. -/
lemma stepQuotedValue_sound {quote : Char} (c : Char) (h : l.Sound)
    (mode : l.mode = .quotedValue quote) : (l.stepQuotedValue quote c).Sound := by
  have empty : l.text = "" := by simpa only [PlainSoFar, mode] using h.plain
  have legible : if l.bound then l.name = "" ∧ l.value = "" else IsName l.name := by
    simpa only [LegibleSoFar, mode] using h.legible
  unfold stepQuotedValue
  split
  · split
    · apply Outcome.Sound.silent
      exact ⟨empty, trivial, .inl rfl⟩
    · rename_i unbound
      rw [if_neg unbound] at legible
      have sound : Sound { l with mode := .beforeAttribute, name := "", value := "" } :=
        ⟨empty, trivial, .inl (Bool.eq_false_iff.2 unbound)⟩
      exact .single sound legible
  · split
    · exact .silent h
    · rename_i unbound
      rw [if_neg unbound] at legible
      apply Outcome.Sound.silent
      refine ⟨?_, ?_, .inr ⟨quote, mode⟩⟩
      · simpa only [PlainSoFar, mode] using empty
      · simpa only [LegibleSoFar, mode, if_neg unbound] using legible

/-- A step in an unquoted value is sound. -/
lemma stepUnquotedValue_sound (c : Char) (h : l.Sound) (mode : l.mode = .unquotedValue) :
    (l.stepUnquotedValue c).Sound := by
  have unbound := h.unbound (by simp [mode])
  have empty : l.text = "" := by simpa only [PlainSoFar, mode] using h.plain
  have legible : IsName l.name := by simpa only [LegibleSoFar, mode] using h.legible
  unfold stepUnquotedValue
  split
  · apply Outcome.Sound.after
    · split
      · exact endOpenTag_sound false empty unbound
      · apply Outcome.Sound.silent
        exact ⟨empty, trivial, .inl unbound⟩
    · simpa [Event.Legible] using legible
  · apply Outcome.Sound.silent
    refine ⟨?_, ?_, .inl unbound⟩
    · simpa only [PlainSoFar, mode] using empty
    · simpa only [LegibleSoFar, mode] using legible

/-- A step behind the slash of a start tag is sound. -/
lemma stepSelfClosing_sound (c : Char) (h : l.Sound) (mode : l.mode = .selfClosing) :
    (l.stepSelfClosing c).Sound := by
  have unbound := h.unbound (by simp [mode])
  have empty : l.text = "" := by simpa only [PlainSoFar, mode] using h.plain
  unfold stepSelfClosing
  split
  · exact endOpenTag_sound true empty unbound
  · exact stepBeforeAttribute_sound c empty unbound rfl

/-- The end of an end tag is sound. -/
lemma endCloseTag_sound (empty : l.text = "") (unbound : l.bound = false)
    (legible : IsEndName l.tag) : l.endCloseTag.Sound := by
  have sound : Sound { l with mode := .text, tag := "" } :=
    ⟨by simp [PlainSoFar, empty, IsPlain], trivial, .inl unbound⟩
  exact .single sound legible

/-- A step in the name of an end tag is sound. -/
lemma stepClosingName_sound (c : Char) (h : l.Sound) (mode : l.mode = .closingName) :
    (l.stepClosingName c).Sound := by
  have unbound := h.unbound (by simp [mode])
  have empty : l.text = "" := by simpa only [PlainSoFar, mode] using h.plain
  have legible : IsEndName l.tag := by simpa only [LegibleSoFar, mode] using h.legible
  unfold stepClosingName
  split
  · exact endCloseTag_sound empty unbound legible
  · rename_i noEnd
    split
    · apply Outcome.Sound.silent
      exact ⟨empty, legible, .inl unbound⟩
    · rename_i noBlank
      apply Outcome.Sound.silent
      refine ⟨?_, ?_, .inl unbound⟩
      · simpa only [PlainSoFar, mode] using empty
      · simp only [LegibleSoFar, mode]
        exact forall_mem_push legible ⟨noEnd, Bool.eq_false_iff.2 noBlank⟩

/-- A step behind the name of an end tag is sound. -/
lemma stepAfterClosingName_sound (c : Char) (h : l.Sound) (mode : l.mode = .afterClosingName) :
    (l.stepAfterClosingName c).Sound := by
  have unbound := h.unbound (by simp [mode])
  have empty : l.text = "" := by simpa only [PlainSoFar, mode] using h.plain
  have legible : IsEndName l.tag := by simpa only [LegibleSoFar, mode] using h.legible
  unfold stepAfterClosingName
  split
  · exact endCloseTag_sound empty unbound legible
  · split
    · exact .silent h
    · exact .silent h

/-- The end of a comment is sound. -/
lemma endComment_sound (empty : l.text = "") (unbound : l.bound = false)
    (legible : IsCommentText l.comment) : l.endComment.Sound := by
  have sound : Sound { l with mode := .text, comment := "" } :=
    ⟨by simp [PlainSoFar, empty, IsPlain], trivial, .inl unbound⟩
  exact .single sound legible

/-- A character of a comment without dashes, which cannot hold the sign that ends it. -/
lemma stepBogusComment_sound (c : Char) (empty : l.text = "") (unbound : l.bound = false)
    (noEnd : '>' ∉ l.comment.toList) (mode : l.mode = .bogusComment) :
    (l.stepBogusComment c).Sound := by
  unfold stepBogusComment
  split
  · exact endComment_sound empty unbound (isCommentText_of_notMem noEnd)
  · rename_i other
    apply Outcome.Sound.silent
    refine ⟨?_, ?_, .inl unbound⟩
    · simpa only [PlainSoFar, mode] using empty
    · simp only [LegibleSoFar, mode, String.toList_push, List.mem_append, List.mem_singleton]
      exact fun mem => mem.elim noEnd (Ne.symm other)

/-- A step in a declaration is sound. -/
lemma stepDeclaration_sound (c : Char) (h : l.Sound) (mode : l.mode = .declaration) :
    (l.stepDeclaration c).Sound := by
  have unbound := h.unbound (by simp [mode])
  have empty : l.text = "" := by simpa only [PlainSoFar, mode] using h.plain
  have start : l.comment = "" := by simpa only [LegibleSoFar, mode] using h.legible
  unfold stepDeclaration
  split
  · apply Outcome.Sound.silent
    exact ⟨empty, start, .inl unbound⟩
  · exact stepBogusComment_sound c empty unbound (by simp [start]) rfl

/-- A step at the start of a comment is sound. -/
lemma stepCommentDash_sound (c : Char) (h : l.Sound) (mode : l.mode = .commentDash) :
    (l.stepCommentDash c).Sound := by
  have unbound := h.unbound (by simp [mode])
  have empty : l.text = "" := by simpa only [PlainSoFar, mode] using h.plain
  have start : l.comment = "" := by simpa only [LegibleSoFar, mode] using h.legible
  unfold stepCommentDash
  split
  · apply Outcome.Sound.silent
    exact ⟨empty, by simp [LegibleSoFar, start, IsCommentText], .inl unbound⟩
  · exact stepBogusComment_sound c empty unbound (by simp [start]) rfl

/-- A step in a comment is sound. -/
lemma stepComment_sound (c : Char) (h : l.Sound) (mode : l.mode = .comment) :
    (l.stepComment c).Sound := by
  have unbound := h.unbound (by simp [mode])
  have empty : l.text = "" := by simpa only [PlainSoFar, mode] using h.plain
  have ⟨legible, last⟩ : IsCommentText l.comment ∧ l.comment.toList.getLast? ≠ some '-' := by
    simpa only [LegibleSoFar, mode] using h.legible
  unfold stepComment
  split
  · apply Outcome.Sound.silent
    exact ⟨empty, ⟨legible, last⟩, .inl unbound⟩
  · rename_i noDash
    apply Outcome.Sound.silent
    refine ⟨?_, ?_, .inl unbound⟩
    · simpa only [PlainSoFar, mode] using empty
    · simp only [LegibleSoFar, mode]
      refine ⟨legible.push fun _ dashes => last ?_, ?_⟩
      · obtain ⟨before, whole⟩ := dashes
        simp [← whole]
      · rw [getLast?_push]
        simpa using noDash

/-- A step behind a dash in a comment is sound. -/
lemma stepCommentEndDash_sound (c : Char) (h : l.Sound) (mode : l.mode = .commentEndDash) :
    (l.stepCommentEndDash c).Sound := by
  have unbound := h.unbound (by simp [mode])
  have empty : l.text = "" := by simpa only [PlainSoFar, mode] using h.plain
  have ⟨legible, last⟩ : IsCommentText l.comment ∧ l.comment.toList.getLast? ≠ some '-' := by
    simpa only [LegibleSoFar, mode] using h.legible
  unfold stepCommentEndDash
  split
  · apply Outcome.Sound.silent
    exact ⟨empty, legible, .inl unbound⟩
  · rename_i noDash
    apply Outcome.Sound.silent
    refine ⟨empty, ⟨?_, ?_⟩, .inl unbound⟩
    · refine (legible.push fun dash => absurd dash (by decide)).push fun _ dashes => last ?_
      obtain ⟨before, whole⟩ := dashes
      have front : (before ++ ['-']) ++ ['-'] = l.comment.toList ++ ['-'] := by
        simpa [String.toList_push] using whole
      rw [← List.append_cancel_right front, List.getLast?_concat]
    · rw [getLast?_push]
      simpa using noDash

/-- A step behind two dashes in a comment is sound. -/
lemma stepCommentEnd_sound (c : Char) (h : l.Sound) (mode : l.mode = .commentEnd) :
    (l.stepCommentEnd c).Sound := by
  have unbound := h.unbound (by simp [mode])
  have empty : l.text = "" := by simpa only [PlainSoFar, mode] using h.plain
  have legible : IsCommentText l.comment := by simpa only [LegibleSoFar, mode] using h.legible
  have dashed : IsCommentText (l.comment.push '-') :=
    legible.push fun dash => absurd dash (by decide)
  unfold stepCommentEnd
  split
  · exact endComment_sound empty unbound legible
  · rename_i noEnd
    split
    · apply Outcome.Sound.silent
      refine ⟨?_, ?_, .inl unbound⟩
      · simpa only [PlainSoFar, mode] using empty
      · simpa only [LegibleSoFar, mode] using dashed
    · rename_i noDash
      apply Outcome.Sound.silent
      refine ⟨empty, ⟨?_, ?_⟩, .inl unbound⟩
      · exact (dashed.push fun dash => absurd dash (by decide)).push fun ends => absurd ends noEnd
      · rw [getLast?_push]
        simpa using noDash

/-! ## Runs -/

/-- A character. -/
lemma step_sound (h : l.Sound) (c : Char) : (l.step c).Sound := by
  unfold step
  split
  case h_1 mode =>
    have ⟨plain, last⟩ : IsPlain l.text ∧ l.text.toList.getLast? ≠ some '<' := by
      simpa only [PlainSoFar, mode] using h.plain
    exact stepText_sound mode (h.unbound (by simp [mode])) plain fun less => absurd less last
  case h_2 mode => exact stepTagOpening_sound c h mode
  case h_3 mode => exact stepTagName_sound c h mode
  case h_4 mode =>
    have empty : l.text = "" := by simpa only [PlainSoFar, mode] using h.plain
    exact stepBeforeAttribute_sound c empty (h.unbound (by simp [mode])) mode
  case h_5 mode => exact stepAttributeName_sound c h mode
  case h_6 mode =>
    have empty : l.text = "" := by simpa only [PlainSoFar, mode] using h.plain
    have legible : IsName l.name := by simpa only [LegibleSoFar, mode] using h.legible
    exact stepAfterAttribute_sound c empty (h.unbound (by simp [mode])) legible mode
  case h_7 mode => exact stepBeforeValue_sound c h mode
  case h_8 mode => exact stepQuotedValue_sound c h mode
  case h_9 mode => exact stepUnquotedValue_sound c h mode
  case h_10 mode => exact stepSelfClosing_sound c h mode
  case h_11 mode => exact stepClosingName_sound c h mode
  case h_12 mode => exact stepAfterClosingName_sound c h mode
  case h_13 mode => exact stepDeclaration_sound c h mode
  case h_14 mode => exact stepCommentDash_sound c h mode
  case h_15 mode => exact stepComment_sound c h mode
  case h_16 mode => exact stepCommentEndDash_sound c h mode
  case h_17 mode => exact stepCommentEnd_sound c h mode
  case h_18 mode =>
    have empty : l.text = "" := by simpa only [PlainSoFar, mode] using h.plain
    have noEnd : '>' ∉ l.comment.toList := by simpa only [LegibleSoFar, mode] using h.legible
    exact stepBogusComment_sound c empty (h.unbound (by simp [mode])) noEnd mode

/-- A chunk. -/
lemma write_sound (h : l.Sound) (chunk : String) : (l.write chunk).Sound := by
  unfold write
  generalize chunk.toList = cs
  induction cs generalizing l with
  | nil => exact .silent h
  | cons c cs ih => exact (step_sound h c).andThen (ih (step_sound h c).lexer)

/-- The text in front of a hole. -/
lemma flush_sound (h : l.Sound) : l.flush.Sound := by
  unfold flush
  split
  · rename_i mode
    have ⟨plain, _⟩ : IsPlain l.text ∧ l.text.toList.getLast? ≠ some '<' := by
      simpa only [PlainSoFar, mode] using h.plain
    refine ⟨legible_pendingText plain, ?_, ?_, .inl (h.unbound (by simp [mode]))⟩
    · simp [PlainSoFar, mode, IsPlain]
    · simp [LegibleSoFar, mode]
  · exact .silent h

/-- A hole. -/
lemma passHole_sound (h : l.Sound) : l.passHole.Sound := by
  unfold passHole
  split
  · exact flush_sound h
  · rename_i name place
    apply Outcome.Sound.silent
    obtain ⟨-, mode | ⟨quote, mode, value⟩⟩ := mode_of_place_attributeValue place
    · have empty : l.text = "" := by simpa only [PlainSoFar, mode] using h.plain
      simp only [bindValue, mode]
      exact ⟨empty, trivial, .inl (h.unbound (by simp [mode]))⟩
    · have empty : l.text = "" := by simpa only [PlainSoFar, mode] using h.plain
      simp only [bindValue, mode, value, if_true]
      exact ⟨empty, ⟨rfl, rfl⟩, .inr ⟨quote, rfl⟩⟩
  · exact .silent h

/-- The end of the input. -/
lemma finish_sound (h : l.Sound) : ∀ e ∈ l.finish.events, e.Legible := by
  have ended {l : Lexer} (mode : l.mode = .text) (plain : IsPlain l.text) :
      ∀ e ∈ (l.flush.andThen fun l' => { lexer := l', events := [.finish] }).events,
        e.Legible := by
    simp only [flush, mode, Outcome.andThen, Outcome.after]
    intro e mem
    obtain text | last := List.mem_append.1 mem
    · exact legible_pendingText plain e text
    · cases List.mem_singleton.1 last
      trivial
  unfold finish
  split
  case h_1 mode =>
    have ⟨plain, _⟩ : IsPlain l.text ∧ l.text.toList.getLast? ≠ some '<' := by
      simpa only [PlainSoFar, mode] using h.plain
    exact ended mode plain
  case h_2 mode =>
    have plain : IsPlain l.text := by simpa only [PlainSoFar, mode] using h.plain
    exact ended rfl (plain.push fun _ => by decide)
  all_goals exact fun _ mem => absurd mem List.not_mem_nil

/-- The name that a hole binds is legible, unless it is used up. -/
lemma legible_of_place (h : l.Sound) {name : String} (place : l.place = .attributeValue name) :
    name = "" ∨ IsName name := by
  obtain ⟨rfl, mode | ⟨quote, mode, value⟩⟩ := mode_of_place_attributeValue place
  · right
    simpa only [LegibleSoFar, mode] using h.legible
  · have legible : if l.bound then l.name = "" ∧ l.value = "" else IsName l.name := by
      simpa only [LegibleSoFar, mode] using h.legible
    split at legible
    · exact .inl legible.1
    · exact .inr legible

end Lexer

end TaggedMarkup.Markup

namespace TaggedMarkup.Template

open Markup (IsName Lexer scanBlock scanSigil)

/-- Whether the parts of an item are legible. A hole may have no name to bind. -/
def Item.Legible : Item → Prop
  | .event e => e.Legible
  | .hole (.attributeValue name) _ => name = "" ∨ IsName name
  | .hole _ _ => True

/-- A hole at the place of a sound lexer is legible. -/
lemma legible_hole {l : Lexer} (h : l.Sound) (hole : Hole) : (Item.hole l.place hole).Legible := by
  cases place : l.place with
  | attributeValue name => exact Lexer.legible_of_place h place
  | _ => trivial

/-- All items of a template are legible. -/
lemma legible_of_mem_itemsFrom {l : Lexer} (h : l.Sound) (slot : Nat) (chunk : String)
    (rest : List (Expression × String)) :
    ∀ i ∈ itemsFrom l slot chunk rest, i.Legible := by
  have events {es : List Markup.Event} (legible : ∀ e ∈ es, e.Legible) :
      ∀ i ∈ es.map Item.event, i.Legible := by
    intro i mem
    obtain ⟨e, here, rfl⟩ := List.mem_map.1 mem
    exact legible e here
  induction rest generalizing l slot chunk with
  | nil =>
    apply events
    have written := Lexer.write_sound h chunk
    unfold Markup.Outcome.andThen
    split
    · intro e mem
      obtain front | last := List.mem_append.1 mem
      · exact written.events e front
      · exact Lexer.finish_sound written.lexer e last
    · exact written.events
  | cons pair rest ih =>
    obtain ⟨expression, next⟩ := pair
    have written := Lexer.write_sound h (scanSigil chunk).2
    rw [itemsFrom]
    generalize l.write (scanSigil chunk).2 = before at written ⊢
    have passed := Lexer.passHole_sound written.lexer
    intro i mem
    obtain front | behind := List.mem_append.1 mem
    · refine events (fun e mem => ?_) i front
      exact (List.mem_append.1 mem).elim (written.events e) (passed.events e)
    · obtain rfl | behind := List.mem_cons.1 behind
      · exact legible_hole written.lexer _
      · exact ih passed.lexer (slot + 1) (scanBlock next).2 i behind

/-- All items of a template are legible. -/
lemma legible_of_mem_items {chunks : List String} {expressions : List Expression} :
    ∀ i ∈ items chunks expressions, i.Legible := by
  cases chunks with
  | nil => exact fun _ mem => absurd mem List.not_mem_nil
  | cons first rest =>
    have start : ({} : Lexer).Sound := by
      refine ⟨?_, trivial, .inl rfl⟩
      simp [Lexer.PlainSoFar, Markup.IsPlain]
    exact legible_of_mem_itemsFrom start 0 first _

end TaggedMarkup.Template

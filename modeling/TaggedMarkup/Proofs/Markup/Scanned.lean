import Mathlib
import TaggedMarkup.Proofs.Markup.Chunks
import TaggedMarkup.Proofs.Markup.Raw
import TaggedMarkup.Proofs.Template.Items

/-!
# What the lexer reports is unbroken

The parts that the lexer reports start behind a delimiter of the markup, and delimiters are ordinary
characters of raw text. So while the lexer reads raw text, the part that is being read is scanned
just as the text is (`Lexer.Scans`), and all parts are scanned when they are reported.
-/

namespace TaggedMarkup.Markup

/-- Whether a part can be scanned on its own. -/
def IsScanned (returns : Bool) (part : String) : Prop :=
  ∃ σ, Scan.run returns .plain part.toList = some σ

/-- The empty part is scanned. -/
lemma isScanned_empty {returns : Bool} : IsScanned returns "" := ⟨.plain, rfl⟩

/-- Whether the parts of an event can be scanned. -/
def Event.IsScanned (returns : Bool) : Event → Prop
  | .text s | .comment s | .openTag s | .closeTag s => Markup.IsScanned returns s
  | .attribute name value =>
    Markup.IsScanned returns name ∧ Markup.IsScanned returns (value.getD "")
  | .openTagEnd _ | .finish => True

/-- A scanned text is reported as such. -/
lemma Event.isScanned_of_mem_textEvents {returns : Bool} {text : String} {e : Event}
    (scanned : Markup.IsScanned returns text) (mem : e ∈ textEvents text) :
    e.IsScanned returns := by
  unfold textEvents at mem
  split at mem
  · cases mem
  · cases List.mem_singleton.1 mem
    exact scanned

/-- A scanned part goes on with a character that may come next. -/
lemma Scan.run_push {returns : Bool} {σ τ : Scan} {part : String} {c : Char}
    (scanned : run returns .plain part.toList = some σ) (here : step returns σ c = some τ) :
    run returns .plain (part.push c).toList = some τ := by
  rw [String.toList_push, run_append, scanned]
  simpa using here

/-- A delimiter is read in the same way whatever came before it. -/
lemma Scan.step_of_delimiter {returns : Bool} {σ ρ τ : Scan} {c : Char}
    (delimits : isOrdinary c = true ∨ c = '\r') (scanned : step returns σ c = some τ) :
    step returns ρ c = some τ := by
  obtain ordinary | rfl := delimits
  · rw [← scanned, step_ordinary ordinary, step_ordinary ordinary]
  · simp only [step] at scanned ⊢
    grind

/-- A scanned part goes on plainly with an ordinary character. -/
lemma IsScanned.push {returns : Bool} {part : String} {c : Char} (h : IsScanned returns part)
    (ordinary : isOrdinary c = true) :
    Scan.run returns .plain (part.push c).toList = some .plain := by
  obtain ⟨σ, scanned⟩ := h
  exact Scan.run_push scanned (Scan.step_ordinary ordinary)

/-- Delimiters of the markup end what came before them in raw text. -/
lemma delimits_of_endsName {c : Char} (ends : endsName c = true) :
    isOrdinary c = true ∨ c = '\r' := by
  simp only [endsName, isBlank, isQuote, Bool.or_eq_true, beq_iff_eq] at ends
  rcases ends with
    (((((((((rfl | rfl) | rfl) | rfl) | rfl) | rfl) | rfl) | rfl) | rfl) | rfl | rfl) <;> decide

/-- A blank is an ordinary character or a return. -/
lemma delimits_of_isBlank {c : Char} (blank : isBlank c = true) :
    isOrdinary c = true ∨ c = '\r' :=
  delimits_of_endsName (by simp [endsName, blank])

namespace Lexer

/-- The part that is being read, if there is one. -/
def growing (l : Lexer) : String :=
  match l.mode with
  | .text => l.text
  | .tagName | .closingName => l.tag
  | .attributeName => l.name
  | .quotedValue _ | .unquotedValue => l.value
  | .comment | .bogusComment => l.comment
  | _ => ""

/-- All parts of a state can be scanned. -/
structure Parts (returns : Bool) (l : Lexer) : Prop where
  text : IsScanned returns l.text
  tag : IsScanned returns l.tag
  name : IsScanned returns l.name
  value : IsScanned returns l.value
  comment : IsScanned returns l.comment

/-- A state of the lexer in raw text, whose scan is in the state `σ`. Outside of text no text is
pending, and values and comments start as the markup tells. -/
structure Scans (returns : Bool) (l : Lexer) (σ : Scan) : Prop where
  parts : l.Parts returns
  outside : l.InText ∨ l.text = ""
  fresh : match l.mode with
    | .beforeValue => l.value = ""
    | .quotedValue quote => isQuote quote = true
    | .declaration | .commentDash => l.comment = ""
    | _ => True
  growing : Scan.run returns .plain l.growing.toList = some σ

end Lexer

/-- What was reported is scanned, and the lexer can go on. -/
structure Outcome.Scans (returns : Bool) (o : Outcome) (σ : Scan) : Prop where
  events : ∀ e ∈ o.events, e.IsScanned returns
  lexer : o.lexer.Scans returns σ

namespace Outcome.Scans

variable {returns : Bool} {o : Outcome} {σ : Scan}

/-- An outcome without events scans as its lexer does. -/
lemma silent {l : Lexer} (h : l.Scans returns σ) : Scans returns { lexer := l } σ :=
  ⟨fun _ mem => absurd mem List.not_mem_nil, h⟩

/-- An outcome with one scanned event. -/
lemma single {l : Lexer} (h : l.Scans returns σ) {e : Event} (scanned : e.IsScanned returns) :
    Scans returns { lexer := l, events := [e] } σ :=
  ⟨fun _ mem => List.mem_singleton.1 mem ▸ scanned, h⟩

/-- A scanned event in front of an outcome. -/
lemma after (h : o.Scans returns σ) {e : Event} (scanned : e.IsScanned returns) :
    (o.after [e]).Scans returns σ := by
  refine ⟨fun f mem => ?_, h.lexer⟩
  obtain first | later := List.mem_append.1 mem
  · exact List.mem_singleton.1 first ▸ scanned
  · exact h.events f later

end Outcome.Scans

namespace Lexer

variable {returns : Bool} {l : Lexer} {σ σ' : Scan} {c : Char}

/-- The pending text is scanned. -/
lemma Parts.pendingText (h : l.Parts returns) : ∀ e ∈ l.pendingText, e.IsScanned returns :=
  fun _ mem => Event.isScanned_of_mem_textEvents h.text mem

/-! ## Steps -/

/-- A character of text. -/
lemma stepText_scans (parts : l.Parts returns) (mode : l.mode = .text)
    (scanned : Scan.run returns .plain l.text.toList = some σ)
    (read : Scan.step returns σ c = some σ') : (l.stepText c).Scans returns σ' := by
  unfold stepText
  split
  · rename_i less
    cases Scan.step_delimiter (.inl (by rw [less]; rfl)) read
    apply Outcome.Scans.silent
    exact ⟨⟨parts.text, parts.tag, parts.name, parts.value, parts.comment⟩, .inl (.inr rfl),
      trivial, rfl⟩
  · have pushed := Scan.run_push scanned read
    apply Outcome.Scans.silent
    refine ⟨⟨⟨_, pushed⟩, parts.tag, parts.name, parts.value, parts.comment⟩, .inl (.inl mode),
      ?_, ?_⟩
    · simp only [mode]
    · simpa only [growing, mode] using pushed

/-- The character behind a `<`. -/
lemma stepTagOpening_scans (parts : l.Parts returns)
    (read : Scan.step returns .plain c = some σ') : (l.stepTagOpening c).Scans returns σ' := by
  have first : Scan.run returns .plain (String.singleton c).toList = some σ' := by simpa using read
  unfold stepTagOpening
  split
  · refine ⟨parts.pendingText, ⟨isScanned_empty, ⟨_, first⟩, ?_, ?_, ?_⟩, .inr rfl, trivial, first⟩
    · exact parts.name
    · exact parts.value
    · exact parts.comment
  · split
    · rename_i slash
      cases Scan.step_delimiter (.inl (by rw [slash]; rfl)) read
      exact ⟨parts.pendingText, ⟨isScanned_empty, isScanned_empty, parts.name, parts.value,
        parts.comment⟩, .inr rfl, trivial, rfl⟩
    · split
      · rename_i bang
        cases Scan.step_delimiter (.inl (by rw [bang]; rfl)) read
        exact ⟨parts.pendingText, ⟨isScanned_empty, parts.tag, parts.name, parts.value,
          isScanned_empty⟩, .inr rfl, rfl, rfl⟩
      · -- The `<` was text, and so is what follows it.
        have less := parts.text.push (c := '<') rfl
        exact stepText_scans ⟨⟨_, less⟩, parts.tag, parts.name, parts.value, parts.comment⟩ rfl less
          read

/-- The end of a start tag is reported between scanned parts. -/
lemma endOpenTag_scans (parts : l.Parts returns) (empty : l.text = "") (selfClosing : Bool) :
    (l.endOpenTag selfClosing).Scans returns .plain := by
  have scans : Scans returns { l with mode := .text } .plain :=
    ⟨⟨parts.text, parts.tag, parts.name, parts.value, parts.comment⟩, .inr empty, trivial, by
      simp [growing, empty]⟩
  exact .single scans trivial

/-- A character in front of an attribute. -/
lemma stepBeforeAttribute_scans (parts : l.Parts returns) (empty : l.text = "")
    (mode : l.mode = .beforeAttribute) (read : Scan.step returns .plain c = some σ')
    (ok : (l.stepBeforeAttribute c).fault = none) :
    (l.stepBeforeAttribute c).Scans returns σ' := by
  unfold stepBeforeAttribute at *
  split
  · rename_i blank
    cases Scan.step_delimiter (delimits_of_isBlank blank) read
    apply Outcome.Scans.silent
    exact ⟨parts, .inr empty, by simp only [mode], by simp [growing, mode]⟩
  · split
    · rename_i ends
      cases Scan.step_delimiter (.inl (by rw [ends]; rfl)) read
      exact endOpenTag_scans parts empty false
    · split
      · rename_i slash
        cases Scan.step_delimiter (.inl (by rw [slash]; rfl)) read
        apply Outcome.Scans.silent
        exact ⟨⟨parts.text, parts.tag, parts.name, parts.value, parts.comment⟩, .inr empty, trivial,
          rfl⟩
      · split
        · simp_all
        · have first : Scan.run returns .plain (String.singleton c).toList = some σ' := by
            simpa using read
          apply Outcome.Scans.silent
          exact ⟨⟨parts.text, parts.tag, ⟨_, first⟩, parts.value, parts.comment⟩, .inr empty,
            trivial, first⟩

/-- A character of a tag name. -/
lemma stepTagName_scans (parts : l.Parts returns) (empty : l.text = "") (mode : l.mode = .tagName)
    (scanned : Scan.run returns .plain l.tag.toList = some σ)
    (read : Scan.step returns σ c = some σ') (ok : (l.stepTagName c).fault = none) :
    (l.stepTagName c).Scans returns σ' := by
  unfold stepTagName at *
  split
  · rename_i ends
    have delimits := delimits_of_endsName ends
    cases Scan.step_delimiter delimits read
    rw [if_pos ends] at ok
    have rest : Parts returns { l with mode := .beforeAttribute } :=
      ⟨parts.text, parts.tag, parts.name, parts.value, parts.comment⟩
    have read' := Scan.step_of_delimiter (ρ := .plain) delimits read
    exact (stepBeforeAttribute_scans rest empty rfl read' ok).after parts.tag
  · have pushed := Scan.run_push scanned read
    apply Outcome.Scans.silent
    refine ⟨⟨parts.text, ⟨_, pushed⟩, parts.name, parts.value, parts.comment⟩, .inr empty, ?_, ?_⟩
    · simp only [mode]
    · simpa only [growing, mode] using pushed

/-- A character behind the name of an attribute. -/
lemma stepAfterAttribute_scans (parts : l.Parts returns) (empty : l.text = "")
    (mode : l.mode = .afterAttribute) (read : Scan.step returns .plain c = some σ')
    (ok : (l.stepAfterAttribute c).fault = none) : (l.stepAfterAttribute c).Scans returns σ' := by
  unfold stepAfterAttribute at *
  split
  · rename_i blank
    cases Scan.step_delimiter (delimits_of_isBlank blank) read
    apply Outcome.Scans.silent
    exact ⟨parts, .inr empty, by simp only [mode], by simp [growing, mode]⟩
  · rename_i noBlank
    rw [if_neg noBlank] at ok
    split
    · rename_i equals
      cases Scan.step_delimiter (.inl (by rw [equals]; rfl)) read
      apply Outcome.Scans.silent
      exact ⟨⟨parts.text, parts.tag, parts.name, isScanned_empty, parts.comment⟩, .inr empty, rfl,
        rfl⟩
    · rename_i noEquals
      rw [if_neg noEquals] at ok
      have rest : Parts returns { l with mode := .beforeAttribute, name := "" } :=
        ⟨parts.text, parts.tag, isScanned_empty, parts.value, parts.comment⟩
      exact (stepBeforeAttribute_scans rest empty rfl read ok).after ⟨parts.name, isScanned_empty⟩

/-- A character of the name of an attribute. -/
lemma stepAttributeName_scans (parts : l.Parts returns) (empty : l.text = "")
    (mode : l.mode = .attributeName) (scanned : Scan.run returns .plain l.name.toList = some σ)
    (read : Scan.step returns σ c = some σ') (ok : (l.stepAttributeName c).fault = none) :
    (l.stepAttributeName c).Scans returns σ' := by
  unfold stepAttributeName at *
  split
  · rename_i ends
    rw [if_pos ends] at ok
    exact stepAfterAttribute_scans ⟨parts.text, parts.tag, parts.name, parts.value, parts.comment⟩
      empty rfl (Scan.step_of_delimiter (delimits_of_endsName ends) read) ok
  · have pushed := Scan.run_push scanned read
    apply Outcome.Scans.silent
    refine ⟨⟨parts.text, parts.tag, ⟨_, pushed⟩, parts.value, parts.comment⟩, .inr empty, ?_, ?_⟩
    · simp only [mode]
    · simpa only [growing, mode] using pushed

/-- A character in front of a value. -/
lemma stepBeforeValue_scans (parts : l.Parts returns) (empty : l.text = "")
    (mode : l.mode = .beforeValue) (start : l.value = "")
    (read : Scan.step returns .plain c = some σ') : (l.stepBeforeValue c).Scans returns σ' := by
  unfold stepBeforeValue
  split
  · rename_i blank
    cases Scan.step_delimiter (delimits_of_isBlank blank) read
    apply Outcome.Scans.silent
    exact ⟨parts, .inr empty, by simpa only [mode] using start, by simp [growing, mode]⟩
  · split
    · rename_i quote
      cases Scan.step_delimiter (delimits_of_endsName (by simp [endsName, quote])) read
      apply Outcome.Scans.silent
      exact ⟨⟨parts.text, parts.tag, parts.name, parts.value, parts.comment⟩, .inr empty, quote,
        by simp [growing, start]⟩
    · split
      · rename_i ends
        cases Scan.step_delimiter (.inl (by rw [ends]; rfl)) read
        have rest : Parts returns { l with name := "" } :=
          ⟨parts.text, parts.tag, isScanned_empty, parts.value, parts.comment⟩
        exact (endOpenTag_scans rest empty false).after ⟨parts.name, isScanned_empty⟩
      · have pushed : Scan.run returns .plain (l.value.push c).toList = some σ' :=
          Scan.run_push (by simp [start]) read
        apply Outcome.Scans.silent
        exact ⟨⟨parts.text, parts.tag, parts.name, ⟨_, pushed⟩, parts.comment⟩, .inr empty, trivial,
          pushed⟩

/-- A character of a value between quotes. -/
lemma stepQuotedValue_scans {quote : Char} (parts : l.Parts returns) (empty : l.text = "")
    (mode : l.mode = .quotedValue quote) (isQuote : isQuote quote = true)
    (scanned : Scan.run returns .plain l.value.toList = some σ)
    (read : Scan.step returns σ c = some σ') (ok : (l.stepQuotedValue quote c).fault = none) :
    (l.stepQuotedValue quote c).Scans returns σ' := by
  unfold stepQuotedValue at *
  split
  · rename_i ends
    cases Scan.step_delimiter (delimits_of_endsName (by simp [endsName, ends, isQuote])) read
    split
    · apply Outcome.Scans.silent
      exact ⟨⟨parts.text, parts.tag, parts.name, parts.value, parts.comment⟩, .inr empty, trivial,
        rfl⟩
    · have scans :
          Scans returns { l with mode := .beforeAttribute, name := "", value := "" } .plain :=
        ⟨⟨parts.text, parts.tag, isScanned_empty, isScanned_empty, parts.comment⟩, .inr empty,
          trivial, rfl⟩
      exact .single scans ⟨parts.name, parts.value⟩
  · split
    · simp_all
    · have pushed := Scan.run_push scanned read
      apply Outcome.Scans.silent
      refine ⟨⟨parts.text, parts.tag, parts.name, ⟨_, pushed⟩, parts.comment⟩, .inr empty, ?_, ?_⟩
      · simpa only [mode] using isQuote
      · simpa only [growing, mode] using pushed

/-- A character of a value without quotes. -/
lemma stepUnquotedValue_scans (parts : l.Parts returns) (empty : l.text = "")
    (mode : l.mode = .unquotedValue) (scanned : Scan.run returns .plain l.value.toList = some σ)
    (read : Scan.step returns σ c = some σ') : (l.stepUnquotedValue c).Scans returns σ' := by
  unfold stepUnquotedValue
  split
  · rename_i ends
    have delimits : endsName c = true := by
      simp only [Bool.or_eq_true] at ends
      obtain blank | greater := ends
      · simp [endsName, blank]
      · simp [endsName, greater]
    cases Scan.step_delimiter (delimits_of_endsName delimits) read
    have rest : Parts returns { l with mode := .beforeAttribute, name := "", value := "" } :=
      ⟨parts.text, parts.tag, isScanned_empty, isScanned_empty, parts.comment⟩
    refine Outcome.Scans.after ?_ ⟨parts.name, parts.value⟩
    split
    · exact endOpenTag_scans rest empty false
    · exact .silent ⟨rest, .inr empty, trivial, rfl⟩
  · have pushed := Scan.run_push scanned read
    apply Outcome.Scans.silent
    refine ⟨⟨parts.text, parts.tag, parts.name, ⟨_, pushed⟩, parts.comment⟩, .inr empty, ?_, ?_⟩
    · simp only [mode]
    · simpa only [growing, mode] using pushed

/-- The character behind a slash in a start tag. -/
lemma stepSelfClosing_scans (parts : l.Parts returns) (empty : l.text = "")
    (read : Scan.step returns .plain c = some σ') (ok : (l.stepSelfClosing c).fault = none) :
    (l.stepSelfClosing c).Scans returns σ' := by
  unfold stepSelfClosing at *
  split
  · rename_i ends
    cases Scan.step_delimiter (.inl (by rw [ends]; rfl)) read
    exact endOpenTag_scans parts empty true
  · rename_i other
    rw [if_neg other] at ok
    exact stepBeforeAttribute_scans ⟨parts.text, parts.tag, parts.name, parts.value, parts.comment⟩
      empty rfl read ok

/-- An end tag is reported with a scanned name. -/
lemma endCloseTag_scans (parts : l.Parts returns) (empty : l.text = "") :
    l.endCloseTag.Scans returns .plain := by
  have scans : Scans returns { l with mode := .text, tag := "" } .plain :=
    ⟨⟨parts.text, isScanned_empty, parts.name, parts.value, parts.comment⟩, .inr empty, trivial, by
      simp [growing, empty]⟩
  exact .single scans parts.tag

/-- A character of the name in an end tag. -/
lemma stepClosingName_scans (parts : l.Parts returns) (empty : l.text = "")
    (mode : l.mode = .closingName) (scanned : Scan.run returns .plain l.tag.toList = some σ)
    (read : Scan.step returns σ c = some σ') : (l.stepClosingName c).Scans returns σ' := by
  unfold stepClosingName
  split
  · rename_i ends
    cases Scan.step_delimiter (.inl (by rw [ends]; rfl)) read
    exact endCloseTag_scans parts empty
  · split
    · rename_i blank
      cases Scan.step_delimiter (delimits_of_isBlank blank) read
      apply Outcome.Scans.silent
      exact ⟨⟨parts.text, parts.tag, parts.name, parts.value, parts.comment⟩, .inr empty, trivial,
        rfl⟩
    · have pushed := Scan.run_push scanned read
      apply Outcome.Scans.silent
      refine ⟨⟨parts.text, ⟨_, pushed⟩, parts.name, parts.value, parts.comment⟩, .inr empty, ?_, ?_⟩
      · simp only [mode]
      · simpa only [growing, mode] using pushed

/-- A character behind the name in an end tag. -/
lemma stepAfterClosingName_scans (parts : l.Parts returns) (empty : l.text = "")
    (mode : l.mode = .afterClosingName) (read : Scan.step returns .plain c = some σ')
    (ok : (l.stepAfterClosingName c).fault = none) :
    (l.stepAfterClosingName c).Scans returns σ' := by
  unfold stepAfterClosingName at *
  split
  · rename_i ends
    cases Scan.step_delimiter (.inl (by rw [ends]; rfl)) read
    exact endCloseTag_scans parts empty
  · split
    · rename_i blank
      cases Scan.step_delimiter (delimits_of_isBlank blank) read
      apply Outcome.Scans.silent
      exact ⟨parts, .inr empty, by simp only [mode], by simp [growing, mode]⟩
    · simp_all

/-- A comment is reported with a scanned text. -/
lemma endComment_scans (parts : l.Parts returns) (empty : l.text = "") :
    l.endComment.Scans returns .plain := by
  have scans : Scans returns { l with mode := .text, comment := "" } .plain :=
    ⟨⟨parts.text, parts.tag, parts.name, parts.value, isScanned_empty⟩, .inr empty, trivial, by
      simp [growing, empty]⟩
  exact .single scans parts.comment

/-- A character of a comment that has no dashes around it. -/
lemma stepBogusComment_scans (parts : l.Parts returns) (empty : l.text = "")
    (mode : l.mode = .bogusComment) (scanned : Scan.run returns .plain l.comment.toList = some σ)
    (read : Scan.step returns σ c = some σ') : (l.stepBogusComment c).Scans returns σ' := by
  unfold stepBogusComment
  split
  · rename_i ends
    cases Scan.step_delimiter (.inl (by rw [ends]; rfl)) read
    exact endComment_scans parts empty
  · have pushed := Scan.run_push scanned read
    apply Outcome.Scans.silent
    refine ⟨⟨parts.text, parts.tag, parts.name, parts.value, ⟨_, pushed⟩⟩, .inr empty, ?_, ?_⟩
    · simp only [mode]
    · simpa only [growing, mode] using pushed

/-- The characters behind `<!`, which may start a comment with dashes. -/
lemma stepDeclaration_scans (parts : l.Parts returns) (empty : l.text = "")
    (start : l.comment = "") (read : Scan.step returns .plain c = some σ') :
    (l.stepDeclaration c).Scans returns σ' := by
  unfold stepDeclaration
  split
  · rename_i dash
    cases Scan.step_delimiter (.inl (by rw [dash]; rfl)) read
    apply Outcome.Scans.silent
    exact ⟨⟨parts.text, parts.tag, parts.name, parts.value, parts.comment⟩, .inr empty, start, rfl⟩
  · exact stepBogusComment_scans ⟨parts.text, parts.tag, parts.name, parts.value, parts.comment⟩
      empty rfl (by simp [start]) read

/-- A step at the start of a comment scans on. -/
lemma stepCommentDash_scans (parts : l.Parts returns) (empty : l.text = "")
    (start : l.comment = "") (read : Scan.step returns .plain c = some σ') :
    (l.stepCommentDash c).Scans returns σ' := by
  unfold stepCommentDash
  split
  · rename_i dash
    cases Scan.step_delimiter (.inl (by rw [dash]; rfl)) read
    apply Outcome.Scans.silent
    exact ⟨⟨parts.text, parts.tag, parts.name, parts.value, parts.comment⟩, .inr empty, trivial, by
      simp [growing, start]⟩
  · have dashed := parts.comment.push (c := '-') rfl
    exact stepBogusComment_scans ⟨parts.text, parts.tag, parts.name, parts.value, ⟨_, dashed⟩⟩
      empty rfl dashed read

/-- A character of a comment, whose dashes are kept back. -/
lemma stepComment_scans (parts : l.Parts returns) (empty : l.text = "")
    (mode : l.mode = .comment) (scanned : Scan.run returns .plain l.comment.toList = some σ)
    (read : Scan.step returns σ c = some σ') : (l.stepComment c).Scans returns σ' := by
  unfold stepComment
  split
  · rename_i dash
    cases Scan.step_delimiter (.inl (by rw [dash]; rfl)) read
    apply Outcome.Scans.silent
    exact ⟨⟨parts.text, parts.tag, parts.name, parts.value, parts.comment⟩, .inr empty, trivial,
      rfl⟩
  · have pushed := Scan.run_push scanned read
    apply Outcome.Scans.silent
    refine ⟨⟨parts.text, parts.tag, parts.name, parts.value, ⟨_, pushed⟩⟩, .inr empty, ?_, ?_⟩
    · simp only [mode]
    · simpa only [growing, mode] using pushed

/-- A step behind a dash in a comment scans on. -/
lemma stepCommentEndDash_scans (parts : l.Parts returns) (empty : l.text = "")
    (read : Scan.step returns .plain c = some σ') :
    (l.stepCommentEndDash c).Scans returns σ' := by
  unfold stepCommentEndDash
  split
  · rename_i dash
    cases Scan.step_delimiter (.inl (by rw [dash]; rfl)) read
    apply Outcome.Scans.silent
    exact ⟨⟨parts.text, parts.tag, parts.name, parts.value, parts.comment⟩, .inr empty, trivial,
      rfl⟩
  · have pushed := Scan.run_push (parts.comment.push (c := '-') rfl) read
    apply Outcome.Scans.silent
    exact ⟨⟨parts.text, parts.tag, parts.name, parts.value, ⟨_, pushed⟩⟩, .inr empty, trivial,
      pushed⟩

/-- A step behind two dashes in a comment scans on. -/
lemma stepCommentEnd_scans (parts : l.Parts returns) (empty : l.text = "")
    (mode : l.mode = .commentEnd) (read : Scan.step returns .plain c = some σ') :
    (l.stepCommentEnd c).Scans returns σ' := by
  have dashed := parts.comment.push (c := '-') rfl
  unfold stepCommentEnd
  split
  · rename_i ends
    cases Scan.step_delimiter (.inl (by rw [ends]; rfl)) read
    exact endComment_scans parts empty
  · split
    · rename_i dash
      cases Scan.step_delimiter (.inl (by rw [dash]; rfl)) read
      apply Outcome.Scans.silent
      refine ⟨⟨parts.text, parts.tag, parts.name, parts.value, ⟨_, dashed⟩⟩, .inr empty, ?_, ?_⟩
      · simp only [mode]
      · simp [growing, mode]
    · have pushed := Scan.run_push (IsScanned.push ⟨_, dashed⟩ (c := '-') rfl) read
      apply Outcome.Scans.silent
      exact ⟨⟨parts.text, parts.tag, parts.name, parts.value, ⟨_, pushed⟩⟩, .inr empty, trivial,
        pushed⟩

/-! ## Runs -/

/-- Outside of texts there is no text. -/
lemma Scans.empty (h : l.Scans returns σ) (outside : ¬l.InText) : l.text = "" :=
  h.outside.resolve_left outside

/-- A character. -/
lemma step_scans (h : l.Scans returns σ) (read : Scan.step returns σ c = some σ')
    (ok : (l.step c).fault = none) : (l.step c).Scans returns σ' := by
  have parts := h.parts
  have fresh := h.fresh
  have scanned := h.growing
  unfold step at *
  cases mode : l.mode <;> simp only [mode, growing] at ok fresh scanned ⊢
  case text => exact stepText_scans parts mode scanned read
  case tagOpening =>
    cases scanned
    exact stepTagOpening_scans parts read
  all_goals have empty := h.empty (not_inText mode rfl)
  case tagName => exact stepTagName_scans parts empty mode scanned read ok
  case attributeName => exact stepAttributeName_scans parts empty mode scanned read ok
  case quotedValue quote => exact stepQuotedValue_scans parts empty mode fresh scanned read ok
  case unquotedValue => exact stepUnquotedValue_scans parts empty mode scanned read
  case closingName => exact stepClosingName_scans parts empty mode scanned read
  case comment => exact stepComment_scans parts empty mode scanned read
  case bogusComment => exact stepBogusComment_scans parts empty mode scanned read
  all_goals cases scanned
  case beforeAttribute => exact stepBeforeAttribute_scans parts empty mode read ok
  case afterAttribute => exact stepAfterAttribute_scans parts empty mode read ok
  case beforeValue => exact stepBeforeValue_scans parts empty mode fresh read
  case selfClosing => exact stepSelfClosing_scans parts empty read ok
  case afterClosingName => exact stepAfterClosingName_scans parts empty mode read ok
  case declaration => exact stepDeclaration_scans parts empty fresh read
  case commentDash => exact stepCommentDash_scans parts empty fresh read
  case commentEndDash => exact stepCommentEndDash_scans parts empty read
  case commentEnd => exact stepCommentEnd_scans parts empty mode read

/-- A chunk. -/
lemma write_scans (h : l.Scans returns σ) {chunk : String}
    (read : Scan.run returns σ chunk.toList = some σ') (ok : (l.write chunk).fault = none) :
    (l.write chunk).Scans returns σ' := by
  unfold write at *
  generalize chunk.toList = cs at read ok
  induction cs generalizing l σ with
  | nil =>
    cases read
    exact .silent h
  | cons c cs ih =>
    rw [Scan.run_cons] at read
    obtain ⟨τ, first, rest⟩ := Option.bind_eq_some_iff.1 read
    have noFault : (l.step c).fault = none := by
      by_contra fault
      obtain ⟨cause, fault⟩ := Option.ne_none_iff_exists'.1 fault
      rw [writeList, Outcome.andThen_of_some fault] at ok
      exact absurd (fault.symm.trans ok) (by simp)
    have step := step_scans h first noFault
    rw [writeList, Outcome.andThen_of_none noFault] at ok ⊢
    have behind := ih step.lexer rest ok
    refine ⟨fun e mem => ?_, behind.lexer⟩
    exact (List.mem_append.1 mem).elim (step.events e) (behind.events e)

/-- A hole that can be filled. -/
lemma passHole_scans (h : l.Scans returns σ)
    (place : l.place = .text ∨ (∃ name, l.place = .attributeValue name) ∨
      ∃ name, l.place = .tagName name ∧ Scan.run returns .plain name.toList = some .plain) :
    l.passHole.Scans returns .plain := by
  have parts := h.parts
  obtain place | ⟨name, place⟩ | ⟨name, place, scanned⟩ := place
  · have mode := mode_of_place_text place
    simp only [passHole, place, flush, mode]
    refine ⟨parts.pendingText, ⟨isScanned_empty, ?_, ?_, ?_, ?_⟩, .inr rfl, ?_, ?_⟩
    · exact parts.tag
    · exact parts.name
    · exact parts.value
    · exact parts.comment
    · trivial
    · rfl
  · simp only [passHole, place]
    apply Outcome.Scans.silent
    obtain ⟨-, mode | ⟨quote, mode, value⟩⟩ := mode_of_place_attributeValue place
    · have empty := h.empty (not_inText mode rfl)
      simp only [bindValue, mode]
      exact ⟨⟨parts.text, parts.tag, isScanned_empty, parts.value, parts.comment⟩, .inr empty,
        trivial, rfl⟩
    · have empty := h.empty (not_inText mode rfl)
      have fresh : isQuote quote = true := by simpa only [mode] using h.fresh
      simp only [bindValue, mode, value, if_true]
      exact ⟨⟨parts.text, parts.tag, isScanned_empty, isScanned_empty, parts.comment⟩, .inr empty,
        fresh, rfl⟩
  · obtain ⟨mode, rfl⟩ := mode_of_place_tagName place
    have empty := h.empty (not_inText mode rfl)
    simp only [passHole, place]
    apply Outcome.Scans.silent
    refine ⟨parts, .inr empty, ?_, ?_⟩
    · simp only [mode]
    · simpa only [growing, mode] using scanned

/-- The end of the input comes only among text, and reports what is pending. -/
lemma finish_scans (h : l.Scans returns σ) (ends : σ ≠ .escape) (ok : l.finish.fault = none) :
    l.InText ∧ ∃ text, l.finish.events = textEvents text ++ [.finish] ∧
      Scan.Reads returns text.toList := by
  unfold finish at *
  have scanned := h.growing
  cases mode : l.mode <;> simp only [mode, growing] at ok scanned ⊢
  case text =>
    refine ⟨.inl mode, l.text, ?_, σ, scanned, ends⟩
    simp [flush, mode, Outcome.andThen, Outcome.after, pendingText_eq]
  case tagOpening =>
    refine ⟨.inr mode, l.text.push '<', ?_, .plain, h.parts.text.push rfl, by simp⟩
    simp [flush, Outcome.andThen, Outcome.after, pendingText_eq]
  all_goals cases ok

/-- Behind the last event of a chunk that ends in text a text may follow. -/
lemma separates_of_write {chunk : String} {front : List Event} {e : Event}
    (events : (l.write chunk).events = front ++ [e]) (inText : (l.write chunk).lexer.InText) :
    e.separates = true := by
  have last : Spaced (l.write chunk).lexer.InText [.text ""] := .cons (fun _ => inText) .nil
  have spaced : Spaced l.InText (front ++ e :: [.text ""]) := by
    have more := (l.write_spaces chunk).spaced last
    rwa [events, List.append_assoc] at more
  clear * - spaced
  generalize l.InText = may at spaced
  induction front generalizing may with
  | nil =>
    obtain _ | ⟨-, _ | ⟨first, -⟩⟩ := spaced
    exact first rfl
  | cons f front ih =>
    obtain _ | ⟨-, rest⟩ := spaced
    exact ih _ rest

end Lexer

end TaggedMarkup.Markup

import Mathlib
import TaggedMarkup.Markup.Lexer

/-!
# Legible markup

What names, texts and comments have to look like so that the lexer finds their ends where they are.
-/

namespace TaggedMarkup.Markup

/-- Whether a character behind a `<` starts a tag or a comment. -/
def opensTag (c : Char) : Bool := isLetter c || c == '#' || c == '/' || c == '!'

/-- A text in which no `<` starts a tag or a comment. One at the end starts nothing. -/
def IsPlain (text : String) : Prop :=
  text.toList.IsChain fun a b => a = '<' → opensTag b = false

/-- The name of an attribute. -/
def IsName (name : String) : Prop := name ≠ "" ∧ ∀ c ∈ name.toList, endsName c = false

/-- The name in a start tag. -/
def IsTagName (name : String) : Prop :=
  (∃ c ∈ name.toList.head?, isLetter c = true ∨ c = '#') ∧ ∀ c ∈ name.toList, endsName c = false

/-- The name in an end tag, which may be empty. -/
def IsEndName (name : String) : Prop := ∀ c ∈ name.toList, c ≠ '>' ∧ isBlank c = false

/-- The text of a comment. -/
def IsCommentText (text : String) : Prop := ¬['-', '-', '>'] <:+: text.toList

instance (text : String) : Decidable (IsPlain text) :=
  inferInstanceAs (Decidable (text.toList.IsChain _))

instance (name : String) : Decidable (IsName name) :=
  inferInstanceAs (Decidable (name ≠ "" ∧ ∀ c ∈ name.toList, endsName c = false))

instance (name : String) : Decidable (IsTagName name) :=
  inferInstanceAs (Decidable ((∃ c ∈ name.toList.head?, isLetter c = true ∨ c = '#') ∧
    ∀ c ∈ name.toList, endsName c = false))

instance (name : String) : Decidable (IsEndName name) :=
  inferInstanceAs (Decidable (∀ c ∈ name.toList, c ≠ '>' ∧ isBlank c = false))

instance (text : String) : Decidable (IsCommentText text) :=
  inferInstanceAs (Decidable (¬['-', '-', '>'] <:+: text.toList))

/-- A character that ends no name is none of those that mean something in a tag. -/
lemma ne_of_endsName {c : Char} (h : endsName c = false) :
    isBlank c = false ∧ c ≠ '>' ∧ c ≠ '/' ∧ c ≠ '=' ∧ c ≠ '<' ∧ isQuote c = false := by
  simpa [endsName, and_assoc] using h

/-- The name of a start tag can be that of an end tag. -/
lemma IsTagName.isEndName {name : String} (h : IsTagName name) : IsEndName name := by
  intro c mem
  obtain ⟨noBlank, noEnd, -⟩ := ne_of_endsName (h.2 c mem)
  exact ⟨noEnd, noBlank⟩

/-- The start of a plain text is plain. -/
lemma IsPlain.of_append {a b : String} (h : IsPlain (a ++ b)) : IsPlain a := by
  rw [IsPlain, String.toList_append, List.isChain_append] at h
  exact h.1

/-- Plain texts that overlap are plain together. -/
lemma IsPlain.append_overlap {a b c : String} (h : IsPlain (a ++ b)) (h' : IsPlain (b ++ c))
    (some : b ≠ "") : IsPlain (a ++ (b ++ c)) := by
  rw [IsPlain, String.toList_append] at h h'
  have whole := h.append_overlap h' fun none => some (String.toList_eq_nil_iff.1 none)
  rw [IsPlain, String.toList_append, String.toList_append, ← List.append_assoc]
  exact whole

/-- The start of the text of a comment is one too. -/
lemma IsCommentText.of_append {a b : String} (h : IsCommentText (a ++ b)) : IsCommentText a := by
  intro inside
  refine h (inside.trans ?_)
  rw [String.toList_append]
  exact (List.prefix_append _ _).isInfix

end TaggedMarkup.Markup

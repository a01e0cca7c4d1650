import Mathlib
import TaggedMarkup.Proofs.Markup.Chunks
import TaggedMarkup.Proofs.Markup.Legible
import TaggedMarkup.Template.Skeleton

/-!
# Reading printed markup

Markup that a skeleton prints is read back as it was meant: if texts, names, values and comments are
legible and no text stands beside another, the lexer reports for every piece the events of that
piece, and nothing else (`tokenize_print`).

`Lexer.Reads` is a run without a fault. There is one lemma for each kind of piece; between two
pieces the lexer is in a state in which all that it still has to report is text (`Lexer.Pending`).
-/

namespace TaggedMarkup.Markup

open Template (AttributeValue Frame attributeMarkup bindMark escapeValue)

/-! ## Pieces of markup -/

/-- A piece of printed markup. The start tag of an element that hosts a binder is marked. -/
inductive Piece where
  | text (text : String)
  | comment (text : String)
  | startTag (name : String) (attributes : List (String × String)) (marked : Bool)
  | endTag (name : String)
  deriving DecidableEq, Repr

namespace Piece

/-- Whether a piece is text. -/
def isText : Piece → Bool
  | .text _ => true
  | _ => false

/-- A piece as a skeleton prints it. -/
def print : Piece → String
  | .text s => s
  | .comment s => s!"<!--{s}-->"
  | .startTag name attributes marked =>
    let frame : Frame :=
      { name := name, attributes := attributes.map fun (name, value) => (name, .fixed value) }
    frame.startTag ++ (if marked then bindMark else "") ++ ">"
  | .endTag name => s!"</{name}>"

/-- The events of a piece. -/
def events : Piece → List Event
  | .text s => [.text s]
  | .comment s => [.comment s]
  | .startTag name attributes marked =>
    .openTag name :: attributes.map (fun (name, value) => .attribute name (some value)) ++
      (if marked then [.attribute "data-bind" none] else []) ++ [.openTagEnd false]
  | .endTag name => [.closeTag name]

/-- Whether the ends of the parts of a piece can be found. -/
def Legible : Piece → Prop
  | .text s => s ≠ "" ∧ IsPlain s
  | .comment s => IsCommentText s
  | .startTag name attributes _ =>
    IsTagName name ∧ ∀ a ∈ attributes, IsName a.1 ∧ '\x22' ∉ a.2.toList
  | .endTag name => IsEndName name

instance (p : Piece) : Decidable p.Legible :=
  match p with
  | .text s => inferInstanceAs (Decidable (s ≠ "" ∧ IsPlain s))
  | .comment s => inferInstanceAs (Decidable (IsCommentText s))
  | .startTag name attributes _ =>
    inferInstanceAs (Decidable (IsTagName name ∧
      ∀ a ∈ attributes, IsName a.1 ∧ '\x22' ∉ a.2.toList))
  | .endTag name => inferInstanceAs (Decidable (IsEndName name))

end Piece

/-- Whether no text stands beside another. -/
def Piece.TextsApart (ps : List Piece) : Prop :=
  ps.IsChain fun p q => ¬(p.isText = true ∧ q.isText = true)

/-- Reads a whole text. -/
def tokenize (markup : String) : Outcome := (Lexer.empty.write markup).andThen Lexer.finish

namespace Lexer

/-! ## Runs without a fault -/

/-- The lexer reads some characters, reports some events, and ends in a state. -/
def Reads (l : Lexer) (cs : List Char) (es : List Event) (l' : Lexer) : Prop :=
  l.writeList cs = { lexer := l', events := es }

namespace Reads

variable {l l' l'' : Lexer} {cs ds : List Char} {es fs : List Event}

/-- No characters are read without events. -/
lemma nil : l.Reads [] [] l := rfl

/-- Characters are read one part after the other. -/
lemma append (h : l.Reads cs es l') (h' : l'.Reads ds fs l'') :
    l.Reads (cs ++ ds) (es ++ fs) l'' := by
  unfold Reads at h h' ⊢
  rw [writeList_append, h, Outcome.andThen_of_none rfl, h']
  rfl

/-- The first character is read by one step. -/
lemma cons {c : Char} (h : l.step c = { lexer := l', events := es }) (h' : l'.Reads cs fs l'') :
    l.Reads (c :: cs) (es ++ fs) l'' := by
  unfold Reads at h' ⊢
  rw [writeList, h, Outcome.andThen_of_none rfl, h']
  rfl

/-- A single character is read by one step. -/
lemma single {c : Char} (h : l.step c = { lexer := l', events := es }) : l.Reads [c] es l' := by
  simpa using cons h nil

/-- A character without events in front of others. -/
lemma silent {c : Char} (h : l.step c = { lexer := l' }) (h' : l'.Reads cs es l'') :
    l.Reads (c :: cs) es l'' := cons h h'

/-- Characters that all join one unfinished part of the state. -/
lemma push (state : String → Lexer) {ok : Char → Prop} (s : String) (all : ∀ c ∈ cs, ok c)
    (step : ∀ {s c}, ok c → (state s).step c = { lexer := state (s.push c) }) :
    (state s).Reads cs [] (state (s ++ String.ofList cs)) := by
  induction cs generalizing s with
  | nil => simpa using nil
  | cons c cs ih =>
    obtain ⟨here, all⟩ := List.forall_mem_cons.1 all
    have rest := ih (s.push c) all
    rw [show s ++ String.ofList (c :: cs) = s.push c ++ String.ofList cs by
      rw [← String.toList_inj]; simp]
    exact silent (step here) rest

/-- Characters that are all read without an event. What has been read so far, and the state with it,
satisfies `inv`. -/
lemma extend {inv : Lexer → String → Prop} {ok : String → Prop}
    (start : ∀ {a b}, ok (a ++ b) → ok a)
    (step : ∀ {l s c}, inv l s → ok (s.push c) →
      ∃ l', l.step c = { lexer := l' } ∧ inv l' (s.push c))
    {s t : String} (h : inv l s) (legible : ok (s ++ t)) :
    ∃ l', l.Reads t.toList [] l' ∧ inv l' (s ++ t) := by
  obtain ⟨cs, rfl⟩ : ∃ cs, t = String.ofList cs := ⟨t.toList, by simp⟩
  rw [String.toList_ofList]
  induction cs generalizing l s with
  | nil => exact ⟨l, nil, by simpa using h⟩
  | cons c cs ih =>
    have whole : s ++ String.ofList (c :: cs) = s.push c ++ String.ofList cs := by
      rw [← String.toList_inj]
      simp
    rw [whole] at legible ⊢
    obtain ⟨l₁, first, h₁⟩ := step h (start legible)
    obtain ⟨l₂, rest, h₂⟩ := ih h₁ legible
    exact ⟨l₂, silent first rest, h₂⟩

/-- What is read in front of other markup. -/
lemma writeList_append (h : l.Reads cs es l') (ds : List Char) :
    l.writeList (cs ++ ds) = (l'.writeList ds).after es := by
  rw [Lexer.writeList_append, h, Outcome.andThen_of_none rfl]

end Reads

/-! ## Start tags -/

/-- The first character of a name. -/
lemma exists_toList_eq_cons {name : String} {c : Char} (head : c ∈ name.toList.head?) :
    ∃ cs, name.toList = c :: cs ∧ name = String.singleton c ++ String.ofList cs := by
  cases list : name.toList with
  | nil =>
    rw [list] at head
    cases head
  | cons d cs =>
    rw [list] at head
    cases head
    refine ⟨cs, rfl, ?_⟩
    rw [← String.toList_inj, list]
    simp

/-- A name behind a `<` ends the pending text and starts a tag. -/
lemma reads_tagName {l : Lexer} (mode : l.mode = .tagOpening) {name : String}
    (legible : IsTagName name) :
    l.Reads name.toList l.pendingText { l with mode := .tagName, text := "", tag := name } := by
  obtain ⟨⟨c, head, start⟩, all⟩ := legible
  obtain ⟨cs, list, whole⟩ := exists_toList_eq_cons head
  have first : l.step c =
      { lexer := { l with mode := .tagName, text := "", tag := String.singleton c },
        events := l.pendingText } := by
    rcases start with letter | rfl
    · simp [step, mode, stepTagOpening, letter]
    · simp [step, mode, stepTagOpening]
  rw [list] at all ⊢
  have rest := Reads.push (fun tag => { l with mode := .tagName, text := "", tag := tag })
    (String.singleton c) (List.forall_mem_cons.1 all).2
    (by intro s c other; simp [step, stepTagName, other])
  rw [← whole] at rest
  simpa using Reads.cons first rest

/-- The first character behind a tag name is read as in front of an attribute. -/
lemma reads_behind_tagName {l l' : Lexer} (mode : l.mode = .tagName) {c : Char} {cs : List Char}
    {es : List Event} (ends : endsName c = true)
    (h : Reads { l with mode := .beforeAttribute } (c :: cs) es l') :
    l.Reads (c :: cs) (.openTag l.tag :: es) l' := by
  have first : l.step c =
      (Lexer.step { l with mode := .beforeAttribute } c).after [.openTag l.tag] := by
    simp only [step, mode, stepTagName, ends, if_true]
  unfold Reads at h ⊢
  rw [writeList, first, Outcome.after_andThen]
  rw [writeList] at h
  rw [h]
  rfl

/-- A blank and the name of an attribute. -/
lemma reads_attributeName {l : Lexer} (mode : l.mode = .beforeAttribute) {name : String}
    (legible : IsName name) :
    l.Reads (' ' :: name.toList) [] { l with mode := .attributeName, name := name } := by
  obtain ⟨some, all⟩ := legible
  obtain ⟨c, head⟩ : ∃ c, c ∈ name.toList.head? := by
    cases list : name.toList with
    | nil => exact absurd (String.toList_eq_nil_iff.1 list) some
    | cons c cs => exact ⟨c, rfl⟩
  obtain ⟨cs, list, whole⟩ := exists_toList_eq_cons head
  rw [list] at all ⊢
  obtain ⟨here, all⟩ := List.forall_mem_cons.1 all
  have blank : l.step ' ' = { lexer := l } := by
    simp [step, mode, stepBeforeAttribute, isBlank]
  have first : l.step c =
      { lexer := { l with mode := .attributeName, name := String.singleton c } } := by
    obtain ⟨noBlank, noEnd, noSlash, noEquals, noLess, noQuote⟩ := ne_of_endsName here
    simp [step, mode, stepBeforeAttribute, noBlank, noEnd, noSlash, noEquals, noLess, noQuote]
  have rest := Reads.push (fun name => { l with mode := .attributeName, name := name })
    (String.singleton c) all (by intro s c other; simp [step, stepAttributeName, other])
  rw [← whole] at rest
  exact .silent blank (.silent first rest)

/-- A value between double quotes. -/
lemma reads_value {l : Lexer} (mode : l.mode = .attributeName) (unbound : l.bound = false)
    {value : String} (unquoted : '\x22' ∉ value.toList) :
    l.Reads ('=' :: '\x22' :: (value.toList ++ ['\x22'])) [.attribute l.name (some value)]
      { l with mode := .beforeAttribute, name := "", value := "" } := by
  have equals : l.step '=' = { lexer := { l with mode := .beforeValue, value := "" } } := by
    simp [step, mode, stepAttributeName, stepAfterAttribute, endsName, isBlank]
  have opening : Lexer.step { l with mode := .beforeValue, value := "" } '\x22' =
      { lexer := { l with mode := .quotedValue '\x22', value := "" } } := by
    simp [step, stepBeforeValue, isBlank, isQuote]
  have other : ∀ c ∈ value.toList, c ≠ '\x22' := fun c mem same => unquoted (same ▸ mem)
  have content := Reads.push
    (fun value => { l with mode := .quotedValue '\x22', value := value }) "" other
    (by intro s c other; simp [step, stepQuotedValue, other, unbound])
  rw [String.empty_append, String.ofList_toList] at content
  have closing : Lexer.step { l with mode := .quotedValue '\x22', value := value } '\x22' =
      { lexer := { l with mode := .beforeAttribute, name := "", value := "" },
        events := [.attribute l.name (some value)] } := by
    simp [step, stepQuotedValue, unbound]
  exact .silent equals (.silent opening (content.append (.single closing)))

/-- Between two attributes of a tag. -/
structure InTag (l : Lexer) : Prop where
  mode : l.mode = .beforeAttribute
  unbound : l.bound = false
  text : l.text = ""

/-- The attributes of a tag one behind the other. -/
lemma reads_attributes {l : Lexer} (h : l.InTag) {attributes : List (String × String)}
    (legible : ∀ a ∈ attributes, IsName a.1 ∧ '\x22' ∉ a.2.toList) :
    ∃ l', l.Reads
        (attributes.flatMap fun (name, value) =>
          ' ' :: name.toList ++ '=' :: '\x22' :: (value.toList ++ ['\x22']))
        (attributes.map fun (name, value) => .attribute name (some value)) l' ∧ l'.InTag := by
  induction attributes generalizing l with
  | nil => exact ⟨l, .nil, h⟩
  | cons a attributes ih =>
    obtain ⟨name, value⟩ := a
    obtain ⟨⟨isName, unquoted⟩, legible⟩ := List.forall_mem_cons.1 legible
    have here := (reads_attributeName h.mode isName).append
      (reads_value (l := { l with mode := .attributeName, name := name }) rfl h.unbound unquoted)
    obtain ⟨l', rest, inTag⟩ :=
      ih (l := { l with mode := .beforeAttribute, name := "", value := "" })
        ⟨rfl, h.unbound, h.text⟩ legible
    exact ⟨l', here.append rest, inTag⟩

/-- Between two pieces all that is still to be reported is text. If it ends in a `<`, that has not
been told from the start of a tag yet. -/
structure Pending (l : Lexer) (text : String) : Prop where
  unbound : l.bound = false
  pending : (l.mode = .text ∧ l.text = text) ∨ (l.mode = .tagOpening ∧ l.text.push '<' = text)

/-- The end of a start tag, with the mark or without it. -/
lemma reads_tagEnd {l : Lexer} (h : l.InTag) (marked : Bool) :
    ∃ l', l.Reads ((if marked then bindMark else "").toList ++ ['>'])
        ((if marked then [.attribute "data-bind" none] else []) ++ [.openTagEnd false]) l' ∧
      l'.Pending "" := by
  cases marked with
  | false =>
    have closing : l.step '>' = l.endOpenTag false := by
      simp [step, h.mode, stepBeforeAttribute, isBlank]
    exact ⟨{ l with mode := .text }, .single closing, h.unbound, .inl ⟨rfl, h.text⟩⟩
  | true =>
    have mark : bindMark.toList = ' ' :: "data-bind".toList := rfl
    have legible : IsName "data-bind" := by simp [IsName, endsName, isBlank, isQuote]
    have name := reads_attributeName h.mode legible
    have closing : Lexer.step { l with mode := .attributeName, name := "data-bind" } '>' =
        { lexer := { l with mode := .text, name := "" },
          events := [.attribute "data-bind" none, .openTagEnd false] } := by
      simp [step, stepAttributeName, stepAfterAttribute, stepBeforeAttribute, endsName, isBlank,
        isQuote, endOpenTag, Outcome.after]
    rw [if_pos rfl, if_pos rfl, mark]
    exact ⟨{ l with mode := .text, name := "" }, name.append (.single closing), h.unbound,
      .inl ⟨rfl, h.text⟩⟩

/-! ## Texts, comments and end tags -/

/-- The lexer among the text of a comment, with the dashes that it has not told from the end of the
comment yet. -/
structure Commenting (l : Lexer) (read : String) : Prop where
  unbound : l.bound = false
  text : l.text = ""
  comment : (l.mode = .comment ∧ l.comment = read) ∨
    (l.mode = .commentEndDash ∧ l.comment.push '-' = read) ∨
    (l.mode = .commentEnd ∧ (l.comment.push '-').push '-' = read)

/-- A character of a text. -/
lemma Pending.step {l : Lexer} {text : String} {c : Char} (h : l.Pending text)
    (plain : IsPlain (text.push c)) :
    ∃ l', l.step c = { lexer := l' } ∧ l'.Pending (text.push c) := by
  obtain ⟨unbound, ⟨mode, rfl⟩ | ⟨mode, rfl⟩⟩ := h
  · simp only [Lexer.step, mode, stepText]
    split
    · rename_i less
      exact ⟨_, rfl, unbound, .inr ⟨rfl, by rw [less]⟩⟩
    · exact ⟨_, rfl, unbound, .inl ⟨rfl, rfl⟩⟩
  · have other : opensTag c = false := by
      simp only [IsPlain, String.toList_push, List.append_assoc, List.cons_append,
        List.nil_append] at plain
      exact (List.isChain_append_cons_cons.1 plain).2.1 rfl
    obtain ⟨noLetter, noHash, noSlash, noBang⟩ :
        isLetter c = false ∧ c ≠ '#' ∧ c ≠ '/' ∧ c ≠ '!' := by
      simpa [opensTag, and_assoc] using other
    have goesOn : l.step c =
        stepText { l with mode := .text, text := l.text.push '<' } c := by
      simp [Lexer.step, mode, stepTagOpening, noLetter, noHash, noSlash, noBang]
    rw [goesOn, stepText]
    split
    · rename_i less
      exact ⟨_, rfl, unbound, .inr ⟨rfl, by rw [less]⟩⟩
    · exact ⟨_, rfl, unbound, .inl ⟨rfl, rfl⟩⟩

/-- A `<` behind a text, where it starts a tag or a comment. -/
lemma Pending.less {l : Lexer} {text : String} (h : l.Pending text) :
    l.step '<' = { lexer := { l with mode := .tagOpening, text := text } } := by
  obtain ⟨-, ⟨mode, rfl⟩ | ⟨mode, rfl⟩⟩ := h
  · simp [Lexer.step, mode, stepText]
  · simp [Lexer.step, mode, stepTagOpening, stepText, isLetter]

/-- A text. -/
lemma Pending.reads_text {l : Lexer} {text : String} (h : l.Pending "") (plain : IsPlain text) :
    ∃ l', l.Reads text.toList [] l' ∧ l'.Pending text := by
  have := Reads.extend IsPlain.of_append Pending.step h (t := text) (by simpa using plain)
  simpa using this

/-- A character of a comment. -/
lemma Commenting.step {l : Lexer} {text : String} {c : Char} (h : l.Commenting text)
    (legible : IsCommentText (text.push c)) :
    ∃ l', l.step c = { lexer := l' } ∧ l'.Commenting (text.push c) := by
  obtain ⟨unbound, empty, ⟨mode, rfl⟩ | ⟨mode, rfl⟩ | ⟨mode, rfl⟩⟩ := h
  · simp only [Lexer.step, mode, stepComment]
    split
    · rename_i dash
      exact ⟨_, rfl, unbound, empty, .inr (.inl ⟨rfl, by rw [dash]⟩)⟩
    · exact ⟨_, rfl, unbound, empty, .inl ⟨rfl, rfl⟩⟩
  · simp only [Lexer.step, mode, stepCommentEndDash]
    split
    · rename_i dash
      exact ⟨_, rfl, unbound, empty, .inr (.inr ⟨rfl, by rw [dash]⟩)⟩
    · exact ⟨_, rfl, unbound, empty, .inl ⟨rfl, rfl⟩⟩
  · simp only [Lexer.step, mode, stepCommentEnd]
    split
    · rename_i closing
      subst closing
      refine absurd ?_ legible
      simp only [String.toList_push, List.append_assoc, List.cons_append, List.nil_append]
      exact (List.suffix_append _ _).isInfix
    · split
      · rename_i dash
        exact ⟨_, rfl, unbound, empty, .inr (.inr ⟨rfl, by rw [dash]⟩)⟩
      · exact ⟨_, rfl, unbound, empty, .inl ⟨rfl, rfl⟩⟩

/-- The end of a comment. Dashes in front of it belong to the text. -/
lemma Commenting.reads_end {l : Lexer} {text : String} (h : l.Commenting text) :
    ∃ l', l.Reads ['-', '-', '>'] [.comment text] l' ∧ l'.Pending "" := by
  have closing {l : Lexer} (mode : l.mode = .commentEnd) : l.step '>' = l.endComment := by
    simp [Lexer.step, mode, stepCommentEnd]
  obtain ⟨unbound, empty, ⟨mode, rfl⟩ | ⟨mode, rfl⟩ | ⟨mode, rfl⟩⟩ := h
  · have first : l.step '-' = { lexer := { l with mode := .commentEndDash } } := by
      simp [Lexer.step, mode, stepComment]
    have second : Lexer.step { l with mode := .commentEndDash } '-' =
        { lexer := { l with mode := .commentEnd } } := by
      simp [Lexer.step, stepCommentEndDash]
    exact ⟨_, .silent first (.silent second (.single (closing rfl))), unbound, .inl ⟨rfl, empty⟩⟩
  · have first : l.step '-' = { lexer := { l with mode := .commentEnd } } := by
      simp [Lexer.step, mode, stepCommentEndDash]
    have second : Lexer.step { l with mode := .commentEnd } '-' =
        { lexer := { l with mode := .commentEnd, comment := l.comment.push '-' } } := by
      simp [Lexer.step, stepCommentEnd]
    exact ⟨_, .silent first (.silent second (.single (closing rfl))), unbound, .inl ⟨rfl, empty⟩⟩
  · have again {l : Lexer} (mode : l.mode = .commentEnd) :
        l.step '-' = { lexer := { l with comment := l.comment.push '-' } } := by
      simp [Lexer.step, mode, stepCommentEnd]
    exact ⟨_, .silent (again mode) (.silent (again mode) (.single (closing mode))), unbound,
      .inl ⟨rfl, empty⟩⟩

/-- A comment behind a text. -/
lemma Pending.reads_comment {l : Lexer} {text comment : String} (h : l.Pending text)
    (legible : IsCommentText comment) :
    ∃ l', l.Reads ('<' :: '!' :: '-' :: '-' :: (comment.toList ++ ['-', '-', '>']))
      (textEvents text ++ [.comment comment]) l' ∧ l'.Pending "" := by
  have bang : Lexer.step { l with mode := .tagOpening, text := text } '!' =
      { lexer := { l with mode := .declaration, text := "", comment := "" },
        events := textEvents text } := by
    simp [Lexer.step, stepTagOpening, isLetter, pendingText, textEvents]
  have dash : Lexer.step { l with mode := .declaration, text := "", comment := "" } '-' =
      { lexer := { l with mode := .commentDash, text := "", comment := "" } } := by
    simp [Lexer.step, stepDeclaration]
  have dash' : Lexer.step { l with mode := .commentDash, text := "", comment := "" } '-' =
      { lexer := { l with mode := .comment, text := "", comment := "" } } := by
    simp [Lexer.step, stepCommentDash]
  have start : Commenting { l with mode := .comment, text := "", comment := "" } "" :=
    ⟨h.unbound, rfl, .inl ⟨rfl, rfl⟩⟩
  obtain ⟨l₁, content, commenting⟩ :=
    Reads.extend IsCommentText.of_append Commenting.step start (t := comment)
      (by simpa using legible)
  rw [String.empty_append] at commenting
  obtain ⟨l₂, ended, pending⟩ := commenting.reads_end
  exact ⟨l₂, .silent h.less (.cons bang (.silent dash (.silent dash' (content.append ended)))),
    pending⟩

/-- An end tag behind a text. -/
lemma Pending.reads_endTag {l : Lexer} {text name : String} (h : l.Pending text)
    (legible : IsEndName name) :
    ∃ l', l.Reads ('<' :: '/' :: (name.toList ++ ['>'])) (textEvents text ++ [.closeTag name]) l' ∧
      l'.Pending "" := by
  have slash : Lexer.step { l with mode := .tagOpening, text := text } '/' =
      { lexer := { l with mode := .closingName, text := "", tag := "" },
        events := textEvents text } := by
    simp [Lexer.step, stepTagOpening, isLetter, pendingText, textEvents]
  have content := Reads.push (fun tag => { l with mode := .closingName, text := "", tag := tag }) ""
    legible (by rintro s c ⟨noEnd, noBlank⟩; simp [Lexer.step, stepClosingName, noEnd, noBlank])
  rw [String.empty_append, String.ofList_toList] at content
  have closing : Lexer.step { l with mode := .closingName, text := "", tag := name } '>' =
      { lexer := { l with mode := .text, text := "", tag := "" }, events := [.closeTag name] } := by
    simp [Lexer.step, stepClosingName, endCloseTag]
  exact ⟨_, .silent h.less (.cons slash (content.append (.single closing))), h.unbound,
    .inl ⟨rfl, rfl⟩⟩

/-- A `<` and a name behind a text. The rest of the tag is read as in front of an attribute. -/
lemma Pending.reads_tag {l l' : Lexer} {text name : String} (h : l.Pending text)
    (isTagName : IsTagName name) {c : Char} {cs : List Char} {es : List Event}
    (ends : endsName c = true)
    (rest : Reads { l with mode := .beforeAttribute, text := "", tag := name } (c :: cs) es l') :
    l.Reads ('<' :: (name.toList ++ c :: cs)) (textEvents text ++ .openTag name :: es) l' := by
  have named := reads_tagName (l := { l with mode := .tagOpening, text := text }) rfl isTagName
  have tag := named.append (reads_behind_tagName rfl ends rest)
  simpa [pendingText_eq] using Reads.silent h.less tag

/-- A start tag behind a text. -/
lemma Pending.reads_startTag {l : Lexer} {text name : String} (h : l.Pending text)
    (isTagName : IsTagName name) {attributes : List (String × String)}
    (legible : ∀ a ∈ attributes, IsName a.1 ∧ '\x22' ∉ a.2.toList) (marked : Bool) :
    ∃ l', l.Reads
        ('<' :: (name.toList ++
          ((attributes.flatMap fun (name, value) =>
              ' ' :: name.toList ++ '=' :: '\x22' :: (value.toList ++ ['\x22'])) ++
            ((if marked then bindMark else "").toList ++ ['>']))))
        (textEvents text ++ (Piece.startTag name attributes marked).events) l' ∧
      l'.Pending "" := by
  have inTag : InTag { l with mode := .beforeAttribute, text := "", tag := name } :=
    ⟨rfl, h.unbound, rfl⟩
  obtain ⟨l₁, parts, inTag₁⟩ := reads_attributes inTag legible
  obtain ⟨l₂, ended, pending⟩ := reads_tagEnd inTag₁ marked
  have rest := parts.append ended
  -- The name ends in front of a blank, or in front of the end of the tag.
  obtain ⟨c, cs, list, ends⟩ : ∃ c cs,
      (attributes.flatMap fun (name, value) =>
          ' ' :: name.toList ++ '=' :: '\x22' :: (value.toList ++ ['\x22'])) ++
        ((if marked then bindMark else "").toList ++ ['>']) = c :: cs ∧ endsName c = true := by
    cases attributes with
    | cons a attributes => exact ⟨' ', _, rfl, by simp [endsName, isBlank]⟩
    | nil =>
      cases marked with
      | true => exact ⟨' ', _, rfl, by simp [endsName, isBlank]⟩
      | false => exact ⟨'>', _, rfl, by simp [endsName]⟩
  rw [list] at rest ⊢
  refine ⟨l₂, ?_, pending⟩
  simpa [Piece.events] using h.reads_tag isTagName ends rest

/-- An equals sign that no name stands in front of is a fault. -/
lemma Pending.fault_unnamed {l : Lexer} {text name : String} (h : l.Pending text)
    (isTagName : IsTagName name) {attributes : List (String × String)}
    (legible : ∀ a ∈ attributes, IsName a.1 ∧ '\x22' ∉ a.2.toList) (rest : List Char) :
    (l.writeList
      ('<' :: (name.toList ++
        ((attributes.flatMap fun (name, value) =>
            ' ' :: name.toList ++ '=' :: '\x22' :: (value.toList ++ ['\x22'])) ++ [' '])) ++
          '=' :: rest)).fault ≠ none := by
  have inTag : InTag { l with mode := .beforeAttribute, text := "", tag := name } :=
    ⟨rfl, h.unbound, rfl⟩
  obtain ⟨l₁, parts, inTag₁⟩ := reads_attributes inTag legible
  have blank : l₁.step ' ' = { lexer := l₁ } := by
    simp [Lexer.step, inTag₁.mode, stepBeforeAttribute, isBlank]
  have rest := parts.append (.single blank)
  obtain ⟨cs, list⟩ : ∃ cs, (attributes.flatMap fun (name, value) =>
      ' ' :: name.toList ++ '=' :: '\x22' :: (value.toList ++ ['\x22'])) ++ [' '] = ' ' :: cs := by
    cases attributes with
    | nil => exact ⟨_, rfl⟩
    | cons a attributes => exact ⟨_, rfl⟩
  rw [list] at rest ⊢
  have tag := h.reads_tag isTagName (by simp [endsName, isBlank]) rest
  rw [tag.writeList_append, writeList]
  have fault : l₁.step '=' = { lexer := l₁, fault := some (.markup (.inTag '=' l₁.tag)) } := by
    simp [Lexer.step, inTag₁.mode, stepBeforeAttribute, isBlank]
  rw [fault]
  exact Option.some_ne_none _

/-- The end of the input reports what is pending. -/
lemma Pending.finish {l : Lexer} {text : String} (h : l.Pending text) :
    l.finish.fault = none ∧ l.finish.events = textEvents text ++ [.finish] := by
  obtain ⟨-, ⟨mode, rfl⟩ | ⟨mode, rfl⟩⟩ := h
  · simp [Lexer.finish, mode, flush, Outcome.andThen, Outcome.after, pendingText_eq]
  · simp [Lexer.finish, mode, flush, Outcome.andThen, Outcome.after, pendingText_eq]

end Lexer

/-! ## Printed pieces -/

/-- A value without quotes has nothing to escape. -/
lemma escapeValue_eq_self {value : String} (unquoted : '\x22' ∉ value.toList) :
    escapeValue value = value := by
  have same : value.toList.flatMap (fun c => if c = '\x22' then "&quot;".toList else [c]) =
      value.toList := by
    conv_rhs => rw [← List.flatMap_singleton' value.toList]
    refine List.flatMap_congr fun c mem => ?_
    rw [if_neg]
    rintro rfl
    exact unquoted mem
  rw [escapeValue, same, String.ofList_toList]

/-- The markup of an attribute whose value has no quotes. -/
lemma toList_attributeMarkup (name : String) {value : String} (unquoted : '\x22' ∉ value.toList) :
    (attributeMarkup (name, .fixed value)).toList =
      ' ' :: name.toList ++ '=' :: '\x22' :: (value.toList ++ ['\x22']) := by
  simp [attributeMarkup, escapeValue_eq_self unquoted, toString]

namespace Piece

/-- The characters of a printed start tag. -/
lemma toList_print_startTag (name : String) {attributes : List (String × String)}
    (unquoted : ∀ a ∈ attributes, '\x22' ∉ a.2.toList) (marked : Bool) :
    (print (.startTag name attributes marked)).toList =
      '<' :: (name.toList ++
        ((attributes.flatMap fun (name, value) =>
            ' ' :: name.toList ++ '=' :: '\x22' :: (value.toList ++ ['\x22'])) ++
          ((if marked then bindMark else "").toList ++ ['>']))) := by
  have parts : (String.join ((attributes.map fun (name, value) =>
      (name, AttributeValue.fixed value)).map attributeMarkup)).toList =
      attributes.flatMap fun (name, value) =>
        ' ' :: name.toList ++ '=' :: '\x22' :: (value.toList ++ ['\x22']) := by
    rw [String.toList_join, List.map_map, List.flatMap_map]
    exact List.flatMap_congr fun a mem => toList_attributeMarkup a.1 (unquoted a mem)
  simp only [print, Frame.startTag, String.toList_append, parts]
  simp

/-- A piece other than text is read back, behind a text that is reported first. -/
lemma reads {l : Lexer} {text : String} (h : l.Pending text) {p : Piece} (legible : p.Legible)
    (notText : p.isText = false) :
    ∃ l', l.Reads p.print.toList (textEvents text ++ p.events) l' ∧ l'.Pending "" := by
  cases p with
  | text s => cases notText
  | comment s =>
    have printed : (print (.comment s)).toList =
        '<' :: '!' :: '-' :: '-' :: (s.toList ++ ['-', '-', '>']) := by
      simp [print, toString]
    rw [printed]
    exact h.reads_comment legible
  | endTag name =>
    have printed : (print (.endTag name)).toList = '<' :: '/' :: (name.toList ++ ['>']) := by
      simp [print, toString]
    rw [printed]
    exact h.reads_endTag legible
  | startTag name attributes marked =>
    obtain ⟨isTagName, legible⟩ := legible
    rw [toList_print_startTag name fun a mem => (legible a mem).2]
    exact h.reads_startTag isTagName legible marked

/-- A piece behind a text of another kind, with the text that is pending behind it. -/
lemma reads_next {l : Lexer} {text : String} (h : l.Pending text) {p : Piece} (legible : p.Legible)
    (behind : text = "" ∨ p.isText = false) :
    ∃ l' text' es, l.Reads p.print.toList es l' ∧ l'.Pending text' ∧
      es ++ textEvents text' = textEvents text ++ p.events ∧ (text' = "" ∨ p.isText = true) := by
  cases kind : p.isText with
  | false =>
    obtain ⟨l', reads, pending⟩ := reads h legible kind
    exact ⟨l', "", _, reads, pending, by simp [textEvents], .inl rfl⟩
  | true =>
    obtain rfl | notText := behind
    · cases p with
      | text s =>
        obtain ⟨l', reads, pending⟩ := h.reads_text legible.2
        exact ⟨l', s, [], reads, pending, by simp [textEvents, legible.1, events], .inr rfl⟩
      | _ => cases kind
    · rw [kind] at notText
      cases notText

/-- Behind a piece no text meets the pending one. -/
lemma TextsApart.behind {p : Piece} {ps : List Piece} (apart : TextsApart (p :: ps)) {text : String}
    (kind : text = "" ∨ p.isText = true) : text = "" ∨ ∀ q ∈ ps.head?, q.isText = false := by
  refine kind.imp id fun isText q mem => ?_
  have next := (List.isChain_cons.1 apart).1 q mem
  rw [isText] at next
  simpa using next

/-- Legible pieces are read back behind a text, if no text stands beside another. -/
lemma run {l : Lexer} {text : String} (h : l.Pending text) {ps : List Piece}
    (legible : ∀ p ∈ ps, p.Legible) (apart : TextsApart ps)
    (behind : text = "" ∨ ∀ p ∈ ps.head?, p.isText = false) :
    let o := (l.writeList (String.join (ps.map print)).toList).andThen Lexer.finish
    o.fault = none ∧ o.events = textEvents text ++ (ps.flatMap events ++ [.finish]) := by
  induction ps generalizing l text with
  | nil => simpa [Outcome.andThen, Outcome.after] using h.finish
  | cons p ps ih =>
    obtain ⟨here, others⟩ := List.forall_mem_cons.1 legible
    obtain ⟨l', text', es, reads, pending, reported, kind⟩ :=
      reads_next h here (behind.imp id fun notText => notText p rfl)
    obtain ⟨fault, later⟩ := ih pending others apart.of_cons (apart.behind kind)
    rw [List.map_cons, String.join_cons, String.toList_append, reads.writeList_append,
      Outcome.after_andThen]
    refine ⟨fault, ?_⟩
    rw [Outcome.after, later, ← List.append_assoc, reported, List.flatMap_cons]
    simp

/-- Whether a piece is legible but for attributes without a name. -/
def LegibleButNames : Piece → Prop
  | .startTag name attributes _ =>
    IsTagName name ∧ ∀ a ∈ attributes, (a.1 = "" ∨ IsName a.1) ∧ '\x22' ∉ a.2.toList
  | p => p.Legible

/-- A legible piece is so apart from its names. -/
lemma Legible.butNames {p : Piece} (legible : p.Legible) : p.LegibleButNames := by
  cases p with
  | startTag name attributes marked =>
    exact ⟨legible.1, fun a mem => ⟨.inr (legible.2 a mem).1, (legible.2 a mem).2⟩⟩
  | _ => exact legible

/-- The first attribute without a name. -/
lemma exists_unnamed {attributes : List (String × String)}
    (nearly : ∀ a ∈ attributes, (a.1 = "" ∨ IsName a.1) ∧ '\x22' ∉ a.2.toList)
    (illegible : ¬∀ a ∈ attributes, IsName a.1 ∧ '\x22' ∉ a.2.toList) :
    ∃ named value others, attributes = named ++ ("", value) :: others ∧
      ∀ a ∈ named, IsName a.1 ∧ '\x22' ∉ a.2.toList := by
  induction attributes with
  | nil => exact absurd (fun _ mem => absurd mem List.not_mem_nil) illegible
  | cons a attributes ih =>
    obtain ⟨name, value⟩ := a
    obtain ⟨⟨rfl | isName, unquoted⟩, nearly⟩ := List.forall_mem_cons.1 nearly
    · exact ⟨[], value, attributes, rfl, fun _ mem => absurd mem List.not_mem_nil⟩
    · have illegible : ¬∀ a ∈ attributes, IsName a.1 ∧ '\x22' ∉ a.2.toList := by
        intro legible
        exact illegible (List.forall_mem_cons.2 ⟨⟨isName, unquoted⟩, legible⟩)
      obtain ⟨named, value', others, rfl, legible⟩ := ih nearly illegible
      exact ⟨(name, value) :: named, value', others, rfl,
        List.forall_mem_cons.2 ⟨⟨isName, unquoted⟩, legible⟩⟩

/-- A tag with an attribute that has no name is not read. -/
lemma fault_of_illegible {l : Lexer} {text : String} (h : l.Pending text) {p : Piece}
    (nearly : p.LegibleButNames) (illegible : ¬p.Legible) (rest : List Char) :
    (l.writeList (p.print.toList ++ rest)).fault ≠ none := by
  cases p with
  | startTag name attributes marked =>
    obtain ⟨isTagName, nearly⟩ := nearly
    have unquoted : ∀ a ∈ attributes, '\x22' ∉ a.2.toList := fun a mem => (nearly a mem).2
    obtain ⟨named, value, others, rfl, legible⟩ :=
      exists_unnamed nearly fun legible => illegible ⟨isTagName, legible⟩
    rw [toList_print_startTag name unquoted]
    have fault := h.fault_unnamed isTagName legible
      ('\x22' :: (value.toList ++ ['\x22']) ++
        ((others.flatMap fun (name, value) =>
            ' ' :: name.toList ++ '=' :: '\x22' :: (value.toList ++ ['\x22'])) ++
          ((if marked then bindMark else "").toList ++ ['>']) ++ rest))
    simpa using fault
  | _ => exact absurd nearly illegible

/-- Among pieces that are read, an attribute without a name is a fault. -/
lemma run_fault {l : Lexer} {text : String} (h : l.Pending text) {ps : List Piece}
    (nearly : ∀ p ∈ ps, p.LegibleButNames) (illegible : ∃ p ∈ ps, ¬p.Legible)
    (apart : TextsApart ps) (behind : text = "" ∨ ∀ p ∈ ps.head?, p.isText = false) :
    (l.writeList (String.join (ps.map print)).toList).fault ≠ none := by
  induction ps generalizing l text with
  | nil =>
    obtain ⟨p, mem, -⟩ := illegible
    cases mem
  | cons p ps ih =>
    obtain ⟨here, others⟩ := List.forall_mem_cons.1 nearly
    rw [List.map_cons, String.join_cons, String.toList_append]
    by_cases legible : p.Legible
    · have later : ∃ q ∈ ps, ¬q.Legible := by
        obtain ⟨q, mem, not⟩ := illegible
        obtain rfl | mem := List.mem_cons.1 mem
        · exact absurd legible not
        · exact ⟨q, mem, not⟩
      obtain ⟨l', text', es, reads, pending, -, kind⟩ :=
        reads_next h legible (behind.imp id fun notText => notText p rfl)
      rw [reads.writeList_append]
      exact ih pending others later apart.of_cons (apart.behind kind)
    · exact fault_of_illegible h here legible _

end Piece

/-- Printed markup is read back piece by piece: if every piece is legible and no text stands beside
another, a fresh lexer reads all of it without a fault, and reports the events of the pieces in
order. -/
theorem tokenize_print {ps : List Piece} (legible : ∀ p ∈ ps, p.Legible)
    (apart : Piece.TextsApart ps) :
    (tokenize (String.join (ps.map Piece.print))).fault = none ∧
      (tokenize (String.join (ps.map Piece.print))).events =
        ps.flatMap Piece.events ++ [.finish] := by
  have start : Lexer.empty.Pending "" := ⟨rfl, .inl ⟨rfl, rfl⟩⟩
  have read := Piece.run start legible apart (.inl rfl)
  simpa only [tokenize, Lexer.write, textEvents, if_true, List.nil_append] using read

/-- A text that ends in a `<`, a comment with dashes at its ends, and a tag with two attributes. -/
theorem tokenize_print_tag :
    let ps : List Piece :=
      [.text "1 < 2<", .comment "->-", .startTag "p" [("a", "<b>"), ("c", "")] true, .endTag "P"]
    ((∀ p ∈ ps, p.Legible) ∧ Piece.TextsApart ps) ∧
      String.join (ps.map Piece.print) =
        "1 < 2<<!--->--->" ++ "<p a=\"<b>\" c=\"\" data-bind></P>" ∧
      (tokenize (String.join (ps.map Piece.print))).fault = none ∧
      (tokenize (String.join (ps.map Piece.print))).events =
        [.text "1 < 2<", .comment "->-", .openTag "p", .attribute "a" (some "<b>"),
          .attribute "c" (some ""), .attribute "data-bind" none, .openTagEnd false, .closeTag "P",
          .finish] := by
  intro ps
  have dashes : IsCommentText "->-" := by simp only [IsCommentText]; decide
  have names : IsName "a" ∧ IsName "c" := by simp [IsName, endsName, isBlank, isQuote]
  have legible : ∀ p ∈ ps, p.Legible := by
    simp [ps, Piece.Legible, dashes, names, IsPlain, IsTagName, IsEndName, opensTag, isLetter,
      endsName, isBlank, isQuote, -Prod.forall]
  have apart : Piece.TextsApart ps := by simp [ps, Piece.TextsApart, Piece.isText]
  exact ⟨⟨legible, apart⟩, rfl, tokenize_print legible apart⟩

end TaggedMarkup.Markup

import Mathlib.Tactic.Common
import TaggedMarkup.Markup.Lexer

/-!
# Chunks and flushes

The lexer keeps all that it knows in its state, so it makes no difference how the markup is cut into
chunks. Text may also be flushed between two chunks; then it is reported in several parts, and the
state is behind that of an undivided run by the text already reported (`Lexer.Behind`).

`Outcome.Trails` compares an undivided run with a divided one. One step keeps it
(`Lexer.Behind.step`), a flush keeps it (`Lexer.Behind.flush`), and so does a whole run
(`Lexer.Behind.feedAll`). An undivided run never reports two texts in a row
(`Lexer.joinTexts_run`), so it is what a divided run becomes once its texts are joined.
-/

namespace TaggedMarkup.Markup

/-- The last character of a text is that of its second half. -/
lemma append_push (a b : String) (c : Char) : a ++ b.push c = (a ++ b).push c := by
  rw [← String.toList_inj]
  simp

/-! ## Outcomes one behind the other -/

namespace Outcome

/-- No events in front change nothing. -/
@[simp] lemma after_nil (o : Outcome) : o.after [] = o := rfl

/-- Events in front of events. -/
lemma after_after (es fs : List Event) (o : Outcome) :
    (o.after fs).after es = o.after (es ++ fs) := by
  simp only [after, List.append_assoc]

/-- Without a fault the next step follows. -/
lemma andThen_of_none {o : Outcome} (fault : o.fault = none) (next : Lexer → Outcome) :
    o.andThen next = (next o.lexer).after o.events := by
  simp only [andThen, fault]

/-- After a fault nothing follows. -/
lemma andThen_of_some {o : Outcome} {cause : Cause} (fault : o.fault = some cause)
    (next : Lexer → Outcome) : o.andThen next = o := by
  simp only [andThen, fault]

/-- Events in front of an outcome stay in front of what follows it. -/
lemma after_andThen (es : List Event) (o : Outcome) (next : Lexer → Outcome) :
    (o.after es).andThen next = (o.andThen next).after es := by
  cases fault : o.fault with
  | none =>
    rw [andThen_of_none fault, andThen_of_none (o := o.after es) fault, after_after]
    rfl
  | some cause => rw [andThen_of_some fault, andThen_of_some (o := o.after es) fault]

/-- Three steps in a row may be put together in either order. -/
lemma andThen_assoc (o : Outcome) (f g : Lexer → Outcome) :
    (o.andThen f).andThen g = o.andThen fun l => (f l).andThen g := by
  cases fault : o.fault with
  | none => rw [andThen_of_none fault, andThen_of_none fault, after_andThen]
  | some cause =>
    rw [andThen_of_some fault, andThen_of_some fault, andThen_of_some fault]

end Outcome

namespace Lexer

/-- No characters change nothing. -/
@[simp] lemma writeList_nil (l : Lexer) : l.writeList [] = { lexer := l } := rfl

/-- To write two lists of characters is to write one after the other. -/
lemma writeList_append (l : Lexer) (cs ds : List Char) :
    l.writeList (cs ++ ds) = (l.writeList cs).andThen fun l' => l'.writeList ds := by
  induction cs generalizing l with
  | nil => rfl
  | cons c cs ih => simp only [List.cons_append, writeList, ih, Outcome.andThen_assoc]

end Lexer

/-! ## Joined texts -/

/-- Whether an event reports text. -/
def Event.isText : Event → Bool
  | .text _ => true
  | _ => false

/-- Puts an event in front of others, where a text joins the text behind it. -/
def Event.join : Event → List Event → List Event
  | .text a, .text b :: es => .text (a ++ b) :: es
  | e, es => e :: es

/-- Events with adjacent texts joined to one. -/
def joinTexts (es : List Event) : List Event := es.foldr Event.join []

/-- The report of a text. There is none for the empty text. -/
def textEvents (s : String) : List Event := if s = "" then [] else [.text s]

/-- The pending text is reported as a text, if there is any. -/
lemma Lexer.pendingText_eq (l : Lexer) : l.pendingText = textEvents l.text := rfl

/-- An event is joined with what follows it. -/
lemma joinTexts_cons (e : Event) (es : List Event) :
    joinTexts (e :: es) = e.join (joinTexts es) := rfl

/-- Events are joined with what follows them, from the last one on. -/
lemma joinTexts_append (es fs : List Event) :
    joinTexts (es ++ fs) = es.foldr Event.join (joinTexts fs) :=
  List.foldr_append ..

/-- Two texts join what is behind them as one. -/
lemma Event.join_text (a b : String) (es : List Event) :
    (Event.text a).join ((Event.text b).join es) = (Event.text (a ++ b)).join es := by
  cases es with
  | nil => rfl
  | cons e es => cases e <;> simp [Event.join, String.append_assoc]

/-- An event joins the events behind it before or after these are joined. -/
lemma joinTexts_join_append (e : Event) (es fs : List Event) :
    joinTexts (e.join es ++ fs) = e.join (joinTexts (es ++ fs)) := by
  cases e with
  | text a =>
    cases es with
    | nil => rfl
    | cons e es =>
      cases e with
      | text b => exact (Event.join_text a b _).symm
      | _ => rfl
  | _ => rfl

/-- What stands in front may be joined first. -/
lemma joinTexts_joinTexts_append (es fs : List Event) :
    joinTexts (joinTexts es ++ fs) = joinTexts (es ++ fs) := by
  induction es with
  | nil => rfl
  | cons e es ih => rw [joinTexts_cons, joinTexts_join_append, ih, List.cons_append, joinTexts_cons]

/-- Events in front that are joined to the same may be exchanged. -/
lemma joinTexts_congr_left {es es' : List Event} (h : joinTexts es = joinTexts es')
    (fs : List Event) : joinTexts (es ++ fs) = joinTexts (es' ++ fs) := by
  rw [← joinTexts_joinTexts_append es, h, joinTexts_joinTexts_append]

/-- Events behind that are joined to the same may be exchanged. -/
lemma joinTexts_congr_right {fs fs' : List Event} (h : joinTexts fs = joinTexts fs')
    (es : List Event) : joinTexts (es ++ fs) = joinTexts (es ++ fs') := by
  rw [joinTexts_append, joinTexts_append, h]

/-- A text may be reported in two parts. -/
lemma joinTexts_textEvents (a b : String) :
    joinTexts (textEvents a ++ textEvents b) = joinTexts (textEvents (a ++ b)) := by
  by_cases ha : a = ""
  · simp [textEvents, ha]
  · by_cases hb : b = ""
    · simp [textEvents, hb]
    · simp [textEvents, ha, hb, joinTexts, Event.join]

/-! ## Divided runs -/

/-- A part of a divided run: a chunk of markup, or a flush. -/
inductive Input where
  | chunk (text : String)
  | flush
  deriving DecidableEq, Repr

/-- The markup of a part. -/
def Input.text : Input → String
  | .chunk text => text
  | .flush => ""

namespace Lexer

/-- Takes a part of a divided run. -/
def feed (l : Lexer) : Input → Outcome
  | .chunk text => l.write text
  | .flush => l.flush

/-- Takes the parts of a divided run up to the first fault. -/
def feedAll (l : Lexer) : List Input → Outcome
  | [] => { lexer := l }
  | i :: is => (l.feed i).andThen fun l' => l'.feedAll is

/-- Whether the lexer is among text, where a `<` may have been read. -/
def InText (l : Lexer) : Prop := l.mode = .text ∨ l.mode = .tagOpening

/-- The second state is the first one, except that it has already reported a part of its pending
text. Only among text there is such a part. -/
structure Behind (l l' : Lexer) (flushed : String) : Prop where
  state : l = { l' with text := flushed ++ l'.text }
  inText : flushed ≠ "" → l.InText

end Lexer

/-- The second outcome is that of a run which has already reported a part of the text that was
pending before the first: both end in the same fault or in none, the states differ by a reported
part, and the events are the same when the texts are joined. -/
structure Outcome.Trails (o o' : Outcome) (flushed : String) : Prop where
  fault : o'.fault = o.fault
  rest : ∃ flushed', o.lexer.Behind o'.lexer flushed' ∧
    joinTexts (textEvents flushed ++ o'.events) = joinTexts (o.events ++ textEvents flushed') ∧
    (o.fault ≠ none → flushed' = "")

namespace Outcome.Trails

/-- An outcome that trails another does so after a next step that keeps it behind. -/
lemma andThen {o o' : Outcome} {flushed : String} {next next' : Lexer → Outcome}
    (h : o.Trails o' flushed)
    (h' : ∀ {flushed'}, o.lexer.Behind o'.lexer flushed' →
      (next o.lexer).Trails (next' o'.lexer) flushed') :
    (o.andThen next).Trails (o'.andThen next') flushed := by
  obtain ⟨fault, flushed', behind, events, last⟩ := h
  cases none : o.fault with
  | some cause =>
    rw [none] at fault
    rw [andThen_of_some none, andThen_of_some fault]
    exact ⟨fault.trans none.symm, flushed', behind, events, last⟩
  | none =>
    rw [none] at fault
    rw [andThen_of_none none, andThen_of_none fault]
    obtain ⟨fault', flushed'', behind', events', last'⟩ := h' behind
    refine ⟨fault', flushed'', behind', ?_, last'⟩
    calc joinTexts (textEvents flushed ++ (o'.events ++ (next' o'.lexer).events))
        = joinTexts ((textEvents flushed ++ o'.events) ++ (next' o'.lexer).events) := by
          rw [List.append_assoc]
      _ = joinTexts ((o.events ++ textEvents flushed') ++ (next' o'.lexer).events) :=
          joinTexts_congr_left events _
      _ = joinTexts (o.events ++ (textEvents flushed' ++ (next' o'.lexer).events)) := by
          rw [List.append_assoc]
      _ = joinTexts (o.events ++ ((next o.lexer).events ++ textEvents flushed'')) :=
          joinTexts_congr_right events' _
      _ = joinTexts ((o.events ++ (next o.lexer).events) ++ textEvents flushed'') := by
          rw [List.append_assoc]

/-- A run trails itself if nothing has been reported. -/
lemma refl (o : Outcome) : o.Trails o "" :=
  ⟨rfl, "", ⟨by simp, fun h => absurd rfl h⟩, by simp [textEvents], fun _ => rfl⟩

/-- Steps without events trail each other if their states do. -/
lemma silent {l l' : Lexer} {flushed : String} (h : l.Behind l' flushed) :
    Outcome.Trails { lexer := l } { lexer := l' } flushed :=
  ⟨rfl, flushed, h, by simp, fun h => absurd rfl h⟩

end Outcome.Trails

namespace Lexer.Behind

open Outcome (Trails)

variable {l l' : Lexer} {flushed : String}

/-- Outside of text there is no difference. -/
lemma eq_of_not_inText (h : l.Behind l' flushed) (outside : ¬l.InText) :
    flushed = "" ∧ l = l' := by
  have none : flushed = "" := by
    by_contra some
    exact outside (h.inText some)
  refine ⟨none, ?_⟩
  rw [h.state, none]
  simp

/-- A character of text joins what is pending in both states. -/
lemma stepText (h : l.Behind l' flushed) (text : l.mode = .text) (c : Char) :
    Trails (l.stepText c) (l'.stepText c) flushed := by
  obtain ⟨rfl, -⟩ := h
  unfold Lexer.stepText
  split
  · exact .silent ⟨rfl, fun _ => .inr rfl⟩
  · refine .silent ⟨?_, fun _ => .inl text⟩
    simp only [append_push]

/-- The pending text of both states, when a tag or a comment starts. -/
lemma pendingText (h : l.Behind l' flushed) {o o' : Outcome} (lexer : o.lexer = o'.lexer)
    (events : o.events = l.pendingText) (events' : o'.events = l'.pendingText)
    (fault : o'.fault = o.fault) : Trails o o' flushed := by
  refine ⟨fault, "", ⟨by rw [lexer]; simp, fun h => absurd rfl h⟩, ?_, fun _ => rfl⟩
  rw [events, events', pendingText_eq, pendingText_eq, h.state, joinTexts_textEvents]
  simp [textEvents]

/-- The character behind a `<` joins what is pending, or ends it, in both states. -/
lemma stepTagOpening (h : l.Behind l' flushed) (c : Char) :
    Trails (l.stepTagOpening c) (l'.stepTagOpening c) flushed := by
  have state := h.state
  unfold Lexer.stepTagOpening
  split
  · exact h.pendingText (by rw [state]) rfl rfl rfl
  · split
    · exact h.pendingText (by rw [state]) rfl rfl rfl
    · split
      · exact h.pendingText (by rw [state]) rfl rfl rfl
      · refine stepText ⟨?_, fun _ => .inl rfl⟩ rfl c
        rw [state]
        simp only [append_push]

/-- A character makes no difference. -/
lemma step (h : l.Behind l' flushed) (c : Char) : Trails (l.step c) (l'.step c) flushed := by
  by_cases inText : l.InText
  · have mode : l'.mode = l.mode := by rw [h.state]
    rcases inText with text | opening
    · have here := h.stepText text c
      simpa only [Lexer.step, mode, text] using here
    · have here := h.stepTagOpening c
      simpa only [Lexer.step, mode, opening] using here
  · obtain ⟨rfl, rfl⟩ := h.eq_of_not_inText inText
    exact .refl _

/-- A lexer that is behind stays behind over any characters. -/
lemma writeList (h : l.Behind l' flushed) (cs : List Char) :
    Trails (l.writeList cs) (l'.writeList cs) flushed := by
  induction cs generalizing l l' flushed with
  | nil => exact .silent h
  | cons c cs ih => exact (h.step c).andThen ih

/-- A flush makes no difference. -/
lemma flush (h : l.Behind l' flushed) : Trails { lexer := l } l'.flush flushed := by
  have mode : l'.mode = l.mode := by rw [h.state]
  unfold Lexer.flush
  split
  · rename_i text
    refine ⟨rfl, l.text, ⟨?_, fun _ => .inl (mode ▸ text)⟩, ?_, fun h => absurd rfl h⟩
    · rw [h.state]
      simp
    · rw [pendingText_eq, joinTexts_textEvents, h.state]
      rfl
  · exact .silent h

/-- A divided run trails the undivided one. -/
lemma feedAll (h : l.Behind l' flushed) (is : List Input) :
    Trails (l.writeList (is.flatMap fun i => i.text.toList)) (l'.feedAll is) flushed := by
  induction is generalizing l l' flushed with
  | nil => exact .silent h
  | cons i is ih =>
    rw [List.flatMap_cons, writeList_append]
    refine Trails.andThen ?_ ih
    cases i with
    | chunk text => exact h.writeList text.toList
    | flush => exact h.flush

/-- The end of the input makes no difference, and leaves nothing to report. -/
lemma finish (h : l.Behind l' flushed) :
    l'.finish.fault = l.finish.fault ∧
      joinTexts (textEvents flushed ++ l'.finish.events) = joinTexts l.finish.events := by
  by_cases inText : l.InText
  · have mode : l'.mode = l.mode := by rw [h.state]
    have reported (s : String) : joinTexts (textEvents flushed ++ (textEvents s ++ [.finish])) =
        joinTexts (textEvents (flushed ++ s) ++ [.finish]) := by
      rw [← List.append_assoc]
      exact joinTexts_congr_left (joinTexts_textEvents flushed s) _
    rcases inText with text | opening
    · simp only [Lexer.finish, mode, text, Lexer.flush, Outcome.andThen, Outcome.after,
        pendingText_eq, true_and]
      rw [reported, h.state]
    · simp only [Lexer.finish, mode, opening, Lexer.flush, Outcome.andThen, Outcome.after,
        pendingText_eq, true_and]
      rw [reported, h.state, append_push]
  · obtain ⟨rfl, rfl⟩ := h.eq_of_not_inText inText
    simp [textEvents]

end Lexer.Behind

/-! ## Undivided runs -/

/-- Whether a text may stand behind an event. -/
def Event.separates : Event → Bool
  | .text _ | .finish => false
  | _ => true

/-- No text stands behind a text or behind the end, where `may` tells whether a text may come
first. -/
inductive Spaced : Prop → List Event → Prop
  | nil {may : Prop} : Spaced may []
  | cons {may : Prop} {e : Event} {es : List Event} (first : e.isText = true → may)
      (rest : Spaced (e.separates = true) es) : Spaced may (e :: es)

/-- An event that separates texts is no text. -/
lemma Event.not_isText_of_separates {e : Event} (h : e.separates = true) : ¬e.isText = true := by
  cases e <;> simp_all [Event.separates, Event.isText]

/-- A text may come first if it might before. -/
lemma Spaced.mono {may may' : Prop} {es : List Event} (imp : may → may') (h : Spaced may es) :
    Spaced may' es := by
  cases h with
  | nil => exact .nil
  | cons first rest => exact .cons (fun text => imp (first text)) rest

/-- Events that separate texts may stand in front of everything. -/
lemma Spaced.append {may may' : Prop} {es fs : List Event} (rest : Spaced may' es)
    (separate : ∀ e ∈ fs, e.separates = true) (imp : fs = [] → may' → may) :
    Spaced may (fs ++ es) := by
  induction fs generalizing may with
  | nil => exact rest.mono (imp rfl)
  | cons f fs ih =>
    obtain ⟨here, separate⟩ := List.forall_mem_cons.1 separate
    refine .cons (fun text => ?_) (ih separate fun _ _ => here)
    exact absurd text (Event.not_isText_of_separates here)

/-- Texts that are apart stay as they are. -/
lemma Spaced.joinTexts_eq {may : Prop} {es : List Event} (h : Spaced may es) :
    joinTexts es = es := by
  induction h with
  | nil => rfl
  | @cons may e es first rest ih =>
    rw [joinTexts_cons, ih]
    cases rest with
    | nil => cases e <;> rfl
    | @cons _ f es first rest =>
      cases e with
      | text a =>
        cases f with
        | text b => cases first rfl
        | _ => rfl
      | _ => rfl

/-- The outcome of a step outside of text: no text is reported, and if the step leads into text, it
reports something. -/
structure Outcome.Tagged (o : Outcome) : Prop where
  separate : ∀ e ∈ o.events, e.separates = true
  reports : o.lexer.InText → o.events ≠ []

/-- The events of an outcome lead from the state in front of it to the state behind it without two
texts in a row. -/
structure Outcome.Spaces (o : Outcome) (l : Lexer) : Prop where
  spaced : ∀ {es}, Spaced o.lexer.InText es → Spaced l.InText (o.events ++ es)

namespace Outcome

/-- An outcome outside of texts without events. -/
lemma Tagged.silent {o : Outcome} (events : o.events = []) (outside : ¬o.lexer.InText) :
    o.Tagged := by
  refine ⟨?_, fun inText => absurd inText outside⟩
  rw [events]
  simp

/-- An outcome with one event, which separates texts. -/
lemma Tagged.single {o : Outcome} {e : Event} (events : o.events = [e])
    (separates : e.separates = true) : o.Tagged := by
  refine ⟨?_, fun _ => ?_⟩
  · rw [events]
    simpa using separates
  · rw [events]
    simp

/-- An event that separates texts in front of an outcome. -/
lemma Tagged.after {o : Outcome} {e : Event} (h : o.Tagged) (separates : e.separates = true) :
    (o.after [e]).Tagged := by
  refine ⟨?_, fun _ => by simp [Outcome.after]⟩
  simp only [Outcome.after, List.cons_append, List.nil_append, List.mem_cons, forall_eq_or_imp]
  exact ⟨separates, h.separate⟩

/-- An outcome that starts with no text keeps texts apart from any lexer. -/
lemma Tagged.spaces {o : Outcome} (h : o.Tagged) (l : Lexer) : o.Spaces l :=
  ⟨fun rest => rest.append h.separate fun none inText => absurd none (h.reports inText)⟩

/-- Two steps that keep texts apart do so one after the other. -/
lemma Spaces.andThen {l : Lexer} {o : Outcome} {next : Lexer → Outcome} (h : o.Spaces l)
    (h' : (next o.lexer).Spaces o.lexer) : (o.andThen next).Spaces l := by
  cases fault : o.fault with
  | none =>
    rw [andThen_of_none fault]
    refine ⟨fun rest => ?_⟩
    simp only [Outcome.after, List.append_assoc]
    exact h.spaced (h'.spaced rest)
  | some cause =>
    rw [andThen_of_some fault]
    exact h

end Outcome

namespace Lexer

open Outcome (Tagged)

/-- A lexer in another mode is in no text. -/
lemma not_inText {l : Lexer} {m : Mode} (mode : l.mode = m)
    (outside : (m == .text || m == .tagOpening) = false) : ¬l.InText := by
  rintro (text | opening)
  · rw [← mode, text] at outside
    cases outside
  · rw [← mode, opening] at outside
    cases outside

/-- A step in front of an attribute reports no text. -/
lemma stepBeforeAttribute_tagged {l : Lexer} (outside : ¬l.InText) (c : Char) :
    (l.stepBeforeAttribute c).Tagged := by
  unfold stepBeforeAttribute
  split
  · exact .silent rfl outside
  · split
    · exact .single rfl rfl
    · split
      · exact .silent rfl (not_inText rfl rfl)
      · split
        · exact .silent rfl outside
        · exact .silent rfl (not_inText rfl rfl)

/-- A step behind the name of an attribute reports no text. -/
lemma stepAfterAttribute_tagged {l : Lexer} (outside : ¬l.InText) (c : Char) :
    (l.stepAfterAttribute c).Tagged := by
  unfold stepAfterAttribute
  split
  · exact .silent rfl outside
  · split
    · exact .silent rfl (not_inText rfl rfl)
    · exact (stepBeforeAttribute_tagged (not_inText rfl rfl) c).after rfl

/-- A step in front of a value reports no text. -/
lemma stepBeforeValue_tagged {l : Lexer} (outside : ¬l.InText) (c : Char) :
    (l.stepBeforeValue c).Tagged := by
  unfold stepBeforeValue
  split
  · exact .silent rfl outside
  · split
    · exact .silent rfl (not_inText rfl rfl)
    · split
      · exact (Tagged.single rfl rfl).after rfl
      · exact .silent rfl (not_inText rfl rfl)

/-- A step in a quoted value reports no text. -/
lemma stepQuotedValue_tagged {l : Lexer} (outside : ¬l.InText) (quote c : Char) :
    (l.stepQuotedValue quote c).Tagged := by
  unfold stepQuotedValue
  split
  · split
    · exact .silent rfl (not_inText rfl rfl)
    · exact .single rfl rfl
  · split
    · exact .silent rfl outside
    · exact .silent rfl outside

/-- A step in an unquoted value reports no text. -/
lemma stepUnquotedValue_tagged {l : Lexer} (outside : ¬l.InText) (c : Char) :
    (l.stepUnquotedValue c).Tagged := by
  unfold stepUnquotedValue
  split
  · refine Tagged.after ?_ rfl
    split
    · exact .single rfl rfl
    · exact .silent rfl (not_inText rfl rfl)
  · exact .silent rfl outside

/-- A step in a bogus comment reports no text. -/
lemma stepBogusComment_tagged {l : Lexer} (outside : ¬l.InText) (c : Char) :
    (l.stepBogusComment c).Tagged := by
  unfold stepBogusComment
  split
  · exact .single rfl rfl
  · exact .silent rfl outside

/-- A step in an end tag reports no text. -/
lemma stepClosing_tagged {l : Lexer} (outside : ¬l.InText) (c : Char) :
    (l.stepClosingName c).Tagged ∧ (l.stepAfterClosingName c).Tagged := by
  unfold stepClosingName stepAfterClosingName
  split
  · exact ⟨.single rfl rfl, .single rfl rfl⟩
  · split
    · exact ⟨.silent rfl (not_inText rfl rfl), .silent rfl outside⟩
    · exact ⟨.silent rfl outside, .silent rfl outside⟩

/-- A step at the end of a comment reports no text. -/
lemma stepCommentEnd_tagged (l : Lexer) (outside : ¬l.InText) (c : Char) :
    (l.stepCommentEnd c).Tagged := by
  unfold stepCommentEnd
  split
  · exact .single rfl rfl
  · split
    · exact .silent rfl outside
    · exact .silent rfl (not_inText rfl rfl)

/-- No step outside of texts reports a text. -/
lemma step_tagged {l : Lexer} (outside : ¬l.InText) (c : Char) : (l.step c).Tagged := by
  unfold step
  split
  case h_1 mode => exact absurd (.inl mode) outside
  case h_2 mode => exact absurd (.inr mode) outside
  case h_3 =>
    unfold stepTagName
    split
    · exact (stepBeforeAttribute_tagged (not_inText rfl rfl) c).after rfl
    · exact .silent rfl outside
  case h_4 => exact stepBeforeAttribute_tagged outside c
  case h_5 =>
    unfold stepAttributeName
    split
    · exact stepAfterAttribute_tagged (not_inText rfl rfl) c
    · exact .silent rfl outside
  case h_6 => exact stepAfterAttribute_tagged outside c
  case h_7 => exact stepBeforeValue_tagged outside c
  case h_8 quote _ => exact stepQuotedValue_tagged outside quote c
  case h_9 => exact stepUnquotedValue_tagged outside c
  case h_10 =>
    unfold stepSelfClosing
    split
    · exact .single rfl rfl
    · exact stepBeforeAttribute_tagged (not_inText rfl rfl) c
  case h_11 => exact (stepClosing_tagged outside c).1
  case h_12 => exact (stepClosing_tagged outside c).2
  case h_13 =>
    unfold stepDeclaration
    split
    · exact .silent rfl (not_inText rfl rfl)
    · exact stepBogusComment_tagged (not_inText rfl rfl) c
  case h_14 =>
    unfold stepCommentDash
    split
    · exact .silent rfl (not_inText rfl rfl)
    · exact stepBogusComment_tagged (not_inText rfl rfl) c
  case h_15 =>
    unfold stepComment
    split
    · exact .silent rfl (not_inText rfl rfl)
    · exact .silent rfl outside
  case h_16 =>
    unfold stepCommentEndDash
    split
    · exact .silent rfl (not_inText rfl rfl)
    · exact .silent rfl (not_inText rfl rfl)
  case h_17 => exact stepCommentEnd_tagged l outside c
  case h_18 => exact stepBogusComment_tagged outside c

/-- A character among text reports nothing, unless it leads out of the text. -/
lemma step_inText {l : Lexer} (inText : l.InText) (c : Char) :
    (l.step c).events = [] ∨
      (l.step c).events = l.pendingText ∧ ¬(l.step c).lexer.InText := by
  have text (l : Lexer) : (l.stepText c).events = [] := by
    unfold stepText
    split <;> rfl
  rcases inText with mode | mode
  · simp only [step, mode]
    exact .inl (text l)
  · simp only [step, mode]
    unfold stepTagOpening
    split
    · exact .inr ⟨rfl, not_inText rfl rfl⟩
    · split
      · exact .inr ⟨rfl, not_inText rfl rfl⟩
      · split
        · exact .inr ⟨rfl, not_inText rfl rfl⟩
        · exact .inl (text _)

/-- A character leaves no texts in a row. -/
lemma step_spaces (l : Lexer) (c : Char) : (l.step c).Spaces l := by
  by_cases inText : l.InText
  · refine ⟨fun rest => ?_⟩
    rcases step_inText inText c with events | ⟨events, outside⟩
    · rw [events]
      exact rest.mono fun _ => inText
    · rw [events, pendingText]
      split
      · exact rest.mono fun _ => inText
      · exact .cons (fun _ => inText) (rest.mono fun inText => absurd inText outside)
  · exact (step_tagged inText c).spaces l

/-- Any characters keep texts apart. -/
lemma writeList_spaces (l : Lexer) (cs : List Char) : (l.writeList cs).Spaces l := by
  induction cs generalizing l with
  | nil => exact ⟨fun rest => rest⟩
  | cons c cs ih => exact (step_spaces l c).andThen (ih _)

/-- A chunk keeps texts apart. -/
lemma write_spaces (l : Lexer) (chunk : String) : (l.write chunk).Spaces l :=
  writeList_spaces l chunk.toList

/-- The end of the input leaves no texts in a row. -/
lemma finish_spaced (l : Lexer) : Spaced l.InText l.finish.events := by
  have last {may : Prop} (h : may) (s : String) : Spaced may (textEvents s ++ [.finish]) := by
    have finished {may : Prop} : Spaced may [.finish] := .cons (fun text => by cases text) .nil
    unfold textEvents
    split
    · exact finished
    · exact .cons (fun _ => h) finished
  unfold finish
  split
  case h_1 mode =>
    simp only [flush, mode]
    exact last (.inl mode) l.text
  case h_2 mode => exact last (.inr mode) (l.text.push '<')
  all_goals exact .nil

/-- An undivided run reports no texts in a row. -/
lemma run_spaced (l : Lexer) (chunk : String) :
    Spaced l.InText ((l.write chunk).andThen finish).events := by
  have spaces := write_spaces l chunk
  cases fault : (l.write chunk).fault with
  | none =>
    rw [Outcome.andThen_of_none fault]
    exact spaces.spaced (finish_spaced _)
  | some cause =>
    rw [Outcome.andThen_of_some fault, ← List.append_nil (l.write chunk).events]
    exact spaces.spaced .nil

/-! ## Division makes no difference -/

/-- However markup is cut into chunks, and wherever text is flushed between them, the run ends in
the same fault or in none. The state behind the last part is that of the undivided run, less the
part of its pending text that has been reported already. At the end of the input, or at the fault,
the events are those of the undivided run, when adjacent texts are joined. -/
theorem feedAll_eq_write (parts : List Input) :
    let whole := empty.write (String.join (parts.map Input.text))
    let divided := empty.feedAll parts
    divided.fault = whole.fault ∧
      (∃ reported, whole.lexer = { divided.lexer with text := reported ++ divided.lexer.text } ∧
        joinTexts divided.events = joinTexts (whole.events ++ textEvents reported)) ∧
      (divided.andThen finish).fault = (whole.andThen finish).fault ∧
      joinTexts (divided.andThen finish).events = (whole.andThen finish).events := by
  have start : empty.Behind empty "" := ⟨by simp [empty], fun h => absurd rfl h⟩
  have list : (String.join (parts.map Input.text)).toList =
      parts.flatMap fun i => i.text.toList := by
    simp [List.flatMap_map]
  have spaced := empty.run_spaced (String.join (parts.map Input.text))
  simp only [write, list] at spaced ⊢
  rw [← spaced.joinTexts_eq]
  obtain ⟨fault, reported, behind, events, last⟩ := start.feedAll parts
  generalize empty.writeList (parts.flatMap fun i => i.text.toList) = whole at *
  generalize empty.feedAll parts = divided at *
  have events : joinTexts divided.events = joinTexts (whole.events ++ textEvents reported) := by
    simpa [textEvents] using events
  refine ⟨fault, ⟨reported, behind.state, events⟩, ?_⟩
  cases none : whole.fault with
  | some cause =>
    rw [none] at fault
    rw [Outcome.andThen_of_some none, Outcome.andThen_of_some fault, events,
      last (by rw [none]; simp)]
    simp [textEvents, fault, none]
  | none =>
    rw [none] at fault
    rw [Outcome.andThen_of_none none, Outcome.andThen_of_none fault]
    obtain ⟨fault', events'⟩ := behind.finish
    refine ⟨fault', ?_⟩
    calc joinTexts (divided.events ++ divided.lexer.finish.events)
        = joinTexts ((whole.events ++ textEvents reported) ++ divided.lexer.finish.events) :=
          joinTexts_congr_left events _
      _ = joinTexts (whole.events ++ (textEvents reported ++ divided.lexer.finish.events)) := by
          rw [List.append_assoc]
      _ = joinTexts (whole.events ++ whole.lexer.finish.events) :=
          joinTexts_congr_right events' _

end Lexer

end TaggedMarkup.Markup

import Mathlib
import TaggedMarkup.Proofs.Markup.Chunks
import TaggedMarkup.Proofs.Markup.Reported

/-!
# The grammar of events

Events come in the order of a grammar (`streams`): attributes stand only behind the start of a tag,
and between its start and its end there is nothing else. One bit of memory is enough to follow the
grammar, and the lexer has it in its mode (`Mode.inTag`): whatever it reads, its events lead from
the bit before to the bit behind (`Lexer.step_leads`).

So every run of the lexer that meets no fault reports a start of a stream, and a whole stream once
the input has ended (`Lexer.performAll_grammatical`).
-/

namespace TaggedMarkup.Markup

open scoped Computability

/-! ## Streams -/

/-- One event of a kind. -/
def one {α : Type} (event : α → Event) : Language Event := Set.range fun a => [event a]

/-- The start of a tag with its attributes. -/
def heads : Language Event :=
  one .openTag * (one fun (pair : String × Option String) => .attribute pair.1 pair.2)∗

/-- What markup is made of. -/
def pieces : Language Event :=
  one .text + one .comment + one .closeTag + heads * one .openTagEnd

/-- Whole runs. -/
def streams : Language Event := pieces∗ * {[.finish]}

/-- A single event is a word of its kind. -/
lemma mem_one {α : Type} (event : α → Event) (a : α) : [event a] ∈ one event := ⟨a, rfl⟩

/-- Where an event leads, inside or outside of a start tag. -/
def Event.next (inTag : Bool) : Event → Option Bool
  | .text _ | .comment _ | .closeTag _ => if inTag then none else some false
  | .openTag _ => if inTag then none else some true
  | .attribute _ _ => if inTag then some true else none
  | .openTagEnd _ => if inTag then some false else none
  | .finish => none

/-- Events that follow the grammar from one side of a start tag to another. -/
def Leads (inTag : Bool) (es : List Event) (inTag' : Bool) : Prop :=
  es.foldlM Event.next inTag = some inTag'

/-- No events lead from a state to itself. -/
lemma Leads.nil (b : Bool) : Leads b [] b := rfl

/-- A single event leads to its next state. -/
lemma Leads.single {b b' : Bool} {e : Event} (next : e.next b = some b') : Leads b [e] b' := by
  simp [Leads, next]

/-- Events lead on from where others have led to. -/
lemma Leads.append {b b' b'' : Bool} {es es' : List Event} (h : Leads b es b')
    (h' : Leads b' es' b'') : Leads b (es ++ es') b'' := by
  rw [Leads, List.foldlM_append, h]
  exact h'

/-- The first of the events leads to where the others start. -/
lemma leads_cons_iff {b b'' : Bool} {e : Event} {es : List Event} :
    Leads b (e :: es) b'' ↔ ∃ b', e.next b = some b' ∧ Leads b' es b'' := by
  rw [Leads, List.foldlM_cons]
  exact Option.bind_eq_some_iff

/-- What may have been reported outside or inside of a start tag. -/
def begun : Bool → Language Event
  | false => pieces∗
  | true => pieces∗ * heads

/-- A word of words goes on with one more word. -/
lemma append_mem_kstar {L : Language Event} {es es' : List Event} (h : es ∈ L∗) (h' : es' ∈ L) :
    es ++ es' ∈ L∗ := by
  have le : L∗ * L ≤ L∗ := kstar_mul_le_kstar
  exact le (Language.append_mem_mul h h')

/-- A stream that has begun goes on with an event that may come next. -/
lemma begun_concat {b b' : Bool} {es : List Event} {e : Event} (h : es ∈ begun b)
    (next : e.next b = some b') : es ++ [e] ∈ begun b' := by
  cases b with
  | false =>
    have piece (mem : [e] ∈ pieces) : es ++ [e] ∈ begun false := append_mem_kstar h mem
    cases e with
    | text s =>
      cases next
      exact piece (.inl (.inl (.inl (mem_one _ s))))
    | comment s =>
      cases next
      exact piece (.inl (.inl (.inr (mem_one _ s))))
    | closeTag name =>
      cases next
      exact piece (.inl (.inr (mem_one _ name)))
    | openTag name =>
      cases next
      apply Language.append_mem_mul h
      exact Language.append_mem_mul (mem_one _ name) (Language.nil_mem_kstar _)
    | _ => cases next
  | true =>
    obtain ⟨before, whole, head, start, rfl⟩ := Language.mem_mul.1 h
    rw [List.append_assoc]
    cases e with
    | «attribute» name value =>
      cases next
      apply Language.append_mem_mul whole
      obtain ⟨first, opening, rest, attributes, rfl⟩ := Language.mem_mul.1 start
      rw [List.append_assoc]
      apply Language.append_mem_mul opening
      exact append_mem_kstar attributes (mem_one _ (name, value))
    | openTagEnd selfClosing =>
      cases next
      apply append_mem_kstar whole
      exact .inr (Language.append_mem_mul start (mem_one _ selfClosing))
    | _ => cases next

/-- A stream that has begun goes on with events that lead on. -/
lemma begun_append {b b' : Bool} {es es' : List Event} (h : es ∈ begun b) (leads : Leads b es' b') :
    es ++ es' ∈ begun b' := by
  induction es' generalizing es b with
  | nil =>
    cases leads
    rwa [List.append_nil]
  | cons e es' ih =>
    obtain ⟨between, next, rest⟩ := leads_cons_iff.1 leads
    rw [List.append_cons]
    exact ih (begun_concat h next) rest

/-- Events that lead from outside of tags are a stream that has begun. -/
lemma mem_begun {b : Bool} {es : List Event} (leads : Leads false es b) : es ∈ begun b :=
  begun_append (Language.nil_mem_kstar _) leads

/-- What is begun can be brought to an end. -/
lemma exists_append_mem_streams {b : Bool} {es : List Event} (h : es ∈ begun b) :
    ∃ more, es ++ more ∈ streams := by
  cases b with
  | false => exact ⟨[.finish], Language.append_mem_mul h rfl⟩
  | true =>
    have ended : es ++ [.openTagEnd false] ∈ begun false := begun_concat h rfl
    refine ⟨[.openTagEnd false, .finish], ?_⟩
    rw [List.append_cons]
    exact Language.append_mem_mul ended rfl

/-! ## Steps -/

/-- Whether a start tag has been reported and its end has not. -/
def Mode.inTag : Mode → Bool
  | .beforeAttribute | .attributeName | .afterAttribute | .beforeValue | .quotedValue _
  | .unquotedValue | .selfClosing => true
  | _ => false

/-- The events of an outcome lead to its mode. -/
def Outcome.Leads (o : Outcome) (inTag : Bool) : Prop :=
  Markup.Leads inTag o.events o.lexer.mode.inTag

namespace Outcome.Leads

variable {o : Outcome} {b b' : Bool}

/-- Events in front of an outcome lead to where it starts. -/
lemma after {es : List Event} (h : o.Leads b') (first : Markup.Leads b es b') :
    (o.after es).Leads b := first.append h

/-- Two steps lead on one after the other. -/
lemma andThen {next : Lexer → Outcome} (h : o.Leads b)
    (h' : (next o.lexer).Leads o.lexer.mode.inTag) : (o.andThen next).Leads b := by
  unfold Outcome.andThen
  split
  · exact h'.after h
  · exact h

end Outcome.Leads

namespace Lexer

variable {l : Lexer}

/-- A pending text stands outside of tags. -/
lemma leads_pendingText (l : Lexer) : Leads false l.pendingText false := by
  unfold pendingText
  split
  · exact .nil false
  · exact .single rfl

/-- A step in a text stays outside of tags. -/
lemma stepText_leads (c : Char) (mode : l.mode.inTag = false) : (l.stepText c).Leads false := by
  unfold stepText
  split
  · exact .nil false
  · exact congrArg some mode.symm

/-- A step in front of an attribute leads on from within a tag. -/
lemma stepBeforeAttribute_leads (c : Char) (mode : l.mode.inTag = true) :
    (l.stepBeforeAttribute c).Leads true := by
  have same : Leads true [] l.mode.inTag := congrArg some mode.symm
  unfold stepBeforeAttribute
  split_ifs
  case pos => exact same
  case pos => exact .single rfl
  case pos => exact .nil true
  case pos => exact same
  case neg => exact .nil true

/-- A step behind the name of an attribute leads on from within a tag. -/
lemma stepAfterAttribute_leads (c : Char) (mode : l.mode.inTag = true) :
    (l.stepAfterAttribute c).Leads true := by
  unfold stepAfterAttribute
  split_ifs
  case pos => exact congrArg some mode.symm
  case pos => exact .nil true
  case neg => exact (stepBeforeAttribute_leads c rfl).after (.single rfl)

/-- A step in a bogus comment stays outside of tags. -/
lemma stepBogusComment_leads (c : Char) (mode : l.mode.inTag = false) :
    (l.stepBogusComment c).Leads false := by
  unfold stepBogusComment
  split
  · exact .single rfl
  · exact congrArg some mode.symm

/-- A character leads from the mode before it to the mode behind it, also when it is refused. -/
lemma step_leads (l : Lexer) (c : Char) : (l.step c).Leads l.mode.inTag := by
  have same {b : Bool} (mode : l.mode.inTag = b) : Leads b [] l.mode.inTag :=
    congrArg some mode.symm
  unfold step
  split
  all_goals rename_i mode; rw [mode]
  case h_1 => exact stepText_leads c (by rw [mode]; rfl)
  case h_2 =>
    unfold stepTagOpening
    split_ifs
    case neg => exact stepText_leads c rfl
    all_goals exact leads_pendingText l
  case h_3 =>
    unfold stepTagName
    split
    · exact (stepBeforeAttribute_leads c rfl).after (.single rfl)
    · exact same (by rw [mode])
  case h_4 => exact stepBeforeAttribute_leads c (by rw [mode]; rfl)
  case h_5 =>
    unfold stepAttributeName
    split
    · exact stepAfterAttribute_leads c rfl
    · exact same (by rw [mode])
  case h_6 => exact stepAfterAttribute_leads c (by rw [mode]; rfl)
  case h_7 =>
    unfold stepBeforeValue
    split_ifs
    case pos => exact same (by rw [mode])
    case pos => exact .nil true
    case pos => exact Leads.append (.single rfl) (.single rfl)
    case neg => exact .nil true
  case h_8 =>
    unfold stepQuotedValue
    split_ifs
    case pos => exact .nil true
    case neg => exact .single rfl
    case pos => exact same (by rw [mode])
    case neg => exact same (by rw [mode])
  case h_9 =>
    unfold stepUnquotedValue
    dsimp only
    split_ifs
    case pos => exact Leads.append (.single rfl) (.single rfl)
    case neg => exact .single rfl
    case neg => exact same (by rw [mode])
  case h_10 =>
    unfold stepSelfClosing
    split
    · exact .single rfl
    · exact stepBeforeAttribute_leads c rfl
  case h_11 =>
    unfold stepClosingName
    split_ifs
    case pos => exact .single rfl
    case pos => exact .nil false
    case neg => exact same (by rw [mode])
  case h_12 =>
    unfold stepAfterClosingName
    split_ifs
    case pos => exact .single rfl
    case pos => exact same (by rw [mode])
    case neg => exact same (by rw [mode])
  case h_13 =>
    unfold stepDeclaration
    split
    · exact .nil false
    · exact stepBogusComment_leads c rfl
  case h_14 =>
    unfold stepCommentDash
    split
    · exact .nil false
    · exact stepBogusComment_leads c rfl
  case h_15 =>
    unfold stepComment
    split
    · exact .nil false
    · exact same (by rw [mode])
  case h_16 =>
    unfold stepCommentEndDash
    split <;> exact .nil false
  case h_17 =>
    unfold stepCommentEnd
    split_ifs
    case pos => exact .single rfl
    case pos => exact same (by rw [mode])
    case neg => exact .nil false
  case h_18 => exact stepBogusComment_leads c (by rw [mode]; rfl)

/-- Any characters lead on from the mode of the lexer. -/
lemma writeList_leads (l : Lexer) (cs : List Char) : (l.writeList cs).Leads l.mode.inTag := by
  induction cs generalizing l with
  | nil => exact .nil _
  | cons c cs ih => exact (step_leads l c).andThen (ih _)

/-- A flush leads on from the mode of the lexer. -/
lemma flush_leads (l : Lexer) : l.flush.Leads l.mode.inTag := by
  unfold flush
  split
  · rename_i mode
    rw [mode]
    exact leads_pendingText l
  · exact .nil _

end Lexer

/-! ## Runs -/

/-- What a reader of markup asks of the lexer. -/
inductive Action where
  | write (chunk : String)
  | flush
  | bindValue
  deriving DecidableEq, Repr

namespace Lexer

variable {l : Lexer}

/-- Does what is asked. -/
def perform (l : Lexer) : Action → Outcome
  | .write chunk => l.write chunk
  | .flush => l.flush
  | .bindValue =>
    match l.bindValue with
    | (l', .ok _) => { lexer := l' }
    | (l', .error cause) => { lexer := l', fault := some cause }

/-- Does everything that is asked, up to the first fault. -/
def performAll (l : Lexer) : List Action → Outcome
  | [] => { lexer := l }
  | a :: as => (l.perform a).andThen fun l' => l'.performAll as

/-- A hole stays on its side of a start tag. -/
lemma inTag_bindValue (l : Lexer) : l.bindValue.1.mode.inTag = l.mode.inTag := by
  unfold bindValue
  dsimp only
  split
  · rename_i mode
    rw [mode]
    rfl
  · split <;> rfl
  · rfl

/-- An action leads on from the mode of the lexer. -/
lemma perform_leads (l : Lexer) (a : Action) : (l.perform a).Leads l.mode.inTag := by
  cases a with
  | write chunk => exact writeList_leads l chunk.toList
  | flush => exact flush_leads l
  | bindValue =>
    have tag := inTag_bindValue l
    rw [perform]
    split
    all_goals
      rename_i bound
      rw [bound] at tag
      exact congrArg some tag.symm

/-- Actions lead on from the mode of the lexer. -/
lemma performAll_leads (l : Lexer) (as : List Action) : (l.performAll as).Leads l.mode.inTag := by
  induction as generalizing l with
  | nil => exact .nil _
  | cons a as ih => exact (perform_leads l a).andThen (ih _)

/-- Only the value of an attribute can be bound, and under its name. -/
lemma place_of_bindValue {name : String} {l' : Lexer} (ok : l.bindValue = (l', .ok name)) :
    l.place = .attributeValue l.name := by
  unfold bindValue at ok
  dsimp only at ok
  split at ok
  · rename_i mode
    simp only [place, mode]
  · rename_i mode
    split_ifs at ok with value
    · simp only [place, mode, value, if_true]
    · cases ok
  · cases ok

/-- What is bound between quotes is kept, so that the end of the value reports nothing. Only a hole
that is refused leaves an attribute without its name. -/
lemma perform_sound (h : l.Sound) (a : Action) (ok : (l.perform a).fault = none) :
    (l.perform a).Sound := by
  cases a with
  | write chunk => exact write_sound h chunk
  | flush => exact flush_sound h
  | bindValue =>
    rw [perform] at ok ⊢
    split at ok
    · rename_i l' name bound
      have place : l.place = .attributeValue l.name := place_of_bindValue bound
      have sound := passHole_sound h
      rw [passHole, place] at sound
      rwa [bound] at sound
    · cases ok

/-- Actions without a fault keep the lexer sound. -/
lemma performAll_sound (h : l.Sound) (as : List Action) (ok : (l.performAll as).fault = none) :
    (l.performAll as).Sound := by
  induction as generalizing l with
  | nil => exact .silent h
  | cons a as ih =>
    have first : (l.perform a).fault = none := by
      cases fault : (l.perform a).fault with
      | none => rfl
      | some cause => rw [performAll, Outcome.andThen_of_some fault, fault] at ok; cases ok
    rw [performAll, Outcome.andThen_of_none first] at ok ⊢
    have here := perform_sound h a first
    exact (ih here.lexer ok).after here.events

/-- A new lexer is sound. -/
lemma sound_empty : empty.Sound :=
  ⟨by simp [PlainSoFar, empty, IsPlain], trivial, .inl rfl⟩

/-- The end of the input ends the pending text. -/
lemma finished (l : Lexer) (mode : l.mode = .text) :
    l.flush.andThen (fun l' => { lexer := l', events := [.finish] }) =
      { lexer := { l with text := "" }, events := l.pendingText ++ [.finish] } := by
  simp only [flush, mode, Outcome.andThen, Outcome.after]

/-- The input can end only outside of tags. -/
lemma finish_leads (ok : l.finish.fault = none) :
    ∃ es, l.finish.events = es ++ [.finish] ∧ Leads l.mode.inTag es false ∧
      (∀ quote, l.mode ≠ .quotedValue quote) ∧ l.finish.lexer.bound = l.bound := by
  unfold finish at ok ⊢
  split at ok
  case h_1 mode =>
    rw [finished l mode, mode]
    exact ⟨_, rfl, leads_pendingText l, by simp, rfl⟩
  case h_2 mode =>
    rw [finished _ rfl, mode]
    exact ⟨_, rfl, leads_pendingText _, by simp, rfl⟩
  all_goals cases ok

/-- Where the input cannot end, nothing is reported. -/
lemma finish_refused {cause : Cause} (refused : l.finish.fault = some cause) :
    l.finish.events = [] := by
  unfold finish at refused ⊢
  split at refused
  case h_1 mode =>
    rw [finished l mode] at refused
    cases refused
  case h_2 =>
    rw [finished _ rfl] at refused
    cases refused
  all_goals rfl

/-- A value is bound only between quotes, where no name and no value are left. -/
def BoundInQuotes (l : Lexer) : Prop :=
  l.bound = true → (∃ quote, l.mode = .quotedValue quote) ∧ l.name = "" ∧ l.value = ""

/-- The bound values of a sound lexer are in quotes. -/
lemma Sound.boundInQuotes (h : l.Sound) : l.BoundInQuotes := by
  intro bound
  obtain unbound | ⟨quote, mode⟩ := h.bound
  · rw [unbound] at bound
    cases bound
  · have legible := h.legible
    simp only [LegibleSoFar, mode, bound, if_true] at legible
    exact ⟨⟨quote, mode⟩, legible⟩

/-- Whatever is asked of the lexer, its events are a start of a stream as long as nothing is
refused, and a stream once the input has ended. Every one of them is legible. -/
theorem performAll_grammatical (actions : List Action) :
    let o := empty.performAll actions
    let last := o.lexer.finish
    o.fault = none →
      (∃ more, o.events ++ more ∈ streams) ∧ (∀ e ∈ o.events, e.Legible) ∧
      o.lexer.BoundInQuotes ∧
      (last.fault = none →
        o.events ++ last.events ∈ streams ∧ (∀ e ∈ o.events ++ last.events, e.Legible) ∧
        last.lexer.bound = false) := by
  intro o last ok
  have sound : o.Sound := performAll_sound sound_empty actions ok
  have leads : Leads false o.events o.lexer.mode.inTag := performAll_leads empty actions
  refine ⟨exists_append_mem_streams (mem_begun leads), sound.events, sound.lexer.boundInQuotes, ?_⟩
  intro ended
  obtain ⟨es, events, before, unquoted, bound⟩ := finish_leads ended
  refine ⟨?_, ?_, ?_⟩
  · rw [events, ← List.append_assoc]
    exact Language.append_mem_mul (mem_begun (leads.append before)) rfl
  · intro e mem
    exact (List.mem_append.1 mem).elim (sound.events e) (finish_sound sound.lexer e)
  · exact bound.trans (sound.lexer.unbound unquoted)

/-- A text with a `<` in it, a bound value, a text in two parts, and a comment with dashes. -/
theorem performAll_grammatical_paragraph :
    let o := empty.performAll
      [.write "1 < 2<p a='", .bindValue, .write "' b>x", .flush, .write "y<!-- - --></p >"]
    let last := o.lexer.finish
    let events : List Event :=
      [.text "1 < 2", .openTag "p", .attribute "b" none, .openTagEnd false, .text "x", .text "y",
        .comment " - ", .closeTag "p", .finish]
    o.fault = none ∧ last.fault = none ∧ o.events ++ last.events = events ∧
      events ∈ streams ∧ ∀ e ∈ events, e.Legible := by
  intro o last events
  have ok : o.fault = none := by decide +kernel
  have ended : last.fault = none := by decide +kernel
  have reported : o.events ++ last.events = events := by decide +kernel
  obtain ⟨-, -, -, whole⟩ := performAll_grammatical _ ok
  obtain ⟨stream, legible, -⟩ := whole ended
  exact ⟨ok, ended, reported, reported ▸ stream, reported ▸ legible⟩

end Lexer

end TaggedMarkup.Markup

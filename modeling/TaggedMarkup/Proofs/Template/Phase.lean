import TaggedMarkup.Proofs.Template.Items

/-!
# The order of the items

The lexer reports attributes only between the name of a tag and its end, and behind the hole of a
component only its tag. `Phase` says so as an automaton over items, and `Outcome.Follows` that the
events between two states of the lexer lead from the phase of one to the phase of the other.

`parse_ok` takes a successful reading apart: its items stand in the right order, and the fragment is
what a skeleton makes of them.
-/

namespace TaggedMarkup

open Markup (Event Lexer Outcome Place scanBlock scanSigil)

namespace Template

/-- Where in the markup an item stands: among child nodes, behind the hole of a component, or
between the name of a tag and its end. -/
inductive Phase where
  | content
  | naming
  | inTag
  deriving DecidableEq, Repr

namespace Phase

/-- The phase behind an item, unless the item cannot stand here. -/
def next : Phase → Item → Option Phase
  | .content, .event (.text _) | .content, .event (.comment _) | .content, .event (.closeTag _)
  | .content, .event .finish | .content, .hole .text _ => some .content
  | .content, .hole (.tagName _) _ | .naming, .hole (.tagName _) _ => some .naming
  | .content, .event (.openTag _) => some .inTag
  | .naming, .event (.openTag name) => if isComponentTag name then some .inTag else none
  | .inTag, .event (.attribute _ _) | .inTag, .hole (.attributeValue _) _ => some .inTag
  | .inTag, .event (.openTagEnd _) => some .content
  | _, _ => none

/-- Whether items can follow one another up to the end of a template. -/
def Accepts (p : Phase) : List Item → Prop
  | [] => p = .content
  | i :: is => ∃ q, p.next i = some q ∧ q.Accepts is

/-- What can stand behind the hole of a component can stand among child nodes. -/
lemma accepts_content {is : List Item} (h : Phase.naming.Accepts is) :
    Phase.content.Accepts is := by
  cases is with
  | nil => cases h
  | cons i is =>
    obtain ⟨q, step, rest⟩ := h
    refine ⟨q, ?_, rest⟩
    unfold next at step ⊢
    split at step <;> simp_all

end Phase

end Template

namespace Markup

open Template (Item Phase isComponentTag)

/-- The phase of the items that a lexer reports next. -/
def Lexer.phase (l : Lexer) : Phase :=
  match l.mode with
  | .tagName => if isComponentTag l.tag then .naming else .content
  | .beforeAttribute | .attributeName | .afterAttribute | .beforeValue | .quotedValue _
  | .unquotedValue | .selfClosing => .inTag
  | _ => .content

/-- The events of an outcome lead from the state in front of it to the state behind it: what can
stand behind the outcome can stand behind its events. -/
structure Outcome.Follows (o : Outcome) (l : Lexer) : Prop where
  accepts : o.fault = none → ∀ {is}, o.lexer.phase.Accepts is →
    l.phase.Accepts (o.events.map Item.event ++ is)

namespace Outcome

/-- An outcome without events follows if the phase stays. -/
lemma Follows.silent {l : Lexer} {o : Outcome} (events : o.events = [])
    (phase : o.lexer.phase = l.phase) : o.Follows l := by
  refine ⟨fun _ is rest => ?_⟩
  rw [events, ← phase]
  exact rest

/-- One event leads from a phase to the next. -/
lemma Follows.single {l : Lexer} {o : Outcome} {e : Event} (events : o.events = [e])
    (step : l.phase.next (.event e) = some o.lexer.phase) : o.Follows l := by
  refine ⟨fun _ is rest => ?_⟩
  rw [events]
  exact ⟨_, step, rest⟩

/-- An event in front of an outcome. -/
lemma Follows.after {l l' : Lexer} {o : Outcome} {e : Event} (h : o.Follows l')
    (step : l.phase.next (.event e) = some l'.phase) : (o.after [e]).Follows l :=
  ⟨fun fault _ rest => ⟨_, step, h.accepts fault rest⟩⟩

/-- Behind a fault nothing has to follow. -/
lemma Follows.fault {l : Lexer} {o : Outcome} {cause : Cause} (fault : o.fault = some cause) :
    o.Follows l := by
  refine ⟨fun none => ?_⟩
  rw [fault] at none
  cases none

/-- The pending text in front of what follows among child nodes. -/
lemma Follows.pendingText {l l' : Lexer} {o : Outcome} (events : o.events = l'.pendingText)
    (content : l.phase = .content) (phase : o.lexer.phase = .content) : o.Follows l := by
  refine ⟨fun _ is rest => ?_⟩
  rw [phase] at rest
  rw [events, content, Lexer.pendingText]
  split
  · exact rest
  · exact ⟨_, rfl, rest⟩

/-- Outcomes one behind the other. -/
lemma Follows.andThen {l : Lexer} {o : Outcome} {next : Lexer → Outcome} (h : o.Follows l)
    (h' : (next o.lexer).Follows o.lexer) : (o.andThen next).Follows l := by
  refine ⟨fun fault is rest => ?_⟩
  unfold Outcome.andThen at fault rest ⊢
  split at fault
  · rename_i none
    simp only [none, Outcome.after, List.map_append, List.append_assoc] at fault rest ⊢
    exact h.accepts none (h'.accepts fault rest)
  · rename_i cause some
    rw [some] at fault
    cases fault

end Outcome

namespace Lexer

/-- The phase depends only on the mode, and on the tag while its name is read. -/
lemma phase_congr {l l' : Lexer} (mode : l'.mode = l.mode) (tag : l'.tag = l.tag) :
    l'.phase = l.phase := by
  rw [phase, phase, mode, tag]

/-- A step in a text follows the phases. -/
lemma stepText_follows {l : Lexer} (c : Char) (mode : l.mode = .text) :
    (l.stepText c).Follows l := by
  unfold stepText
  split
  · exact .silent rfl (by simp only [phase, mode])
  · exact .silent rfl rfl

/-- A step behind an angle bracket follows the phases. -/
lemma stepTagOpening_follows {l : Lexer} (c : Char) (mode : l.mode = .tagOpening) :
    (l.stepTagOpening c).Follows l := by
  have content : l.phase = .content := by simp only [phase, mode]
  unfold stepTagOpening
  split
  · refine .pendingText rfl content ?_
    simp [phase, isComponentTag]
  · split
    · exact .pendingText rfl content rfl
    · split
      · exact .pendingText rfl content rfl
      · have text := stepText_follows (l := { l with mode := .text, text := l.text.push '<' }) c rfl
        refine ⟨fun fault is rest => ?_⟩
        rw [content]
        exact text.accepts fault rest

/-- A step in front of an attribute follows the phases. -/
lemma stepBeforeAttribute_follows {l : Lexer} (c : Char) (mode : l.mode = .beforeAttribute) :
    (l.stepBeforeAttribute c).Follows l := by
  have inTag : l.phase = .inTag := by simp only [phase, mode]
  unfold stepBeforeAttribute
  split
  · exact .silent rfl rfl
  · split
    · exact .single rfl (by rw [inTag]; rfl)
    · split
      · exact .silent rfl (by rw [inTag]; rfl)
      · split
        · exact .fault rfl
        · exact .silent rfl (by rw [inTag]; rfl)

/-- A tag name that goes on stays that of a component. -/
lemma isComponentTag_push {name : String} (c : Char) (h : isComponentTag name = true) :
    isComponentTag (name.push c) = true := by
  unfold isComponentTag at h ⊢
  rw [String.toList_push]
  split at h
  · rename_i rest list
    rw [list]
    rfl
  · cases h

/-- A step in the name of a tag follows the phases. -/
lemma stepTagName_follows {l : Lexer} (c : Char) (mode : l.mode = .tagName) :
    (l.stepTagName c).Follows l := by
  unfold stepTagName
  split
  · refine (stepBeforeAttribute_follows (l := { l with mode := .beforeAttribute }) c rfl).after ?_
    simp only [phase, mode]
    split
    · rename_i component
      simp only [Phase.next, component, if_true]
    · rfl
  · refine ⟨fun _ is rest => ?_⟩
    simp only [phase, mode] at rest ⊢
    -- The name may turn into that of a component here, which takes options away and adds none.
    split
    · rename_i component
      rw [if_pos (isComponentTag_push c component)] at rest
      exact rest
    · split at rest
      · exact Phase.accepts_content rest
      · exact rest

/-- A step behind the name of an attribute follows the phases. -/
lemma stepAfterAttribute_follows {l : Lexer} (c : Char) (mode : l.mode = .afterAttribute) :
    (l.stepAfterAttribute c).Follows l := by
  have inTag : l.phase = .inTag := by simp only [phase, mode]
  unfold stepAfterAttribute
  split
  · exact .silent rfl rfl
  · split
    · exact .silent rfl (by rw [inTag]; rfl)
    · refine (stepBeforeAttribute_follows
        (l := { l with mode := .beforeAttribute, name := "" }) c rfl).after ?_
      rw [inTag]
      rfl

/-- A step in the name of an attribute follows the phases. -/
lemma stepAttributeName_follows {l : Lexer} (c : Char) (mode : l.mode = .attributeName) :
    (l.stepAttributeName c).Follows l := by
  have inTag : l.phase = .inTag := by simp only [phase, mode]
  unfold stepAttributeName
  split
  · have after := stepAfterAttribute_follows (l := { l with mode := .afterAttribute }) c rfl
    refine ⟨fun fault is rest => ?_⟩
    rw [inTag]
    exact after.accepts fault rest
  · exact .silent rfl (phase_congr rfl rfl)

/-- A step in front of a value follows the phases. -/
lemma stepBeforeValue_follows {l : Lexer} (c : Char) (mode : l.mode = .beforeValue) :
    (l.stepBeforeValue c).Follows l := by
  have inTag : l.phase = .inTag := by simp only [phase, mode]
  unfold stepBeforeValue
  split
  · exact .silent rfl rfl
  · split
    · exact .silent rfl (by rw [inTag]; rfl)
    · split
      · refine ⟨fun _ is rest => ?_⟩
        rw [inTag]
        exact ⟨_, rfl, _, rfl, rest⟩
      · exact .silent rfl (by rw [inTag]; rfl)

/-- A step in a quoted value follows the phases. -/
lemma stepQuotedValue_follows {l : Lexer} {quote : Char} (c : Char)
    (mode : l.mode = .quotedValue quote) : (l.stepQuotedValue quote c).Follows l := by
  have inTag : l.phase = .inTag := by simp only [phase, mode]
  unfold stepQuotedValue
  split
  · split
    · exact .silent rfl (by rw [inTag]; rfl)
    · exact .single rfl (by rw [inTag]; rfl)
  · split
    · exact .fault rfl
    · exact .silent rfl (phase_congr rfl rfl)

/-- A step in an unquoted value follows the phases. -/
lemma stepUnquotedValue_follows {l : Lexer} (c : Char) (mode : l.mode = .unquotedValue) :
    (l.stepUnquotedValue c).Follows l := by
  have inTag : l.phase = .inTag := by simp only [phase, mode]
  unfold stepUnquotedValue
  split
  · refine ⟨fun _ is rest => ?_⟩
    rw [inTag]
    split at rest
    · rename_i ends
      simp only [ends, if_true]
      exact ⟨_, rfl, _, rfl, rest⟩
    · rename_i goesOn
      simp only [goesOn, if_false]
      exact ⟨_, rfl, rest⟩
  · exact .silent rfl (phase_congr rfl rfl)

/-- A step behind the slash of a start tag follows the phases. -/
lemma stepSelfClosing_follows {l : Lexer} (c : Char) (mode : l.mode = .selfClosing) :
    (l.stepSelfClosing c).Follows l := by
  have inTag : l.phase = .inTag := by simp only [phase, mode]
  unfold stepSelfClosing
  split
  · exact .single rfl (by rw [inTag]; rfl)
  · have before := stepBeforeAttribute_follows (l := { l with mode := .beforeAttribute }) c rfl
    refine ⟨fun fault is rest => ?_⟩
    rw [inTag]
    exact before.accepts fault rest

/-- A step in the name of an end tag follows the phases. -/
lemma stepClosingName_follows {l : Lexer} (c : Char) (mode : l.mode = .closingName) :
    (l.stepClosingName c).Follows l := by
  have content : l.phase = .content := by simp only [phase, mode]
  unfold stepClosingName
  split
  · exact .single rfl (by rw [content]; rfl)
  · split
    · exact .silent rfl (by rw [content]; rfl)
    · exact .silent rfl (by simp only [phase, mode])

/-- A step behind the name of an end tag follows the phases. -/
lemma stepAfterClosingName_follows {l : Lexer} (c : Char) (mode : l.mode = .afterClosingName) :
    (l.stepAfterClosingName c).Follows l := by
  have content : l.phase = .content := by simp only [phase, mode]
  unfold stepAfterClosingName
  split
  · exact .single rfl (by rw [content]; rfl)
  · split
    · exact .silent rfl rfl
    · exact .fault rfl

/-- A step in a bogus comment follows the phases. -/
lemma stepBogusComment_follows {l : Lexer} (c : Char) (mode : l.mode = .bogusComment) :
    (l.stepBogusComment c).Follows l := by
  have content : l.phase = .content := by simp only [phase, mode]
  unfold stepBogusComment
  split
  · exact .single rfl (by rw [content]; rfl)
  · exact .silent rfl (by simp only [phase, mode])

/-- A step in a declaration follows the phases. -/
lemma stepDeclaration_follows {l : Lexer} (c : Char) (mode : l.mode = .declaration) :
    (l.stepDeclaration c).Follows l := by
  have content : l.phase = .content := by simp only [phase, mode]
  unfold stepDeclaration
  split
  · exact .silent rfl (by rw [content]; rfl)
  · have bogus := stepBogusComment_follows (l := { l with mode := .bogusComment }) c rfl
    refine ⟨fun fault is rest => ?_⟩
    rw [content]
    exact bogus.accepts fault rest

/-- A step at the start of a comment follows the phases. -/
lemma stepCommentDash_follows {l : Lexer} (c : Char) (mode : l.mode = .commentDash) :
    (l.stepCommentDash c).Follows l := by
  have content : l.phase = .content := by simp only [phase, mode]
  unfold stepCommentDash
  split
  · exact .silent rfl (by rw [content]; rfl)
  · have bogus := stepBogusComment_follows
      (l := { l with mode := .bogusComment, comment := l.comment.push '-' }) c rfl
    refine ⟨fun fault is rest => ?_⟩
    rw [content]
    exact bogus.accepts fault rest

/-- A step in a comment follows the phases. -/
lemma stepComment_follows {l : Lexer} (c : Char) (mode : l.mode = .comment) :
    (l.stepComment c).Follows l := by
  have content : l.phase = .content := by simp only [phase, mode]
  unfold stepComment
  split
  · exact .silent rfl (by rw [content]; rfl)
  · exact .silent rfl (by simp only [phase, mode])

/-- A step behind a dash in a comment follows the phases. -/
lemma stepCommentEndDash_follows {l : Lexer} (c : Char) (mode : l.mode = .commentEndDash) :
    (l.stepCommentEndDash c).Follows l := by
  have content : l.phase = .content := by simp only [phase, mode]
  unfold stepCommentEndDash
  split
  · exact .silent rfl (by rw [content]; rfl)
  · exact .silent rfl (by rw [content]; rfl)

/-- A step behind two dashes in a comment follows the phases. -/
lemma stepCommentEnd_follows {l : Lexer} (c : Char) (mode : l.mode = .commentEnd) :
    (l.stepCommentEnd c).Follows l := by
  have content : l.phase = .content := by simp only [phase, mode]
  unfold stepCommentEnd
  split
  · exact .single rfl (by rw [content]; rfl)
  · split
    · exact .silent rfl (by simp only [phase, mode])
    · exact .silent rfl (by rw [content]; rfl)

/-- A character reports its events in the right order. -/
lemma step_follows (l : Lexer) (c : Char) : (l.step c).Follows l := by
  unfold step
  split
  case h_1 mode => exact stepText_follows c mode
  case h_2 mode => exact stepTagOpening_follows c mode
  case h_3 mode => exact stepTagName_follows c mode
  case h_4 mode => exact stepBeforeAttribute_follows c mode
  case h_5 mode => exact stepAttributeName_follows c mode
  case h_6 mode => exact stepAfterAttribute_follows c mode
  case h_7 mode => exact stepBeforeValue_follows c mode
  case h_8 mode => exact stepQuotedValue_follows c mode
  case h_9 mode => exact stepUnquotedValue_follows c mode
  case h_10 mode => exact stepSelfClosing_follows c mode
  case h_11 mode => exact stepClosingName_follows c mode
  case h_12 mode => exact stepAfterClosingName_follows c mode
  case h_13 mode => exact stepDeclaration_follows c mode
  case h_14 mode => exact stepCommentDash_follows c mode
  case h_15 mode => exact stepComment_follows c mode
  case h_16 mode => exact stepCommentEndDash_follows c mode
  case h_17 mode => exact stepCommentEnd_follows c mode
  case h_18 mode => exact stepBogusComment_follows c mode

/-- A chunk reports its events in the right order. -/
lemma write_follows (l : Lexer) (chunk : String) : (l.write chunk).Follows l := by
  unfold write
  generalize chunk.toList = cs
  induction cs generalizing l with
  | nil => exact .silent rfl rfl
  | cons c cs ih => exact (step_follows l c).andThen (ih _)

/-- The end of the input reports its events in the right order. -/
lemma finish_accepts {l : Lexer} (fault : l.finish.fault = none) :
    l.phase.Accepts (l.finish.events.map Item.event) := by
  unfold finish at fault ⊢
  split
  case h_1 mode =>
    simp only [phase, flush, mode, Outcome.andThen, Outcome.after, pendingText]
    split
    · exact ⟨_, rfl, rfl⟩
    · exact ⟨_, rfl, _, rfl, rfl⟩
  case h_2 mode =>
    simp only [phase, flush, mode, Outcome.andThen, Outcome.after, pendingText]
    split
    · exact ⟨_, rfl, rfl⟩
    · exact ⟨_, rfl, _, rfl, rfl⟩
  all_goals simp_all

/-- Around a hole that a skeleton takes, the items stand in the right order. -/
lemma passHole_accepts {l : Lexer} {is : List Item} (hole : Template.Hole)
    (place : l.place = .text ∨ (∃ name, l.place = .attributeValue name) ∨
      l.place = .tagName Template.componentTag)
    (rest : l.passHole.lexer.phase.Accepts is) :
    l.phase.Accepts (l.passHole.events.map Item.event ++ .hole l.place hole :: is) := by
  rcases place with place | ⟨name, place⟩ | place
  · have mode := mode_of_place_text place
    simp only [passHole, place, flush, mode, phase, pendingText] at rest ⊢
    split
    · exact ⟨_, rfl, rest⟩
    · exact ⟨_, rfl, _, rfl, rest⟩
  · have inTag : l.phase = .inTag ∧ l.bindValue.1.phase = .inTag := by
      obtain ⟨-, mode | ⟨quote, mode, empty⟩⟩ := mode_of_place_attributeValue place
      · simp only [phase, bindValue, mode, and_self]
      · simp only [phase, bindValue, mode, empty, if_true, and_self]
    simp only [passHole, place, inTag] at rest ⊢
    exact ⟨_, rfl, rest⟩
  · have naming : l.phase = .naming := by
      obtain ⟨mode, tag⟩ := mode_of_place_tagName place
      simp only [phase, mode, tag]
      decide
    simp only [passHole, place, naming] at rest ⊢
    exact ⟨_, rfl, rest⟩

end Lexer

end Markup

namespace Template

/-! ## Successful readings -/

namespace Parser

/-- A successful reading is the skeleton of its items, which stand in the right order. -/
lemma run_ok {p p' : Parser} {slot : Nat} {chunk : String} {rest : List (Expression × String)}
    {f : Fragment} (ran : p.run slot chunk rest = .ok p') (ended : p'.finish = .ok f) :
    p.lexer.phase.Accepts (itemsFrom p.lexer slot chunk rest) ∧
      ∃ s, p.skeleton.takeAll (itemsFrom p.lexer slot chunk rest) = .ok s ∧ f = s.finish := by
  induction rest generalizing p slot chunk with
  | nil =>
    simp only [run] at ran
    split at ran
    · cases ran
    · rename_i q written
      cases ran
      obtain ⟨taken, fault, lexer⟩ := take_ok written
      simp only [finish] at ended
      split at ended
      · cases ended
      · rename_i last finished
        cases ended
        obtain ⟨taken', fault', -⟩ := take_ok finished
        rw [lexer] at taken' fault'
        have events : itemsFrom p.lexer slot chunk [] =
            (p.lexer.write chunk).events.map .event ++
              (p.lexer.write chunk).lexer.finish.events.map .event := by
          simp only [itemsFrom, Outcome.andThen, fault, Outcome.after, List.map_append]
        rw [events]
        exact ⟨(p.lexer.write_follows chunk).accepts fault (Lexer.finish_accepts fault'),
          last.skeleton, Skeleton.takeAll_append_ok.2 ⟨_, taken, taken'⟩, rfl⟩
  | cons pair rest ih =>
    obtain ⟨expression, next⟩ := pair
    simp only [run] at ran
    split at ran
    · cases ran
    · rename_i q written
      obtain ⟨taken, fault, lexer⟩ := take_ok written
      split at ran
      · cases ran
      · rename_i q' bound
        obtain ⟨⟨t, flushed, hole⟩, lexer'⟩ :=
          bind_ok (h := ⟨slot, (scanSigil chunk).1, (scanBlock next).1, expression⟩) bound
        obtain ⟨order, s, built, fragment⟩ := ih ran
        have follows := p.lexer.write_follows (scanSigil chunk).2
        rw [lexer', lexer] at order built
        rw [lexer] at flushed hole
        simp only [itemsFrom, List.map_append, List.append_assoc]
        generalize p.lexer.write (scanSigil chunk).2 = o at *
        have place := Skeleton.takeHole_place hole
        -- The events of the chunk, those that the hole flushes, the hole itself, and the rest.
        refine ⟨follows.accepts fault (Lexer.passHole_accepts _ place order), s, ?_, fragment⟩
        rw [Skeleton.takeAll_append_ok]
        refine ⟨_, taken, ?_⟩
        rw [Skeleton.takeAll_append_ok]
        refine ⟨t, flushed, ?_⟩
        rw [Skeleton.takeAll_cons_ok]
        exact ⟨_, hole, built⟩

end Parser

/-- A template that can be read has one expression less than it has chunks. Its fragment is the
finished skeleton of its items, which stand in the right order. -/
lemma parse_ok {chunks : List String} {expressions : List Expression} {f : Fragment}
    (ok : parse chunks expressions = .ok f) :
    chunks.length = expressions.length + 1 ∧ Phase.content.Accepts (items chunks expressions) ∧
      ∃ s, Skeleton.takeAll {} (items chunks expressions) = .ok s ∧ f = s.finish := by
  unfold parse at ok
  split at ok
  · cases ok
  · rename_i first rest
    split at ok
    · rename_i fits
      split at ok
      · cases ok
      · rename_i p ran
        exact ⟨by rw [List.length_cons, fits], Parser.run_ok ran ok⟩
    · cases ok

end Template

end TaggedMarkup

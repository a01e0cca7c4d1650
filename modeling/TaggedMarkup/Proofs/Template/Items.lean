import Mathlib.Tactic.Common
import TaggedMarkup.Template.Parser

/-!
# The items of a template

Reading a template falls into two parts that do not look at each other. The lexer alone turns the
chunks into events and says of every hole in which place it stands: these are the `items` of the
template. The skeleton is then built from the items one by one.

Here each step of a reading is taken apart so: `Parser.take_ok` for a piece of text, and
`Parser.bind_ok` for a hole.
-/

namespace TaggedMarkup

open Markup (Event Lexer Outcome Place Sigil scanBlock scanSigil)

/-- Goes past a hole: text in front of it is reported, and an attribute value is used up. -/
def Markup.Lexer.passHole (l : Lexer) : Outcome :=
  match l.place with
  | .text => l.flush
  | .attributeValue _ => { lexer := l.bindValue.1 }
  | _ => { lexer := l }

namespace Markup.Lexer

/-- A hole among child nodes. -/
lemma mode_of_place_text {l : Lexer} (h : l.place = .text) : l.mode = .text := by
  unfold place at h
  split at h
  case h_1 mode => exact mode
  case h_4 => split at h <;> cases h
  all_goals cases h

/-- A hole in an attribute value stands behind the equals sign or behind the first quote. -/
lemma mode_of_place_attributeValue {l : Lexer} {name : String}
    (h : l.place = .attributeValue name) :
    l.name = name ∧
      (l.mode = .beforeValue ∨ ∃ quote, l.mode = .quotedValue quote ∧ l.value = "") := by
  unfold place at h
  split at h
  case h_3 mode =>
    cases h
    exact ⟨rfl, .inl mode⟩
  case h_4 quote mode =>
    split at h
    · rename_i empty
      cases h
      exact ⟨rfl, .inr ⟨quote, mode, empty⟩⟩
    · cases h
  all_goals cases h

/-- A hole behind the name of a tag. -/
lemma mode_of_place_tagName {l : Lexer} {name : String} (h : l.place = .tagName name) :
    l.mode = .tagName ∧ l.tag = name := by
  unfold place at h
  split at h
  case h_2 mode =>
    cases h
    exact ⟨mode, rfl⟩
  case h_4 => split at h <;> cases h
  all_goals cases h

/-- A hole in an attribute value binds the name that its place tells. -/
lemma bindValue_of_place {l : Lexer} {name : String} (place : l.place = .attributeValue name) :
    l.bindValue.2 = .ok name := by
  obtain ⟨rfl, mode | ⟨quote, mode, empty⟩⟩ := mode_of_place_attributeValue place
  · simp only [bindValue, mode]
  · simp only [bindValue, mode, empty, if_true]

end Markup.Lexer

namespace Template

/-- A hole, with what the chunks around it tell. -/
structure Hole where
  slot : Nat
  sigil : Sigil
  block : Bool
  expression : Expression
  deriving DecidableEq, Repr

/-- A part of a template: an event of its markup, or a hole in its place. -/
inductive Item where
  | event (e : Event)
  | hole (place : Place) (hole : Hole)
  deriving DecidableEq, Repr

/-- The items from a chunk on, where `l` is the state of the lexer in front of it. -/
def itemsFrom (l : Lexer) (slot : Nat) (chunk : String) : List (Expression × String) → List Item
  | [] => ((l.write chunk).andThen Lexer.finish).events.map .event
  | (expression, next) :: rest =>
    let before := l.write (scanSigil chunk).2
    let passed := before.lexer.passHole
    (before.events ++ passed.events).map .event ++
      .hole before.lexer.place ⟨slot, (scanSigil chunk).1, (scanBlock next).1, expression⟩ ::
        itemsFrom passed.lexer (slot + 1) (scanBlock next).2 rest

/-- The items of a template. -/
def items (chunks : List String) (expressions : List Expression) : List Item :=
  match chunks with
  | [] => []
  | first :: rest => itemsFrom {} 0 first (expressions.zip rest)

namespace Skeleton

/-- Takes a hole in its place. -/
def takeHole (s : Skeleton) (h : Hole) : Place → Except Cause Skeleton
  | .text =>
    .ok (s.addChildBinder (if h.block then .block else .text) h.sigil h.expression h.slot)
  | .attributeValue name =>
    if h.block then .error (.unsupported .blockInAttribute)
    else s.addAttributeBinder name h.sigil h.expression h.slot
  | .tagName name =>
    if name = componentTag then
      if h.block then .error (.unsupported .blockComponent)
      else if h.sigil = .none then .ok (s.setComponent h.sigil h.expression h.slot)
      else .error (.unsupported .sigilComponent)
    else .error (.unsupported (.holeIn (.tagName name)))
  | place => .error (.unsupported (.holeIn place))

/-- Takes an item. -/
def take (s : Skeleton) : Item → Except Cause Skeleton
  | .event e => s.handle e
  | .hole place h => s.takeHole h place

/-- Takes items up to the first that fails. -/
def takeAll (s : Skeleton) (is : List Item) : Except Cause Skeleton := is.foldlM take s

/-- Items one behind the other are taken one behind the other. -/
lemma takeAll_append_ok {s u : Skeleton} {is js : List Item} :
    s.takeAll (is ++ js) = .ok u ↔ ∃ t, s.takeAll is = .ok t ∧ t.takeAll js = .ok u := by
  simp only [takeAll, List.foldlM_append]
  cases is.foldlM take s with
  | error cause => exact ⟨nofun, fun ⟨_, h, _⟩ => nomatch h⟩
  | ok t => exact ⟨fun h => ⟨t, rfl, h⟩, fun ⟨_, rfl, h⟩ => h⟩

/-- The first of several items is taken in front of the others. -/
lemma takeAll_cons_ok {s u : Skeleton} {i : Item} {is : List Item} :
    s.takeAll (i :: is) = .ok u ↔ ∃ t, s.take i = .ok t ∧ t.takeAll is = .ok u := by
  simp only [takeAll, List.foldlM_cons]
  cases s.take i with
  | error cause => exact ⟨nofun, fun ⟨_, h, _⟩ => nomatch h⟩
  | ok t => exact ⟨fun h => ⟨t, rfl, h⟩, fun ⟨_, rfl, h⟩ => h⟩

/-- The events of a list are taken one by one. -/
lemma handleAll_eq_takeAll (s : Skeleton) (es : List Event) :
    s.handleAll es = s.takeAll (es.map .event) := by
  induction es generalizing s with
  | nil => rfl
  | cons e es ih =>
    simp only [handleAll, takeAll, List.map_cons, List.foldlM_cons, take]
    cases s.handle e with
    | error cause => rfl
    | ok s' => exact ih s'

/-- A hole is taken only among child nodes, in an attribute value, or behind the name of the tag of
a component. -/
lemma takeHole_place {s s' : Skeleton} {h : Hole} {place : Place}
    (ok : s.takeHole h place = .ok s') :
    place = .text ∨ (∃ name, place = .attributeValue name) ∨ place = .tagName componentTag := by
  cases place with
  | text => exact .inl rfl
  | attributeValue name => exact .inr (.inl ⟨name, rfl⟩)
  | tagName name =>
    simp only [takeHole] at ok
    split at ok
    · subst name
      exact .inr (.inr rfl)
    · cases ok
  | _ => cases ok

end Skeleton

/-! ## Lexer and skeleton apart -/

namespace Parser

/-- A piece of input is taken if the skeleton takes its events and the lexer has no fault. -/
lemma take_ok {p p' : Parser} {o : Outcome} (ok : p.take o = .ok p') :
    p.skeleton.takeAll (o.events.map .event) = .ok p'.skeleton ∧
      o.fault = none ∧ p'.lexer = o.lexer := by
  simp only [take] at ok
  rw [← Skeleton.handleAll_eq_takeAll]
  split at ok
  · cases ok
  · rename_i skeleton handled
    split at ok
    · cases ok
    · rename_i fault
      cases ok
      exact ⟨handled, fault, rfl⟩

/-- A bound hole is an item that the skeleton takes behind the events of the text in front of it. -/
lemma bind_ok {p p' : Parser} {h : Hole}
    (ok : p.bind h.slot h.sigil h.block h.expression = .ok p') :
    (∃ s, p.skeleton.takeAll (p.lexer.passHole.events.map .event) = .ok s ∧
      s.takeHole h p.lexer.place = .ok p'.skeleton) ∧ p'.lexer = p.lexer.passHole.lexer := by
  simp only [bind] at ok
  split at ok
  case h_1 place =>
    simp only [Lexer.passHole, place]
    split at ok
    · cases ok
    · rename_i q flushed
      cases ok
      obtain ⟨taken, -, lexer⟩ := take_ok flushed
      exact ⟨⟨q.skeleton, taken, rfl⟩, lexer⟩
  case h_2 name place =>
    simp only [Lexer.passHole, place, Skeleton.takeHole]
    split at ok
    · cases ok
    · rename_i block
      split at ok
      · cases ok
      · rename_i lexer bound named
        have same : bound = name := by
          have bound_ok := Lexer.bindValue_of_place place
          rw [named] at bound_ok
          exact Except.ok.inj bound_ok
        subst same
        split at ok
        · cases ok
        · rename_i skeleton added
          cases ok
          exact ⟨⟨p.skeleton, rfl, by rw [if_neg block, added]⟩, by rw [named]⟩
  case h_3 name place =>
    simp only [Lexer.passHole, place, Skeleton.takeHole]
    split at ok
    · rename_i component
      split at ok
      · cases ok
      · rename_i block
        split at ok
        · rename_i sigil
          cases ok
          exact ⟨⟨p.skeleton, rfl, by rw [if_pos component, if_neg block, if_pos sigil]⟩, rfl⟩
        · cases ok
    · cases ok
  case h_4 => cases ok

end Parser

end Template

end TaggedMarkup

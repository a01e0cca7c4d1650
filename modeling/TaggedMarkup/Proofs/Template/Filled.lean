import Mathlib
import TaggedMarkup.Proofs.Markup.Live
import TaggedMarkup.Proofs.Template.HoleValues
import TaggedMarkup.Proofs.Template.ReadBack

/-!
# Templates with their holes filled

The markup of a template leaves placeholders where its holes were. Here they are put into the
template before it is read (`filledMarkup`). The lexer then goes through the same states as in the
template, but for what it does not look at any more (`Tracks`), and reports the items of the
template with each hole as the events of its placeholder (`items_filledMarkup`).

Only a hole between quotes is reported late. Its placeholder is empty, so the attribute ends at the
quote behind it, as any other does.
-/

namespace TaggedMarkup

open Markup (Event Lexer Outcome isQuote textEvents)

/-- The placeholder of a text is an element without content. -/
lemma Markup.Lexer.Pending.reads_textNode {l : Lexer} {text : String} (h : l.Pending text) :
    ∃ l', l.Reads "<text-node></text-node>".toList
        (textEvents text ++ [.openTag "text-node", .openTagEnd false, .closeTag "text-node"]) l' ∧
      l'.Pending "" := by
  have isTagName : Markup.IsTagName "text-node" := by
    simp [Markup.IsTagName, Markup.isLetter, Markup.endsName, Markup.isBlank, isQuote]
  have noAttribute : ∀ a ∈ ([] : List (String × String)),
      Markup.IsName a.1 ∧ '\x22' ∉ a.2.toList := by simp
  obtain ⟨l₁, start, pending⟩ := h.reads_startTag isTagName noAttribute false
  obtain ⟨l₂, ended, pending⟩ := pending.reads_endTag isTagName.isEndName
  exact ⟨l₂, by simpa [Markup.Piece.events, textEvents] using start.append ended, pending⟩

/-- The markup that keeps the place of a hole, which is none between quotes. -/
def Markup.Lexer.placeholder (l : Lexer) (h : Template.Hole) : String :=
  match l.mode with
  | .text => (if h.block then Template.Target.block else Template.Target.text).placeholder
  | .beforeValue => Template.Target.attribute.placeholder
  | _ => ""

namespace Template

/-! ## Placeholders in the markup -/

/-- The characters of signals with the placeholders of their holes, from a state of the lexer
on. -/
def fillFrom (l : Lexer) : List Signal → List Char
  | [] => []
  | .char c :: rest => c :: fillFrom (l.step c).lexer rest
  | .hole h :: rest => (l.placeholder h).toList ++ fillFrom l.passHole.lexer rest

/-- The chunks of a template without sigils and block markers, with a placeholder in every hole. -/
def filledMarkup (chunks : List String) (expressions : List Expression) : String :=
  String.ofList (fillFrom {} (signals chunks expressions))

/-- What the lexer reports of an item whose hole is filled. -/
def Item.filled : Item → List Event
  | .event e => [e]
  | .hole .text h =>
    if h.block then [.comment " block "]
    else [.openTag "text-node", .openTagEnd false, .closeTag "text-node"]
  | .hole (.attributeValue name) _ => [.attribute name (some "")]
  | .hole _ _ => []

/-- Events have no holes to fill. -/
lemma flatMap_filled_event (es : List Event) : (es.map Item.event).flatMap Item.filled = es := by
  rw [List.flatMap_map]
  exact List.flatMap_singleton' es

/-! ## Items along signals -/

/-- The items along signals, from a state of the lexer on. -/
def itemsAlong (l : Lexer) : List Signal → List Item
  | [] => l.finish.events.map .event
  | .char c :: rest => (l.step c).events.map .event ++ itemsAlong (l.step c).lexer rest
  | .hole h :: rest =>
    l.passHole.events.map .event ++ .hole l.place h :: itemsAlong l.passHole.lexer rest

/-- Characters that are all read. -/
lemma itemsAlong_chars {l l' : Lexer} {cs : List Char}
    (ok : l.passAll? (cs.map .char) = some l') (rest : List Signal) :
    (l.writeList cs).fault = none ∧ (l.writeList cs).lexer = l' ∧
      itemsAlong l (cs.map .char ++ rest) =
        (l.writeList cs).events.map .event ++ itemsAlong l' rest := by
  induction cs generalizing l with
  | nil =>
    cases ok
    exact ⟨rfl, rfl, rfl⟩
  | cons c cs ih =>
    obtain ⟨between, passed, ok⟩ := Lexer.passAll?_cons.1 ok
    obtain ⟨fault, rfl⟩ := Lexer.pass?_char.1 passed
    obtain ⟨none, reached, items⟩ := ih ok
    rw [Lexer.writeList, Outcome.andThen_of_none fault]
    refine ⟨none, reached, ?_⟩
    rw [List.map_cons, List.cons_append, itemsAlong, items, Outcome.after, List.map_append,
      List.append_assoc]

/-- The items of a template are those along its signals. -/
lemma itemsFrom_eq_along {l l' : Lexer} {slot : Nat} {chunk : String}
    {rest : List (Expression × String)}
    (ok : l.passAll? (signalsFrom slot chunk rest) = some l') :
    itemsFrom l slot chunk rest = itemsAlong l (signalsFrom slot chunk rest) := by
  induction rest generalizing l slot chunk with
  | nil =>
    rw [signalsFrom] at ok ⊢
    obtain ⟨none, reached, items⟩ := itemsAlong_chars ok []
    rw [List.append_nil] at items
    rw [itemsFrom, items, Lexer.write, Outcome.andThen_of_none none, reached, Outcome.after,
      itemsAlong, List.map_append]
  | cons pair rest ih =>
    obtain ⟨expression, next⟩ := pair
    rw [signalsFrom] at ok ⊢
    obtain ⟨between, written, ok⟩ := Lexer.passAll?_append.1 ok
    obtain ⟨passed, here, ok⟩ := Lexer.passAll?_cons.1 ok
    obtain ⟨-, rfl⟩ := Lexer.pass?_hole.1 here
    obtain ⟨-, reached, items⟩ := itemsAlong_chars written _
    rw [items, itemsFrom, Lexer.write, reached, ih ok, itemsAlong]
    simp only [List.map_append, List.append_assoc]

/-! ## The lexer over filled holes -/

/-- The state `m` of the lexer in the filled markup, where it is `l` in the template. Behind a hole
between quotes `m` has still to report the attribute, which the hole has taken from `l`. -/
inductive Tracks (l : Lexer) : Lexer → List Event → Prop where
  | same {m : Lexer} (live : m.live = l.live) : Tracks l m []
  | quoted {m : Lexer} {quote : Char} {name : String} (mode : l.mode = .quotedValue quote)
      (bound : l.bound = true) (live : m.live = { l.live with name := name, bound := false }) :
      Tracks l m [.attribute name (some "")]

namespace Tracks

variable {l m : Lexer} {owed : List Event}

/-- Between quotes all parts of the state are in use, but for the comment. -/
lemma quoted_fields {quote : Char} {name : String} (mode : l.mode = .quotedValue quote)
    (live : m.live = { l.live with name := name, bound := false }) :
    m.mode = .quotedValue quote ∧ m.text = l.text ∧ m.tag = l.tag ∧ m.name = name ∧
      m.value = l.value ∧ m.bound = false := by
  have mode' : m.mode = .quotedValue quote := by
    rw [← Lexer.mode_live, live, ← mode]
    exact Lexer.mode_live l
  simp only [Lexer.live, mode, mode', Lexer.mk.injEq] at live
  obtain ⟨-, text, tag, name, value, -, bound⟩ := live
  exact ⟨mode', text, tag, name, value, bound⟩

/-- A character. -/
lemma step (tracks : Tracks l m owed) (sound : l.Sound) {c : Char} (ok : (l.step c).fault = none) :
    ∃ es owed' m', m.step c = { lexer := m', events := es } ∧
      Tracks (l.step c).lexer m' owed' ∧ owed ++ (l.step c).events = es ++ owed' := by
  cases tracks with
  | same live =>
    obtain ⟨live, events, fault⟩ := Lexer.step_congr live c
    refine ⟨(m.step c).events, [], (m.step c).lexer, ?_, .same live, ?_⟩
    · rw [← fault.trans ok]
    · rw [events, List.nil_append, List.append_nil]
  | @quoted quote name mode bound live =>
    obtain ⟨mode', text, tag, rfl, value, unbound⟩ := quoted_fields mode live
    obtain ⟨-, empty⟩ : l.name = "" ∧ l.value = "" := by
      simpa only [Lexer.LegibleSoFar, mode, bound, if_true] using sound.legible
    simp only [Lexer.step, mode, Lexer.stepQuotedValue, bound, if_true] at ok ⊢
    -- The value has to end here, and now it is reported.
    split at ok
    · rename_i same
      simp only [mode', unbound, same, if_true, Bool.false_eq_true, if_false, value, empty]
      exact ⟨_, [], _, rfl, .same (by simp [Lexer.live, text, tag]), rfl⟩
    · cases ok

/-- A hole among child nodes. -/
lemma hole_text (live : m.live = l.live) (sound : l.Sound) (h : Hole) (place : l.place = .text) :
    ∃ es m', m.Reads (l.placeholder h).toList es m' ∧ Tracks l.passHole.lexer m' [] ∧
      l.passHole.events ++ (Item.hole .text h).filled = es := by
  have mode := Lexer.mode_of_place_text place
  have unbound := sound.unbound (by simp [mode])
  have mode' : m.mode = .text := by rw [← Lexer.mode_live, live, Lexer.mode_live, mode]
  simp only [Lexer.live, mode, mode', Lexer.mk.injEq] at live
  obtain ⟨-, text, -, -, -, -, bound⟩ := live
  have pending : m.Pending l.text := ⟨bound.trans unbound, .inl ⟨mode', text⟩⟩
  have events : l.passHole.events = textEvents l.text := by
    simp only [Lexer.passHole, place, Lexer.flush, mode, Lexer.pendingText_eq]
  have empty : l.passHole.lexer.live = Lexer.empty := by
    simp [Lexer.passHole, place, Lexer.flush, Lexer.live, mode, unbound, Lexer.empty]
  simp only [events, Lexer.placeholder, mode, Item.filled]
  cases h.block with
  | true =>
    have legible : Markup.IsCommentText " block " := by decide
    obtain ⟨m', reads, ended⟩ := pending.reads_comment legible
    exact ⟨_, m', reads, .same (ended.live.trans empty.symm), rfl⟩
  | false =>
    obtain ⟨m', reads, ended⟩ := pending.reads_textNode
    exact ⟨_, m', reads, .same (ended.live.trans empty.symm), rfl⟩

/-- A hole behind the equals sign of an attribute. -/
lemma hole_bare (live : m.live = l.live) (sound : l.Sound) (h : Hole) (mode : l.mode = .beforeValue)
    (empty : l.value = "") :
    ∃ es m', m.Reads (l.placeholder h).toList es m' ∧ Tracks l.passHole.lexer m' [] ∧
      l.passHole.events ++ (Item.hole (.attributeValue l.name) h).filled = es := by
  have unbound := sound.unbound (by simp [mode])
  have mode' : m.mode = .beforeValue := by rw [← Lexer.mode_live, live, Lexer.mode_live, mode]
  simp only [Lexer.live, mode, mode', Lexer.mk.injEq] at live
  obtain ⟨-, text, tag, name, value, -, bound⟩ := live
  have opening : m.step '\x22' = { lexer := { m with mode := .quotedValue '\x22' } } := by
    simp [Lexer.step, mode', Lexer.stepBeforeValue, Markup.isBlank, isQuote]
  have closing : Lexer.step { m with mode := .quotedValue '\x22' } '\x22' =
      { lexer := { m with mode := .beforeAttribute, name := "", value := "" }
        events := [.attribute l.name (some "")] } := by
    simp [Lexer.step, Lexer.stepQuotedValue, bound.trans unbound, name, value, empty]
  have reads := Lexer.Reads.silent opening (.single closing)
  refine ⟨_, _, by simpa [Lexer.placeholder, mode, Target.placeholder] using reads, .same ?_, ?_⟩
  · simp [Lexer.live, Lexer.passHole, Lexer.place, Lexer.bindValue, mode, text, tag, bound]
  · simp [Lexer.passHole, Lexer.place, mode, Item.filled]

/-- A hole between quotes. -/
lemma hole_quoted (live : m.live = l.live) (h : Hole) {quote : Char}
    (mode : l.mode = .quotedValue quote) (empty : l.value = "") (unbound : l.bound = false) :
    ∃ m', m.Reads (l.placeholder h).toList [] m' ∧
      Tracks l.passHole.lexer m' (Item.hole (.attributeValue l.name) h).filled ∧
      l.passHole.events = [] := by
  have passed : l.passHole = { lexer := { l with name := "", bound := true } } := by
    simp only [Lexer.passHole, Lexer.place, Lexer.bindValue, mode, empty, if_true]
  rw [passed]
  refine ⟨m, ?_, .quoted mode rfl ?_, rfl⟩
  · simpa [Lexer.placeholder, mode] using Lexer.Reads.nil
  · rw [live]
    simp only [Lexer.live, mode, unbound]

/-- A hole, if it has a name where it stands in an attribute. -/
lemma hole (tracks : Tracks l m owed) (sound : l.Sound) {read : List Signal}
    (hasRead : l.HasRead read) (h : Hole)
    (place : l.place = .text ∨ ∃ name, l.place = .attributeValue name ∧ name ≠ "") :
    ∃ es owed' m', m.Reads (l.placeholder h).toList es m' ∧
      Tracks l.passHole.lexer m' owed' ∧
      owed ++ (l.passHole.events ++ (Item.hole l.place h).filled) = es ++ owed' := by
  have bound_unnamed {quote : Char} (mode : l.mode = .quotedValue quote) (bound : l.bound = true) :
      l.name = "" ∧ l.value = "" := by
    simpa only [Lexer.LegibleSoFar, mode, bound, if_true] using sound.legible
  cases tracks with
  | same live =>
    obtain place | ⟨name, place, named⟩ := place
    · obtain ⟨es, m', reads, tracks, events⟩ := hole_text live sound h place
      rw [place]
      exact ⟨es, [], m', reads, tracks, by simpa using events⟩
    · obtain ⟨rfl, mode | ⟨quote, mode, empty⟩⟩ := Lexer.mode_of_place_attributeValue place
      · obtain ⟨empty, -⟩ : l.value = "" ∧ _ := by simpa only [Lexer.HasRead, mode] using hasRead
        obtain ⟨es, m', reads, tracks, events⟩ := hole_bare live sound h mode empty
        rw [place]
        exact ⟨es, [], m', reads, tracks, by simpa using events⟩
      · have unbound : l.bound = false := by
          rw [Bool.eq_false_iff]
          intro bound
          exact named (bound_unnamed mode bound).1
        obtain ⟨m', reads, tracks, events⟩ := hole_quoted live h mode empty unbound
        rw [place, events]
        exact ⟨[], _, m', reads, tracks, rfl⟩
  | @quoted quote name mode bound live =>
    obtain ⟨unnamed, empty⟩ := bound_unnamed mode bound
    simp [Lexer.place, mode, empty, unnamed] at place

/-- All signals of a template. What is reported of the filled markup is what the items tell, with
their holes filled. -/
lemma run (tracks : Tracks l m owed) (sound : l.Sound) {read : List Signal}
    (hasRead : l.HasRead read) {signals : List Signal} {last : Lexer}
    (ok : l.passAll? signals = some last) (ended : last.finish.fault = none)
    (places : ∀ place h, .hole place h ∈ itemsAlong l signals →
      place = .text ∨ ∃ name, place = .attributeValue name ∧ name ≠ "") :
    ∃ es m', m.Reads (fillFrom l signals) es m' ∧ m'.finish.fault = none ∧
      owed ++ (itemsAlong l signals).flatMap Item.filled = es ++ m'.finish.events := by
  induction signals generalizing l m owed read with
  | nil =>
    cases ok
    refine ⟨[], m, .nil, ?_⟩
    cases tracks with
    | same live =>
      obtain ⟨events, fault⟩ := Lexer.finish_congr live
      rw [itemsAlong, flatMap_filled_event, events, fault]
      exact ⟨ended, rfl⟩
    | quoted mode bound live => simp [Lexer.finish, mode] at ended
  | cons s signals ih =>
    obtain ⟨between, passed, ok⟩ := Lexer.passAll?_cons.1 ok
    cases s with
    | char c =>
      obtain ⟨fault, rfl⟩ := Lexer.pass?_char.1 passed
      obtain ⟨es, owed', m', stepped, tracks', events⟩ := tracks.step sound fault
      obtain ⟨fs, m'', rest, ended, events'⟩ := ih tracks' (Lexer.step_sound sound c).lexer
        (Lexer.step_hasRead sound hasRead fault) ok
        fun place h mem => places place h (List.mem_append_right _ mem)
      refine ⟨es ++ fs, m'', .cons stepped rest, ended, ?_⟩
      rw [itemsAlong, List.flatMap_append, flatMap_filled_event, ← List.append_assoc, events,
        List.append_assoc, events', List.append_assoc]
    | hole h =>
      obtain ⟨place, rfl⟩ := Lexer.pass?_hole.1 passed
      have here := places l.place h (List.mem_append_right _ List.mem_cons_self)
      obtain ⟨es, owed', m', filled, tracks', events⟩ := tracks.hole sound hasRead h here
      obtain ⟨fs, m'', rest, ended, events'⟩ := ih tracks' (Lexer.passHole_sound sound).lexer
        (Lexer.passHole_hasRead hasRead h place) ok
        fun place h mem => places place h (List.mem_append_right _ (List.mem_cons_of_mem _ mem))
      refine ⟨es ++ fs, m'', filled.append rest, ended, ?_⟩
      rw [itemsAlong, List.flatMap_append, flatMap_filled_event, List.flatMap_cons,
        ← List.append_assoc l.passHole.events, ← List.append_assoc, events, List.append_assoc,
        events', List.append_assoc]

end Tracks

/-- The lexer reads the filled markup of a template without a fault, and reports the items of the
template with their holes filled. -/
lemma items_filledMarkup {chunks : List String} {expressions : List Expression}
    {fragment : Fragment} (ok : parse chunks expressions = .ok fragment)
    (places : ∀ place h, .hole place h ∈ items chunks expressions →
      place = .text ∨ ∃ name, place = .attributeValue name ∧ name ≠ "") :
    let o := ({} : Lexer).write (filledMarkup chunks expressions)
    o.fault = none ∧ o.lexer.finish.fault = none ∧
      (items chunks expressions).flatMap Item.filled = o.events ++ o.lexer.finish.events := by
  obtain ⟨last, run, ended⟩ := passAll?_of_parse ok
  cases chunks with
  | nil => cases ok
  | cons first rest =>
    rw [signals] at run
    rw [items, itemsFrom_eq_along run] at places ⊢
    have start : Tracks {} {} [] := .same rfl
    have hasRead : ({} : Lexer).HasRead [] := trivial
    obtain ⟨es, m, reads, finished, events⟩ :=
      start.run Lexer.sound_empty hasRead run ended places
    have written : ({} : Lexer).write (filledMarkup (first :: rest) expressions) =
        { lexer := m, events := es } := by
      rw [Lexer.write, filledMarkup, String.toList_ofList]
      exact reads
    rw [written]
    exact ⟨rfl, finished, events⟩

end Template

end TaggedMarkup

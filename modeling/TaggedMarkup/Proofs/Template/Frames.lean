import Mathlib
import TaggedMarkup.Proofs.Markup.Grammar

/-!
# The stack of open elements

While a template is read, the open elements stand on the fragment (`Stacked`). Each of them has an
empty piece of markup for its mark, further on than those of the elements around it. The innermost
one has none as long as its start tag is read, and then the lexer is inside of a start tag
(`Skeleton.Framed`).

To close an element that is the fragment itself, or to write a mark outside of the markup, has no
meaning. The checked steps stop there (`Skeleton.closeTop?` and its like). On states that are framed
they agree with the plain ones, so nothing of the kind happens on any input (`parse_framed`).
-/

namespace TaggedMarkup.Template

open Markup (Event Leads Lexer Outcome Sigil isVoid sameName scanBlock scanSigil)

/-! ## Checked steps -/

namespace Skeleton

/-- The open elements, the innermost first, and the fragment. -/
def frames (s : Skeleton) : List Frame := s.top :: s.below

/-- Closes the innermost element, unless there is none or its mark is out of range. -/
def closeTop? (s : Skeleton) : Option Skeleton :=
  if s.below ≠ [] ∧ (s.top.binders ≠ [] → ∀ slot ∈ s.top.slot, slot < s.html.size) then
    some s.closeTop
  else none

/-- Closes the tag of a component, unless there is no element around it. -/
def closeComponent? (s : Skeleton) (component : Binder) : Option Skeleton :=
  if s.below ≠ [] then some (s.closeComponent component) else none

def endOpenTag? (s : Skeleton) (selfClosing : Bool) : Option (Except Cause Skeleton) :=
  match s.top.component with
  | some component =>
    if selfClosing then (s.closeComponent? component).map .ok
    else some (.error (.unsupported .openComponent))
  | none =>
    let name := s.top.name
    let written := s.writeStartTag
    if isVoid name then written.closeTop?.map .ok
    else if selfClosing then (written.put s!"</{name}>").closeTop?.map .ok
    else some (.ok written)

def closeTag? (s : Skeleton) (name : String) : Option (Except Cause Skeleton) :=
  if !s.below.isEmpty && sameName s.top.name name then
    (s.put s!"</{name}>").closeTop?.map .ok
  else if isVoid name then some (.ok s)
  else some (.error (.markup (.closingTag name)))

/-- Takes an event. The others reach for the innermost element only, which is always there. -/
def handle? (s : Skeleton) : Event → Option (Except Cause Skeleton)
  | .openTagEnd selfClosing => s.endOpenTag? selfClosing
  | .closeTag name => s.closeTag? name
  | e => some (s.handle e)

def handleAll? (s : Skeleton) : List Event → Option (Except Cause Skeleton)
  | [] => some (.ok s)
  | e :: es =>
    match s.handle? e with
    | none => none
    | some (.ok s') => s'.handleAll? es
    | some (.error cause) => some (.error cause)

def closeAll? (s : Skeleton) : Nat → Option Skeleton
  | 0 => some s
  | n + 1 =>
    match (s.put s!"</{s.top.name}>").closeTop? with
    | none => none
    | some s' => s'.closeAll? n

end Skeleton

/-! ## Stacks -/

/-- The fragment, which is no element. -/
structure Frame.IsRoot (f : Frame) : Prop where
  name : f.name = ""
  slot : f.slot = none
  component : f.component = none
  attributes : f.attributes = []

/-- Elements whose start tags are written, on the fragment. Their slots lie below `bound`, and are
still empty. -/
inductive Stacked (html : Array String) : Nat → List Frame → Prop
  | root {bound : Nat} {f : Frame} (isRoot : f.IsRoot) : Stacked html bound [f]
  | element {bound slot : Nat} {f : Frame} {fs : List Frame} (own : f.slot = some slot)
      (lt : slot < bound) (empty : html[slot]? = some "") (rest : Stacked html slot fs) :
      Stacked html bound (f :: fs)

namespace Stacked

variable {html html' : Array String} {bound bound' : Nat} {f g : Frame} {fs : List Frame}

/-- There is always a frame. -/
lemma ne_nil (h : Stacked html bound fs) : fs ≠ [] := by
  cases h <;> simp

/-- Frames below a bound are below a larger one. -/
lemma mono (h : Stacked html bound fs) (le : bound ≤ bound') : Stacked html bound' fs := by
  cases h with
  | root isRoot => exact .root isRoot
  | element own lt empty rest => exact .element own (lt.trans_le le) empty rest

/-- Markup may change at the bound and behind it. -/
lemma keep (h : Stacked html bound fs) (same : ∀ i < bound, html[i]? = some "" →
    html'[i]? = some "") : Stacked html' bound fs := by
  induction h with
  | root isRoot => exact .root isRoot
  | element own lt empty rest ih =>
    exact .element own lt (same _ lt empty) (ih fun i below => same i (below.trans lt))

/-- A piece behind those of the frames. -/
lemma push (h : Stacked html html.size fs) (piece : String) :
    Stacked (html.push piece) (html.push piece).size fs := by
  have larger : html.size ≤ (html.push piece).size := by simp
  refine (h.keep ?_).mono larger
  intro i lt empty
  rw [Array.getElem?_push_lt lt, ← Array.getElem?_eq_getElem lt, empty]

/-- An element may change in all but its slot, and the fragment in what makes no element of it. -/
lemma setHead (h : Stacked html bound (f :: fs)) (slot : g.slot = f.slot)
    (root : f.IsRoot → g.IsRoot) : Stacked html bound (g :: fs) := by
  cases h with
  | root isRoot => exact .root (root isRoot)
  | element own lt empty rest => exact .element (slot.trans own) lt empty rest

/-- The last frame is that of the fragment. -/
lemma getLast? (h : Stacked html bound fs) : ∃ f, fs.getLast? = some f ∧ f.IsRoot := by
  induction h with
  | root isRoot => exact ⟨_, rfl, isRoot⟩
  | element own lt empty rest ih =>
    obtain ⟨root, last, isRoot⟩ := ih
    refine ⟨root, ?_, isRoot⟩
    rw [List.getLast?_cons, last]
    rfl

/-- The pieces of the open elements are empty, and are in the order of the frames. -/
lemma slots (h : Stacked html bound fs) :
    ∃ slots : List Nat, fs.dropLast.map Frame.slot = slots.map some ∧
      slots.Pairwise (· > ·) ∧ ∀ i ∈ slots, i < bound ∧ html[i]? = some "" := by
  induction h with
  | root => exact ⟨[], rfl, .nil, by simp⟩
  | element own lt empty rest ih =>
    obtain ⟨slots, map, sorted, all⟩ := ih
    refine ⟨_ :: slots, ?_, .cons (fun i mem => (all i mem).1) sorted, ?_⟩
    · rw [List.dropLast_cons_of_ne_nil rest.ne_nil, List.map_cons, List.map_cons, own, map]
    · intro i mem
      cases mem with
      | head => exact ⟨lt, empty⟩
      | tail _ mem => exact ⟨(all i mem).1.trans lt, (all i mem).2⟩

end Stacked

/-- The children and the binders of the fragment do not matter. -/
lemma Frame.IsRoot.congr {f g : Frame} (h : f.IsRoot) (name : g.name = f.name)
    (slot : g.slot = f.slot) (component : g.component = f.component)
    (attributes : g.attributes = f.attributes) : g.IsRoot :=
  ⟨name.trans h.name, slot.trans h.slot, component.trans h.component,
    attributes.trans h.attributes⟩

namespace Skeleton

/-- The open elements of a skeleton, inside or outside of a start tag. -/
def Framed (s : Skeleton) : Bool → Prop
  | false => Stacked s.html s.html.size s.frames
  | true => s.top.slot = none ∧ Stacked s.html s.html.size s.below

/-- A checked result is the plain one, and what follows it is framed. -/
structure Safe (checked : Option (Except Cause Skeleton)) (plain : Except Cause Skeleton)
    (inTag : Bool) : Prop where
  same : checked = some plain
  framed : ∀ s, plain = .ok s → s.Framed inTag

namespace Safe

variable {s : Skeleton} {b : Bool}

/-- A step that succeeds in a framed state. -/
lemma ok (h : s.Framed b) : Safe (some (.ok s)) (.ok s) b := by
  refine ⟨rfl, ?_⟩
  intro s' eq
  cases eq
  exact h

/-- A step that fails with a cause. -/
lemma error (cause : Cause) : Safe (some (.error cause)) (.error cause) b := by
  refine ⟨rfl, ?_⟩
  intro s' eq
  cases eq

end Safe

variable {s : Skeleton}

/-- A piece keeps the frames. -/
lemma Framed.put (h : s.Framed false) (piece : String) : (s.put piece).Framed false :=
  Stacked.push h piece

/-- A node keeps the frames. -/
lemma Framed.putNode (h : s.Framed false) (piece : String) : (s.putNode piece).Framed false :=
  (h.put piece).setHead rfl fun root => root.congr rfl rfl rfl rfl

/-- The start tag leaves an empty piece for the mark. -/
lemma Framed.writeStartTag (h : s.Framed true) : s.writeStartTag.Framed false := by
  have html : s.writeStartTag.html = ((s.html.push s.top.startTag).push "").push ">" := rfl
  have slot : s.writeStartTag.top.slot = some (s.html.size + 1) := by
    simp [Skeleton.writeStartTag, Skeleton.put, mapTop]
  rw [Framed, html]
  refine .element slot ?_ ?_ ?_
  · simp
  · rw [Array.getElem?_push, if_neg (by simp), Array.getElem?_push, if_pos (by simp)]
  · refine (h.2.mono (Nat.le_succ _)).keep ?_
    intro i _ empty
    have lt : i < s.html.size := (Array.getElem?_eq_some_iff.1 empty).1
    simpa [Array.getElem?_push, lt.ne, show i ≠ s.html.size + 1 by omega,
      show i ≠ s.html.size + 2 by omega] using empty

/-- An element on the stack can be closed: its mark is in range, and its parent is there. -/
lemma Framed.closeTop (h : s.Framed false) (parent : s.below ≠ []) :
    s.closeTop? = some s.closeTop ∧ s.closeTop.Framed false := by
  obtain ⟨html, top, below, pending⟩ := s
  cases h with
  | root => cases parent rfl
  | element own lt empty rest =>
    rename_i slot
    cases below with
    | nil => cases parent rfl
    | cons around below =>
      constructor
      · refine if_pos ⟨parent, ?_⟩
        intro _ other mem
        rw [own] at mem
        cases mem
        exact lt
      · have closed {html' : Array String} {f : Frame} (size : html'.size = html.size)
            (same : ∀ i < slot, html'[i]? = html[i]?) (alike : f.slot = around.slot)
            (root : around.IsRoot → f.IsRoot) : Stacked html' html'.size (f :: below) := by
          refine ((rest.keep ?_).mono (lt.le.trans size.ge)).setHead alike root
          intro i le empty
          rw [same i le, empty]
        rw [Framed, frames, Skeleton.closeTop]
        dsimp only at own ⊢
        rw [own]
        split
        · refine closed (by simp) ?_ rfl fun root => root.congr rfl rfl rfl rfl
          intro i below
          rename_i eq
          cases eq
          rw [Array.getElem?_setIfInBounds_ne below.ne']
        · exact closed rfl (fun _ _ => rfl) rfl fun root => root.congr rfl rfl rfl rfl

/-- An element other than the fragment can be closed. -/
lemma Framed.closeTop_safe (h : s.Framed false) (parent : s.below ≠ []) :
    Safe (s.closeTop?.map .ok) (.ok s.closeTop) false := by
  obtain ⟨same, framed⟩ := h.closeTop parent
  rw [same]
  exact .ok framed

/-! ## Events -/

/-- A start tag can be opened anywhere outside of tags. -/
lemma Framed.openTag (h : s.Framed false) (name : String) :
    Safe (some (s.openTag name)) (s.openTag name) true := by
  refine ⟨rfl, ?_⟩
  have around : Stacked s.html s.html.size (s.top.addChild :: s.below) :=
    h.setHead rfl fun root => root.congr rfl rfl rfl rfl
  intro s' ok
  unfold Skeleton.openTag at ok
  dsimp only at ok
  split at ok
  · split at ok
    · split at ok
      · cases ok
        exact ⟨rfl, around⟩
      · cases ok
    · cases ok
  · cases ok
    exact ⟨rfl, around⟩

/-- The binder of a child keeps the frames. -/
lemma Framed.addChildBinder (h : s.Framed false) (target : Target) (sigil : Sigil)
    (expression : Expression) (slot : Nat) :
    (s.addChildBinder target sigil expression slot).Framed false :=
  (h.putNode target.placeholder).setHead rfl fun root => root.congr rfl rfl rfl rfl

/-- The binder of an attribute keeps the frames. -/
lemma Framed.addAttributeBinder (h : s.Framed true) {name : String} {sigil : Sigil}
    {expression : Expression} {slot : Nat} {s' : Skeleton}
    (ok : s.addAttributeBinder name sigil expression slot = .ok s') : s'.Framed true := by
  unfold Skeleton.addAttributeBinder at ok
  dsimp only at ok
  split at ok
  · split_ifs at ok
    cases ok
    exact h
  · cases ok
    exact h

/-- An attribute keeps the frames. -/
lemma Framed.takeAttribute (h : s.Framed true) (name : String) (value : Option String) :
    (s.takeAttribute name value).Framed true := by
  unfold Skeleton.takeAttribute
  dsimp only
  split <;> exact h

/-- A component can be closed in its start tag. -/
lemma Framed.closeComponent (h : s.Framed true) (component : Binder) :
    Safe ((s.closeComponent? component).map .ok) (.ok (s.closeComponent component)) false := by
  rw [closeComponent?, if_pos h.2.ne_nil]
  apply Safe.ok
  obtain ⟨html, top, below, pending⟩ := s
  cases below with
  | nil => cases h.2.ne_nil rfl
  | cons around below =>
    exact (h.2.push _).setHead rfl fun root => root.congr rfl rfl rfl rfl

/-- A start tag can be ended. -/
lemma Framed.endOpenTag (h : s.Framed true) (selfClosing : Bool) :
    Safe (s.endOpenTag? selfClosing) (s.endOpenTag selfClosing) false := by
  unfold endOpenTag? Skeleton.endOpenTag
  cases s.top.component with
  | some component =>
    cases selfClosing with
    | true => exact h.closeComponent component
    | false => exact .error _
  | none =>
    have written := h.writeStartTag
    have parent : s.writeStartTag.below ≠ [] := h.2.ne_nil
    dsimp only
    split_ifs
    · exact written.closeTop_safe parent
    · exact (written.put _).closeTop_safe parent
    · exact .ok written

/-- An end tag can be taken anywhere outside of tags. -/
lemma Framed.closeTag (h : s.Framed false) (name : String) :
    Safe (s.closeTag? name) (s.closeTag name) false := by
  unfold closeTag? Skeleton.closeTag
  split_ifs with fits
  · have parent : s.below ≠ [] := by
      rw [Bool.and_eq_true] at fits
      simpa using fits.1
    exact (h.put _).closeTop_safe parent
  · exact .ok h
  · exact .error _

/-- An event keeps the stack, and reaches for nothing outside of it. -/
lemma Framed.handle {b b' : Bool} {e : Event} (h : s.Framed b) (next : e.next b = some b') :
    Safe (s.handle? e) (s.handle e) b' := by
  cases e with
  | finish => cases next
  | openTag name =>
    cases b with
    | true => cases next
    | false =>
      cases next
      exact h.openTag name
  | «attribute» name value =>
    cases b with
    | false => cases next
    | true =>
      cases next
      exact .ok (h.takeAttribute name value)
  | openTagEnd selfClosing =>
    cases b with
    | false => cases next
    | true =>
      cases next
      exact h.endOpenTag selfClosing
  | text | comment =>
    cases b with
    | true => cases next
    | false =>
      cases next
      exact .ok (h.putNode _)
  | closeTag name =>
    cases b with
    | true => cases next
    | false =>
      cases next
      exact h.closeTag name

/-- Events and then more events can be taken. -/
lemma Framed.handleAll_append {b b' b'' : Bool} {es es' : List Event} (h : s.Framed b)
    (leads : Leads b es b')
    (h' : ∀ s : Skeleton, s.Framed b' → Safe (s.handleAll? es') (s.handleAll es') b'') :
    Safe (s.handleAll? (es ++ es')) (s.handleAll (es ++ es')) b'' := by
  induction es generalizing s b with
  | nil =>
    cases leads
    exact h' s h
  | cons e es ih =>
    obtain ⟨between, next, rest⟩ := Markup.leads_cons_iff.1 leads
    obtain ⟨same, framed⟩ := h.handle next
    rw [List.cons_append, handleAll?, Skeleton.handleAll, same]
    cases here : s.handle e with
    | error cause => exact .error cause
    | ok s' => exact ih (framed s' here) rest

/-- Events that lead from a state to another can be taken. -/
lemma Framed.handleAll {b b' : Bool} {es : List Event} (h : s.Framed b) (leads : Leads b es b') :
    Safe (s.handleAll? es) (s.handleAll es) b' := by
  rw [← List.append_nil es]
  apply h.handleAll_append leads
  intro s h
  exact .ok h

/-- To close an element takes one frame away. -/
lemma below_closeTop (s : Skeleton) : s.closeTop.below = s.below.tail := by
  unfold Skeleton.closeTop
  split <;> simp_all

/-- All open elements can be closed. -/
lemma Framed.closeAll (h : s.Framed false) (n : Nat) (le : n ≤ s.below.length) :
    s.closeAll? n = some (s.closeAll n) := by
  induction n generalizing s with
  | zero => rfl
  | succ n ih =>
    have parent : s.below ≠ [] := by
      rintro nil
      rw [nil] at le
      cases le
    obtain ⟨same, framed⟩ := (h.put s!"</{s.top.name}>").closeTop parent
    rw [closeAll?, Skeleton.closeAll, same]
    apply ih framed
    rw [below_closeTop, List.length_tail]
    exact Nat.le_sub_one_of_lt le

end Skeleton

/-! ## Signals -/

/-- What a template hands to its parser: a character, or a hole. -/
inductive Signal where
  | char (c : Char)
  | hole (hole : Hole)
  deriving DecidableEq, Repr

/-- The signals from a chunk on. -/
def signalsFrom (slot : Nat) (chunk : String) : List (Expression × String) → List Signal
  | [] => chunk.toList.map .char
  | (expression, next) :: rest =>
    (scanSigil chunk).2.toList.map .char ++
      .hole ⟨slot, (scanSigil chunk).1, (scanBlock next).1, expression⟩ ::
        signalsFrom (slot + 1) (scanBlock next).2 rest

/-- The signals of a template. -/
def signals (chunks : List String) (expressions : List Expression) : List Signal :=
  match chunks with
  | [] => []
  | first :: rest => signalsFrom 0 first (expressions.zip rest)

namespace Parser

/-- Takes a signal. -/
def accept (p : Parser) : Signal → Except Failure Parser
  | .char c => (p.take (p.lexer.step c)).mapError fun cause => ⟨cause, none⟩
  | .hole h =>
    (p.bind h.slot h.sigil h.block h.expression).mapError fun cause =>
      Failure.locate ⟨cause, none⟩ h.expression.offset

/-- Events are taken one after the other. -/
lemma handleAll_append (s : Skeleton) (es es' : List Event) :
    s.handleAll (es ++ es') = s.handleAll es >>= fun s' => s'.handleAll es' := by
  induction es generalizing s with
  | nil => rfl
  | cons e es ih =>
    rw [List.cons_append, Skeleton.handleAll, Skeleton.handleAll]
    cases s.handle e with
    | error cause => rfl
    | ok s' => exact ih s'

/-- One piece of input behind another. -/
lemma take_andThen (p : Parser) (o : Outcome) (next : Lexer → Outcome) :
    p.take (o.andThen next) = p.take o >>= fun q => q.take (next q.lexer) := by
  cases fault : o.fault with
  | some cause =>
    rw [Outcome.andThen_of_some fault]
    unfold take
    rw [fault]
    cases p.skeleton.handleAll o.events <;> rfl
  | none =>
    rw [Outcome.andThen_of_none fault]
    unfold take
    rw [fault, Outcome.after, handleAll_append]
    cases p.skeleton.handleAll o.events <;> rfl

/-- A chunk is written character by character. -/
lemma write_eq_accept (p : Parser) (text : String) :
    (p.write text).mapError (fun cause => ⟨cause, none⟩) =
      (text.toList.map Signal.char).foldlM accept p := by
  unfold write Lexer.write
  generalize text.toList = cs
  induction cs generalizing p with
  | nil => rfl
  | cons c cs ih =>
    rw [Lexer.writeList, take_andThen, List.map_cons, List.foldlM_cons, accept]
    cases p.take (p.lexer.step c) with
    | error cause => rfl
    | ok q => exact ih q

/-- A template is read signal by signal. -/
lemma run_eq_accept (p : Parser) (slot : Nat) (chunk : String) (rest : List (Expression × String)) :
    p.run slot chunk rest = (signalsFrom slot chunk rest).foldlM accept p := by
  induction rest generalizing p slot chunk with
  | nil =>
    rw [run, signalsFrom, ← write_eq_accept]
    cases p.write chunk <;> rfl
  | cons pair rest ih =>
    obtain ⟨expression, next⟩ := pair
    rw [run, signalsFrom, List.foldlM_append, ← write_eq_accept]
    dsimp only
    cases p.write (scanSigil chunk).2 with
    | error cause => rfl
    | ok q =>
      change _ = q.accept (.hole ⟨slot, (scanSigil chunk).1, (scanBlock next).1, expression⟩) >>=
        fun r => (signalsFrom (slot + 1) (scanBlock next).2 rest).foldlM accept r
      rw [accept]
      dsimp only
      cases q.bind slot (scanSigil chunk).1 (scanBlock next).1 expression with
      | error cause => rfl
      | ok r => exact ih r _ _

/-! Checked as the steps of the skeleton are. Among the holes only those between child nodes report
something, and the others reach for the innermost element only. -/

def take? (p : Parser) (o : Outcome) : Option (Except Cause Parser) :=
  match p.skeleton.handleAll? o.events with
  | none => none
  | some (.error cause) => some (.error cause)
  | some (.ok skeleton) =>
    match o.fault with
    | some cause => some (.error cause)
    | none => some (.ok ⟨o.lexer, skeleton⟩)

def accept? (p : Parser) : Signal → Option (Except Failure Parser)
  | .char c =>
    (p.take? (p.lexer.step c)).map fun result => result.mapError fun cause => ⟨cause, none⟩
  | .hole h => (p.take? p.lexer.flush).map fun _ => p.accept (.hole h)

def finish? (p : Parser) : Option (Except Failure Fragment) :=
  match p.take? p.lexer.finish with
  | none => none
  | some (.error cause) => some (.error ⟨cause, none⟩)
  | some (.ok q) =>
    (q.skeleton.closeAll? q.skeleton.below.length).map fun _ => .ok q.skeleton.finish

/-- The open elements fit the mode of the lexer. -/
def Framed (p : Parser) : Prop := p.skeleton.Framed p.lexer.mode.inTag

variable {p : Parser}

/-- What the lexer reports can be taken. -/
lemma Framed.take (h : p.Framed) {o : Outcome} (leads : o.Leads p.lexer.mode.inTag) :
    p.take? o = some (p.take o) ∧ ∀ q, p.take o = .ok q → q.Framed := by
  obtain ⟨same, framed⟩ := Skeleton.Framed.handleAll h leads
  unfold take? Parser.take
  rw [same]
  cases here : p.skeleton.handleAll o.events with
  | error cause =>
    refine ⟨rfl, ?_⟩
    intro q ok
    cases ok
  | ok s =>
    cases o.fault with
    | some cause =>
      refine ⟨rfl, ?_⟩
      intro q ok
      cases ok
    | none =>
      refine ⟨rfl, ?_⟩
      intro q ok
      cases ok
      exact framed s here

/-- A hole keeps the stack. -/
lemma Framed.bind (h : p.Framed) {hole : Hole} {q : Parser}
    (ok : p.bind hole.slot hole.sigil hole.block hole.expression = .ok q) : q.Framed := by
  rw [Parser.bind] at ok
  split at ok
  · rename_i place
    have mode := Lexer.mode_of_place_text place
    split at ok
    · cases ok
    · rename_i r taken
      obtain ⟨-, -, lexer⟩ := take_ok taken
      have outside : r.lexer.mode.inTag = false := by
        rw [lexer, Lexer.flush, mode]
        rfl
      have framed := (h.take (Lexer.flush_leads _)).2 r taken
      cases ok
      rw [Framed, outside] at framed ⊢
      exact framed.addChildBinder _ _ _ _
  · rename_i name place
    have inside : p.lexer.mode.inTag = true := by
      obtain ⟨-, mode | ⟨quote, mode, -⟩⟩ := Lexer.mode_of_place_attributeValue place <;>
        rw [mode] <;> rfl
    split at ok
    · cases ok
    · split at ok
      · cases ok
      · rename_i l name' bound
        have tag : l.mode.inTag = true := by
          rw [← inside, ← Lexer.inTag_bindValue p.lexer, bound]
        split at ok
        · cases ok
        · rename_i s' added
          cases ok
          rw [Framed, inside] at h
          rw [Framed, tag]
          exact h.addAttributeBinder added
  · split_ifs at ok
    cases ok
    exact h
  · cases ok

/-- A signal can be accepted. -/
lemma Framed.accept (h : p.Framed) (signal : Signal) :
    p.accept? signal = some (p.accept signal) ∧ ∀ q, p.accept signal = .ok q → q.Framed := by
  cases signal with
  | char c =>
    obtain ⟨same, framed⟩ := h.take (Lexer.step_leads p.lexer c)
    rw [accept?, Parser.accept, same]
    refine ⟨rfl, ?_⟩
    intro q ok
    cases here : p.take (p.lexer.step c) with
    | error cause => rw [here] at ok; cases ok
    | ok r =>
      rw [here] at ok
      cases ok
      exact framed q here
  | hole hole =>
    obtain ⟨same, -⟩ := h.take (Lexer.flush_leads p.lexer)
    rw [accept?, same]
    refine ⟨rfl, ?_⟩
    intro q ok
    rw [Parser.accept] at ok
    cases here : p.bind hole.slot hole.sigil hole.block hole.expression with
    | error cause => rw [here] at ok; cases ok
    | ok r =>
      rw [here] at ok
      cases ok
      exact h.bind here

/-- A template can be finished. -/
lemma Framed.finish (h : p.Framed) : p.finish? = some p.finish := by
  unfold finish? Parser.finish take? Parser.take
  cases fault : p.lexer.finish.fault with
  | some cause =>
    rw [Lexer.finish_refused fault]
    rfl
  | none =>
    obtain ⟨es, events, leads, -⟩ := Lexer.finish_leads fault
    have safe : Skeleton.Safe (p.skeleton.handleAll? (es ++ [.finish]))
        (p.skeleton.handleAll (es ++ [.finish])) false := by
      apply Skeleton.Framed.handleAll_append h leads
      intro s h
      exact .ok h
    obtain ⟨same, framed⟩ := safe
    rw [events, same]
    cases here : p.skeleton.handleAll (es ++ [.finish]) with
    | error cause => rfl
    | ok s =>
      dsimp only
      rw [(framed s here).closeAll _ le_rfl]
      rfl

/-- Signals keep the frames. -/
lemma Framed.acceptAll (h : p.Framed) {signals : List Signal} {q : Parser}
    (ok : signals.foldlM Parser.accept p = .ok q) : q.Framed := by
  induction signals generalizing p with
  | nil =>
    cases ok
    exact h
  | cons signal signals ih =>
    rw [List.foldlM_cons] at ok
    cases here : p.accept signal with
    | error failure => rw [here] at ok; cases ok
    | ok r =>
      rw [here] at ok
      exact ih ((h.accept signal).2 r here) ok

/-- The open elements of a parser, in full. -/
structure WellFramed (p : Parser) : Prop where
  /-- The fragment is at the bottom of the stack. -/
  root : ∃ f, p.skeleton.frames.getLast? = some f ∧ f.IsRoot
  /-- The lexer is inside of a start tag just if the innermost element has none yet. -/
  inTag : p.lexer.mode.inTag = true ↔ 2 ≤ p.skeleton.frames.length ∧ p.skeleton.top.slot = none
  /-- The other elements have slots, all empty, which increase from the outer to the inner ones. -/
  slots : ∃ slots : List Nat,
    (if p.lexer.mode.inTag then p.skeleton.below else p.skeleton.frames).dropLast.map Frame.slot =
        slots.map some ∧
      slots.Pairwise (· > ·) ∧ ∀ i ∈ slots, p.skeleton.html[i]? = some ""

/-- The frames of a template that is read in part are as they should be. -/
lemma Framed.wellFramed (h : p.Framed) : p.WellFramed := by
  unfold Framed at h
  cases inTag : p.lexer.mode.inTag with
  | false =>
    rw [inTag] at h
    obtain ⟨slots, map, sorted, all⟩ := h.slots
    refine ⟨h.getLast?, ?_, slots, ?_, sorted, fun i mem => (all i mem).2⟩
    · rw [inTag]
      refine iff_of_false Bool.false_ne_true ?_
      rintro ⟨length, none⟩
      -- An element outside of a start tag has a slot, and without one there is only the fragment.
      have stacked : Stacked p.skeleton.html p.skeleton.html.size
          (p.skeleton.top :: p.skeleton.below) := h
      cases below : p.skeleton.below with
      | nil => simp [Skeleton.frames, below] at length
      | cons f fs =>
        rw [below] at stacked
        cases stacked with
        | element own =>
          rw [own] at none
          cases none
    · rw [inTag]
      exact map
  | true =>
    rw [inTag] at h
    obtain ⟨none, stacked⟩ := h
    obtain ⟨root, last, isRoot⟩ := stacked.getLast?
    obtain ⟨slots, map, sorted, all⟩ := stacked.slots
    refine ⟨⟨root, ?_, isRoot⟩, ?_, slots, ?_, sorted, fun i mem => (all i mem).2⟩
    · rw [Skeleton.frames, List.getLast?_cons, last]
      rfl
    · rw [inTag]
      have length := List.length_pos_iff.2 stacked.ne_nil
      exact iff_of_true rfl ⟨Nat.succ_le_succ length, none⟩
    · rw [inTag]
      exact map

end Parser

/-- A template is read signal by signal. After every one, up to the end or the first failure, the
open elements are well framed, and whatever comes next reaches for nothing that is out of range. -/
theorem parse_framed (chunks : List String) (expressions : List Expression) :
    (chunks.length = expressions.length + 1 →
      parse chunks expressions =
        (signals chunks expressions).foldlM Parser.accept {} >>= Parser.finish) ∧
    ∀ before behind p, signals chunks expressions = before ++ behind →
      before.foldlM Parser.accept {} = .ok p →
        p.WellFramed ∧ (∀ signal, p.accept? signal = some (p.accept signal)) ∧
          p.finish? = some p.finish := by
  refine ⟨?_, ?_⟩
  · intro length
    cases chunks with
    | nil => cases length
    | cons first rest =>
      have fits : rest.length = expressions.length := Nat.succ_injective length
      rw [parse, if_pos fits, Parser.run_eq_accept, signals]
      cases (signalsFrom 0 first (expressions.zip rest)).foldlM Parser.accept {} <;> rfl
  · intro before behind p _ ok
    have start : ({} : Parser).Framed := .root ⟨rfl, rfl, rfl, rfl⟩
    have framed := start.acceptAll ok
    exact ⟨framed.wellFramed, fun signal => (framed.accept signal).1, framed.finish⟩

/-- The attribute of a list item is bound: the item has no slot yet, and the list has one. -/
theorem parse_framed_item :
    let chunks := ["<ul>a<li b=", "></ul>"]
    let expressions : List Expression := [{ source := "x" }]
    let before := (signals chunks expressions).take 12
    let behind := (signals chunks expressions).drop 12
    signals chunks expressions = before ++ behind ∧
      ∃ p, before.foldlM Parser.accept {} = .ok p ∧
        p.skeleton.frames.map (fun f => (f.name, f.slot)) =
          [("li", none), ("ul", some 1), ("", none)] ∧
        p.lexer.mode = .beforeAttribute ∧ p.WellFramed := by
  intro chunks expressions before behind
  have split : signals chunks expressions = before ++ behind := (List.take_append_drop 12 _).symm
  refine ⟨split, ?_⟩
  have view : (before.foldlM Parser.accept {}).toOption.map (fun p =>
      (p.skeleton.frames.map (fun f => (f.name, f.slot)), p.lexer.mode)) =
        some ([("li", none), ("ul", some 1), ("", none)], .beforeAttribute) := by
    decide +kernel
  cases ok : before.foldlM Parser.accept {} with
  | error failure =>
    rw [ok] at view
    cases view
  | ok p =>
    rw [ok] at view
    obtain ⟨frames, mode⟩ := Prod.mk.inj (Option.some.inj view)
    exact ⟨p, rfl, frames, mode, ((parse_framed chunks expressions).2 before behind p split ok).1⟩

end TaggedMarkup.Template

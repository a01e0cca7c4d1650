import Mathlib
import TaggedMarkup.Template.Parser

/-!
# Templates and their expressions

The expressions of a template have no part in how it is read. Two readings of the same chunks, with
expressions of their own, go through states that agree in all but the expressions (`Parser.Alike`),
so they end in the same way (`parse_independent`): with the same markup and with binders that differ
only in what is carried for each slot, or with the same cause at the offset of the same slot.
-/

namespace TaggedMarkup.Template

open Markup (Event Lexer Outcome Sigil scanBlock scanSigil)

/-! ## Binders of two readings -/

/-- Two binders agree in all but their expressions and properties. -/
structure Binder.SameShape (b b' : Binder) : Prop where
  target : b.target = b'.target
  sigil : b.sigil = b'.sigil
  slot : b.slot = b'.slot
  index : b.index = b'.index
  node : b.node = b'.node
  observables : b.observables = b'.observables
  entry : b.entry = b'.entry
  child : b.child = b'.child

/-- A binder has its own shape. -/
lemma Binder.SameShape.refl (b : Binder) : b.SameShape b :=
  ⟨rfl, rfl, rfl, rfl, rfl, rfl, rfl, rfl⟩

section

variable (es es' : List Expression)

/-- Two expressions stand in the same slot. -/
structure Carried (slot : Nat) (e e' : Expression) : Prop where
  left : es[slot]? = some e
  right : es'[slot]? = some e'

/-- Two expressions stand in the same slot, or are literals of one text in the tag of a component in
the same slot. -/
inductive Stands (slot : Nat) : Expression → Expression → Prop where
  | carried {e e' : Expression} : Carried es es' slot e e' → Stands slot e e'
  | literal {c c' : Expression} (text : String) :
    Carried es es' slot c c' → Stands slot (.ofText text c.offset) (.ofText text c'.offset)

/-- Two properties of components differ in their expressions only. -/
structure Property.Alike (p p' : Binder) : Prop extends p.SameShape p' where
  plain : p.properties = [] ∧ p'.properties = []
  expression : Stands es es' p.slot p.expression p'.expression

/-- Two binders differ only in their expressions and in those of their properties. -/
structure Binder.Alike (b b' : Binder) : Prop extends b.SameShape b' where
  expression : Carried es es' b.slot b.expression b'.expression
  properties : List.Forall₂ (Property.Alike es es') b.properties b'.properties

/-- Two failures have one cause, and no offset or that of the expressions in one slot. -/
structure SameFailure (f f' : Failure) : Prop where
  cause : f.cause = f'.cause
  offset : f.offset = none ∧ f'.offset = none ∨
    ∃ slot e e', Carried es es' slot e e' ∧ f.offset = some e.offset ∧ f'.offset = some e'.offset

/-- Two open elements differ only in the expressions of their binders. -/
structure Frame.Alike (f f' : Frame) : Prop where
  name : f.name = f'.name
  attributes : f.attributes = f'.attributes
  children : f.children = f'.children
  slot : f.slot = f'.slot
  binders : List.Forall₂ (Binder.Alike es es') f.binders f'.binders
  groups : List.Forall₂ (List.Forall₂ (Binder.Alike es es')) f.groups f'.groups
  component : Option.Rel (Binder.Alike es es') f.component f'.component

/-- Two skeletons differ only in the expressions of their binders. -/
structure Skeleton.Alike (s s' : Skeleton) : Prop where
  html : s.html = s'.html
  top : Frame.Alike es es' s.top s'.top
  below : List.Forall₂ (Frame.Alike es es') s.below s'.below
  pending : Option.Rel (Binder.Alike es es') s.pending s'.pending

/-- Two readings differ only in the expressions of their binders. -/
structure Parser.Alike (p p' : Parser) : Prop where
  lexer : p.lexer = p'.lexer
  skeleton : Skeleton.Alike es es' p.skeleton p'.skeleton

end

/-- Two steps fail in ways that belong together, or return values that belong together. -/
inductive Agree {ε α : Type} (fails : ε → ε → Prop) (returns : α → α → Prop) :
    Except ε α → Except ε α → Prop where
  | error {f f' : ε} : fails f f' → Agree fails returns (.error f) (.error f')
  | ok {a a' : α} : returns a a' → Agree fails returns (.ok a) (.ok a')

variable {es es' : List Expression}

/-! ## Elements -/

namespace Frame.Alike

variable {f f' : Frame}

/-- Frames stay alike with one more child each. -/
lemma addChild (alike : Frame.Alike es es' f f') : Frame.Alike es es' f.addChild f'.addChild :=
  { alike with children := congrArg (· + 1) alike.children }

/-- Frames stay alike with binders that are alike. -/
lemma addBinder {b b' : Binder} (alike : Frame.Alike es es' f f')
    (binder : Binder.Alike es es' b b') :
    Frame.Alike es es' (f.addBinder b) (f'.addBinder b') :=
  { alike with binders := List.rel_append alike.binders (.cons binder .nil) }

/-- Frames stay alike with the same attribute. -/
lemma setAttribute (alike : Frame.Alike es es' f f') (name : String) (value : AttributeValue) :
    Frame.Alike es es' { f with attributes := Template.setAttribute name value f.attributes }
      { f' with attributes := Template.setAttribute name value f'.attributes } :=
  { alike with attributes := congrArg (Template.setAttribute name value) alike.attributes }

/-- An element hosts a binder in both readings or in none. -/
lemma isEmpty_binders (alike : Frame.Alike es es' f f') :
    f.binders.isEmpty = f'.binders.isEmpty := by
  have length := alike.binders.length_eq
  rw [Bool.eq_iff_iff, List.isEmpty_iff_length_eq_zero, List.isEmpty_iff_length_eq_zero, length]

/-- Frames that are alike have groups that are alike. -/
lemma ownGroup (alike : Frame.Alike es es' f f') :
    List.Forall₂ (List.Forall₂ (Binder.Alike es es')) f.ownGroup f'.ownGroup := by
  rw [Frame.ownGroup, Frame.ownGroup, alike.isEmpty_binders]
  split
  · exact .nil
  · exact .cons alike.binders .nil

/-- Frames that are alike have the same start tag. -/
lemma startTag (alike : Frame.Alike es es' f f') : f.startTag = f'.startTag := by
  rw [Frame.startTag, Frame.startTag, alike.name, alike.attributes]

end Frame.Alike

/-- A further property of two components. -/
lemma Binder.Alike.addProperty {b b' p p' : Binder} (alike : Binder.Alike es es' b b')
    (property : Property.Alike es es' p p') :
    Binder.Alike es es' { b with properties := b.properties ++ [p] }
      { b' with properties := b'.properties ++ [p'] } :=
  { alike with properties := List.rel_append alike.properties (.cons property .nil) }

/-! ## Skeletons -/

namespace Skeleton.Alike

variable {s s' : Skeleton}

/-- Skeletons stay alike with the same piece. -/
lemma put (alike : Skeleton.Alike es es' s s') (piece : String) :
    Skeleton.Alike es es' (s.put piece) (s'.put piece) :=
  { alike with html := congrArg (·.push piece) alike.html }

/-- Skeletons stay alike with the same node. -/
lemma putNode (alike : Skeleton.Alike es es' s s') (piece : String) :
    Skeleton.Alike es es' (s.putNode piece) (s'.putNode piece) :=
  { alike.put piece with top := alike.top.addChild }

/-- Skeletons stay alike with binders of a child in the same slot. -/
lemma addChildBinder {e e' : Expression} {slot : Nat} (alike : Skeleton.Alike es es' s s')
    (target : Target) (sigil : Sigil) (carried : Carried es es' slot e e') :
    Skeleton.Alike es es' (s.addChildBinder target sigil e slot)
      (s'.addChildBinder target sigil e' slot) := by
  refine { alike.putNode target.placeholder with top := alike.top.addChild.addBinder ?_ }
  exact { Binder.SameShape.refl _ with
    index := congrArg Index.child alike.top.children, expression := carried, properties := .nil }

/-- A hole in an attribute value is a property of a component, or else an attribute with a
binder. -/
lemma addAttributeBinder {e e' : Expression} {slot : Nat} (alike : Skeleton.Alike es es' s s')
    (name : String) (sigil : Sigil) (carried : Carried es es' slot e e') :
    Agree Eq (Skeleton.Alike es es') (s.addAttributeBinder name sigil e slot)
      (s'.addAttributeBinder name sigil e' slot) := by
  have component := alike.top.component
  rw [Skeleton.addAttributeBinder, Skeleton.addAttributeBinder]
  generalize s.top.component = c, s'.top.component = c' at component
  cases component with
  | none =>
    refine .ok { alike with top := (alike.top.setAttribute name .bound).addBinder ?_ }
    exact { Binder.SameShape.refl _ with expression := carried, properties := .nil }
  | some component =>
    by_cases plain : sigil = .none
    · simp only [plain, if_true]
      refine .ok { alike with top := { alike.top with component := .some ?_ } }
      refine component.addProperty ?_
      exact { Binder.SameShape.refl _ with plain := ⟨rfl, rfl⟩, expression := .carried carried }
    · simp only [plain, if_false]
      exact .error rfl

/-- Skeletons stay alike with components in the same slot. -/
lemma setComponent {e e' : Expression} {slot : Nat} (alike : Skeleton.Alike es es' s s')
    (sigil : Sigil) (carried : Carried es es' slot e e') :
    Skeleton.Alike es es' (s.setComponent sigil e slot) (s'.setComponent sigil e' slot) :=
  { alike with
    pending := .some
      { Binder.SameShape.refl _ with expression := carried, properties := .nil } }

/-- Skeletons stay alike with frames that are alike. -/
lemma push {f f' : Frame} (alike : Skeleton.Alike es es' s s') (frame : Frame.Alike es es' f f') :
    Skeleton.Alike es es' (s.push f) (s'.push f') :=
  { alike with top := frame, below := .cons alike.top alike.below }

/-- Both readings mark an element or none does, at the same piece of the markup. -/
lemma closeTop (alike : Skeleton.Alike es es' s s') :
    Skeleton.Alike es es' s.closeTop s'.closeTop := by
  have below := alike.below
  rw [Skeleton.closeTop, Skeleton.closeTop]
  generalize s.below = fs, s'.below = fs' at below
  cases below with
  | nil => exact alike
  | cons parent below =>
    simp only [alike.top.isEmpty_binders, alike.top.slot, alike.html]
    refine ⟨rfl, ?_, below, alike.pending⟩
    have groups := List.rel_append parent.groups alike.top.ownGroup
    exact { parent with groups := List.rel_append groups alike.top.groups }

/-- Skeletons stay alike when components that are alike are closed. -/
lemma closeComponent {b b' : Binder} (alike : Skeleton.Alike es es' s s')
    (binder : Binder.Alike es es' b b') :
    Skeleton.Alike es es' (s.closeComponent b) (s'.closeComponent b') := by
  have below := alike.below
  rw [Skeleton.closeComponent, Skeleton.closeComponent, ← binder.target]
  generalize s.below = fs, s'.below = fs' at below
  cases below with
  | nil => exact alike
  | cons parent below =>
    exact { alike.put b.target.placeholder with top := parent.addBinder binder, below := below }

/-- Skeletons stay alike when a start tag is written. -/
lemma writeStartTag (alike : Skeleton.Alike es es' s s') :
    Skeleton.Alike es es' s.writeStartTag s'.writeStartTag := by
  have tagged := alike.put s.top.startTag
  rw [Skeleton.writeStartTag, Skeleton.writeStartTag, ← alike.top.startTag]
  refine { (tagged.put "").put ">" with top := { alike.top with slot := ?_ } }
  exact congrArg (fun html => some html.size) tagged.html

/-- A start tag is opened in both skeletons, or fails in both. -/
lemma openTag (alike : Skeleton.Alike es es' s s') (name : String) :
    Agree Eq (Skeleton.Alike es es') (s.openTag name) (s'.openTag name) := by
  have counted : Skeleton.Alike es es' (s.mapTop .addChild) (s'.mapTop .addChild) :=
    { alike with top := alike.top.addChild }
  have pending := alike.pending
  rw [Skeleton.openTag, Skeleton.openTag, alike.top.children]
  generalize s.pending = c, s'.pending = c' at pending
  split
  · cases pending with
    | none => exact .error rfl
    | some component =>
      by_cases named : name = componentTag
      · simp only [named, if_true]
        refine .ok (push { counted with pending := .none } ⟨rfl, rfl, rfl, rfl, .nil, .nil, ?_⟩)
        exact .some { component with index := rfl }
      · simp only [named, if_false]
        exact .error rfl
  · exact .ok (counted.push ⟨rfl, rfl, rfl, rfl, .nil, .nil, .none⟩)

/-- A fixed value is a literal with the offset of the component in both readings, or an
attribute. -/
lemma takeAttribute (alike : Skeleton.Alike es es' s s') (name : String) (value : Option String) :
    Skeleton.Alike es es' (s.takeAttribute name value) (s'.takeAttribute name value) := by
  have component := alike.top.component
  rw [Skeleton.takeAttribute, Skeleton.takeAttribute]
  generalize s.top.component = c, s'.top.component = c' at component
  cases component with
  | none => exact { alike with top := alike.top.setAttribute name _ }
  | some component =>
    refine { alike with top := { alike.top with component := .some (component.addProperty ?_) } }
    exact { Binder.SameShape.refl _ with
      slot := component.slot, plain := ⟨rfl, rfl⟩, expression := .literal _ component.expression }

/-- A start tag is ended in both skeletons, or fails in both. -/
lemma endOpenTag (alike : Skeleton.Alike es es' s s') (selfClosing : Bool) :
    Agree Eq (Skeleton.Alike es es') (s.endOpenTag selfClosing) (s'.endOpenTag selfClosing) := by
  have component := alike.top.component
  have written := alike.writeStartTag
  rw [Skeleton.endOpenTag, Skeleton.endOpenTag, alike.top.name]
  generalize s.top.component = c, s'.top.component = c' at component
  cases component with
  | none =>
    simp only
    split
    · exact .ok written.closeTop
    · split
      · exact .ok (written.put _).closeTop
      · exact .ok written
  | some component =>
    cases selfClosing with
    | false => exact .error rfl
    | true => exact .ok (alike.closeComponent component)

/-- An end tag is taken by both skeletons, or fails in both. -/
lemma closeTag (alike : Skeleton.Alike es es' s s') (name : String) :
    Agree Eq (Skeleton.Alike es es') (s.closeTag name) (s'.closeTag name) := by
  have depth : s.below.isEmpty = s'.below.isEmpty := by
    have length := alike.below.length_eq
    rw [Bool.eq_iff_iff, List.isEmpty_iff_length_eq_zero, List.isEmpty_iff_length_eq_zero, length]
  rw [Skeleton.closeTag, Skeleton.closeTag, depth, alike.top.name]
  split
  · exact .ok (alike.put _).closeTop
  · split
    · exact .ok alike
    · exact .error rfl

/-- An event is taken by both skeletons, or fails in both. -/
lemma handle (alike : Skeleton.Alike es es' s s') (e : Event) :
    Agree Eq (Skeleton.Alike es es') (s.handle e) (s'.handle e) := by
  cases e with
  | openTag name => exact alike.openTag name
  | «attribute» name value => exact .ok (alike.takeAttribute name value)
  | openTagEnd selfClosing => exact alike.endOpenTag selfClosing
  | text text => exact .ok (alike.putNode text)
  | closeTag name => exact alike.closeTag name
  | comment text => exact .ok (alike.putNode _)
  | finish => exact .ok alike

/-- Events are taken by both skeletons, or fail in both. -/
lemma handleAll (alike : Skeleton.Alike es es' s s') (events : List Event) :
    Agree Eq (Skeleton.Alike es es') (s.handleAll events) (s'.handleAll events) := by
  induction events generalizing s s' with
  | nil => exact .ok alike
  | cons e events ih =>
    have first := alike.handle e
    rw [Skeleton.handleAll, Skeleton.handleAll]
    generalize s.handle e = r, s'.handle e = r' at first
    cases first with
    | error same => exact .error same
    | ok alike => exact ih alike

/-- Skeletons stay alike when elements are closed. -/
lemma closeAll (alike : Skeleton.Alike es es' s s') (n : Nat) :
    Skeleton.Alike es es' (s.closeAll n) (s'.closeAll n) := by
  induction n generalizing s s' with
  | zero => exact alike
  | succ n ih =>
    rw [Skeleton.closeAll, Skeleton.closeAll, alike.top.name]
    exact ih (alike.put _).closeTop

end Skeleton.Alike

/-- Two fragments differ only in the expressions of their binders. -/
structure Fragment.Alike (es es' : List Expression) (f f' : Fragment) : Prop where
  html : f.html = f'.html
  binders : List.Forall₂ (Binder.Alike es es') f.binders f'.binders

/-- Groups that are alike are numbered alike. -/
lemma number_alike {groups groups' : List (List Binder)} (n : Nat)
    (alike : List.Forall₂ (List.Forall₂ (Binder.Alike es es')) groups groups') :
    List.Forall₂ (Binder.Alike es es') (Skeleton.number n groups) (Skeleton.number n groups') := by
  induction alike generalizing n with
  | nil => exact .nil
  | @cons group group' _ _ first _ ih =>
    have numbered : List.Forall₂ (Binder.Alike es es')
        (group.map fun b => { b with node := some n })
        (group'.map fun b => { b with node := some n }) := by
      exact List.rel_map (fun b b' alike => { alike with node := rfl }) first
    exact List.rel_append numbered (ih (n + 1))

/-- Skeletons that are alike give fragments that are alike. -/
lemma Skeleton.Alike.finish {s s' : Skeleton} (alike : Skeleton.Alike es es' s s') :
    Fragment.Alike es es' s.finish s'.finish := by
  have closed := alike.closeAll s.below.length
  rw [Skeleton.finish, Skeleton.finish, ← alike.below.length_eq]
  refine ⟨congrArg (fun html => String.join html.toList) closed.html, ?_⟩
  exact number_alike 0 (List.rel_append closed.top.groups closed.top.ownGroup)

/-! ## Readings -/

namespace Parser.Alike

variable {p p' : Parser}

/-- What the lexer reports is taken by both parsers, or fails in both. -/
lemma take (alike : Parser.Alike es es' p p') (o : Outcome) :
    Agree Eq (Parser.Alike es es') (p.take o) (p'.take o) := by
  have handled := alike.skeleton.handleAll o.events
  rw [Parser.take, Parser.take]
  generalize p.skeleton.handleAll o.events = r, p'.skeleton.handleAll o.events = r' at handled
  cases handled with
  | error same => exact .error same
  | ok skeleton =>
    cases o.fault with
    | some cause => exact .error rfl
    | none => exact .ok ⟨rfl, skeleton⟩

/-- A chunk is written by both parsers, or fails in both. -/
lemma write (alike : Parser.Alike es es' p p') (text : String) :
    Agree Eq (Parser.Alike es es') (p.write text) (p'.write text) := by
  rw [Parser.write, Parser.write, ← alike.lexer]
  exact alike.take _

/-- A hole is bound or refused by its place, its sigil and its block marker. -/
lemma bind {e e' : Expression} {slot : Nat} (alike : Parser.Alike es es' p p') (sigil : Sigil)
    (block : Bool) (carried : Carried es es' slot e e') :
    Agree Eq (Parser.Alike es es') (p.bind slot sigil block e) (p'.bind slot sigil block e') := by
  rw [Parser.bind, Parser.bind, ← alike.lexer]
  split
  · have flushed := alike.take p.lexer.flush
    generalize p.take p.lexer.flush = r, p'.take p.lexer.flush = r' at flushed
    cases flushed with
    | error same => exact .error same
    | ok alike => exact .ok { alike with skeleton := alike.skeleton.addChildBinder _ sigil carried }
  · split
    · exact .error rfl
    · split
      · exact .error rfl
      · rename_i name bound
        have added := alike.skeleton.addAttributeBinder name sigil carried
        generalize p.skeleton.addAttributeBinder name sigil e slot = r,
          p'.skeleton.addAttributeBinder name sigil e' slot = r' at added
        cases added with
        | error same => exact .error same
        | ok skeleton => exact .ok ⟨rfl, skeleton⟩
  · split
    · split
      · exact .error rfl
      · split
        · exact .ok ⟨rfl, alike.skeleton.setComponent sigil carried⟩
        · exact .error rfl
    · exact .error rfl
  · exact .error rfl

end Parser.Alike

/-- A failure without an offset. -/
lemma SameFailure.unlocated (cause : Cause) : SameFailure es es' ⟨cause, none⟩ ⟨cause, none⟩ :=
  ⟨rfl, .inl ⟨rfl, rfl⟩⟩

/-- A failure at the expressions of one slot. -/
lemma SameFailure.located {slot : Nat} {e e' : Expression} (cause : Cause)
    (carried : Carried es es' slot e e') :
    SameFailure es es' (Failure.locate ⟨cause, none⟩ e.offset)
      (Failure.locate ⟨cause, none⟩ e'.offset) := by
  cases cause with
  | binder fault => exact .unlocated _
  | _ => exact ⟨rfl, .inr ⟨slot, e, e', carried, rfl, rfl⟩⟩

/-- The last chunk of a template. -/
lemma Parser.Alike.runLast {p p' : Parser} (alike : Parser.Alike es es' p p') (slot : Nat)
    (chunk : String) :
    Agree (SameFailure es es') (Parser.Alike es es') (p.run slot chunk [])
      (p'.run slot chunk []) := by
  have written := alike.write chunk
  rw [Parser.run, Parser.run]
  generalize p.write chunk = r, p'.write chunk = r' at written
  cases written with
  | error same => exact .error (same ▸ .unlocated _)
  | ok alike => exact .ok alike

/-- The rest of a template, where the expressions in `done` have been read. -/
lemma Parser.Alike.run {p p' : Parser} (alike : Parser.Alike es es' p p') (slot : Nat)
    (chunk : String) (rest : List String) {done done' left left' : List Expression}
    (all : es = done ++ left) (all' : es' = done' ++ left') (read : done.length = slot)
    (read' : done'.length = slot) (same : left.length = left'.length) :
    Agree (SameFailure es es') (Parser.Alike es es') (p.run slot chunk (left.zip rest))
      (p'.run slot chunk (left'.zip rest)) := by
  induction rest generalizing p p' slot chunk done done' left left' with
  | nil =>
    rw [List.zip_nil_right, List.zip_nil_right]
    exact alike.runLast slot chunk
  | cons next rest ih =>
    cases left with
    | nil =>
      rw [List.length_eq_zero_iff.1 same.symm]
      exact alike.runLast slot chunk
    | cons e left =>
      cases left' with
      | nil => cases same
      | cons e' left' =>
        have carried : Carried es es' slot e e' := by
          constructor
          · rw [all, ← read, List.getElem?_append_right (Nat.le_refl _), Nat.sub_self]
            rfl
          · rw [all', ← read', List.getElem?_append_right (Nat.le_refl _), Nat.sub_self]
            rfl
        have written := alike.write (scanSigil chunk).2
        rw [List.zip_cons_cons, List.zip_cons_cons, Parser.run, Parser.run]
        simp only
        generalize p.write (scanSigil chunk).2 = r, p'.write (scanSigil chunk).2 = r' at written
        cases written with
        | error same => exact .error (same ▸ .unlocated _)
        | @ok q q' alike =>
          have bound := alike.bind (scanSigil chunk).1 (scanBlock next).1 carried
          simp only
          generalize q.bind slot (scanSigil chunk).1 (scanBlock next).1 e = r,
            q'.bind slot (scanSigil chunk).1 (scanBlock next).1 e' = r' at bound
          cases bound with
          | error same => exact .error (same ▸ .located _ carried)
          | ok alike =>
            have all : es = (done ++ [e]) ++ left := by simp [all]
            have all' : es' = (done' ++ [e']) ++ left' := by simp [all']
            exact ih alike (slot + 1) (scanBlock next).2 all all' (by simp [read]) (by simp [read'])
              (Nat.succ.inj same)

/-- A template is finished by both parsers, or fails in both. -/
lemma Parser.Alike.finish {p p' : Parser} (alike : Parser.Alike es es' p p') :
    Agree (SameFailure es es') (Fragment.Alike es es') p.finish p'.finish := by
  have taken := alike.take p.lexer.finish
  rw [Parser.finish, Parser.finish, ← alike.lexer]
  generalize p.take p.lexer.finish = r, p'.take p.lexer.finish = r' at taken
  cases taken with
  | error same => exact .error (same ▸ .unlocated _)
  | ok alike => exact .ok alike.skeleton.finish

/-- How a template is read does not depend on its expressions. With the same chunks and as many
expressions, two readings return the same markup, and binders that differ only in the expressions of
their slots and in the offsets of literals; or both fail for one cause, without an offset or at the
expressions of one slot. -/
theorem parse_independent (chunks : List String) {es es' : List Expression}
    (same : es.length = es'.length) :
    Agree (SameFailure es es') (Fragment.Alike es es') (parse chunks es) (parse chunks es') := by
  have start : Parser.Alike es es' {} {} :=
    ⟨rfl, rfl, ⟨rfl, rfl, rfl, rfl, .nil, .nil, .none⟩, .nil, .none⟩
  cases chunks with
  | nil =>
    rw [parse, parse, same]
    exact .error (.unlocated _)
  | cons first rest =>
    have ran := start.run 0 first rest (List.nil_append es).symm (List.nil_append es').symm rfl rfl
      same
    rw [parse, parse, same]
    split
    · generalize ({} : Parser).run 0 first (es.zip rest) = r,
        ({} : Parser).run 0 first (es'.zip rest) = r' at ran
      cases ran with
      | error same => exact .error same
      | ok alike => exact alike.finish
    · exact .error (.unlocated _)

/-- A component with a literal and a bound property, in two readings; and a hole in a comment, which
both refuse. -/
theorem parse_independent_component :
    let chunks := ["<p><#:", " a=\"x\" b=", "/>"]
    let refused := ["", "<!--", "-->"]
    let es : List Expression := [{ source := "f", offset := 3 }, { source := "y", offset := 9 }]
    let es' : List Expression := [{ source := "g()", offset := 4 }, { source := "0", offset := 10 }]
    let fragment (f y : Expression) : Fragment :=
      { html := "<p data-bind><!-- component --></p>"
        binders := [
          { target := .component, sigil := .none, expression := f, slot := 0, index := .child 0,
            node := some 0,
            properties := [
              { target := .attribute, sigil := .none, expression := .ofText "x" f.offset, slot := 0,
                index := .attribute "a" },
              { target := .attribute, sigil := .none, expression := y, slot := 1,
                index := .attribute "b" }] }] }
    (es.length = es'.length ∧
      parse chunks es =
        .ok (fragment { source := "f", offset := 3 } { source := "y", offset := 9 }) ∧
      parse refused es = .error ⟨.unsupported (.holeIn .comment), some 9⟩) ∧
    Agree (SameFailure es es') (Fragment.Alike es es') (parse chunks es) (parse chunks es') ∧
    Agree (SameFailure es es') (Fragment.Alike es es') (parse refused es) (parse refused es') := by
  intro chunks refused es es' fragment
  exact ⟨⟨rfl, rfl, rfl⟩, parse_independent chunks rfl, parse_independent refused rfl⟩

end TaggedMarkup.Template

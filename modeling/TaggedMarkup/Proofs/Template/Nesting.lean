import TaggedMarkup.Proofs.Template.Forest
import TaggedMarkup.Proofs.Template.Phase

/-!
# Skeletons build forests

A skeleton keeps pieces of markup and a stack of frames. While it takes items, the frames are at
every point those of the elements that `nest` holds open, and the pieces are the markup of what has
been read, with an empty piece in every start tag whose element is still open (`Written`). So a
finished skeleton is the markup of the forest with its groups of binders in order
(`takeAll_nests`).
-/

namespace TaggedMarkup.Template

open Markup (Event Place isVoid sameName)

/-! ## Frames and pieces of open elements -/

/-- The frame of an element, or of the fragment, with the children that it has so far. -/
def frameOf (name : String) (parts : List TagPart) (children : Forest) (slot : Option Nat) :
    Frame :=
  { name := name, attributes := attributeMap parts, binders := ownBinders parts children,
    groups := children.groups, children := children.length, slot := slot }

/-- The frame of an element has its name. -/
@[simp] lemma frameOf_name (name parts children slot) :
    (frameOf name parts children slot).name = name := rfl

/-- The frame of an element is of no component. -/
@[simp] lemma frameOf_component (name parts children slot) :
    (frameOf name parts children slot).component = none := rfl

/-- The frame of a tag that is being read and that will be the child number `index`. -/
def Tag.frame (t : Tag) (index : Nat) : Frame :=
  match t.head with
  | .element name => frameOf name t.parts [] none
  | .component factory =>
    { name := componentTag
      component := some { factory.binder .component (.child index) with
        properties := t.parts.map (TagPart.property factory) } }

/-- Adds a closed node to a frame. -/
def Frame.addNode (f : Frame) (n : Node) : Frame :=
  { f with
    binders := f.binders ++ (n.binder? f.children).toList
    groups := f.groups ++ n.groups
    children := f.children + 1 }

/-- The frame of an element with one more child. -/
lemma frameOf_append_singleton (name : String) (parts : List TagPart) (children : Forest)
    (slot : Option Nat) (n : Node) :
    frameOf name parts (children ++ [n]) slot = (frameOf name parts children slot).addNode n := by
  simp [frameOf, Frame.addNode, ownBinders, Forest.binders_append_singleton]

/-- The three pieces of a start tag that is not closed yet. The second is for the mark. -/
def openPieces (name : String) (parts : List TagPart) : List String :=
  ["<" ++ name ++ String.join ((attributeMap parts).map attributeMarkup), "", ">"]

/-- Writing a start tag leaves its pieces, and the frame keeps the place of the second. -/
lemma writeStartTag_frameOf (pieces : List String) (name : String) (parts : List TagPart)
    (frames : List Frame) (pending : Option Binder) :
    Skeleton.writeStartTag ⟨pieces.toArray, frameOf name parts [] none, frames, pending⟩ =
      ⟨(pieces ++ openPieces name parts).toArray, frameOf name parts [] (some (pieces.length + 1)),
        frames, pending⟩ := by
  simp [Skeleton.writeStartTag, Skeleton.put, Skeleton.mapTop, frameOf, openPieces, Frame.startTag]

/-- The pieces of markup, and the frames from inside to outside, that stand for open elements and
the children of the innermost one. -/
inductive Written : List OpenElement → Forest → List String → Frame → List Frame → Prop where
  | root {nodes pieces} :
    String.join pieces = nodes.html →
    Written [] nodes pieces (frameOf "" [] nodes none) []
  | element {o around nodes outer pieces frame frames} :
    Written around o.before outer frame frames →
    String.join pieces = nodes.html →
    Written (o :: around) nodes (outer ++ openPieces o.name o.parts ++ pieces)
      (frameOf o.name o.parts nodes (some (outer.length + 1))) (frame.addChild :: frames)

namespace Written

/-- The innermost element counts its children. -/
lemma children {around nodes pieces frame frames} (w : Written around nodes pieces frame frames) :
    frame.children = nodes.length := by
  cases w <;> rfl

/-- A node is added with its markup. -/
lemma addNode {around nodes pieces frame frames} (w : Written around nodes pieces frame frames)
    (n : Node) (more : List String) (html : String.join more = n.html) :
    Written around (nodes ++ [n]) (pieces ++ more) (frame.addNode n) frames := by
  cases w with
  | root joined =>
    rw [← frameOf_append_singleton]
    exact .root (by simp [String.join_append, joined, html])
  | element outer joined =>
    rw [← frameOf_append_singleton, List.append_assoc]
    exact .element outer (by simp [String.join_append, joined, html])

/-- Closing an element writes its mark into the piece kept for it, and hands the binders of the
element to the frame around. -/
lemma closeTop {around before outer frame frames}
    (w : Written around before outer frame frames) (name : String) (parts : List TagPart)
    (children : Forest) (inner : List String) (n : Node) (pending : Option Binder)
    (html : n.html = startTag name parts (hosts parts children) ++ String.join inner)
    (groups : n.groups = groupOf (ownBinders parts children) ++ children.groups)
    (binder : ∀ index, n.binder? index = none) :
    ∃ pieces frame', Written around (before ++ [n]) pieces frame' frames ∧
      Skeleton.closeTop ⟨(outer ++ openPieces name parts ++ inner).toArray,
        frameOf name parts children (some (outer.length + 1)), frame.addChild :: frames, pending⟩ =
      ⟨pieces.toArray, frame', frames, pending⟩ := by
  have joined (mark : String) (is : mark = if hosts parts children then bindMark else "") :
      String.join (["<" ++ name ++ String.join ((attributeMap parts).map attributeMarkup), mark,
        ">"] ++ inner) = n.html := by
    rw [html, startTag, is]
    simp [String.append_assoc]
  have handed : { frame.addChild with
      groups := frame.addChild.groups ++ groupOf (ownBinders parts children) ++ children.groups } =
        frame.addNode n := by
    simp [Frame.addNode, Frame.addChild, groups, binder]
  refine ⟨_, _, w.addNode n _ (joined _ rfl), ?_⟩
  rw [← handed]
  cases empty : (ownBinders parts children).isEmpty with
  | true =>
    simp only [Skeleton.closeTop, frameOf, empty, hosts_eq, Frame.ownGroup, groupOf, openPieces]
    simp
  | false =>
    simp only [Skeleton.closeTop, frameOf, empty, hosts_eq, Frame.ownGroup, groupOf, openPieces]
    simp

/-- Elements that are still open at the end are closed by end tags of their own names. -/
lemma closeAll {around nodes pieces frame frames} (w : Written around nodes pieces frame frames)
    (pending : Option Binder) :
    ∃ pieces' frame', Written [] (Reading.closeAll nodes around) pieces' frame' [] ∧
      Skeleton.closeAll ⟨pieces.toArray, frame, frames, pending⟩ frames.length =
        ⟨pieces'.toArray, frame', [], pending⟩ := by
  induction around generalizing nodes pieces frame frames with
  | nil =>
    cases w with
    | root joined => exact ⟨pieces, _, .root joined, rfl⟩
  | cons o around ih =>
    cases w with
    | @element _ _ _ outer inner frame frames w joined =>
      obtain ⟨pieces, frame', w', closed⟩ :=
        w.closeTop o.name o.parts nodes (inner ++ ["</" ++ o.name ++ ">"])
          (.element o.name o.notVoid o.parts nodes .missing) pending
          (by simp [Node.html, Ending.name, String.join_append, joined, String.append_assoc])
          rfl (fun _ => rfl)
      obtain ⟨pieces', frame'', w'', rest⟩ := ih w'
      refine ⟨pieces', frame'', w'', ?_⟩
      rw [List.length_cons, Skeleton.closeAll, ← rest]
      congr 1
      rw [← closed]
      simp [Skeleton.put, frameOf, toString]

end Written

/-! ## Items one by one -/

/-- The phase of the items that can be read next. -/
def Position.phase : Position → Phase
  | .content => .content
  | .naming _ => .naming
  | .inTag _ => .inTag

/-- A skeleton holds what has been read of a forest. In a start tag, the tag is a frame of its own
that has no pieces yet. -/
inductive Simulates : Reading → Skeleton → Prop where
  | content {nodes around pieces frame frames} :
    Written around nodes pieces frame frames →
    Simulates ⟨nodes, around, .content⟩ ⟨pieces.toArray, frame, frames, none⟩
  | naming {nodes around pieces frame frames} (h : Hole) :
    Written around nodes pieces frame frames →
    Simulates ⟨nodes, around, .naming h⟩
      ⟨pieces.toArray, frame, frames, some (h.binder .component (.child 0))⟩
  | inTag {nodes around pieces frame frames} (t : Tag) :
    Written around nodes pieces frame frames →
    Simulates ⟨nodes, around, .inTag t⟩
      ⟨pieces.toArray, t.frame nodes.length, frame.addChild :: frames, none⟩

namespace Simulates

/-- A node without groups is written as one piece. -/
lemma putNode {nodes around pieces frame frames} (w : Written around nodes pieces frame frames)
    {n : Node} (groups : n.groups = []) :
    Simulates (Reading.add ⟨nodes, around, .content⟩ n)
      ⟨(pieces ++ [n.html]).toArray,
        { frame.addChild with binders := frame.binders ++ (n.binder? frame.children).toList },
        frames, none⟩ := by
  have added := w.addNode n [n.html] (by simp)
  simpa [Reading.add, Frame.addNode, Frame.addChild, groups] using Simulates.content added

/-- A start tag begins. -/
lemma openTag {nodes around pieces frame frames} (w : Written around nodes pieces frame frames)
    {name : String} {s' : Skeleton}
    (ok : Skeleton.openTag ⟨pieces.toArray, frame, frames, none⟩ name = .ok s') :
    Simulates ⟨nodes, around, .inTag ⟨.element name, []⟩⟩ s' := by
  simp only [Skeleton.openTag] at ok
  split at ok
  · cases ok
  · cases ok
    exact .inTag ⟨.element name, []⟩ w

/-- The tag of a component begins. -/
lemma openComponent {nodes around pieces frame frames}
    (w : Written around nodes pieces frame frames) {h : Hole} {name : String} {s' : Skeleton}
    (component : isComponentTag name = true)
    (ok : Skeleton.openTag ⟨pieces.toArray, frame, frames,
      some (h.binder .component (.child 0))⟩ name = .ok s') :
    name = componentTag ∧ Simulates ⟨nodes, around, .inTag ⟨.component h, []⟩⟩ s' := by
  simp only [Skeleton.openTag, component, if_true] at ok
  split at ok
  · rename_i same
    cases ok
    subst same
    refine ⟨rfl, ?_⟩
    rw [w.children]
    exact .inTag ⟨.component h, []⟩ w
  · cases ok

/-- An attribute is added to the tag. -/
lemma addPart {nodes around pieces frame frames} (w : Written around nodes pieces frame frames)
    (t : Tag) (p : TagPart) {s' : Skeleton}
    (ok : Skeleton.take ⟨pieces.toArray, t.frame nodes.length, frame.addChild :: frames, none⟩
      p.item = .ok s') :
    Simulates ⟨nodes, around, .inTag { t with parts := t.parts ++ [p] }⟩ s' := by
  have simulated := Simulates.inTag { t with parts := t.parts ++ [p] } w
  obtain ⟨head, parts⟩ := t
  suffices same : s' = ⟨pieces.toArray, Tag.frame ⟨head, parts ++ [p]⟩ nodes.length,
      frame.addChild :: frames, none⟩ by rwa [same]
  cases head with
  | element name =>
    simp only [Tag.frame, frameOf, attributeMap_append_singleton, ownBinders, List.filterMap_append]
    cases p with
    | fixed _ _ =>
      cases ok
      simp [Skeleton.takeAttribute, Skeleton.mapTop, Tag.frame, frameOf, ownBinders,
        TagPart.binder?, TagPart.name, TagPart.value]
    | hole _ h =>
      simp only [TagPart.item, Skeleton.take, Skeleton.takeHole] at ok
      split at ok
      · cases ok
      · cases ok
        simp [Skeleton.mapTop, Frame.addBinder, Tag.frame, frameOf, ownBinders, TagPart.binder?,
          TagPart.name, TagPart.value, Hole.binder]
  | component factory =>
    cases p with
    | fixed _ _ =>
      cases ok
      simp [Skeleton.takeAttribute, Skeleton.mapTop, Tag.frame, TagPart.property, Hole.binder]
    | hole _ h =>
      simp only [TagPart.item, Skeleton.take, Skeleton.takeHole, Skeleton.addAttributeBinder,
        Tag.frame] at ok
      split at ok
      · cases ok
      · split at ok
        · cases ok
          simp [Skeleton.mapTop, Tag.frame, TagPart.property, Hole.binder]
        · cases ok

/-- The end of a start tag. -/
lemma endOpenTag {nodes around pieces frame frames} (w : Written around nodes pieces frame frames)
    (t : Tag) {selfClosing : Bool} {s' : Skeleton}
    (ok : Skeleton.endOpenTag ⟨pieces.toArray, t.frame nodes.length, frame.addChild :: frames, none⟩
      selfClosing = .ok s') :
    ∃ r', Reading.endTag ⟨nodes, around, .inTag t⟩ t selfClosing = some r' ∧ Simulates r' s' ∧
      r'.position = .content := by
  obtain ⟨head, parts⟩ := t
  cases head with
  | component factory =>
    simp only [Skeleton.endOpenTag, Tag.frame] at ok
    split at ok
    · rename_i closing
      cases ok
      refine ⟨_, by simp only [Reading.endTag, closing, if_true]; rfl, ?_, rfl⟩
      have added := w.addNode (.component factory parts) [Target.component.placeholder]
        (by simp [Node.html])
      simpa [Reading.add, Skeleton.closeComponent, Skeleton.put, Frame.addBinder, Frame.addNode,
        Frame.addChild, Node.binder?, Node.groups, w.children, Hole.binder] using
        Simulates.content added
    · cases ok
  | element name =>
    simp only [Skeleton.endOpenTag, Tag.frame, frameOf_component, frameOf_name,
      writeStartTag_frameOf] at ok
    split at ok
    · rename_i void
      cases ok
      -- A void element has neither children nor an end tag, so it is a node at once.
      refine ⟨_, by simp only [Reading.endTag, dif_pos void]; rfl, ?_, rfl⟩
      obtain ⟨pieces', frame', w', closed⟩ := w.closeTop name parts [] []
        (.void name void parts selfClosing) none
        (by simp [Node.html]) (by simp [Node.groups, Forest.groups]) (fun _ => rfl)
      rw [List.append_nil] at closed
      rw [closed]
      exact .content w'
    · rename_i notVoid
      split at ok
      · rename_i closing
        cases ok
        refine ⟨_, by simp only [Reading.endTag, dif_neg notVoid, if_pos closing]; rfl, ?_, rfl⟩
        obtain ⟨pieces', frame', w', closed⟩ := w.closeTop name parts []
          ["</" ++ name ++ ">"]
          (.element name (Bool.eq_false_iff.2 notVoid) parts [] .selfClosing) none
          (by simp [Node.html, Forest.html, Ending.name]) rfl (fun _ => rfl)
        simp only [Skeleton.put, List.push_toArray, toString]
        rw [closed]
        exact .content w'
      · rename_i notClosing
        cases ok
        -- The element stays open, and what follows is written into it.
        refine ⟨_, by simp only [Reading.endTag, dif_neg notVoid, if_neg notClosing]; rfl, ?_, rfl⟩
        have empty : String.join [] = Forest.html [] := by simp [Forest.html]
        have opened :=
          Written.element (o := ⟨name, Bool.eq_false_iff.2 notVoid, parts, nodes⟩) w empty
        rw [List.append_nil] at opened
        exact .content opened

/-- An end tag. -/
lemma closeTag {nodes around pieces frame frames} (w : Written around nodes pieces frame frames)
    {name : String} {s' : Skeleton}
    (ok : Skeleton.closeTag ⟨pieces.toArray, frame, frames, none⟩ name = .ok s') :
    ∃ r', Reading.closeTag ⟨nodes, around, .content⟩ name = some r' ∧ Simulates r' s' ∧
      r'.position = .content := by
  cases w with
  | root joined =>
    -- No element is open, so only the end tag of a void element is passed over.
    simp only [Skeleton.closeTag, List.isEmpty_nil, Bool.not_true, Bool.false_and,
      Bool.false_eq_true, if_false] at ok
    split at ok
    · rename_i void
      cases ok
      exact ⟨_, by simp only [Reading.closeTag, void, if_true], .content (.root joined), rfl⟩
    · cases ok
  | @element o around _ outer inner frame frames w joined =>
    simp only [Skeleton.closeTag, List.isEmpty_cons, Bool.not_false, Bool.true_and,
      frameOf_name] at ok
    split at ok
    · rename_i same
      cases ok
      refine ⟨_, by simp only [Reading.closeTag, dif_pos same]; rfl, ?_, rfl⟩
      obtain ⟨pieces', frame', w', closed⟩ := w.closeTop o.name o.parts nodes
        (inner ++ ["</" ++ name ++ ">"])
        (.element o.name o.notVoid o.parts nodes (.endTag name same)) none
        (by simp [Node.html, Ending.name, String.join_append, joined, String.append_assoc]) rfl
        (fun _ => rfl)
      rw [← List.append_assoc] at closed
      simp only [Skeleton.put, List.push_toArray, toString]
      rw [closed]
      exact .content w'
    · rename_i other
      split at ok
      · rename_i void
        cases ok
        exact ⟨_, by simp only [Reading.closeTag, dif_neg other, if_pos void],
          .content (.element w joined), rfl⟩
      · cases ok

/-- The hole of a component is kept until its tag begins. -/
lemma setComponent {nodes around pieces frame frames pending}
    (w : Written around nodes pieces frame frames) {name : String} {h : Hole} {s' : Skeleton}
    (ok : Skeleton.takeHole ⟨pieces.toArray, frame, frames, pending⟩ h (.tagName name) = .ok s') :
    name = componentTag ∧ Simulates ⟨nodes, around, .naming h⟩ s' := by
  simp only [Skeleton.takeHole] at ok
  split at ok
  · rename_i component
    split at ok
    · cases ok
    · split at ok
      · cases ok
        exact ⟨component, .naming h w⟩
      · cases ok
  · cases ok

/-- Among child nodes, what a skeleton does with an event `nest` does. -/
lemma stepContent {nodes around pieces frame frames} (w : Written around nodes pieces frame frames)
    {e : Event} {s' : Skeleton} {q : Phase} (next : Phase.content.next (.event e) = some q)
    (ok : Skeleton.handle ⟨pieces.toArray, frame, frames, none⟩ e = .ok s') :
    ∃ r', Reading.take ⟨nodes, around, .content⟩ (.event e) = some r' ∧ Simulates r' s' ∧
      r'.position.phase = q := by
  cases e with
  | text text =>
    cases next
    cases ok
    refine ⟨_, rfl, ?_, rfl⟩
    simpa [Skeleton.putNode, Skeleton.put, Skeleton.mapTop, Frame.addChild, Node.html,
      Node.binder?] using putNode w (n := .text text) rfl
  | comment text =>
    cases next
    cases ok
    refine ⟨_, rfl, ?_, rfl⟩
    simpa [Skeleton.putNode, Skeleton.put, Skeleton.mapTop, Frame.addChild, Node.html,
      Node.binder?, toString] using putNode w (n := .comment text) rfl
  | closeTag name =>
    cases next
    obtain ⟨r', taken, sim, position⟩ := closeTag w ok
    exact ⟨r', taken, sim, by rw [position, Position.phase]⟩
  | finish =>
    cases next
    cases ok
    exact ⟨_, rfl, .content w, rfl⟩
  | openTag name =>
    cases next
    exact ⟨_, rfl, openTag w ok, rfl⟩
  | «attribute» | openTagEnd => cases next

/-- What a skeleton does with an item, `nest` does. -/
lemma step {r : Reading} {s s' : Skeleton} {i : Item} {q : Phase} (sim : Simulates r s)
    (next : r.position.phase.next i = some q) (ok : s.take i = .ok s') :
    ∃ r', r.take i = some r' ∧ Simulates r' s' ∧ r'.position.phase = q := by
  -- The phase leaves few items for each position, so the cases are split by position first.
  cases sim with
  | content w =>
    cases i with
    | event e => exact stepContent w next ok
    | hole place h =>
      cases place with
      | text =>
        cases next
        cases ok
        refine ⟨_, rfl, ?_, rfl⟩
        simpa [Skeleton.addChildBinder, Skeleton.putNode, Skeleton.put, Skeleton.mapTop,
          Frame.addChild, Frame.addBinder, Node.html, Node.binder?, Hole.binder] using
          putNode w (n := .hole h) rfl
      | tagName name =>
        cases next
        obtain ⟨component, sim⟩ := setComponent w ok
        exact ⟨_, by simp only [Reading.take, component, if_true], sim, rfl⟩
      | _ => cases next
  | naming factory w =>
    cases i with
    | event e =>
      cases e with
      | openTag name =>
        simp only [Position.phase, Phase.next] at next
        split at next
        · rename_i component
          cases next
          obtain ⟨same, sim⟩ := openComponent w component ok
          exact ⟨_, by simp only [Reading.take, same, if_true], sim, rfl⟩
        · cases next
      | _ => cases next
    | hole place h =>
      cases place with
      | tagName name =>
        cases next
        obtain ⟨component, sim⟩ := setComponent w ok
        exact ⟨_, by simp only [Reading.take, component, if_true], sim, rfl⟩
      | _ => cases next
  | inTag t w =>
    cases i with
    | event e =>
      cases e with
      | «attribute» name value =>
        cases next
        exact ⟨_, rfl, addPart w t (.fixed name value) ok, rfl⟩
      | openTagEnd closing =>
        cases next
        obtain ⟨r', taken, sim, position⟩ := endOpenTag w t ok
        exact ⟨r', taken, sim, by rw [position, Position.phase]⟩
      | _ => cases next
    | hole place h =>
      cases place with
      | attributeValue name =>
        cases next
        exact ⟨_, rfl, addPart w t (.hole name h) ok, rfl⟩
      | _ => cases next

/-- What a skeleton does with all items, `nest` does. -/
lemma run {is : List Item} {r : Reading} {s s' : Skeleton} (sim : Simulates r s)
    (accepts : r.position.phase.Accepts is) (ok : s.takeAll is = .ok s') :
    ∃ r', is.foldlM Reading.take r = some r' ∧ Simulates r' s' ∧ r'.position.phase = .content := by
  induction is generalizing r s with
  | nil =>
    cases ok
    exact ⟨r, rfl, sim, accepts⟩
  | cons i is ih =>
    obtain ⟨q, next, accepts⟩ := accepts
    obtain ⟨t, taken, rest⟩ := Skeleton.takeAll_cons_ok.1 ok
    obtain ⟨r', read, sim', rfl⟩ := sim.step next taken
    obtain ⟨r'', run, sim'', phase⟩ := ih sim' accepts rest
    refine ⟨r'', ?_, sim'', phase⟩
    rw [List.foldlM_cons, read]
    exact run

end Simulates

/-! ## Finished skeletons -/

/-- Groups are numbered in order. -/
lemma number_eq (n : Nat) (groups : List (List Binder)) :
    Skeleton.number n groups =
      (groups.zipIdx n).flatMap fun (group, j) => group.map fun b => { b with node := some j } := by
  induction groups generalizing n with
  | nil => rfl
  | cons group groups ih => rw [Skeleton.number, ih, List.zipIdx_cons, List.flatMap_cons]

/-- A skeleton without open elements is finished. -/
lemma Written.finish {around nodes pieces frame frames}
    (w : Written around nodes pieces frame frames) (pending : Option Binder) :
    Skeleton.finish ⟨pieces.toArray, frame, frames, pending⟩ =
      { html := (Reading.closeAll nodes around).html,
        binders := numbered (Reading.closeAll nodes around).allGroups } := by
  obtain ⟨pieces', frame', w', closed⟩ := w.closeAll pending
  rw [Skeleton.finish, closed]
  cases w' with
  | root joined =>
    simp [joined, number_eq, numbered, Forest.allGroups, frameOf, Frame.ownGroup, groupOf,
      ownBinders]

/-- A finished skeleton is the markup of the forest of its items, with the groups of binders of that
forest in order. -/
lemma takeAll_nests {is : List Item} {s : Skeleton} (accepts : Phase.content.Accepts is)
    (ok : Skeleton.takeAll {} is = .ok s) :
    ∃ F, nest is = some F ∧ s.finish = { html := F.html, binders := numbered F.allGroups } := by
  have start : Simulates {} {} := .content (.root (by simp [Forest.html]))
  obtain ⟨r, run, sim, phase⟩ := start.run accepts ok
  cases sim with
  | content w => exact ⟨_, by rw [nest, run]; rfl, w.finish none⟩
  | naming => cases phase
  | inTag => cases phase

end TaggedMarkup.Template

import Mathlib
import TaggedMarkup.Proofs.Markup.Reported
import TaggedMarkup.Proofs.Template.Slots

/-!
# Texts that meet

The end tag of a void element is dropped, so two texts around one stand beside each other in a
forest, while in its markup they are one. `Forest.joined` makes one node of them, without a change
to the markup (`Forest.html_joined`). A child that is no text moves forward by the number of the
pairs of texts in front of it (`Forest.getElem?_joined`).
-/

namespace TaggedMarkup.Template

open Markup (IsPlain)

/-! ## Joining texts -/

/-- Whether a node is a text. -/
def Node.isText : Node → Bool
  | .text _ => true
  | _ => false

/-- Puts a node in front of others. A text in front of a text becomes one with it. -/
def joinText : Node → Forest → Forest
  | .text s, .text t :: F => .text (s ++ t) :: F
  | n, F => n :: F

mutual

/-- A node whose children are joined. -/
def Node.joined : Node → Node
  | .element name notVoid parts children ending =>
    .element name notVoid parts (Forest.joined children) ending
  | .text text => .text text
  | .comment text => .comment text
  | .hole h => .hole h
  | .component factory parts => .component factory parts
  | .void name isVoid parts selfClosing => .void name isVoid parts selfClosing

/-- Nodes with every run of texts as one node, also among their descendants. -/
def Forest.joined : Forest → Forest
  | [] => []
  | n :: F => joinText n.joined (Forest.joined F)

end

/-- The pairs of texts that stand beside each other. -/
def Forest.textPairs : Forest → Nat
  | [] => 0
  | n :: F => (if n.isText && F.head?.any Node.isText then 1 else 0) + textPairs F

/-- A node with joined texts is a text if it was one. -/
@[simp] lemma Node.isText_joined (n : Node) : n.joined.isText = n.isText := by
  cases n <;> simp [Node.joined, Node.isText]

/-- A node with joined texts is a placeholder if it was one. -/
@[simp] lemma Node.isPlaceholder_joined (n : Node) : n.joined.isPlaceholder = n.isPlaceholder := by
  cases n <;> simp [Node.joined, Node.isPlaceholder]

/-- The texts among the children of a node are joined. -/
lemma Node.children_joined (n : Node) : n.joined.children = Forest.joined n.children := by
  cases n <;> rfl

/-- A node is put in front, or it is a text that becomes one with the text behind it. -/
lemma joinText_cases (n : Node) (F : Forest) :
    (joinText n F = n :: F ∧ (n.isText && F.head?.any Node.isText) = false) ∨
      ∃ s t G, n = .text s ∧ F = .text t :: G ∧ joinText n F = .text (s ++ t) :: G := by
  cases n with
  | text s =>
    rcases F with _ | ⟨m, G⟩
    · exact .inl ⟨rfl, rfl⟩
    · cases m with
      | text t => exact .inr ⟨s, t, G, rfl, rfl, rfl⟩
      | _ => exact .inl ⟨rfl, rfl⟩
  | _ => exact .inl ⟨rfl, rfl⟩

/-- Nothing is joined to a node that is no text. -/
lemma joinText_of_notText {n : Node} (notText : n.isText = false) (F : Forest) :
    joinText n F = n :: F := by
  obtain ⟨eq, -⟩ | ⟨s, t, G, rfl, -⟩ := joinText_cases n F
  · exact eq
  · cases notText

/-- What stands behind a node that is no text is not joined with what stands in front of it. -/
lemma joinText_append {m : Node} (notText : m.isText = false) (n : Node) (F G : Forest) :
    joinText n (F ++ m :: G) = joinText n F ++ m :: G := by
  rcases F with _ | ⟨f, F⟩
  · obtain ⟨eq, -⟩ | ⟨s, t, H, -, same, -⟩ := joinText_cases n (m :: G)
    · rw [List.nil_append, eq]
      cases n <;> rfl
    · cases same
      cases notText
  · cases n <;> try rfl
    cases f <;> rfl

namespace Forest

/-- An empty forest has no texts to join. -/
@[simp] lemma joined_nil : joined [] = [] := rfl

/-- A node is joined to the forest behind it. -/
lemma joined_cons (n : Node) (F : Forest) : joined (n :: F) = joinText n.joined (joined F) := rfl

/-- A node that is no text keeps what stands before it apart from what stands behind it. -/
lemma joined_append_cons {n : Node} (notText : n.isText = false) (F G : Forest) :
    joined (F ++ n :: G) = joined F ++ n.joined :: joined G := by
  have notText' : n.joined.isText = false := by simpa using notText
  induction F with
  | nil => exact joinText_of_notText notText' _
  | cons f F ih => rw [List.cons_append, joined_cons, joined_cons, ih, joinText_append notText']

/-- The joined nodes start with a text only if the nodes do, and then that text is only longer. -/
lemma joined_eq_text_cons {F G : Forest} {t : String} (eq : joined F = .text t :: G) :
    ∃ s u H, F = .text s :: H ∧ t = s ++ u := by
  rcases F with _ | ⟨n, F⟩
  · cases eq
  · rw [joined_cons] at eq
    cases n with
    | text s =>
      obtain ⟨eq', -⟩ | ⟨s', u, H, same, -, eq'⟩ := joinText_cases (.text s) (joined F)
      · cases eq'.symm.trans eq
        exact ⟨t, "", F, rfl, by simp⟩
      · cases same
        cases eq'.symm.trans eq
        exact ⟨s, u, F, rfl, rfl⟩
    | _ => cases eq

/-- Whether the first node is a text does not change. -/
lemma isText_head?_joined (F : Forest) :
    (joined F).head?.any Node.isText = F.head?.any Node.isText := by
  rcases F with _ | ⟨n, F⟩
  · rfl
  · rw [joined_cons]
    obtain ⟨eq, -⟩ | ⟨s, t, G, text, -, eq⟩ := joinText_cases n.joined (joined F)
    · rw [eq]
      simp
    · rw [eq, List.head?_cons, Option.any_some, List.head?_cons, Option.any_some,
        ← Node.isText_joined n, text]
      rfl

/-- Joining takes one node away for every pair of texts. -/
lemma length_joined (F : Forest) : (joined F).length + textPairs F = F.length := by
  induction F with
  | nil => rfl
  | cons n F ih =>
    rw [joined_cons, textPairs, ← isText_head?_joined, ← Node.isText_joined]
    obtain ⟨eq, apart⟩ | ⟨s, t, G, text, first, eq⟩ := joinText_cases n.joined (joined F)
    · rw [eq, apart, List.length_cons, List.length_cons]
      simp only [Bool.false_eq_true, if_false]
      omega
    · rw [eq, text, first]
      rw [first] at ih
      simp only [Node.isText, List.head?_cons, Option.any_some, Bool.and_self, if_true,
        List.length_cons] at ih ⊢
      omega

/-- Joined texts make no placeholder appear or vanish. -/
lemma any_isPlaceholder_joined (F : Forest) :
    (joined F).any Node.isPlaceholder = F.any Node.isPlaceholder := by
  induction F with
  | nil => rfl
  | cons n F ih =>
    rw [joined_cons, List.any_cons, ← ih, ← Node.isPlaceholder_joined]
    obtain ⟨eq, -⟩ | ⟨s, t, G, text, first, eq⟩ := joinText_cases n.joined (joined F)
    · rw [eq, List.any_cons]
    · rw [eq, text, first]
      rfl

/-- A child that is no text stands as many places further in front as there are pairs of texts in
front of it. -/
lemma getElem?_joined {F : Forest} {n : Node} {k : Nat} (here : F[k]? = some n)
    (notText : n.isText = false) : (joined F)[(joined (F.take k)).length]? = some n.joined := by
  obtain ⟨inside, eq⟩ := List.getElem?_eq_some_iff.1 here
  have split : F = F.take k ++ n :: F.drop (k + 1) := by
    rw [← eq]
    simp
  have whole : joined F = joined (F.take k) ++ n.joined :: joined (F.drop (k + 1)) := by
    conv_lhs => rw [split]
    exact joined_append_cons notText _ _
  rw [whole, List.getElem?_append_right (Nat.le_refl _), Nat.sub_self]
  rfl

/-- A joined text has the markup of its parts. -/
lemma html_joinText (n : Node) (F : Forest) : html (joinText n F) = n.html ++ html F := by
  obtain ⟨eq, -⟩ | ⟨s, t, G, rfl, rfl, eq⟩ := joinText_cases n F
  · rw [eq, html]
  · rw [eq, html, html, Node.html, Node.html, Node.html, String.append_assoc]

/-- An element is a host whether or not the texts in it are joined. -/
lemma hosts_joined (parts : List TagPart) (F : Forest) :
    hosts parts (joined F) = hosts parts F := by
  rw [hosts, any_isPlaceholder_joined, hosts]

/-- Joining does not change the markup. -/
lemma html_joined (F : Forest) : html (joined F) = html F := by
  induction F using Forest.induction with
  | nil => rfl
  | cons n F children others =>
    have node : n.joined.html = n.html := by
      cases n with
      | element name notVoid parts C ending =>
        rw [Node.joined, Node.html, Node.html, hosts_joined]
        rw [show html (joined C) = html C from children]
      | _ => rfl
    rw [joined_cons, html_joinText, node, others, html]

end Forest

/-! ## Hosts -/

mutual

/-- The elements of a node that host binders, in the order of their start tags: their attributes and
their children. -/
def Node.hostElements : Node → List (List TagPart × Forest)
  | .void _ _ parts _ => if hosts parts [] then [(parts, [])] else []
  | .element _ _ parts children _ =>
    (if hosts parts children then [(parts, children)] else []) ++ Forest.hostElements children
  | .text _ | .comment _ | .hole _ | .component _ _ => []

/-- The elements that host binders among nodes. -/
def Forest.hostElements : Forest → List (List TagPart × Forest)
  | [] => []
  | n :: F => n.hostElements ++ Forest.hostElements F

end

/-- An element has a group just if it is a host. -/
lemma groupOf_ownBinders (parts : List TagPart) (children : Forest) :
    groupOf (ownBinders parts children) =
      if hosts parts children then [ownBinders parts children] else [] := by
  rw [groupOf, hosts_eq]
  cases (ownBinders parts children).isEmpty <;> rfl

namespace Forest

/-- Each group of binders belongs to an element that hosts them. -/
lemma groups_eq (F : Forest) :
    groups F = (hostElements F).map fun (parts, children) => ownBinders parts children := by
  induction F using Forest.induction with
  | nil => rfl
  | cons n F children others =>
    have node : n.groups = n.hostElements.map fun (parts, C) => ownBinders parts C := by
      cases n with
      | void name isVoid parts selfClosing =>
        rw [Node.groups, Node.hostElements, groupOf_ownBinders]
        split <;> rfl
      | element name notVoid parts C ending =>
        rw [Node.groups, Node.hostElements, groupOf_ownBinders, List.map_append]
        rw [show groups C = _ from children]
        split <;> rfl
      | _ => rfl
    rw [groups, hostElements, node, others, List.map_append]

/-- A joined text changes no host elements. -/
lemma hostElements_joinText (n : Node) (F : Forest) :
    hostElements (joinText n F) = n.hostElements ++ hostElements F := by
  obtain ⟨eq, -⟩ | ⟨s, t, G, rfl, rfl, eq⟩ := joinText_cases n F
  · rw [eq, hostElements]
  · rw [eq]
    rfl

/-- Joining keeps the elements that host binders. -/
lemma hostElements_joined (F : Forest) :
    hostElements (joined F) =
      (hostElements F).map fun (parts, children) => (parts, joined children) := by
  induction F using Forest.induction with
  | nil => rfl
  | cons n F children others =>
    have node : n.joined.hostElements =
        n.hostElements.map fun (parts, C) => (parts, joined C) := by
      cases n with
      | void name isVoid parts selfClosing =>
        rw [Node.joined, Node.hostElements]
        split <;> rfl
      | element name notVoid parts C ending =>
        rw [Node.joined, Node.hostElements, Node.hostElements, hosts_joined, List.map_append]
        rw [show hostElements (joined C) = _ from children]
        split <;> rfl
      | _ => rfl
    rw [joined_cons, hostElements_joinText, node, others, hostElements, List.map_append]

end Forest

/-! ## Conditions on nodes and what follows them -/

mutual

/-- Whether a condition holds everywhere inside of a node. -/
def Node.every (p : Node → Forest → Bool) : Node → Bool
  | .element _ _ _ children _ => Forest.every p children
  | .text _ | .comment _ | .hole _ | .component _ _ | .void _ _ _ _ => true

/-- Whether a condition holds of all nodes, each with its siblings behind it. -/
def Forest.every (p : Node → Forest → Bool) : Forest → Bool
  | [] => true
  | n :: F => p n F && n.every p && Forest.every p F

end

/-- Texts that meet are plain together, so they do not make a tag of a `<` at the end of one. -/
def Forest.meetPlainly (F : Forest) : Bool :=
  F.every fun n F =>
    match n, F with
    | .text s, .text t :: _ => decide (IsPlain (s ++ t))
    | _, _ => true

/-- No texts meet. -/
def Forest.textsApart (F : Forest) : Bool :=
  F.every fun n F => !(n.isText && F.head?.any Node.isText)

/-- Whether all attributes of an element have a name. -/
def Node.isNamed : Node → Bool
  | .void _ _ parts _ | .element _ _ parts _ _ => parts.all fun p => p.name != ""
  | .text _ | .comment _ | .hole _ | .component _ _ => true

/-- All attributes of elements have a name. -/
def Forest.isNamed (F : Forest) : Bool := F.every fun n _ => n.isNamed

namespace Forest

/-- A test of every node, from the first one on. -/
lemma every_cons_eq (p : Node → Forest → Bool) (n : Node) (F : Forest) :
    every p (n :: F) = (p n F && every p n.children && every p F) := by
  have node : n.every p = every p n.children := by
    cases n <;> rfl
  rw [every, node]

/-- Every node passes a test if the first one, those in it and those behind it do. -/
lemma every_cons {p : Node → Forest → Bool} {n : Node} {F : Forest} :
    every p (n :: F) = true ↔ p n F = true ∧ every p n.children = true ∧ every p F = true := by
  rw [every_cons_eq, Bool.and_eq_true, Bool.and_eq_true, and_assoc]

/-- Texts are apart, from the first node on. -/
lemma textsApart_cons_eq (n : Node) (F : Forest) :
    textsApart (n :: F) =
      (!(n.isText && F.head?.any Node.isText) && textsApart n.children && textsApart F) :=
  every_cons_eq _ n F

/-- Texts are apart if no two come first, and those in and behind the first node are. -/
lemma textsApart_cons {n : Node} {F : Forest} :
    textsApart (n :: F) = true ↔ (n.isText && F.head?.any Node.isText) = false ∧
      textsApart n.children = true ∧ textsApart F = true := by
  rw [textsApart, every_cons, Bool.not_eq_true']
  rfl

/-- In the joined forest no texts meet. -/
lemma textsApart_joined (F : Forest) : (joined F).textsApart = true := by
  induction F using Forest.induction with
  | nil => rfl
  | cons n F children others =>
    rw [joined_cons]
    obtain ⟨eq, apart⟩ | ⟨s, t, G, text, first, eq⟩ := joinText_cases n.joined (joined F)
    · rw [eq, textsApart_cons, n.children_joined]
      exact ⟨apart, children, others⟩
    · rw [first, textsApart_cons] at others
      rw [eq, textsApart_cons]
      exact others

/-- All attributes are named, from the first node on. -/
lemma isNamed_cons (n : Node) (F : Forest) :
    isNamed (n :: F) = (n.isNamed && isNamed n.children && isNamed F) :=
  every_cons_eq _ n F

/-- A joined text has no attributes. -/
lemma isNamed_joinText (n : Node) (F : Forest) :
    isNamed (joinText n F) = (n.isNamed && isNamed n.children && isNamed F) := by
  obtain ⟨eq, -⟩ | ⟨s, t, G, rfl, rfl, eq⟩ := joinText_cases n F
  · rw [eq, isNamed_cons]
  · rw [eq]
    rfl

/-- Joining keeps the names of attributes. -/
lemma isNamed_joined (F : Forest) : (joined F).isNamed = F.isNamed := by
  induction F using Forest.induction with
  | nil => rfl
  | cons n F children others =>
    have own : n.joined.isNamed = n.isNamed := by
      cases n <;> rfl
    rw [joined_cons, isNamed_joinText, own, n.children_joined, children, others, isNamed_cons]

/-- What is legible stays legible, if texts meet plainly. -/
lemma legible_joined {F : Forest} (plainly : F.meetPlainly = true)
    (legible : ∀ i ∈ F.items, i.Legible) : ∀ i ∈ (joined F).items, i.Legible := by
  induction F using Forest.induction with
  | nil => exact legible
  | cons n F children others =>
    rw [meetPlainly, every_cons] at plainly
    obtain ⟨meets, inside, behind⟩ := plainly
    rw [items, List.forall_mem_append] at legible
    have joinedOthers := others behind legible.2
    rw [joined_cons]
    obtain ⟨eq, -⟩ | ⟨s, t, G, text, first, eq⟩ := joinText_cases n.joined (joined F)
    · rw [eq, items, List.forall_mem_append]
      refine ⟨?_, joinedOthers⟩
      cases n with
      | element name notVoid parts C ending =>
        have own := legible.1
        rw [Node.items, List.forall_mem_append, List.forall_mem_append] at own
        rw [Node.joined, Node.items, List.forall_mem_append, List.forall_mem_append]
        exact ⟨⟨own.1.1, children inside own.1.2⟩, own.2⟩
      | _ => exact legible.1
    · rw [first] at joinedOthers
      obtain ⟨t, u, H, rfl, rfl⟩ := joined_eq_text_cons first
      cases n with
      | text s' =>
        cases text
        rw [items, Node.items, List.forall_mem_append, List.forall_mem_singleton] at joinedOthers
        obtain ⟨someText, -⟩ : (Item.event (.text t)).Legible :=
          legible.2 _ (by rw [items, Node.items]; exact List.mem_cons_self)
        have together : IsPlain (s ++ t) := by simpa using meets
        rw [eq, items, Node.items, List.forall_mem_append, List.forall_mem_singleton]
        refine ⟨⟨?_, together.append_overlap joinedOthers.1.2 someText⟩, joinedOthers.2⟩
        intro none
        exact joinedOthers.1.1 (String.append_eq_empty_iff.1 none).2
      | _ => cases text

end Forest

end TaggedMarkup.Template

import Mathlib
import TaggedMarkup.Proofs.Compile.Outline
import TaggedMarkup.Proofs.Script.Moves

/-!
# Where templates start

How many templates of a piece of syntax start at an offset, and what readers of scripts do with that
number. A reader reads its parts one behind the other, so the templates of two parts start at
different places. `Reads` says of one reader that of the text it moves over no two templates in its
value start at the same place. Its instances follow the way readers are put together; `Needs`
gathers what is left to show of the values at the ends of a reader.
-/

namespace TaggedMarkup.Compile

open Script Parse

/-! ## Templates that start at an offset -/

/-- How many templates of an outline start at an offset. -/
@[simp] def Outline.startsAt (n : Nat) : Outline → Nat
  | .nothing | .reference _ | .markers _ => 0
  | .seq first second => first.startsAt n + second.startsAt n
  | .beside _ inner rest => inner.startsAt n + rest.startsAt n
  | .template _ site holes => holes.startsAt n + if site.span.start = n then 1 else 0
  | .scope _ first second => first.startsAt n + second.startsAt n

/-- The sites of one tag are among the templates. -/
lemma Outline.count_sites_le (n : Nat) (tag : String) (o : Outline) :
    ∀ place around,
      ((o.sites tag place around).map (·.site.span.start)).count n ≤ o.startsAt n := by
  induction o with
  | nothing | reference _ | markers _ => exact fun _ _ => Nat.zero_le _
  | seq first second ih₁ ih₂ | scope _ first second ih₁ ih₂ =>
    intro place around
    rw [sites, List.map_append, List.count_append]
    exact Nat.add_le_add (ih₁ _ _) (ih₂ _ _)
  | beside _ inner rest ih₁ ih₂ =>
    intro place around
    rw [sites, List.map_append, List.count_append]
    exact Nat.add_le_add (ih₁ _ _) (ih₂ _ _)
  | template name site holes ih =>
    intro place around
    rw [sites, List.map_append, List.count_append]
    refine Nat.add_le_add (ih _ _) ?_
    split
    · simp [List.count_singleton]
    · exact Nat.zero_le _

/-- Syntax that has an outline. -/
class Outlined (α : Type) where
  outline : α → Outline

attribute [simp] Outlined.outline

instance : Outlined Expr := ⟨outlineExpr⟩

instance : Outlined Item := ⟨outlineItem⟩

instance : Outlined Key := ⟨outlineKey⟩

instance : Outlined Member := ⟨outlineMember⟩

instance : Outlined Pattern := ⟨outlinePattern⟩

instance : Outlined PatternPart := ⟨outlinePart⟩

instance : Outlined PatternItem := ⟨outlinePatternItem⟩

instance : Outlined Function := ⟨outlineFunction⟩

instance : Outlined Body := ⟨outlineBody⟩

instance : Outlined Script.Class := ⟨outlineClass⟩

instance : Outlined ClassMember := ⟨outlineClassMember⟩

instance : Outlined Declarator := ⟨outlineDecl⟩

instance : Outlined Case := ⟨outlineCase⟩

instance : Outlined Stmt := ⟨outlineStatement true⟩

/-- Values of which templates are parts. -/
class Tally (α : Type) where
  /-- How many templates in a value start at an offset. -/
  tally : Nat → α → Nat

export Tally (tally)

namespace Tally

variable {α β σ : Type}

instance [Outlined α] : Tally α := ⟨fun n a => (Outlined.outline a).startsAt n⟩

instance [Tally α] : Tally (List α) := ⟨fun n as => (as.map (tally n)).sum⟩

instance [Tally α] : Tally (Option α) := ⟨fun n a => (a.map (tally n)).getD 0⟩

instance [Tally α] : Tally (α × Bool) := ⟨fun n a => tally n a.1⟩

instance [Tally α] : Tally (List Chunk × α) := ⟨fun n a => tally n a.2⟩

instance [Tally α] : Tally (String × α) := ⟨fun n a => tally n a.2⟩

instance [Tally σ] [Tally β] : Tally (Round σ β) where
  tally n
    | .more s => tally n s
    | .done b => tally n b

/-- What is found, or what there is else. -/
abbrev orElse [Tally α] (a : α) : Tally (Option α) := ⟨fun n b => tally n (b.getD a)⟩

variable (n : Nat)

/-- Syntax with an outline is counted in its outline. -/
@[simp] lemma of_outline [Outlined α] (a : α) :
    tally n a = (Outlined.outline a).startsAt n := rfl

variable [Tally α]

/-- The empty list has no starts. -/
@[simp] lemma nil : tally n ([] : List α) = 0 := rfl

/-- The starts in a list are those in its head and in its tail. -/
@[simp] lemma cons (a : α) (as : List α) : tally n (a :: as) = tally n a + tally n as :=
  List.sum_cons

/-- The starts in two lists add up. -/
@[simp] lemma append (as bs : List α) : tally n (as ++ bs) = tally n as + tally n bs := by
  simp [tally]

/-- The order of a list does not matter. -/
@[simp] lemma reverse (as : List α) : tally n as.reverse = tally n as := by
  simp [tally, List.sum_reverse]

/-- What is missing has no starts. -/
@[simp] lemma none : tally n (none : Option α) = 0 := rfl

/-- What may be missing has the starts that it has if it is there. -/
@[simp] lemma some (a : α) : tally n (some a) = tally n a := rfl

/-- A flag has no starts. -/
@[simp] lemma flagged (a : α) (b : Bool) : tally n (a, b) = tally n a := rfl

/-- The chunks of a literal have no starts of their own. -/
@[simp] lemma behindChunks (chunks : List Chunk) (a : α) : tally n (chunks, a) = tally n a := rfl

/-- A name has no starts. -/
@[simp] lemma named (name : String) (a : α) : tally n (name, a) = tally n a := rfl

/-- A round that goes on has the starts of its state. -/
@[simp] lemma more [Tally β] (s : α) : tally n (.more s : Round α β) = tally n s := rfl

/-- A round that is done has the starts of its result. -/
@[simp] lemma done [Tally σ] (a : α) : tally n (.done a : Round σ α) = tally n a := rfl

end Tally

section

variable (n : Nat)

/-- The starts in expressions are counted one by one. -/
@[simp] lemma startsAt_exprs (es : List Expr) : (outlineExprs es).startsAt n = tally n es := by
  induction es <;> simp [outlineExprs, *]

/-- The starts in an expression that may be missing. -/
@[simp] lemma startsAt_option (e : Option Expr) : (outlineOption e).startsAt n = tally n e := by
  cases e <;> simp [outlineOption]

/-- The starts in the items of an array are counted one by one. -/
@[simp] lemma startsAt_items (is : List Item) : (outlineItems is).startsAt n = tally n is := by
  induction is <;> simp [outlineItems, *]

/-- The starts in the members of an object are counted one by one. -/
@[simp] lemma startsAt_members (ms : List Member) :
    (outlineMembers ms).startsAt n = tally n ms := by
  induction ms <;> simp [outlineMembers, *]

/-- The starts in the parts of an object pattern are counted one by one. -/
@[simp] lemma startsAt_parts (ps : List PatternPart) :
    (outlineParts ps).startsAt n = tally n ps := by
  induction ps <;> simp [outlineParts, *]

/-- The starts in the items of an array pattern are counted one by one. -/
@[simp] lemma startsAt_patternItems (is : List PatternItem) :
    (outlinePatternItems is).startsAt n = tally n is := by
  induction is <;> simp [outlinePatternItems, *]

/-- A parameter has the starts of its item. -/
@[simp] lemma startsAt_param (i : PatternItem) :
    (outlineParam i).startsAt n = (outlinePatternItem i).startsAt n := by
  cases i <;> simp [outlineParam, outlinePatternItem]

/-- The starts in parameters are counted one by one. -/
@[simp] lemma startsAt_params (is : List PatternItem) :
    (outlineParams is).startsAt n = tally n is := by
  induction is <;> simp [outlineParams, *]

/-- The starts in the members of a class are counted one by one. -/
@[simp] lemma startsAt_classMembers (ms : List ClassMember) :
    (outlineClassMembers ms).startsAt n = tally n ms := by
  induction ms <;> simp [outlineClassMembers, *]

/-- The starts in declarations are counted one by one. -/
@[simp] lemma startsAt_decls (ds : List Declarator) :
    (outlineDecls ds).startsAt n = tally n ds := by
  induction ds <;> simp [outlineDecls, *]

/-- The starts in the cases of a switch are counted one by one. -/
@[simp] lemma startsAt_cases (cs : List Case) : (outlineCases cs).startsAt n = tally n cs := by
  induction cs <;> simp [outlineCases, *]

/-- A template starts at one place, whatever is put in place of what. -/
@[simp] lemma startsAt_site (replaced : Span) (form : Form) (e : Expr) :
    ((outlineSite replaced form e).getD (outlineExpr e)).startsAt n =
      (outlineExpr e).startsAt n := by
  cases e with
  | tagged tag chunks holes span =>
    rw [outlineSite, outlineExpr]
    cases bareName? tag <;> rfl
  | paren inner span => exact startsAt_site replaced form inner
  | _ => rfl

/-- A chain has the starts of its links. -/
@[simp] lemma startsAt_chain (links : Expr) (span : Span) :
    (outlineExpr (.chain links span)).startsAt n = (outlineExpr links).startsAt n := by
  rw [outlineExpr]
  split
  · rfl
  · rfl

/-- A value with type arguments has its own starts. -/
@[simp] lemma startsAt_instantiate (value : Expr) (span : Span) :
    (outlineExpr (.instantiate value span)).startsAt n = (outlineExpr value).startsAt n := rfl

/-- A cast has the starts of its value. -/
@[simp] lemma startsAt_cast (form : Cast) (value : Expr) (span : Span) :
    (outlineExpr (.cast form value span)).startsAt n = (outlineExpr value).startsAt n := by
  cases form <;> rfl

/-- A marker is no part of a pattern. -/
lemma startsAt_withDefault_le (target : Pattern) (value : Expr) (span : Span) :
    (outlinePattern (.withDefault target value span)).startsAt n ≤
      (outlinePattern target).startsAt n + (outlineExpr value).startsAt n := by
  rw [outlinePattern]
  split
  · exact Nat.le_add_right _ _
  · exact Nat.le_refl _

/-- A longer span has no other starts. -/
@[simp] lemma startsAt_extend (stop : Nat) (p : Pattern) :
    (outlinePattern (p.extend stop)).startsAt n = (outlinePattern p).startsAt n := by
  cases p <;> rfl

/-- It does not matter whether a statement stands in a list. -/
@[simp] lemma startsAt_statement (inList : Bool) (s : Stmt) :
    (outlineStatement inList s).startsAt n = (outlineStatement true s).startsAt n := by
  cases s with
  | ret value span => cases value <;> simp [outlineStatement]
  | each _ head _ _ => cases head <;> simp [outlineStatement]
  | _ => simp [outlineStatement]

/-- The starts in a loop over a source are those in its head, its source and its body. -/
@[simp] lemma startsAt_each (kind : EachKind) (head : Stmt) (source : Expr) (body : Stmt) :
    (outlineStatement true (.each kind head source body)).startsAt n =
      (outlineStatement true head).startsAt n + ((outlineExpr source).startsAt n +
        (outlineStatement true body).startsAt n) := by
  cases head <;> simp [outlineStatement]

/-- A return has the starts of its value. -/
@[simp] lemma startsAt_ret (value : Option Expr) (span : Span) :
    (outlineStatement true (.ret value span)).startsAt n = tally n value := by
  cases value <;> simp [outlineStatement]

/-- The starts in statements are counted one by one. -/
@[simp] lemma startsAt_statements (ss : List Stmt) :
    (outlineStatements ss).startsAt n = tally n ss := by
  induction ss <;> simp [outlineStatements, *]

/-- A block has the starts of its body. -/
@[simp] lemma startsAt_block (b : Body) :
    (outlineBlock b).startsAt n = (outlineBody b).startsAt n := by
  cases b <;> simp [outlineBody, outlineBlock]

end

/-! ## Readers -/

/-- A cursor that is not in front of an offset, and a number of templates that start at `n` in what
has been read from that offset on: it is one only if `n` lies between, and none else. -/
structure Since (n lo held : Nat) (c : Cursor) : Prop where
  sized : c.Sized
  le_start : lo ≤ c.start
  held_le : held ≤ if lo ≤ n ∧ n < c.start then 1 else 0

section

variable {α β γ σ : Type} {n lo held held' : Nat} {c c' : Cursor}

/-- Less may be held than there is. -/
lemma Since.mono (since : Since n lo held c) (le : held' ≤ held) : Since n lo held' c :=
  { since with held_le := le.trans since.held_le }

/-- Nothing is held where a reader starts. -/
lemma Since.here (n : Nat) (sized : c.Sized) : Since n c.start 0 c :=
  ⟨sized, Nat.le_refl _, Nat.zero_le _⟩

/-- A cursor that moves on keeps what is held behind it. -/
lemma Since.moves (since : Since n lo held c) (moved : c.start ≤ c'.start ∧ c'.Sized) :
    Since n lo held c' where
  sized := moved.2
  le_start := since.le_start.trans moved.1
  held_le := by
    refine since.held_le.trans ?_
    split_ifs <;> omega

/-- What has been read in two parts, one behind the other. -/
lemma Since.trans (since : Since n lo held c) (next : Since n c.start held' c') :
    Since n lo (held + held') c' where
  sized := next.sized
  le_start := since.le_start.trans next.le_start
  held_le := by
    refine (Nat.add_le_add since.held_le next.held_le).trans ?_
    have := since.le_start
    have := next.le_start
    split_ifs <;> omega

/-- What has been read from a later offset on. -/
lemma Since.lower {lo' : Nat} (since : Since n lo held c) (le : lo' ≤ lo) : Since n lo' held c where
  sized := since.sized
  le_start := le.trans since.le_start
  held_le := by
    refine since.held_le.trans ?_
    split_ifs <;> omega

variable [Tally α] [Tally β]

/-- A reader that is given values with at most so many templates that start at `n`. They all start
at one place at most, together with those that it reads, if they are part of its own value. -/
def Yields (n lo held : Nat) (p : Parse α) : Prop :=
  ∀ ⦃c a c'⦄, Since n lo held c → p c = some (a, c') → Since n lo (tally n a) c'

/-- No two templates in what a reader reads start at the same place. -/
class Reads (p : Parse α) : Prop where
  yields : ∀ n c a c', Since n c.start 0 c → p c = some (a, c') → Since n c.start (tally n a) c'

/-- A reader adds the starts of its result to what is held. -/
lemma Reads.since {p : Parse α} [Reads p] {a : α} (since : Since n lo held c)
    (ran : p c = some (a, c')) : Since n lo (held + tally n a) c' :=
  since.trans (Reads.yields n c a c' (.here n since.sized) ran)

instance (p : Parse α) [Reads p] : Moves p where
  moves {c a c'} sized ran := by
    have since := Reads.yields 0 c a c' (.here 0 sized) ran
    exact ⟨since.le_start, since.sized⟩

/-- A reader that yields what it holds from any place reads. -/
lemma Reads.of {p : Parse α} (yields : ∀ n lo, Yields n lo 0 p) : Reads p :=
  ⟨fun n c _ _ since ran => yields n c.start since ran⟩

namespace Yields

/-- A step that reads no syntax is skipped. -/
lemma skip {p : Parse γ} {f : γ → Parse β} [Moves p] (next : ∀ a, Yields n lo held (f a)) :
    Yields n lo held (p >>= f) := by
  intro c b c' since ran
  obtain ⟨a, d, first, second⟩ := run_bind.1 ran
  exact next a (since.moves (Moves.moves since.sized first)) second

/-- A step that reads syntax adds its starts. -/
lemma read {p : Parse α} {f : α → Parse β} [Reads p]
    (next : ∀ a, Yields n lo (held + tally n a) (f a)) : Yields n lo held (p >>= f) := by
  intro c b c' since ran
  obtain ⟨a, d, first, second⟩ := run_bind.1 ran
  exact next a (Reads.since since first) second

/-- A step that yields all that is held hands it on. -/
lemma andThen {p : Parse α} {f : α → Parse β} (first : Yields n lo held p)
    (next : ∀ a, Yields n lo (tally n a) (f a)) : Yields n lo held (p >>= f) := by
  intro c b c' since ran
  obtain ⟨a, d, read, second⟩ := run_bind.1 ran
  exact next a (first since read) second

/-- A reader that looks at the cursor may go back to it later. -/
lemma get {f : Cursor → Parse β} (next : ∀ c, Since n lo held c → Yields n lo held (f c)) :
    Yields n lo held (get >>= f) := by
  intro c b c' since ran
  obtain ⟨a, d, got, second⟩ := run_bind.1 ran
  cases got
  exact next c since since second

/-- A cursor is set back to a place from which less is held. -/
lemma set {f : Unit → Parse β} (since : Since n lo held' c) (next : Yields n lo held' (f ())) :
    Yields n lo held (set c >>= f) := by
  intro d b c' _ ran
  obtain ⟨a, e, went, second⟩ := run_bind.1 ran
  cases went
  exact next since second

/-- A trial yields what its reader does. -/
lemma attempt {p : Parse α} (reads : Yields n lo held p) : Yields n lo held (attempt p) := by
  intro c a c' since ran
  rw [Parse.attempt] at ran
  split at ran
  · next read =>
    cases ran
    exact reads since read
  · cases ran
    exact since.mono (Nat.zero_le _)

/-- Rounds that each yield what their state holds yield it in the end. -/
lemma iterate [Tally σ] {s : σ} {round : σ → Parse (Round σ β)} (le : tally n s ≤ held)
    (step : ∀ s, Yields n lo (tally n s) (round s)) : Yields n lo held (iterate s round) := by
  intro c b c' since ran
  refine iterate_induct (I := fun s c => Since n lo (tally n s) c)
    (J := fun b c => Since n lo (tally n b) c) (fun s c r c' since ran => ?_) (since.mono le) ran
  have next : Since n lo (tally n r) c' := step s since ran
  cases r <;> exact next

end Yields

/-! ## What readers need -/

/-- A reader yields what it is given and what it reads if `need` holds, which follows from how the
reader is put together. -/
class Needs (n lo held : Nat) (p : Parse α) (need : outParam Prop) : Prop where
  yields : need → Yields n lo held p

namespace Needs

/-- A reader whose needs are met reads. -/
lemma reads {p : Parse α} {need : Nat → Nat → Prop} [∀ n lo, Needs n lo 0 p (need n lo)]
    (needed : ∀ n lo, need n lo) : Reads p :=
  .of fun n lo => yields (needed n lo)

instance pure (a : α) : Needs n lo held (pure a) (tally n a ≤ held) where
  yields le c b c' since ran := by
    obtain ⟨rfl, rfl⟩ := run_pure.1 ran
    exact since.mono le

instance fail : Needs n lo held (fail : Parse α) True where
  yields _ _ _ _ _ ran := by cases ran

instance ite {b : Prop} [Decidable b] {p q : Parse α} {yes no : Prop} [Needs n lo held p yes]
    [Needs n lo held q no] : Needs n lo held (if b then p else q) ((b → yes) ∧ (¬ b → no)) where
  yields needed := by
    split
    · next is => exact yields (needed.1 is)
    · next isNot => exact yields (needed.2 isNot)

/-- What gives no syntax has no templates. -/
instance skip {p : Parse γ} {f : γ → Parse β} {need : γ → Prop} [Moves p]
    [∀ a, Needs n lo held (f a) (need a)] : Needs n lo held (p >>= f) (∀ a, need a) where
  yields needed := .skip fun a => yields (needed a)

instance (priority := 1100) read {p : Parse α} {f : α → Parse β} {need : α → Prop} [Reads p]
    [∀ a, Needs n lo (held + tally n a) (f a) (need a)] :
    Needs n lo held (p >>= f) (∀ a, need a) where
  yields needed := .read fun a => yields (needed a)

/-- A reader that takes all that is held into its value. -/
instance (priority := low) andThen {p : Parse α} {f : α → Parse β} {first : Prop}
    {need : α → Prop} [Needs n lo held p first] [∀ a, Needs n lo (tally n a) (f a) (need a)] :
    Needs n lo held (p >>= f) (first ∧ ∀ a, need a) where
  yields needed := .andThen (yields needed.1) fun a => yields (needed.2 a)

instance (priority := low) all {p : Parse α} [Reads p] : Needs n lo held p True where
  yields _ _ _ _ since ran := (Reads.since since ran).mono (Nat.le_add_left _ _)

instance attempt {p : Parse α} {need : Prop} [Needs n lo held p need] :
    Needs n lo held (attempt p) need where
  yields needed := .attempt (yields needed)

instance map {p : Parse α} {need : Prop} [Needs n lo held p need] :
    Needs n lo held (some <$> p) need where
  yields needed :=
    have whole : Yields n lo held (p >>= fun a => Pure.pure (some a)) :=
      .andThen (yields needed) fun a => yields (Nat.le_refl (tally n a))
    whole

instance iterate [Tally σ] {s : σ} {round : σ → Parse (Round σ β)} {need : σ → Prop}
    [∀ s, Needs n lo (tally n s) (round s) (need s)] :
    Needs n lo held (iterate s round) (tally n s ≤ held ∧ ∀ s, need s) where
  yields needed := .iterate needed.1 fun s => yields (needed.2 s)

end Needs

instance : Reads (pure none : Parse (Option α)) := Needs.reads (by simp)

instance : Reads (pure .exit : Parse Stmt) := Needs.reads (by simp [outlineStatement])

instance {p : Parse α} [Reads p] : Reads (some <$> p) :=
  have : Reads (p >>= fun a => pure (some a)) := Needs.reads (by simp)
  this

instance (separator close : String) (item : Parse α) [Reads item] :
    Reads (listUntil separator close item) := by
  unfold listUntil
  exact Needs.reads (by simp [Nat.add_comm])

instance (separator : String) (item : Parse α) [Reads item] : Reads (listOf separator item) := by
  unfold listOf
  exact Needs.reads (by simp [Nat.add_comm])

end

end TaggedMarkup.Compile

import Mathlib
import TaggedMarkup.Proofs.Code.Wiring
import TaggedMarkup.Proofs.Compile.Outline
import TaggedMarkup.Proofs.Template.Fragment

/-!
# Causes of failures

The fault of a binder is an internal error: binders come from templates that have been read, and
these give every binder a node. Without a node no code can be written for a binder, and there is no
other reason (`Code.wireAll_error_iff`). So a compilation fails for other causes only
(`binder_fault_unreachable`): a text that is no script, a misplaced marker, or a template that
cannot be read.

`Walk.External` says of a step of the walk that it has no other failures. Steps are put together as
those of a plan are.
-/

namespace TaggedMarkup

/-- Whether a cause is an internal error. -/
def Cause.isInternal : Cause → Bool
  | .binder _ => true
  | _ => false

/-- An offset changes nothing about the cause. -/
@[simp] lemma Failure.cause_locate (f : Failure) (offset : Nat) :
    (f.locate offset).cause = f.cause := by
  unfold Failure.locate
  split <;> rfl

/-- A result that may be a failure, but no internal error. -/
def IsExternal {α : Type} (result : Except Failure α) : Prop :=
  ∀ failure, result = .error failure → failure.cause.isInternal = false

/-- A success is no internal error. -/
lemma IsExternal.ok {α : Type} (a : α) : IsExternal (.ok a) := by
  intro failure refused
  cases refused

/-! ## Binders without a node -/

namespace Code

open Template (Binder)

/-- Wiring fails at the first binder that has no node, and at no other. -/
lemma wireAll_error_iff {t : Tables} {i : Nat} {bs : List Binder} {fault : BinderFault} :
    (wireAll t i bs).2 = .error fault ↔
      ∃ n, bs.findIdx? (·.node.isNone) = some n ∧ fault = .noNode (i + n) := by
  induction bs generalizing t i with
  | nil => simp [wireAll]
  | cons b bs ih =>
    cases place : b.node with
    | none =>
      have own : wire i (register t b).1 b = .error (.noNode i) := by rw [wire, place]
      rw [wireAll_cons_error own]
      simp [List.findIdx?_cons, place, eq_comm]
    | some node =>
      obtain ⟨⟨statements, releases⟩, own⟩ := (wire_ok_iff i (register t b).1 b).2 (by simp [place])
      have rest : (wireAll t i (b :: bs)).2 = .error fault ↔
          (wireAll (register t b).2 (i + 1) bs).2 = .error fault := by
        rw [wireAll_cons_ok own]
        cases (wireAll (register t b).2 (i + 1) bs).2 <;> simp [Except.map]
      rw [rest, ih]
      simp [List.findIdx?_cons, place, Nat.add_assoc, Nat.add_comm 1]

/-- Code is not written just if a binder has no node, and the first such binder is named. -/
lemma generate_error_iff {t : Tables} {fragment : Nat} {bs : List Binder} {fault : BinderFault} :
    (generate t fragment bs).2 = .error fault ↔
      ∃ n, bs.findIdx? (·.node.isNone) = some n ∧ fault = .noNode n := by
  have wired : (generate t fragment bs).2 = .error fault ↔ (wireAll t 0 bs).2 = .error fault := by
    rw [generate_eq]
    cases (wireAll t 0 bs).2 <;> simp [Except.map]
  rw [wired, wireAll_error_iff]
  simp

/-- Code can be written for binders that all have nodes. -/
lemma generate_ne_error {t : Tables} {fragment : Nat} {bs : List Binder} (fault : BinderFault)
    (nodes : ∀ b ∈ bs, b.node.isSome = true) : (generate t fragment bs).2 ≠ .error fault := by
  intro failed
  obtain ⟨n, found, -⟩ := generate_error_iff.1 failed
  have missing : bs.findIdx? (·.node.isNone) = none := by
    rw [List.findIdx?_eq_none_iff]
    intro b mem
    rw [← Option.not_isSome, nodes b mem]
    rfl
  rw [missing] at found
  cases found

end Code

/-! ## Templates -/

namespace Markup

/-- The fault of an outcome, if there is one, is no internal error. -/
def Outcome.External (o : Outcome) : Prop := ∀ cause ∈ o.fault, cause.isInternal = false

namespace Outcome.External

variable {o : Outcome}

/-- An outcome without a fault is external. -/
lemma none (fault : o.fault = none) : o.External := by
  intro cause mem
  rw [fault] at mem
  cases mem

/-- An outcome whose fault is no internal error is external. -/
lemma some {cause : Cause} (fault : o.fault = some cause) (external : cause.isInternal = false) :
    o.External := by
  intro other mem
  rw [fault] at mem
  cases mem
  exact external

/-- Events in front of an outcome have no fault. -/
lemma after (h : o.External) (events : List Event) : (o.after events).External := h

/-- A step after which only external steps follow. -/
lemma andThen (h : o.External) {next : Lexer → Outcome} (h' : ∀ l, (next l).External) :
    (o.andThen next).External := by
  unfold Outcome.andThen
  split
  · exact (h' _).after _
  · exact h

end Outcome.External

namespace Lexer

variable (l : Lexer) (c : Char)

/-- A step in a text has no internal error. -/
lemma stepText_external : (l.stepText c).External := by
  unfold stepText
  split <;> exact .none rfl

/-- A step in front of an attribute has no internal error. -/
lemma stepBeforeAttribute_external : (l.stepBeforeAttribute c).External := by
  unfold stepBeforeAttribute endOpenTag
  split_ifs
  case pos => exact .none rfl
  case pos => exact .none rfl
  case pos => exact .none rfl
  case pos => exact .some rfl rfl
  case neg => exact .none rfl

/-- A step behind the name of an attribute has no internal error. -/
lemma stepAfterAttribute_external : (l.stepAfterAttribute c).External := by
  unfold stepAfterAttribute
  split_ifs
  case pos => exact .none rfl
  case pos => exact .none rfl
  case neg => exact (stepBeforeAttribute_external _ c).after _

/-- A step in a bogus comment has no internal error. -/
lemma stepBogusComment_external : (l.stepBogusComment c).External := by
  unfold stepBogusComment endComment
  split <;> exact .none rfl

/-- A character is refused for what it is. -/
lemma step_external : (l.step c).External := by
  unfold step
  split
  case h_1 => exact stepText_external l c
  case h_2 =>
    unfold stepTagOpening
    split_ifs
    case neg => exact stepText_external _ c
    all_goals exact .none rfl
  case h_3 =>
    unfold stepTagName
    split
    · exact (stepBeforeAttribute_external _ c).after _
    · exact .none rfl
  case h_4 => exact stepBeforeAttribute_external l c
  case h_5 =>
    unfold stepAttributeName
    split
    · exact stepAfterAttribute_external _ c
    · exact .none rfl
  case h_6 => exact stepAfterAttribute_external l c
  case h_7 =>
    unfold stepBeforeValue endOpenTag
    split_ifs <;> exact .none rfl
  case h_8 =>
    unfold stepQuotedValue
    split_ifs
    case pos => exact .none rfl
    case neg => exact .none rfl
    case pos => exact .some rfl rfl
    case neg => exact .none rfl
  case h_9 =>
    unfold stepUnquotedValue endOpenTag
    dsimp only
    split_ifs <;> exact .none rfl
  case h_10 =>
    unfold stepSelfClosing endOpenTag
    split
    · exact .none rfl
    · exact stepBeforeAttribute_external _ c
  case h_11 =>
    unfold stepClosingName endCloseTag
    split_ifs <;> exact .none rfl
  case h_12 =>
    unfold stepAfterClosingName endCloseTag
    split_ifs
    case pos => exact .none rfl
    case pos => exact .none rfl
    case neg => exact .some rfl rfl
  case h_13 =>
    unfold stepDeclaration
    split
    · exact .none rfl
    · exact stepBogusComment_external _ c
  case h_14 =>
    unfold stepCommentDash
    split
    · exact .none rfl
    · exact stepBogusComment_external _ c
  case h_15 =>
    unfold stepComment
    split <;> exact .none rfl
  case h_16 =>
    unfold stepCommentEndDash
    split <;> exact .none rfl
  case h_17 =>
    unfold stepCommentEnd endComment
    split_ifs <;> exact .none rfl
  case h_18 => exact stepBogusComment_external l c

/-- To write a chunk has no internal error. -/
lemma write_external (chunk : String) : (l.write chunk).External := by
  unfold write
  generalize chunk.toList = cs
  induction cs generalizing l with
  | nil => exact .none rfl
  | cons c cs ih => exact (step_external l c).andThen ih

/-- To flush the lexer has no internal error. -/
lemma flush_external : l.flush.External := by
  unfold flush
  split <;> exact .none rfl

/-- To bind the value of an attribute has no internal error. -/
lemma bindValue_external {l : Lexer} {cause : Cause} (refused : l.bindValue.2 = .error cause) :
    cause.isInternal = false := by
  unfold bindValue at refused
  dsimp only at refused
  split at refused
  · cases refused
  · split_ifs at refused
    cases refused
    rfl
  · cases refused
    rfl

/-- To end a template has no internal error. -/
lemma finish_external : l.finish.External := by
  unfold finish
  split
  case h_1 => exact (flush_external l).andThen fun _ => .none rfl
  case h_2 => exact (flush_external _).andThen fun _ => .none rfl
  all_goals exact .some rfl rfl

end Lexer

end Markup

namespace Template

open Markup (Event Lexer Outcome Sigil)

namespace Skeleton

/-- What a skeleton refuses is no internal error. -/
lemma handle_external {s : Skeleton} {e : Event} {cause : Cause}
    (refused : s.handle e = .error cause) : cause.isInternal = false := by
  cases e with
  | openTag name =>
    simp only [handle, openTag] at refused
    split at refused
    · split at refused
      · split at refused
        · cases refused
        · cases refused
          rfl
      · cases refused
        rfl
    · cases refused
  | openTagEnd selfClosing =>
    simp only [handle, endOpenTag] at refused
    split at refused
    · split at refused
      · cases refused
      · cases refused
        rfl
    · split_ifs at refused
  | closeTag name =>
    simp only [handle, closeTag] at refused
    split_ifs at refused
    cases refused
    rfl
  | _ => cases refused

/-- To build on events has no internal error. -/
lemma handleAll_external {s : Skeleton} {es : List Event} {cause : Cause}
    (refused : s.handleAll es = .error cause) : cause.isInternal = false := by
  induction es generalizing s with
  | nil => cases refused
  | cons e es ih =>
    rw [handleAll] at refused
    split at refused
    · exact ih refused
    · rename_i here
      cases refused
      exact handle_external here

/-- To add the binder of an attribute has no internal error. -/
lemma addAttributeBinder_external {s : Skeleton} {name : String} {sigil : Sigil}
    {expression : Expression} {slot : Nat} {cause : Cause}
    (refused : s.addAttributeBinder name sigil expression slot = .error cause) :
    cause.isInternal = false := by
  unfold addAttributeBinder at refused
  split at refused
  · split_ifs at refused
    cases refused
    rfl
  · cases refused

end Skeleton

namespace Parser

/-- To take what the lexer reports has no internal error. -/
lemma take_external {p : Parser} {o : Outcome} {cause : Cause} (external : o.External)
    (refused : p.take o = .error cause) : cause.isInternal = false := by
  rw [take] at refused
  split at refused
  · rename_i here
    cases refused
    exact Skeleton.handleAll_external here
  · split at refused
    · rename_i fault
      cases refused
      exact external cause (by rw [fault]; rfl)
    · cases refused

/-- To bind a hole has no internal error. -/
lemma bind_external {p : Parser} {h : Hole} {cause : Cause}
    (refused : p.bind h.slot h.sigil h.block h.expression = .error cause) :
    cause.isInternal = false := by
  rw [bind] at refused
  split at refused
  · split at refused
    · rename_i here
      cases refused
      exact take_external (Lexer.flush_external _) here
    · cases refused
  · split at refused
    · cases refused
      rfl
    · split at refused
      · rename_i here
        cases refused
        exact Lexer.bindValue_external (congrArg Prod.snd here)
      · split at refused
        · rename_i here
          cases refused
          exact Skeleton.addAttributeBinder_external here
        · cases refused
  · split_ifs at refused <;> (cases refused; rfl)
  · cases refused
    rfl

/-- To read a template has no internal error. -/
lemma run_external (p : Parser) (slot : Nat) (chunk : String)
    (rest : List (Expression × String)) : IsExternal (p.run slot chunk rest) := by
  intro failure refused
  induction rest generalizing p slot chunk with
  | nil =>
    rw [run] at refused
    split at refused
    · rename_i here
      cases refused
      exact take_external (Lexer.write_external _ _) here
    · cases refused
  | cons pair rest ih =>
    obtain ⟨expression, next⟩ := pair
    rw [run] at refused
    dsimp only at refused
    split at refused
    · rename_i here
      cases refused
      exact take_external (Lexer.write_external _ _) here
    · split at refused
      · rename_i here
        cases refused
        rw [Failure.cause_locate]
        exact bind_external (h := ⟨slot, _, _, expression⟩) here
      · exact ih _ _ _ refused

end Parser

/-- A template is refused for what it is. -/
lemma parse_external (chunks : List String) (expressions : List Expression) :
    IsExternal (parse chunks expressions) := by
  intro failure refused
  unfold parse at refused
  dsimp only at refused
  split at refused
  · cases refused
    rfl
  · split at refused
    · split at refused
      · rename_i here
        cases refused
        exact Parser.run_external _ _ _ _ failure here
      · rw [Parser.finish] at refused
        split at refused
        · rename_i here
          cases refused
          exact Parser.take_external (Lexer.finish_external _) here
        · cases refused
    · cases refused
      rfl

/-- Every binder of a template has a node. The properties of a component are part of its binder,
and have none of their own. -/
lemma isSome_node_of_parse {chunks : List String} {expressions : List Expression}
    {fragment : Fragment} (ok : parse chunks expressions = .ok fragment) :
    ∀ b ∈ fragment.binders, b.node.isSome = true := by
  intro b mem
  obtain ⟨F, -, rfl⟩ := parse_nests ok
  have node := List.mem_map_of_mem (f := Binder.node) mem
  rw [node_numbered] at node
  obtain ⟨n, -, eq⟩ := List.mem_map.1 node
  rw [← eq]
  rfl

end Template

/-! ## Markers -/

namespace Script

/-- Names in front of others. -/
lemma collect_append {first second : Except Failure (List Binding)} :
    IsExternal first → IsExternal second →
      IsExternal (match first with
        | .error failure => .error failure
        | .ok names =>
          match second with
          | .error failure => .error failure
          | .ok more => .ok (names ++ more)) := by
  intro h h'
  cases first with
  | error failure => exact h
  | ok names =>
    cases second with
    | error failure => exact h'
    | ok more => exact .ok _

mutual

/-- To collect the names of a pattern has no internal error. -/
lemma Pattern.collect_external :
    ∀ (marked : Bool) (p : Pattern), IsExternal (p.collect marked)
  | _, .name _ _ => .ok _
  | marked, .object parts _ => collectParts_external marked parts
  | marked, .array items _ => collectItems_external marked items
  | marked, .withDefault target value span => by
    rw [Pattern.collect]
    split_ifs
    · intro failure refused
      cases refused
      rfl
    · exact target.collect_external true
    · exact target.collect_external marked

/-- To collect the names of the parts of an object pattern has no internal error. -/
lemma collectParts_external :
    ∀ (marked : Bool) (parts : List PatternPart), IsExternal (collectParts marked parts)
  | _, [] => .ok _
  | marked, .prop _ target :: parts | marked, .rest target :: parts =>
    collect_append (target.collect_external marked) (collectParts_external marked parts)

/-- To collect the names of the items of an array pattern has no internal error. -/
lemma collectItems_external :
    ∀ (marked : Bool) (items : List PatternItem), IsExternal (collectItems marked items)
  | _, [] => .ok _
  | marked, .hole :: items => collect_append (.ok []) (collectItems_external marked items)
  | marked, .item _ target :: items | marked, .rest _ target :: items =>
    collect_append (target.collect_external marked) (collectItems_external marked items)

end

end Script

/-! ## The walk -/

namespace Compile

open Code (RenderCode)
open Script
open Template (Binder Fragment)
open Walk

/-- A step of the walk has no internal error. -/
def Walk.External {α : Type} (x : Walk α) : Prop := ∀ s, IsExternal (x.exec s).1

namespace Walk.External

variable {α β : Type}

/-- A step that does nothing has no internal error. -/
lemma ofPure (a : α) : External (pure a : Walk α) := fun _ => .ok a

/-- To read the state has no internal error. -/
lemma ofGet : External (get : Walk State) := fun s => .ok s

/-- To change the state has no internal error. -/
lemma ofModify (f : State → State) : External (modify f : Walk Unit) := fun _ => .ok ()

/-- A result that is no internal error is none as a step. -/
lemma ofExcept {result : Except Failure α} (h : IsExternal result) :
    External (Walk.ofExcept result) := by
  intro s
  cases result with
  | error own => exact h
  | ok a => exact .ok a

/-- Steps without internal errors have none one after the other. -/
lemma bind {x : Walk α} {f : α → Walk β} (first : External x) (second : ∀ a, External (f a)) :
    External (x >>= f) := by
  intro s failure refused
  rw [exec_bind] at refused
  cases ran : x.exec s with
  | mk result t =>
    rw [ran] at refused
    cases result with
    | error own =>
      cases refused
      exact first s failure (by rw [ran])
    | ok a => exact second a t failure refused

/-- A scope around a step adds no internal error. -/
lemma inScope {x : Walk α} (h : External x) : External (inScope x) := by
  intro s failure refused
  rw [exec_inScope] at refused
  exact h _ failure refused

end Walk.External

/-- To declare what has been collected has no internal error. -/
lemma external_declareAll {names : Declared} (h : ∀ own ∈ names, IsExternal own) :
    External (declareAll names) := by
  induction names with
  | nil => exact .ofPure ()
  | cons own rest ih =>
    exact .bind (.ofExcept (h own List.mem_cons_self)) fun _ => .bind (.ofModify _) fun _ =>
      ih fun other mem => h other (List.mem_cons_of_mem own mem)

/-! What a scope declares are names and patterns. -/

/-- The name of a declaration is no internal error. -/
lemma external_name (name : Option Name) : ∀ own ∈ declaredName name, IsExternal own := by
  cases name with
  | none => simp [declaredName]
  | some n =>
    intro own mem
    obtain rfl := List.mem_singleton.1 mem
    exact .ok _

/-- The names of declared variables are no internal errors. -/
lemma external_variables (decls : List Declarator) :
    ∀ own ∈ declaredVariables decls, IsExternal own := by
  intro own mem
  obtain ⟨⟨target, value⟩, -, rfl⟩ := List.mem_map.1 mem
  exact target.collect_external false

/-- The names of parameters are no internal errors. -/
lemma external_items (items : List PatternItem) :
    ∀ own ∈ declaredItems items, IsExternal own := by
  intro own mem
  obtain ⟨target, -, rfl⟩ := List.mem_map.1 mem
  exact target.collect_external false

/-- What a statement declares is no internal error. -/
lemma external_by (s : Stmt) : ∀ own ∈ declaredBy s, IsExternal own := by
  fun_cases declaredBy s with
  | case1 kind decls => exact external_variables decls
  | case2 name => exact external_name name
  | case3 _ name => exact external_name name
  | case4 decl => exact external_by decl
  | case5 => exact fun _ mem => absurd mem List.not_mem_nil

/-- What statements declare is no internal error. -/
lemma external_statements (body : List Stmt) :
    ∀ own ∈ body.flatMap declaredBy, IsExternal own := by
  intro own mem
  obtain ⟨s, -, here⟩ := List.mem_flatMap.1 mem
  exact external_by s own here

namespace Opening

/-- What the parameters of a scope declare is no internal error. -/
lemma external_params (opening : Opening) : ∀ own ∈ opening.params, IsExternal own := by
  cases opening with
  | function params body => exact external_items params
  | _ => exact fun _ mem => absurd mem List.not_mem_nil

/-- What the body of a scope declares is no internal error. -/
lemma external_locals (opening : Opening) : ∀ own ∈ opening.locals, IsExternal own := by
  have head : ∀ s, ∀ own ∈ declaredHead s, IsExternal own := by
    intro s
    fun_cases declaredHead s with
    | case1 kind decls => exact external_variables decls
    | case2 => exact fun _ mem => absurd mem List.not_mem_nil
  cases opening with
  | function params body =>
    cases body with
    | block body => exact external_statements body
    | _ => exact fun _ mem => absurd mem List.not_mem_nil
  | unit body | block body => exact external_statements body
  | switch cases =>
    intro own mem
    obtain ⟨⟨test, body⟩, -, here⟩ := List.mem_flatMap.1 mem
    exact external_statements body own here
  | loop start _ | each start _ => exact head start
  | handler param => exact external_items param

end Opening

/-- To resolve a binder keeps its node. -/
lemma node_resolveBinder (file : File) (s : State) (holes : List Expr) (b : Binder) :
    (resolveBinder file s holes b).node = b.node := by
  unfold resolveBinder
  split <;> rfl

/-- The binders of a site are those of its template, so code can be written for all of them. -/
lemma external_compileSite (file : File) (mark : Nat) (chunks : List Chunk) (holes : List Expr)
    (span : Span) : External (compileSite file mark chunks holes span) := by
  intro s failure refused
  simp only [compileSite, exec_bind, exec_get, exec_modify] at refused
  split at refused
  · rename_i parsed
    cases refused
    rw [Failure.cause_locate]
    exact Template.parse_external _ _ _ parsed
  · rename_i fragment parsed
    simp only [exec_bind, exec_get, exec_set] at refused
    split at refused
    · rename_i fault generated
      refine absurd generated (Code.generate_ne_error fault ?_)
      intro b mem
      obtain ⟨own, here, rfl⟩ := List.mem_map.1 mem
      rw [node_resolveBinder]
      exact Template.isSome_node_of_parse parsed own here
    · cases refused

/-- No plan of a script has an internal error. -/
lemma Outline.external_plan (file : File) (o : Outline) : External ((o.plan file).run file) := by
  induction o with
  | nothing => exact .ofPure ()
  | seq first second ih₁ ih₂ => exact .bind ih₁ fun _ => ih₂
  | beside place inner rest _ ih => exact ih
  | reference name =>
    unfold plan
    split
    · exact .ofModify _
    · exact .ofPure ()
  | markers spans => exact .ofModify _
  | template tag site holes ih =>
    unfold plan
    split
    · exact .bind .ofGet fun s => .bind ih fun _ =>
        .bind (external_compileSite file _ _ _ _) fun _ => .ofModify _
    · exact .bind (.ofPure ()) fun _ => ih
  | scope opening first second ih₁ ih₂ =>
    exact .inScope (.bind (external_declareAll opening.external_params) fun _ =>
      .bind ih₁ fun _ => .bind (external_declareAll opening.external_locals) fun _ => ih₂)

/-- To visit a script has no internal error. -/
lemma external_visitScript (file : File) (script : List Stmt) :
    External (visitScript file script) := by
  rw [visitScript_eq_run, (sketches_statements file script).plan]
  exact .bind (external_declareAll (external_statements script)) fun _ =>
    Outline.external_plan file _

/-- To compile a source has no internal error. -/
lemma external_compileSource (runtime : Runtime) (name source : String) :
    IsExternal (compileSource runtime name source).result := by
  unfold compileSource
  dsimp only
  split
  · intro failure refused
    cases refused
    rfl
  · rename_i script _
    unfold compileScript
    dsimp only
    split
    · rename_i failure s walked
      intro other refused
      cases refused
      exact external_visitScript _ script {} failure (congrArg Prod.fst walked)
    · unfold finishScript
      dsimp only
      split <;> exact .ok _

/-- Code can be written for binders unless one has no node, and the first that has none is the only
one to be blamed, whatever the observables. Templates give every binder a node. So no script fails
for the fault of a binder. -/
theorem binder_fault_unreachable :
    (∀ t fragment (bs : List Binder),
      ((∃ fault, (Code.generate t fragment bs).2 = .error fault) ↔ ∃ b ∈ bs, b.node = none) ∧
      ∀ fault, (Code.generate t fragment bs).2 = .error fault ↔
        ∃ n, bs.findIdx? (·.node.isNone) = some n ∧ fault = .noNode n) ∧
    (∀ (b : Binder) sub observer, ∃ statement, Code.valueStatement b sub observer = .ok statement) ∧
    (∀ chunks expressions fragment, Template.parse chunks expressions = .ok fragment →
      ∀ b ∈ fragment.binders, b.node.isSome = true) ∧
    ∀ runtime name source fault offset,
      (compileSource runtime name source).result ≠ .error ⟨.binder fault, offset⟩ := by
  refine ⟨fun t fragment bs => ⟨?_, fun fault => Code.generate_error_iff⟩, Code.valueStatement_ok,
    fun _ _ _ => Template.isSome_node_of_parse, ?_⟩
  · have found : (∃ n, bs.findIdx? (·.node.isNone) = some n) ↔ ∃ b ∈ bs, b.node = none := by
      simp [← Option.isSome_iff_exists]
    rw [← found]
    constructor
    · rintro ⟨fault, failed⟩
      obtain ⟨n, here, -⟩ := Code.generate_error_iff.1 failed
      exact ⟨n, here⟩
    · rintro ⟨n, here⟩
      exact ⟨.noNode n, Code.generate_error_iff.2 ⟨n, here, rfl⟩⟩
  · intro runtime name source fault offset refused
    cases external_compileSource runtime name source _ refused

/-- A component and a text, whose binders all have nodes. -/
theorem binder_fault_unreachable_component :
    let chunks := ["<#:", " p=", "/><b>", "</b>"]
    let expressions : List Template.Expression :=
      [{ source := "f" }, { source := "x" }, { source := "y" }]
    let fragment : Fragment :=
      { html := "<!-- component --><b data-bind><text-node></text-node></b>"
        binders := [
          { target := .text, sigil := .none, expression := { source := "y" }, slot := 2,
            index := .child 0, node := some 0 },
          { target := .component, sigil := .none, expression := { source := "f" }, slot := 0,
            index := .child 0, node := some 1,
            properties := [
              { target := .attribute, sigil := .none, expression := { source := "x" }, slot := 1,
                index := .attribute "p" }] }] }
    Template.parse chunks expressions = .ok fragment ∧
      ∀ b ∈ fragment.binders, b.node.isSome = true := by
  intro chunks expressions fragment
  have ok : Template.parse chunks expressions = .ok fragment := rfl
  exact ⟨ok, binder_fault_unreachable.2.2.1 chunks expressions fragment ok⟩

end Compile

end TaggedMarkup

import TaggedMarkup.Proofs.Script.Layout
import TaggedMarkup.Script.Imports

/-!
# Edits of imports

Helpers and declarations are added by few edits: one that replaces the named imports of a
declaration, and insertions at the end of a declaration or at the start of the source. In a script
that is laid out these agree with one another, and with all edits that keep away from import
declarations (`Imports.edits_agree`).
-/

namespace TaggedMarkup.Script

open Source (Edit)

/-- An import declaration of a script has its tree there. -/
lemma Import.tree_mem {decl : Import} {script : List Stmt} (mem : Stmt.import decl ∈ script) :
    decl.tree ∈ treesOfStatements script := by
  induction script with
  | nil => cases mem
  | cons s ss ih =>
    rcases List.mem_cons.1 mem with rfl | mem
    · exact List.mem_append_left _ List.mem_cons_self
    · exact List.mem_append_right _ (ih mem)

/-- The named imports of a declaration stand at their spans. -/
lemma Import.map_span_specifiers (source : List Char) (decl : Import) :
    (decl.specifiers source).map Specifier.span = decl.namedSpans := by
  rw [specifiers, namedSpans, List.map_filterMap]
  congr 1
  funext name
  cases name <;> rfl

/-- The named imports of a declaration that is laid out stand inside it, from the first to the
last. -/
lemma Import.named_proper {source : List Char} {decl : Import} (nested : decl.tree.Nested source)
    {first last : Specifier} (head : (decl.specifiers source).head? = some first)
    (getLast : (decl.specifiers source).getLast? = some last) :
    (⟨first.span.start, last.span.stop⟩ : Span).Proper source ∧
      (⟨first.span.start, last.span.stop⟩ : Span).Inside decl.span := by
  have head' : decl.namedSpans.head? = some first.span := by
    rw [← map_span_specifiers source, List.head?_map, head, Option.map_some]
  have getLast' : decl.namedSpans.getLast? = some last.span := by
    rw [← map_span_specifiers source, List.getLast?_map, getLast, Option.map_some]
  simp only [Import.tree, head', getLast'] at nested
  obtain ⟨-, inside, laid⟩ := nested
  exact ⟨(laidOut_node.1 laid).1, inside _ List.mem_cons_self⟩

namespace Imports

variable {runtime : Runtime} {source : List Char} {script : List Stmt}

/-- An import declaration leaves the specifiers that are kept, or puts its own in their place. -/
lemma add_specifiers (i : Imports) (decl : Import) :
    (i.add runtime source decl).specifiers = i.specifiers ∨
      decl.module = runtime.module ∧
        (i.add runtime source decl).specifiers = decl.specifiers source := by
  generalize added : i.add runtime source decl = j
  simp only [add] at added
  split at added
  · subst added
    exact .inl rfl
  · rename_i module
    have same : decl.module = runtime.module := not_not.1 module
    repeat' split at added
    all_goals subst added
    · exact .inl rfl
    · exact .inl rfl
    · exact .inr ⟨same, rfl⟩
    · exact .inr ⟨same, rfl⟩
    · exact .inl rfl

/-- The imports end where the last one does. -/
lemma add_stop (i : Imports) (decl : Import) :
    (i.add runtime source decl).stop = some decl.span.stop := by
  simp only [add]
  repeat' split
  all_goals rfl

/-- A declaration that the imports of a script tell of. -/
lemma mem_of_mem_imports {decl : Import}
    (mem : decl ∈ script.filterMap fun | .import decl => some decl | _ => none) :
    Stmt.import decl ∈ script := by
  obtain ⟨s, inScript, eq⟩ := List.mem_filterMap.1 mem
  split at eq
  · cases eq
    exact inScript
  · cases eq

/-- The specifiers to which helpers are added are those of one import from the runtime. -/
lemma ofScript_specifiers (runtime : Runtime) (source : List Char) (script : List Stmt) :
    (ofScript runtime source script).specifiers = [] ∨
      ∃ decl, Stmt.import decl ∈ script ∧ decl.module = runtime.module ∧
        (ofScript runtime source script).specifiers = decl.specifiers source := by
  have folded (decls : List Import) (i : Imports) :
      (decls.foldl (add runtime source) i).specifiers = i.specifiers ∨
        ∃ decl ∈ decls, decl.module = runtime.module ∧
          (decls.foldl (add runtime source) i).specifiers = decl.specifiers source := by
    induction decls generalizing i with
    | nil => exact .inl rfl
    | cons d decls ih =>
      rcases ih (i.add runtime source d) with same | ⟨decl, mem, found⟩
      · rcases i.add_specifiers d with kept | ⟨module, own⟩
        · exact .inl (same.trans kept)
        · exact .inr ⟨d, List.mem_cons_self, module, same.trans own⟩
      · exact .inr ⟨decl, List.mem_cons_of_mem d mem, found⟩
  rcases folded _ { tag := runtime.tag } with none | ⟨decl, mem, found⟩
  · exact .inl none
  · exact .inr ⟨decl, mem_of_mem_imports mem, found⟩

/-- Imports are always edited. -/
lemma edits_ne_nil {i : Imports} {helpers declarations : List String} {keepTag : Bool} :
    i.edits runtime helpers declarations keepTag ≠ [] := by
  simp only [edits]
  split
  · nofun
  · split <;> nofun

/-- Declarations are added at the end of an import. -/
lemma ofScript_stop {n : Nat} (stop : (ofScript runtime source script).stop = some n) :
    ∃ decl, Stmt.import decl ∈ script ∧ decl.span.stop = n := by
  have folded (decls : List Import) (i : Imports)
      (stop : (decls.foldl (add runtime source) i).stop = some n) :
      i.stop = some n ∨ ∃ decl ∈ decls, decl.span.stop = n := by
    induction decls generalizing i with
    | nil => exact .inl stop
    | cons d decls ih =>
      rcases ih _ stop with here | ⟨decl, mem, found⟩
      · rw [add_stop] at here
        exact .inr ⟨d, List.mem_cons_self, Option.some.inj here⟩
      · exact .inr ⟨decl, List.mem_cons_of_mem d mem, found⟩
  rcases folded _ _ stop with none | ⟨decl, mem, found⟩
  · cases none
  · exact ⟨decl, mem_of_mem_imports mem, found⟩

end Imports

/-- An edit of imports inserts, or replaces the named imports of a declaration from the runtime. -/
inductive IsImportEdit (runtime : Runtime) (source : List Char) (script : List Stmt) (e : Edit) :
    Prop where
  | insertion : e.start = e.stop → IsImportEdit runtime source script e
  | named {decl : Import} {first last : Specifier} :
    Stmt.import decl ∈ script → decl.module = runtime.module →
    (decl.specifiers source).head? = some first → (decl.specifiers source).getLast? = some last →
    e.start = first.span.start → e.stop = last.span.stop → IsImportEdit runtime source script e

/-- An edit stands where the edits of imports may be: it fits, and agrees with every replacement
recorded before it that keeps away from import declarations. -/
structure AtImports (source : List Char) (script : List Stmt) (e : Edit) : Prop where
  fits : e.Fits source
  agrees : ∀ d : Edit, d.start < d.stop →
    (∀ decl, Stmt.import decl ∈ script → (Span.ofEdit d).Apart decl.span) → d.Agrees e

/-- An insertion into an import declaration, or at one of its ends. -/
lemma atImports_insert {source : List Char} {script : List Stmt} {decl : Import} {n : Nat}
    (text : String) (mem : Stmt.import decl ∈ script) (cut : Text.IsCut source n)
    (start_le : decl.span.start ≤ n) (le_stop : n ≤ decl.span.stop) :
    AtImports source script (.insert n text) := by
  refine ⟨⟨Nat.le_refl n, cut, cut⟩, fun d _ away => ⟨?_, fun _ => rfl⟩⟩
  rcases away decl mem with front | back
  · exact .inl (Nat.le_trans front start_le)
  · exact .inr (Nat.le_trans le_stop back)

/-- An insertion at the start of the source. -/
lemma atImports_insert_zero (source : List Char) (script : List Stmt) (text : String) :
    AtImports source script (.insert 0 text) :=
  ⟨⟨Nat.le_refl 0, Text.isCut_zero source, Text.isCut_zero source⟩,
    fun d _ _ => ⟨.inr (Nat.zero_le d.start), fun _ => rfl⟩⟩

/-- A replacement inside an import declaration. -/
lemma atImports_replace {source : List Char} {script : List Stmt} {decl : Import} {e : Edit}
    (mem : Stmt.import decl ∈ script) (proper : (Span.ofEdit e).Proper source)
    (inside : (Span.ofEdit e).Inside decl.span) : AtImports source script e := by
  obtain ⟨lt, first, last⟩ := proper
  refine ⟨⟨Nat.le_of_lt lt, first, last⟩, fun d nonempty away => ?_⟩
  have apart : d.Apart e := (away decl mem).mono (.refl _) inside
  exact apart.agrees nonempty lt

/-- The end of an import declaration is not inside what is replaced in another or the same one. -/
lemma Import.stop_apart {source : List Char} {script : List Stmt}
    (laid : LaidOut source (treesOfStatements script)) {decl other : Import} {s : Span}
    (mem : Stmt.import decl ∈ script) (mem' : Stmt.import other ∈ script)
    (inside : s.Inside decl.span) : s.stop ≤ other.span.stop ∨ other.span.stop ≤ s.start := by
  obtain ⟨start_le, stop_le⟩ := inside
  have lt : other.span.start < other.span.stop :=
    (laid.nested (other.tree_mem mem')).proper.start_lt_stop
  rcases laid.apart (decl.tree_mem mem) (other.tree_mem mem') with same | front | back
  · have spans : decl.span = other.span := congrArg SpanTree.span same
    exact .inl (spans ▸ stop_le)
  · replace front : decl.span.stop ≤ other.span.start := front
    exact .inl (by omega)
  · exact .inr (Nat.le_trans back start_le)

/-- The edits of imports agree with one another and stand where edits of imports may be. -/
lemma Imports.edits_agree (runtime : Runtime) {source : List Char} {script : List Stmt}
    (laid : LaidOut source (treesOfStatements script)) (helpers declarations : List String)
    (keepTag : Bool) :
    let edits := (ofScript runtime source script).edits runtime helpers declarations keepTag
    edits.Pairwise Edit.Agrees ∧
      ∀ e ∈ edits, AtImports source script e ∧ IsImportEdit runtime source script e := by
  intro edits
  have atStop {n : Nat} (stop : (ofScript runtime source script).stop = some n) (text : String) :
      AtImports source script (.insert n text) := by
    obtain ⟨decl, mem, rfl⟩ := ofScript_stop stop
    have proper := (laid.nested (decl.tree_mem mem)).proper
    exact atImports_insert text mem proper.cutStop (Nat.le_of_lt proper.start_lt_stop)
      (Nat.le_refl _)
  simp only [edits, Imports.edits]
  split
  · rename_i first last head getLast
    obtain none | ⟨decl, mem, module, own⟩ := ofScript_specifiers runtime source script
    · simp [none] at head
    rw [own] at head getLast
    obtain ⟨proper, inside⟩ := Import.named_proper (laid.nested (decl.tree_mem mem)) head getLast
    have replacement (text : String) :
        AtImports source script ⟨first.span.start, last.span.stop, text⟩ ∧
          IsImportEdit runtime source script ⟨first.span.start, last.span.stop, text⟩ :=
      ⟨atImports_replace mem proper inside, .named mem module head getLast rfl rfl⟩
    -- Without an end of the imports the declarations would follow the replacement.
    rcases stop : (ofScript runtime source script).stop with _ | n
    · have insertion (text : String) : AtImports source script (.insert last.span.stop text) :=
        atImports_insert text mem proper.cutStop
          (Nat.le_trans inside.start_le (Nat.le_of_lt proper.start_lt_stop)) inside.stop_le
      refine ⟨List.pairwise_pair.2 ⟨.inl (Nat.le_refl _), fun _ => rfl⟩, ?_⟩
      simp only [Option.getD_none, List.forall_mem_cons]
      exact ⟨replacement _, ⟨insertion _, .insertion rfl⟩, nofun⟩
    · obtain ⟨other, mem', rfl⟩ := ofScript_stop stop
      refine ⟨List.pairwise_pair.2 ⟨Import.stop_apart laid mem mem' inside, fun _ => rfl⟩, ?_⟩
      simp only [Option.getD_some, List.forall_mem_cons]
      exact ⟨replacement _, ⟨atStop stop _, .insertion rfl⟩, nofun⟩
  · split
    · rename_i n stop
      refine ⟨List.pairwise_pair.2 ⟨.inl (Nat.zero_le n), fun _ => rfl⟩, ?_⟩
      simp only [List.forall_mem_cons]
      exact ⟨⟨atImports_insert_zero .., .insertion rfl⟩, ⟨atStop stop _, .insertion rfl⟩, nofun⟩
    · refine ⟨List.pairwise_singleton _ _, ?_⟩
      simp only [List.forall_mem_cons]
      exact ⟨⟨atImports_insert_zero .., .insertion rfl⟩, nofun⟩

end TaggedMarkup.Script

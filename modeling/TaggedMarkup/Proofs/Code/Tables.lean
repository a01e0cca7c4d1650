import Mathlib
import TaggedMarkup.Code.Tables
import TaggedMarkup.Proofs.FirstUse
import TaggedMarkup.Proofs.Text.Quoted

/-!
# Keys, numbers and names

Initializers are looked up by a text. Equal texts come from equal initializers only
(`Initializer.key_injective`), so a table holds every initializer once, in the order of first use
(`enter_eraseDups`). The declarations of a file have names of their own
(`Tables.nodup_declaredNames`), so a name has one declaration (`Tables.DeclaresOnce`).
-/

namespace TaggedMarkup.Template

open Text.Quoted (quote quote_append_inj)

/-! ## Keys -/

/-- A target is told by its factory. -/
lemma Target.factory_injective : Function.Injective Target.factory := by
  intro a b same
  cases a <;> cases b <;> first | rfl | (revert same; decide)

/-- A number is written in digits. -/
lemma isDigit_of_mem_toString {n : Nat} {c : Char} (mem : c ∈ (toString n).toList) :
    c.isDigit = true := by
  have digits : (toString n).toList = Nat.toDigits 10 n := Nat.toList_repr
  rw [digits] at mem
  exact Nat.isDigit_of_mem_toDigits (by decide) (by decide) mem

/-- A quoted text is no numeral. -/
lemma toString_ne_quote (n : Nat) (name : String) : toString n ≠ quote name := by
  intro same
  have mem : '\x22' ∈ (toString n).toList := by
    rw [same]
    simp [quote]
  exact absurd (isDigit_of_mem_toString mem) (by decide)

/-- An index is told by its code. -/
lemma Index.code_injective : Function.Injective Index.code := by
  intro a b same
  rcases a with n | name <;> rcases b with m | other
  · exact congrArg Index.child (Nat.repr_injective same)
  · exact absurd same (toString_ne_quote n other)
  · exact absurd same.symm (toString_ne_quote m name)
  · have chars : (quote name).toList ++ [] = (quote other).toList ++ [] :=
      congrArg (String.toList · ++ []) same
    exact congrArg Index.attribute (quote_append_inj chars).1

/-- The text that identifies an initializer does so. -/
lemma Initializer.key_injective : Function.Injective Initializer.key := by
  intro a b same
  have chars := congrArg String.toList same
  simp only [key, String.toList_append, List.append_assoc] at chars
  -- The quoted factory tells where it ends, so what follows is equal too.
  obtain ⟨factory, rest⟩ := quote_append_inj (List.append_cancel_left chars)
  have index := List.append_cancel_right (List.append_cancel_left rest)
  have target := Target.factory_injective factory
  have place := Index.code_injective (String.toList_injective index)
  cases a
  cases b
  simp_all

end TaggedMarkup.Template

namespace TaggedMarkup.Code

open Template (Binder Initializer)

/-! ## Tables of first uses -/

/-- A value entered into a table of first uses gets its place among them. -/
lemma enter_eraseDups {α κ : Type} [DecidableEq α] [DecidableEq κ] {key : α → κ}
    (inj : Function.Injective key) (x : α) (xs : List α) :
    enter key x xs.eraseDups = ((xs ++ [x]).eraseDups.idxOf x, (xs ++ [x]).eraseDups) := by
  have look : (xs.eraseDups.findIdx? fun y => key y == key x) = xs.eraseDups.idxOf? x := by
    rw [List.idxOf?]
    congr 1
    funext y
    rw [Bool.eq_iff_iff, beq_iff_eq, beq_iff_eq, inj.eq_iff]
  rw [enter, look, eraseDups_append_singleton]
  by_cases mem : x ∈ xs
  · have found : xs.eraseDups.idxOf? x = some (xs.eraseDups.idxOf x) := by
      rw [List.idxOf?, List.findIdx?_eq_some_iff_findIdx_eq]
      exact ⟨List.idxOf_lt_length_iff.2 (List.mem_eraseDups.2 mem), rfl⟩
    rw [found, if_pos mem]
  · have missing : xs.eraseDups.idxOf? x = none := by
      rw [List.idxOf?_eq_none_iff, List.mem_eraseDups]
      exact mem
    rw [missing, if_neg mem, List.idxOf_append_of_notMem]
    · simp
    · rwa [List.mem_eraseDups]

/-- A table holds what was given a number, in the order of first use and at its number. -/
structure Holds {α : Type} [DecidableEq α] (table : List α) (given : List (α × Nat)) : Prop where
  firstUses : table = (given.map Prod.fst).eraseDups
  getElem? : ∀ {a n}, (a, n) ∈ given → table[n]? = some a

namespace Holds

variable {α : Type} [DecidableEq α] {table : List α} {given : List (α × Nat)}

/-- A table holds what it has given out when a value is entered. -/
lemma enter (h : Holds table given) {κ : Type} [DecidableEq κ] {key : α → κ}
    (inj : Function.Injective key) (a : α) :
    Holds (enter key a table).2 (given ++ [(a, (enter key a table).1)]) := by
  have entry := enter_eraseDups inj a (given.map Prod.fst)
  rw [← h.firstUses] at entry
  rw [entry]
  constructor
  · rw [List.map_append]
    rfl
  · intro b n mem
    obtain old | new := List.mem_append.1 mem
    · rw [List.eraseDups_append, ← h.firstUses]
      have place := h.getElem? old
      rw [List.getElem?_append_left (List.getElem?_eq_some_iff.1 place).1, place]
    · obtain ⟨rfl, rfl⟩ := Prod.mk.inj (List.mem_singleton.1 new)
      apply List.getElem?_idxOf
      exact List.mem_eraseDups.2 (List.mem_append_right _ (List.mem_singleton_self b))

/-- Two numbers are equal just when they were given for equal values. -/
lemma number_eq_iff (h : Holds table given) {a b : α} {n m : Nat} (first : (a, n) ∈ given)
    (second : (b, m) ∈ given) : n = m ↔ a = b := by
  have atFirst := h.getElem? first
  have atSecond := h.getElem? second
  constructor
  · rintro rfl
    exact Option.some.inj (atFirst.symm.trans atSecond)
  · rintro rfl
    have apart : table.Nodup := h.firstUses ▸ nodup_eraseDups _
    have inside := (List.getElem?_eq_some_iff.1 atFirst).1
    exact (List.getElem?_inj inside apart).1 (atFirst.trans atSecond.symm)

end Holds

/-! ## Helpers by their names -/

/-- A helper is found by its name. -/
lemma Helper.ofName?_name (h : Helper) : ofName? h.name = some h := by
  cases h with
  | binder target => cases target <;> rfl
  | _ => rfl

/-- The factory of a binder is the name of the helper of its target, so it is that helper which is
noted. -/
lemma Tables.addBinder_eq (t : Tables) (b : Binder) :
    t.addBinder b =
      ((enter Initializer.key b.initializer t.initializers).1,
        { t with initializers := (enter Initializer.key b.initializer t.initializers).2 }.useHelper
          (.binder b.target)) := by
  have found : Helper.ofName? b.target.factory = some (.binder b.target) :=
    Helper.ofName?_name (.binder b.target)
  rw [addBinder, found]
  rfl

/-! ## Names of declarations -/

/-- The name that a declaration declares, which stands between its first two blanks. -/
def declaredName (declaration : String) : String :=
  String.ofList ((declaration.toList.drop 6).takeWhile (· != ' '))

namespace Tables

/-- A name is declared by one declaration of a file and by no other. -/
def DeclaresOnce (t : Tables) (name declaration : String) : Prop :=
  (t.declarations.filter fun d => declaredName d == name) = [declaration]

end Tables

/-- A declaration is read up to its name, for a name without blanks. -/
lemma declaredName_const {name : String} (noBlank : ' ' ∉ name.toList) (rest : String) :
    declaredName ("const " ++ name ++ (" " ++ rest)) = name := by
  have behind : ("const " ++ name ++ (" " ++ rest)).toList.drop 6 =
      name.toList ++ ' ' :: rest.toList := by
    simp
  have whole : ∀ c ∈ name.toList, (c != ' ') = true := by
    intro c mem
    exact bne_iff_ne.2 (fun blank => noBlank (blank ▸ mem))
  rw [declaredName, behind, List.takeWhile_append_of_pos whole,
    List.takeWhile_cons_of_neg (by decide), List.append_nil, String.ofList_toList]

/-- A numbered name has no blank if its stem has none. -/
lemma blank_notMem_numbered {stem : String} (noBlank : ' ' ∉ stem.toList) (i : Nat) :
    ' ' ∉ (stem ++ toString i).toList := by
  rw [String.toList_append, List.mem_append]
  rintro (mem | mem)
  · exact noBlank mem
  · exact absurd (Template.isDigit_of_mem_toString mem) (by decide)

namespace Tables

/-- The text of the declaration of a fragment. -/
lemma fragmentDeclaration_eq (html : String) (i : Nat) :
    fragmentDeclaration html i =
      "const __render" ++ toString i ++ " = renderer(makeFragment(`" ++ html ++ "`));" := by
  show "const __render" ++ toString i ++ " = " ++ "renderer" ++ "(" ++ "makeFragment" ++ "(`" ++
    html ++ "`));" = _
  rw [show " = renderer(makeFragment(`" = " = " ++ "renderer" ++ "(" ++ "makeFragment" ++ "(`"
    from rfl]
  simp only [String.append_assoc]

/-- The name that the declaration of a fragment gives it. -/
lemma declaredName_fragmentDeclaration (html : String) (i : Nat) :
    declaredName (fragmentDeclaration html i) = "__render" ++ toString i := by
  have parts : fragmentDeclaration html i = "const " ++ ("__render" ++ toString i) ++
      (" " ++ ("= renderer(makeFragment(`" ++ html ++ "`));")) := by
    rw [fragmentDeclaration_eq]
    apply String.toList_injective
    simp only [String.toList_append, List.append_assoc]
    rfl
  rw [parts]
  exact declaredName_const (blank_notMem_numbered (by decide) i) _

/-- The name that the declaration of an initializer gives it. -/
lemma declaredName_initializerDeclaration (initializer : Initializer) (i : Nat) :
    declaredName (initializerDeclaration initializer i) = "__bind" ++ toString i := by
  have parts : initializerDeclaration initializer i = "const " ++ ("__bind" ++ toString i) ++
      (" " ++ ("= " ++ initializer.code ++ ";")) := by
    show "const __bind" ++ toString i ++ " = " ++ initializer.code ++ ";" = _
    apply String.toList_injective
    simp only [String.toList_append, List.append_assoc]
    rfl
  rw [parts]
  exact declaredName_const (blank_notMem_numbered (by decide) i) _

/-- The names of a file are those of its fragments and of its initializers, by number. -/
lemma declaredNames_eq (t : Tables) :
    t.declarations.map declaredName =
      (List.range t.fragments.length).map ("__render" ++ toString ·) ++
        (List.range t.initializers.length).map ("__bind" ++ toString ·) := by
  have numbers {α : Type} {f : α × Nat → String} {g : Nat → String} (xs : List α)
      (same : ∀ x i, f (x, i) = g i) : xs.zipIdx.map f = (List.range xs.length).map g := by
    rw [List.range_eq_range', ← List.zipIdx_map_snd 0 xs, List.map_map]
    exact List.map_congr_left fun p _ => same p.1 p.2
  rw [declarations, List.map_append, List.map_map, List.map_map]
  refine congrArg₂ (· ++ ·) (numbers _ ?_) (numbers _ ?_)
  · intro html i
    exact declaredName_fragmentDeclaration html i
  · intro initializer i
    exact declaredName_initializerDeclaration initializer i

/-- No name is declared twice. -/
lemma nodup_declaredNames (t : Tables) : (t.declarations.map declaredName).Nodup := by
  rw [declaredNames_eq]
  have injective (stem : String) : Function.Injective fun i : Nat => stem ++ toString i := by
    intro i j same
    exact Nat.repr_injective (String.append_right_inj stem |>.1 same)
  refine List.nodup_append.2
    ⟨List.nodup_range.map (injective _), List.nodup_range.map (injective _), ?_⟩
  intro a render b bind same
  obtain ⟨i, -, rfl⟩ := List.mem_map.1 render
  obtain ⟨j, -, rfl⟩ := List.mem_map.1 bind
  have chars := congrArg String.toList same
  simp only [String.toList_append] at chars
  -- The stems differ in their third letter.
  have third : some 'r' = some 'b' := congrArg (fun cs => cs[2]?) chars
  exact absurd third (by decide)

/-- A declaration is the only one with its name. -/
lemma declaresOnce {t : Tables} {declaration : String} (mem : declaration ∈ t.declarations) :
    t.DeclaresOnce (declaredName declaration) declaration := by
  have apart := t.nodup_declaredNames
  unfold DeclaresOnce
  generalize t.declarations = ds at mem apart
  induction ds with
  | nil => exact absurd mem List.not_mem_nil
  | cons d ds ih =>
    obtain ⟨new, apart⟩ := List.nodup_cons.1 apart
    have others {x : String} (mem : x ∈ ds) : declaredName x ≠ declaredName d :=
      fun same => new (same ▸ List.mem_map_of_mem mem)
    obtain rfl | behind := List.mem_cons.1 mem
    · have none : (ds.filter fun d => declaredName d == declaredName declaration) = [] := by
        rw [List.filter_eq_nil_iff]
        intro x mem
        simpa using others mem
      simp [none]
    · have other : ¬(declaredName d == declaredName declaration) = true := by
        simpa using (others behind).symm
      rw [List.filter_cons, if_neg other, ih behind apart]

end Tables

end TaggedMarkup.Code

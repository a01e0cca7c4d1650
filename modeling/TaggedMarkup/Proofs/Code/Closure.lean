import Mathlib
import TaggedMarkup.Proofs.Code.Tables
import TaggedMarkup.Proofs.Code.Wiring

/-!
# Imported helpers

The helpers that a file imports are noted where binders are entered, and called where code is
printed. `callees` reads the calls off the printed code. Over any run of requests to the tables, the
imported names are exactly those that the requests need, in the order of import, and code calls no
other helper (`serve_imports`).
-/

namespace TaggedMarkup.Code

open Template (Binder Binding Index Initializer Target)

/-! ## Calls in printed code -/

/-- Whether a character can be part of the name of what is called. The name of a member has its dot
in front of it. -/
def isCalleeChar (c : Char) : Bool :=
  c.isAlphanum || c == '_' || c == '$' || c == '.' || 127 < c.toNat

/-- The names in front of opening parentheses, where `word` is what has been read of a name, from
its end. -/
def calleesFrom (word : List Char) : List Char → List String
  | [] => []
  | c :: cs =>
    if isCalleeChar c then calleesFrom (c :: word) cs
    else if c = '(' ∧ word ≠ [] then String.ofList word.reverse :: calleesFrom [] cs
    else calleesFrom [] cs

/-- The names of all that a piece of code calls. -/
def callees (code : String) : List String := calleesFrom [] code.toList

/-- Whether code starts with a character that ends a name, and that calls nothing. -/
def startsApart (code : String) : Bool :=
  code.toList.head?.any fun c => !isCalleeChar c && c != '('

/-- Whether code ends with a character that ends a name. -/
def endsApart (code : String) : Bool := code.toList.getLast?.any fun c => !isCalleeChar c

/-- A character that ends a name cuts code into two parts that are read on their own. -/
lemma calleesFrom_append {c : Char} (cut : isCalleeChar c = false) (word front behind : List Char) :
    calleesFrom word (front ++ c :: behind) =
      calleesFrom word (front ++ [c]) ++ calleesFrom [] behind := by
  induction front generalizing word with
  | nil =>
    simp only [List.nil_append, calleesFrom, cut, Bool.false_eq_true, if_false]
    split <;> rfl
  | cons d front ih =>
    simp only [List.cons_append, calleesFrom]
    split
    · exact ih _
    · split
      · rw [ih, List.cons_append]
      · exact ih _

/-- A name at the end of a piece of code is not called unless a parenthesis follows. -/
lemma calleesFrom_concat {c : Char} (cut : isCalleeChar c = false) (other : c ≠ '(')
    (word front : List Char) : calleesFrom word (front ++ [c]) = calleesFrom word front := by
  induction front generalizing word with
  | nil => simp [calleesFrom, cut, other]
  | cons d front ih => simp only [List.cons_append, calleesFrom, ih]

/-- A text calls what its halves do, if the first half ends apart from any name. -/
lemma callees_append_of_ends {a : String} (b : String) (cut : endsApart a = true) :
    callees (a ++ b) = callees a ++ callees b := by
  rw [endsApart] at cut
  cases last : a.toList.getLast? with
  | none => simp [last] at cut
  | some c =>
    rw [last, Option.any_some, Bool.not_eq_true'] at cut
    obtain ⟨front, split⟩ := List.getLast?_eq_some_iff.1 last
    rw [callees, callees, callees, String.toList_append, split, List.append_assoc,
      List.singleton_append, calleesFrom_append cut]

/-- A text calls what its halves do, if the second half starts apart from any name. -/
lemma callees_append_of_starts (a : String) {b : String} (cut : startsApart b = true) :
    callees (a ++ b) = callees a ++ callees b := by
  rw [startsApart] at cut
  rw [callees, callees, callees, String.toList_append]
  cases chars : b.toList with
  | nil => simp [chars] at cut
  | cons c cs =>
    simp only [chars, List.head?_cons, Option.any_some, Bool.and_eq_true, Bool.not_eq_true',
      bne_iff_ne] at cut
    rw [calleesFrom_append cut.1, calleesFrom_concat cut.1 cut.2]
    simp [calleesFrom, cut.1, cut.2]

/-- A text between two pieces of code is read on its own. -/
lemma callees_around (x : String) {left right : String} (text : String)
    (front : endsApart left = true) (behind : startsApart right = true) :
    callees (x ++ left ++ text ++ right) =
      callees (x ++ left) ++ callees text ++ callees right := by
  have front : endsApart (x ++ left) = true := by
    rw [endsApart] at front ⊢
    rw [String.toList_append, List.getLast?_append]
    cases last : left.toList.getLast? with
    | none => simp [last] at front
    | some c => simpa [last] using front
  rw [callees_append_of_starts _ behind, callees_append_of_ends _ front]

/-- A name in front of a parenthesis is called. -/
lemma callees_call {name : String} (nonempty : name ≠ "")
    (whole : ∀ c ∈ name.toList, isCalleeChar c = true) (rest : String) :
    callees (name ++ ("(" ++ rest)) = name :: callees rest := by
  have read (cs word : List Char) (whole : ∀ c ∈ cs, isCalleeChar c = true) (behind : List Char) :
      calleesFrom word (cs ++ behind) = calleesFrom (cs.reverse ++ word) behind := by
    induction cs generalizing word with
    | nil => rfl
    | cons c cs ih =>
      obtain ⟨here, whole⟩ := List.forall_mem_cons.1 whole
      rw [List.cons_append, calleesFrom, if_pos here, ih _ whole, List.reverse_cons,
        List.append_assoc, List.singleton_append]
  have called : name.toList.reverse ++ [] ≠ [] := by simpa using nonempty
  rw [callees, callees, String.toList_append, String.toList_append, read _ _ whole,
    show "(".toList = ['('] from rfl, List.singleton_append, calleesFrom, if_neg (by decide),
    if_pos ⟨rfl, called⟩, List.append_nil, List.reverse_reverse, String.ofList_toList]

/-- Code without a parenthesis calls nothing. -/
lemma callees_of_notMem {code : String} (noParen : '(' ∉ code.toList) : callees code = [] := by
  have read (cs word : List Char) (noParen : '(' ∉ cs) : calleesFrom word cs = [] := by
    induction cs generalizing word with
    | nil => rfl
    | cons c cs ih =>
      rw [List.mem_cons, not_or] at noParen
      rw [calleesFrom]
      split
      · exact ih _ noParen.2
      · rw [if_neg fun paren => noParen.1 paren.1.symm]
        exact ih _ noParen.2
  exact read _ _ noParen

/-- A numbered name is one name. -/
lemma isCalleeChar_numbered {stem : String} (whole : ∀ c ∈ stem.toList, isCalleeChar c = true)
    (n : Nat) : ∀ c ∈ (stem ++ toString n).toList, isCalleeChar c = true := by
  rw [String.toList_append, List.forall_mem_append]
  refine ⟨whole, fun c mem => ?_⟩
  have digit := Template.isDigit_of_mem_toString mem
  simp [isCalleeChar, Char.isAlphanum, digit]

/-- The name of a subscription is that of a callee. -/
lemma isCalleeChar_sub (i : Nat) : ∀ c ∈ (s!"__sub{i}").toList, isCalleeChar c = true := by
  have stem : ∀ c ∈ "__sub".toList, isCalleeChar c = true := by simp [isCalleeChar]
  exact isCalleeChar_numbered stem i

/-- A name has no parenthesis. -/
lemma paren_notMem {name : String} (whole : ∀ c ∈ name.toList, isCalleeChar c = true) :
    '(' ∉ name.toList :=
  fun mem => absurd (whole _ mem) (by simp [isCalleeChar])

/-- The declaration of a subscription calls nothing before its value. -/
lemma callees_sub (i : Nat) : callees ("const " ++ s!"__sub{i}") = [] := by
  apply callees_of_notMem
  rw [String.toList_append, List.mem_append, not_or]
  exact ⟨by decide, paren_notMem (isCalleeChar_sub i)⟩

/-- A call ends apart from any name. -/
lemma endsApart_bindCall (entry node : Nat) : endsApart (bindCall entry node) = true := by
  show endsApart ("__bind" ++ toString entry ++ "(__nodes[" ++ toString node ++ "])") = true
  rw [endsApart, String.toList_append, List.getLast?_append]
  rfl

/-- The call of an initializer calls it and nothing else. -/
lemma callees_bindCall (entry node : Nat) :
    callees (bindCall entry node) = ["__bind" ++ toString entry] := by
  have parts : bindCall entry node =
      ("__bind" ++ toString entry) ++ ("(" ++ ("__nodes[" ++ toString node ++ "])")) := by
    show "__bind" ++ toString entry ++ "(__nodes[" ++ toString node ++ "])" = _
    apply String.toList_injective
    simp only [String.toList_append, List.append_assoc]
    rfl
  have stem : ∀ c ∈ "__bind".toList, isCalleeChar c = true := by simp [isCalleeChar]
  have argument : '(' ∉ ("__nodes[" ++ toString node ++ "])").toList := by
    have number : '(' ∉ (toString node).toList := fun mem =>
      absurd (Template.isDigit_of_mem_toString mem) (by decide)
    simp only [String.toList_append, List.mem_append, not_or]
    exact ⟨⟨by decide, number⟩, by decide⟩
  rw [parts, callees_call (by simp) (isCalleeChar_numbered stem entry), callees_of_notMem argument]

/-! ## Calls of a binder -/

/-- The texts in the code of a binder that come from the script. -/
def scriptTexts (b : Binder) : List String := valueCode b :: b.observables

/-- Arguments call what each of them does. -/
lemma callees_intercalate (texts : List String) :
    callees (", ".intercalate texts) = texts.flatMap callees := by
  induction texts with
  | nil => rfl
  | cons text texts ih =>
    cases texts with
    | nil => simp
    | cons next texts =>
      rw [String.intercalate_cons_cons, List.flatMap_cons, ← ih, String.append_assoc]
      have comma : startsApart (", " ++ ", ".intercalate (next :: texts)) = true := by
        simp [startsApart, isCalleeChar]
      rw [callees_append_of_starts _ comma, callees_append_of_ends _ rfl]
      rfl

/-- The declaration of a subscription calls what stands behind its name. -/
lemma callees_declared (i : Nat) {code : String} (cut : startsApart code = true) :
    callees ("const " ++ s!"__sub{i}" ++ code) = callees code := by
  rw [callees_append_of_starts _ cut, callees_sub, List.nil_append]

/-- A projection calls its helper, and what its texts call. -/
lemma callees_projection (i : Nat) {helper between close name : String}
    (arguments value observer : String) (binding : Binding)
    (call : startsApart helper = true ∧ endsApart helper = true ∧ callees helper = [name])
    (apart : startsApart between = true ∧ endsApart between = true ∧ callees between = [])
    (apart' : startsApart close = true ∧ endsApart close = true ∧ callees close = []) :
    callees ("const " ++ s!"__sub{i}" ++ helper ++ arguments ++ between ++ arguments ++ close ++
        value ++ "), " ++ observer ++ onceArgument binding ++ ");") =
      name :: (callees arguments ++ callees arguments ++ callees value ++ callees observer) := by
  have last : startsApart (onceArgument binding ++ ");") = true ∧
      callees (onceArgument binding ++ ");") = [] := by
    unfold onceArgument
    split <;> exact ⟨rfl, rfl⟩
  rw [String.append_assoc, callees_around _ _ rfl last.1, callees_around _ _ apart'.2.1 rfl,
    callees_around _ _ apart.2.1 apart'.1, callees_around _ _ call.2.1 apart.1,
    callees_declared i call.1, call.2.2, last.2, apart.2.2, apart'.2.2,
    show callees "), " = [] from rfl]
  simp

/-- What the statement of a value calls. -/
lemma callees_valueStatement {b : Binder} {i : Nat} {observer statement : String}
    (ok : valueStatement b s!"__sub{i}" observer = .ok statement) :
    callees statement = match b.binding with
      | .value => callees (observer ++ "(") ++ callees (valueCode b)
      | .subscribe => callees (valueCode b) ++ (".subscribe" :: callees observer)
      | .first => "__first" :: (callees (valueCode b) ++ callees observer)
      | .map | .mapFirst => "__map" :: (b.observables.flatMap callees ++
          b.observables.flatMap callees ++ callees (valueCode b) ++ callees observer)
      | .combine | .combineFirst => "__combine" :: (b.observables.flatMap callees ++
          b.observables.flatMap callees ++ callees (valueCode b) ++ callees observer) := by
  have closed : callees ");" = [] := rfl
  unfold valueStatement at ok
  cases binding : b.binding <;> simp only [binding] at ok ⊢
  case value =>
    cases ok
    show callees (observer ++ "(" ++ valueCode b ++ ");") = _
    rw [callees_around _ _ rfl rfl, closed, List.append_nil]
  case subscribe =>
    cases ok
    show callees ("const " ++ s!"__sub{i}" ++ " = (" ++ valueCode b ++ ").subscribe(" ++ observer ++
      ");") = _
    rw [callees_around _ _ rfl rfl, callees_around _ _ rfl rfl, callees_declared i rfl, closed,
      show callees " = (" = [] from rfl, show callees ").subscribe(" = [".subscribe"] from rfl]
    simp
  case first =>
    cases ok
    show callees ("const " ++ s!"__sub{i}" ++ " = __first(" ++ valueCode b ++ ", " ++ observer ++
      ");") = _
    rw [callees_around _ _ rfl rfl, callees_around _ _ rfl rfl, callees_declared i rfl, closed,
      show callees " = __first(" = ["__first"] from rfl, show callees ", " = [] from rfl]
    simp
  case map | mapFirst =>
    split at ok
    · rename_i o one
      cases ok
      rw [one, List.flatMap_singleton]
      exact callees_projection i o (valueCode b) observer _ ⟨rfl, rfl, rfl⟩ ⟨rfl, rfl, rfl⟩
        ⟨rfl, rfl, rfl⟩
    · cases ok
  case combine | combineFirst =>
    split at ok
    · cases ok
      rw [← callees_intercalate]
      exact callees_projection i (", ".intercalate b.observables) (valueCode b) observer _
        ⟨rfl, rfl, rfl⟩ ⟨rfl, rfl, rfl⟩ ⟨rfl, rfl, rfl⟩
    · cases ok

/-- The statement of a value calls the helper of its binding. -/
lemma helper_mem_valueStatement {b : Binder} {i : Nat} {observer statement : String} {h : Helper}
    (ok : valueStatement b s!"__sub{i}" observer = .ok statement)
    (needs : Helper.ofBinding? b.binding = some h) : h.name ∈ callees statement := by
  rw [callees_valueStatement ok]
  cases binding : b.binding <;> rw [binding] at needs <;> cases needs <;> exact List.mem_cons_self

/-- The statement of a value calls no other helper, unless its texts or its observer do. -/
lemma mem_callees_valueStatement {b : Binder} {i : Nat} {observer statement n : String}
    (ok : valueStatement b s!"__sub{i}" observer = .ok statement) (mem : n ∈ callees statement) :
    (Helper.ofBinding? b.binding).map Helper.name = some n ∨
      (∃ text ∈ scriptTexts b, n ∈ callees text) ∨ n = ".subscribe" ∨
      n ∈ callees observer ++ callees (observer ++ "(") := by
  have ofValue (mem : n ∈ callees (valueCode b)) : ∃ text ∈ scriptTexts b, n ∈ callees text :=
    ⟨_, List.mem_cons_self, mem⟩
  have ofObservable (mem : n ∈ b.observables.flatMap callees) :
      ∃ text ∈ scriptTexts b, n ∈ callees text := by
    obtain ⟨text, isObservable, called⟩ := List.mem_flatMap.1 mem
    exact ⟨text, List.mem_cons_of_mem _ isObservable, called⟩
  rw [callees_valueStatement ok] at mem
  rw [List.mem_append]
  cases binding : b.binding <;> simp only [binding, List.mem_append, List.mem_cons] at mem
  case value =>
    obtain atCall | inValue := mem
    · exact .inr (.inr (.inr (.inr atCall)))
    · exact .inr (.inl (ofValue inValue))
  case subscribe =>
    obtain inValue | method | inObserver := mem
    · exact .inr (.inl (ofValue inValue))
    · exact .inr (.inr (.inl method))
    · exact .inr (.inr (.inr (.inl inObserver)))
  case first =>
    obtain rfl | inValue | inObserver := mem
    · exact .inl rfl
    · exact .inr (.inl (ofValue inValue))
    · exact .inr (.inr (.inr (.inl inObserver)))
  case map | mapFirst | combine | combineFirst =>
    obtain rfl | ((inObservable | inObservable) | inValue) | inObserver := mem
    · exact .inl rfl
    · exact .inr (.inl (ofObservable inObservable))
    · exact .inr (.inl (ofObservable inObservable))
    · exact .inr (.inl (ofValue inValue))
    · exact .inr (.inr (.inr (.inl inObserver)))

/-- Every helper is in the list of all helpers. -/
lemma Helper.mem_all (h : Helper) : h ∈ all := by
  cases h with
  | binder target => cases target <;> decide
  | _ => decide

/-- No two helpers in the list have the same name. -/
lemma Helper.nodup_names : (all.map name).Nodup := by decide

/-- A helper is told by its name. -/
lemma Helper.name_injective : Function.Injective Helper.name := fun a b same =>
  List.inj_on_of_nodup_map nodup_names a.mem_all b.mem_all same

/-- The functions that a file declares and the methods that it calls are no helpers. -/
lemma Helper.name_ne_own (h : Helper) (k : Nat) :
    h.name ≠ "__bind" ++ toString k ∧ h.name ≠ s!"__sub{k}" ++ "b.observer" ∧
      h.name ≠ ".subscribe" := by
  have stems : h.name.toList.take 6 ≠ "__bind".toList ∧ h.name.toList.take 5 ≠ "__sub".toList ∧
      h.name ≠ ".subscribe" := by
    cases h with
    | binder target => cases target <;> decide
    | _ => decide
  refine ⟨fun same => stems.1 ?_, fun same => stems.2.1 ?_, stems.2.2⟩
  · simp [same]
  · rw [same]
    show (("__sub" ++ toString k) ++ "b.observer").toList.take 5 = _
    simp

/-- The code of a binder hands its value to an observer, which calls only what the file declares,
in its last statement. In front of it there is at most the call that makes the observer. -/
lemma wire_observer {i entry : Nat} {b : Binder} {statements releases : List String}
    (ok : wire i entry b = .ok (statements, releases)) :
    ∃ own observer statement, statements = own ++ [statement] ∧
      valueStatement b s!"__sub{i}" observer = .ok statement ∧
      (∀ s ∈ own, callees s = ["__bind" ++ toString entry]) ∧
      ∀ n ∈ callees observer ++ callees (observer ++ "("),
        n = "__bind" ++ toString entry ∨ n = s!"__sub{i}" ++ "b.observer" := by
  cases place : b.node with
  | none =>
    rw [wire, place] at ok
    cases ok
  | some node =>
    by_cases block : b.target.isBlock = true
    · obtain ⟨_, eq⟩ : ∃ releases, wire i entry b = _ := wire_block place block
      rw [eq] at ok
      cases value : valueStatement b s!"__sub{i}" (s!"__sub{i}" ++ "b.observer") with
      | error fault =>
        rw [value] at ok
        cases ok
      | ok statement =>
        rw [value] at ok
        cases ok
        refine ⟨[_], _, statement, rfl, value, ?_, ?_⟩
        · intro s mem
          have made : callees ("const " ++ s!"__sub{i}" ++ "b = ") = [] := by
            apply callees_of_notMem
            rw [String.toList_append, List.mem_append, String.toList_append, List.mem_append]
            rintro ((mem | mem) | mem)
            · exact absurd mem (by decide)
            · exact paren_notMem (isCalleeChar_sub i) mem
            · exact absurd mem (by decide)
          rw [List.mem_singleton.1 mem, callees_around _ _ rfl rfl, callees_bindCall, made]
          rfl
        · intro n mem
          have member : ∀ c ∈ (s!"__sub{i}" ++ "b.observer").toList, isCalleeChar c = true := by
            rw [String.toList_append, List.forall_mem_append]
            exact ⟨isCalleeChar_sub i, by simp [isCalleeChar]⟩
          have call := callees_call (by simp) member ""
          rw [String.append_empty] at call
          rw [callees_of_notMem (paren_notMem member), call] at mem
          exact .inr (List.mem_singleton.1 mem)
    · rw [Bool.not_eq_true] at block
      obtain ⟨_, eq⟩ : ∃ releases, wire i entry b = _ := wire_plain place block
      rw [eq] at ok
      cases value : valueStatement b s!"__sub{i}" (bindCall entry node) with
      | error fault =>
        rw [value] at ok
        cases ok
      | ok statement =>
        rw [value] at ok
        cases ok
        refine ⟨[], _, statement, rfl, value, by simp, ?_⟩
        intro n mem
        rw [callees_append_of_ends _ (endsApart_bindCall entry node), callees_bindCall] at mem
        left
        simpa [callees, calleesFrom, isCalleeChar] using mem

/-- The code of a binder calls the helper of its binding. -/
lemma helper_mem_wire {i entry : Nat} {b : Binder} {statements releases : List String} {h : Helper}
    (ok : wire i entry b = .ok (statements, releases))
    (needs : Helper.ofBinding? b.binding = some h) : ∃ s ∈ statements, h.name ∈ callees s := by
  obtain ⟨own, observer, statement, rfl, value, -, -⟩ := wire_observer ok
  exact ⟨statement, by simp, helper_mem_valueStatement value needs⟩

/-- The code of a binder calls no other helper, unless its texts do. -/
lemma mem_callees_wire {i entry : Nat} {b : Binder} {statements releases : List String} {h : Helper}
    {s : String} (ok : wire i entry b = .ok (statements, releases)) (mem : s ∈ statements)
    (called : h.name ∈ callees s) :
    Helper.ofBinding? b.binding = some h ∨ ∃ text ∈ scriptTexts b, h.name ∈ callees text := by
  obtain ⟨own, observer, statement, rfl, value, makes, observes⟩ := wire_observer ok
  obtain ⟨notBind, -, notMethod⟩ := h.name_ne_own entry
  obtain inOwn | last := List.mem_append.1 mem
  · rw [makes s inOwn, List.mem_singleton] at called
    exact absurd called notBind
  · rw [List.mem_singleton.1 last] at called
    obtain helper | text | method | inObserver := mem_callees_valueStatement value called
    · obtain ⟨h', needs, same⟩ := Option.map_eq_some_iff.1 helper
      exact .inl (Helper.name_injective same ▸ needs)
    · exact .inr text
    · exact absurd method notMethod
    · obtain bind | member := observes _ inObserver
      · exact absurd bind notBind
      · exact absurd member (h.name_ne_own i).2.1

/-! ## Requests -/

/-- What a file asks of its tables: the number of a fragment or of the initializer of a binder, to
note a way of binding, or the code of binders. -/
inductive Request where
  | fragment (html : String)
  | binder (b : Binder)
  | binding (binding : Binding)
  | code (fragment : Nat) (binders : List Binder)

/-- The binders up to the first that has no node. -/
def tried : List Binder → List Binder
  | [] => []
  | b :: bs => if b.node.isSome then b :: tried bs else [b]

namespace Request

/-- The binders that a request enters. Code is written for them one by one, as far as possible. -/
def binders : Request → List Binder
  | .binder b => [b]
  | .code _ bs => tried bs
  | .fragment _ | .binding _ => []

/-- The ways of binding that a request notes. -/
def bindings : Request → List Binding
  | .binding way => [way]
  | .code _ bs => (tried bs).map Binder.binding
  | .fragment _ | .binder _ => []

/-- Whether a request notes ways of binding and gets no code for them. -/
def isUnwritten : Request → Bool
  | .binding _ => true
  | .code _ bs => bs.any (·.node.isNone)
  | .fragment _ | .binder _ => false

end Request

namespace Tables

/-- Serves a request. Code is given out with its binders. -/
def serve (t : Tables) : Request → Tables × List (List Binder × RenderCode)
  | .fragment html => ((t.addFragment html).2, [])
  | .binder b => ((t.addBinder b).2, [])
  | .binding binding => (t.useBinding binding, [])
  | .code fragment bs =>
    match generate t fragment bs with
    | (t, .error _) => (t, [])
    | (t, .ok (_, code)) => (t, [(bs, code)])

/-- Serves requests one after another. -/
def serveAll (t : Tables) : List Request → Tables × List (List Binder × RenderCode)
  | [] => (t, [])
  | r :: rs => (((t.serve r).1.serveAll rs).1, (t.serve r).2 ++ ((t.serve r).1.serveAll rs).2)

end Tables

/-- Whether requests need a helper: fragments always need theirs, every binder that is entered needs
the factory of its target, and every way of binding that is noted needs its own helper. -/
def Needs (rs : List Request) : Helper → Prop
  | .renderer | .makeFragment => True
  | .binder target => ∃ b ∈ rs.flatMap Request.binders, b.target = target
  | h => ∃ binding ∈ rs.flatMap Request.bindings, Helper.ofBinding? binding = some h

/-! ## What requests leave in the tables -/

/-- To enter a value adds it to a table and nothing else. -/
lemma mem_enter {α κ : Type} [DecidableEq κ] {key : α → κ} (inj : Function.Injective key)
    {a x : α} {table : List α} : x ∈ (enter key a table).2 ↔ x ∈ table ∨ x = a := by
  rw [enter]
  split
  · rename_i i found
    obtain ⟨inside, same, -⟩ := List.findIdx?_eq_some_iff_getElem.1 found
    have here : a ∈ table := inj (eq_of_beq same) ▸ List.getElem_mem inside
    constructor
    · exact .inl
    · rintro (mem | rfl)
      · exact mem
      · exact here
  · rw [List.mem_append, List.mem_singleton]

namespace Tables

variable {t : Tables}

/-- The helpers that are used after one more use. -/
lemma mem_used_useHelper {h helper : Helper} :
    h ∈ (t.useHelper helper).used ↔ h ∈ t.used ∨ h = helper :=
  mem_enter Function.injective_id

/-- The helpers that are used after the use of a binding. -/
lemma mem_used_useBinding {h : Helper} {binding : Binding} :
    h ∈ (t.useBinding binding).used ↔ h ∈ t.used ∨ Helper.ofBinding? binding = some h := by
  rw [useBinding]
  cases Helper.ofBinding? binding with
  | some helper => rw [useIfAny, mem_used_useHelper, Option.some_inj, eq_comm]
  | none => simp [useIfAny]

/-- The helpers that are used after a binder is added. -/
lemma mem_used_addBinder {h : Helper} {b : Binder} :
    h ∈ (t.addBinder b).2.used ↔ h ∈ t.used ∨ h = .binder b.target := by
  rw [addBinder_eq]
  exact mem_used_useHelper

/-- The initializers after a binder is added. -/
lemma mem_initializers_addBinder {x : Initializer} {b : Binder} :
    x ∈ (t.addBinder b).2.initializers ↔ x ∈ t.initializers ∨ x = b.initializer := by
  rw [addBinder_eq]
  exact mem_enter Initializer.key_injective

/-- The use of a binding adds no initializer. -/
lemma initializers_useBinding (t : Tables) (binding : Binding) :
    (t.useBinding binding).initializers = t.initializers := by
  rw [useBinding]
  cases Helper.ofBinding? binding <;> rfl

/-- Tables before and after they have been used for binders and ways of binding: the helpers of
these are noted, and the initializers of the binders are entered. -/
structure Grows (t t' : Tables) (binders : List Binder) (bindings : List Binding) : Prop where
  used : ∀ h, h ∈ t'.used ↔ h ∈ t.used ∨ (∃ b ∈ binders, h = .binder b.target) ∨
    ∃ binding ∈ bindings, Helper.ofBinding? binding = some h
  initializers : ∀ x, x ∈ t'.initializers ↔ x ∈ t.initializers ∨ ∃ b ∈ binders, x = b.initializer

namespace Grows

/-- Tables that stay the same grow by nothing. -/
lemma refl (t : Tables) : Grows t t [] [] := ⟨by simp, by simp⟩

/-- Tables grow step by step. -/
lemma trans {t t' t'' : Tables} {binders binders' : List Binder} {bindings bindings' : List Binding}
    (first : Grows t t' binders bindings) (second : Grows t' t'' binders' bindings') :
    Grows t t'' (binders ++ binders') (bindings ++ bindings') where
  used h := by
    simp only [second.used, first.used, List.mem_append, or_and_right, exists_or, or_assoc]
    rw [or_left_comm (a := ∃ binding ∈ bindings, _)]
  initializers x := by
    simp only [second.initializers, first.initializers, List.mem_append, or_and_right, exists_or,
      or_assoc]

/-- Tables grow by a binder that is added. -/
lemma addBinder (t : Tables) (b : Binder) : Grows t (t.addBinder b).2 [b] [] where
  used h := by simp [mem_used_addBinder]
  initializers x := by simp [mem_initializers_addBinder]

/-- Tables grow by a binding that is used. -/
lemma useBinding (t : Tables) (binding : Binding) :
    Grows t (t.useBinding binding) [] [binding] where
  used h := by simp [mem_used_useBinding]
  initializers x := by simp [initializers_useBinding]

/-- Tables grow by binders that are registered, with their bindings. -/
lemma registerAll (t : Tables) (bs : List Binder) :
    Grows t (registerAll t bs).1 bs (bs.map Binder.binding) := by
  induction bs generalizing t with
  | nil => exact refl t
  | cons b bs ih =>
    have first := (addBinder t b).trans (useBinding (t.addBinder b).2 b.binding)
    exact first.trans (ih (register t b).2)

end Grows

/-- Code is tried for binders up to the first without a node. -/
lemma entered_eq_tried (i : Nat) (bs : List Binder) : entered i bs = tried bs := by
  induction bs generalizing i with
  | nil => rfl
  | cons b bs ih =>
    have works := wire_ok_iff i 0 b
    rw [entered, tried]
    cases code : wire i 0 b with
    | error fault =>
      have noNode : ¬b.node.isSome = true := by simpa [code] using works
      rw [if_neg noNode]
    | ok code' =>
      have node : b.node.isSome = true := works.1 ⟨code', code⟩
      rw [if_pos node, ih]

/-- One request. -/
lemma Grows.serve (t : Tables) (r : Request) : Grows t (t.serve r).1 r.binders r.bindings := by
  cases r with
  | fragment html => exact ⟨(Grows.refl t).used, (Grows.refl t).initializers⟩
  | binder b => exact .addBinder t b
  | binding way => exact .useBinding t way
  | code fragment bs =>
    have same : (t.serve (.code fragment bs)).1 = (Code.registerAll t (tried bs)).1 := by
      rw [Tables.serve, ← entered_eq_tried 0, ← fst_wireAll, generate_eq]
      cases (wireAll t 0 bs).2 <;> rfl
    rw [same]
    exact .registerAll t (tried bs)

/-- All requests. -/
lemma Grows.serveAll (t : Tables) (rs : List Request) :
    Grows t (t.serveAll rs).1 (rs.flatMap Request.binders) (rs.flatMap Request.bindings) := by
  induction rs generalizing t with
  | nil => exact refl t
  | cons r rs ih => exact (Grows.serve t r).trans (ih (t.serve r).1)

end Tables

/-- The helpers that are noted are those that the requests need. -/
lemma mem_used_serveAll (rs : List Request) (h : Helper) :
    h ∈ (({} : Tables).serveAll rs).1.used ↔ Needs rs h := by
  have noFactory (binding : Binding) (target : Target) :
      Helper.ofBinding? binding ≠ some (.binder target) := by
    cases binding <;> simp [Helper.ofBinding?]
  rw [(Tables.Grows.serveAll {} rs).used]
  cases h with
  | renderer | makeFragment => simp [Needs]
  | binder target => simp only [Needs, noFactory]; simp [eq_comm]
  | first | map | combine => simp [Needs]

/-- The imported names are those of the helpers that are used. -/
lemma mem_importNames_iff {t : Tables} {n : String} :
    n ∈ t.importNames ↔ ∃ h ∈ t.used, h.name = n := by
  simp [Tables.importNames, Helper.names, Helper.mem_all]

/-- Helpers are imported in one fixed order. -/
lemma Tables.sublist_importNames (t : Tables) :
    t.importNames.Sublist (Helper.all.map Helper.name) := List.filter_sublist.map _

/-- No name is imported twice. -/
lemma Tables.nodup_importNames (t : Tables) : t.importNames.Nodup :=
  t.sublist_importNames.nodup Helper.nodup_names

/-! ## Calls of declarations and of code -/

/-- The name in a declaration is not called. -/
lemma callees_const {stem : String} (whole : ∀ c ∈ stem.toList, isCalleeChar c = true) (n : Nat) :
    callees ("const " ++ (stem ++ toString n)) = [] := by
  apply callees_of_notMem
  rw [String.toList_append, List.mem_append, not_or]
  exact ⟨by decide, paren_notMem (isCalleeChar_numbered whole n)⟩

/-- What the declaration of a fragment calls. -/
lemma callees_fragmentDeclaration (html : String) (i : Nat) :
    callees (Tables.fragmentDeclaration html i) = "renderer" :: "makeFragment" :: callees html := by
  have stem : ∀ c ∈ "__render".toList, isCalleeChar c = true := by simp [isCalleeChar]
  have parts : Tables.fragmentDeclaration html i =
      "const " ++ ("__render" ++ toString i) ++ " = renderer(makeFragment(`" ++ html ++ "`));" := by
    rw [Tables.fragmentDeclaration_eq, show "const __render" = "const " ++ "__render" from rfl]
    simp only [String.append_assoc]
  rw [parts, callees_around _ _ rfl rfl, callees_append_of_starts _ rfl, callees_const stem]
  show ["renderer", "makeFragment"] ++ callees html ++ [] = _
  simp

/-- What the declaration of an initializer calls. -/
lemma callees_initializerDeclaration (initializer : Initializer) (i : Nat) :
    callees (Tables.initializerDeclaration initializer i) =
      initializer.target.factory :: callees initializer.index.code := by
  have stem : ∀ c ∈ "__bind".toList, isCalleeChar c = true := by simp [isCalleeChar]
  have parts : Tables.initializerDeclaration initializer i = "const " ++ ("__bind" ++ toString i) ++
      " = " ++ (initializer.target.factory ++ ("(" ++ initializer.index.code)) ++ ");" := by
    show "const __bind" ++ toString i ++ " = " ++
      (initializer.target.factory ++ "(" ++ initializer.index.code ++ ")") ++ ";" = _
    rw [show "const __bind" = "const " ++ "__bind" from rfl,
      show ");" = ")" ++ ";" from rfl]
    simp only [String.append_assoc]
  have factory : initializer.target.factory ≠ "" ∧
      ∀ c ∈ initializer.target.factory.toList, isCalleeChar c = true := by
    cases initializer.target <;> simp [Target.factory, isCalleeChar]
  rw [parts, callees_around _ _ rfl rfl, callees_append_of_starts _ rfl, callees_const stem,
    callees_call factory.1 factory.2]
  show [] ++ (initializer.target.factory :: callees initializer.index.code) ++ [] = _
  simp

/-- Binders that have all been wired have their statements, each binder its own. -/
lemma wireAll_statements {t : Tables} {i : Nat} {bs : List Binder} {w : Wiring}
    (ok : (wireAll t i bs).2 = .ok w) :
    tried bs = bs ∧
      (∀ b ∈ bs, ∃ j entry code, wire j entry b = .ok code ∧ code.1 ⊆ w.statements) ∧
      ∀ s ∈ w.statements, ∃ b ∈ bs, ∃ j entry code, wire j entry b = .ok code ∧ s ∈ code.1 := by
  induction bs generalizing t i w with
  | nil =>
    cases ok
    exact ⟨rfl, by simp, by simp⟩
  | cons b bs ih =>
    obtain ⟨code, rest, own, tail, rfl⟩ := wireAll_cons_inv ok
    obtain ⟨all, given, taken⟩ := ih tail
    have node := (wire_ok_iff _ _ _).1 ⟨code, own⟩
    refine ⟨by rw [tried, if_pos node, all], ?_, ?_⟩
    · intro b' mem
      obtain rfl | mem := List.mem_cons.1 mem
      · exact ⟨_, _, code, own, List.subset_append_left _ _⟩
      · obtain ⟨j, entry, code', wired, inside⟩ := given b' mem
        exact ⟨j, entry, code', wired, List.subset_append_of_subset_right _ inside⟩
    · intro s mem
      obtain mem | mem := List.mem_append.1 mem
      · exact ⟨b, List.mem_cons_self, _, _, code, own, mem⟩
      · obtain ⟨b', mem', wired⟩ := taken s mem
        exact ⟨b', List.mem_cons_of_mem _ mem', wired⟩

/-- Binders that have nodes are all wired. -/
lemma wireAll_ok {t : Tables} {i : Nat} {bs : List Binder}
    (nodes : ∀ b ∈ bs, b.node.isSome = true) : ∃ w, (wireAll t i bs).2 = .ok w := by
  induction bs generalizing t i with
  | nil => exact ⟨_, rfl⟩
  | cons b bs ih =>
    obtain ⟨here, nodes⟩ := List.forall_mem_cons.1 nodes
    obtain ⟨code, own⟩ := (wire_ok_iff i (register t b).1 b).2 here
    obtain ⟨w, rest⟩ := ih nodes
    rw [wireAll_cons_ok own, rest]
    exact ⟨_, rfl⟩

/-- Code that is given out was written for all binders of a request, and renders its fragment before
they are wired. -/
lemma mem_serveAll {t : Tables} {rs : List Request} {bs : List Binder} {code : RenderCode}
    (mem : (bs, code) ∈ (t.serveAll rs).2) :
    ∃ fragment, .code fragment bs ∈ rs ∧ ∃ t' w, (wireAll t' 0 bs).2 = .ok w ∧
      code.statements = s!"const __nodes = __render{fragment}();" :: w.statements := by
  induction rs generalizing t with
  | nil => cases mem
  | cons r rs ih =>
    obtain here | later := List.mem_append.1 mem
    · cases r with
      | fragment html | binder b | binding way => cases here
      | code fragment bs' =>
        rw [Tables.serve, generate] at here
        cases wired : wireAll t 0 bs' with
        | mk t' outcome =>
          rw [wired] at here
          cases outcome with
          | error fault => cases here
          | ok w =>
            obtain ⟨rfl, rfl⟩ := Prod.mk.inj (List.mem_singleton.1 here)
            exact ⟨fragment, List.mem_cons_self, t, w, congrArg Prod.snd wired, rfl⟩
    · obtain ⟨fragment, asked, wired⟩ := ih later
      exact ⟨fragment, List.mem_cons_of_mem _ asked, wired⟩

/-- Code is given out for all binders that have nodes. -/
lemma exists_mem_serveAll {t : Tables} {rs : List Request} {fragment : Nat} {bs : List Binder}
    (asked : .code fragment bs ∈ rs) (nodes : ∀ b ∈ bs, b.node.isSome = true) :
    ∃ code, (bs, code) ∈ (t.serveAll rs).2 := by
  induction rs generalizing t with
  | nil => cases asked
  | cons r rs ih =>
    obtain rfl | later := List.mem_cons.1 asked
    · have here : ∃ code, (t.serve (.code fragment bs)).2 = [(bs, code)] := by
        obtain ⟨w, wired⟩ := wireAll_ok (t := t) (i := 0) nodes
        rw [Tables.serve, generate_eq, wired]
        exact ⟨_, rfl⟩
      obtain ⟨code, here⟩ := here
      refine ⟨code, List.mem_append_left _ ?_⟩
      rw [here]
      exact List.mem_singleton_self _
    · obtain ⟨code, given⟩ := ih later
      exact ⟨code, List.mem_append_right _ given⟩

/-! ## Imports over a run -/

/-- A declaration calls no helper that is not imported, unless its text does. -/
lemma mem_importNames_of_declaration {rs : List Request} {d : String} {h : Helper}
    (declared : d ∈ (({} : Tables).serveAll rs).1.declarations) (called : h.name ∈ callees d) :
    h.name ∈ (({} : Tables).serveAll rs).1.importNames ∨
      (∃ html ∈ (({} : Tables).serveAll rs).1.fragments, h.name ∈ callees html) ∨
      ∃ x ∈ (({} : Tables).serveAll rs).1.initializers, h.name ∈ callees x.index.code := by
  have imported (needs : Needs rs h) : h.name ∈ (({} : Tables).serveAll rs).1.importNames :=
    mem_importNames_iff.2 ⟨h, (mem_used_serveAll rs h).2 needs, rfl⟩
  rw [Tables.declarations, List.mem_append, List.mem_map, List.mem_map] at declared
  obtain ⟨⟨html, i⟩, mem, rfl⟩ | ⟨⟨x, i⟩, mem, rfl⟩ := declared
  · have entered := (List.mem_zipIdx' mem).2 ▸ List.getElem_mem _
    rw [callees_fragmentDeclaration, List.mem_cons, List.mem_cons] at called
    obtain (same : h.name = Helper.renderer.name) | (same : h.name = Helper.makeFragment.name) |
      inHtml := called
    · exact .inl (imported (Helper.name_injective same ▸ trivial))
    · exact .inl (imported (Helper.name_injective same ▸ trivial))
    · exact .inr (.inl ⟨html, entered, inHtml⟩)
  · have entered := (List.mem_zipIdx' mem).2 ▸ List.getElem_mem _
    rw [callees_initializerDeclaration, List.mem_cons] at called
    obtain (same : h.name = (Helper.binder x.target).name) | inIndex := called
    · obtain ⟨b, asked, rfl⟩ : ∃ b ∈ rs.flatMap Request.binders, x = b.initializer := by
        simpa using ((Tables.Grows.serveAll {} rs).initializers x).1 entered
      left
      apply imported
      rw [Helper.name_injective same]
      exact ⟨b, asked, rfl⟩
    · exact .inr (.inr ⟨x, entered, inIndex⟩)

/-- The call of a fragment calls no helper. -/
lemma Helper.notMem_callees_render (h : Helper) (fragment : Nat) :
    h.name ∉ callees s!"const __nodes = __render{fragment}();" := by
  have stem : ∀ c ∈ "__render".toList, isCalleeChar c = true := by simp [isCalleeChar]
  have parts : s!"const __nodes = __render{fragment}();" =
      "const __nodes = " ++ ("__render" ++ toString fragment ++ ("(" ++ ");")) := by
    show "const __nodes = __render" ++ toString fragment ++ "();" = _
    rw [show "const __nodes = __render" = "const __nodes = " ++ "__render" from rfl,
      show "();" = "(" ++ ");" from rfl]
    simp only [String.append_assoc]
  rw [parts, callees_append_of_ends _ rfl,
    callees_call (by simp) (isCalleeChar_numbered stem fragment)]
  have other : h.name.toList.take 8 ≠ "__render".toList := by
    cases h with
    | binder target => cases target <;> decide
    | _ => decide
  intro mem
  obtain same : h.name = "__render" ++ toString fragment := by
    simpa [callees, calleesFrom, isCalleeChar] using mem
  exact other (by simp [same])

/-- Code calls no helper that is not imported, unless the texts of its binders do. -/
lemma mem_importNames_of_code {rs : List Request} {bs : List Binder} {code : RenderCode}
    {s : String} {h : Helper} (given : (bs, code) ∈ (({} : Tables).serveAll rs).2)
    (mem : s ∈ code.statements) (called : h.name ∈ callees s) :
    h.name ∈ (({} : Tables).serveAll rs).1.importNames ∨
      ∃ b ∈ bs, ∃ text ∈ scriptTexts b, h.name ∈ callees text := by
  obtain ⟨fragment, asked, t', w, wired, statements⟩ := mem_serveAll given
  obtain ⟨all, -, taken⟩ := wireAll_statements wired
  rw [statements] at mem
  obtain rfl | mem := List.mem_cons.1 mem
  · exact absurd called (h.notMem_callees_render fragment)
  · obtain ⟨b, isBinder, i, entry, code', own, mem⟩ := taken s mem
    obtain needs | text := mem_callees_wire own mem called
    · left
      refine mem_importNames_iff.2 ⟨h, ?_, rfl⟩
      rw [(Tables.Grows.serveAll {} rs).used]
      refine .inr (.inr ⟨b.binding, List.mem_flatMap.2 ⟨_, asked, ?_⟩, needs⟩)
      rw [Request.bindings, all]
      exact List.mem_map_of_mem isBinder
    · exact .inr ⟨b, isBinder, text⟩

/-- A helper that was noted for a way of binding is called in code, unless no code was written. -/
lemma called_of_binding {t : Tables} {rs : List Request} {r : Request} {binding : Binding}
    {h : Helper} (asked : r ∈ rs) (noted : binding ∈ r.bindings)
    (needs : Helper.ofBinding? binding = some h) :
    (∃ c ∈ (t.serveAll rs).2, ∃ s ∈ c.2.statements, h.name ∈ callees s) ∨ r.isUnwritten = true := by
  cases r with
  | fragment html | binder b => cases noted
  | binding way => exact .inr rfl
  | code fragment bs =>
    by_cases unwritten : (Request.code fragment bs).isUnwritten = true
    · exact .inr unwritten
    · left
      have nodes : ∀ b ∈ bs, b.node.isSome = true := by
        simpa [Request.isUnwritten, Option.isSome_iff_ne_none] using unwritten
      obtain ⟨code, given⟩ := exists_mem_serveAll (t := t) asked nodes
      obtain ⟨_, -, t', w, wired, statements⟩ := mem_serveAll given
      obtain ⟨all, own, -⟩ := wireAll_statements wired
      rw [Request.bindings, all] at noted
      obtain ⟨b, isBinder, rfl⟩ := List.mem_map.1 noted
      obtain ⟨i, entry, code', wire, inside⟩ := own b isBinder
      obtain ⟨s, mem, called⟩ := helper_mem_wire wire needs
      refine ⟨_, given, s, ?_, called⟩
      rw [statements]
      exact List.mem_cons_of_mem _ (inside mem)

end TaggedMarkup.Code

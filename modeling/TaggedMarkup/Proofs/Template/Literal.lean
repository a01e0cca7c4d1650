import Mathlib
import TaggedMarkup.Proofs.Code.Tables
import TaggedMarkup.Proofs.Markup.Scanned
import TaggedMarkup.Proofs.Script.Literal
import TaggedMarkup.Proofs.Template.ReadBack

/-!
# Markup in a literal

The markup of a template is declared between backticks. Its parts come from the chunks of the
template, which are raw text, and so are the parts, but they are put together anew. Every part that
is put into the markup stands between ordinary characters, so it is scanned on its own. Only texts
may stand beside each other, where the end tag of a void element was dropped between them. So the
markup of raw chunks is raw just if such texts are raw together, and then it is read back from the
declaration (`parse_literal`).
-/

namespace TaggedMarkup.Template

open Markup (Event IsRaw IsScanned IsUnbroken Lexer Scan isOrdinary isVoid oddBackslashes scanBlock
  scanSigil)

/-! ## Items of raw chunks -/

/-- Whether the parts of an item can be scanned. -/
def Item.IsScanned (returns : Bool) : Item → Prop
  | .event e => e.IsScanned returns
  | .hole (.attributeValue name) _ => Markup.IsScanned returns name
  | .hole _ _ => True

/-- The text at the end behind one more item, where `last` is that in front of it. -/
def Item.trailing (last : Option String) : Item → Option String
  | .event (.text s) => some s
  | .event .finish => last
  | _ => none

/-- The text behind which nothing but the end of the input stands. -/
def trailingText (is : List Item) : Option String := is.foldl Item.trailing none

/-- A hole stands behind all text in front of it. -/
lemma trailingText_append_hole (is js : List Item) (place : Markup.Place) (h : Hole) :
    trailingText (is ++ .hole place h :: js) = trailingText js := by
  rw [trailingText, List.foldl_append]
  rfl

/-- Only the text behind the last event that separates texts trails. -/
lemma trailingText_event_append {es fs : List Event}
    (separates : ∀ front e, es = front ++ [e] → e.separates = true) :
    trailingText ((es ++ fs).map .event) = trailingText (fs.map .event) := by
  rw [List.map_append, trailingText, List.foldl_append]
  rcases List.eq_nil_or_concat' es with rfl | ⟨front, e, rfl⟩
  · rfl
  · have none (last : Option String) : Item.trailing last (.event e) = none := by
      have apart := separates front e rfl
      cases e with
      | text s | finish => cases apart
      | _ => rfl
    rw [List.map_append, List.foldl_append, List.map_singleton, List.foldl_cons, none]
    rfl

/-- A text at the end is the one that trails. -/
lemma eq_of_trailingText_textEvents {text s : String}
    (trailing : trailingText ((Markup.textEvents text ++ [Event.finish]).map .event) = some s) :
    s = text := by
  unfold Markup.textEvents at trailing
  split at trailing
  · cases trailing
  · cases trailing
    rfl

/-- Scanned events are scanned items. -/
lemma isScanned_map_event {returns : Bool} {es : List Event}
    (scanned : ∀ e ∈ es, e.IsScanned returns) : ∀ i ∈ es.map Item.event, i.IsScanned returns := by
  intro i mem
  obtain ⟨e, here, rfl⟩ := List.mem_map.1 mem
  exact scanned e here

/-- A hole at the place of a lexer that scans is scanned. -/
lemma isScanned_hole {returns : Bool} {l : Lexer} {σ : Scan} (scans : l.Scans returns σ)
    (h : Hole) : (Item.hole l.place h).IsScanned returns := by
  cases place : l.place with
  | attributeValue name =>
    obtain ⟨rfl, -⟩ := Lexer.mode_of_place_attributeValue place
    exact scans.parts.name
  | _ => trivial

/-- What raw chunks hold is scanned, and the text at their end is raw. -/
structure ScannedItems (returns : Bool) (is : List Item) : Prop where
  all : ∀ i ∈ is, i.IsScanned returns
  last : ∀ s, trailingText is = some s → Scan.Reads returns s.toList

/-- The items of a template whose chunks can be read in a literal are scanned. -/
lemma Parser.run_scans {returns : Bool} {p p' : Parser} {slot : Nat} {chunk : String}
    {rest : List (Expression × String)} {f : Fragment} (scans : p.lexer.Scans returns .plain)
    (first : Scan.Reads returns chunk.toList) (others : ∀ q ∈ rest, Scan.Reads returns q.2.toList)
    (ran : p.run slot chunk rest = .ok p') (ended : p'.finish = .ok f) :
    ScannedItems returns (itemsFrom p.lexer slot chunk rest) := by
  induction rest generalizing p slot chunk with
  | nil =>
    obtain ⟨σ, read, ends⟩ := first
    simp only [run] at ran
    split at ran
    · cases ran
    · rename_i q written
      cases ran
      obtain ⟨-, fault, lexer⟩ := take_ok written
      simp only [finish] at ended
      split at ended
      · cases ended
      · rename_i last finished
        obtain ⟨-, fault', -⟩ := take_ok finished
        rw [lexer] at fault'
        have done := Lexer.write_scans scans read fault
        obtain ⟨inText, text, events, reads⟩ := Lexer.finish_scans done.lexer ends fault'
        have whole : itemsFrom p.lexer slot chunk [] =
            ((p.lexer.write chunk).events ++
              (Markup.textEvents text ++ [Event.finish])).map .event := by
          rw [itemsFrom, Markup.Outcome.andThen_of_none fault, ← events]
          rfl
        rw [whole]
        refine ⟨isScanned_map_event fun e mem => ?_, fun s trailing => ?_⟩
        · obtain front | pending | last := by simpa [or_assoc] using mem
          · exact done.events e front
          · obtain ⟨σ, scanned, -⟩ := reads
            exact Event.isScanned_of_mem_textEvents ⟨σ, scanned⟩ pending
          · subst last
            trivial
        · rw [trailingText_event_append fun front e split =>
            Lexer.separates_of_write split inText] at trailing
          obtain rfl := eq_of_trailingText_textEvents trailing
          exact reads
  | cons pair rest ih =>
    obtain ⟨expression, next⟩ := pair
    obtain ⟨second, others⟩ := List.forall_mem_cons.1 others
    obtain ⟨σ, read, ends⟩ := Markup.reads_scanSigil first
    simp only [run] at ran
    split at ran
    · cases ran
    · rename_i q written
      obtain ⟨-, fault, lexer⟩ := take_ok written
      split at ran
      · cases ran
      · rename_i q' bound
        obtain ⟨⟨t, -, hole⟩, lexer'⟩ :=
          bind_ok (h := ⟨slot, (scanSigil chunk).1, (scanBlock next).1, expression⟩) bound
        rw [lexer] at lexer' hole
        have done := Lexer.write_scans scans read fault
        have place := Skeleton.takeHole_place hole
        have passed : (p.lexer.write (scanSigil chunk).2).lexer.passHole.Scans returns .plain := by
          apply Lexer.passHole_scans done.lexer
          obtain place | place | place := place
          · exact .inl place
          · exact .inr (.inl place)
          · exact .inr (.inr ⟨_, place, rfl⟩)
        have later := ih (lexer' ▸ passed.lexer) (Markup.reads_scanBlock second) others ran
        rw [lexer'] at later
        rw [itemsFrom]
        refine ⟨?_, fun s trailing => ?_⟩
        · rw [List.forall_mem_append, List.forall_mem_cons]
          refine ⟨isScanned_map_event fun e mem => ?_, isScanned_hole done.lexer _, later.all⟩
          exact (List.mem_append.1 mem).elim (done.events e) (passed.events e)
        · rw [trailingText_append_hole] at trailing
          exact later.last s trailing

/-- The items of a template with raw chunks. -/
lemma scannedItems {returns : Bool} {chunks : List String} {expressions : List Expression}
    {f : Fragment} (ok : parse chunks expressions = .ok f)
    (reads : ∀ chunk ∈ chunks, Scan.Reads returns chunk.toList) :
    ScannedItems returns (items chunks expressions) := by
  unfold parse at ok
  split at ok
  · cases ok
  · rename_i first rest
    split at ok
    · split at ok
      · cases ok
      · rename_i p ran
        obtain ⟨here, others⟩ := List.forall_mem_cons.1 reads
        have start : Lexer.Scans returns {} .plain :=
          ⟨⟨Markup.isScanned_empty, Markup.isScanned_empty, Markup.isScanned_empty,
            Markup.isScanned_empty, Markup.isScanned_empty⟩, .inr rfl, trivial, rfl⟩
        refine Parser.run_scans start here (fun q mem => ?_) ran ok
        exact others q.2 (List.of_mem_zip mem).2
    · cases ok

/-! ## Markup -/

/-- Whether a text is ordinary and not empty. -/
def isFiller (text : String) : Bool := !text.toList.isEmpty && text.toList.all isOrdinary

section

variable {returns : Bool} {σ : Scan}

/-- Ordinary text ends what came before it. -/
lemma run_filler {text : String} (filler : isFiller text = true) :
    Scan.run returns σ text.toList = some .plain := by
  rw [isFiller, Bool.and_eq_true, Bool.not_eq_true', List.isEmpty_eq_false_iff,
    List.all_eq_true] at filler
  exact Scan.run_ordinary filler.2 filler.1

/-- A text is scanned behind another one that ends plainly. -/
lemma run_append_of_plain {front : String} (behind : String)
    (scanned : Scan.run returns σ front.toList = some .plain) :
    Scan.run returns σ (front ++ behind).toList = Scan.run returns .plain behind.toList := by
  rw [String.toList_append, Scan.run_append, scanned, Option.bind_some]

/-- A part in front of ordinary text is scanned on its own. -/
lemma run_enclosed {part right : String} (scanned : IsScanned returns part)
    (behind : isFiller right = true) :
    Scan.run returns .plain (part ++ right).toList = some .plain := by
  obtain ⟨τ, scanned⟩ := scanned
  rw [String.toList_append, Scan.run_append, scanned, Option.bind_some, run_filler behind]

/-- A part between ordinary texts. -/
lemma run_between {left part right : String} (front : isFiller left = true)
    (scanned : IsScanned returns part) (behind : isFiller right = true) :
    Scan.run returns σ (left ++ part ++ right).toList = some .plain := by
  rw [String.append_assoc, run_append_of_plain _ (run_filler front), run_enclosed scanned behind]

/-- A quote is as ordinary as what stands for it. -/
lemma run_escapeValue (text : String) :
    Scan.run returns σ (escapeValue text).toList = Scan.run returns σ text.toList := by
  have entity (σ : Scan) : Scan.run returns σ "&quot;".toList = some .plain := run_filler rfl
  rw [escapeValue, String.toList_ofList]
  induction text.toList generalizing σ with
  | nil => rfl
  | cons c cs ih =>
    rw [List.flatMap_cons, Scan.run_append, Scan.run_cons]
    split
    · rename_i quote
      rw [entity, quote, Scan.step_ordinary rfl, Option.bind_some, Option.bind_some, ih]
    · rw [Scan.run_cons]
      simp only [Scan.run_nil, Option.bind_fun_some, ih]

/-- A printed attribute scans plainly. -/
lemma run_attributeMarkup {name : String} {value : AttributeValue}
    (scanned : IsScanned returns name)
    (scanned' : ∀ text, value = .fixed text → IsScanned returns text) :
    Scan.run returns σ (attributeMarkup (name, value)).toList = some .plain := by
  cases value with
  | bound =>
    show Scan.run returns σ (" " ++ name ++ "=\"\"").toList = _
    exact run_between rfl scanned rfl
  | fixed text =>
    have inside : IsScanned returns (escapeValue text) := by
      obtain ⟨τ, scanned⟩ := scanned' text rfl
      exact ⟨τ, by rw [run_escapeValue, scanned]⟩
    show Scan.run returns σ (" " ++ name ++ "=\"" ++ escapeValue text ++ "\"").toList = _
    rw [String.append_assoc, run_append_of_plain _ (run_between rfl scanned rfl),
      run_enclosed inside rfl]

/-- The attributes of a tag have names and values of its parts. -/
lemma mem_attributeMap {parts : List TagPart} {name : String} {value : AttributeValue}
    (mem : (name, value) ∈ attributeMap parts) : ∃ p ∈ parts, p.name = name ∧ p.value = value := by
  obtain ⟨name', -, eq⟩ := List.mem_filterMap.1 mem
  obtain ⟨value', last, same⟩ := Option.map_eq_some_iff.1 eq
  cases same
  obtain ⟨p, found, rfl⟩ := Option.map_eq_some_iff.1 last
  exact ⟨p, List.mem_reverse.1 (List.mem_of_find?_eq_some found), by
    simpa using List.find?_some found, rfl⟩

/-- What can be scanned from every state can be scanned in a row. -/
lemma run_join {texts : List String}
    (scanned : ∀ text ∈ texts, ∀ σ, Scan.run returns σ text.toList = some .plain) :
    ∃ τ, Scan.run returns σ (String.join texts).toList = some τ := by
  induction texts generalizing σ with
  | nil => exact ⟨σ, rfl⟩
  | cons text texts ih =>
    obtain ⟨here, others⟩ := List.forall_mem_cons.1 scanned
    obtain ⟨τ, rest⟩ := ih (σ := .plain) others
    exact ⟨τ, by rw [String.join_cons, run_append_of_plain _ (here σ), rest]⟩

/-- A printed start tag scans plainly. -/
lemma run_startTag {name : String} {parts : List TagPart} (scanned : IsScanned returns name)
    (parts' : ∀ p ∈ parts, p.item.IsScanned returns) (isHost : Bool) :
    Scan.run returns σ (startTag name parts isHost).toList = some .plain := by
  have each : ∀ text ∈ (attributeMap parts).map attributeMarkup,
      ∀ σ, Scan.run returns σ text.toList = some .plain := by
    intro text mem σ
    obtain ⟨⟨name, value⟩, here, rfl⟩ := List.mem_map.1 mem
    obtain ⟨p, isPart, rfl, rfl⟩ := mem_attributeMap here
    have scanned := parts' p isPart
    cases p with
    | fixed name value =>
      refine run_attributeMarkup scanned.1 fun text same => ?_
      cases same
      exact scanned.2
    | hole name h => exact run_attributeMarkup scanned fun text same => by cases same
  have mark (σ : Scan) :
      ∃ τ, Scan.run returns σ (if isHost then bindMark else "").toList = some τ := by
    cases isHost
    · exact ⟨σ, rfl⟩
    · exact ⟨.plain, run_filler rfl⟩
  obtain ⟨τ, scanned⟩ := scanned
  obtain ⟨τ', attributes⟩ := run_join (σ := τ) each
  obtain ⟨τ'', mark⟩ := mark τ'
  have less : Scan.run returns σ "<".toList = some .plain := run_filler rfl
  have greater : Scan.run returns τ'' ">".toList = some .plain := run_filler rfl
  simp only [startTag, String.toList_append, Scan.run_append, less, Option.bind_some, scanned,
    attributes, mark, greater]

end

/-! ## Forests -/

/-- The items of a start tag. -/
lemma mem_startItems {name : String} {parts : List TagPart} {selfClosing : Bool} {i : Item} :
    i ∈ startItems name parts selfClosing ↔
      i = .event (.openTag name) ∨ (∃ p ∈ parts, p.item = i) ∨
        i = .event (.openTagEnd selfClosing) := by
  simp [startItems]

/-- The texts in a node that is no text are those of its children. -/
lemma Node.text_mem_items {n : Node} (notText : n.isText = false) {s : String} :
    .event (.text s) ∈ n.items ↔ .event (.text s) ∈ n.children.items := by
  have start (name : String) (parts : List TagPart) (selfClosing : Bool) :
      Item.event (.text s) ∉ startItems name parts selfClosing := by
    rw [mem_startItems]
    rintro (none | ⟨p, -, same⟩ | none)
    · cases none
    · cases p <;> cases same
    · cases none
  cases n with
  | text s => cases notText
  | comment t | hole h => simp [Node.items, Node.children, Forest.items]
  | component factory parts => simpa [Node.items, Node.children, Forest.items] using start _ _ _
  | void name isVoid parts selfClosing =>
    simpa [Node.items, Node.children, Forest.items] using start _ _ _
  | element name notVoid parts children ending =>
    have last : Item.event (.text s) ∉ ending.items := by cases ending <;> simp [Ending.items]
    simp [Node.items, Node.children, start, last]

/-- The items of the children of a node are items of the node. -/
lemma Node.mem_items_of_children (n : Node) {i : Item} (mem : i ∈ n.children.items) :
    i ∈ n.items := by
  cases n with
  | element name notVoid parts children ending =>
    rw [Node.items]
    exact List.mem_append_left _ (List.mem_append_right _ mem)
  | _ => cases mem

namespace Forest

variable {returns : Bool} {σ : Scan}

/-- The markup of a node that is no text starts with an ordinary character and ends with one, and is
scanned if the markup of its children is. -/
lemma run_node {n : Node} (notText : n.isText = false)
    (scanned : ∀ i ∈ n.items, i.isText = false → i.IsScanned returns) :
    Scan.run returns σ n.html.toList =
      (Scan.run returns .plain (html n.children).toList).map fun _ => .plain := by
  have tag {name : String} {parts : List TagPart} {selfClosing : Bool}
      (scanned : ∀ i ∈ startItems name parts selfClosing, i.isText = false → i.IsScanned returns) :
      IsScanned returns name ∧ ∀ p ∈ parts, p.item.IsScanned returns := by
    refine ⟨scanned _ (mem_startItems.2 (.inl rfl)) rfl, fun p mem => ?_⟩
    refine scanned p.item (mem_startItems.2 (.inr (.inl ⟨p, mem, rfl⟩))) ?_
    cases p <;> rfl
  cases n with
  | text s => cases notText
  | comment t =>
    exact run_between rfl (scanned (.event (.comment t)) (by simp [Node.items]) rfl) rfl
  | hole h =>
    rw [Node.html]
    cases h.block <;> exact run_filler rfl
  | component factory parts =>
    rw [Node.html]
    exact run_filler rfl
  | void name isVoid parts selfClosing =>
    obtain ⟨own, attributes⟩ := tag scanned
    exact run_startTag own attributes _
  | element name notVoid parts children ending =>
    rw [Node.items, List.forall_mem_append, List.forall_mem_append] at scanned
    obtain ⟨⟨start, -⟩, last⟩ := scanned
    obtain ⟨own, attributes⟩ := tag start
    have endName : IsScanned returns ending.name := by
      cases ending with
      | endTag closing same => exact last _ List.mem_cons_self rfl
      | selfClosing | missing => exact own
    have close (σ : Scan) :
        Scan.run returns σ ("</" ++ ending.name ++ ">").toList = some .plain :=
      run_between rfl endName rfl
    rw [Node.html, String.append_assoc, run_append_of_plain _ (run_startTag own attributes _),
      String.toList_append, Scan.run_append, Node.children]
    cases Scan.run returns .plain (html children).toList with
    | none => rfl
    | some τ => exact close τ

/-- What stands behind a text is scanned as if nothing stood in front of it. -/
lemma run_behind {n : Node} {F : Forest} (notText : n.isText = false)
    (scanned : ∀ i ∈ n.items, i.isText = false → i.IsScanned returns) :
    Scan.run returns σ (html (n :: F)).toList =
      (Scan.run returns .plain (html n.children).toList).bind fun _ =>
        Scan.run returns .plain (html F).toList := by
  rw [html, String.toList_append, Scan.run_append, run_node notText scanned]
  cases Scan.run returns .plain (html n.children).toList <;> rfl

/-- The state in which the markup ends: a text at the end decides it. -/
def EndsIn (returns : Bool) (F : Forest) (τ : Scan) : Prop :=
  match F.getLast? with
  | some (.text s) => Scan.run returns .plain s.toList = some τ
  | _ => τ = .plain

/-- A node that is no text ends plainly. -/
lemma endsIn_of_notText {n : Node} (notText : n.isText = false) : EndsIn returns [n] .plain := by
  cases n with
  | text s => cases notText
  | _ => rfl

/-- A forest ends as its last node does. -/
lemma endsIn_cons {n : Node} {F : Forest} {τ : Scan} (nonempty : F ≠ []) :
    EndsIn returns (n :: F) τ ↔ EndsIn returns F τ := by
  obtain ⟨m, G, rfl⟩ := List.exists_cons_of_ne_nil nonempty
  rw [EndsIn, EndsIn, List.getLast?_cons_cons]

/-- The markup of a forest in which no texts meet is scanned just if its texts are. -/
lemma run_html {F : Forest} (apart : F.textsApart = true)
    (scanned : ∀ i ∈ F.items, i.isText = false → i.IsScanned returns) :
    ((Scan.run returns .plain F.html.toList).isSome = true ↔
      ∀ s, .event (.text s) ∈ F.items → IsScanned returns s) ∧
    ∀ τ, Scan.run returns .plain F.html.toList = some τ → F.EndsIn returns τ := by
  induction F using Forest.induction with
  | nil =>
    refine ⟨by simp [html, items], fun τ ends => ?_⟩
    cases ends
    rfl
  | cons n F children others =>
    obtain ⟨notBoth, inside, behind⟩ := textsApart_cons.1 apart
    rw [items, List.forall_mem_append] at scanned
    obtain ⟨own, later⟩ := scanned
    obtain ⟨others, ends⟩ := others behind later
    simp only [items, List.mem_append, or_imp, forall_and]
    rw [← others]
    cases notText : n.isText with
    | false =>
      have children := (children inside fun i mem => own i (n.mem_items_of_children mem)).1
      simp only [run_behind notText own, Node.text_mem_items notText]
      rw [← children]
      cases Scan.run returns .plain (html n.children).toList with
      | none => simp
      | some ρ =>
        refine ⟨by simp, fun τ last => ?_⟩
        cases F with
        | nil =>
          cases last
          exact endsIn_of_notText notText
        | cons m G => exact (endsIn_cons (List.cons_ne_nil m G)).2 (ends τ last)
    | true =>
      cases n with
      | text s =>
        have own : (∀ t, .event (.text t) ∈ (Node.text s).items → IsScanned returns t) ↔
            (Scan.run returns .plain s.toList).isSome = true := by
          simp [Node.items, IsScanned, Option.isSome_iff_exists]
        rw [own, html, Node.html, String.toList_append, Scan.run_append]
        cases text : Scan.run returns .plain s.toList with
        | none => simp
        | some ρ =>
          cases F with
          | nil =>
            refine ⟨by simp [html], fun τ last => ?_⟩
            cases last
            exact text
          | cons m G =>
            have notText : m.isText = false := by simpa [Node.isText] using notBoth
            have first : ∀ i ∈ m.items, i.isText = false → i.IsScanned returns := by
              rw [items, List.forall_mem_append] at later
              exact later.1
            have same : Scan.run returns ρ (html (m :: G)).toList =
                Scan.run returns .plain (html (m :: G)).toList := by
              rw [run_behind notText first, run_behind notText first]
            rw [Option.bind_some, same]
            refine ⟨by simp, fun τ last => ?_⟩
            exact (endsIn_cons (List.cons_ne_nil m G)).2 (ends τ last)
      | _ => cases notText

end Forest

/-! ## Texts that meet -/

/-- An item that was among some, or a text that is made of texts among them. -/
def Item.MadeOf (is : List Item) (i : Item) : Prop :=
  i ∈ is ∨ ∃ s, i = .event (.text s) ∧ ∀ c ∈ s.toList, ∃ t, .event (.text t) ∈ is ∧ c ∈ t.toList

/-- An item that is made of items is made of more. -/
lemma Item.MadeOf.mono {is js : List Item} {i : Item} (made : i.MadeOf is) (sub : is ⊆ js) :
    i.MadeOf js := by
  obtain mem | ⟨s, text, chars⟩ := made
  · exact .inl (sub mem)
  · refine .inr ⟨s, text, fun c mem => ?_⟩
    obtain ⟨t, isText, mem⟩ := chars c mem
    exact ⟨t, sub isText, mem⟩

/-- The characters of a text that is made of texts. -/
lemma Item.MadeOf.exists_text {is : List Item} {s : String} {c : Char}
    (made : (Item.event (.text s)).MadeOf is) (mem : c ∈ s.toList) :
    ∃ t, .event (.text t) ∈ is ∧ c ∈ t.toList := by
  obtain here | ⟨_, same, chars⟩ := made
  · exact ⟨s, here, mem⟩
  · cases same
    exact chars c mem

/-- Joining texts leaves the other items as they are. -/
lemma Forest.madeOf_joined {F : Forest} {i : Item} (mem : i ∈ (joined F).items) :
    i.MadeOf F.items := by
  induction F using Forest.induction generalizing i with
  | nil => exact .inl mem
  | cons n F children others =>
    have front : n.items ⊆ items (n :: F) := List.subset_append_left _ _
    have behind : F.items ⊆ items (n :: F) := List.subset_append_right _ _
    rw [joined_cons] at mem
    obtain ⟨eq, -⟩ | ⟨s, t, G, text, first, eq⟩ := joinText_cases n.joined (joined F)
    · rw [eq, items] at mem
      obtain own | later := List.mem_append.1 mem
      · cases n with
        | element name notVoid parts C ending =>
          simp only [Node.joined, Node.items, List.mem_append] at own
          obtain (start | inside) | last := own
          · exact .inl (front (List.mem_append_left _ (List.mem_append_left _ start)))
          · exact (children inside).mono fun _ mem => front (Node.mem_items_of_children _ mem)
          · exact .inl (front (List.mem_append_right _ last))
        | _ => exact .inl (front own)
      · exact (others later).mono behind
    · rw [eq, items] at mem
      have second : Item.event (.text t) ∈ (joined F).items := by
        rw [first, items]
        exact List.mem_append_left _ List.mem_cons_self
      obtain here | later := List.mem_append.1 mem
      · refine .inr ⟨s ++ t, List.mem_singleton.1 here, fun c mem => ?_⟩
        rw [String.toList_append, List.mem_append] at mem
        obtain inFirst | inSecond := mem
        · refine ⟨s, front ?_, inFirst⟩
          cases n <;> cases text
          exact List.mem_cons_self
        · exact ((others second).mono behind).exists_text inSecond
      · refine (others ?_).mono behind
        rw [first, items]
        exact List.mem_append_right _ later

/-- Without end tags of void elements, the items of the forest end with the same text. -/
lemma foldl_trailing_kept {is : List Item}
    (notVoid : ∀ name, .event (.closeTag name) ∈ is → isVoid name = false) (last : Option String) :
    (kept is).foldl Item.trailing last = is.foldl Item.trailing last := by
  fun_induction kept is generalizing last with
  | case1 => rfl
  | case2 is ih => exact ih (fun name mem => notVoid name (List.mem_cons_of_mem _ mem)) last
  | case3 name is void ih =>
    rw [notVoid name List.mem_cons_self] at void
    cases void
  | case4 name is notVoid' ih =>
    exact ih (fun name mem => notVoid name (List.mem_cons_of_mem _ mem)) none
  | case5 name h is starts ih =>
    rw [ih (fun name mem => notVoid name (List.mem_cons_of_mem _ mem))]
    unfold startsWithFactory at starts
    split at starts
    · rfl
    · cases starts
  | case6 name h is starts ih =>
    exact ih (fun name mem => notVoid name (List.mem_cons_of_mem _ mem)) none
  | case7 i is noFinish noClose noHole ih =>
    exact ih (fun name mem => notVoid name (List.mem_cons_of_mem _ mem)) _

/-! ## Literals -/

/-- A part is scanned with returns just if it is unbroken. -/
lemma isScanned_true_iff {text : String} : IsScanned true text ↔ IsUnbroken text.toList := by
  rw [← Scan.isSome_run_plain, Option.isSome_iff_exists, IsScanned]

/-- The items of the joined forest besides its texts are scanned as well. -/
lemma Forest.isScanned_joined {returns : Bool} {F : Forest}
    (scanned : ∀ i ∈ F.items, i.isText = false → i.IsScanned returns) :
    ∀ i ∈ (joined F).items, i.isText = false → i.IsScanned returns := by
  intro i mem notText
  obtain mem | ⟨s, rfl, -⟩ := madeOf_joined mem
  · exact scanned i mem notText
  · cases notText

/-- Which forests have raw markup. -/
lemma Forest.isRaw_html {F : Forest}
    (scanned : ∀ i ∈ F.items, i.isText = false → i.IsScanned true) :
    IsRaw F.html ↔ (∀ s, .event (.text s) ∈ (joined F).items → IsUnbroken s.toList) ∧
      ∀ s, (joined F).getLast? = some (.text s) → oddBackslashes s.toList.reverse = false := by
  obtain ⟨texts, ends⟩ := run_html F.textsApart_joined (isScanned_joined scanned)
  simp only [html_joined, isScanned_true_iff] at texts ends
  have raw : IsRaw F.html ↔ Scan.Reads true F.html.toList := by simp [Markup.reads_iff]
  rw [raw, ← texts]
  constructor
  · rintro ⟨τ, scanned, notEscape⟩
    refine ⟨by simp [scanned], fun s last => ?_⟩
    have state := ends τ scanned
    simp only [EndsIn, last] at state
    exact Bool.eq_false_iff.2 fun odd => notEscape ((Scan.run_plain_eq state).1.2 odd)
  · rintro ⟨scanned, even⟩
    obtain ⟨τ, scanned⟩ := Option.isSome_iff_exists.1 scanned
    refine ⟨τ, scanned, ?_⟩
    have state := ends τ scanned
    unfold EndsIn at state
    split at state
    · rename_i s last
      exact Scan.ne_escape_of_run state (even s last)
    · simp [state]

/-- The literal in the declaration of a fragment. -/
lemma literal?_fragmentDeclaration (html : String) (i : Nat) :
    Script.literal? (Code.Tables.fragmentDeclaration html i) =
        some (String.ofList (Script.lineFeeds html.toList), "));") ↔ IsRaw html := by
  have parts : Code.Tables.fragmentDeclaration html i =
      "const __render" ++ toString i ++ " = renderer(makeFragment(" ++ "\x60" ++ html ++ "\x60" ++
        "));" := by
    rw [Code.Tables.fragmentDeclaration_eq,
      show " = renderer(makeFragment(\x60" = " = renderer(makeFragment(" ++ "\x60" from rfl,
      show "\x60));" = "\x60" ++ "));" from rfl]
    simp only [String.append_assoc]
  have noTick :
      '\x60' ∉ ("const __render" ++ toString i ++ " = renderer(makeFragment(").toList := by
    have number : '\x60' ∉ (toString i).toList := fun mem =>
      absurd (isDigit_of_mem_toString mem) (by decide)
    simp only [String.toList_append, List.mem_append, not_or]
    exact ⟨⟨by decide, number⟩, by decide⟩
  rw [parts, Script.literal?_eq_some_iff noTick]

/-- Raw chunks without carriage returns have markup without them, if it is raw. -/
lemma Forest.notMem_html {F : Forest} (scanned : ∀ i ∈ F.items, i.IsScanned false)
    (raw : ∀ s, .event (.text s) ∈ (joined F).items → IsUnbroken s.toList) :
    '\r' ∉ F.html.toList := by
  obtain ⟨texts, -⟩ := run_html F.textsApart_joined (isScanned_joined fun i mem _ => scanned i mem)
  have all : ∀ s, .event (.text s) ∈ (joined F).items → IsScanned false s := by
    intro s mem
    obtain ⟨τ, whole⟩ := isScanned_true_iff.2 (raw s mem)
    refine ⟨τ, Scan.run_eq_some.2 ⟨whole, fun _ isReturn => ?_⟩⟩
    obtain ⟨t, isText, inText⟩ := (madeOf_joined mem).exists_text isReturn
    obtain ⟨τ, part⟩ := scanned _ isText
    exact (Scan.run_eq_some.1 part).2 rfl inText
  obtain ⟨τ, whole⟩ := Option.isSome_iff_exists.1 (texts.2 all)
  rw [html_joined] at whole
  exact (Scan.run_eq_some.1 whole).2 rfl

/-- If the chunks of a template are raw, then its markup is raw just if the texts of its forest are,
where texts that meet count as one. So it is raw if no end tag of a void element is dropped between
texts. The literal of the declared fragment is the markup, up to line ends, just if that is raw. -/
theorem parse_literal {chunks : List String} {expressions : List Expression} {fragment : Fragment}
    (ok : parse chunks expressions = .ok fragment) (raw : ∀ chunk ∈ chunks, IsRaw chunk) :
    ∃ F : Forest, nest (items chunks expressions) = some F ∧
      (IsRaw fragment.html ↔
        (∀ s, .event (.text s) ∈ (Forest.joined F).items → IsUnbroken s.toList) ∧
        ∀ s, (Forest.joined F).getLast? = some (.text s) →
          oddBackslashes s.toList.reverse = false) ∧
      ((∀ name, .event (.closeTag name) ∈ items chunks expressions → isVoid name = false) →
        IsRaw fragment.html) ∧
      (∀ i, Script.literal? (Code.Tables.fragmentDeclaration fragment.html i) =
        some (String.ofList (Script.lineFeeds fragment.html.toList), "));") ↔
          IsRaw fragment.html) ∧
      ((∀ chunk ∈ chunks, '\r' ∉ chunk.toList) → IsRaw fragment.html →
        Script.lineFeeds fragment.html.toList = fragment.html.toList) := by
  obtain ⟨F, nested, rfl⟩ := parse_nests ok
  have reads (returns : Bool) (noReturn : returns = false → ∀ chunk ∈ chunks, '\r' ∉ chunk.toList) :
      ∀ chunk ∈ chunks, Scan.Reads returns chunk.toList := fun chunk mem =>
    Markup.reads_iff.2 ⟨raw chunk mem, fun without => noReturn without chunk mem⟩
  have inForest {returns : Bool} (scanned : ScannedItems returns (items chunks expressions)) :
      ∀ i ∈ F.items, i.IsScanned returns := by
    rw [items_nest nested]
    exact fun i mem => scanned.all i (mem_of_mem_kept mem)
  have scanned := scannedItems ok (reads true (by simp))
  have isRaw := Forest.isRaw_html fun i mem _ => inForest scanned i mem
  refine ⟨F, nested, isRaw, fun noVoid => ?_, literal?_fragmentDeclaration F.html, ?_⟩
  · have apart := textsApart_nest nested (spaced_items _ _) noVoid
    rw [isRaw, Forest.joined_eq_self apart]
    refine ⟨fun s mem => isScanned_true_iff.1 (inForest scanned _ mem), fun s last => ?_⟩
    have trailing : trailingText (items chunks expressions) = some s := by
      rw [trailingText, ← foldl_trailing_kept noVoid, ← items_nest nested]
      obtain ⟨G, rfl⟩ := List.getLast?_eq_some_iff.1 last
      rw [Forest.items_append, List.foldl_append]
      rfl
    exact (Markup.reads_iff.1 (scanned.last s trailing)).1.2
  · intro noReturn isRaw'
    have without := scannedItems ok (reads false fun _ => noReturn)
    exact Script.lineFeeds_eq_self (Forest.notMem_html (inForest without) (isRaw.1 isRaw').1)

/-- The end tag of a void element between a dollar sign and a brace: the markup is the start of a
hole, and what is declared is no literal. -/
theorem parse_literal_hole :
    let chunks := ["$</br>\x7bx\x7d"]
    let fragment : Fragment := { html := "$\x7bx\x7d", binders := [] }
    parse chunks [] = .ok fragment ∧ (∀ chunk ∈ chunks, IsRaw chunk) ∧ ¬IsRaw fragment.html ∧
      Script.literal? (Code.Tables.fragmentDeclaration fragment.html 0) ≠
        some (fragment.html, "));") := by
  intro chunks fragment
  have ok : parse chunks [] = .ok fragment := rfl
  have raw : ∀ chunk ∈ chunks, IsRaw chunk := by
    intro chunk mem
    cases List.mem_singleton.1 mem
    have reads : Scan.Reads true "$</br>\x7bx\x7d".toList := ⟨.plain, rfl, by simp⟩
    exact (Markup.reads_iff.1 reads).1
  obtain ⟨F, nested, isRaw, -, literal, -⟩ := parse_literal ok raw
  have eq : F = [.text "$", .text "\x7bx\x7d"] := Option.some.inj (nested.symm.trans rfl)
  subst eq
  have broken : ¬IsRaw fragment.html := by
    intro whole
    have unbroken := (isRaw.1 whole).1 fragment.html List.mem_cons_self
    have escaped := unbroken.2 [] ['x', '\x7d'] (by simp [fragment])
    cases escaped
  have feeds : String.ofList (Script.lineFeeds fragment.html.toList) = fragment.html := by
    rw [Script.lineFeeds_eq_self (by simp [fragment]), String.ofList_toList]
  refine ⟨ok, raw, broken, fun same => broken ((literal 0).1 ?_)⟩
  rw [feeds, same]

end TaggedMarkup.Template

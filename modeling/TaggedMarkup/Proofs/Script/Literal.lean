import Mathlib
import TaggedMarkup.Proofs.Markup.Raw
import TaggedMarkup.Script.Lexeme

/-!
# Literals of raw text

A template without holes is a literal, whose text is read up to the next backtick outside of an
escape. So a text between backticks is read back as a whole just if it is raw (`readChunk_append`),
up to its line ends. The literal in a piece of code is `literal?`.
-/

namespace TaggedMarkup.Markup

/-! ## Raw text from its start -/

namespace Scan

/-- The empty text is read to its end. -/
lemma reads_nil : Reads true [] := ⟨.plain, rfl, by simp⟩

/-- A tick ends a literal. -/
lemma not_reads_tick (text : List Char) : ¬Reads true ('\x60' :: text) := by
  simp [Reads, step]

/-- A dollar and a brace open a hole. -/
lemma not_reads_hole (text : List Char) : ¬Reads true ('$' :: '\x7b' :: text) := by
  simp [Reads, step]

/-- A backslash at the end escapes nothing. -/
lemma not_reads_backslash : ¬Reads true ['\\'] := by
  simp [Reads, step]

/-- An escape counts for nothing. -/
lemma reads_escape (c : Char) (text : List Char) :
    Reads true ('\\' :: c :: text) ↔ Reads true text := by
  simp [Reads, step]

/-- Nor does any other character, unless it makes a hole of a dollar sign. -/
lemma reads_cons {c : Char} {text : List Char} (noTick : c ≠ '\x60') (noEscape : c ≠ '\\')
    (noHole : c = '$' → text.head? ≠ some '\x7b') : Reads true (c :: text) ↔ Reads true text := by
  by_cases dollar : c = '$'
  · subst dollar
    rcases text with _ | ⟨d, text⟩
    · simp [Reads, step]
    · have other : d ≠ '\x7b' := by simpa using noHole rfl
      have first : step true .plain '$' = some .dollar := rfl
      have second : step true .dollar d = step true .plain d := by simp [step, other]
      simp only [Reads, run_cons, first, Option.bind_some, second]
  · simp [Reads, step, noTick, noEscape, dollar]

end Scan

end TaggedMarkup.Markup

namespace TaggedMarkup.Script

open Lexeme (ChunkEnd readChunk)
open Markup (Scan)

/-! ## Line ends -/

/-- The text behind a line feed. -/
def dropFeed : List Char → List Char
  | '\n' :: cs => cs
  | cs => cs

/-- A text with all line ends as line feeds. -/
def lineFeeds : List Char → List Char
  | [] => []
  | '\r' :: '\n' :: cs => '\n' :: lineFeeds cs
  | '\r' :: cs => '\n' :: lineFeeds cs
  | c :: cs => c :: lineFeeds cs

/-- A return is read as a line feed, with the line feed behind it. -/
lemma lineFeeds_return (cs : List Char) :
    lineFeeds ('\r' :: cs) = '\n' :: lineFeeds (dropFeed cs) := by
  unfold dropFeed
  split
  · rw [lineFeeds]
  · rw [lineFeeds]
    simpa using ‹_›

/-- Other characters are read as they are. -/
lemma lineFeeds_cons {c : Char} (other : c ≠ '\r') (cs : List Char) :
    lineFeeds (c :: cs) = c :: lineFeeds cs := by
  rw [lineFeeds] <;> simp_all

/-- Without carriage returns, line ends are line feeds. -/
lemma lineFeeds_eq_self {cs : List Char} (noReturn : '\r' ∉ cs) : lineFeeds cs = cs := by
  induction cs with
  | nil => rfl
  | cons c cs ih =>
    rw [List.mem_cons, not_or] at noReturn
    rw [lineFeeds_cons (Ne.symm noReturn.1), ih noReturn.2]

/-- No text gets longer without its line feed. -/
lemma length_dropFeed (cs : List Char) : (dropFeed cs).length ≤ cs.length := by
  unfold dropFeed
  split <;> simp

/-- A line feed is dropped in front of what follows. -/
lemma dropFeed_append (cs rest : List Char) :
    dropFeed (cs ++ '\x60' :: rest) = dropFeed cs ++ '\x60' :: rest := by
  unfold dropFeed
  rcases cs with _ | ⟨c, cs⟩
  · rfl
  · by_cases feed : c = '\n' <;> simp [feed]

/-- A line feed does not matter to whether a text is read to its end. -/
lemma reads_dropFeed (cs : List Char) : Scan.Reads true (dropFeed cs) ↔ Scan.Reads true cs := by
  unfold dropFeed
  split
  · rw [Scan.reads_cons (by decide) (by decide) (by simp)]
  · rfl

/-! ## Chunks -/

/-- A return is read as a line feed. -/
lemma readChunk_return (size : Nat) (acc cs : List Char) :
    ∃ size', readChunk size acc ('\r' :: cs) = readChunk size' ('\n' :: acc) (dropFeed cs) := by
  unfold dropFeed
  split
  · exact ⟨_, by rw [readChunk]⟩
  · exact ⟨_, by rw [readChunk]; simpa using ‹_›⟩

/-- An escaped character is read as it is. -/
lemma readChunk_escape (size : Nat) (acc : List Char) {c : Char} (other : c ≠ '\r')
    (cs : List Char) :
    ∃ size', readChunk size acc ('\\' :: c :: cs) = readChunk size' (c :: '\\' :: acc) cs := by
  refine ⟨size + 1 + c.utf8Size, ?_⟩
  rw [readChunk] <;> simp_all

/-- An escaped return is read as an escaped line feed. -/
lemma readChunk_escape_return (size : Nat) (acc cs : List Char) :
    ∃ size', readChunk size acc ('\\' :: '\r' :: cs) =
      readChunk size' ('\n' :: '\\' :: acc) (dropFeed cs) := by
  unfold dropFeed
  split
  · exact ⟨_, by rw [readChunk]⟩
  · exact ⟨_, by rw [readChunk]; simpa using ‹_›⟩

/-- A character that ends nothing and escapes nothing is read as it is. -/
lemma readChunk_cons (size : Nat) (acc : List Char) {c : Char} {cs : List Char}
    (noTick : c ≠ '\x60') (noEscape : c ≠ '\\') (noReturn : c ≠ '\r')
    (noHole : c = '$' → cs.head? ≠ some '\x7b') :
    ∃ size', readChunk size acc (c :: cs) = readChunk size' (c :: acc) cs := by
  refine ⟨size + c.utf8Size, ?_⟩
  rw [readChunk] <;> try simp_all
  rintro rest rfl rfl
  exact noHole rfl rfl

/-- Reading a chunk goes forward. -/
lemma length_readChunk {size : Nat} {acc cs raw rest : List Char} {n : Nat} {close : ChunkEnd}
    (read : readChunk size acc cs = some (raw, n, close, rest)) : rest.length < cs.length := by
  fun_induction readChunk size acc cs <;> grind

/-- A chunk that is read has a larger size than before. -/
lemma size_lt_readChunk {size : Nat} {acc cs raw rest : List Char} {n : Nat} {close : ChunkEnd}
    (read : readChunk size acc cs = some (raw, n, close, rest)) : size < n := by
  fun_induction readChunk size acc cs <;> grind

/-- What is read of a text in front of a backtick: a part that counts for nothing. -/
structure Passes (size : Nat) (acc text rest : List Char) (size' : Nat) (part text' : List Char) :
    Prop where
  shorter : text'.length < text.length
  reads : Scan.Reads true text ↔ Scan.Reads true text'
  feeds : lineFeeds text = part ++ lineFeeds text'
  read : readChunk size acc (text ++ '\x60' :: rest) =
    readChunk size' (part.reverse ++ acc) (text' ++ '\x60' :: rest)

/-- A character or an escape is passed, unless the chunk ends there or the backtick behind the text
is escaped. -/
lemma passes_cons (size : Nat) (acc rest : List Char) {c : Char} {cs : List Char}
    (noTick : c ≠ '\x60') (noHole : c = '$' → cs.head? ≠ some '\x7b')
    (noEscape : c = '\\' → cs ≠ []) :
    ∃ size' part text', Passes size acc (c :: cs) rest size' part text' := by
  by_cases backslash : c = '\\'
  · subst backslash
    obtain ⟨d, cs, rfl⟩ := List.exists_cons_of_ne_nil (noEscape rfl)
    by_cases newLine : d = '\r'
    · subst newLine
      obtain ⟨size', read⟩ := readChunk_escape_return size acc (cs ++ '\x60' :: rest)
      refine ⟨size', ['\\', '\n'], dropFeed cs, ?_, ?_, ?_, ?_⟩
      · have := length_dropFeed cs
        simp only [List.length_cons]
        omega
      · rw [Scan.reads_escape, reads_dropFeed]
      · rw [lineFeeds_cons (by decide), lineFeeds_return]
        rfl
      · rw [← dropFeed_append]
        exact read
    · obtain ⟨size', read⟩ := readChunk_escape size acc newLine (cs ++ '\x60' :: rest)
      refine ⟨size', ['\\', d], cs, by simp, Scan.reads_escape d cs, ?_, read⟩
      rw [lineFeeds_cons (by decide), lineFeeds_cons newLine]
      rfl
  · have passed := Scan.reads_cons noTick backslash noHole
    by_cases newLine : c = '\r'
    · subst newLine
      obtain ⟨size', read⟩ := readChunk_return size acc (cs ++ '\x60' :: rest)
      refine ⟨size', ['\n'], dropFeed cs, ?_, ?_, lineFeeds_return cs, ?_⟩
      · have := length_dropFeed cs
        simp only [List.length_cons]
        omega
      · rw [passed, reads_dropFeed]
      · rw [← dropFeed_append]
        exact read
    · have noHole' : c = '$' → (cs ++ '\x60' :: rest).head? ≠ some '\x7b' := by
        intro dollar
        rcases cs with _ | ⟨d, cs⟩
        · simp
        · simpa using noHole dollar
      obtain ⟨size', read⟩ := readChunk_cons size acc noTick backslash newLine noHole'
      exact ⟨size', [c], cs, by simp, passed, lineFeeds_cons newLine cs, read⟩

/-- A text in front of a backtick is read up to that backtick just if it is raw. -/
lemma readChunk_append (size : Nat) (acc text rest : List Char) :
    (Scan.Reads true text → ∃ n, readChunk size acc (text ++ '\x60' :: rest) =
      some ((lineFeeds text).reverse ++ acc, n, .quote, rest)) ∧
    ∀ raw n, readChunk size acc (text ++ '\x60' :: rest) = some (raw, n, .quote, rest) →
      Scan.Reads true text := by
  induction length : text.length using Nat.strong_induction_on generalizing size acc text with
  | _ k ih =>
    subst length
    rcases text with _ | ⟨c, cs⟩
    · exact ⟨fun _ => ⟨size + 1, by simp [readChunk, lineFeeds]⟩, fun _ _ _ => Scan.reads_nil⟩
    · by_cases tick : c = '\x60'
      · subst tick
        refine ⟨fun reads => absurd reads (Scan.not_reads_tick cs), fun raw n read => ?_⟩
        rw [List.cons_append, readChunk] at read
        obtain ⟨-, same⟩ : size + 1 = n ∧ cs ++ '\x60' :: rest = rest := by
          simpa using (Prod.mk.inj (Option.some.inj read)).2
        have longer := congrArg List.length same
        rw [List.length_append, List.length_cons] at longer
        omega
      · by_cases hole : c = '$' ∧ cs.head? = some '\x7b'
        · obtain ⟨rfl, head⟩ := hole
          obtain ⟨cs, rfl⟩ := List.head?_eq_some_iff.1 head
          refine ⟨fun reads => absurd reads (Scan.not_reads_hole cs), fun raw n read => ?_⟩
          simp [readChunk] at read
        · by_cases escaped : c = '\\' ∧ cs = []
          · obtain ⟨rfl, rfl⟩ := escaped
            refine ⟨fun reads => absurd reads Scan.not_reads_backslash, fun raw n read => ?_⟩
            -- The backtick is part of the chunk, which ends only behind it.
            obtain ⟨size', passed⟩ := readChunk_escape size acc (c := '\x60') (by decide) rest
            have shorter := length_readChunk (passed.symm.trans read)
            omega
          · obtain ⟨size', part, text', passes⟩ := passes_cons size acc rest tick
              (fun dollar head => hole ⟨dollar, head⟩) fun slash empty => escaped ⟨slash, empty⟩
            obtain ⟨forth, back⟩ := ih _ passes.shorter size' (part.reverse ++ acc) text' rfl
            rw [passes.reads, passes.read, passes.feeds, List.reverse_append, List.append_assoc]
            exact ⟨forth, back⟩

/-! ## Literals in code -/

/-- The raw text of the first template in a piece of code, if it has no holes, and the code behind
it. -/
def literal? (code : String) : Option (String × String) :=
  match code.toList.dropWhile (· != '\x60') with
  | [] => none
  | _ :: text =>
    match readChunk 0 [] text with
    | some (raw, _, .quote, rest) => some (String.ofList raw.reverse, String.ofList rest)
    | _ => none

/-- A text between backticks is the literal of the code just if it is raw. -/
lemma literal?_eq_some_iff {front text behind : String} (noTick : '\x60' ∉ front.toList) :
    literal? (front ++ "\x60" ++ text ++ "\x60" ++ behind) =
        some (String.ofList (lineFeeds text.toList), behind) ↔ Markup.IsRaw text := by
  have start : (front ++ "\x60" ++ text ++ "\x60" ++ behind).toList.dropWhile (· != '\x60') =
      '\x60' :: (text.toList ++ '\x60' :: behind.toList) := by
    have split : (front ++ "\x60" ++ text ++ "\x60" ++ behind).toList =
        front.toList ++ '\x60' :: (text.toList ++ '\x60' :: behind.toList) := by simp
    rw [split, List.dropWhile_append_of_pos, List.dropWhile_cons_of_neg (by simp)]
    intro c mem
    simp only [bne_iff_ne]
    rintro rfl
    exact noTick mem
  obtain ⟨forth, back⟩ := readChunk_append 0 [] text.toList behind.toList
  have raw : Markup.IsRaw text ↔ Scan.Reads true text.toList := by simp [Markup.reads_iff]
  rw [literal?, start, raw]
  constructor
  · intro same
    dsimp only at same
    split at same
    · rename_i raw n rest read
      obtain ⟨-, rfl⟩ := Prod.mk.inj (Option.some.inj same)
      rw [String.toList_ofList] at back
      rw [String.toList_ofList] at read
      exact back raw n read
    · cases same
  · intro reads
    obtain ⟨n, read⟩ := forth reads
    simp [read]

end TaggedMarkup.Script

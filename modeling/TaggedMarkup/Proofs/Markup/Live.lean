import Mathlib
import TaggedMarkup.Proofs.Markup.Printed

/-!
# What the lexer still looks at

The state of the lexer keeps parts of markup that it has reported: between two tags the name of the
last one, and in front of an attribute the last value. No step looks at them before it has set them
anew, so they can be left out of the state (`Lexer.live`). States that are equal otherwise report
the same of every character (`Lexer.step_congr`), and the same at the end (`Lexer.finish_congr`).
-/

namespace TaggedMarkup.Markup

/-- The state without the parts that are left over from earlier markup. -/
def Lexer.live (l : Lexer) : Lexer :=
  let bare : Lexer := { mode := l.mode, text := l.text, bound := l.bound }
  match l.mode with
  | .text | .tagOpening => bare
  | .tagName | .beforeAttribute | .selfClosing | .closingName | .afterClosingName =>
    { bare with tag := l.tag }
  | .attributeName | .afterAttribute => { bare with tag := l.tag, name := l.name }
  | .beforeValue | .quotedValue _ | .unquotedValue =>
    { bare with tag := l.tag, name := l.name, value := l.value }
  | .declaration | .commentDash | .comment | .commentEndDash | .commentEnd | .bogusComment =>
    { bare with comment := l.comment }

/-- An outcome without the parts of its state that are left over. -/
def Outcome.live (o : Outcome) : Outcome := { o with lexer := o.lexer.live }

/-- Outcomes agree on what is live if their lexers do, with the same events and fault. -/
lemma Outcome.live_eq_iff {o p : Outcome} :
    o.live = p.live ↔ o.lexer.live = p.lexer.live ∧ o.events = p.events ∧ o.fault = p.fault := by
  rw [live, live, mk.injEq]

namespace Lexer

variable {l m : Lexer}

/-- A step does not look at what is left over. -/
lemma step_live (l : Lexer) (c : Char) : (l.live.step c).live = (l.step c).live := by
  obtain ⟨mode, text, tag, name, value, comment, bound⟩ := l
  cases mode <;> simp only [live, step] <;>
    simp only [stepText, stepTagOpening, stepTagName, stepBeforeAttribute, stepAttributeName,
      stepAfterAttribute, stepBeforeValue, stepQuotedValue, stepUnquotedValue, stepSelfClosing,
      stepClosingName, stepAfterClosingName, stepDeclaration, stepCommentDash, stepComment,
      stepCommentEndDash, stepCommentEnd, stepBogusComment] <;>
    (repeat' split) <;> rfl

/-- The end of a template reads only what is live. -/
lemma finish_live (l : Lexer) : l.live.finish.live = l.finish.live := by
  obtain ⟨mode, text, tag, name, value, comment, bound⟩ := l
  cases mode <;> rfl

/-- Lexers that agree on what is live do so after a step, with the same events and fault. -/
lemma step_congr (same : m.live = l.live) (c : Char) :
    (m.step c).lexer.live = (l.step c).lexer.live ∧ (m.step c).events = (l.step c).events ∧
      (m.step c).fault = (l.step c).fault := by
  rw [← Outcome.live_eq_iff, ← step_live m, same, step_live]

/-- Lexers that agree on what is live end with the same events and fault. -/
lemma finish_congr (same : m.live = l.live) :
    m.finish.events = l.finish.events ∧ m.finish.fault = l.finish.fault := by
  have alike : m.finish.live = l.finish.live := by rw [← finish_live m, same, finish_live]
  exact (Outcome.live_eq_iff.1 alike).2

/-- The mode is always live. -/
@[simp] lemma mode_live (l : Lexer) : l.live.mode = l.mode := by
  unfold live
  split <;> rfl

/-- Between pieces with nothing pending, only the mode is left. -/
lemma Pending.live (h : l.Pending "") : l.live = empty := by
  obtain ⟨unbound, ⟨mode, text⟩ | ⟨mode, text⟩⟩ := h
  · simp [Lexer.live, mode, text, unbound, empty]
  · simp [String.push_ne_empty] at text

end Lexer

end TaggedMarkup.Markup

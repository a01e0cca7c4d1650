import TaggedMarkup.Markup.Sigil

/-!
# Ways of binding

How the value of a hole reaches its node: once as it stands, by a subscription, or by a projection
of one or several observables.
-/

namespace TaggedMarkup.Template

open Markup (Sigil)

/-- How the value of a hole reaches its node. -/
inductive Binding where
  | value
  | subscribe
  | first
  | map
  | mapFirst
  | combine
  | combineFirst
  deriving DecidableEq, Repr

namespace Binding

/-- The name of a binding in a report. -/
def name : Binding → String
  | .value => "value"
  | .subscribe => "subscribe"
  | .first => "first"
  | .map => "map"
  | .mapFirst => "map-first"
  | .combine => "combine"
  | .combineFirst => "combine-first"

/-- Whether a binding holds on to something that has to be released. -/
def isSubscription : Binding → Bool
  | .value => false
  | _ => true

/-- Whether a projection takes only the first value. -/
def isFirstOnly : Binding → Bool
  | .mapFirst | .combineFirst => true
  | _ => false

/-- The binding of a hole, by its sigil, by whether its expression is an identifier, and by the
number of observables in it. -/
def classify (sigil : Sigil) (isIdentifier : Bool) (observables : Nat) : Binding :=
  match sigil with
  | .subscribe => .subscribe
  | .once =>
    if isIdentifier then .first
    else match observables with
      | 0 => .value
      | 1 => .mapFirst
      | _ => .combineFirst
  | .map | .none =>
    match observables with
    | 0 => .value
    | n + 1 => if isIdentifier then .subscribe else if n = 0 then .map else .combine

end Binding

end TaggedMarkup.Template

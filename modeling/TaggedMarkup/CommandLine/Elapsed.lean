/-!
# Spans of time

A span of time is written in the largest unit of which it has at least one, with as many decimals
as it needs.
-/

namespace TaggedMarkup.CommandLine

/-- The digits of a fraction that has `places` of them, without zeros at the end. -/
def fractionDigits (places n : Nat) : String :=
  let digits := (Nat.repr n).toList
  let padded := List.replicate (places - digits.length) '0' ++ digits
  String.ofList ((padded.reverse.dropWhile (· == '0')).reverse)

/-- A number of units, of which there are `10 ^ places` parts. -/
def inUnits (places n : Nat) (unit : String) : String :=
  let whole := n / Nat.pow 10 places
  let rest := n % Nat.pow 10 places
  if rest = 0 then s!"{whole}{unit}" else s!"{whole}.{fractionDigits places rest}{unit}"

/-- A span of time of some nanoseconds. -/
def elapsedText (nanoseconds : Nat) : String :=
  if nanoseconds ≥ Nat.pow 10 9 then inUnits 9 nanoseconds "s"
  else if nanoseconds ≥ Nat.pow 10 6 then inUnits 6 nanoseconds "ms"
  else if nanoseconds ≥ Nat.pow 10 3 then inUnits 3 nanoseconds "µs"
  else inUnits 0 nanoseconds "ns"

end TaggedMarkup.CommandLine

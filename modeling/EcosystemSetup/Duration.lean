/-!
# Durations

Spans of time in whole nanoseconds, and their text: a decimal in the largest unit of seconds,
milliseconds, microseconds and nanoseconds that keeps a whole part.
-/

namespace EcosystemSetup

/-- A span of time. -/
structure Duration where
  nanos : Nat
  deriving DecidableEq, Repr, Inhabited

namespace Duration

/-- A number of milliseconds. -/
def ofMillis (n : Nat) : Duration := ⟨n * 1000000⟩

/-- A number of seconds. -/
def ofSecs (n : Nat) : Duration := ⟨n * 1000000000⟩

/-- The whole milliseconds after which a pause of this length is over. -/
def millisUp (d : Duration) : Nat :=
  if d.nanos % 1000000 = 0 then d.nanos / 1000000 else d.nanos / 1000000 + 1

/-- Drops trailing zeros. -/
def dropTrailingZeros (ds : List Char) : List Char :=
  (ds.reverse.dropWhile (· = '0')).reverse

/-- `n` in units of `10 ^ places`, without trailing zeros after the point. -/
def decimalText (n places : Nat) : String :=
  let whole := toString (n / Nat.pow 10 places)
  let digits := (toString (n % Nat.pow 10 places)).toList
  let fraction := dropTrailingZeros (List.replicate (places - digits.length) '0' ++ digits)
  if fraction = [] then whole else whole ++ "." ++ String.ofList fraction

/-- The duration as a text. -/
def describe (d : Duration) : String :=
  if 1000000000 ≤ d.nanos then decimalText d.nanos 9 ++ "s"
  else if 1000000 ≤ d.nanos then decimalText d.nanos 6 ++ "ms"
  else if 1000 ≤ d.nanos then decimalText d.nanos 3 ++ "µs"
  else toString d.nanos ++ "ns"

end Duration

end EcosystemSetup

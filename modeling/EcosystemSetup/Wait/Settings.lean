import EcosystemSetup.Decimal.Magnitude
import EcosystemSetup.Decimal.Reading
import EcosystemSetup.Decimal.Shortest
import EcosystemSetup.Duration

/-!
# Settings of a wait

How long a wait lasts, how often it reads a resource that is not there yet, how it spaces those
reads, and how long it rests before it opens a broken watch again. The settings come from the
environment, and a configuration may override two of them.

The pauses between reads are computed in doubles, and a duration has room for fewer than `2 ^ 64`
seconds. A program that comes to a longer pause has no duration for it and breaks off in the middle of
its wait, with no outcome at all. Settings with such a pause are left out: a `Settings` carries the proof
that none of its pauses is too long. Whatever keeps the longest pause to milliseconds in 64 bits has this
proof, so the environment always gives settings.
-/

namespace EcosystemSetup.Wait

/-! ## Pauses between reads -/

/-- A duration in seconds. -/
def secondsOf (d : Duration) : Float :=
  Float.ofNat (d.nanos / 1000000000) + Float.ofNat (d.nanos % 1000000000) / 1.0e9

/-- `num / den` rounded to the nearest natural number, a tie to the even one. -/
def roundHalfEven (num den : Nat) : Nat :=
  let q := num / den
  let r := num % den
  if 2 * r < den then q
  else if den < 2 * r then q + 1
  else if q % 2 = 0 then q else q + 1

/-- The duration of a number of seconds, to the nearest nanosecond. -/
def durationOf (seconds : Float) : Duration :=
  if seconds.toBits.toNat = 0 then ⟨0⟩
  else
    let b := Decimal.Binary.ofBits seconds.toBits
    let (num, den) := Decimal.twoPow b.exponent
    ⟨roundHalfEven (b.mantissa * num * 1000000000) den⟩

/-- The least number of seconds that no duration has room for. -/
def tooLong : Float := Float.ofNat Text.bound64

/-- The duration of a number of seconds that is not negative, if it has room for them. -/
def durationOf? (seconds : Float) : Option Duration :=
  if seconds < tooLong then some (durationOf seconds) else none

/-- A product of powers by repeated squaring, from the lowest bit of the exponent on. -/
def powerFrom (product base : Float) (exponent : Nat) : Float :=
  let product := if exponent % 2 = 1 then product * base else product
  if h : exponent / 2 = 0 then product else powerFrom product (base * base) (exponent / 2)
termination_by exponent

/-- The factor of growth; below one, or if it is no number, there is none. -/
def growth (factor : Float) : Float :=
  if factor ≥ 1.0 then factor else 1.0

/-- The smaller of two doubles. -/
def smaller (a b : Float) : Float :=
  if a ≤ b then a else b

/-- The largest exponent of the growth. -/
def maxExponent : Nat := 2147483647

/-- The pause after the `attempt`-th read, counted from one, if a duration has room for it. -/
def pause? (initial : Duration) (factor : Float) (longest : Duration) (attempt : Nat) :
    Option Duration :=
  if initial.nanos = 0 then some ⟨0⟩
  else
    let growth := powerFrom 1.0 (growth factor) (min (attempt - 1) maxExponent)
    durationOf? (smaller (secondsOf initial * growth) (secondsOf longest))

theorem tooLong_unpack :
    tooLong.toModel.unpack = .finite .positive 4503599627370496 12 (Nat.succ_pos _) := by
  rfl

/-- What is measured in milliseconds of 64 bits leaves room. -/
theorem secondsOf_lt_tooLong {d : Duration} (hd : d.nanos < Text.bound64 * 1000000) :
    secondsOf d < tooLong := by
  have hwhole : d.nanos / 1000000000 < 1 <<< 55 := by
    unfold Text.bound64 at hd
    omega
  have hbillionths : d.nanos % 1000000000 < 1 <<< 30 := by omega
  exact (Decimal.upTo_seconds hwhole hbillionths).lt (by decide) tooLong_unpack

theorem smaller_lt_tooLong {a b : Float} (hb : b < tooLong) : smaller a b < tooLong := by
  unfold smaller
  split
  · rename_i hle
    exact Decimal.double_lt_of_le_of_lt tooLong_unpack hle hb
  · exact hb

/-- So no pause is too long if the longest is measured so, however fast the pauses grow. -/
theorem isSome_pause? {longest : Duration} (hlongest : longest.nanos < Text.bound64 * 1000000)
    (initial : Duration) (factor : Float) (attempt : Nat) :
    (pause? initial factor longest attempt).isSome := by
  unfold pause?
  split
  · rfl
  · unfold durationOf?
    rw [if_pos (smaller_lt_tooLong (secondsOf_lt_tooLong hlongest))]
    rfl

/-- Half a second that grows too fast, and a longest pause that leaves no room to the nearest double. -/
example : pause? (.ofMillis 500) 1e300 (.ofSecs (Text.bound64 - 1)) 1 = some (.ofMillis 500) ∧
    pause? (.ofMillis 500) 1e300 (.ofSecs (Text.bound64 - 1)) 2 = none := by
  decide +kernel

/-! ## The settings -/

/-- The timing of a wait. -/
structure Settings where
  /-- The longest a wait may take. -/
  timeout : Duration := .ofSecs 900
  /-- The pause after the first read that finds nothing. -/
  initialBackoff : Duration := .ofMillis 500
  /-- The growth of that pause from one read to the next. -/
  backoffFactor : Float := 2.0
  /-- The longest pause between reads. -/
  maxBackoff : Duration := .ofSecs 10
  /-- How many reads may find nothing. -/
  maxReadAttempts : Nat := 10
  /-- The rest before a watch is opened again. -/
  retryPause : Duration := .ofSecs 2
  /-- A duration has room for every pause between reads. -/
  pausable : ∀ attempt, (pause? initialBackoff backoffFactor maxBackoff attempt).isSome := by
    exact EcosystemSetup.Wait.isSome_pause? (by decide) _ _

/-- The settings where nothing is set. -/
def Settings.standard : Settings := {}

instance : Inhabited Settings := ⟨.standard⟩

/-- The pause after the `attempt`-th read, counted from one. -/
def Settings.backoff (s : Settings) (attempt : Nat) : Duration :=
  (pause? s.initialBackoff s.backoffFactor s.maxBackoff attempt).get (s.pausable attempt)

/-! ## Sources -/

/-- The value of a variable, or the default where it is not set or denotes no number. -/
def numberOr (bound fallback : Nat) (value : Option String) : Nat :=
  ((value.bind fun s => Text.natural? bound s.toList)).getD fallback

theorem numberOr_lt {bound fallback : Nat} (h : fallback < bound) (value : Option String) :
    numberOr bound fallback value < bound := by
  unfold numberOr
  cases hread : value.bind fun s => Text.natural? bound s.toList with
  | none => exact h
  | some n =>
    obtain ⟨s, -, hn⟩ := Option.bind_eq_some_iff.mp hread
    exact (Text.natural?_eq_some_iff.mp hn).2.2.2

/-- The variables that the settings are read from. -/
def settingNames : List String :=
  ["CES_WAIT_TIMEOUT_SECS", "CES_WAIT_BACKOFF_INITIAL_MS", "CES_WAIT_BACKOFF_FACTOR",
    "CES_WAIT_BACKOFF_MAX_MS", "CES_WAIT_READ_ATTEMPTS", "CES_WAIT_RETRY_MS"]

/-- The settings that environment variables give, each with its default. -/
def Settings.ofEnvironment (lookup : String → Option String) : Settings :=
  { timeout := .ofSecs (numberOr Text.bound64 900 (lookup "CES_WAIT_TIMEOUT_SECS"))
    initialBackoff := .ofMillis (numberOr Text.bound64 500 (lookup "CES_WAIT_BACKOFF_INITIAL_MS"))
    backoffFactor :=
      growth (((lookup "CES_WAIT_BACKOFF_FACTOR").bind fun s => Decimal.read? s.toList).getD 2.0)
    maxBackoff := .ofMillis (numberOr Text.bound64 10000 (lookup "CES_WAIT_BACKOFF_MAX_MS"))
    maxReadAttempts :=
      max 1 (numberOr Text.bound32 10 (lookup "CES_WAIT_READ_ATTEMPTS"))
    retryPause := .ofMillis (numberOr Text.bound64 2000 (lookup "CES_WAIT_RETRY_MS"))
    pausable := isSome_pause?
      (Nat.mul_lt_mul_of_pos_right (numberOr_lt (by decide) _) (by decide)) _ _ }

/-- What a configuration sets for its own waits. -/
structure Overrides where
  timeoutSecs : Option Nat := none
  maxReadAttempts : Option Nat := none
  deriving DecidableEq, Repr, Inhabited

/-- The settings with the overrides in place; at least one read is made where their number is
overridden. -/
def Overrides.apply (o : Overrides) (s : Settings) : Settings :=
  { s with
    timeout := (o.timeoutSecs.map .ofSecs).getD s.timeout
    maxReadAttempts := (o.maxReadAttempts.map (max 1)).getD s.maxReadAttempts }

end EcosystemSetup.Wait

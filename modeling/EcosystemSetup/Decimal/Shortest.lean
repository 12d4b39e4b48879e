/-!
# Shortest decimals

The shortest decimal text of a double: of all decimals that read back as the double, one with the
fewest digits, and of those the nearest to its value. All arithmetic is exact, on natural numbers.
-/

namespace EcosystemSetup.Decimal

/-- A positive double as `mantissa · 2 ^ exponent`, with what its neighbours need: whether the gap
below it is half the gap above. -/
structure Binary where
  mantissa : Nat
  exponent : Int
  narrowBelow : Bool
  deriving Repr, DecidableEq

/-- The bit that the mantissa of all but the smallest doubles has besides its 52 stored ones. -/
def hiddenBit : Nat := 4503599627370496

/-- The parts of a positive finite double, from its bit pattern. -/
def Binary.ofBits (bits : UInt64) : Binary :=
  let fraction : Nat := bits.toNat % hiddenBit
  let biased : Nat := bits.toNat / hiddenBit % 2048
  if biased = 0 then ⟨fraction, -1074, false⟩
  else ⟨hiddenBit + fraction, (biased : Int) - 1075, fraction = 0 && 1 < biased⟩

/-- `digits · 10 ^ power` -/
structure Scaled where
  digits : Nat
  power : Int
  deriving Repr, DecidableEq

/-- `2 ^ e` as a fraction. -/
def twoPow (e : Int) : Nat × Nat :=
  if 0 ≤ e then (Nat.pow 2 e.toNat, 1) else (1, Nat.pow 2 (-e).toNat)

/-- `10 ^ e` as a fraction. -/
def tenPow (e : Int) : Nat × Nat :=
  if 0 ≤ e then (Nat.pow 10 e.toNat, 1) else (1, Nat.pow 10 (-e).toNat)

/-- Whether `digits · 10 ^ power` reads back as the double: it lies in the interval of reals that
round to it, whose ends count exactly if the mantissa is even. -/
def Binary.reads (b : Binary) (d : Scaled) : Bool :=
  -- all compared in units of a quarter of the last binary place
  let (tn, td) := tenPow d.power
  let (bn, bd) := twoPow (b.exponent - 2)
  let value := d.digits * tn * bd
  let unit := td * bn
  let low := (4 * b.mantissa - if b.narrowBelow then 1 else 2) * unit
  let high := (4 * b.mantissa + 2) * unit
  if b.mantissa % 2 = 0 then low ≤ value && value ≤ high else low < value && value < high

/-- The distance of `digits · 10 ^ power` from the double, in a unit that depends on `power` only. -/
def Binary.distance (b : Binary) (d : Scaled) : Nat :=
  let (tn, td) := tenPow d.power
  let (bn, bd) := twoPow b.exponent
  let value := d.digits * tn * bd
  let exact := b.mantissa * td * bn
  if value ≤ exact then exact - value else value - exact

/-- The nearer of the double's two neighbours on the grid of multiples of `10 ^ power` that read
back, if one does. A tie goes to the even digit. -/
def Binary.onGrid (b : Binary) (power : Int) : Option Scaled :=
  let (tn, td) := tenPow power
  let (bn, bd) := twoPow b.exponent
  let below := b.mantissa * bn * td / (bd * tn)
  let lo : Scaled := ⟨below, power⟩
  let hi : Scaled := ⟨below + 1, power⟩
  match b.reads lo && below ≠ 0, b.reads hi with
  | true, true =>
    let dl := b.distance lo
    let dh := b.distance hi
    if dl < dh || (dl = dh && below % 2 = 0) then some lo else some hi
  | true, false => some lo
  | false, true => some hi
  | false, false => none

/-- The first grid with a hit, from the coarsest on. -/
def Binary.search (b : Binary) (power : Int) : Nat → Option Scaled
  | 0 => none
  | fuel + 1 =>
    match b.onGrid power with
    | some d => some d
    | none => b.search (power - 1) fuel

/-- Removes trailing zeros. -/
def Scaled.trimmed (d : Scaled) : Nat → Scaled
  | 0 => d
  | fuel + 1 =>
    if d.digits ≠ 0 && d.digits % 10 = 0 then Scaled.trimmed ⟨d.digits / 10, d.power + 1⟩ fuel
    else d

/-- The shortest decimal that reads back as a positive finite double, without trailing zeros. The
search starts above the double's magnitude and ends at the seventeenth digit. -/
def shortest (bits : UInt64) : Scaled :=
  let b := Binary.ofBits bits
  -- log10 of the value lies below this bound
  let bits2 : Int := b.exponent + (Nat.log2 b.mantissa + 1 : Nat)
  let top : Int := bits2 * 30103 / 100000 + 2
  match b.search top 24 with
  | some d => d.trimmed 400
  | none => ⟨b.mantissa, 0⟩

end EcosystemSetup.Decimal

import EcosystemSetup.Decimal.Shortest

/-!
# Doubles as texts

Writing a double and reading one. A written double always shows at least one digit after the point
or an exponent: digits are written positionally while the point stands at most sixteen places to the
right or four to the left of the first digit, and with an exponent otherwise.
-/

namespace EcosystemSetup.Decimal

/-- Where positional notation ends. -/
structure Layout where
  /-- The largest number of digits before the point. -/
  wholeDigits : Int
  /-- The largest number of zeros between the point and the first digit. -/
  leadingZeros : Int

/-- The layout of numbers in documents. -/
def documentLayout : Layout := ⟨16, 4⟩

/-- The text of `digits · 10 ^ power`. -/
def Layout.render (l : Layout) (d : Scaled) : String :=
  let ds := Nat.toDigits 10 d.digits
  let n : Int := ds.length
  let point : Int := n + d.power
  if 0 ≤ d.power && point ≤ l.wholeDigits then
    String.ofList (ds ++ List.replicate d.power.toNat '0' ++ ['.', '0'])
  else if 0 < point && point ≤ l.wholeDigits then
    String.ofList (ds.take point.toNat ++ '.' :: ds.drop point.toNat)
  else if -l.leadingZeros - 1 < point && point ≤ 0 then
    String.ofList (['0', '.'] ++ List.replicate (-point).toNat '0' ++ ds)
  else
    let exponent := toString (point - 1)
    match ds with
    | [c] => String.ofList [c, 'e'] ++ exponent
    | c :: rest => String.ofList (c :: '.' :: rest) ++ "e" ++ exponent
    | [] => "0.0"

/-- The sign bit. -/
def signBit : UInt64 := 0x8000000000000000

/-- Whether a bit pattern is that of a finite double. -/
def isFinite (bits : UInt64) : Bool :=
  bits.toNat / hiddenBit % 2048 ≠ 2047

/-- The text of a finite double. -/
def renderDouble (bits : UInt64) : String :=
  let magnitude := bits &&& ~~~signBit
  let sign := if bits &&& signBit = 0 then "" else "-"
  if magnitude = 0 then sign ++ "0.0"
  else sign ++ documentLayout.render (shortest magnitude)

/-- A significand scaled by a power of ten in double arithmetic, one rounding for each factor;
`none` beyond the largest double. Powers below the smallest reach zero in steps of `10 ^ -308`. -/
def scaleRounding (significand : Nat) (exponent : Int) : Option Float :=
  go (Float.ofNat significand) exponent (exponent.natAbs / 308 + 1)
where
  go (f : Float) (e : Int) : Nat → Option Float
    | 0 => some f
    | fuel + 1 =>
      if e.natAbs ≤ 308 then
        let p := Float.ofScientific 1 false e.natAbs
        if 0 ≤ e then
          let r := f * p
          if isFinite r.toBits then some r else none
        else some (f / p)
      else if f == 0.0 then some f
      else if 0 ≤ e then none
      else go (f / Float.ofScientific 1 false 308) (e + 308) fuel

end EcosystemSetup.Decimal

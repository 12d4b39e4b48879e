import EcosystemSetup.Text.Numeral

/-!
# Reading doubles

The double nearest to a decimal numeral: an optional sign, digits with an optional point among or
beside them, and an optional exponent; or one of the words for infinity and for what is no number.
-/

namespace EcosystemSetup.Decimal

open Text

/-- The double nearest to `digits · 10 ^ exponent`. Exponents far outside the range of doubles are
decided without computing the power. -/
def nearest (digits : List Char) (exponent : Int) : Float :=
  let ds := digits.dropWhile (· = '0')
  let magnitude : Int := ds.length + exponent
  if ds = [] then 0.0
  else if 400 < magnitude then 1.0 / 0.0
  else if magnitude < -400 then 0.0
  else
    let n := digitsValue ds
    if 0 ≤ exponent then Float.ofScientific (n * Nat.pow 10 exponent.toNat) false 0
    else Float.ofScientific n true (-exponent).toNat

/-- The exponent of a numeral after its mantissa: none, or a letter, an optional sign and digits. -/
def exponent? : List Char → Option Int
  | [] => some 0
  | e :: rest =>
    if e = 'e' || e = 'E' then
      let (negative, ds) := match rest with
        | '-' :: r => (true, r)
        | '+' :: r => (false, r)
        | r => (false, r)
      if ds ≠ [] && ds.all isDigit then
        some (if negative then -(digitsValue ds : Int) else digitsValue ds)
      else none
    else none

/-- A numeral without a sign. -/
def unsignedNumeral? (cs : List Char) : Option Float :=
  let whole := cs.takeWhile isDigit
  let (fraction, rest) := match cs.dropWhile isDigit with
    | '.' :: r => (r.takeWhile isDigit, r.dropWhile isDigit)
    | r => ([], r)
  if whole ++ fraction = [] then none
  else (exponent? rest).map fun e => nearest (whole ++ fraction) (e - fraction.length)

/-- A word for a double, in any mix of cases. -/
def word? (cs : List Char) : Option Float :=
  match String.ofList (cs.map Char.toLower) with
  | "inf" => some (1.0 / 0.0)
  | "infinity" => some (1.0 / 0.0)
  | "nan" => some (0.0 / 0.0)
  | _ => none

/-- The double that a text denotes. -/
def read? (cs : List Char) : Option Float :=
  let (negative, body) := match cs with
    | '-' :: r => (true, r)
    | '+' :: r => (false, r)
    | r => (false, r)
  let magnitude := (unsignedNumeral? body).or (word? body)
  magnitude.map fun f => if negative then -f else f

end EcosystemSetup.Decimal

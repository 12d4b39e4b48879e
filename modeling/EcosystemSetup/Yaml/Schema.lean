import EcosystemSetup.Decimal.Double
import EcosystemSetup.Decimal.Reading
import EcosystemSetup.Text.Numeral
import EcosystemSetup.Yaml.Scalar

/-!
# What plain scalars mean

The core schema of YAML 1.2: which texts denote null, a truth value, an integer or a double. Integers
may be written in hexadecimal, octal and binary; digits after a leading zero are no number.
-/

namespace EcosystemSetup.Yaml

open Text

/-- A word for null. -/
def isNull (s : String) : Bool :=
  ["null", "Null", "NULL", "~"].contains s

/-- The truth value of a text. -/
def flag? (s : String) : Option Bool :=
  if ["true", "True", "TRUE"].contains s then some true
  else if ["false", "False", "FALSE"].contains s then some false
  else none

/-- The value of a digit in a base. -/
def digitIn? (base : Nat) (c : Char) : Option Nat :=
  (hexDigit? c).filter (· < base)

/-- The value of one or more digits in a base. -/
def digitsIn? (base : Nat) (cs : List Char) : Option Nat :=
  if cs = [] then none
  else (cs.mapM (digitIn? base)).map fun ds => ds.foldl (fun n d => base * n + d) 0

/-- Whether a text is a zero and more digits, after an optional sign. -/
def isPadded (cs : List Char) : Bool :=
  let ds := match cs with
    | '-' :: rest => rest
    | '+' :: rest => rest
    | rest => rest
  1 < ds.length && ds.head? = some '0' && ds.all isDigit

/-- The value of a text that marks its base. -/
def basedNatural? : List Char → Option Nat
  | '0' :: 'x' :: ds => digitsIn? 16 ds
  | '0' :: 'o' :: ds => digitsIn? 8 ds
  | '0' :: 'b' :: ds => digitsIn? 2 ds
  | _ => none

/-- A number without a minus sign. -/
def natural? (cs : List Char) : Option Nat :=
  let body := match cs with
    | '+' :: rest => rest
    | rest => rest
  (basedNatural? body).or (if isPadded cs then none else digitsIn? 10 body)

/-- An integer. -/
def integer? : List Char → Option Int
  | '-' :: cs =>
    (((basedNatural? cs).or (if isPadded cs then none else digitsIn? 10 cs))).map fun n => -(n : Int)
  | cs => (natural? cs).map fun n => (n : Int)

/-- The words for infinity and for what is no number. -/
def isSpecial (s : String) : Bool :=
  [".inf", ".Inf", ".INF", "+.inf", "+.Inf", "+.INF", "-.inf", "-.Inf", "-.INF", ".nan", ".NaN",
    ".NAN"].contains s

/-- A finite double. -/
def double? (cs : List Char) : Option Float :=
  let body := match cs with
    | '+' :: rest => if rest.head? = some '+' || rest.head? = some '-' then none else some rest
    | rest => some rest
  (body.bind Decimal.read?).filter fun f => Decimal.isFinite f.toBits

end EcosystemSetup.Yaml

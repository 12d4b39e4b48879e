import EcosystemSetup.Text.Numeral

/-!
# Maturity of API versions

Versions of an API are named `v` and a number, with `alpha` or `beta` and perhaps another number
behind it for those that are not stable. Where a server does not prefer a version, the most mature one
is taken: stable before beta before alpha, and of these the highest number; versions with other names
come last, in the order of their names.
-/

namespace EcosystemSetup.Server

/-- How mature a version is. -/
inductive Maturity where
  | stable (major : Nat)
  | beta (major : Nat) (minor : Option Nat)
  | alpha (major : Nat) (minor : Option Nat)
  | other (name : String)
  deriving DecidableEq, Repr, Inhabited

namespace Maturity

/-- The number behind `alpha` or `beta`; the inner `none` if there is none. -/
def minorNumber? (digits : List Char) : Option (Option Nat) :=
  if digits = [] then some none else (Text.natural? Text.bound32 digits).map some

/-- The maturity that a version's name after `v` tells. -/
def read? (cs : List Char) : Option Maturity := do
  let digits := cs.takeWhile Text.isDigit
  let rest := cs.dropWhile Text.isDigit
  let major ← Text.natural? Text.bound32 digits
  match rest with
  | [] => return .stable major
  | 'a' :: 'l' :: 'p' :: 'h' :: 'a' :: minor => return .alpha major (← minorNumber? minor)
  | 'b' :: 'e' :: 't' :: 'a' :: minor => return .beta major (← minorNumber? minor)
  | _ => none

/-- The maturity of a version by its name. -/
def ofName (name : String) : Maturity :=
  let known := match name.toList with
    | 'v' :: cs => read? cs
    | _ => none
  known.getD (.other name)

/-- Class, number and second number of a version; a missing second number comes before all. -/
def rank : Maturity → Nat × Nat × Nat
  | .stable major => (3, major, 0)
  | .beta major minor => (2, major, (minor.map (· + 1)).getD 0)
  | .alpha major minor => (1, major, (minor.map (· + 1)).getD 0)
  | .other _ => (0, 0, 0)

/-- Whether a version is strictly more mature than another. -/
def exceeds (a b : Maturity) : Bool :=
  match a, b with
  | .other x, .other y => decide (x < y)
  | a, b =>
    let (c, m, n) := a.rank
    let (d, k, l) := b.rank
    d < c || (d == c && (k < m || (k == m && l < n)))

end Maturity

end EcosystemSetup.Server

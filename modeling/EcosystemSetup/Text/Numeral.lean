/-!
# Numerals

Reading natural numbers: an optional plus sign and one or more ASCII digits, with a value below a
bound. Leading zeros are allowed; blanks, underscores and other scripts' digits are not.
-/

namespace EcosystemSetup.Text

/-- An ASCII digit. -/
def isDigit (c : Char) : Bool :=
  '0'.toNat ≤ c.toNat && c.toNat ≤ '9'.toNat

/-- The value of an ASCII digit. -/
def digitValue (c : Char) : Nat :=
  c.toNat - '0'.toNat

/-- The value of a list of digits, most significant first. -/
def digitsValue (ds : List Char) : Nat :=
  ds.foldl (fun n d => 10 * n + digitValue d) 0

/-- The digits of a numeral: what follows its optional plus sign. -/
def unsignedPart : List Char → List Char
  | '+' :: r => r
  | cs => cs

/-- The value of a numeral below `bound`. -/
def natural? (bound : Nat) (cs : List Char) : Option Nat :=
  let ds := unsignedPart cs
  if ds ≠ [] ∧ ds.all isDigit ∧ digitsValue ds < bound then some (digitsValue ds) else none

/-- One more than the largest 64-bit number. -/
def bound64 : Nat := 18446744073709551616

/-- One more than the largest 32-bit number. -/
def bound32 : Nat := 4294967296

/-- Whether an integer fits a signed number of so many bits. -/
def fitsSigned (bits : Nat) (n : Int) : Bool :=
  let half : Int := Nat.pow 2 (bits - 1)
  n < half && -half ≤ n

/-- A numeral is read exactly if it is an optional plus sign, then digits, with a value in range. -/
theorem natural?_eq_some_iff {bound : Nat} {cs : List Char} {n : Nat} :
    natural? bound cs = some n ↔
      unsignedPart cs ≠ [] ∧ (unsignedPart cs).all isDigit = true ∧
        digitsValue (unsignedPart cs) = n ∧ n < bound := by
  simp only [natural?]
  split
  · rename_i h
    simp only [Option.some.injEq]
    exact ⟨fun e => ⟨h.1, h.2.1, e, e ▸ h.2.2⟩, fun e => e.2.2.1⟩
  · rename_i h
    simp only [reduceCtorEq, false_iff]
    rintro ⟨h₁, h₂, h₃, h₄⟩
    exact h ⟨h₁, h₂, h₃ ▸ h₄⟩

/-- A number is written with digits. -/
theorem isDigit_of_mem_toDigits {n : Nat} {c : Char} (hc : c ∈ Nat.toDigits 10 n) :
    isDigit c = true := by
  have hdigit : c.isDigit = true := Nat.isDigit_of_mem_toDigits (by decide) (by decide) hc
  simp only [Char.isDigit, Bool.and_eq_true, decide_eq_true_eq] at hdigit
  unfold isDigit
  simp only [Bool.and_eq_true, decide_eq_true_eq]
  exact ⟨hdigit.1, hdigit.2⟩

end EcosystemSetup.Text

import EcosystemSetup.Assoc

/-!
# JSON values

The values that documents describe: numbers are integers of 64 bits or doubles, a record lists its
fields in ascending key order with no key twice.
-/

namespace EcosystemSetup

/-- A number: an integer, or a double by its bit pattern. -/
inductive Number where
  | integer (value : Int)
  | double (bits : UInt64)
  deriving DecidableEq, Repr, Inhabited

/-- A JSON value. -/
inductive Json where
  | null
  | bool (value : Bool)
  | number (value : Number)
  | text (value : String)
  | list (items : List Json)
  | record (fields : List (String × Json))
  deriving BEq, Repr, Inhabited

namespace Json

/-- The record of a list of fields in any order; the last of two equal keys counts. -/
def ofFields (fields : List (String × Json)) : Json :=
  .record (Assoc.ofList fields)

/-- An integer as a value. -/
def ofInt (n : Int) : Json := .number (.integer n)

/-- A natural number as a value. -/
def ofNat (n : Nat) : Json := .number (.integer n)

/-- A text or null. -/
def ofText? : Option String → Json
  | some s => .text s
  | none => .null

/-- A list of texts. -/
def ofTexts (ss : List String) : Json := .list (ss.map .text)

/-- The value of a field, if this is a record that has it. -/
def field? (key : String) : Json → Option Json
  | .record fields => Assoc.get? key fields
  | _ => none

end Json

end EcosystemSetup

import EcosystemSetup.Document.Basic
import EcosystemSetup.Text.Numeral

/-!
# Decoding documents

The rules that all decoders share. A record with fixed fields may be written as a record or as a list
of its fields in their order; unknown keys are skipped, a known key may occur once, and a field may
be required, optional or defaulted. Main definitions: `Document.fields?`, `Fields.required` and
`Fields.defaulted`.
-/

namespace EcosystemSetup

/-- The documents found for a record's fields. -/
structure Fields where
  /-- The document of a field, if it was written. -/
  find : String → Option Document
  /-- Whether the record was written as a list, where only trailing defaulted fields may be
  missing. -/
  positional : Bool

namespace Document

/-- As a text. -/
def text? : Document → Option String
  | .scalar s => s.text
  | .marked _ body => body.text?
  | _ => none

/-- As a truth value. -/
def flag? : Document → Option Bool
  | .scalar s => s.flag
  | .marked _ body => body.flag?
  | _ => none

/-- As a natural number below `bound`. -/
def unsigned? (bound : Nat) : Document → Option Nat
  | .scalar s => s.unsigned.filter (· < bound)
  | .marked _ body => body.unsigned? bound
  | _ => none

/-- As an integer of 32 bits. -/
def signed32? : Document → Option Int
  | .scalar s => s.signed.filter (Text.fitsSigned 32)
  | .marked _ body => body.signed32?
  | _ => none

/-- As one of an enumeration's names. A tagged node names its tag, if nothing follows it. -/
def variant? : Document → Option String
  | .scalar s => s.variant
  | .record _ v => v
  | .marked tag (.scalar s) => if s.absent then some tag else none
  | _ => none

/-- As an optional field: the inner `none` when it counts as absent. -/
def optional? {α : Type} (decode : Document → Option α) : Document → Option (Option α)
  | .scalar s => if s.absent then some none else (decode (.scalar s)).map some
  | d => (decode d).map some

/-- The items of a list. -/
def items? : Document → Option (List Document)
  | .scalar s => if s.empty then some [] else none
  | .list items => some items
  | .marked _ body => body.items?
  | _ => none

/-- A list whose items all decode. -/
def list? {α : Type} (decode : Document → Option α) (d : Document) : Option (List α) :=
  d.items?.bind fun items => items.mapM decode

/-- The first document written under a key. -/
def entry? (key : String) (entries : List (Option String × Document)) : Option Document :=
  (entries.find? fun e => e.1 == some key).map Prod.snd

/-- Every key is a text, and no known key occurs twice. -/
def keysFit (names : List String) (entries : List (Option String × Document)) : Bool :=
  entries.all (fun e => e.1.isSome) &&
    names.all fun n => (entries.filter fun e => e.1 == some n).length ≤ 1

/-- The fields of a record with the given field names. -/
def fields? (names : List String) : Document → Option Fields
  | .scalar s => if s.empty then some ⟨fun _ => none, false⟩ else none
  | .record entries _ =>
    if keysFit names entries then some ⟨fun n => entry? n entries, false⟩ else none
  | .list items =>
    if items.length ≤ names.length then
      some ⟨fun n => (names.zip items).lookup n, true⟩
    else none
  | .marked _ body => body.fields? names
  | .unreadable => none

/-- As a map from texts to texts. -/
def textMap? : Document → Option (List (String × Document))
  | .scalar s => if s.empty then some [] else none
  | .record entries _ => entries.mapM fun e => e.1.map fun k => (k, e.2)
  | .marked _ body => body.textMap?
  | _ => none

end Document

namespace Fields

/-- A field that must be written. -/
def required {α : Type} (fs : Fields) (name : String) (decode : Document → Option α) : Option α :=
  (fs.find name).bind decode

/-- A field with a default. -/
def defaulted {α : Type} (fs : Fields) (name : String) (fallback : α)
    (decode : Document → Option α) : Option α :=
  match fs.find name with
  | some d => decode d
  | none => some fallback

/-- An optional field, absent by default. -/
def optional {α : Type} (fs : Fields) (name : String) (decode : Document → Option α) :
    Option (Option α) :=
  fs.defaulted name none (Document.optional? decode)

/-- An optional field that a list of fields must hold. -/
def optionalInRecord {α : Type} (fs : Fields) (name : String) (decode : Document → Option α) :
    Option (Option α) :=
  if fs.positional then fs.required name (Document.optional? decode) else fs.optional name decode

end Fields

end EcosystemSetup

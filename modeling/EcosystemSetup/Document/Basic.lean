import EcosystemSetup.Json.Basic

/-!
# Documents

A document is what a reader of JSON or YAML text hands to the decoders: a tree whose scalars are
known by what each kind of field makes of them, and whose records still list every key as written,
repeated ones included. Whether a repeated key, a number where a text belongs or a list where a
record belongs is an error is for the decoders to say.

Main definitions: `Document`, its value as free-form JSON (`Document.value?`), and the document of a
JSON value (`Document.ofJson`).
-/

namespace EcosystemSetup

/-- A scalar, by what each kind of field reads from it. -/
structure Scalar where
  /-- As a text. -/
  text : Option String := none
  /-- As a truth value. -/
  flag : Option Bool := none
  /-- As a natural number of 64 bits. -/
  unsigned : Option Nat := none
  /-- As an integer. -/
  signed : Option Int := none
  /-- As one of an enumeration's names. -/
  variant : Option String := none
  /-- As a free-form value. -/
  value : Option Json := none
  /-- Whether an optional field counts as absent. -/
  absent : Bool := false
  /-- Whether nothing was written, so that it stands for an empty list or record. -/
  empty : Bool := false
  deriving Inhabited

/-- The tree a decoder reads. -/
inductive Document where
  | scalar (s : Scalar)
  | list (items : List Document)
  /-- A record's entries as written; a key that is no text is `none`. A record may also stand for an
  enumeration's name: `variant`. -/
  | record (entries : List (Option String × Document)) (variant : Option String)
  /-- A node with a tag of the application's own. -/
  | marked (tag : String) (body : Document)
  /-- A node that is well formed but denotes nothing, such as half a surrogate pair, a number beyond
  the doubles, or a nesting too deep: it may be skipped but not read. -/
  | unreadable
  deriving Inhabited

namespace Document

/-- The scalar of a JSON value that is neither a list nor a record. -/
def scalarOfJson : Json → Scalar
  | .null => { value := some .null, absent := true }
  | .bool b => { flag := some b, value := some (.bool b) }
  | .number (.integer n) =>
    { unsigned := if 0 ≤ n then some n.toNat else none, signed := some n,
      value := some (.number (.integer n)) }
  | .number (.double bits) => { value := some (.number (.double bits)) }
  | .text s => { text := some s, variant := some s, value := some (.text s) }
  | .list _ => {}
  | .record _ => {}

/-- A record of the form `name: null` stands for an enumeration's name. -/
def variantOfFields : List (String × Json) → Option String
  | [(k, .null)] => some k
  | _ => none

mutual

/-- A JSON value as a document. -/
def ofJson : Json → Document
  | .list items => .list (ofItems items)
  | .record fields => .record (ofFields fields) (variantOfFields fields)
  | .null => .scalar (scalarOfJson .null)
  | .bool b => .scalar (scalarOfJson (.bool b))
  | .number n => .scalar (scalarOfJson (.number n))
  | .text s => .scalar (scalarOfJson (.text s))

/-- The documents of a list of values. -/
def ofItems : List Json → List Document
  | [] => []
  | v :: rest => ofJson v :: ofItems rest

/-- The entries of a record. -/
def ofFields : List (String × Json) → List (Option String × Document)
  | [] => []
  | (k, v) :: rest => (some k, ofJson v) :: ofFields rest

end

mutual

/-- The free-form value of a document; of repeated keys the last one counts. -/
def value? : Document → Option Json
  | .scalar s => s.value
  | .list items => (itemValues? items).map .list
  | .record entries _ => (fieldValues? entries).map Json.ofFields
  | .marked _ _ => none
  | .unreadable => none

/-- The values of all items. -/
def itemValues? : List Document → Option (List Json)
  | [] => some []
  | d :: rest =>
    match value? d, itemValues? rest with
    | some v, some vs => some (v :: vs)
    | _, _ => none

/-- The values of all entries with their keys. -/
def fieldValues? : List (Option String × Document) → Option (List (String × Json))
  | [] => some []
  | (some k, d) :: rest =>
    match value? d, fieldValues? rest with
    | some v, some vs => some ((k, v) :: vs)
    | _, _ => none
  | (none, _) :: _ => none

end

end Document

end EcosystemSetup

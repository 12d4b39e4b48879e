import EcosystemSetup.Document.Basic
import EcosystemSetup.Yaml.Node
import EcosystemSetup.Yaml.Schema

/-!
# Reading YAML text

The documents of YAML texts. What a plain scalar is read as depends on the field: a text keeps it as it
is written, a number or a truth value must be written as one. Quoted text is neither. Tags of the
schema fix what a free-form value is; a tag of the application's own marks its node. Collections may
nest to a depth of 128.
-/

namespace EcosystemSetup.Document

open Yaml

/-- The tag of the schema with a name. -/
def schemaTag (name : String) : String :=
  "tag:yaml.org,2002:" ++ name

/-- The name of a tag of the application's own. -/
def ownTag? (tag : Option String) : Option String :=
  match tag.map String.toList with
  | some ('!' :: []) => some "!"
  | some ('!' :: rest) => some (String.ofList rest)
  | _ => none

/-- The number that an integer is as a free-form value: integers of 64 bits only; those of up to 128
bits have none. -/
def integerValue? (n : Int) : Option (Option Json) :=
  if Text.fitsSigned 64 n || (0 ≤ n && n < Text.bound64) then some (some (Json.ofInt n))
  else if Text.fitsSigned 128 n || (0 ≤ n && n < Nat.pow 2 128) then some none
  else none

/-- The value of a text that denotes an integer; the inner `none` if it has none. -/
def integerOf? (s : String) : Option (Option Json) :=
  (Yaml.integer? s.toList).bind integerValue?

/-- The value of a text that denotes a double; what is not finite is null. -/
def doubleOf? (s : String) : Option Json :=
  if isSpecial s then some .null
  else (Yaml.double? s.toList).map fun f => .number (.double f.toBits)

/-- The free-form value of a plain scalar. -/
def plainValue? (s : String) : Option Json :=
  if s = "" || isNull s then some .null
  else
    match Yaml.flag? s with
    | some b => some (.bool b)
    | none =>
      match integerOf? s with
      | some value => value
      | none =>
        if isPadded s.toList then some (.text s) else (doubleOf? s).or (some (.text s))

/-- The free-form value of a scalar. -/
def scalarValue? (tag : Option String) (style : Style) (s : String) : Option Json :=
  match tag with
  | some t =>
    if t = schemaTag "bool" then (Yaml.flag? s).map .bool
    else if t = schemaTag "int" then (integerOf? s).join
    else if t = schemaTag "float" then doubleOf? s
    else if t = schemaTag "null" then (if isNull s then some .null else none)
    else some (.text s)
  | none => if style = .plain then plainValue? s else some (.text s)

/-- A scalar, by what each kind of field reads from it. -/
def yamlScalar (tag : Option String) (style : Style) (s : String) : Scalar :=
  let plain := style = .plain
  let typed (name : String) : Bool :=
    plain || (style = .literal && tag = some (schemaTag name))
  let number := Yaml.integer? s.toList
  { text := some s
    flag := if typed "bool" then Yaml.flag? s else none
    unsigned := if typed "int" then Yaml.natural? s.toList else none
    signed := if typed "int" then number.filter (Text.fitsSigned 64) else none
    variant := some s
    value := scalarValue? tag style s
    absent := plain &&
      match tag with
      | none => s = "" || isNull s
      | some t => t = schemaTag "null" && isNull s
    empty := plain && s = "" }

/-- Marks a node with a tag of the application's own. -/
def markedBy (tag : Option String) (d : Document) : Document :=
  match ownTag? tag with
  | some name => .marked name d
  | none => d

mutual

/-- The document of a node, with `depth` more levels of nesting readable. -/
def ofNode (depth : Nat) : Node → Document
  | .scalar tag style s =>
    match ownTag? tag with
    | some name => .marked name (.scalar (yamlScalar none style s))
    | none => .scalar (yamlScalar tag style s)
  | .sequence tag items =>
    if depth = 0 then .unreadable else markedBy tag (.list (ofNodes (depth - 1) items))
  | .mapping tag entries =>
    if depth = 0 then .unreadable
    else markedBy tag (.record (ofEntries (depth - 1) entries) none)
  | .unfinished => .unreadable

/-- The documents of a sequence's items. -/
def ofNodes (depth : Nat) : List Node → List Document
  | [] => []
  | n :: rest => ofNode depth n :: ofNodes depth rest

/-- The entries of a mapping; a key must be a scalar to be a text. -/
def ofEntries (depth : Nat) : List (Node × Node) → List (Option String × Document)
  | [] => []
  | (k, v) :: rest =>
    (match k with
      | .scalar _ _ s => some s
      | _ => none, ofNode depth v) :: ofEntries depth rest

end

/-- How deep collections may nest. -/
def yamlDepth : Nat := 128

/-- The document of an empty text: nothing is written, and nothing is missing. -/
def ofNothing : Document :=
  .scalar { absent := true, empty := true }

/-- The document of a YAML text. -/
def ofYamlText (s : String) : Option Document :=
  (Yaml.parse? s).map fun node =>
    match node with
    | some n => ofNode yamlDepth n
    | none => ofNothing

end EcosystemSetup.Document

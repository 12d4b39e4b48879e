import EcosystemSetup.Cluster.KindName
import EcosystemSetup.Document.Decode
import EcosystemSetup.Phase
import EcosystemSetup.Text.Quoted

/-!
# Patch directives

A directive lists changes to one named resource and the phase after which they apply. Directives are
checked before anything reaches the cluster, and encoded as a JSON patch (RFC 6902).
-/

namespace EcosystemSetup.Patch

/-- What a change does at its path. -/
inductive ChangeKind where
  | add
  | remove
  | replace
  deriving DecidableEq, Repr, Inhabited

/-- The name of a kind of change. -/
def ChangeKind.name : ChangeKind → String
  | .add => "add"
  | .remove => "remove"
  | .replace => "replace"

/-- The kind of change of a name. -/
def ChangeKind.ofName? : String → Option ChangeKind
  | "add" => some .add
  | "remove" => some .remove
  | "replace" => some .replace
  | _ => none

/-- A change at a path, as configured: whether it has a value is not checked yet. -/
structure Change where
  kind : ChangeKind
  path : String
  value : Option Json := none
  deriving BEq, Repr, Inhabited

/-- The resource that a directive changes. -/
structure ResourceName where
  apiVersion : String
  kind : String
  name : String
  deriving DecidableEq, Repr, Inhabited

/-- The resource as a text. -/
def ResourceName.describe (r : ResourceName) : String :=
  r.apiVersion ++ "/" ++ r.kind ++ " " ++ r.name

/-- The full name of the resource's kind. -/
def ResourceName.kindName (r : ResourceName) : Cluster.KindName :=
  .ofApiVersion r.apiVersion r.kind

/-- Changes to one resource, for one phase. -/
structure Directive where
  phase : Phase
  resource : ResourceName
  changes : List Change := []
  deriving BEq, Repr, Inhabited

/-! ## Validation -/

/-- What is wrong with a directive; changes are counted from zero. -/
inductive Defect where
  | unnamedResource
  | relativePath (index : Nat) (path : String)
  | missingValue (index : Nat) (kind : ChangeKind) (path : String)
  | surplusValue (index : Nat) (path : String)
  deriving DecidableEq, Repr

/-- The wording of a defect. -/
def Defect.reason : Defect → String
  | .unnamedResource => "apiVersion, kind and name are required"
  | .relativePath i path =>
    "patch #" ++ toString i ++ ": path " ++ Text.quote path ++ " must start with '/'"
  | .missingValue i kind path =>
    "patch #" ++ toString i ++ ": " ++ kind.name ++ " on " ++ path ++ " needs a value"
  | .surplusValue i path =>
    "patch #" ++ toString i ++ ": remove on " ++ path ++ " must not carry a value"

/-- Whether a value is there and not null. -/
def hasValue : Option Json → Bool
  | none => false
  | some .null => false
  | some _ => true

/-- What is wrong with the change at an index. -/
def Change.defect? (index : Nat) (c : Change) : Option Defect :=
  if c.path.toList.head? ≠ some '/' then some (.relativePath index c.path)
  else
    match c.kind with
    | .remove => if c.value.isSome then some (.surplusValue index c.path) else none
    | kind => if hasValue c.value then none else some (.missingValue index kind c.path)

/-- The first defect among changes that are counted from `index`. -/
def firstDefect? (index : Nat) : List Change → Option Defect
  | [] => none
  | c :: rest =>
    match c.defect? index with
    | some d => some d
    | none => firstDefect? (index + 1) rest

/-- What is wrong with a directive. -/
def Directive.defect? (d : Directive) : Option Defect :=
  if d.resource.apiVersion = "" ∨ d.resource.kind = "" ∨ d.resource.name = "" then
    some .unnamedResource
  else firstDefect? 0 d.changes

/-- The wording of a directive's defect. -/
def invalidMessage (resource : ResourceName) (defect : Defect) : String :=
  "invalid patch for " ++ resource.describe ++ ": " ++ defect.reason

/-! ## The patch document -/

/-- An operation of a JSON patch. -/
inductive Operation where
  | add (path : String) (value : Json)
  | remove (path : String)
  | replace (path : String) (value : Json)
  | move (source path : String)
  | copy (source path : String)
  | test (path : String) (value : Json)
  deriving BEq, Repr, Inhabited

/-- The operation as JSON. -/
def Operation.encode : Operation → Json
  | .add path value =>
    .record [("op", .text "add"), ("path", .text path), ("value", value)]
  | .remove path => .record [("op", .text "remove"), ("path", .text path)]
  | .replace path value =>
    .record [("op", .text "replace"), ("path", .text path), ("value", value)]
  | .move source path =>
    .record [("from", .text source), ("op", .text "move"), ("path", .text path)]
  | .copy source path =>
    .record [("from", .text source), ("op", .text "copy"), ("path", .text path)]
  | .test path value =>
    .record [("op", .text "test"), ("path", .text path), ("value", value)]

/-- The operation of a change; an addition or a replacement needs a value, null included. -/
def Change.operation? (c : Change) : Option Operation :=
  match c.kind, c.value with
  | .add, some v => some (.add c.path v)
  | .replace, some v => some (.replace c.path v)
  | .remove, _ => some (.remove c.path)
  | _, none => none

/-- The JSON patch of a directive. -/
def Directive.operations? (d : Directive) : Option (List Operation) :=
  d.changes.mapM Change.operation?

/-! ## Decoding and encoding -/

/-- Decodes a kind of change. -/
def ChangeKind.decode (d : Document) : Option ChangeKind :=
  d.variant?.bind ofName?

/-- Decodes a change. A value written as null counts as absent. -/
def Change.decode (d : Document) : Option Change := do
  let fs ← d.fields? ["op", "path", "value"]
  let kind ← fs.required "op" ChangeKind.decode
  let path ← fs.required "path" Document.text?
  let value ← fs.optional "value" Document.value?
  return { kind, path, value }

/-- Decodes a resource name. -/
def ResourceName.decode (d : Document) : Option ResourceName := do
  let fs ← d.fields? ["apiVersion", "kind", "name"]
  let apiVersion ← fs.required "apiVersion" Document.text?
  let kind ← fs.required "kind" Document.text?
  let name ← fs.required "name" Document.text?
  return { apiVersion, kind, name }

/-- Decodes a directive. -/
def Directive.decode (d : Document) : Option Directive := do
  let fs ← d.fields? ["phase", "resource", "patches"]
  let phase ← fs.required "phase" Phase.decode
  let resource ← fs.required "resource" ResourceName.decode
  let changes ← fs.defaulted "patches" [] (Document.list? Change.decode)
  return { phase, resource, changes }

/-- Decodes an operation of a JSON patch. -/
def Operation.decode (d : Document) : Option Operation := do
  let fs ← d.fields? ["op", "path", "value", "from"]
  let path ← fs.required "path" Document.text?
  match ← fs.required "op" Document.variant? with
  | "add" => return .add path (← fs.required "value" Document.value?)
  | "remove" => return .remove path
  | "replace" => return .replace path (← fs.required "value" Document.value?)
  | "move" => return .move (← fs.required "from" Document.text?) path
  | "copy" => return .copy (← fs.required "from" Document.text?) path
  | "test" => return .test path (← fs.required "value" Document.value?)
  | _ => none

/-- Encodes a change; an absent value is left out. -/
def Change.encode (c : Change) : Json :=
  .record <|
    [("op", .text c.kind.name), ("path", .text c.path)] ++
      match c.value with
      | some v => [("value", v)]
      | none => []

/-- Encodes a resource name. -/
def ResourceName.encode (r : ResourceName) : Json :=
  .record [("apiVersion", .text r.apiVersion), ("kind", .text r.kind), ("name", .text r.name)]

/-- Encodes a directive. -/
def Directive.encode (d : Directive) : Json :=
  .record [("patches", .list (d.changes.map Change.encode)), ("phase", .text d.phase.name),
    ("resource", d.resource.encode)]

end EcosystemSetup.Patch

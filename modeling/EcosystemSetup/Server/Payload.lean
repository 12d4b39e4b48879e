import EcosystemSetup.Cluster.Event
import EcosystemSetup.Cluster.Manifest
import EcosystemSetup.Document.JsonText

/-!
# Payloads of an API server

What the bodies of responses hold besides single objects: statuses, lists of objects, and the events
of a watch, one a line. A part of a record that is read only after its neighbours must hold a value
throughout, even where nothing looks at it.
-/

namespace EcosystemSetup.Server

open Cluster

/-- Every entry that is set aside holds a value. -/
def setAside (known : List String) (entries : List (Option String × Document)) : Bool :=
  (entries.filter fun e => !(known.map some).contains e.1).all fun e => e.2.value?.isSome

/-- Decodes a status; one without a status text or a code is none. -/
def decodeStatus (d : Document) : Option Status := do
  let fs ← d.fields? ["status", "message", "reason", "code"]
  let _ ← fs.required "status" Document.text?
  let message ← fs.defaulted "message" "" Document.text?
  let reason ← fs.defaulted "reason" "" Document.text?
  let code ← fs.required "code" (Document.unsigned? 65536)
  return { code, reason, message }

/-! ## Lists -/

/-- Decodes the version of a list from its metadata. -/
def decodeListVersion (d : Document) : Option String := do
  let es ← entries? d
  let version ← lastField es "resourceVersion" Document.text?
  return version.getD ""

/-- Decodes a list of objects; its items may be null. -/
def decodeSnapshot (c : Collection) (d : Document) : Option (Snapshot c) :=
  match d with
  | .record entries _ => do
    let fs ← d.fields? ["metadata", "items"]
    guard (setAside ["metadata", "items"] entries)
    let version ← fs.defaulted "metadata" "" decodeListVersion
    let items ← fs.required "items" (Document.optional? (Document.list? (Object.decode c)))
    return { items := items.getD [], version }
  | _ => none

/-- Whether a document is an object of some kind: a record whose metadata, if any, is well formed. -/
def isObject (d : Document) : Bool :=
  match d with
  | .record entries _ =>
    setAside ["metadata"] entries &&
      ((d.fields? ["metadata"]).bind fun fs =>
        fs.defaulted "metadata" {} Metadata.decode).isSome
  | _ => false

/-! ## Events -/

/-- Decodes the version that a bookmark moves on to. -/
def decodeBookmark (d : Document) : Option String :=
  match d with
  | .record entries _ => do
    let fs ← d.fields? ["apiVersion", "kind", "metadata"]
    guard (setAside ["metadata"] entries)
    let _ ← fs.required "apiVersion" Document.text?
    let _ ← fs.required "kind" Document.text?
    let metadata ← fs.find "metadata"
    let ms ← metadata.fields? ["resourceVersion", "annotations"]
    let _ ← ms.defaulted "annotations" [] TextMap.decode
    ms.required "resourceVersion" Document.text?
  | _ => none

/-- Whether an event gives its object before its type. -/
def objectFirst : Document → Bool
  | .record entries _ =>
    (entries.find? fun e => e.1 == some "object" || e.1 == some "type").any fun e =>
      e.1 == some "object"
  | _ => false

/-- Decodes an event. -/
def decodeEvent (c : Collection) (d : Document) : Option (Event c) := do
  let fs ← d.fields? ["type", "object"]
  let type ← fs.required "type" Document.variant?
  let object ← fs.find "object"
  guard (!objectFirst d || object.value?.isSome)
  match type with
  | "ADDED" => (Object.decode c object).map .added
  | "MODIFIED" => (Object.decode c object).map .modified
  | "DELETED" => (Object.decode c object).map .deleted
  | "BOOKMARK" => (decodeBookmark object).map .bookmark
  | "ERROR" => (decodeStatus object).map .error
  | _ => none

/-- Reads a line of a watch: an event, or a status in its place. A line that was cut short says
nothing. -/
def readLine (c : Collection) (what line : String) : Option (Except AccessError (Event c)) :=
  match Document.readJsonText line with
  | .error .cutShort => none
  | .error .malformed => some (.error (.transport what .undecodable))
  | .ok d =>
    match decodeEvent c d, decodeStatus d with
    | some e, _ => some (.ok e)
    | none, some s => some (.error (.ofStatus what s))
    | none, none => some (.error (.transport what .undecodable))

/-- Reads the lines of a watch. -/
def readLines (c : Collection) (what body : String) : Session c :=
  (Text.segmentsOf body '\n').filterMap (readLine c what)

end EcosystemSetup.Server

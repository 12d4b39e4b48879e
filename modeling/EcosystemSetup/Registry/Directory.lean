import EcosystemSetup.Document.JsonText
import EcosystemSetup.FileTree
import EcosystemSetup.Registry.Basic

/-!
# Registries on disk

One file for each descriptor: `root/name/version.json`, where the name is qualified. The version is
the name of the file without its extension; the descriptor in the file must declare the name under
which it was looked up.
-/

namespace EcosystemSetup.Registry

open Dogu

/-- The version that a file name stands for: its part before the last point, if the part after it is
`json` and the part before it is not empty. -/
def fileVersion? (fileName : String) : Option String :=
  match Text.cutLast fileName '.' with
  | some (stem, "json") => if stem = "" then none else some stem
  | _ => none

/-- The text without a byte order mark is all that a reader of descriptors accepts. -/
def decodeDescriptor (text : String) : Option Descriptor :=
  (Document.ofJsonText text).bind Descriptor.decode

/-- The descriptor filed under a name and a version. -/
def getFiled (files : FileTree) (root name version : String) :
    Except RegistryError Descriptor :=
  let path := FileTree.join (FileTree.join root name) (version ++ ".json")
  match files.read path with
  | .error .missing => .error (.versionNotFound name version)
  | .error e => .error (.unreadable path e.message)
  | .ok text =>
    match decodeDescriptor text with
    | none => .error (.malformed path)
    | some d => if d.name = name then .ok d else .error (.mismatch path name d.name)

/-- The descriptor of the latest version filed under a name. -/
def latestFiled (files : FileTree) (root name : String) : Except RegistryError Descriptor :=
  let path := FileTree.join root name
  match files.list path with
  | .error .missing => .error (.notFound name)
  | .error e => .error (.unreadable path e.message)
  | .ok names =>
    match latestText (names.filterMap fileVersion?) with
    | some version => getFiled files root name version
    | none => .error (.notFound name)

/-- The registry in a directory. -/
def ofDirectory (files : FileTree) (root : String) : Registry where
  latest := latestFiled files root
  get := getFiled files root

end EcosystemSetup.Registry

import EcosystemSetup.Cluster.KindName
import EcosystemSetup.Cluster.Manifest
import EcosystemSetup.Server.Maturity

/-!
# Groups of kinds

What an API server tells about the kinds it serves: its groups, the versions of each, and the
resources of each version. Of a group only its preferred version counts, or the most mature one if
none is preferred.
-/

namespace EcosystemSetup.Server

open Cluster

/-! ## Listings -/

/-- Decodes a listing, whose API version and kind must be right where given. -/
def decodeListing {α : Type} (kind : String)
    (body : List (Option String × Document) → Option α) (d : Document) : Option α := do
  let es ← entries? d
  let fits (key expected : String) : Bool :=
    (es.filter fun e => e.1 == some key).all fun e => e.2.text? == some expected
  guard (fits "apiVersion" "v1" && fits "kind" kind)
  body es

/-- A version of a group: where it is served, and its name. -/
structure GroupVersion where
  served : String := ""
  name : String := ""
  deriving DecidableEq, Repr, Inhabited

/-- Decodes a version of a group. -/
def GroupVersion.decode (d : Document) : Option GroupVersion := do
  let es ← entries? d
  let served ← lastField es "groupVersion" Document.text?
  let name ← lastField es "version" Document.text?
  return { served := served.getD "", name := name.getD "" }

/-- A group of kinds. -/
structure Group where
  name : String := ""
  versions : List GroupVersion := []
  preferred : Option GroupVersion := none
  deriving DecidableEq, Repr, Inhabited

/-- Decodes a group. -/
def Group.decode : Document → Option Group :=
  decodeListing "APIGroup" fun es => do
    let name ← lastField es "name" Document.text?
    let versions ← lastField es "versions" (Document.list? GroupVersion.decode)
    let preferred ← lastField es "preferredVersion" GroupVersion.decode
    return { name := name.getD "", versions := versions.getD [], preferred }

/-- Decodes the list of all groups. -/
def decodeGroups : Document → Option (List Group) :=
  decodeListing "APIGroupList" fun es => do
    return (← lastField es "groups" (Document.list? Group.decode)).getD []

/-- Decodes the versions of the core group. -/
def decodeCoreVersions : Document → Option (List String) :=
  decodeListing "APIVersions" fun es => do
    return (← lastField es "versions" (Document.list? Document.text?)).getD []

/-! ## Resources -/

/-- A resource of a version, as it is listed. -/
structure Resource where
  /-- The plural of its kind; a subresource has its own name behind a slash. -/
  name : String := ""
  kind : String := ""
  namespaced : Bool := false
  /-- The group and the version, where they are not the listing's own. -/
  group : Option String := none
  version : Option String := none
  deriving DecidableEq, Repr, Inhabited

/-- Decodes a resource. -/
def Resource.decode (d : Document) : Option Resource := do
  let es ← entries? d
  let name ← lastField es "name" Document.text?
  let kind ← lastField es "kind" Document.text?
  let namespaced ← lastField es "namespaced" Document.flag?
  let group ← lastField es "group" Document.text?
  let version ← lastField es "version" Document.text?
  for key in ["singularName", "storageVersionHash"] do
    let _ ← lastField es key Document.text?
  for key in ["verbs", "categories", "shortNames"] do
    let _ ← lastField es key (Document.list? Document.text?)
  return {
    name := name.getD ""
    kind := kind.getD ""
    namespaced := namespaced.getD false
    group, version }

/-- The kind of a resource that is listed under an API version; a subresource is none. -/
def Resource.served? (apiVersion : String) (r : Resource) : Option ServedKind :=
  if r.name.toList.contains '/' then none
  else
    let own := KindName.ofApiVersion apiVersion r.kind
    some {
      name := ⟨r.group.getD own.group, r.version.getD own.version, r.kind⟩
      apiVersion := own.apiVersion
      plural := r.name
      namespaced := r.namespaced }

/-- Decodes the kinds of a version. -/
def decodeKinds : Document → Option (List ServedKind) :=
  decodeListing "APIResourceList" fun es => do
    let apiVersion ← lastField es "groupVersion" Document.text?
    let resources ← lastField es "resources" (Document.list? Resource.decode)
    return (resources.getD []).filterMap (Resource.served? (apiVersion.getD ""))

/-! ## The version that counts -/

/-- The kinds of a group, by version. -/
abbrev VersionedKinds := List (String × List ServedKind)

/-- The most mature of some versions, of equal ones the first. -/
def mostMature? : VersionedKinds → Option (List ServedKind)
  | [] => none
  | first :: rest =>
    some (rest.foldl (fun best v =>
      if (Maturity.ofName v.1).exceeds (Maturity.ofName best.1) then v else best) first).2

/-- The kinds of a group that can be found: those of the preferred version, or of the most mature
one. -/
def recommended (preferred : Option String) (versions : VersionedKinds) : List ServedKind :=
  match preferred with
  | some v => (versions.lookup v).getD []
  | none => (mostMature? versions).getD []

end EcosystemSetup.Server

import EcosystemSetup.Text.Split

/-!
# Names of kinds

A kind of resource is named by its API group, the version of that group and the kind itself. In
objects the first two are written together as the API version: `group/version`, or the version alone
for the core group.
-/

namespace EcosystemSetup.Cluster

/-- A kind by its full name. -/
structure KindName where
  group : String
  version : String
  kind : String
  deriving DecidableEq, Repr, Inhabited

namespace KindName

/-- The kind that an API version and a kind denote. -/
def ofApiVersion (apiVersion kind : String) : KindName :=
  match Text.cutFirst apiVersion '/' with
  | some (group, version) => ⟨group, version, kind⟩
  | none => ⟨"", apiVersion, kind⟩

/-- The API version as objects write it. -/
def apiVersion (k : KindName) : String :=
  if k.group = "" then k.version else k.group ++ "/" ++ k.version

/-- The full name as a text. -/
def key (k : KindName) : String :=
  k.apiVersion ++ "/" ++ k.kind

end KindName

/-- A kind that the cluster serves: its full name, the API version under which it is served, the
plural that paths use, and its scope. -/
structure ServedKind where
  name : KindName
  apiVersion : String
  plural : String
  namespaced : Bool
  deriving DecidableEq, Repr, Inhabited

/-- The path to the objects of a kind, all of them or those of one namespace. -/
def ServedKind.path (k : ServedKind) (namespaceName : Option String) : String :=
  let scope := match namespaceName with
    | some ns => "namespaces/" ++ ns ++ "/"
    | none => ""
  (if k.name.group = "" then "/api/" else "/apis/") ++ k.apiVersion ++ "/" ++ scope ++ k.plural

end EcosystemSetup.Cluster

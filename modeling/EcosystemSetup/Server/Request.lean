import EcosystemSetup.Cluster.Call
import EcosystemSetup.Cluster.Manifest

/-!
# Requests to an API server

The request that each call on the cluster becomes: its method, its path, its query, and a body with
its media type where the call carries one. The objects of a namespaced kind lie below their namespace;
the namespaces themselves lie below none.
-/

namespace EcosystemSetup.Server

open Cluster

/-- The method of a request. -/
inductive Method where
  | get
  | post
  | put
  | patch
  deriving DecidableEq, Repr, Inhabited

/-- The name of a method. -/
def Method.name : Method → String
  | .get => "GET"
  | .post => "POST"
  | .put => "PUT"
  | .patch => "PATCH"

/-- The media types of bodies. -/
inductive MediaType where
  | json
  | jsonPatch
  deriving DecidableEq, Repr, Inhabited

/-- The name of a media type. -/
def MediaType.name : MediaType → String
  | .json => "application/json"
  | .jsonPatch => "application/json-patch+json"

/-- A request. -/
structure Request where
  method : Method
  path : String
  /-- The parameters, by name. -/
  query : List (String × String) := []
  body : Option (MediaType × Json) := none
  deriving BEq, Repr, Inhabited

/-- What looking up kinds is about. -/
def discovery : String :=
  "api discovery"

/-- What a call is about, in the wording of errors. -/
def subject : Call → String
  | .get c name => c.kind ++ " " ++ name
  | .list c selector => c.kind ++ " " ++ selector
  | .watch c selector _ => c.kind ++ " " ++ selector
  | .create c o => c.kind ++ " " ++ o.name
  | .update c o => c.kind ++ " " ++ o.name
  | .resolve _ => discovery
  | .patch k _ name _ => k.name.kind ++ " " ++ name

/-- How long a watch stays open, in seconds. -/
def watchSeconds : Nat := 290

/-- The path to the objects of a collection in a namespace. -/
def collectionPath (namespaceName : String) (c : Collection) : String :=
  c.served.path (if c.namespaced then some namespaceName else none)

namespace Request

/-- Asks for what lies at a path. -/
def look (path : String) : Request :=
  { method := .get, path }

/-- Asks for an object. -/
def get (namespaceName : String) (c : Collection) (name : String) : Request :=
  look (collectionPath namespaceName c ++ "/" ++ name)

/-- Asks for the objects that a selector admits. -/
def list (namespaceName : String) (c : Collection) (selector : String) : Request :=
  { method := .get, path := collectionPath namespaceName c, query := [("labelSelector", selector)] }

/-- Opens a watch from a version. -/
def watch (namespaceName : String) (c : Collection) (selector version : String) : Request :=
  { method := .get
    path := collectionPath namespaceName c
    query :=
      [("allowWatchBookmarks", "true"), ("labelSelector", selector), ("resourceVersion", version),
        ("timeoutSeconds", toString watchSeconds), ("watch", "true")] }

/-- Creates an object. -/
def create (namespaceName : String) {c : Collection} (o : Object c) : Request :=
  { method := .post, path := collectionPath namespaceName c, body := some (.json, o.encode) }

/-- Replaces an object. -/
def update (namespaceName : String) {c : Collection} (o : Object c) : Request :=
  { method := .put
    path := collectionPath namespaceName c ++ "/" ++ o.name
    body := some (.json, o.encode) }

/-- Patches a resource in a namespace or in none. -/
def patch (kind : ServedKind) (namespaceName : Option String) (name : String)
    (operations : List Patch.Operation) : Request :=
  { method := .patch
    path := kind.path namespaceName ++ "/" ++ name
    body := some (.jsonPatch, .list (operations.map Patch.Operation.encode)) }

end Request

end EcosystemSetup.Server

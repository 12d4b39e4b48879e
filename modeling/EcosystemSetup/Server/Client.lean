import EcosystemSetup.Program.World
import EcosystemSetup.Server.Group
import EcosystemSetup.Server.Request
import EcosystemSetup.Server.Response

/-!
# Clients of an API server

A cluster behind an API server: every call becomes a request, and the responses are given in advance,
one a request; when they are used up the server knows nothing. A server may also be out of reach, and
then every call fails. The kinds that the server serves are
asked for when one is first looked up, and remembered once all answers have come.
-/

namespace EcosystemSetup.Server

open Cluster

/-- The kinds that were found, by group. -/
abbrev Kinds := List (String × List ServedKind)

/-- A client with the responses that are still to come. -/
structure Client where
  /-- The namespace of all calls. -/
  namespaceName : String
  responses : List Response := []
  /-- Whether the server can be reached. -/
  reachable : Bool := true
  /-- The requests so far, in order. -/
  requests : List Request := []
  /-- The kinds of the server, once they are known. -/
  kinds : Option Kinds := none

/-- What is done with a client and may fail. -/
abbrev Attempt (α : Type) := ExceptT AccessError (StateM Client) α

namespace Client

/-- Sends a request; without a connection there is no response. -/
def send (r : Request) (c : Client) : Option Response × Client :=
  if c.reachable then
    (some (c.responses.head?.getD .nothing),
      { c with responses := c.responses.tail, requests := c.requests ++ [r] })
  else (none, c)

/-- Sends a request and interprets the response. -/
def exchange {α : Type} (what : String) (r : Request)
    (interpret : Response → Except AccessError α) : Attempt α :=
  ExceptT.mk fun c =>
    match c.send r with
    | (some response, c) => (interpret response, c)
    | (none, c) => (.error (.transport what .unreachable), c)

/-- Sends a request and reads what was asked for from the response. -/
def fetch {α : Type} (what : String) (decode : Document → Option α) (r : Request) : Attempt α :=
  exchange what r (Response.read what decode)

/-- Sends a request about something that must have a name. -/
def fetchNamed {α : Type} (name what : String) (decode : Document → Option α) (r : Request) :
    Attempt α :=
  if name = "" then throw (.transport what .nameless) else fetch what decode r

/-! ## Looking up kinds -/

/-- Asks for the kinds of every version of a group. -/
def fetchVersions (group : String) (versions : List (String × Request)) : Attempt VersionedKinds :=
  if versions = [] then throw (.transport discovery (.emptyGroup group))
  else versions.mapM fun v => do return (v.1, ← fetch discovery decodeKinds v.2)

/-- Asks for the kinds of a group. -/
def fetchGroup (g : Group) : Attempt (List ServedKind) := do
  let versions ← fetchVersions g.name <|
    g.versions.map fun v => (v.name, .look ("/apis/" ++ v.served))
  return recommended (g.preferred.map GroupVersion.name) versions

/-- Asks for the kinds of the core group. -/
def fetchCore : Attempt (List ServedKind) := do
  let names ← fetch discovery decodeCoreVersions (.look "/api")
  let versions ← fetchVersions "" (names.map fun v => (v, .look ("/api/" ++ v)))
  return recommended (some "v1") versions

/-- Asks for all kinds; of groups with one name the last counts. -/
def fetchKinds : Attempt Kinds := do
  let groups ← fetch discovery decodeGroups (.look "/apis")
  let found ← groups.mapM fun g => do return (g.name, ← fetchGroup g)
  let core ← fetchCore
  return Assoc.ofList (found ++ [("", core)])

/-- All kinds, which are asked for only once. -/
def allKinds : Attempt Kinds := do
  match (← get).kinds with
  | some kinds => return kinds
  | none =>
    let kinds ← fetchKinds
    modify fun c => { c with kinds := some kinds }
    return kinds

/-- Looks up a kind. -/
def resolve (k : KindName) : Attempt ServedKind := do
  let kinds ← allKinds
  match (kinds.flatMap Prod.snd).find? fun s => s.name = k with
  | some s => return s
  | none => throw (.notFound ("resource type " ++ k.key))

/-! ## Calls -/

/-- Opens a watch. The stream ends with its response, whose code does not matter. -/
def watch (what : String) (c : Collection) (r : Request) : Attempt (Stream c) :=
  exchange what r fun response => .ok ⟨readLines c what response.body, true⟩

/-- Patches a resource; one of a namespaced kind needs a namespace. -/
def patch (what : String) (k : ServedKind) (namespaceName : Option String) (name : String)
    (operations : List Patch.Operation) : Attempt Unit :=
  let send (scope : Option String) : Attempt Unit :=
    fetchNamed name what (fun d => if isObject d then some () else none)
      (.patch k scope name operations)
  match k.namespaced, namespaceName with
  | true, some ns => send (some ns)
  | true, none => throw (.other ("namespace required for namespaced kind " ++ k.name.kind))
  | false, _ => send none

/-- What answers a call. -/
def attempt (ns : String) : (k : Call) → Attempt k.Answer
  | .get c name => fetchNamed name (subject (.get c name)) (Object.decode c) (.get ns c name)
  | .list c selector =>
    fetch (subject (.list c selector)) (decodeSnapshot c) (.list ns c selector)
  | .watch c selector version =>
    watch (subject (.watch c selector version)) c (.watch ns c selector version)
  | .create c o => fetch (subject (.create c o)) (Object.decode c) (.create ns o)
  | .update c o => fetchNamed o.name (subject (.update c o)) (Object.decode c) (.update ns o)
  | .resolve k => resolve k
  | .patch k scope name operations =>
    patch (subject (.patch k scope name operations)) k scope name operations

/-- Answers a call. -/
def perform (k : Call) (client : Client) : k.Reply × Client :=
  (attempt client.namespaceName k).run client

instance : Backend Client where
  perform := perform
  suspends _ _ := false
  scripted c := c.responses.length

end Client

end EcosystemSetup.Server

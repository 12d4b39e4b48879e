import EcosystemSetup.Server.Payload
import EcosystemSetup.Text.Quoted

/-!
# Responses of an API server

A response is a status code and a body. From 400 to 599 the code says that the server refuses, and the
body should be the status that tells why; otherwise the body holds what was asked for.
-/

namespace EcosystemSetup.Server

open Cluster

/-- A response. -/
structure Response where
  code : Nat
  body : String
  deriving DecidableEq, Repr, Inhabited

namespace Response

/-- Whether the server refuses. -/
def refuses (r : Response) : Bool :=
  400 ≤ r.code && r.code < 600

/-- The status of a refusal; where the body is none, the code and the body as they came. -/
def status (r : Response) : Status :=
  ((Document.ofJsonText r.body).bind decodeStatus).getD
    ⟨r.code, "Failed to parse error data", Text.quote r.body⟩

/-- What a response holds for `what` was asked. -/
def read {α : Type} (what : String) (decode : Document → Option α) (r : Response) :
    Except AccessError α :=
  if r.refuses then .error (.ofStatus what r.status)
  else
    match (Document.ofJsonText r.body).bind decode with
    | some a => .ok a
    | none => .error (.transport what .undecodable)

/-- What a server without an answer says. -/
def nothing : Response :=
  ⟨404, "\x7b\"kind\":\"Status\",\"status\":\"Failure\",\"reason\":\"NotFound\",\"code\":404\x7d"⟩

end Response

end EcosystemSetup.Server

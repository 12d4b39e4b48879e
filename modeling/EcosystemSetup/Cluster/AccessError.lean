import EcosystemSetup.Failure

/-!
# Failed accesses

Why a call on the cluster fails. What the cluster refuses is told apart by the status it answers
with: not found, already there, in conflict, or any other refusal; besides those, the call may not get
through at all.
-/

namespace EcosystemSetup.Cluster

/-- A status that the cluster answers with instead of an object. -/
structure Status where
  code : Nat
  reason : String := ""
  message : String := ""
  deriving DecidableEq, Repr, Inhabited

/-- Whether the status says that the version a watch asked for is no longer kept. -/
def Status.isExpired (s : Status) : Bool :=
  s.code == 410 || s.reason == "Expired" || s.reason == "Gone"

/-- Why a call did not get through. -/
inductive TransportError where
  | lineTooLong
  | undecodable
  | unreachable
  /-- The call names nothing, so it is not sent. -/
  | nameless
  /-- The cluster names a group of kinds that has no version. -/
  | emptyGroup (group : String)
  deriving DecidableEq, Repr, Inhabited

/-- The wording of a transport error and of what caused it, level by level. -/
def TransportError.levels : TransportError → String × List String
  | .lineTooLong => ("Error finding newline character", [])
  | .undecodable => ("Error deserializing response", [])
  | .unreachable => ("ServiceError: client error (Connect)", ["client error (Connect)"])
  | .nameless =>
    ("Failed to build request: failed to validate request: A non-empty name is required",
      ["failed to validate request: A non-empty name is required"])
  | .emptyGroup group =>
    ("Error from discovery: Empty Api Group: " ++ group, ["Empty Api Group: " ++ group])

/-- The wording of a transport error. -/
def TransportError.message (e : TransportError) : String :=
  e.levels.1

/-- Why a call fails. -/
inductive AccessError where
  | notFound (what : String)
  | alreadyExists (what : String)
  | conflict (what : String) (detail : String)
  | refused (what : String) (status : Status)
  | transport (what : String) (cause : TransportError)
  | other (message : String)
  deriving DecidableEq, Repr, Inhabited

namespace AccessError

/-- The error that a status of the cluster means for what was asked. -/
def ofStatus (what : String) (s : Status) : AccessError :=
  if s.code = 404 then .notFound what
  else if s.code = 409 then
    if s.reason = "AlreadyExists" then .alreadyExists what else .conflict what s.message
  else .refused what s

/-- The wording of an error. -/
def message : AccessError → String
  | .notFound what => what ++ " not found"
  | .alreadyExists what => what ++ " already exists"
  | .conflict what detail => "conflict on " ++ what ++ ": " ++ detail
  | .refused what s =>
    what ++ ": api error " ++ toString s.code ++ " (" ++ s.reason ++ "): " ++ s.message
  | .transport what cause => what ++ ": " ++ cause.message
  | .other message => message

/-- The error as a failure: a call that did not get through has its reason below it. -/
def toFailure (e : AccessError) : Failure :=
  match e with
  | .transport _ cause => ⟨e.message, cause.levels.1 :: cause.levels.2⟩
  | _ => ⟨e.message, []⟩

/-- Whether what was asked for is not there. -/
def isNotFound : AccessError → Bool
  | .notFound _ => true
  | _ => false

/-- Whether what was to be created is there already. -/
def isAlreadyExists : AccessError → Bool
  | .alreadyExists _ => true
  | _ => false

end AccessError

end EcosystemSetup.Cluster

import EcosystemSetup.Dogu.Request
import EcosystemSetup.Plan.Order
import EcosystemSetup.Registry.Basic

/-!
# Install plans

A plan lists what to install and what to wait for. It is made in three stages: the requests are
resolved to descriptors, the descriptors are put in order, and before a dogu that needs a service
account stands a barrier that waits for the account's provider, once for each provider.
-/

namespace EcosystemSetup.Plan

open Dogu

/-- Why there is no plan. -/
inductive PlanError where
  | cycle (stuck : List String)
  | duplicate (simpleName : String)
  | registry (request : String) (cause : RegistryError)
  deriving DecidableEq, Repr

/-- The wording of a plan error. -/
def PlanError.message : PlanError → String
  | .cycle stuck => "dependency cycle between dogus: " ++ String.intercalate ", " stuck
  | .duplicate name => "dogu " ++ name ++ " requested more than once"
  | .registry request cause => "resolving " ++ request ++ ": " ++ cause.message

/-- A step of a plan. -/
inductive PlannedStep where
  | installDogu (d : Descriptor)
  | awaitDogu (target : String)
  | awaitComponent (target : String)
  deriving DecidableEq, Repr

/-- The wording of a step. -/
def PlannedStep.description : PlannedStep → String
  | .installDogu d => "install dogu " ++ d.name ++ " (" ++ d.version ++ ")"
  | .awaitDogu t => "wait for dogu " ++ t ++ " to become ready"
  | .awaitComponent t => "wait for component " ++ t ++ " to become ready"

/-- Looks up one request. -/
def lookUp (registry : Registry) (r : Request) : Except PlanError Descriptor :=
  let found := match r.version with
    | some v => registry.get r.name v
    | none => registry.latest r.name
  match found with
  | .ok d => .ok d
  | .error e => .error (.registry r.toText e)

/-- Resolves requests to descriptors, in order; `seen` holds the simple names met before. -/
def resolveFrom (registry : Registry) (seen : List String) :
    List Request → Except PlanError (List Descriptor)
  | [] => .ok []
  | r :: rest =>
    if r.simpleName ∈ seen then .error (.duplicate r.simpleName)
    else
      match lookUp registry r with
      | .error e => .error e
      | .ok d =>
        match resolveFrom registry (r.simpleName :: seen) rest with
        | .error e => .error e
        | .ok ds => .ok (d :: ds)

/-- Resolves requests to descriptors, in order; no simple name may be requested twice. -/
def resolve (registry : Registry) (requests : List Request) :
    Except PlanError (List Descriptor) :=
  resolveFrom registry [] requests

/-- What a service account waits for; nothing if its kind is unknown. -/
def barrier? (a : ServiceAccount) : Option PlannedStep :=
  match a.kind with
  | .dogu => some (.awaitDogu a.target)
  | .component => some (.awaitComponent a.target)
  | .unknown _ => none

/-- The names that barriers may rely on. -/
structure Providers where
  /-- The simple names of the dogus of this plan. -/
  dogus : List String
  /-- The components installed by this run. -/
  components : List String

/-- Whether the provider of an account is installed by this run. -/
def Providers.has (p : Providers) (a : ServiceAccount) : Bool :=
  match a.kind with
  | .dogu => p.dogus.contains a.target
  | .component => p.components.contains a.target
  | .unknown _ => false

/-- The barrier that an account of a dogu demands: none for an optional account without a
provider. -/
def demanded? (p : Providers) (d : Descriptor) (a : ServiceAccount) : Option PlannedStep :=
  if p.has a || !d.isOptionalAccount a then barrier? a else none

/-- The new barriers of a list of demanded ones, and all that stand then. -/
def newBarriers (standing : List PlannedStep) :
    List PlannedStep → List PlannedStep × List PlannedStep
  | [] => ([], standing)
  | b :: rest =>
    if b ∈ standing then newBarriers standing rest
    else
      let (new, all) := newBarriers (b :: standing) rest
      (b :: new, all)

/-- Puts barriers between installations: before each dogu those that its accounts demand and that do
not stand yet. -/
def withBarriers (p : Providers) (standing : List PlannedStep) :
    List Descriptor → List PlannedStep
  | [] => []
  | d :: rest =>
    let (new, all) := newBarriers standing (d.serviceAccounts.filterMap (demanded? p d))
    new ++ .installDogu d :: withBarriers p all rest

/-- What a run installs besides dogus. -/
structure Surroundings where
  /-- The components installed by this run. -/
  components : List String := []
  /-- The components that were waited for before any dogu. -/
  awaited : List String := []

/-- The steps for dogus in the given order. -/
def interleaveBarriers (s : Surroundings) (sorted : List Descriptor) : List PlannedStep :=
  withBarriers ⟨sorted.map Descriptor.simpleName, s.components⟩
    (s.awaited.map .awaitComponent) sorted

/-- The plan for a list of requests. -/
def generate (registry : Registry) (s : Surroundings) (requests : List Request) :
    Except PlanError (List PlannedStep) :=
  match resolve registry requests with
  | .error e => .error e
  | .ok dogus =>
    match sortByDependencies dogus with
    | .error stuck => .error (.cycle stuck)
    | .ok sorted => .ok (interleaveBarriers s sorted)

end EcosystemSetup.Plan

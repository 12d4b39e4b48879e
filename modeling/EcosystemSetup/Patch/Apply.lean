import EcosystemSetup.Program.Basic

/-!
# Applying patches

The directives of a phase are independent: each one is checked, encoded, resolved and sent, whatever
becomes of the others, and every failure is reported.
-/

namespace EcosystemSetup.Patch

open Cluster

/-- The failures of a phase, in the order of its directives. -/
structure PhaseError where
  phase : Phase
  failures : List Failure
  deriving DecidableEq, Repr

/-- The wording of a phase's failures. -/
def PhaseError.message (e : PhaseError) : String :=
  "failed to patch resources in phase " ++ e.phase.name ++ ": " ++ Failure.describeAll e.failures

/-- The failures of a phase as one failure. -/
def PhaseError.toFailure (e : PhaseError) : Failure :=
  ⟨e.message, [Failure.describeAll e.failures]⟩

/-- What is wrong with a directive that cannot be encoded. -/
def unencodable (resource : ResourceName) : Failure :=
  ⟨"encoding patch for " ++ resource.describe, ["missing field `value`"]⟩

/-- The namespace in which a served kind is patched: none if the kind has no namespaces. -/
def scope (namespaceName : String) (k : ServedKind) : Option String :=
  if k.namespaced then some namespaceName else none

/-- Sends the operations of a directive. -/
def send (namespaceName : String) (resource : ResourceName) (operations : List Operation) :
    Program (Except Failure Unit) := do
  match ← Program.ask (.resolve resource.kindName) with
  | .error e => return .error (e.toFailure.context ("resolving " ++ resource.kindName.key))
  | .ok kind =>
    match ← Program.ask (.patch kind (scope namespaceName kind) resource.name operations) with
    | .error e => return .error (e.toFailure.context ("patching " ++ resource.describe))
    | .ok () => return .ok ()

/-- Applies a directive. -/
def applyOne (namespaceName : String) (d : Directive) : Program (Except Failure Unit) :=
  match d.defect? with
  | some defect => .done (.error ⟨invalidMessage d.resource defect, []⟩)
  | none =>
    match d.operations? with
    | none => .done (.error (unencodable d.resource))
    | some operations => send namespaceName d.resource operations

/-- Applies directives and collects their failures. -/
def applyEach (namespaceName : String) : List Directive → Program (List Failure)
  | [] => return []
  | d :: rest => do
    match ← applyOne namespaceName d with
    | .ok () => applyEach namespaceName rest
    | .error e => return e :: (← applyEach namespaceName rest)

/-- The directives of a phase. -/
def ofPhase (phase : Phase) (ds : List Directive) : List Directive :=
  ds.filter (·.phase = phase)

/-- The outcome of a phase with its failures. -/
def phaseOutcome (phase : Phase) : List Failure → Except PhaseError Unit
  | [] => .ok ()
  | failures => .error ⟨phase, failures⟩

/-- Applies the directives of a phase. -/
def apply (namespaceName : String) (phase : Phase) (ds : List Directive) :
    Program (Except PhaseError Unit) := do
  return phaseOutcome phase (← applyEach namespaceName (ofPhase phase ds))

end EcosystemSetup.Patch

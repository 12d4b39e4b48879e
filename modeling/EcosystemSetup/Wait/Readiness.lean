import EcosystemSetup.Cluster.Object

/-!
# Readiness

When an object counts as ready, and when it never will be.
-/

namespace EcosystemSetup.Wait

open Cluster

/-- What an object's state means for a wait. -/
inductive Readiness where
  | ready
  | pending
  /-- The object will never become ready. -/
  | failed (reason : String)
  deriving DecidableEq, Repr, Inhabited

/-- A pod is ready if its condition `Ready` holds; one that has failed will not recover. -/
def podReady (pod : Object .pods) : Readiness :=
  match pod.body.status with
  | none => .pending
  | some s =>
    if s.phase = some "Failed" then .failed ((s.reason.or s.message).getD "pod failed")
    else if (s.conditions.getD []).any fun c => c.type = "Ready" && c.status = "True" then .ready
    else .pending

/-- The health that operators report of what is usable. -/
def healthAvailable : String := "available"

/-- A component is ready once its operator reports it as available. -/
def componentHealthy (component : Object .components) : Readiness :=
  match component.body.status with
  | some s => if s.health = healthAvailable then .ready else .pending
  | none => .pending

/-- The readiness of several objects: one that is ready decides, otherwise the first failure. -/
def judge {c : Collection} (predicate : Object c → Readiness) : List (Object c) → Readiness
  | [] => .pending
  | o :: rest =>
    match predicate o, judge predicate rest with
    | .ready, _ => .ready
    | _, .ready => .ready
    | .failed reason, _ => .failed reason
    | .pending, later => later

end EcosystemSetup.Wait

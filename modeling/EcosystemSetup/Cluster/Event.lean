import EcosystemSetup.Cluster.AccessError
import EcosystemSetup.Cluster.Object

/-!
# Events of a watch

What a watch delivers: changes of objects, versions to resume from, and statuses that break it.
-/

namespace EcosystemSetup.Cluster

/-- An event of a watch. -/
inductive Event (c : Collection) where
  | added (o : Object c)
  | modified (o : Object c)
  | deleted (o : Object c)
  /-- The version to resume from has moved on without a change. -/
  | bookmark (version : String)
  | error (status : Status)
  deriving DecidableEq

/-- What one opened watch delivers, in order: events, or errors of the stream. -/
abbrev Session (c : Collection) := List (Except AccessError (Event c))

/-- An opened watch. -/
structure Stream (c : Collection) where
  items : Session c
  /-- Whether the stream ends after its items; otherwise it stays open without events. -/
  ends : Bool

/-- The objects of a collection at a version. -/
structure Snapshot (c : Collection) where
  items : List (Object c)
  version : String
  deriving DecidableEq

end EcosystemSetup.Cluster

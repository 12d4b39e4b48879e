import EcosystemSetup.Cluster.Event
import EcosystemSetup.Patch.Directive

/-!
# Calls on the cluster

Everything that a setup asks of the cluster, and the type of the answer to each call.
-/

namespace EcosystemSetup.Cluster

/-- A call on the cluster. -/
inductive Call where
  | get (c : Collection) (name : String)
  | list (c : Collection) (selector : String)
  | watch (c : Collection) (selector version : String)
  | create (c : Collection) (o : Object c)
  | update (c : Collection) (o : Object c)
  /-- Looks up whether and how a kind is served. -/
  | resolve (kind : KindName)
  /-- Applies a JSON patch to a resource. -/
  | patch (kind : ServedKind) (namespaceName : Option String) (name : String)
      (operations : List Patch.Operation)

namespace Call

/-- What a call that succeeds is answered with. -/
@[reducible] def Answer : Call → Type
  | .get c _ => Object c
  | .list c _ => Snapshot c
  | .watch c _ _ => Stream c
  | .create c _ => Object c
  | .update c _ => Object c
  | .resolve _ => ServedKind
  | .patch _ _ _ _ => Unit

/-- What comes of a call. -/
@[reducible] def Reply (k : Call) : Type :=
  Except AccessError k.Answer

/-- A call as a line of a log. -/
def describe : Call → String
  | .get c name => c.kind ++ ".get " ++ name
  | .list c selector => c.kind ++ ".list " ++ selector
  | .watch c selector version =>
    c.kind ++ ".watch " ++ selector ++ " from " ++ Text.quote version
  | .create c o => c.kind ++ ".create " ++ o.metadata.name.getD ""
  | .update c o => c.kind ++ ".update " ++ o.metadata.name.getD ""
  | .resolve k => "resolve " ++ k.key
  | .patch k _ name _ => "patch " ++ k.name.kind ++ " " ++ name

end Call

/-- A call with its answer. -/
structure Exchange where
  /-- When the call was made, in milliseconds. -/
  time : Nat
  call : Call
  reply : call.Reply

/-- An exchange as a line of a log. -/
def Exchange.describe (x : Exchange) : String :=
  toString x.time ++ " " ++ x.call.describe

end EcosystemSetup.Cluster

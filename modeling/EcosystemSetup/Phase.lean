import EcosystemSetup.Document.Decode
import EcosystemSetup.ReadError

/-!
# Install phases and run states

The named stages that resource patches belong to, and the durable marker of a setup run.
-/

namespace EcosystemSetup

/-- A stage of the installation after which resource patches apply. -/
inductive Phase where
  | component
  | dogu
  | loadbalancer
  deriving DecidableEq, Repr, Inhabited

namespace Phase

/-- The name of a phase. -/
def name : Phase → String
  | .component => "component"
  | .dogu => "dogu"
  | .loadbalancer => "loadbalancer"

/-- The phase of a name. -/
def ofName? : String → Option Phase
  | "component" => some .component
  | "dogu" => some .dogu
  | "loadbalancer" => some .loadbalancer
  | _ => none

/-- The phase that a text names. -/
def read (s : String) : Except ReadError Phase :=
  match ofName? s with
  | some x => .ok x
  | none => .error (.phase s)

/-- Decodes a phase. -/
def decode (d : Document) : Option Phase :=
  d.variant?.bind ofName?

end Phase

/-- How far a setup run has come: begun, or completed. -/
inductive RunState where
  | installing
  | installed
  deriving DecidableEq, Repr, Inhabited

namespace RunState

/-- The name of a run state. -/
def name : RunState → String
  | .installing => "installing"
  | .installed => "installed"

/-- The run state of a name. -/
def ofName? : String → Option RunState
  | "installing" => some .installing
  | "installed" => some .installed
  | _ => none

/-- The run state that a text names. -/
def read (s : String) : Except ReadError RunState :=
  match ofName? s with
  | some x => .ok x
  | none => .error (.runState s)

end RunState

end EcosystemSetup

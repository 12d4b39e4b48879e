import EcosystemSetup.Program.Basic

/-!
# The recorded state

Whether a setup is under way or complete is kept in a config map. A run claims the setup by a write
that carries the version it has read, so of several runs that find no state only one succeeds.
-/

namespace EcosystemSetup.StateStore

open Cluster

/-- The config map that keeps the state. -/
def mapName : String := "k8s-setup-config"

/-- The key of the state. -/
def stateKey : String := "state"

/-- The annotation with the time of the last change. -/
def changedKey : String := "ces.cloudogu.com/state-changed-at"

/-- The label of everything that belongs to the setup. -/
def appLabels : TextMap := [("app", "ces")]

/-- Why the state cannot be read or written. -/
inductive StateError where
  | read (cause : AccessError)
  | write (state : RunState) (cause : AccessError)
  | invalid (cause : ReadError)
  /-- Another run holds the setup; its state, where it was seen. -/
  | taken (found : Option RunState)
  deriving DecidableEq, Repr

/-- The wording of an error. -/
def StateError.message : StateError → String
  | .read cause => "reading setup state: " ++ cause.message
  | .write state cause => "writing setup state " ++ state.name ++ ": " ++ cause.message
  | .invalid cause => "setup state config map holds an invalid value: " ++ cause.message
  | .taken (some s) => "setup state is held by another run (" ++ s.name ++ ")"
  | .taken none => "setup state is held by another run (concurrent write)"

/-- The state that a config map holds; an empty text is none. -/
def stateOf (m : Object .configMaps) : Except StateError (Option RunState) :=
  match Assoc.get? stateKey (m.body.data.getD []) with
  | none => .ok none
  | some text =>
    if text = "" then .ok none
    else
      match RunState.read text with
      | .ok s => .ok (some s)
      | .error e => .error (.invalid e)

/-- The map with a state, changed at a time. -/
def withState (m : Object .configMaps) (s : RunState) (time : String) : Object .configMaps :=
  { metadata :=
      { m.metadata with
        annotations := some (Assoc.set changedKey time (m.metadata.annotations.getD [])) }
    body := { data := some (Assoc.set stateKey s.name (m.body.data.getD [])) } }

/-- A new map with a state. -/
def fresh (s : RunState) (time : String) : Object .configMaps :=
  { metadata :=
      { name := some mapName, labels := some appLabels, annotations := some [(changedKey, time)] }
    body := { data := some [(stateKey, s.name)] } }

/-- Reads the map, if there is one. -/
def readMap : Program (Except StateError (Option (Object .configMaps))) := do
  match ← Program.ask (.get .configMaps mapName) with
  | .ok m => return .ok (some m)
  | .error e => if e.isNotFound then return .ok none else return .error (.read e)

/-- Writes a state into the map that was read, or into a new one. -/
def writeMap (current : Option (Object .configMaps)) (s : RunState) :
    Program (Except AccessError Unit) := do
  let time ← Program.time
  let answer ← match current with
    | some m => Program.ask (.update .configMaps (withState m s time))
    | none => Program.ask (.create .configMaps (fresh s time))
  return answer.map fun _ => ()

/-- The recorded state; none without a map or without a state in it. -/
def get : Program (Except StateError (Option RunState)) := do
  match ← readMap with
  | .error e => return .error e
  | .ok none => return .ok none
  | .ok (some m) => return stateOf m

/-- Records a state. -/
def set (s : RunState) : Program (Except StateError Unit) := do
  match ← readMap with
  | .error e => return .error e
  | .ok current =>
    match ← writeMap current s with
    | .ok () => return .ok ()
    | .error e => return .error (.write s e)

/-- The state of a map that may be missing. -/
def stateOfCurrent : Option (Object .configMaps) → Except StateError (Option RunState)
  | none => .ok none
  | some m => stateOf m

/-- What a failed write means for a claim: in conflict with another write it is lost. -/
def claimError : AccessError → StateError
  | .conflict _ _ => .taken none
  | .alreadyExists _ => .taken none
  | e => .write .installing e

/-- Moves from no state to `installing`, unless another run has a state or comes first. -/
def claim : Program (Except StateError Unit) := do
  match ← readMap with
  | .error e => return .error e
  | .ok current =>
    match stateOfCurrent current with
    | .error e => return .error e
    | .ok (some found) => return .error (.taken (some found))
    | .ok none =>
      match ← writeMap current .installing with
      | .ok () => return .ok ()
      | .error e => return .error (claimError e)

end EcosystemSetup.StateStore

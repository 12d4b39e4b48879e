import EcosystemSetup.Text.Quoted

/-!
# Texts that denote nothing

The ways in which a text fails to denote a version, a request, a phase or a run state.
-/

namespace EcosystemSetup

/-- A text that was expected to denote something and does not. -/
inductive ReadError where
  | version (text : String)
  | request (text : String)
  | phase (text : String)
  | runState (text : String)
  deriving DecidableEq, Repr

/-- The wording of the refusal. -/
def ReadError.message : ReadError → String
  | .version s => "invalid dogu version " ++ Text.quote s
  | .request s =>
    "invalid dogu reference " ++ Text.quote s ++ " (expect namespace/name[:version])"
  | .phase s =>
    "unknown phase " ++ Text.quote s ++ " (expect component, dogu or loadbalancer)"
  | .runState s =>
    "unknown run state " ++ Text.quote s ++ " (expect installing or installed)"

end EcosystemSetup

/-!
# Failures

A failure is a chain of messages: what went wrong, and below it the causes down to the root. An
aggregate keeps every one of several independent failures.
-/

namespace EcosystemSetup

/-- A chain of messages, outermost first. -/
structure Failure where
  message : String
  causes : List String := []
  deriving DecidableEq, Repr, Inhabited

namespace Failure

/-- The messages from the outermost to the root. -/
def chain (f : Failure) : List String :=
  f.message :: f.causes

/-- The failure seen from outside. -/
def context (f : Failure) (message : String) : Failure :=
  ⟨message, f.chain⟩

/-- All messages in one line, outermost first. -/
def describe (f : Failure) : String :=
  String.intercalate ": " f.chain

/-- The text of several independent failures. -/
def describeAll : List Failure → String
  | [] => "no errors"
  | [f] => f.describe
  | fs => toString fs.length ++ " errors occurred:" ++
      String.join (fs.map fun f => "\n\t* " ++ f.describe)

end Failure

end EcosystemSetup

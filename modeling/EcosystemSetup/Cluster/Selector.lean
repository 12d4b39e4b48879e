import EcosystemSetup.Assoc
import EcosystemSetup.Text.Blank
import EcosystemSetup.Text.Split

/-!
# Label selectors

A selector is a list of terms between commas, all of which must hold: `key=value` of the maps in which
the key has that value, and `key` of those that have the key. Blanks around a term and blank terms do
not count.
-/

namespace EcosystemSetup.Cluster

/-- A condition on labels. -/
inductive SelectorTerm where
  | equals (key value : String)
  | has (key : String)
  deriving DecidableEq, Repr

/-- The condition of a term's text. -/
def SelectorTerm.ofText (s : String) : SelectorTerm :=
  match Text.cutFirst s '=' with
  | some (key, value) => .equals key value
  | none => .has s

/-- Whether labels fulfil a condition. -/
def SelectorTerm.holds (labels : List (String × String)) : SelectorTerm → Bool
  | .equals key value => Assoc.get? key labels == some value
  | .has key => (Assoc.get? key labels).isSome

/-- The conditions of a selector. -/
def selectorTerms (selector : String) : List SelectorTerm :=
  (((Text.segmentsOf selector ',').map Text.trim).filter (· ≠ "")).map SelectorTerm.ofText

/-- Whether a selector matches labels. -/
def selects (selector : String) (labels : List (String × String)) : Bool :=
  (selectorTerms selector).all (SelectorTerm.holds labels)

end EcosystemSetup.Cluster

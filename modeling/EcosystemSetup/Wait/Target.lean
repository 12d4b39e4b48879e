/-!
# Targets of a wait

What a wait is for: an object by its name, or any object that a label selector matches. The selector
also scopes the watch of a named object.
-/

namespace EcosystemSetup.Wait

/-- What to wait for. -/
structure Target where
  /-- The name of the object; any object counts where there is none. -/
  name : Option String
  selector : String
  deriving DecidableEq, Repr, Inhabited

namespace Target

/-- The selector of one label with one value. -/
def selectorOf (key value : String) : String :=
  key ++ "=" ++ value

/-- The object of a name, which also carries the name as a label. -/
def named (name labelKey : String) : Target :=
  ⟨some name, selectorOf labelKey name⟩

/-- Any object with a label of a value. -/
def labelled (labelKey value : String) : Target :=
  ⟨none, selectorOf labelKey value⟩

/-- The target as a text. -/
def describe (t : Target) : String :=
  match t.name with
  | some n => n ++ " (" ++ t.selector ++ ")"
  | none => t.selector

end Target

end EcosystemSetup.Wait

import EcosystemSetup.Text.Split

/-!
# Dogu names

A qualified name is a namespace and a simple name with a slash between them. Dependencies and service
accounts refer to dogus by simple name.
-/

namespace EcosystemSetup.Dogu

/-- The part of a qualified name after its last slash; the name itself if it has none. -/
def simpleName (qualified : String) : String :=
  match Text.cutLast qualified '/' with
  | some (_, simple) => simple
  | none => qualified

/-- The part of a qualified name before its last slash; empty if it has none. -/
def namespaceOf (qualified : String) : String :=
  match Text.cutLast qualified '/' with
  | some (ns, _) => ns
  | none => ""

end EcosystemSetup.Dogu

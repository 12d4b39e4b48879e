import EcosystemSetup.Cluster.AccessError
import EcosystemSetup.Patch.Directive

/-!
# Hubs

The kinds that a cluster in memory serves besides its six collections, and the patches that were sent
to them. A hub records patches and does not apply them.
-/

namespace EcosystemSetup.Cluster

/-- A patch that was sent. -/
structure PatchRecord where
  kind : String
  namespaceName : Option String
  name : String
  operations : List Patch.Operation
  deriving BEq, Repr, Inhabited

/-- Kinds in memory. -/
structure Hub where
  /-- The served kinds by their full name, and whether they live in a namespace. -/
  kinds : List (String × Bool) := []
  /-- The names of resources that no patch finds. -/
  failing : List String := []
  /-- The patches sent so far, in order. -/
  patches : List PatchRecord := []
  deriving Repr, Inhabited

namespace Hub

/-- Serves a kind. -/
def register (h : Hub) (k : KindName) (namespaced : Bool) : Hub :=
  { h with kinds := Assoc.set k.key namespaced h.kinds }

/-- Lets patches of a name find nothing. -/
def failPatch (h : Hub) (name : String) : Hub :=
  { h with failing := h.failing ++ [name] }

/-- The plural of a kind's name, by the rules of English. -/
def pluralOf (kind : String) : String :=
  let word := kind.toList.map Char.toLower
  let isVowel (c : Char) : Bool := ['a', 'e', 'i', 'o', 'u'].contains c
  String.ofList <|
    match word.reverse with
    | 'y' :: c :: rest => if isVowel c then word ++ ['s'] else (c :: rest).reverse ++ "ies".toList
    | 's' :: _ => word ++ "es".toList
    | 'x' :: _ => word ++ "es".toList
    | 'z' :: _ => word ++ "es".toList
    | 'h' :: 'c' :: _ => word ++ "es".toList
    | 'h' :: 's' :: _ => word ++ "es".toList
    | _ => word ++ ['s']

/-- Looks up a kind. -/
def resolve (h : Hub) (k : KindName) : Except AccessError ServedKind :=
  match Assoc.get? k.key h.kinds with
  | some namespaced => .ok ⟨k, k.apiVersion, pluralOf k.kind, namespaced⟩
  | none => .error (.notFound ("resource type " ++ k.key))

/-- Records a patch; one of a failing name finds nothing. -/
def patch (h : Hub) (k : ServedKind) (namespaceName : Option String) (name : String)
    (operations : List Patch.Operation) : Except AccessError Unit × Hub :=
  let h := { h with patches := h.patches ++ [⟨k.name.kind, namespaceName, name, operations⟩] }
  if name ∈ h.failing then (.error (.notFound (k.name.kind ++ " " ++ name)), h) else (.ok (), h)

end Hub

end EcosystemSetup.Cluster

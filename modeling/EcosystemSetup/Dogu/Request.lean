import EcosystemSetup.Dogu.Name
import EcosystemSetup.Dogu.Version

/-!
# Dogu requests

A request names a dogu by namespace and simple name and may pin a version:
`namespace/simple[:version]`.
-/

namespace EcosystemSetup.Dogu

/-- A requested dogu. -/
structure Request where
  /-- The qualified name. -/
  name : String
  /-- The text of the pinned version. -/
  version : Option String := none
  deriving DecidableEq, Repr, Inhabited

namespace Request

/-- The simple name of the requested dogu. -/
def simpleName (r : Request) : String :=
  Dogu.simpleName r.name

/-- The request as a text. -/
def toText (r : Request) : String :=
  match r.version with
  | some v => r.name ++ ":" ++ v
  | none => r.name

/-- A namespace and a simple name, both non-empty, with exactly one slash between them. -/
def isQualified (name : List Char) : Bool :=
  match Text.splitFirst '/' name with
  | some (ns, simple) => !ns.isEmpty && !simple.isEmpty && !simple.contains '/'
  | none => false

/-- The request that a text without surrounding blanks denotes. -/
def ofChars? (cs : List Char) : Option Request :=
  match Text.splitFirst ':' cs with
  | some (name, version) =>
    if !version.isEmpty && isQualified name
        && (Version.read? (String.ofList version)).isSome then
      some ⟨String.ofList name, some (String.ofList version)⟩
    else none
  | none => if isQualified cs then some ⟨String.ofList cs, none⟩ else none

/-- The request that a text denotes. A refusal carries the text without surrounding blanks. -/
def read (s : String) : Except ReadError Request :=
  match ofChars? (Text.trimChars s.toList) with
  | some r => .ok r
  | none => .error (.request (Text.trim s))

end Request

end EcosystemSetup.Dogu

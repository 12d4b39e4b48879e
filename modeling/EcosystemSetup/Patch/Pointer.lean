import EcosystemSetup.Text.Split

/-!
# JSON pointers

A pointer names a place in a document by the segments on the way to it (RFC 6901). In a token the
two characters with a meaning are written `~0` and `~1`. The decoder stands beside the encoder.
-/

namespace EcosystemSetup.Pointer

/-- A character inside a token. -/
def escapeChar (c : Char) : List Char :=
  if c = '~' then ['~', '0'] else if c = '/' then ['~', '1'] else [c]

/-- A segment as a token. -/
def escape (segment : List Char) : List Char :=
  segment.flatMap escapeChar

/-- The pointer of a list of segments: a slash before each token. -/
def encode (segments : List (List Char)) : List Char :=
  segments.flatMap fun s => '/' :: escape s

/-- The segment of a token: `~1` is a slash and `~0` a tilde; any other tilde is an error. -/
def unescape : List Char → Option (List Char)
  | [] => some []
  | '~' :: '0' :: rest => (unescape rest).map ('~' :: ·)
  | '~' :: '1' :: rest => (unescape rest).map ('/' :: ·)
  | c :: rest => if c = '~' then none else (unescape rest).map (c :: ·)

/-- The segments of a pointer: none for the empty one; any other starts with a slash. -/
def decode : List Char → Option (List (List Char))
  | [] => some []
  | '/' :: rest => (Text.segments '/' rest).mapM unescape
  | _ => none

/-- A segment as a token, as texts. -/
def escapeText (segment : String) : String :=
  String.ofList (escape segment.toList)

/-- The pointer of a list of segments, as texts. -/
def ofSegments (segments : List String) : String :=
  String.ofList (encode (segments.map String.toList))

end EcosystemSetup.Pointer

import EcosystemSetup.Yaml.Scalar

/-!
# Tokens of a YAML text

The parts of a text that its structure is made of, and the reading of those that are words: anchors,
aliases, tags and directives.
-/

namespace EcosystemSetup.Yaml

open Text

/-- A part of a text. Where blocks begin and end shows in their indentation only, and so does where the
key of a block mapping begins; the lexer makes these visible. -/
inductive Token where
  | versionDirective (major minor : Nat)
  | tagDirective (handle uri : String)
  | documentStart
  | documentEnd
  | blockSequenceStart
  | blockMappingStart
  | blockEnd
  | flowSequenceStart
  | flowSequenceEnd
  | flowMappingStart
  | flowMappingEnd
  | blockEntry
  | flowEntry
  | key
  | value
  | alias (name : String)
  | anchor (name : String)
  | tag (handle suffix : String)
  | scalar (text : String) (style : Style)
  deriving DecidableEq, Repr, Inhabited

/-! ## Anchors and aliases -/

/-- Whether the name of an anchor may end before this rest. -/
def endsAnchor (rest : List Char) : Bool :=
  endsWord rest || ['?', ':', ',', ']', '\x7d', '%', '@', '`'].contains (rest.headD ' ')

/-- The name of an anchor or alias after its indicator, and what follows it. -/
def anchorName? (cs : List Char) : Option (String × List Char) :=
  let name := cs.takeWhile isNameChar
  let rest := cs.dropWhile isNameChar
  if name ≠ [] && endsAnchor rest then some (String.ofList name, rest) else none

/-! ## Tags -/

/-- The bytes that one more byte, in hexadecimal after a percent sign, stands for. -/
def percentByte? : List Char → Option (Nat × List Char)
  | '%' :: a :: b :: rest => do return (16 * (← hexDigit? a) + (← hexDigit? b), rest)
  | _ => none

/-- How many bytes a character has whose first byte this is; none begins with it otherwise. -/
def byteCount? (first : Nat) : Option Nat :=
  if first < 0x80 then some 1
  else if 0xC0 ≤ first && first < 0xE0 then some 2
  else if 0xE0 ≤ first && first < 0xF0 then some 3
  else if 0xF0 ≤ first && first < 0xF8 then some 4
  else none

/-- The code of a character after its first byte. -/
def moreBytes? : Nat → Nat → List Char → Option (Nat × List Char)
  | 0, code, cs => some (code, cs)
  | n + 1, code, cs => do
    let (b, rest) ← percentByte? cs
    guard (0x80 ≤ b && b < 0xC0)
    moreBytes? n (64 * code + (b - 0x80)) rest

/-- The character that escaped bytes stand for. -/
def percentChar? (cs : List Char) : Option (Char × List Char) := do
  let (first, rest) ← percentByte? cs
  let count ← byteCount? first
  let start := if count = 1 then first else first % Nat.pow 2 (7 - count)
  let (code, rest) ← moreBytes? (count - 1) start rest
  guard (Nat.isValidChar code)
  return (Char.ofNat code, rest)

/-- A character of a tag's suffix. -/
def isTagChar (verbatim : Bool) (c : Char) : Bool :=
  isNameChar c || ";/?:@&=+$.!~*'()".toList.contains c || (verbatim && ",[]".toList.contains c)

/-- The characters of a tag's suffix, and what follows them. -/
def tagUri? (verbatim : Bool) : Nat → List Char → Option (List Char × List Char)
  | 0, _ => none
  | _, [] => some ([], [])
  | fuel + 1, c :: rest =>
    if c = '%' then
      match percentChar? (c :: rest) with
      | none => none
      | some (e, rest) => (tagUri? verbatim fuel rest).map fun p => (e :: p.1, p.2)
    else if isTagChar verbatim c then
      (tagUri? verbatim fuel rest).map fun p => (c :: p.1, p.2)
    else some ([], c :: rest)

/-- A handle: an exclamation mark, or a name between two of them. What follows the first mark without
being closed by another is no handle, but the beginning of a suffix. -/
def tagHandle (cs : List Char) : List Char × List Char :=
  let name := cs.takeWhile isNameChar
  match cs.dropWhile isNameChar with
  | '!' :: rest => ('!' :: name ++ ['!'], rest)
  | rest => ('!' :: name, rest)

/-- A tag after its first exclamation mark: handle, suffix and what follows. The mark alone is a
suffix without a handle. -/
def tagParts? (cs : List Char) : Option (String × String × List Char) :=
  match cs with
  | '<' :: rest => do
    let (uri, rest) ← tagUri? true (rest.length + 1) rest
    guard (uri ≠ [] && rest.head? = some '>')
    return ("", String.ofList uri, rest.drop 1)
  | cs => do
    let (handle, rest) := tagHandle cs
    let (uri, rest) ← tagUri? false (rest.length + 1) rest
    if handle.length ≠ 1 && handle.getLast? = some '!' then
      guard (uri ≠ [])
      return (String.ofList handle, String.ofList uri, rest)
    else
      let suffix := handle.drop 1 ++ uri
      return if suffix = [] then ("", "!", rest) else ("!", String.ofList suffix, rest)

/-- A tag after its first exclamation mark; it ends with a word, or before a comma in a flow
collection. -/
def tag? (inFlow : Bool) (cs : List Char) : Option (Token × List Char) := do
  let (handle, suffix, rest) ← tagParts? cs
  guard (endsWord rest || (inFlow && rest.head? = some ','))
  return (.tag handle suffix, rest)

/-! ## Directives -/

/-- Drops spaces and tabs. -/
def dropGaps (cs : List Char) : List Char :=
  cs.dropWhile isGap

/-- A number of at most nine digits, and what follows it. -/
def versionNumber? (cs : List Char) : Option (Nat × List Char) :=
  let ds := cs.takeWhile isDigit
  if ds ≠ [] && ds.length ≤ 9 then some (digitsValue ds, cs.dropWhile isDigit) else none

/-- The version that a directive names. -/
def versionDirective? (cs : List Char) : Option (Token × List Char) := do
  let (major, rest) ← versionNumber? (dropGaps cs)
  guard (rest.head? = some '.')
  let (minor, rest) ← versionNumber? (rest.drop 1)
  return (.versionDirective major minor, rest)

/-- The handle that a directive defines, and what it stands for. -/
def tagDirective? (cs : List Char) : Option (Token × List Char) := do
  let cs := dropGaps cs
  guard (cs.head? = some '!')
  let (handle, rest) := tagHandle (cs.drop 1)
  guard (handle = ['!'] || handle.getLast? = some '!')
  guard (isGap (rest.headD '!'))
  let rest := dropGaps rest
  let (uri, rest) ← tagUri? true (rest.length + 1) rest
  guard (uri ≠ [] && endsWord rest)
  return (.tagDirective (String.ofList handle) (String.ofList uri), rest)

/-- A directive after its percent sign, with what follows it on its line: at most a comment. -/
def directive? (cs : List Char) : Option (Token × List Char) := do
  let name := cs.takeWhile isNameChar
  let rest := cs.dropWhile isNameChar
  guard (name ≠ [] && endsWord rest)
  let (token, rest) ←
    match String.ofList name with
    | "YAML" => versionDirective? rest
    | "TAG" => tagDirective? rest
    | _ => none
  let rest := dropGaps rest
  let rest := if rest.head? = some '#' then rest.dropWhile (fun c => !isBreak c) else rest
  guard (endsLine rest)
  return (token, rest)

end EcosystemSetup.Yaml

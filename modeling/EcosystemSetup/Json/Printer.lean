import EcosystemSetup.Decimal.Double
import EcosystemSetup.Json.Basic

/-!
# The text of a JSON value

Compact text, and text with one item per line and two blanks of indentation.
-/

namespace EcosystemSetup

/-- Four lower-case hexadecimal digits. -/
def hex4 (n : Nat) : List Char :=
  let ds := Nat.toDigits 16 n
  List.replicate (4 - ds.length) '0' ++ ds

/-- A character inside a JSON text: quotes, backslashes and controls are escaped. -/
def Json.escapeChar (c : Char) : List Char :=
  if c = '"' then ['\\', '"']
  else if c = '\\' then ['\\', '\\']
  else if c = '\n' then ['\\', 'n']
  else if c = '\r' then ['\\', 'r']
  else if c = '\t' then ['\\', 't']
  else if c = '\x08' then ['\\', 'b']
  else if c = '\x0c' then ['\\', 'f']
  else if c.toNat < 0x20 then '\\' :: 'u' :: hex4 c.toNat
  else [c]

/-- A JSON text in quotes. -/
def Json.renderText (s : String) : String :=
  String.ofList ('"' :: (s.toList.flatMap Json.escapeChar ++ ['"']))

/-- The text of a number. -/
def Number.render : Number → String
  | .integer n => toString n
  | .double bits => Decimal.renderDouble bits

namespace Json

mutual

/-- Compact text. -/
def render : Json → String
  | .null => "null"
  | .bool b => if b then "true" else "false"
  | .number n => n.render
  | .text s => renderText s
  | .list items => "[" ++ renderItems items ++ "]"
  | .record fields => "\x7b" ++ renderFields fields ++ "\x7d"

/-- Items with commas between them. -/
def renderItems : List Json → String
  | [] => ""
  | [v] => render v
  | v :: w :: rest => render v ++ "," ++ renderItems (w :: rest)

/-- Fields with commas between them. -/
def renderFields : List (String × Json) → String
  | [] => ""
  | [(k, v)] => renderText k ++ ":" ++ render v
  | (k, v) :: f :: rest => renderText k ++ ":" ++ render v ++ "," ++ renderFields (f :: rest)

end

/-- A list of texts with one item per line. -/
def renderLines : List String → String
  | [] => "[]"
  | ss => "[\n" ++ String.intercalate ",\n" (ss.map fun s => "  " ++ renderText s) ++ "\n]"

end Json

end EcosystemSetup

import EcosystemSetup.Text.Concealed

/-!
# Quoted texts

A text as it is shown inside a message: in double quotes, with quotes and backslashes escaped, the
usual short escapes, and concealed characters by their number in lower-case hexadecimal.
-/

namespace EcosystemSetup.Text

/-- The digits of a number in lower-case hexadecimal, most significant first, without padding. -/
def hexDigits (n : Nat) : List Char :=
  Nat.toDigits 16 n

/-- How a single character is shown inside a quoted text. -/
def quoteChar (c : Char) : List Char :=
  if c = '"' then ['\\', '"']
  else if c = '\\' then ['\\', '\\']
  else if c = '\n' then ['\\', 'n']
  else if c = '\r' then ['\\', 'r']
  else if c = '\t' then ['\\', 't']
  else if c = '\x00' then ['\\', '0']
  else if c.toNat < 0x20 || c.toNat == 0x7F || (0x80 ≤ c.toNat && isConcealed c) then
    '\\' :: 'u' :: '\x7b' :: (hexDigits c.toNat ++ ['\x7d'])
  else [c]

/-- The text in double quotes. -/
def quote (s : String) : String :=
  String.ofList ('"' :: (s.toList.flatMap quoteChar ++ ['"']))

end EcosystemSetup.Text

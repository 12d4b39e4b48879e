/-!
# Places in a YAML text

A cursor is what remains of a text together with the place where it begins. Lines end with a line
feed, a carriage return, both, or one of three characters of Unicode; of these the line and paragraph
separators keep their identity in scalars, and all others read as a line feed.
-/

namespace EcosystemSetup.Yaml

/-- The rest of a text, and its place. -/
structure Cursor where
  rest : List Char
  index : Nat := 0
  line : Nat := 0
  column : Nat := 0

/-- A character that may stand in a text: no control character but tabs and line ends. -/
def isAllowed (c : Char) : Bool :=
  let n := c.toNat
  n == 0x09 || n == 0x0A || n == 0x0D || (0x20 ≤ n && n ≤ 0x7E) || n == 0x85 ||
    (0xA0 ≤ n && n ≤ 0xFFFD) || 0x10000 ≤ n

/-- A space or a tab. -/
def isGap (c : Char) : Bool :=
  c = ' ' || c = '\t'

/-- A character that ends a line. -/
def isBreak (c : Char) : Bool :=
  c = '\n' || c = '\r' || c = '\u0085' || c = '\u2028' || c = '\u2029'

/-- A character that ends a word, or the end of the text. -/
def endsWord : List Char → Bool
  | [] => true
  | c :: _ => isGap c || isBreak c

/-- A character that ends a line, or the end of the text. -/
def endsLine : List Char → Bool
  | [] => true
  | c :: _ => isBreak c

/-- A letter, digit, underscore or hyphen. -/
def isNameChar (c : Char) : Bool :=
  c.isAlphanum || c = '_' || c = '-'

/-- The text of a line's end, and what follows it. -/
def cutBreak : List Char → List Char × List Char
  | '\r' :: '\n' :: rest => (['\n'], rest)
  | '\u2028' :: rest => (['\u2028'], rest)
  | '\u2029' :: rest => (['\u2029'], rest)
  | _ :: rest => (['\n'], rest)
  | [] => ([], [])

namespace Cursor

/-- The beginning of a text. -/
def start (text : List Char) : Cursor :=
  { rest := text }

/-- Moves on within a line, to a rest of the rest. -/
def moveTo (c : Cursor) (rest : List Char) : Cursor :=
  let n := c.rest.length - rest.length
  { c with rest, index := c.index + n, column := c.column + n }

/-- Moves over characters of a line. -/
def skip (c : Cursor) (n : Nat) : Cursor :=
  c.moveTo (c.rest.drop n)

/-- Moves over the end of a line. -/
def nextLine (c : Cursor) : Cursor :=
  let rest := (cutBreak c.rest).2
  { rest, index := c.index + (c.rest.length - rest.length), line := c.line + 1, column := 0 }

/-- Moves to the end of the line. -/
def toLineEnd (c : Cursor) : Cursor :=
  c.moveTo (c.rest.dropWhile fun ch => !isBreak ch)

/-- Moves over spaces and tabs. -/
def skipGaps (c : Cursor) : Cursor :=
  c.moveTo (c.rest.dropWhile isGap)

/-- Whether a document indicator stands here: three hyphens or three dots that begin a line and make
a word. -/
def atIndicator (c : Cursor) (mark : Char) : Bool :=
  c.column = 0 && c.rest.take 3 = [mark, mark, mark] && endsWord (c.rest.drop 3)

/-- Whether a document begins or ends here. -/
def atDocumentMark (c : Cursor) : Bool :=
  c.atIndicator '-' || c.atIndicator '.'

end Cursor

end EcosystemSetup.Yaml

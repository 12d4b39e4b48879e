import EcosystemSetup.Text.Numeral
import EcosystemSetup.Yaml.Cursor

/-!
# Scalars in a YAML text

The five ways to write a scalar. Within plain and quoted scalars lines are folded: one line end reads
as a space, and of several the first is dropped. Block scalars keep their lines or fold them, below an
indentation that their first line sets.
-/

namespace EcosystemSetup.Yaml

open Text

/-- How a scalar is written. -/
inductive Style where
  | plain
  | singleQuoted
  | doubleQuoted
  | literal
  | folded
  deriving DecidableEq, Repr, Inhabited

/-! ## Gaps -/

/-- What stands between two words of a scalar. -/
structure Gap where
  /-- The spaces and tabs of a gap within a line. -/
  blanks : List Char := []
  /-- Whether the gap has a line end. -/
  broken : Bool := false
  /-- The text of the first line end. -/
  first : List Char := []
  /-- The text of the other line ends. -/
  more : List Char := []

/-- What a gap reads as. -/
def Gap.text (g : Gap) : List Char :=
  if g.broken then
    if g.first = ['\n'] then (if g.more = [] then [' '] else g.more) else g.first ++ g.more
  else g.blanks

/-- Reads a gap; on later lines a tab below the indentation is an error. -/
def readGap (indent : Int) : Nat → Gap → Cursor → Option (Gap × Cursor)
  | 0, g, c => some (g, c)
  | fuel + 1, g, c =>
    match c.rest with
    | [] => some (g, c)
    | ch :: _ =>
      if isGap ch then
        if g.broken && ch = '\t' && c.column < indent then none
        else readGap indent fuel (if g.broken then g else { g with blanks := g.blanks ++ [ch] }) (c.skip 1)
      else if isBreak ch then
        let text := (cutBreak c.rest).1
        readGap indent fuel
          (if g.broken then { g with more := g.more ++ text }
            else { broken := true, first := text })
          c.nextLine
      else some (g, c)

/-! ## Plain scalars -/

/-- The characters with a meaning inside a flow collection. -/
def isFlowIndicator (c : Char) : Bool :=
  c = ',' || c = '[' || c = ']' || c = '\x7b' || c = '\x7d'

/-- Whether a colon before this rest is an error in a flow collection. -/
def forbidsColon : List Char → Bool
  | c :: _ => isFlowIndicator c || c = '?'
  | [] => false

/-- A word of a plain scalar, and what follows it. -/
def plainWord (inFlow : Bool) : List Char → Option (List Char × List Char)
  | [] => some ([], [])
  | c :: rest =>
    if isGap c || isBreak c then some ([], c :: rest)
    else if inFlow && c = ':' && forbidsColon rest then none
    else if (c = ':' && endsWord rest) || (inFlow && isFlowIndicator c) then some ([], c :: rest)
    else (plainWord inFlow rest).map fun p => (c :: p.1, p.2)

/-- A scalar that was read: its text, where it ends, and whether it ended on a later line. -/
structure ReadScalar where
  text : List Char
  cursor : Cursor
  afterBreak : Bool := false

/-- Reads a plain scalar; `gap` stands before its next word. -/
def readPlain (inFlow : Bool) (indent : Int) :
    Nat → List Char → Gap → Cursor → Option ReadScalar
  | 0, _, _, _ => none
  | fuel + 1, text, gap, c =>
    if c.atDocumentMark || c.rest.head? = some '#' then some ⟨text, c, gap.broken⟩
    else
      match plainWord inFlow c.rest with
      | none => none
      | some ([], _) => some ⟨text, c, gap.broken⟩
      | some (word, rest) =>
        let text := text ++ gap.text ++ word
        let c := c.moveTo rest
        if rest = [] || !endsWord rest then some ⟨text, c, false⟩
        else
          match readGap indent (rest.length + 1) {} c with
          | none => none
          | some (gap, c) =>
            if !inFlow && c.column < indent then some ⟨text, c, gap.broken⟩
            else readPlain inFlow indent fuel text gap c

/-! ## Quoted scalars -/

/-- The value of a hexadecimal digit. -/
def hexDigit? (c : Char) : Option Nat :=
  if isDigit c then some (digitValue c)
  else if 'a' ≤ c && c ≤ 'f' then some (c.toNat - 'a'.toNat + 10)
  else if 'A' ≤ c && c ≤ 'F' then some (c.toNat - 'A'.toNat + 10)
  else none

/-- The character of a code that is written with a number of hexadecimal digits. -/
def codeEscape? (digits : Nat) (cs : List Char) : Option (Char × List Char) := do
  let ds ← (cs.take digits).mapM hexDigit?
  guard (ds.length = digits)
  let code := ds.foldl (fun n d => 16 * n + d) 0
  guard (code < 0xD800 || (0xDFFF < code && code ≤ 0x10FFFF))
  return (Char.ofNat code, cs.drop digits)

/-- The character that an escape stands for. -/
def shortEscape? : Char → Option Char
  | '0' => some '\x00'
  | 'a' => some '\x07'
  | 'b' => some '\x08'
  | 't' => some '\t'
  | '\t' => some '\t'
  | 'n' => some '\n'
  | 'v' => some '\x0b'
  | 'f' => some '\x0c'
  | 'r' => some '\r'
  | 'e' => some '\x1b'
  | ' ' => some ' '
  | '"' => some '"'
  | '/' => some '/'
  | '\\' => some '\\'
  | 'N' => some '\u0085'
  | '_' => some '\u00a0'
  | 'L' => some '\u2028'
  | 'P' => some '\u2029'
  | _ => none

/-- The character of an escape after its backslash, and what follows it. -/
def escape? : List Char → Option (Char × List Char)
  | [] => none
  | 'x' :: rest => codeEscape? 2 rest
  | 'u' :: rest => codeEscape? 4 rest
  | 'U' :: rest => codeEscape? 8 rest
  | c :: rest => (shortEscape? c).map fun e => (e, rest)

/-- A word of a quoted scalar. -/
structure QuotedWord where
  text : List Char
  rest : List Char
  /-- Whether the word ends with an escaped line end, which then begins the rest. -/
  joined : Bool := false

/-- A word of a single-quoted scalar: a quote is written twice. -/
def singleWord : List Char → QuotedWord
  | [] => ⟨[], [], false⟩
  | '\'' :: '\'' :: rest => let w := singleWord rest; { w with text := '\'' :: w.text }
  | c :: rest =>
    if c = '\'' || isGap c || isBreak c then ⟨[], c :: rest, false⟩
    else let w := singleWord rest; { w with text := c :: w.text }

/-- A word of a double-quoted scalar, which may hold escapes. -/
def doubleWord : Nat → List Char → Option QuotedWord
  | 0, _ => none
  | _, [] => some ⟨[], [], false⟩
  | fuel + 1, c :: rest =>
    if c = '"' || isGap c || isBreak c then some ⟨[], c :: rest, false⟩
    else if c = '\\' then
      if rest ≠ [] && endsLine rest then some ⟨[], rest, true⟩
      else
        match escape? rest with
        | none => none
        | some (e, rest) => (doubleWord fuel rest).map fun w => { w with text := e :: w.text }
    else (doubleWord fuel rest).map fun w => { w with text := c :: w.text }

/-- Reads a quoted scalar after its opening quote. -/
def readQuoted (quote : Char) : Nat → List Char → Cursor → Option ReadScalar
  | 0, _, _ => none
  | fuel + 1, text, c =>
    if c.atDocumentMark || c.rest = [] then none
    else
      let word :=
        if quote = '\'' then some (singleWord c.rest) else doubleWord (c.rest.length + 1) c.rest
      match word with
      | none => none
      | some w =>
        let text := text ++ w.text
        let c := c.moveTo w.rest
        let (gap, c) : Gap × Cursor := if w.joined then ({ broken := true }, c.nextLine) else ({}, c)
        if c.rest.head? = some quote then some ⟨text, c.skip 1, false⟩
        else
          match readGap 0 (c.rest.length + 1) gap c with
          | none => none
          | some (gap, c) => readQuoted quote fuel (text ++ gap.text) c

/-! ## Block scalars -/

/-- What becomes of the line ends at the end of a block scalar. -/
inductive Chomping where
  | strip
  | clip
  | keep
  deriving DecidableEq, Repr

/-- The chomping that an indicator stands for. -/
def chomping? : List Char → Option (Chomping × List Char)
  | '+' :: rest => some (.keep, rest)
  | '-' :: rest => some (.strip, rest)
  | _ => none

/-- The indentation that an indicator sets; zero is an error, and no digit sets none. -/
def increment? : List Char → Option (Nat × List Char)
  | c :: rest =>
    if isDigit c then (if c = '0' then none else some (digitValue c, rest)) else some (0, c :: rest)
  | [] => some (0, [])

/-- The indicators of a block scalar, in either order. -/
def blockHeader? (cs : List Char) : Option (Chomping × Nat × List Char) :=
  match chomping? cs with
  | some (chomping, rest) => (increment? rest).map fun p => (chomping, p.1, p.2)
  | none =>
    match increment? cs with
    | none => none
    | some (0, rest) => some (.clip, 0, rest)
    | some (increment, rest) =>
      match chomping? rest with
      | some (chomping, rest) => some (chomping, increment, rest)
      | none => some (.clip, increment, rest)

/-- Empty lines before the next line of a block scalar. -/
structure EmptyLines where
  /-- The text of their line ends. -/
  text : List Char
  /-- The widest indentation among them and the next line. -/
  widest : Nat
  cursor : Cursor

/-- Reads empty lines; `indent` is zero as long as it is not known. A tab in the indentation is an
error. -/
def readEmptyLines (indent : Nat) : Nat → List Char → Nat → Cursor → Option EmptyLines
  | 0, _, _, _ => none
  | fuel + 1, text, widest, c =>
    let spaces := (c.rest.takeWhile (· = ' ')).length
    let c := c.skip (if indent = 0 then spaces else min spaces (indent - c.column))
    let widest := max widest c.column
    if (indent = 0 || c.column < indent) && c.rest.head? = some '\t' then none
    else if c.rest ≠ [] && endsLine c.rest then
      readEmptyLines indent fuel (text ++ (cutBreak c.rest).1) widest c.nextLine
    else some ⟨text, widest, c⟩

/-- A block scalar as far as it was read. -/
structure BlockState where
  text : List Char := []
  /-- The end of the last line. -/
  lastBreak : List Char := []
  /-- The line ends of the empty lines after it. -/
  emptyLines : List Char := []
  /-- Whether the last line began with a blank, so that it is not folded. -/
  blankLine : Bool := false

/-- What the line ends before a line read as. -/
def BlockState.joint (b : BlockState) (folds blank : Bool) : List Char :=
  if folds && b.lastBreak = ['\n'] && !b.blankLine && !blank then
    if b.emptyLines = [] then [' '] else b.emptyLines
  else b.lastBreak ++ b.emptyLines

/-- Reads the lines of a block scalar. -/
def readBlockLines (folds : Bool) (indent : Nat) :
    Nat → BlockState → Cursor → Option (BlockState × Cursor)
  | 0, _, _ => none
  | fuel + 1, b, c =>
    match c.rest with
    | [] => some (b, c)
    | ch :: _ =>
      if c.column = indent then
        let blank := isGap ch
        let line := c.rest.takeWhile fun ch => !isBreak ch
        let text := b.text ++ b.joint folds blank ++ line
        let c := c.toLineEnd
        let lastBreak := (cutBreak c.rest).1
        let c := if c.rest = [] then c else c.nextLine
        match readEmptyLines indent (c.rest.length + 1) [] 0 c with
        | none => none
        | some e =>
          readBlockLines folds indent fuel ⟨text, lastBreak, e.text, blank⟩ e.cursor
      else some (b, c)

/-- The text of a block scalar with its end. -/
def BlockState.chomped (b : BlockState) : Chomping → List Char
  | .strip => b.text
  | .clip => b.text ++ b.lastBreak
  | .keep => b.text ++ b.lastBreak ++ b.emptyLines

/-- Reads a block scalar after its indicator, in a collection of the given indentation. -/
def readBlock (folds : Bool) (parent : Int) (c : Cursor) : Option ReadScalar := do
  let (chomping, increment, rest) ← blockHeader? c.rest
  let c := (c.moveTo rest).skipGaps
  let c := if c.rest.head? = some '#' then c.toLineEnd else c
  guard (endsLine c.rest)
  let c := if c.rest = [] then c else c.nextLine
  let given : Nat :=
    if increment = 0 then 0 else (if 0 ≤ parent then parent.toNat + increment else increment)
  let e ← readEmptyLines given (c.rest.length + 1) [] 0 c
  let indent := if given = 0 then max 1 (max e.widest (parent + 1).toNat) else given
  let (b, c) ←
    readBlockLines folds indent (e.cursor.rest.length + 1) { emptyLines := e.text } e.cursor
  return ⟨b.chomped chomping, c, false⟩

end EcosystemSetup.Yaml

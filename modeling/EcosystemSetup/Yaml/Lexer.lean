import EcosystemSetup.Yaml.Token

/-!
# The lexer of YAML

Cuts a text into tokens and makes its indentation visible. A node that stands where a key may stand
becomes one if a colon follows it on its line, not too far away; the key's token is then put before
the tokens of the node. In a block, what begins in the column of its keys must become one.
-/

namespace EcosystemSetup.Yaml

/-- A node that may turn out to be a key. -/
structure KeyMark where
  /-- How many tokens stand before it. -/
  place : Nat
  index : Nat
  line : Nat
  column : Nat
  /-- Whether it must be a key. -/
  required : Bool

/-- How far a colon may stand from the beginning of its key. -/
def keyReach : Nat := 1024

/-- The state of the lexer. -/
structure Lexer where
  cursor : Cursor
  /-- The tokens so far, the last one first. -/
  tokens : List Token := []
  /-- The column of the innermost block; none is before the first column. -/
  indent : Int := -1
  /-- The columns of the blocks around it, innermost first. -/
  outer : List Int := []
  /-- Whether a key may begin here. -/
  keyAllowed : Bool := true
  /-- What may become a key in the innermost collection. -/
  mark : Option KeyMark := none
  /-- The same for the collections around it: for each flow collection that is open here. -/
  outerMarks : List (Option KeyMark) := []

namespace Lexer

/-- Whether a flow collection is open. -/
def inFlow (l : Lexer) : Bool :=
  l.outerMarks ≠ []

/-- Adds a token. -/
def push (l : Lexer) (t : Token) : Lexer :=
  { l with tokens := t :: l.tokens }

/-- Puts a token after the first `place` ones. -/
def insert (l : Lexer) (place : Nat) (t : Token) : Lexer :=
  { l with tokens := l.tokens.insertIdx (l.tokens.length - place) t }

/-- Closes the blocks that are indented deeper than a column. -/
def unroll (column : Int) : Nat → Lexer → Lexer
  | 0, l => l
  | fuel + 1, l =>
    if column < l.indent then
      unroll column fuel
        ({ l with indent := l.outer.headD (-1), outer := l.outer.tail }.push .blockEnd)
    else l

/-- Closes the blocks that end before a column; in a flow collection blocks have no say. -/
def closeBlocks (l : Lexer) (column : Int) : Lexer :=
  if l.inFlow then l else unroll column (l.outer.length + 1) l

/-- Opens a block in a column, unless it is open; its token stands at a place. -/
def openBlock (l : Lexer) (column place : Nat) (t : Token) : Lexer :=
  if !l.inFlow && l.indent < column then
    { l with indent := column, outer := l.indent :: l.outer }.insert place t
  else l

/-- Opens a block at the cursor. -/
def openBlockHere (l : Lexer) (t : Token) : Lexer :=
  l.openBlock l.cursor.column l.tokens.length t

/-- Gives up what may become a key; what must become one is an error. -/
def dropMark (l : Lexer) : Option Lexer :=
  match l.mark with
  | some m => if m.required then none else some { l with mark := none }
  | none => some l

/-- Marks the node at the cursor, if it may become a key. -/
def saveMark (l : Lexer) : Option Lexer :=
  if l.keyAllowed then
    l.dropMark.map fun l =>
      { l with
        mark := some
          { place := l.tokens.length, index := l.cursor.index, line := l.cursor.line
            column := l.cursor.column, required := !l.inFlow && l.indent = l.cursor.column } }
  else some l

/-- What a colon at the cursor makes a key of; what must become a key and cannot is an error. -/
def liveMark (l : Lexer) : Option (Option KeyMark) :=
  match l.mark with
  | none => some none
  | some m =>
    if m.line < l.cursor.line || m.index + keyReach < l.cursor.index then
      if m.required then none else some none
    else some (some m)

/-- Moves over an indicator of some characters. -/
def step (l : Lexer) (n : Nat) : Lexer :=
  { l with cursor := l.cursor.skip n }

/-- Whether a key may begin from here on. -/
def allowKey (l : Lexer) (allowed : Bool) : Lexer :=
  { l with keyAllowed := allowed }

/-! ## Between tokens -/

/-- Moves over blanks, comments and line ends to the next token. A tab may not stand where a key may
begin; after a line end a key may begin. -/
def skipToToken : Nat → Lexer → Lexer
  | 0, l => l
  | fuel + 1, l =>
    let tabs := l.inFlow || !l.keyAllowed
    let c := l.cursor
    let c := if c.index = 0 && c.rest.head? = some '\ufeff' then c.skip 1 else c
    let c := c.moveTo (c.rest.dropWhile fun ch => ch = ' ' || (tabs && ch = '\t'))
    let c := if c.rest.head? = some '#' then c.toLineEnd else c
    if c.rest ≠ [] && endsLine c.rest then
      skipToToken fuel { l with cursor := c.nextLine, keyAllowed := l.keyAllowed || !l.inFlow }
    else { l with cursor := c }

/-! ## Tokens -/

/-- A directive. -/
def readDirective (l : Lexer) : Option Lexer := do
  let l ← (l.closeBlocks (-1)).dropMark
  let (token, rest) ← directive? (l.cursor.rest.drop 1)
  return { (l.allowKey false).push token with cursor := l.cursor.moveTo rest }

/-- An indicator of a document. -/
def readDocumentMark (l : Lexer) (t : Token) : Option Lexer :=
  (l.closeBlocks (-1)).dropMark.map fun l => ((l.allowKey false).step 3).push t

/-- The beginning of a flow collection. -/
def readFlowStart (l : Lexer) (t : Token) : Option Lexer :=
  l.saveMark.map fun l =>
    ({ l with keyAllowed := true, mark := none, outerMarks := l.mark :: l.outerMarks }.step 1).push t

/-- The end of a flow collection. -/
def readFlowEnd (l : Lexer) (t : Token) : Option Lexer :=
  l.dropMark.map fun l =>
    let l := { l with mark := l.outerMarks.headD l.mark, outerMarks := l.outerMarks.tail }
    ((l.allowKey false).step 1).push t

/-- A comma in a flow collection. -/
def readFlowEntry (l : Lexer) : Option Lexer :=
  l.dropMark.map fun l => ((l.allowKey true).step 1).push .flowEntry

/-- A hyphen before an item of a block sequence. -/
def readBlockEntry (l : Lexer) : Option Lexer :=
  if !l.inFlow && !l.keyAllowed then none
  else
    (l.openBlockHere .blockSequenceStart).dropMark.map fun l =>
      ((l.allowKey true).step 1).push .blockEntry

/-- A question mark before a key. -/
def readKey (l : Lexer) : Option Lexer :=
  if !l.inFlow && !l.keyAllowed then none
  else
    (l.openBlockHere .blockMappingStart).dropMark.map fun l =>
      ((l.allowKey !l.inFlow).step 1).push .key

/-- A colon before a value: after a marked node, which becomes its key, or where a key might begin. -/
def readValue (l : Lexer) : Option Lexer :=
  match l.liveMark with
  | none => none
  | some (some m) =>
    let l := (l.insert m.place .key).openBlock m.column m.place .blockMappingStart
    some ((({ l with mark := none }.allowKey false).step 1).push .value)
  | some none =>
    if !l.inFlow && !l.keyAllowed then none
    else
      let l := { l.openBlockHere .blockMappingStart with mark := none }
      some (((l.allowKey !l.inFlow).step 1).push .value)

/-- An anchor or an alias. -/
def readAnchor (l : Lexer) (token : String → Token) : Option Lexer := do
  let l ← l.saveMark
  let (name, rest) ← anchorName? (l.cursor.rest.drop 1)
  return { (l.allowKey false).push (token name) with cursor := l.cursor.moveTo rest }

/-- A tag. -/
def readTag (l : Lexer) : Option Lexer := do
  let l ← l.saveMark
  let (token, rest) ← tag? l.inFlow (l.cursor.rest.drop 1)
  return { (l.allowKey false).push token with cursor := l.cursor.moveTo rest }

/-- A scalar that was read. -/
def pushScalar (l : Lexer) (s : ReadScalar) (style : Style) : Lexer :=
  { l.push (.scalar (String.ofList s.text) style) with cursor := s.cursor }

/-- A block scalar. -/
def readBlockScalar (l : Lexer) (style : Style) : Option Lexer := do
  let l ← l.dropMark
  let s ← readBlock (style = .folded) l.indent (l.cursor.skip 1)
  return (l.allowKey true).pushScalar s style

/-- A quoted scalar. -/
def readQuotedScalar (l : Lexer) (quote : Char) (style : Style) : Option Lexer := do
  let l ← l.saveMark
  let s ← readQuoted quote (l.cursor.rest.length + 1) [] (l.cursor.skip 1)
  return (l.allowKey false).pushScalar s style

/-- A plain scalar; after a line end a key may begin. -/
def readPlainScalar (l : Lexer) : Option Lexer := do
  let l ← l.saveMark
  let s ← readPlain l.inFlow (l.indent + 1) (l.cursor.rest.length + 1) [] {} l.cursor
  return (l.allowKey s.afterBreak).pushScalar s .plain

/-- The characters that begin no plain scalar. -/
def isIndicator (c : Char) : Bool :=
  "-?:,[]\x7b\x7d#&*!|>'\"%@`".toList.contains c

/-- Whether a plain scalar begins with a character before a rest. -/
def beginsPlain (inFlow : Bool) (c : Char) (rest : List Char) : Bool :=
  if c = '-' then !(isGap (rest.headD 'x'))
  else if c = '?' || c = ':' then !inFlow && !endsWord rest
  else !isIndicator c && !isGap c && !isBreak c

/-- The next token at a character before a rest. -/
def readToken (l : Lexer) (c : Char) (rest : List Char) : Option Lexer :=
  if l.cursor.column = 0 && c = '%' then l.readDirective
  else if l.cursor.atIndicator '-' then l.readDocumentMark .documentStart
  else if l.cursor.atIndicator '.' then l.readDocumentMark .documentEnd
  else if c = '[' then l.readFlowStart .flowSequenceStart
  else if c = '\x7b' then l.readFlowStart .flowMappingStart
  else if c = ']' then l.readFlowEnd .flowSequenceEnd
  else if c = '\x7d' then l.readFlowEnd .flowMappingEnd
  else if c = ',' then l.readFlowEntry
  else if c = '-' && endsWord rest then l.readBlockEntry
  else if c = '?' && (l.inFlow || endsWord rest) then l.readKey
  else if c = ':' && (l.inFlow || endsWord rest) then l.readValue
  else if c = '*' then l.readAnchor .alias
  else if c = '&' then l.readAnchor .anchor
  else if c = '!' then l.readTag
  else if c = '|' && !l.inFlow then l.readBlockScalar .literal
  else if c = '>' && !l.inFlow then l.readBlockScalar .folded
  else if c = '\'' then l.readQuotedScalar '\'' .singleQuoted
  else if c = '"' then l.readQuotedScalar '"' .doubleQuoted
  else if beginsPlain l.inFlow c rest then l.readPlainScalar
  else none

/-- The end of the text closes all blocks. -/
def finish (l : Lexer) : Option Lexer :=
  (l.closeBlocks (-1)).dropMark

/-- Reads tokens to the end of the text. -/
def readAll : Nat → Lexer → Option Lexer
  | 0, _ => none
  | fuel + 1, l =>
    let l := skipToToken (l.cursor.rest.length + 1) l
    let l := l.closeBlocks l.cursor.column
    match l.cursor.rest with
    | [] => l.finish
    | c :: rest => (l.readToken c rest).bind (readAll fuel)

end Lexer

/-- The tokens of a text, in order. A byte order mark before the text is no part of it. -/
def tokens? (text : String) : Option (List Token) :=
  let cs := match text.toList with
    | '\ufeff' :: rest => rest
    | cs => cs
  if cs.all isAllowed then
    (Lexer.readAll (cs.length + 1) { cursor := .start cs }).map fun l => l.tokens.reverse
  else none

end EcosystemSetup.Yaml

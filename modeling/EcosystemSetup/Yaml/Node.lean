import EcosystemSetup.Yaml.Lexer

/-!
# Nodes of a YAML text

A text holds at most one document, and a document is one node. Nodes may be named by anchors and taken
up again by aliases; an alias inside the node that it names has no value.
-/

namespace EcosystemSetup.Yaml

/-- A node, with its tag resolved. -/
inductive Node where
  | scalar (tag : Option String) (style : Style) (text : String)
  | sequence (tag : Option String) (items : List Node)
  | mapping (tag : Option String) (entries : List (Node × Node))
  /-- An alias inside the node that it names. -/
  | unfinished
  deriving Inhabited

/-- The node of what is left out. -/
def Node.absent : Node :=
  .scalar none .plain ""

/-- What remains of a document, and what its names stand for. -/
structure Feed where
  tokens : List Token
  /-- What the handles of tags stand for. -/
  handles : List (String × String)
  /-- The anchors met so far, the last one first, by the number of their node. -/
  anchors : List (String × Nat) := []
  /-- The nodes with anchors that are complete. -/
  nodes : List (Nat × Node) := []

namespace Feed

/-- The next token. -/
def peek (f : Feed) : Option Token :=
  f.tokens.head?

/-- Moves over a token. -/
def advance (f : Feed) : Feed :=
  { f with tokens := f.tokens.tail }

/-- Whether the next token is one of some tokens. -/
def at? (f : Feed) (ts : List Token) : Bool :=
  match f.peek with
  | some t => ts.contains t
  | none => false

/-- The node that an alias stands for. -/
def lookUp (f : Feed) (name : String) : Option Node :=
  (f.anchors.lookup name).map fun number => (f.nodes.lookup number).getD .unfinished

/-- Names a node that begins here. -/
def name (f : Feed) : Option String → Feed × Option Nat
  | some anchor =>
    let number := f.anchors.length
    ({ f with anchors := (anchor, number) :: f.anchors }, some number)
  | none => (f, none)

/-- Completes a node that may have a name. -/
def complete (f : Feed) (number : Option Nat) (node : Node) : Feed :=
  match number with
  | some n => { f with nodes := (n, node) :: f.nodes }
  | none => f

end Feed

/-- The properties of a node: an anchor, and a tag by handle and suffix. -/
structure Properties where
  anchor : Option String := none
  tag : Option (String × String) := none

/-- The properties before a node, in either order. -/
def readProperties (f : Feed) : Properties × Feed :=
  match f.tokens with
  | .anchor a :: .tag h s :: _ => (⟨some a, some (h, s)⟩, f.advance.advance)
  | .tag h s :: .anchor a :: _ => (⟨some a, some (h, s)⟩, f.advance.advance)
  | .anchor a :: _ => (⟨some a, none⟩, f.advance)
  | .tag h s :: _ => (⟨none, some (h, s)⟩, f.advance)
  | _ => ({}, f)

/-- A tag with its handle resolved; a handle that stands for nothing is an error. -/
def resolveTag (handles : List (String × String)) :
    Option (String × String) → Option (Option String)
  | none => some none
  | some (handle, suffix) =>
    if handle = "" then some (some suffix)
    else (handles.lookup handle).map fun uri => some (uri ++ suffix)

/-- A part that was read. -/
structure Read (α : Type) where
  value : α
  feed : Feed

/-- The tag of a scalar; a lone exclamation mark is none. -/
def scalarTag : Option String → Option String
  | some "!" => none
  | tag => tag

mutual

/-- A node. `block` says whether it may be a block, and `indentless` whether it may be a block sequence
in the column of the mapping around it. -/
def readNode (block indentless : Bool) : Nat → Feed → Option (Read Node)
  | 0, _ => none
  | fuel + 1, f =>
    match f.peek with
    | some (.alias name) => (f.lookUp name).map fun node => ⟨node, f.advance⟩
    | _ =>
      let (props, f) := readProperties f
      match resolveTag f.handles props.tag with
      | none => none
      | some tag =>
        let (f, number) := f.name props.anchor
        let content : Option (Read Node) :=
          match f.peek with
          | some .blockEntry =>
            if indentless then
              (readIndentless fuel f).map fun r => ⟨.sequence tag r.value, r.feed⟩
            else if props.anchor.isSome || tag.isSome then some ⟨.scalar tag .plain "", f⟩
            else none
          | some (.scalar text style) => some ⟨.scalar (scalarTag tag) style text, f.advance⟩
          | some .flowSequenceStart =>
            (readFlowItems true fuel f.advance).map fun r => ⟨.sequence tag r.value, r.feed⟩
          | some .flowMappingStart =>
            (readFlowEntries true fuel f.advance).map fun r => ⟨.mapping tag r.value, r.feed⟩
          | some .blockSequenceStart =>
            if block then
              (readBlockItems fuel f.advance).map fun r => ⟨.sequence tag r.value, r.feed⟩
            else if props.anchor.isSome || tag.isSome then some ⟨.scalar tag .plain "", f⟩
            else none
          | some .blockMappingStart =>
            if block then
              (readBlockEntries fuel f.advance).map fun r => ⟨.mapping tag r.value, r.feed⟩
            else if props.anchor.isSome || tag.isSome then some ⟨.scalar tag .plain "", f⟩
            else none
          | _ =>
            if props.anchor.isSome || tag.isSome then some ⟨.scalar tag .plain "", f⟩ else none
        content.map fun r => ⟨r.value, r.feed.complete number r.value⟩

/-- A node, or nothing before one of some tokens. -/
def readUnless (stops : List Token) (block indentless : Bool) : Nat → Feed → Option (Read Node)
  | 0, _ => none
  | fuel + 1, f =>
    if f.at? stops then some ⟨.absent, f⟩ else readNode block indentless fuel f

/-- The items of a block sequence, with its end. -/
def readBlockItems : Nat → Feed → Option (Read (List Node))
  | 0, _ => none
  | fuel + 1, f =>
    match f.peek with
    | some .blockEntry =>
      (readUnless [.blockEntry, .blockEnd] true false fuel f.advance).bind fun r =>
        (readBlockItems fuel r.feed).map fun rs => ⟨r.value :: rs.value, rs.feed⟩
    | some .blockEnd => some ⟨[], f.advance⟩
    | _ => none

/-- The items of a block sequence in the column of the mapping around it. -/
def readIndentless : Nat → Feed → Option (Read (List Node))
  | 0, _ => none
  | fuel + 1, f =>
    match f.peek with
    | some .blockEntry =>
      (readUnless [.blockEntry, .key, .value, .blockEnd] true false fuel f.advance).bind fun r =>
        (readIndentless fuel r.feed).map fun rs => ⟨r.value :: rs.value, rs.feed⟩
    | _ => some ⟨[], f⟩

/-- The value of an entry of a block mapping, which may be left out. -/
def readBlockValue : Nat → Feed → Option (Read Node)
  | 0, _ => none
  | fuel + 1, f =>
    match f.peek with
    | some .value => readUnless [.key, .value, .blockEnd] true true fuel f.advance
    | _ => some ⟨.absent, f⟩

/-- The entries of a block mapping, with its end. -/
def readBlockEntries : Nat → Feed → Option (Read (List (Node × Node)))
  | 0, _ => none
  | fuel + 1, f =>
    let key : Option (Option (Read Node)) :=
      match f.peek with
      | some .key =>
        (readUnless [.key, .value, .blockEnd] true true fuel f.advance).map some
      | some .blockEnd => some none
      | _ => none
    match key with
    | none => none
    | some none => some ⟨[], f.advance⟩
    | some (some k) =>
      (readBlockValue fuel k.feed).bind fun v =>
        (readBlockEntries fuel v.feed).map fun rs => ⟨(k.value, v.value) :: rs.value, rs.feed⟩

/-- The value of an entry in a flow collection, which may be left out before some tokens. -/
def readFlowValue (stops : List Token) : Nat → Feed → Option (Read Node)
  | 0, _ => none
  | fuel + 1, f =>
    match f.peek with
    | some .value => readUnless stops false false fuel f.advance
    | _ => some ⟨.absent, f⟩

/-- The items of a flow sequence, with its end. An entry of a mapping may stand alone as an item. -/
def readFlowItems (first : Bool) : Nat → Feed → Option (Read (List Node))
  | 0, _ => none
  | fuel + 1, f =>
    let separated : Option Feed :=
      match first, f.peek with
      | false, some .flowEntry => some f.advance
      | false, some .flowSequenceEnd => some f
      | true, _ => some f
      | _, _ => none
    match separated with
    | none => none
    | some f =>
      match f.peek with
      | some .flowSequenceEnd => some ⟨[], f.advance⟩
      | some .key =>
        let stops : List Token := [.flowEntry, .flowSequenceEnd]
        (readNode false false fuel f.advance).bind fun k =>
          (readFlowValue stops fuel k.feed).bind fun v =>
            (readFlowItems false fuel v.feed).map fun rs =>
              ⟨.mapping none [(k.value, v.value)] :: rs.value, rs.feed⟩
      | _ =>
        (readNode false false fuel f).bind fun r =>
          (readFlowItems false fuel r.feed).map fun rs => ⟨r.value :: rs.value, rs.feed⟩

/-- The entries of a flow mapping, with its end. -/
def readFlowEntries (first : Bool) : Nat → Feed → Option (Read (List (Node × Node)))
  | 0, _ => none
  | fuel + 1, f =>
    let separated : Option Feed :=
      match first, f.peek with
      | false, some .flowEntry => some f.advance
      | false, some .flowMappingEnd => some f
      | true, _ => some f
      | _, _ => none
    match separated with
    | none => none
    | some f =>
      let stops : List Token := [.flowEntry, .flowMappingEnd]
      match f.peek with
      | some .flowMappingEnd => some ⟨[], f.advance⟩
      | some .key =>
        (readUnless (.value :: stops) false false fuel f.advance).bind fun k =>
          (readFlowValue stops fuel k.feed).bind fun v =>
            (readFlowEntries false fuel v.feed).map fun rs =>
              ⟨(k.value, v.value) :: rs.value, rs.feed⟩
      | _ =>
        (readNode false false fuel f).bind fun k =>
          (readFlowEntries false fuel k.feed).map fun rs =>
            ⟨(k.value, .absent) :: rs.value, rs.feed⟩

end

/-! ## Documents -/

/-- What a document's directives say. -/
structure Directives where
  version : Option (Nat × Nat) := none
  handles : List (String × String) := []

/-- The handles that every document has, unless it defines them otherwise. -/
def standardHandles : List (String × String) :=
  [("!", "!"), ("!!", "tag:yaml.org,2002:")]

/-- The directives before a document. A version is given once and is 1.1 or 1.2, and no handle is
defined twice. -/
def readDirectives (d : Directives) : List Token → Option (Directives × List Token)
  | .versionDirective major minor :: rest =>
    if d.version.isNone && major = 1 && (minor = 1 || minor = 2) then
      readDirectives { d with version := some (major, minor) } rest
    else none
  | .tagDirective handle uri :: rest =>
    if (d.handles.lookup handle).isNone then
      readDirectives { d with handles := d.handles ++ [(handle, uri)] } rest
    else none
  | ts => some (d, ts)

/-- Whether a document's content ends before it begins. -/
def isEmptyContent : List Token → Bool
  | [] => true
  | .versionDirective _ _ :: _ => true
  | .tagDirective _ _ :: _ => true
  | .documentStart :: _ => true
  | .documentEnd :: _ => true
  | _ => false

/-- The node of a document, and what follows it. -/
def readContent (handles : List (String × String)) (tokens : List Token) :
    Option (Node × List Token) :=
  if isEmptyContent tokens then some (.absent, tokens)
  else
    (readNode true false (4 * tokens.length + 4) { tokens, handles }).map fun r =>
      (r.value, r.feed.tokens)

/-- The first document: with directives and a start of its own, or without both. -/
def readDocument (tokens : List Token) : Option (Node × List Token) :=
  match readDirectives {} tokens with
  | none => none
  | some (d, .documentStart :: rest) => readContent (d.handles ++ standardHandles) rest
  | some (_, rest) =>
    if rest.length = tokens.length && rest.head? ≠ some .documentEnd then
      readContent standardHandles rest
    else none

/-- The node of a text's only document; a text may also be empty. -/
def parse? (text : String) : Option (Option Node) :=
  match tokens? text with
  | none => none
  | some [] => some none
  | some tokens =>
    match readDocument tokens with
    | none => none
    | some (node, rest) => if rest.all (· == .documentEnd) then some (some node) else none

end EcosystemSetup.Yaml

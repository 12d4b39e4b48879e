import EcosystemSetup.Decimal.Double
import EcosystemSetup.Document.Basic
import EcosystemSetup.Text.Numeral

/-!
# Reading JSON text

The grammar of RFC 8259. A text that is none has been cut short, if more characters could complete
it, or is malformed. Lists and records may nest to a depth of 127; what is deeper, a text with
half a surrogate pair and a number beyond the doubles are unreadable nodes. Integers of 64 bits stay
integers; other numbers, and a negative zero, are doubles.
-/

namespace EcosystemSetup.Document

open Text

/-- Drops JSON's white space. -/
def skipSpace (cs : List Char) : List Char :=
  cs.dropWhile fun c => c = ' ' || c = '\n' || c = '\t' || c = '\r'

/-- The value of a hexadecimal digit. -/
def hexValue? (c : Char) : Option Nat :=
  if isDigit c then some (digitValue c)
  else if 'a'.toNat ≤ c.toNat && c.toNat ≤ 'f'.toNat then some (c.toNat - 'a'.toNat + 10)
  else if 'A'.toNat ≤ c.toNat && c.toNat ≤ 'F'.toNat then some (c.toNat - 'A'.toNat + 10)
  else none

/-- The value of four hexadecimal digits. -/
def hex4? (a b c d : Char) : Option Nat := do
  let a ← hexValue? a
  let b ← hexValue? b
  let c ← hexValue? c
  let d ← hexValue? d
  return ((a * 16 + b) * 16 + c) * 16 + d

/-- A unit of a text: a character, or half a surrogate pair that stands alone. -/
inductive TextUnit where
  | char (c : Char)
  | loneSurrogate

/-- The character of a unit. -/
def TextUnit.char? : TextUnit → Option Char
  | .char c => some c
  | .loneSurrogate => none

/-- The character that a short escape stands for. -/
def shortEscape? : Char → Option Char
  | '"' => some '"'
  | '\\' => some '\\'
  | '/' => some '/'
  | 'b' => some '\x08'
  | 'f' => some '\x0c'
  | 'n' => some '\n'
  | 'r' => some '\r'
  | 't' => some '\t'
  | _ => none

/-- Why a text is no JSON: it ends too early, or it goes on in a way that nothing can mend. -/
inductive JsonDefect where
  | cutShort
  | malformed
  deriving DecidableEq, Repr

/-- What reading a part of a text gives: the part, and what follows it. -/
abbrev JsonPart (α : Type) := Except JsonDefect (α × List Char)

/-- The defect of a text that cannot go on with these characters. -/
def defectAt : List Char → JsonDefect
  | [] => .cutShort
  | _ => .malformed

/-- The units of a text up to its closing quote, and what follows the quote. -/
def textUnits : List Char → JsonPart (List TextUnit)
  | [] => .error .cutShort
  | '"' :: rest => .ok ([], rest)
  | '\\' :: 'u' :: a :: b :: c :: d :: '\\' :: 'u' :: e :: f :: g :: h :: rest =>
    match hex4? a b c d with
    | none => .error .malformed
    | some n =>
      match hex4? e f g h with
      | none => .error .malformed
      | some m =>
        if 0xD800 ≤ n && n ≤ 0xDBFF && 0xDC00 ≤ m && m ≤ 0xDFFF then
          (textUnits rest).map fun p =>
            (.char (Char.ofNat (0x10000 + (n - 0xD800) * 0x400 + (m - 0xDC00))) :: p.1, p.2)
        else
          (textUnits ('\\' :: 'u' :: e :: f :: g :: h :: rest)).map fun p =>
            ((if 0xD800 ≤ n && n ≤ 0xDFFF then .loneSurrogate else .char (Char.ofNat n)) :: p.1,
              p.2)
  | '\\' :: 'u' :: a :: b :: c :: d :: rest =>
    match hex4? a b c d with
    | none => .error .malformed
    | some n =>
      (textUnits rest).map fun p =>
        ((if 0xD800 ≤ n && n ≤ 0xDFFF then .loneSurrogate else .char (Char.ofNat n)) :: p.1, p.2)
  | '\\' :: c :: rest =>
    match shortEscape? c with
    | some e => (textUnits rest).map fun p => (.char e :: p.1, p.2)
    | none => .error (if c = 'u' then .cutShort else .malformed)
  | c :: rest =>
    if c = '\\' then .error .cutShort
    else if c.toNat < 0x20 then .error .malformed
    else (textUnits rest).map fun p => (.char c :: p.1, p.2)
termination_by cs => cs.length

/-- The text of some units, if none of them is half a pair. -/
def unitsText? (us : List TextUnit) : Option String :=
  (us.mapM TextUnit.char?).map String.ofList

/-- The exponent of a number: sign and digits after the letter. -/
def exponentPart : List Char → JsonPart Int
  | cs =>
    let (negative, rest) := match cs with
      | '+' :: r => (false, r)
      | '-' :: r => (true, r)
      | r => (false, r)
    let ds := rest.takeWhile isDigit
    if ds = [] then .error (defectAt rest)
    else
      let n : Int := digitsValue ds
      .ok (if negative then -n else n, rest.dropWhile isDigit)

/-- Adds digits to a significand of 64 bits until the next would overflow it; gives the significand
and how many digits it took. -/
def significand (start : Nat) : List Char → Nat × Nat
  | [] => (start, 0)
  | d :: ds =>
    let next := start * 10 + digitValue d
    if next < bound64 then
      let (s, n) := significand next ds
      (s, n + 1)
    else (start, 0)

/-- The double of a decimal numeral, as a scalar node. -/
def doubleNode (negative : Bool) (s : Nat) (exponent : Int) : Document :=
  -- an exponent beyond 32 bits decides the outcome by its sign alone
  let scaled :=
    if s = 0 then some 0.0
    else if exponent < -2147483648 then some 0.0
    else Decimal.scaleRounding s exponent
  match scaled with
  | some f =>
    let f := if negative then -f else f
    .scalar { value := some (.number (.double f.toBits)) }
  | none => .unreadable

/-- The node of an integer numeral that fits 64 bits. -/
def integerNode (negative : Bool) (n : Nat) : Document :=
  if !negative then .scalar (scalarOfJson (.number (.integer n)))
  else if 0 < n && n ≤ 9223372036854775808 then .scalar (scalarOfJson (.number (.integer (-(n : Int)))))
  else doubleNode true n 0

/-- The digits after a decimal point, if there is one. -/
def fractionPart : List Char → JsonPart (Option (List Char))
  | '.' :: rest =>
    let ds := rest.takeWhile isDigit
    if ds = [] then .error (defectAt rest) else .ok (some ds, rest.dropWhile isDigit)
  | rest => .ok (none, rest)

/-- A number after its sign. -/
def number (negative : Bool) (cs : List Char) : JsonPart Document :=
  let whole := cs.takeWhile isDigit
  let rest := cs.dropWhile isDigit
  if whole = [] then .error (defectAt cs)
  else if whole.head? = some '0' && whole.length ≠ 1 then .error .malformed
  else
    let (s, n) := significand 0 whole
    let dropped := whole.length - n
    match fractionPart rest with
    | .error e => .error e
    | .ok (fraction, rest) =>
      let (s, e) := match fraction with
        | none => (s, (dropped : Int))
        | some ds =>
          let (s, k) := significand s ds
          (s, (dropped : Int) - k)
      match rest with
      | c :: r =>
        if c = 'e' || c = 'E' then
          (exponentPart r).map fun p => (doubleNode negative s (e + p.1), p.2)
        else if fraction.isNone && dropped = 0 then .ok (integerNode negative s, rest)
        else .ok (doubleNode negative s e, rest)
      | [] =>
        if fraction.isNone && dropped = 0 then .ok (integerNode negative s, rest)
        else .ok (doubleNode negative s e, rest)

/-- Reads an expected word. -/
def wordPart (word : String) (d : Document) (cs : List Char) : JsonPart Document :=
  if word.toList.isPrefixOf cs then .ok (d, cs.drop word.length)
  else .error (if cs.isPrefixOf word.toList then .cutShort else .malformed)

/-- A record of the form `name: null` stands for an enumeration's name. -/
def variantOfEntries : List (Option String × Document) → Option String
  | [(some k, .scalar s)] => if s.absent then some k else none
  | _ => none

mutual

/-- A value, with `depth` more levels of nesting readable. -/
def jsonValue (depth : Nat) : Nat → List Char → JsonPart Document
  | 0, _ => .error .malformed
  | fuel + 1, cs =>
    match skipSpace cs with
    | '\x7b' :: rest =>
      (jsonEntries (depth - 1) fuel true rest).map fun p =>
        (if depth = 0 then .unreadable else .record p.1 (variantOfEntries p.1), p.2)
    | '[' :: rest =>
      (jsonItems (depth - 1) fuel true rest).map fun p =>
        (if depth = 0 then .unreadable else .list p.1, p.2)
    | '"' :: rest =>
      (textUnits rest).map fun p =>
        (match unitsText? p.1 with
          | some s => .scalar (scalarOfJson (.text s))
          | none => .unreadable, p.2)
    | 't' :: rest => wordPart "rue" (.scalar (scalarOfJson (.bool true))) rest
    | 'f' :: rest => wordPart "alse" (.scalar (scalarOfJson (.bool false))) rest
    | 'n' :: rest => wordPart "ull" (.scalar (scalarOfJson .null)) rest
    | '-' :: rest => number true rest
    | rest => number false rest

/-- The items of a list after its bracket or a comma. -/
def jsonItems (depth : Nat) : Nat → Bool → List Char → JsonPart (List Document)
  | 0, _, _ => .error .malformed
  | fuel + 1, first, cs =>
    match first, skipSpace cs with
    | true, ']' :: rest => .ok ([], rest)
    | _, cs =>
      match jsonValue depth fuel cs with
      | .error e => .error e
      | .ok (d, rest) =>
        match skipSpace rest with
        | ']' :: rest => .ok ([d], rest)
        | ',' :: rest => (jsonItems depth fuel false rest).map fun p => (d :: p.1, p.2)
        | rest => .error (defectAt rest)

/-- The entries of a record after its brace or a comma. -/
def jsonEntries (depth : Nat) : Nat → Bool → List Char → JsonPart (List (Option String × Document))
  | 0, _, _ => .error .malformed
  | fuel + 1, first, cs =>
    match first, skipSpace cs with
    | true, '\x7d' :: rest => .ok ([], rest)
    | _, '"' :: rest =>
      match textUnits rest with
      | .error e => .error e
      | .ok (key, rest) =>
        match skipSpace rest with
        | ':' :: rest =>
          match jsonValue depth fuel rest with
          | .error e => .error e
          | .ok (d, rest) =>
            let entry := (unitsText? key, d)
            match skipSpace rest with
            | '\x7d' :: rest => .ok ([entry], rest)
            | ',' :: rest => (jsonEntries depth fuel false rest).map fun p => (entry :: p.1, p.2)
            | rest => .error (defectAt rest)
        | rest => .error (defectAt rest)
    | _, rest => .error (defectAt rest)

end

/-- How deep lists and records may nest. -/
def jsonDepth : Nat := 127

/-- Reads a JSON text. -/
def readJsonText (s : String) : Except JsonDefect Document :=
  let cs := s.toList
  match jsonValue jsonDepth (2 * cs.length + 2) cs with
  | .error e => .error e
  | .ok (d, rest) => if skipSpace rest = [] then .ok d else .error .malformed

/-- The document of a JSON text. -/
def ofJsonText (s : String) : Option Document :=
  (readJsonText s).toOption

end EcosystemSetup.Document

namespace EcosystemSetup.Json

/-- The value of a JSON text. -/
def ofString? (s : String) : Option Json :=
  (Document.ofJsonText s).bind Document.value?

end EcosystemSetup.Json

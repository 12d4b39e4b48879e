import EcosystemSetup.ReadError
import EcosystemSetup.Text.Blank
import EcosystemSetup.Text.Numeral
import EcosystemSetup.Text.Split

/-!
# Dogu versions

A version is up to four numbers joined by points, then optionally a dash and the number of the
packaging. Missing numbers count as zero, so `2.6` and `2.6.0-0` have the same rank. A version keeps
its text: two texts of one rank are different versions.
-/

namespace EcosystemSetup.Dogu

/-- The five numbers of a version. -/
structure Rank where
  major : Nat := 0
  minor : Nat := 0
  patch : Nat := 0
  extra : Nat := 0
  packaging : Nat := 0
  deriving DecidableEq, Repr, Inhabited

namespace Rank

/-- The numbers in order of weight. -/
def toList (r : Rank) : List Nat :=
  [r.major, r.minor, r.patch, r.extra, r.packaging]

/-- Ranks compare by their first different number. -/
def compare (a b : Rank) : Ordering :=
  (Ord.compare a.major b.major).then <|
    (Ord.compare a.minor b.minor).then <|
      (Ord.compare a.patch b.patch).then <|
        (Ord.compare a.extra b.extra).then (Ord.compare a.packaging b.packaging)

/-- The rank of up to four release numbers. -/
def ofRelease? (packaging : Nat) : List Nat → Option Rank
  | [a] => some { major := a, packaging }
  | [a, b] => some { major := a, minor := b, packaging }
  | [a, b, c] => some { major := a, minor := b, patch := c, packaging }
  | [a, b, c, d] => some { major := a, minor := b, patch := c, extra := d, packaging }
  | _ => none

theorem compare_eq_iff {a b : Rank} : compare a b = .eq ↔ a = b := by
  cases a; cases b
  simp only [compare, Ordering.then_eq_eq, Nat.compare_eq_eq, Rank.mk.injEq]

end Rank

/-- A version: its text without surrounding blanks, and its rank. -/
structure Version where
  text : String
  rank : Rank
  deriving DecidableEq, Repr, Inhabited

namespace Version

/-- Versions are ordered by rank. -/
def compare (a b : Version) : Ordering :=
  a.rank.compare b.rank

/-- The number written by a segment. -/
def number? (segment : List Char) : Option Nat :=
  Text.natural? Text.bound64 segment

/-- The rank written by a text without surrounding blanks. -/
def rank? (cs : List Char) : Option Rank :=
  match Text.splitFirst '-' cs with
  | some (release, packaging) =>
    match (Text.segments '.' release).mapM number?, number? packaging with
    | some ns, some n => Rank.ofRelease? n ns
    | _, _ => none
  | none =>
    match (Text.segments '.' cs).mapM number? with
    | some ns => Rank.ofRelease? 0 ns
    | none => none

/-- The version that a text denotes. A refusal carries the text as given. -/
def read (s : String) : Except ReadError Version :=
  match rank? (Text.trimChars s.toList) with
  | some r => .ok ⟨Text.trim s, r⟩
  | none => .error (.version s)

/-- The version that a text denotes, if it denotes one. -/
def read? (s : String) : Option Version :=
  (read s).toOption

/-- Versions in ascending order; versions of one rank keep their order. -/
def sort (vs : List Version) : List Version :=
  vs.mergeSort fun a b => compare a b != .gt

end Version

end EcosystemSetup.Dogu

import EcosystemSetup.Proofs.Resolution
import EcosystemSetup.Proofs.VersionTexts

/-!
# Spellings of versions

Versions are equal if their texts agree up to the blanks around them, and compare as equal if their ranks
do. A rank has many spellings: missing numbers count as zero, and a number may have a sign and leading
zeros. Main statement: the two agree on the texts of two versions exactly if these do not spell one rank
in two ways, and a list of descriptors finds the versions that compare as equal to the one that is asked
for exactly if one of them is spelled like it. Texts that write as many numbers, each of them plainly,
never spell one rank in two ways.
-/

namespace EcosystemSetup

open Dogu

/-! ## Numerals -/

namespace Text

/-- A number that is written plainly is read. -/
theorem natural?_toDigits {bound n : Nat} (h : n < bound) :
    natural? bound (Nat.toDigits 10 n) = some n := by
  apply natural?_eq_some_iff_numeral.mpr
  refine .plain ⟨Nat.toDigits_ne_nil, ?_, Nat.ofDigitChars_ten_toDigits⟩ h
  intro d hd
  exact isDigit_of_mem_toDigits hd

end Text

/-! ## Plain spellings -/

namespace Dogu

namespace Version

/-- The numbers of a version with points between them, and that of the packaging behind a dash where it
is written. -/
def spelled (release : List Nat) (packaging : Option Nat) : List Char :=
  Text.joinSegments '.' (release.map (Nat.toDigits 10)) ++
    packaging.toList.flatMap fun n => '-' :: Nat.toDigits 10 n

example : spelled [2, 6, 2] (some 1) = "2.6.2-1".toList := by decide

/-- A text that writes these numbers, without signs, needless zeros and blanks. -/
structure Spells (text : String) (release : List Nat) (packaging : Option Nat) : Prop where
  text : text = String.ofList (spelled release packaging)
  nonempty : release ≠ []
  release : ∀ n ∈ release, n < Text.bound64
  packaging : ∀ n, packaging = some n → n < Text.bound64

variable {release : List Nat} {packaging : Option Nat} {text : String}

/-- What is written before the dash. -/
theorem mem_release {c : Char}
    (h : c ∈ Text.joinSegments '.' (release.map (Nat.toDigits 10))) :
    c = '.' ∨ Text.isDigit c = true := by
  rcases Text.mem_joinSegments h with hpoint | ⟨s, hs, hc⟩
  · exact Or.inl hpoint
  · obtain ⟨n, -, rfl⟩ := List.mem_map.mp hs
    exact Or.inr (Text.isDigit_of_mem_toDigits hc)

theorem unblank_of_mem_spelled {c : Char} (h : c ∈ spelled release packaging) :
    Text.isBlank c = false := by
  have hdigit : ∀ d : Char, Text.isDigit d = true → Text.isBlank d = false := by
    intro d hd
    exact (Text.unblank_of_isDigit hd).1
  unfold spelled at h
  rcases List.mem_append.mp h with hrelease | hpackaging
  · rcases mem_release hrelease with rfl | hc
    · rfl
    · exact hdigit c hc
  · obtain ⟨n, -, hc⟩ := List.mem_flatMap.mp hpackaging
    rcases List.mem_cons.mp hc with rfl | hc
    · rfl
    · exact hdigit c (Text.isDigit_of_mem_toDigits hc)

/-- Plainly written numbers hold none of the marks between them. -/
theorem unmarked_release (hne : release ≠ []) : Unmarked (release.map (Nat.toDigits 10)) := by
  have hdigits : ∀ s ∈ release.map (Nat.toDigits 10), ∀ c ∈ s, Text.isDigit c = true := by
    intro s hs c hc
    obtain ⟨n, -, rfl⟩ := List.mem_map.mp hs
    exact Text.isDigit_of_mem_toDigits hc
  refine ⟨by simpa using hne, ?_, ?_⟩
  · intro s hs hpoint
    exact (Text.unblank_of_isDigit (hdigits s hs _ hpoint)).2.1 rfl
  · intro s hs hdash
    exact (Text.unblank_of_isDigit (hdigits s hs _ hdash)).2.2.1 rfl

/-- A version that is spelled plainly is read, if it has no more numbers than a version may have. -/
theorem Spells.read? (h : Spells text release packaging) :
    read? text = (Rank.ofRelease? (packaging.getD 0) release).map fun rank => ⟨text, rank⟩ := by
  have htrimmed : Text.trimChars text.toList = spelled release packaging := by
    rw [h.text, String.toList_ofList]
    apply Text.trimChars_of_unblank
    intro c hc
    exact unblank_of_mem_spelled hc
  have htext : Text.trim text = text := by
    rw [Text.trim, htrimmed, ← h.text]
  have hunmarked := unmarked_release h.nonempty
  have hrelease : (release.map (Nat.toDigits 10)).mapM number? = some release :=
    Lists.mapM_map_eq_some fun n hn => Text.natural?_toDigits (h.release n hn)
  have hrank : rank? (spelled release packaging) =
      Rank.ofRelease? (packaging.getD 0) release := by
    unfold spelled
    cases packaging with
    | none =>
      rw [Option.toList_none, List.flatMap_nil, List.append_nil, hunmarked.rank?_joined, hrelease]
      rfl
    | some n =>
      have hn : number? (Nat.toDigits 10 n) = some n :=
        Text.natural?_toDigits (h.packaging n rfl)
      rw [Option.toList_some, List.flatMap_singleton, hunmarked.rank?_packaged, hrelease, hn]
      rfl
  rw [read?_eq, htrimmed, htext, hrank]

/-- What a version that is spelled plainly ranks by: its numbers, with zeros for those that are missing. -/
theorem Spells.toList_rank (h : Spells text release packaging) {v : Version}
    (hv : Version.read? text = some v) :
    v.rank.toList = release ++ List.replicate (4 - release.length) 0 ++ [packaging.getD 0] := by
  rw [h.read?, Option.map_eq_some_iff] at hv
  obtain ⟨rank, hrank, rfl⟩ := hv
  exact (Rank.toList_of_ofRelease? hrank).1

theorem compare_eq_iff {v w : Version} : v.compare w = .eq ↔ v.rank = w.rank :=
  Rank.compare_eq_iff

/-- Versions that are spelled plainly compare as equal if their numbers are the same, where missing ones
count as zero. -/
theorem Spells.compare_eq_iff {other : String} {release' : List Nat} {packaging' : Option Nat}
    (h : Spells text release packaging) (h' : Spells other release' packaging') {v w : Version}
    (hv : Version.read? text = some v) (hw : Version.read? other = some w) :
    v.compare w = .eq ↔
      release ++ List.replicate (4 - release.length) 0 ++ [packaging.getD 0] =
        release' ++ List.replicate (4 - release'.length) 0 ++ [packaging'.getD 0] := by
  rw [Version.compare_eq_iff, ← h.toList_rank hv, ← h'.toList_rank hw]
  constructor
  · intro hrank
    rw [hrank]
  · exact Rank.toList_injective

/-- Two texts that write as many numbers each, and all of them plainly. -/
inductive SpelledAlike (text other : String) : Prop where
  | intro {release release' : List Nat} {packaging packaging' : Option Nat}
      (text : Spells text release packaging) (other : Spells other release' packaging')
      (release : release.length = release'.length)
      (packaging : packaging.isSome = packaging'.isSome)

/-- Versions that are spelled alike are equal if they compare as equal. -/
theorem SpelledAlike.eq_of_compare_eq {other : String} (h : SpelledAlike text other)
    {v w : Version} (hv : Version.read? text = some v) (hw : Version.read? other = some w)
    (hequal : v.compare w = .eq) : v = w := by
  obtain @⟨release, release', packaging, packaging', htext, hother, hlength, hwritten⟩ := h
  have hnumbers := (htext.compare_eq_iff hother hv hw).mp hequal
  rw [List.append_assoc, List.append_assoc] at hnumbers
  -- as many numbers are filled up with as many zeros
  obtain ⟨hrelease, hrest⟩ := List.append_inj hnumbers hlength
  subst hrelease
  have hlast : [packaging.getD 0] = [packaging'.getD 0] := List.append_cancel_left hrest
  -- a number of the packaging that is written in one of the texts is written in the other
  have hpackaging : packaging = packaging' := by
    cases packaging <;> cases packaging' <;> simp_all
  subst hpackaging
  have hsame : text = other := htext.text.trans hother.text.symm
  subst hsame
  exact Option.some.inj (hv.symm.trans hw)

/-! ## Equality and order -/

/-- How two texts of versions compare. -/
structure Compares (a b : String) (v w : Version) : Prop where
  equal : v = w ↔ Text.trim a = Text.trim b
  order : v.compare w = .eq ↔ v.rank = w.rank
  sound : v = w → v.compare w = .eq
  /-- Equality and order part on two spellings of one rank, and nowhere else. -/
  agree : (v = w ↔ v.compare w = .eq) ↔ (v.rank = w.rank → Text.trim a = Text.trim b)
  alike : SpelledAlike a b → (v = w ↔ v.compare w = .eq)

theorem compares {a b : String} {v w : Version} (hv : Version.read? a = some v)
    (hw : Version.read? b = some w) : Compares a b v w := by
  have hequal := eq_iff_trim_eq hv hw
  have horder : v.compare w = .eq ↔ v.rank = w.rank := compare_eq_iff
  have hsound : v = w → v.compare w = .eq := by
    rintro rfl
    exact horder.mpr rfl
  refine ⟨hequal, horder, hsound, ?_, ?_⟩
  · rw [← hequal, ← horder]
    exact ⟨Iff.mpr, fun h => ⟨hsound, h⟩⟩
  · intro halike
    exact ⟨hsound, halike.eq_of_compare_eq hv hw⟩

end Version

end Dogu

/-! ## Descriptors of a version -/

namespace Registry

variable {ds : List Descriptor} {name asked : String} {v : Version}

/-- A descriptor of the name has a version that compares as equal. -/
def HoldsEqual (ds : List Descriptor) (name : String) (v : Version) : Prop :=
  ∃ d ∈ ds, d.name = name ∧ ∃ w, Version.read? d.version = some w ∧ w.compare v = .eq

/-- A descriptor of the name has a version that is spelled so, up to the blanks around it. -/
def HoldsSpelled (ds : List Descriptor) (name asked : String) : Prop :=
  ∃ d ∈ ds, d.name = name ∧ Text.trim d.version = Text.trim asked

/-- What is found for a version. -/
structure Finds (ds : List Descriptor) (name asked : String) (v : Version) : Prop where
  given : ∀ d, getListed ds name asked = .ok d →
    d ∈ ds ∧ d.name = name ∧ Text.trim d.version = Text.trim asked
  found : (∃ d, getListed ds name asked = .ok d) ↔ HoldsSpelled ds name asked
  missed : ¬ HoldsSpelled ds name asked →
    getListed ds name asked = .error (.versionNotFound name asked)
  /-- Versions that compare as equal are found if one of them is spelled like the one that is asked
  for, and not otherwise. -/
  agree : ((∃ d, getListed ds name asked = .ok d) ↔ HoldsEqual ds name v) ↔
    (HoldsEqual ds name v → HoldsSpelled ds name asked)
  alike : (∀ d ∈ ds, d.name = name → Version.SpelledAlike d.version asked) →
    ((∃ d, getListed ds name asked = .ok d) ↔ HoldsEqual ds name v)

theorem given_of_getListed (hasked : Version.read? asked = some v) {d : Descriptor}
    (h : getListed ds name asked = .ok d) :
    d ∈ ds ∧ d.name = name ∧ Text.trim d.version = Text.trim asked := by
  rcases getListed_cases ds name asked with ⟨e, he, hname, hsame, hfound⟩ | ⟨-, hmissing⟩
  · obtain rfl : e = d := Except.ok.inj (hfound.symm.trans h)
    exact ⟨he, hname, (sameVersion_iff_trim hasked).mp hsame⟩
  · rw [hmissing] at h
    cases h

theorem exists_getListed (hasked : Version.read? asked = some v)
    (h : HoldsSpelled ds name asked) : ∃ d, getListed ds name asked = .ok d := by
  obtain ⟨d, hd, hname, htrim⟩ := h
  have hsame : sameVersion d.version asked = true := (sameVersion_iff_trim hasked).mpr htrim
  rcases getListed_cases ds name asked with ⟨e, -, -, -, hfound⟩ | ⟨hnone, -⟩
  · exact ⟨e, hfound⟩
  · exact absurd hsame (hnone d hd hname)

/-- What is spelled like a version compares as equal to it. -/
theorem HoldsSpelled.holdsEqual (hasked : Version.read? asked = some v)
    (h : HoldsSpelled ds name asked) : HoldsEqual ds name v := by
  obtain ⟨d, hd, hname, htrim⟩ := h
  have hread : Version.read? d.version = some v := by
    rw [← Version.read?_trim, htrim, Version.read?_trim, hasked]
  exact ⟨d, hd, hname, v, hread, Version.compare_eq_iff.mpr rfl⟩

theorem finds (hasked : Version.read? asked = some v) : Finds ds name asked v := by
  have hgiven : ∀ d, getListed ds name asked = .ok d →
      d ∈ ds ∧ d.name = name ∧ Text.trim d.version = Text.trim asked := by
    intro d hd
    exact given_of_getListed hasked hd
  have hfound : (∃ d, getListed ds name asked = .ok d) ↔ HoldsSpelled ds name asked := by
    constructor
    · rintro ⟨d, hd⟩
      exact ⟨d, hgiven d hd⟩
    · exact exists_getListed hasked
  have hequal : HoldsSpelled ds name asked → HoldsEqual ds name v :=
    HoldsSpelled.holdsEqual hasked
  refine ⟨hgiven, hfound, ?_, ?_, ?_⟩
  · intro hmissing
    rcases getListed_cases ds name asked with ⟨e, -, -, -, hlisted⟩ | ⟨-, herror⟩
    · exact absurd (hfound.mp ⟨e, hlisted⟩) hmissing
    · exact herror
  · rw [hfound]
    exact ⟨Iff.mpr, fun h => ⟨hequal, h⟩⟩
  · intro halike
    rw [hfound]
    refine ⟨hequal, ?_⟩
    rintro ⟨d, hd, hname, w, hw, hcompare⟩
    have hsame : w = v := (halike d hd hname).eq_of_compare_eq hw hasked hcompare
    exact ⟨d, hd, hname, (Version.eq_iff_trim_eq hw hasked).mp hsame⟩

/-- A version equals what compares as equal to it but for other spellings of its rank, and a list of
descriptors finds what compares as equal but for a version that is only there in other spellings. -/
theorem spelling_decides (ds : List Descriptor) (name : String)
    (hasked : Version.read? asked = some v) :
    (∀ other w, Version.read? other = some w → Version.Compares other asked w v) ∧
      Finds ds name asked v := by
  refine ⟨?_, finds hasked⟩
  intro other w hw
  exact Version.compares hw hasked

/-- A descriptor whose version is spelled in full. -/
def ldapInFull : Descriptor :=
  { name := "official/ldap", version := "2.6.2-1" }

/-- The version 2.6.2-1. -/
def ldapVersion : Version :=
  ⟨"2.6.2-1", { major := 2, minor := 6, patch := 2, packaging := 1 }⟩

/-- It is found by its version with a blank before it. -/
theorem spelling_decides_ldap :
    Version.read? "2.6.2-1" = some ldapVersion ∧ Version.read? " 2.6.2-1" = some ldapVersion ∧
      Version.Compares "2.6.2-1" " 2.6.2-1" ldapVersion ldapVersion ∧
      Version.SpelledAlike "2.6.2-1" "2.6.2-1" ∧
      Finds [ldapInFull] "official/ldap" " 2.6.2-1" ldapVersion ∧
      getListed [ldapInFull] "official/ldap" " 2.6.2-1" = .ok ldapInFull := by
  have hplain : Version.read? "2.6.2-1" = some ldapVersion := by decide +kernel
  have hpadded : Version.read? " 2.6.2-1" = some ldapVersion := by decide +kernel
  have hspells : Version.Spells "2.6.2-1" [2, 6, 2] (some 1) := by
    refine ⟨by decide +kernel, by decide, by decide, ?_⟩
    intro n hn
    rw [← Option.some.inj hn]
    decide
  obtain ⟨hcompares, hfinds⟩ := spelling_decides [ldapInFull] "official/ldap" hpadded
  exact ⟨hplain, hpadded, hcompares _ _ hplain, ⟨hspells, hspells, rfl, rfl⟩, hfinds,
    by decide +kernel⟩

/-- Two spellings of one rank compare as equal and are not equal, and a descriptor with one of them is not
found by the other. -/
theorem short_spelling_not_found :
    ∃ v w, Version.read? "2.6" = some v ∧ Version.read? "2.6.0-0" = some w ∧
      v.compare w = .eq ∧ v ≠ w ∧
      HoldsEqual [{ name := "official/ldap", version := "2.6.0-0" }] "official/ldap" v ∧
      getListed [{ name := "official/ldap", version := "2.6.0-0" }] "official/ldap" "2.6" =
        .error (.versionNotFound "official/ldap" "2.6") := by
  have hfull : Version.read? "2.6.0-0" = some ⟨"2.6.0-0", { major := 2, minor := 6 }⟩ := by
    decide +kernel
  refine ⟨⟨"2.6", { major := 2, minor := 6 }⟩, _, by decide +kernel, hfull, by decide, by decide, ?_,
    by decide +kernel⟩
  exact ⟨_, List.mem_singleton_self _, rfl, _, hfull, by decide⟩

end Registry

end EcosystemSetup

import EcosystemSetup.Proofs.LatestVersions
import EcosystemSetup.Proofs.Lists

/-!
# Texts that denote versions

The grammar of versions, and the version that a text of it denotes. Main statement: a text is read exactly
if what is left of it without the blanks around it is one to four numerals with points between them, then
perhaps a dash and one more numeral. The numbers stand in the rank in this order, with zeros for those that
are missing and the one behind the dash in the last place; the version keeps the trimmed text, from which it
is read again; and a refusal carries the text as it was given.
-/

namespace EcosystemSetup

/-! ## Numerals -/

namespace Text

/-- One or more digits of a value. -/
structure Digits (ds : List Char) (n : Nat) : Prop where
  nonempty : ds ≠ []
  digits : ∀ d ∈ ds, d.isDigit = true
  value : Nat.ofDigitChars 10 ds 0 = n

/-- A numeral below a bound: digits, perhaps behind a plus sign. -/
inductive Numeral (bound : Nat) : List Char → Nat → Prop where
  | plain {ds : List Char} {n : Nat} (digits : Digits ds n) (small : n < bound) :
      Numeral bound ds n
  | signed {ds : List Char} {n : Nat} (digits : Digits ds n) (small : n < bound) :
      Numeral bound ('+' :: ds) n

/-- A digit is no blank, and none of the marks of a version. -/
theorem unblank_of_isDigit {c : Char} (hc : isDigit c = true) :
    isBlank c = false ∧ c ≠ '.' ∧ c ≠ '-' ∧ c ≠ '+' := by
  have hrange : 48 ≤ c.toNat ∧ c.toNat ≤ 57 := by
    simpa [isDigit] using hc
  refine ⟨?_, ?_, ?_, ?_⟩
  · simp only [isBlank, Bool.or_eq_false_iff, Bool.and_eq_false_imp, decide_eq_true_eq,
      decide_eq_false_iff_not, beq_eq_false_iff_ne]
    omega
  all_goals
    rintro rfl
    exact absurd hrange (by decide)

theorem unsignedPart_of_digits {cs : List Char} (h : ∀ c ∈ cs, isDigit c = true) :
    unsignedPart cs = cs := by
  unfold unsignedPart
  split
  · rename_i rest
    exact absurd rfl (unblank_of_isDigit (h '+' List.mem_cons_self)).2.2.2
  · rfl

theorem Digits.unsignedPart_eq {ds : List Char} {n : Nat} (h : Digits ds n) :
    unsignedPart ds = ds :=
  unsignedPart_of_digits h.digits

theorem digits_iff {ds : List Char} {n : Nat} :
    Digits ds n ↔ ds ≠ [] ∧ ds.all isDigit = true ∧ digitsValue ds = n := by
  rw [List.all_eq_true]
  exact ⟨fun h => ⟨h.nonempty, h.digits, h.value⟩, fun ⟨hne, hall, hvalue⟩ => ⟨hne, hall, hvalue⟩⟩

/-- What is read as a number is what is a numeral. -/
theorem natural?_eq_some_iff_numeral {bound : Nat} {cs : List Char} {n : Nat} :
    natural? bound cs = some n ↔ Numeral bound cs n := by
  rw [natural?_eq_some_iff]
  constructor
  · rintro ⟨hne, hall, hvalue, hsmall⟩
    have hdigits : Digits (unsignedPart cs) n := digits_iff.mpr ⟨hne, hall, hvalue⟩
    unfold unsignedPart at hdigits
    split at hdigits
    · exact .signed hdigits hsmall
    · exact .plain hdigits hsmall
  · intro h
    have hunsigned : Digits (unsignedPart cs) n ∧ n < bound := by
      cases h with
      | plain digits small => exact ⟨digits.unsignedPart_eq.symm ▸ digits, small⟩
      | signed digits small => exact ⟨digits, small⟩
    -- either way the digits are what stands behind the sign
    obtain ⟨hne, hall, hvalue⟩ := digits_iff.mp hunsigned.1
    exact ⟨hne, hall, hvalue, hunsigned.2⟩

/-- No numeral holds a point or a dash. -/
theorem Numeral.unmarked {bound : Nat} {cs : List Char} {n : Nat} (h : Numeral bound cs n) :
    '.' ∉ cs ∧ '-' ∉ cs := by
  have hdigits : ∀ ds : List Char, Digits ds n → '.' ∉ ds ∧ '-' ∉ ds := by
    intro ds hds
    constructor
    · intro hpoint
      exact (unblank_of_isDigit (hds.digits _ hpoint)).2.1 rfl
    · intro hdash
      exact (unblank_of_isDigit (hds.digits _ hdash)).2.2.1 rfl
  cases h with
  | plain digits _ => exact hdigits _ digits
  | signed digits _ => simpa using hdigits _ digits

end Text

/-! ## Ranks -/

namespace Dogu

/-- The numbers of a rank are those of its release, with zeros for those that are missing, and that of
the packaging. -/
theorem Rank.toList_of_ofRelease? {ns : List Nat} {n : Nat} {r : Rank}
    (h : Rank.ofRelease? n ns = some r) :
    r.toList = ns ++ List.replicate (4 - ns.length) 0 ++ [n] ∧ ns.length ≤ 4 := by
  unfold Rank.ofRelease? at h
  split at h
  all_goals cases h
  all_goals exact ⟨rfl, by simp⟩

theorem Rank.toList_injective {r s : Rank} (h : r.toList = s.toList) : r = s := by
  cases r
  cases s
  simpa [Rank.toList] using h

/-- A rank is made of one to four numbers of a release. -/
theorem Rank.ofRelease?_eq_some_iff {ns : List Nat} {n : Nat} {r : Rank} :
    Rank.ofRelease? n ns = some r ↔
      (ns ≠ [] ∧ ns.length ≤ 4) ∧ r.toList = ns ++ List.replicate (4 - ns.length) 0 ++ [n] := by
  constructor
  · intro h
    obtain ⟨hnumbers, hlength⟩ := Rank.toList_of_ofRelease? h
    refine ⟨⟨?_, hlength⟩, hnumbers⟩
    rintro rfl
    cases h
  · rintro ⟨⟨hne, hlength⟩, hnumbers⟩
    -- there is a rank for each of the four lengths, and its numbers determine it
    have hsome : ∃ s, Rank.ofRelease? n ns = some s := by
      match ns, hne, hlength with
      | [_], _, _ => exact ⟨_, rfl⟩
      | [_, _], _, _ => exact ⟨_, rfl⟩
      | [_, _, _], _, _ => exact ⟨_, rfl⟩
      | [_, _, _, _], _, _ => exact ⟨_, rfl⟩
    obtain ⟨s, hs⟩ := hsome
    rw [hs, Rank.toList_injective (hnumbers.trans (Rank.toList_of_ofRelease? hs).1.symm)]

namespace Version

open Text

/-! ## The grammar -/

/-- Numerals with points between them, and perhaps a dash and one more numeral. As no numeral holds a dash,
the one that is written is the first. -/
inductive Denotes : List Char → Rank → Prop where
  | released {segments : List (List Char)} {numbers : List Nat} {rank : Rank}
      (numerals : List.Forall₂ (Numeral bound64) segments numbers)
      (nonempty : numbers ≠ []) (count : numbers.length ≤ 4)
      (filled : rank.toList = numbers ++ List.replicate (4 - numbers.length) 0 ++ [0]) :
      Denotes (joinSegments '.' segments) rank
  | packaged {segments : List (List Char)} {numbers : List Nat} {packaging : List Char} {n : Nat}
      {rank : Rank} (numerals : List.Forall₂ (Numeral bound64) segments numbers)
      (nonempty : numbers ≠ []) (count : numbers.length ≤ 4) (last : Numeral bound64 packaging n)
      (filled : rank.toList = numbers ++ List.replicate (4 - numbers.length) 0 ++ [n]) :
      Denotes (joinSegments '.' segments ++ '-' :: packaging) rank

/-- Segments that hold neither of the marks between them. -/
structure Unmarked (segments : List (List Char)) : Prop where
  nonempty : segments ≠ []
  points : ∀ s ∈ segments, '.' ∉ s
  dashes : ∀ s ∈ segments, '-' ∉ s

namespace Unmarked

variable {segments : List (List Char)}

theorem dash_not_mem (h : Unmarked segments) : '-' ∉ joinSegments '.' segments := by
  intro hdash
  rcases mem_joinSegments hdash with hpoint | ⟨s, hs, hmem⟩
  · cases hpoint
  · exact h.dashes s hs hmem

/-- The rank that is written by segments. -/
theorem rank?_joined (h : Unmarked segments) :
    rank? (joinSegments '.' segments) = (segments.mapM number?).bind (Rank.ofRelease? 0) := by
  rw [rank?, splitFirst_eq_none_iff.mpr h.dash_not_mem]
  dsimp only
  rw [segments_joinSegments h.nonempty h.points]
  cases segments.mapM number? <;> rfl

/-- The rank that is written by segments with a packaging behind them. -/
theorem rank?_packaged (h : Unmarked segments) (packaging : List Char) :
    rank? (joinSegments '.' segments ++ '-' :: packaging) =
      (segments.mapM number?).bind fun ns =>
        (number? packaging).bind fun n => Rank.ofRelease? n ns := by
  rw [rank?, splitFirst_append _ h.dash_not_mem]
  dsimp only
  rw [segments_joinSegments h.nonempty h.points]
  cases segments.mapM number? <;> cases number? packaging <;> rfl

end Unmarked

theorem mapM_number?_eq_some_iff {segments : List (List Char)} {ns : List Nat} :
    segments.mapM number? = some ns ↔ List.Forall₂ (Numeral bound64) segments ns := by
  rw [Lists.mapM_eq_some_iff]
  simp only [number?, natural?_eq_some_iff_numeral]

theorem unmarked_of_numeral {segments : List (List Char)} {ns : List Nat}
    (h : List.Forall₂ (Numeral bound64) segments ns) : ∀ s ∈ segments, '.' ∉ s ∧ '-' ∉ s := by
  induction h with
  | nil => simp
  | cons hfirst _ ih => exact List.forall_mem_cons.mpr ⟨hfirst.unmarked, ih⟩

theorem unmarked_of_numerals {segments : List (List Char)} {ns : List Nat}
    (h : List.Forall₂ (Numeral bound64) segments ns) (hne : ns ≠ []) : Unmarked segments := by
  have hunmarked := unmarked_of_numeral h
  refine ⟨?_, fun s hs => (hunmarked s hs).1, fun s hs => (hunmarked s hs).2⟩
  rintro rfl
  exact hne (List.forall₂_nil_left_iff.mp h)

/-- Characters without blanks around them write a rank exactly if they are in the grammar. -/
theorem rank?_eq_some_iff {cs : List Char} {r : Rank} : rank? cs = some r ↔ Denotes cs r := by
  constructor
  · intro h
    unfold rank? at h
    split at h
    · -- the text before the first dash, and the text behind it
      rename_i release packaging hsplit
      split at h
      · rename_i ns n hns hn
        obtain ⟨⟨hne, hcount⟩, hnumbers⟩ := Rank.ofRelease?_eq_some_iff.mp h
        rw [(splitFirst_eq_some hsplit).1, ← joinSegments_segments '.' release]
        exact .packaged (mapM_number?_eq_some_iff.mp hns) hne hcount
          (natural?_eq_some_iff_numeral.mp hn) hnumbers
      · cases h
    · split at h
      · rename_i ns hns
        obtain ⟨⟨hne, hcount⟩, hnumbers⟩ := Rank.ofRelease?_eq_some_iff.mp h
        rw [← joinSegments_segments '.' cs]
        exact .released (mapM_number?_eq_some_iff.mp hns) hne hcount hnumbers
      · cases h
  · intro h
    cases h with
    | released numerals nonempty count filled =>
      rw [(unmarked_of_numerals numerals nonempty).rank?_joined,
        mapM_number?_eq_some_iff.mpr numerals]
      exact Rank.ofRelease?_eq_some_iff.mpr ⟨⟨nonempty, count⟩, filled⟩
    | packaged numerals nonempty count last filled =>
      rw [(unmarked_of_numerals numerals nonempty).rank?_packaged,
        mapM_number?_eq_some_iff.mpr numerals, number?, natural?_eq_some_iff_numeral.mpr last]
      exact Rank.ofRelease?_eq_some_iff.mpr ⟨⟨nonempty, count⟩, filled⟩

/-! ## Reading -/

theorem read_eq_ok_iff {s : String} {v : Version} :
    read s = .ok v ↔ v.text = trim s ∧ Denotes (trim s).toList v.rank := by
  have htrim : (trim s).toList = trimChars s.toList := String.toList_ofList
  rw [htrim, ← rank?_eq_some_iff, read]
  cases hrank : rank? (trimChars s.toList) with
  | none => simp
  | some rank =>
    rw [Except.ok.injEq, Option.some.injEq]
    constructor
    · rintro rfl
      exact ⟨rfl, rfl⟩
    · rintro ⟨htext, hr⟩
      rw [← htext, hr]

/-- Reading a text as a version. -/
structure ReadsVersion (s : String) : Prop where
  /-- The blanks around the text do not count. -/
  trimmed : Trims s.toList (trim s).toList
  accepted : (∃ v, read s = .ok v) ↔ ∃ rank, Denotes (trim s).toList rank
  /-- What is read keeps the trimmed text and has the numbers that are written there. -/
  given : ∀ v, read s = .ok v ↔ v.text = trim s ∧ Denotes (trim s).toList v.rank
  again : ∀ v, read s = .ok v → read v.text = .ok v
  refused : ∀ e, read s = .error e → e = .version s

/-- A text is read exactly if it is in the grammar of versions, and then as the version that it denotes. -/
theorem reads_version (s : String) : ReadsVersion s where
  trimmed := by
    rw [trim, String.toList_ofList]
    exact trims_trimChars s.toList
  accepted := by
    constructor
    · rintro ⟨v, hv⟩
      exact ⟨v.rank, (read_eq_ok_iff.mp hv).2⟩
    · rintro ⟨rank, hrank⟩
      exact ⟨⟨trim s, rank⟩, read_eq_ok_iff.mpr ⟨rfl, hrank⟩⟩
  given _ := read_eq_ok_iff
  again := by
    intro v hv
    obtain ⟨htext, hdenotes⟩ := read_eq_ok_iff.mp hv
    rw [htext, read_eq_ok_iff, trim_trim]
    exact ⟨htext, hdenotes⟩
  refused := by
    intro e he
    unfold read at he
    split at he
    · cases he
    · exact (Except.error.inj he).symm

example : read " +2.06-1\n" = .ok ⟨"+2.06-1", ⟨2, 6, 0, 0, 1⟩⟩ := by decide +kernel

end Version

end Dogu

end EcosystemSetup

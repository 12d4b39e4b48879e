import EcosystemSetup.Proofs.Trimming
import EcosystemSetup.Registry.Basic

/-!
# Latest versions

The latest of some version texts is one that denotes a version, of a rank that none of the others
exceeds. If no two of the texts have the same rank, it is determined by which texts there are, in
whatever order and however often.

Blanks around a version text do not count, neither for its rank nor for the version that it denotes.
-/

namespace EcosystemSetup

namespace Dogu

/-! ## Ranks -/

instance : Std.TransCmp Rank.compare :=
  inferInstanceAs (Std.TransCmp (compareLex (compareOn Rank.major) (compareLex (compareOn Rank.minor)
    (compareLex (compareOn Rank.patch) (compareLex (compareOn Rank.extra)
      (compareOn Rank.packaging))))))

namespace Version

instance : Std.TransCmp Version.compare where
  eq_swap {v w} := @Std.OrientedCmp.eq_swap _ Rank.compare _ v.rank w.rank
  isLE_trans {u v w} := @Std.TransCmp.isLE_trans _ Rank.compare _ u.rank v.rank w.rank

theorem read?_eq (s : String) :
    read? s = (rank? (Text.trimChars s.toList)).map fun rank => ⟨Text.trim s, rank⟩ := by
  unfold read? read
  cases rank? (Text.trimChars s.toList) <;> rfl

/-- Version texts that agree up to the blanks around them denote the same version. -/
theorem read?_trim (s : String) : read? (Text.trim s) = read? s := by
  rw [read?_eq, read?_eq, Text.trim_trim]
  simp [Text.trim, Text.trimChars_trimChars]

theorem read?_of_trim_eq {a b : String} (h : Text.trim a = Text.trim b) : read? a = read? b := by
  rw [← read?_trim a, h, read?_trim]

/-- A version keeps its text without the blanks around it. -/
theorem text_of_read? {s : String} {v : Version} (h : read? s = some v) : v.text = Text.trim s := by
  rw [read?_eq, Option.map_eq_some_iff] at h
  obtain ⟨rank, -, rfl⟩ := h
  rfl

/-- Two texts denote one version if they agree up to the blanks around them. -/
theorem eq_iff_trim_eq {a b : String} {v w : Version} (ha : read? a = some v)
    (hb : read? b = some w) : v = w ↔ Text.trim a = Text.trim b := by
  constructor
  · rintro rfl
    rw [← text_of_read? ha, text_of_read? hb]
  · intro htrim
    have hsame : some v = some w := by
      rw [← ha, ← hb, read?_of_trim_eq htrim]
    exact Option.some.inj hsame

end Version

end Dogu

namespace Registry

open Dogu

/-! ## The same version -/

/-- Two texts denote the same version, if one of them denotes any, when they agree up to the blanks around
them. -/
theorem sameVersion_iff_trim {stored asked : String} {v : Version}
    (hasked : Version.read? asked = some v) :
    sameVersion stored asked = true ↔ Text.trim stored = Text.trim asked := by
  unfold sameVersion
  rw [hasked]
  cases hread : Version.read? stored with
  | none =>
    -- a text that denotes no version is neither of the two
    have hunread : Version.read? stored ≠ some v := by
      rw [hread]
      exact (Option.some_ne_none v).symm
    dsimp only
    rw [decide_eq_true_eq]
    constructor
    · intro heq
      exact absurd (heq ▸ hasked) hunread
    · intro htrim
      exact absurd ((Version.read?_of_trim_eq htrim).trans hasked) hunread
  | some w =>
    rw [decide_eq_true_eq]
    exact Version.eq_iff_trim_eq hread hasked

/-- A text without blanks around it denotes the version of another text if it is that text without the
blanks around it. -/
theorem sameVersion_iff {stored asked : String} {v : Version} (hstored : Text.trim stored = stored)
    (hasked : Version.read? asked = some v) :
    sameVersion stored asked = true ↔ stored = Text.trim asked := by
  rw [sameVersion_iff_trim hasked, hstored]

/-! ## The latest version -/

/-- The best of some texts so far: none as long as none of them denotes a version, and otherwise one
whose version is at least as high as those of all others. -/
inductive Leads (texts : List String) : Option (Version × String) → Prop where
  | vacant (unread : ∀ t ∈ texts, Version.read? t = none) : Leads texts none
  | held {t : String} {v : Version} (mem : t ∈ texts) (read : Version.read? t = some v)
      (highest : ∀ u ∈ texts, ∀ w, Version.read? u = some w → (w.compare v).isLE = true) :
      Leads texts (some (v, t))

theorem Leads.better {texts : List String} {best : Option (Version × String)}
    (h : Leads texts best) (text : String) :
    Leads (texts ++ [text]) (Registry.better best text) := by
  unfold Registry.better
  cases hread : Version.read? text with
  | none =>
    -- such a text changes nothing
    have hnone : ∀ t ∈ [text], Version.read? t = none := by simpa using hread
    cases h with
    | vacant unread => exact .vacant (List.forall_mem_append.mpr ⟨unread, hnone⟩)
    | held mem read highest =>
      refine .held (List.mem_append_left _ mem) read (List.forall_mem_append.mpr ⟨highest, ?_⟩)
      intro u hu w hw
      rw [hnone u hu] at hw
      cases hw
  | some new =>
    have hnew : ∀ v : Version, (new.compare v).isLE = true → ∀ u ∈ [text], ∀ w,
        Version.read? u = some w → (w.compare v).isLE = true := by
      intro v hv u hu w hw
      rw [List.mem_singleton.mp hu, hread, Option.some.injEq] at hw
      exact hw ▸ hv
    cases h with
    | vacant unread =>
      refine .held (by simp) hread (List.forall_mem_append.mpr ⟨?_, hnew new Std.ReflCmp.isLE_rfl⟩)
      intro u hu w hw
      rw [unread u hu] at hw
      cases hw
    | @held t v mem read highest =>
      dsimp only
      split
      · rename_i hgt
        have hle : (new.compare v).isLE = true := by
          rw [Std.OrientedCmp.gt_iff_lt.mp hgt]
          rfl
        exact .held (List.mem_append_left _ mem) read
          (List.forall_mem_append.mpr ⟨highest, hnew v hle⟩)
      · rename_i hgt
        have hle : (v.compare new).isLE = true := by
          cases hcompare : v.compare new with
          | gt => exact absurd hcompare hgt
          | lt => rfl
          | eq => rfl
        refine .held (by simp) hread
          (List.forall_mem_append.mpr ⟨?_, hnew new Std.ReflCmp.isLE_rfl⟩)
        intro u hu w hw
        exact Std.TransCmp.isLE_trans (highest u hu w hw) hle

theorem leads_foldl {texts : List String} {best : Option (Version × String)}
    (h : Leads texts best) (more : List String) :
    Leads (texts ++ more) (more.foldl Registry.better best) := by
  induction more generalizing texts best with
  | nil => simpa using h
  | cons text rest ih =>
    have hrest := ih (h.better text)
    rwa [List.append_assoc] at hrest

/-- A text that denotes a version which none of the others exceeds. -/
structure IsLatest (texts : List String) (t : String) : Prop where
  mem : t ∈ texts
  highest : ∃ v, Version.read? t = some v ∧
    ∀ u ∈ texts, ∀ w, Version.read? u = some w → (w.compare v).isLE = true

/-- There is a latest text unless none of them denotes a version. -/
theorem latestText_cases (texts : List String) :
    (latestText texts = none ∧ ∀ t ∈ texts, Version.read? t = none) ∨
      ∃ t, latestText texts = some t ∧ IsLatest texts t := by
  have hleads : Leads texts (texts.foldl better none) := by
    simpa using leads_foldl (Leads.vacant (by simp) : Leads [] none) texts
  unfold latestText
  revert hleads
  generalize texts.foldl better none = best
  intro hleads
  cases hleads with
  | vacant unread => exact Or.inl ⟨rfl, unread⟩
  | held mem read highest => exact Or.inr ⟨_, rfl, mem, _, read, highest⟩

/-- The texts of equal rank among some texts are equal. -/
def DistinctRanks (texts : List String) : Prop :=
  ∀ t ∈ texts, ∀ u ∈ texts, ∀ v w, Version.read? t = some v → Version.read? u = some w →
    v.compare w = .eq → t = u

theorem IsLatest.unique {texts : List String} {t u : String} (hranks : DistinctRanks texts)
    (ht : IsLatest texts t) (hu : IsLatest texts u) : t = u := by
  obtain ⟨v, hv, hhighest⟩ := ht.highest
  obtain ⟨w, hw, hhighest'⟩ := hu.highest
  have heq : v.compare w = .eq :=
    Std.OrientedCmp.isLE_antisymm (hhighest' t ht.mem v hv) (hhighest u hu.mem w hw)
  exact hranks t ht.mem u hu.mem v w hv hw heq

/-- The latest text depends only on which texts denote versions, if their ranks are distinct. -/
theorem latestText_congr {xs ys : List String} (hranks : DistinctRanks ys)
    (hsame : ∀ t v, Version.read? t = some v → (t ∈ xs ↔ t ∈ ys)) :
    latestText xs = latestText ys := by
  have hmoves : ∀ t, IsLatest xs t → IsLatest ys t := by
    rintro t ⟨hmem, v, hv, hhighest⟩
    refine ⟨(hsame t v hv).mp hmem, v, hv, ?_⟩
    intro u hu w hw
    exact hhighest u ((hsame u w hw).mpr hu) w hw
  rcases latestText_cases xs with ⟨hxs, hnone⟩ | ⟨t, hxs, ht⟩
  · rcases latestText_cases ys with ⟨hys, -⟩ | ⟨u, -, hmem, w, hw, -⟩
    · rw [hxs, hys]
    · -- a version text of one list is one of the other
      rw [hnone u ((hsame u w hw).mpr hmem)] at hw
      cases hw
  · rcases latestText_cases ys with ⟨-, hnone⟩ | ⟨u, hys, hu⟩
    · obtain ⟨v, hv, -⟩ := ht.highest
      rw [hnone t ((hsame t v hv).mp ht.mem)] at hv
      cases hv
    · rw [hxs, hys, (hmoves t ht).unique hranks hu]

end Registry

end EcosystemSetup

import EcosystemSetup.Config.Validation
import EcosystemSetup.Proofs.SoundDirectives
import Mathlib.Data.List.Nodup

/-!
# Valid configurations

What it takes to pass the checks of a configuration: its requests can be read and are for different
dogus, the default dogu is one of them, components are named, and no patch has a defect, so that every
patch can be encoded.
-/

namespace EcosystemSetup

open Dogu

/-! ## Configurations -/

namespace Config

variable {c : Config}

/-- No name is repeated if the names are distinct and none of them was seen before. -/
theorem firstRepeated?_eq_none {seen names : List String} :
    firstRepeated? seen names = none ↔ names.Nodup ∧ ∀ n ∈ names, n ∉ seen := by
  -- the seen names grow along the list
  induction names generalizing seen with
  | nil => simp [firstRepeated?]
  | cons n rest ih =>
    rw [firstRepeated?, List.nodup_cons, List.forall_mem_cons]
    by_cases hn : n ∈ seen
    · simp [hn]
    · rw [if_neg hn, ih]
      constructor
      · intro ⟨hrest, hfresh⟩
        have hnew : n ∉ rest := fun hmem => hfresh n hmem List.mem_cons_self
        exact ⟨⟨hnew, hrest⟩, hn, fun m hm hseen => hfresh m hm (List.mem_cons_of_mem _ hseen)⟩
      · intro ⟨⟨hnew, hrest⟩, _, hfresh⟩
        refine ⟨hrest, ?_⟩
        intro m hm hseen
        rcases List.mem_cons.mp hseen with rfl | hseen
        · exact hnew hm
        · exact hfresh m hm hseen

theorem firstPatchError?_eq_none :
    c.firstPatchError? = none ↔ ∀ d ∈ c.patches, d.defect? = none := by
  unfold firstPatchError?
  rw [List.findSome?_eq_none_iff]
  constructor
  · intro h d hd
    obtain ⟨i, hi⟩ := List.mem_iff_getElem?.mp hd
    have hpair : (d, i) ∈ c.patches.zipIdx := List.mk_mem_zipIdx_iff_getElem?.mpr hi
    simpa using h (d, i) hpair
  · intro h p hp
    have hmem : p.1 ∈ c.patches :=
      List.mem_of_getElem? (List.mk_mem_zipIdx_iff_getElem?.mp hp)
    simp [h p.1 hmem]

theorem entryError?_eq_none :
    c.entryError? = none ↔
      (∀ e ∈ c.components, e.isNamed = true) ∧ ∀ d ∈ c.patches, d.defect? = none := by
  unfold entryError?
  rw [← firstPatchError?_eq_none]
  cases hunnamed : c.components.findIdx? fun e => !e.isNamed with
  | none =>
    have hnamed : ∀ e ∈ c.components, e.isNamed = true := by
      simpa using List.findIdx?_eq_none_iff.mp hunnamed
    exact ⟨fun h => ⟨hnamed, h⟩, And.right⟩
  | some i =>
    have hnot : ¬ ∀ e ∈ c.components, e.isNamed = true := by
      intro hnamed
      have hnone : (c.components.findIdx? fun e => !e.isNamed) = none :=
        List.findIdx?_eq_none_iff.mpr (by simpa using hnamed)
      rw [hunnamed] at hnone
      simp at hnone
    simp [hnot]

/-- A configuration whose install list makes the given requests, and in which there is nothing to
complain about. -/
structure Valid (c : Config) (requests : List Request) : Prop where
  /-- The namespace is not blank. -/
  named : Text.isBlankText c.namespaceName = false
  requested : c.requests = .ok requests
  distinct : (requests.map Request.simpleName).Nodup
  defaultAmong : c.defaultDogu = "" ∨
    Dogu.simpleName c.defaultDogu ∈ requests.map Request.simpleName
  components : ∀ e ∈ c.components, e.isNamed = true
  patches : ∀ d ∈ c.patches, d.defect? = none

theorem selectionError?_eq_none {names : List String} :
    c.selectionError? names = none ↔ names.Nodup ∧
      (c.defaultDogu = "" ∨ Dogu.simpleName c.defaultDogu ∈ names) ∧ c.entryError? = none := by
  unfold selectionError?
  cases hrepeated : firstRepeated? [] names with
  | some n =>
    have hnot : ¬ names.Nodup := by
      intro hnodup
      rw [firstRepeated?_eq_none.mpr ⟨hnodup, by simp⟩] at hrepeated
      simp at hrepeated
    simp [hnot]
  | none =>
    have hnodup : names.Nodup := (firstRepeated?_eq_none.mp hrepeated).1
    by_cases hdefault : c.defaultDogu ≠ "" ∧ Dogu.simpleName c.defaultDogu ∉ names
    · simp [hdefault]
    · have hamong : c.defaultDogu = "" ∨ Dogu.simpleName c.defaultDogu ∈ names := by
        by_contra hnone
        rw [not_or] at hnone
        exact hdefault hnone
      dsimp only
      rw [if_neg hdefault]
      simp [hnodup, hamong]

/-- The checks accept exactly the valid configurations. -/
theorem validate_eq_ok : c.validate = .ok () ↔ ∃ requests, c.Valid requests := by
  unfold validate
  constructor
  · intro h
    split at h
    · simp at h
    rename_i hblank
    split at h
    · simp at h
    rename_i requests hrequests
    split at h
    · simp at h
    rename_i hselection
    obtain ⟨hdistinct, hdefault, hentries⟩ := selectionError?_eq_none.mp hselection
    obtain ⟨hcomponents, hpatches⟩ := entryError?_eq_none.mp hentries
    exact ⟨requests, by simpa using hblank, hrequests, hdistinct, hdefault, hcomponents, hpatches⟩
  · intro ⟨requests, hvalid⟩
    have hentries : c.entryError? = none :=
      entryError?_eq_none.mpr ⟨hvalid.components, hvalid.patches⟩
    have hselection : c.selectionError? (requests.map Request.simpleName) = none :=
      selectionError?_eq_none.mpr ⟨hvalid.distinct, hvalid.defaultAmong, hentries⟩
    simp [hvalid.named, hvalid.requested, hselection]

end Config

end EcosystemSetup

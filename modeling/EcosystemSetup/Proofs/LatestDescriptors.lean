import EcosystemSetup.Proofs.LatestVersions
import EcosystemSetup.Proofs.Resolution

/-!
# Latest descriptors of a list

A list answers with the latest descriptor of a name in two steps: it selects the latest of the version
texts stored under the name, and then it looks for a descriptor in that version. The selection goes by
the ranks of the texts, the search by the versions that they denote, and a text may be stored with blanks
around it, more than once, or beside others of its rank. Main statement: the search always finds a
descriptor, and one that no other of the name exceeds. A name is not found if none of its version texts
denotes a version, and no version is ever reported as missing.
-/

namespace EcosystemSetup.Registry

open Dogu

/-- Another text of the version of a latest one is a latest text, too. -/
theorem IsLatest.of_read?_eq {texts : List String} {t u : String} (h : IsLatest texts t)
    (hu : u ∈ texts) (hread : Version.read? u = Version.read? t) : IsLatest texts u := by
  obtain ⟨v, hv, hhighest⟩ := h.highest
  exact ⟨hu, v, hread.trans hv, hhighest⟩

section Listed

variable {descriptors : List Descriptor} {name : String}

/-- A search for a latest text finds a descriptor whose text is a latest one, too. -/
theorem getListed_of_isLatest {t : String}
    (h : IsLatest ((versionsOf descriptors name).map Descriptor.version) t) :
    ∃ d ∈ descriptors, d.name = name ∧ getListed descriptors name t = .ok d ∧
      IsLatest ((versionsOf descriptors name).map Descriptor.version) d.version := by
  obtain ⟨v, hv, -⟩ := h.highest
  rcases getListed_cases descriptors name t with ⟨d, hd, hname, hsame, hfound⟩ | ⟨hnone, -⟩
  · -- equality up to blanks relates the search to the ranks
    have htrim := (sameVersion_iff_trim hv).mp hsame
    have hmem := mem_versions_iff.mpr ⟨d, hd, hname, rfl⟩
    exact ⟨d, hd, hname, hfound, h.of_read?_eq hmem (Version.read?_of_trim_eq htrim)⟩
  · -- the text was selected among those that are searched
    obtain ⟨d, hd, hname, rfl⟩ := mem_versions_iff.mp h.mem
    exact absurd ((sameVersion_iff_trim hv).mpr rfl) (hnone d hd hname)

/-- The latest descriptor bears a latest text, unless no text of the name denotes a version. -/
theorem latestListed_cases (descriptors : List Descriptor) (name : String) :
    (latestListed descriptors name = .error (.notFound name) ∧
        ∀ d ∈ descriptors, d.name = name → Version.read? d.version = none) ∨
      ∃ d ∈ descriptors, d.name = name ∧ latestListed descriptors name = .ok d ∧
        IsLatest ((versionsOf descriptors name).map Descriptor.version) d.version := by
  unfold latestListed
  rcases latestText_cases ((versionsOf descriptors name).map Descriptor.version) with
    ⟨hnone, hunread⟩ | ⟨t, hsome, ht⟩
  · rw [hnone]
    refine Or.inl ⟨rfl, ?_⟩
    intro d hd hname
    exact hunread _ (mem_versions_iff.mpr ⟨d, hd, hname, rfl⟩)
  · rw [hsome]
    exact Or.inr (getListed_of_isLatest ht)

end Listed

/-- Some descriptor of the name has a version text that denotes a version. -/
def Versioned (descriptors : List Descriptor) (name : String) : Prop :=
  ∃ d ∈ descriptors, d.name = name ∧ (Version.read? d.version).isSome

/-- A descriptor of the name in a version that no other of the name exceeds. -/
structure Newest (descriptors : List Descriptor) (name : String) (d : Descriptor) : Prop where
  stored : d ∈ descriptors
  named : d.name = name
  highest : ∃ v, Version.read? d.version = some v ∧
    ∀ e ∈ descriptors, e.name = name → ∀ w, Version.read? e.version = some w →
      (w.compare v).isLE = true

/-- What a list of descriptors answers when it is asked for the latest one of a name. -/
structure AnswersLatest (descriptors : List Descriptor) (name : String) : Prop where
  given : Versioned descriptors name →
    ∃ d, (ofList descriptors).latest name = .ok d ∧ Newest descriptors name d
  missing : ¬ Versioned descriptors name →
    (ofList descriptors).latest name = .error (.notFound name)
  /-- The version that was selected is found. -/
  found : ∀ asked version,
    (ofList descriptors).latest name ≠ .error (.versionNotFound asked version)

/-- A list gives a newest descriptor of every name that has one. -/
theorem gives_newest (descriptors : List Descriptor) (name : String) :
    AnswersLatest descriptors name := by
  have hlatest : (ofList descriptors).latest name = latestListed descriptors name := rfl
  rcases latestListed_cases descriptors name with
    ⟨hmissing, hunread⟩ | ⟨d, hd, hname, hfound, hd'⟩
  · have hnone : ¬ Versioned descriptors name := by
      rintro ⟨d, hd, hname, hread⟩
      rw [hunread d hd hname] at hread
      cases hread
    refine ⟨fun h => absurd h hnone, fun _ => hlatest.trans hmissing, ?_⟩
    intro asked version
    rw [hlatest, hmissing]
    simp
  · obtain ⟨v, hv, hhighest⟩ := hd'.highest
    have hsome : Versioned descriptors name := ⟨d, hd, hname, by rw [hv]; rfl⟩
    refine ⟨fun _ => ⟨d, hlatest.trans hfound, hd, hname, v, hv, ?_⟩, fun h => absurd hsome h, ?_⟩
    · intro e he hename w hw
      exact hhighest e.version (mem_versions_iff.mpr ⟨e, he, hename, rfl⟩) w hw
    · intro asked version
      rw [hlatest, hfound]
      simp

/-- The last text of the highest rank is selected; the first descriptor in its version is found. -/
example :
    let dogu (version : String) : Descriptor := { name := "official/ldap", version := version }
    (ofList [dogu "2.6.2-1", dogu "notes", dogu "2.6-1", dogu " 2.6.2-1 "]).latest "official/ldap" =
      .ok (dogu "2.6.2-1") := by
  decide +kernel

end EcosystemSetup.Registry

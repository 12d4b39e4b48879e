import EcosystemSetup.Json.Printer
import EcosystemSetup.Proofs.BarrierPlacement
import EcosystemSetup.Proofs.InstallOrder
import EcosystemSetup.Proofs.LatestVersions
import EcosystemSetup.Proofs.Resolution

/-!
# Filed descriptors

A registry on disk selects a descriptor by the name of a file and answers with what the file holds. It
refuses a descriptor that declares another name than the one that was asked for, and does not look at the
version that it declares. Main statement: it gives what is filed under the name and the version, or under
the name and the latest version that a file is called by, if that declares the name; so it gives the
versions that it is asked for exactly if every descriptor that is filed under its own name is filed under
its own version.
-/

namespace EcosystemSetup

open Dogu

/-! ## Plans -/

namespace Plan

/-- What a plan installs was found for one of its requests. -/
theorem exists_request_of_installed {registry : Registry} {around : Surroundings}
    {requests : List Request} {steps : List PlannedStep}
    (h : generate registry around requests = .ok steps) {d : Descriptor}
    (hd : .installDogu d ∈ steps) : ∃ r ∈ requests, lookUp registry r = .ok d := by
  obtain ⟨dogus, sorted, hdogus, hsorted, rfl⟩ := generate_eq_ok.mp h
  -- the dogus of the plan are those that the requests resolve to, in another order
  have hinstalled : d ∈ (interleaveBarriers around sorted).filterMap PlannedStep.installed? :=
    mem_installed_iff.mpr hd
  have hmem : d ∈ dogus := by
    rw [interleaveBarriers, installed_withBarriers] at hinstalled
    exact (perm_of_sortByDependencies hsorted).mem_iff.mp hinstalled
  have hfound := (resolveFrom_eq_ok.mp hdogus).1
  clear hdogus hsorted hinstalled hd h
  induction hfound with
  | nil => cases hmem
  | @cons r e requests dogus hr _ ih =>
    rcases List.mem_cons.mp hmem with rfl | hrest
    · exact ⟨r, List.mem_cons_self, hr⟩
    · obtain ⟨q, hq, hfound⟩ := ih hrest
      exact ⟨q, List.mem_cons_of_mem _ hq, hfound⟩

end Plan

namespace Registry

variable {files : FileTree} {root name version : String} {d : Descriptor}

/-- What the registry gives, in terms of what is filed where. -/
structure AnswersAsFiled (files : FileTree) (root : String) : Prop where
  pinned : ∀ name version d, getFiled files root name version = .ok d ↔
    filed? files root name version = some d ∧ d.name = name
  latest : ∀ name d, latestFiled files root name = .ok d ↔
    ∃ version, latestText (fileVersions files root name) = some version ∧
      filed? files root name version = some d ∧ d.name = name
  highest : ∀ name version, latestText (fileVersions files root name) = some version →
    IsLatest (fileVersions files root name) version
  /-- A plan installs what is filed under the version that a request pins. -/
  installed : ∀ around requests steps,
    Plan.generate (.ofDirectory files root) around requests = .ok steps →
    ∀ d, .installDogu d ∈ steps → ∃ r ∈ requests, d.name = r.name ∧
      ∀ v, r.version = some v → filed? files root r.name v = some d

theorem answersAsFiled (files : FileTree) (root : String) : AnswersAsFiled files root where
  pinned name version d := getFiled_eq_ok_iff
  latest name d := by
    rw [latestFiled_eq_ok_iff]
    simp only [getFiled_eq_ok_iff]
  highest name version hversion := by
    rcases latestText_cases (fileVersions files root name) with ⟨hnone, -⟩ | ⟨t, ht, hlatest⟩
    · rw [hnone] at hversion
      cases hversion
    · rw [ht, Option.some.injEq] at hversion
      exact hversion ▸ hlatest
  installed around requests steps hsteps d hd := by
    obtain ⟨r, hr, hfound⟩ := Plan.exists_request_of_installed hsteps hd
    refine ⟨r, hr, Plan.name_of_lookUp (faithful_ofDirectory files root) hfound, ?_⟩
    intro v hv
    have hget : getFiled files root r.name v = .ok d := by
      unfold Plan.lookUp at hfound
      rw [hv] at hfound
      dsimp only [ofDirectory] at hfound
      split at hfound
      · rename_i e he
        exact he.trans (congrArg Except.ok (Except.ok.inj hfound))
      · cases hfound
    exact (getFiled_eq_ok_iff.mp hget).1

/-- Every descriptor that is filed under its own name is filed under its own version. -/
def RightlyFiled (files : FileTree) (root : String) : Prop :=
  ∀ name version d, filed? files root name version = some d → d.name = name → d.version = version

/-- The registry gives the versions that it is asked for: the pinned one, or the latest that a file is
called by; and a plan installs the versions that its requests pin. -/
structure GivesAsked (files : FileTree) (root : String) : Prop where
  pinned : ∀ name version d, getFiled files root name version = .ok d →
    d.name = name ∧ d.version = version
  latest : ∀ name d, latestFiled files root name = .ok d →
    d.name = name ∧ IsLatest (fileVersions files root name) d.version
  installed : ∀ around requests steps,
    Plan.generate (.ofDirectory files root) around requests = .ok steps →
    ∀ d, .installDogu d ∈ steps → ∃ r ∈ requests, d.name = r.name ∧
      ∀ v, r.version = some v → d.version = v

theorem RightlyFiled.givesAsked (h : RightlyFiled files root) : GivesAsked files root := by
  have hanswers := answersAsFiled files root
  constructor
  · intro name version d hd
    obtain ⟨hfiled, hname⟩ := (hanswers.pinned name version d).mp hd
    exact ⟨hname, h name version d hfiled hname⟩
  · intro name d hd
    obtain ⟨version, hversion, hfiled, hname⟩ := (hanswers.latest name d).mp hd
    rw [h name version d hfiled hname]
    exact ⟨hname, hanswers.highest name version hversion⟩
  · intro around requests steps hsteps d hd
    obtain ⟨r, hr, hname, hpinned⟩ := hanswers.installed around requests steps hsteps d hd
    refine ⟨r, hr, hname, ?_⟩
    intro v hv
    exact h r.name v d (hpinned v hv) hname

/-- A registry on disk answers with what is filed where it looks, and so gives the versions that it is
asked for exactly if no descriptor is filed under another version than its own. -/
theorem directory_gives_filed (files : FileTree) (root : String) :
    AnswersAsFiled files root ∧ (GivesAsked files root ↔ RightlyFiled files root) := by
  refine ⟨answersAsFiled files root, ?_, RightlyFiled.givesAsked⟩
  intro h name version d hfiled hname
  have hgiven : getFiled files root name version = .ok d :=
    getFiled_eq_ok_iff.mpr ⟨hfiled, hname⟩
  exact (h.pinned name version d hgiven).2

/-- A descriptor of version 2.0.0-1. -/
def laterLdap : Descriptor :=
  { name := "official/ldap", version := "2.0.0-1" }

/-- A directory that holds it in the file of version 1.0.0-1. -/
def misfiledLdap : FileTree where
  files := [(["dogus", "official", "ldap", "1.0.0-1.json"], laterLdap.encode.render)]

/-- A plan for the version of the file installs the other one, and the latest version is not among those
that the files are called by. -/
theorem misfiled_version_given :
    getFiled misfiledLdap "dogus" "official/ldap" "1.0.0-1" = .ok laterLdap ∧
      latestFiled misfiledLdap "dogus" "official/ldap" = .ok laterLdap ∧
      fileVersions misfiledLdap "dogus" "official/ldap" = ["1.0.0-1"] ∧
      Plan.generate (.ofDirectory misfiledLdap "dogus") {}
        [⟨"official/ldap", some "1.0.0-1"⟩] = .ok [.installDogu laterLdap] ∧
      ¬ GivesAsked misfiledLdap "dogus" := by
  have hgiven : getFiled misfiledLdap "dogus" "official/ldap" "1.0.0-1" = .ok laterLdap := by
    decide +kernel
  refine ⟨hgiven, by decide +kernel, by decide +kernel, by decide +kernel, ?_⟩
  intro h
  have hversion := (h.pinned "official/ldap" "1.0.0-1" laterLdap hgiven).2
  exact absurd hversion (by decide)

end Registry

end EcosystemSetup

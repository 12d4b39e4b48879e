import EcosystemSetup.Plan.Basic
import EcosystemSetup.Registry.Directory
import EcosystemSetup.Registry.Listed
import Mathlib.Data.List.Nodup

/-!
# What requests resolve to

A list gives the descriptors that are in it, and a directory those that are filed in it. A registry
is faithful when every descriptor it answers with bears the name that was asked for; both kinds of
registry are. The dogus that requests resolve to are then named like the requests, and since no
simple name may be requested twice, their simple names are distinct.
-/

namespace EcosystemSetup

open Dogu

/-! ## Faithful registries -/

namespace Registry

/-- Every descriptor that the registry answers with bears the name that was asked for. -/
structure Faithful (registry : Registry) : Prop where
  latest : ∀ {name : String} {d : Descriptor}, registry.latest name = .ok d → d.name = name
  get : ∀ {name version : String} {d : Descriptor}, registry.get name version = .ok d →
    d.name = name

theorem mem_versionsOf {descriptors : List Descriptor} {name : String} {d : Descriptor} :
    d ∈ versionsOf descriptors name ↔ d ∈ descriptors ∧ d.name = name := by
  simp [versionsOf]

theorem mem_versions_iff {descriptors : List Descriptor} {name t : String} :
    t ∈ (versionsOf descriptors name).map Descriptor.version ↔
      ∃ d ∈ descriptors, d.name = name ∧ d.version = t := by
  simp [mem_versionsOf, and_assoc]

/-- A list finds a descriptor of the name in the version that is asked for, unless it has none. -/
theorem getListed_cases (descriptors : List Descriptor) (name version : String) :
    (∃ d ∈ descriptors, d.name = name ∧ sameVersion d.version version = true ∧
        getListed descriptors name version = .ok d) ∨
      (∀ d ∈ descriptors, d.name = name → ¬ sameVersion d.version version = true) ∧
        getListed descriptors name version = .error (.versionNotFound name version) := by
  unfold getListed
  cases hfind : (versionsOf descriptors name).find? fun d => sameVersion d.version version with
  | none =>
    rw [List.find?_eq_none] at hfind
    refine Or.inr ⟨?_, rfl⟩
    intro d hd hname
    exact hfind d (mem_versionsOf.mpr ⟨hd, hname⟩)
  | some d =>
    obtain ⟨hd, hname⟩ := mem_versionsOf.mp (List.mem_of_find?_eq_some hfind)
    have hsame : sameVersion d.version version = true := by
      simpa using List.find?_some hfind
    exact Or.inl ⟨d, hd, hname, hsame, rfl⟩

theorem name_of_getListed {descriptors : List Descriptor} {name version : String} {d : Descriptor}
    (h : getListed descriptors name version = .ok d) : d.name = name := by
  rcases getListed_cases descriptors name version with ⟨e, -, hname, -, hfound⟩ | ⟨-, hmissing⟩
  · rw [hfound, Except.ok.injEq] at h
    exact h ▸ hname
  · rw [hmissing] at h
    cases h

theorem faithful_ofList (descriptors : List Descriptor) : (ofList descriptors).Faithful where
  get := name_of_getListed
  latest := by
    intro name d h
    change latestListed descriptors name = .ok d at h
    unfold latestListed at h
    split at h
    · exact name_of_getListed h
    · simp at h

/-- The descriptor in the file of a name and a version, if the file holds one. -/
def filed? (files : FileTree) (root name version : String) : Option Descriptor :=
  match files.read (FileTree.join (FileTree.join root name) (version ++ ".json")) with
  | .ok text => decodeDescriptor text
  | .error _ => none

/-- The versions that the files of a name are called by. -/
def fileVersions (files : FileTree) (root name : String) : List String :=
  match files.list (FileTree.join root name) with
  | .ok names => names.filterMap fileVersion?
  | .error _ => []

section Directory

variable {files : FileTree} {root name version : String} {d : Descriptor}

/-- What is given for a version is what is filed there, if it declares the name. -/
theorem getFiled_eq_ok_iff : getFiled files root name version = .ok d ↔
    filed? files root name version = some d ∧ d.name = name := by
  unfold getFiled filed?
  dsimp only
  cases files.read (FileTree.join (FileTree.join root name) (version ++ ".json")) with
  | error e => cases e <;> simp
  | ok text =>
    dsimp only
    cases hdecoded : decodeDescriptor text with
    | none => simp
    | some e =>
      -- what is a descriptor is refused for its name alone
      by_cases hname : e.name = name
      · simp only [if_pos hname, Except.ok.injEq, Option.some.injEq]
        constructor
        · rintro rfl
          exact ⟨rfl, hname⟩
        · exact And.left
      · simp only [if_neg hname, reduceCtorEq, false_iff, Option.some.injEq]
        rintro ⟨rfl, hsame⟩
        exact hname hsame

/-- What is given as the latest is what is given for the latest version that a file is called by. -/
theorem latestFiled_eq_ok_iff : latestFiled files root name = .ok d ↔
    ∃ version, latestText (fileVersions files root name) = some version ∧
      getFiled files root name version = .ok d := by
  unfold latestFiled fileVersions
  dsimp only
  cases files.list (FileTree.join root name) with
  | error e =>
    -- a directory that cannot be listed has no latest version
    have hnone : latestText [] = none := rfl
    cases e <;> simp [hnone]
  | ok names =>
    dsimp only
    cases latestText (names.filterMap fileVersion?) with
    | none => simp
    | some version => simp

theorem name_of_getFiled (h : getFiled files root name version = .ok d) : d.name = name :=
  (getFiled_eq_ok_iff.mp h).2

theorem faithful_ofDirectory (files : FileTree) (root : String) :
    (ofDirectory files root).Faithful where
  get := name_of_getFiled
  latest := by
    intro name d h
    obtain ⟨version, -, hget⟩ := latestFiled_eq_ok_iff.mp h
    exact name_of_getFiled hget

end Directory

/-- The registries that a setup may be given: a list of descriptors or a directory of them. -/
inductive Standard : Registry → Prop where
  | ofList (descriptors : List Descriptor) : Standard (.ofList descriptors)
  | ofDirectory (files : FileTree) (root : String) : Standard (.ofDirectory files root)

theorem Standard.faithful {registry : Registry} (h : registry.Standard) : registry.Faithful := by
  cases h with
  | ofList descriptors => exact faithful_ofList descriptors
  | ofDirectory files root => exact faithful_ofDirectory files root

end Registry

/-! ## Resolved requests -/

namespace Plan

theorem name_of_lookUp {registry : Registry} (hr : registry.Faithful) {r : Request}
    {d : Descriptor} (h : lookUp registry r = .ok d) : d.name = r.name := by
  unfold lookUp at h
  dsimp only at h
  split at h
  · rename_i e hfound
    rw [Except.ok.injEq] at h
    subst h
    split at hfound
    · exact hr.get hfound
    · exact hr.latest hfound
  · simp at h

/-- A first request resolves if its simple name is new, it is found, and the others resolve. -/
theorem resolveFrom_cons_eq_ok {registry : Registry} {seen : List String} {r : Request}
    {rest : List Request} {dogus : List Descriptor} :
    resolveFrom registry seen (r :: rest) = .ok dogus ↔
      r.simpleName ∉ seen ∧ ∃ d ds, lookUp registry r = .ok d ∧
        resolveFrom registry (r.simpleName :: seen) rest = .ok ds ∧ dogus = d :: ds := by
  rw [resolveFrom]
  -- the three ways to fail: a repeated name, a dogu that is not found, a failure further on
  by_cases hseen : r.simpleName ∈ seen
  · simp [hseen]
  rw [if_neg hseen]
  cases hr : lookUp registry r with
  | error e => simp
  | ok d =>
    cases hrest : resolveFrom registry (r.simpleName :: seen) rest with
    | error e => simp
    | ok ds => simp [hseen, eq_comm]

/-- Requests resolve if their simple names are new and distinct and each of them is found. -/
theorem resolveFrom_eq_ok {registry : Registry} {seen : List String} {requests : List Request}
    {dogus : List Descriptor} :
    resolveFrom registry seen requests = .ok dogus ↔
      List.Forall₂ (fun r d => lookUp registry r = .ok d) requests dogus ∧
        (requests.map Request.simpleName).Nodup ∧ ∀ r ∈ requests, r.simpleName ∉ seen := by
  -- the seen names grow along the list, so they are general in the induction
  induction requests generalizing seen dogus with
  | nil => simp [resolveFrom, eq_comm]
  | cons r rest ih =>
    rw [resolveFrom_cons_eq_ok, List.forall₂_cons_left_iff, List.map_cons, List.nodup_cons,
      List.forall_mem_cons]
    constructor
    · rintro ⟨hseen, d, ds, hd, hrest, rfl⟩
      obtain ⟨hds, hnodup, hfresh⟩ := ih.mp hrest
      refine ⟨⟨d, ds, hd, hds, rfl⟩, ⟨?_, hnodup⟩, hseen, ?_⟩
      · intro hmem
        obtain ⟨q, hq, heq⟩ := List.mem_map.mp hmem
        exact hfresh q hq (heq ▸ List.mem_cons_self)
      · intro q hq hmem
        exact hfresh q hq (List.mem_cons_of_mem _ hmem)
    · rintro ⟨⟨d, ds, hd, hds, rfl⟩, ⟨hnew, hnodup⟩, hseen, hfresh⟩
      refine ⟨hseen, d, ds, hd, ih.mpr ⟨hds, hnodup, ?_⟩, rfl⟩
      intro q hq hmem
      rcases List.mem_cons.mp hmem with heq | hmem
      · exact hnew (heq ▸ List.mem_map_of_mem hq)
      · exact hfresh q hq hmem

/-- The dogus that requests resolve to bear the simple names of the requests, in order. -/
theorem map_simpleName_of_forall₂ {registry : Registry} (hr : registry.Faithful)
    {requests : List Request} {dogus : List Descriptor}
    (h : List.Forall₂ (fun r d => lookUp registry r = .ok d) requests dogus) :
    dogus.map Descriptor.simpleName = requests.map Request.simpleName := by
  induction h with
  | nil => rfl
  | cons hd _ ih =>
    rw [List.map_cons, List.map_cons, ih]
    unfold Descriptor.simpleName Request.simpleName
    rw [name_of_lookUp hr hd]

/-- What requests resolve to has distinct simple names. -/
theorem nodup_simpleName_of_resolve {registry : Registry} (hr : registry.Faithful)
    {requests : List Request} {dogus : List Descriptor}
    (h : resolve registry requests = .ok dogus) : (dogus.map Descriptor.simpleName).Nodup := by
  obtain ⟨hfound, hnodup, _⟩ := resolveFrom_eq_ok.mp h
  rw [map_simpleName_of_forall₂ hr hfound]
  exact hnodup

/-! ## Plans -/

/-- A plan is made of dogus that the requests resolve to, in an order of installation. -/
theorem generate_eq_ok {registry : Registry} {around : Surroundings} {requests : List Request}
    {steps : List PlannedStep} :
    generate registry around requests = .ok steps ↔
      ∃ dogus sorted, resolve registry requests = .ok dogus ∧
        sortByDependencies dogus = .ok sorted ∧ steps = interleaveBarriers around sorted := by
  unfold generate
  cases hdogus : resolve registry requests with
  | error e => simp
  | ok dogus =>
    cases hsorted : sortByDependencies dogus with
    | error stuck => simp [hsorted]
    | ok sorted => simp [hsorted, eq_comm]

end Plan

end EcosystemSetup

import EcosystemSetup.Proofs.InstallOrder
import EcosystemSetup.Proofs.Resolution

/-!
# Where barriers stand

The plan of an order installs its dogus in that order, and the barriers that a dogu demands stand before
its installation, each once in the whole plan. So a barrier stands as late as possible: it is demanded
by the dogu that is installed next.

The order of the dogus comes from their dependencies, the barriers come from their service accounts. A
plan waits for a dogu only after installing it exactly if every dogu comes after the dogus that provide
its accounts, which the dependencies need not ensure.
-/

namespace EcosystemSetup.Plan

open Dogu

variable {p : Providers}

/-! ## Demanded barriers -/

/-- The barriers that the accounts of a dogu demand. -/
def demands (p : Providers) (d : Descriptor) : List PlannedStep :=
  d.serviceAccounts.filterMap (demanded? p d)

theorem mem_demands {d : Descriptor} {b : PlannedStep} :
    b ∈ demands p d ↔ ∃ a ∈ d.serviceAccounts, demanded? p d a = some b := by
  unfold demands
  rw [List.mem_filterMap]

/-- A barrier is demanded if the provider is installed by this run or the account is not optional. -/
theorem demanded?_eq_some {d : Descriptor} {a : ServiceAccount} {b : PlannedStep} :
    demanded? p d a = some b ↔
      barrier? a = some b ∧ (p.has a = true ∨ d.isOptionalAccount a = false) := by
  unfold demanded?
  cases p.has a <;> cases d.isOptionalAccount a <;> simp

theorem barrier?_eq_awaitDogu {a : ServiceAccount} {t : String} :
    barrier? a = some (.awaitDogu t) ↔ a.kind = .dogu ∧ a.target = t := by
  unfold barrier?
  cases a.kind <;> simp

theorem barrier?_eq_awaitComponent {a : ServiceAccount} {t : String} :
    barrier? a = some (.awaitComponent t) ↔ a.kind = .component ∧ a.target = t := by
  unfold barrier?
  cases a.kind <;> simp

theorem barrier?_ne_installDogu {a : ServiceAccount} {d : Descriptor} :
    barrier? a ≠ some (.installDogu d) := by
  unfold barrier?
  cases a.kind <;> simp

/-- An account of a dogu demands to wait for that dogu, if it is among the providers or the account is
not optional. -/
theorem awaitDogu_mem_demands {d : Descriptor} {a : ServiceAccount} (ha : a ∈ d.serviceAccounts)
    (hkind : a.kind = .dogu) (hneeded : a.target ∈ p.dogus ∨ d.isOptionalAccount a = false) :
    .awaitDogu a.target ∈ demands p d := by
  refine mem_demands.mpr ⟨a, ha, demanded?_eq_some.mpr ⟨?_, hneeded.imp_left ?_⟩⟩
  · exact barrier?_eq_awaitDogu.mpr ⟨hkind, rfl⟩
  · intro hmem
    simpa [Providers.has, hkind] using hmem

/-- The same for an account of a component. -/
theorem awaitComponent_mem_demands {d : Descriptor} {a : ServiceAccount}
    (ha : a ∈ d.serviceAccounts) (hkind : a.kind = .component)
    (hneeded : a.target ∈ p.components ∨ d.isOptionalAccount a = false) :
    .awaitComponent a.target ∈ demands p d := by
  refine mem_demands.mpr ⟨a, ha, demanded?_eq_some.mpr ⟨?_, hneeded.imp_left ?_⟩⟩
  · exact barrier?_eq_awaitComponent.mpr ⟨hkind, rfl⟩
  · intro hmem
    simpa [Providers.has, hkind] using hmem

/-- No account demands an installation. -/
theorem installDogu_not_mem_demands {d e : Descriptor} : .installDogu e ∉ demands p d := by
  intro h
  obtain ⟨a, _, ha⟩ := mem_demands.mp h
  exact barrier?_ne_installDogu (demanded?_eq_some.mp ha).1

/-! ## New barriers -/

/-- The new barriers are the demanded ones that do not stand yet. -/
theorem mem_newBarriers {standing bs : List PlannedStep} {b : PlannedStep} :
    b ∈ (newBarriers standing bs).1 ↔ b ∈ bs ∧ b ∉ standing := by
  induction bs generalizing standing with
  | nil => simp [newBarriers]
  | cons c rest ih =>
    rw [newBarriers]
    -- a barrier that stands is passed over, a new one stands from here on
    split
    · rename_i hc
      rw [ih, List.mem_cons]
      constructor
      · rintro ⟨hb, hnew⟩
        exact ⟨Or.inr hb, hnew⟩
      · rintro ⟨rfl | hb, hnew⟩
        · exact absurd hc hnew
        · exact ⟨hb, hnew⟩
    · rename_i hc
      simp only [List.mem_cons, ih, not_or]
      constructor
      · rintro (rfl | ⟨hb, _, hnew⟩)
        · exact ⟨Or.inl rfl, hc⟩
        · exact ⟨Or.inr hb, hnew⟩
      · rintro ⟨hb, hnew⟩
        by_cases heq : b = c
        · exact Or.inl heq
        · exact Or.inr ⟨hb.resolve_left heq, heq, hnew⟩

/-- Afterwards all demanded barriers stand. -/
theorem mem_newBarriers_standing {standing bs : List PlannedStep} {b : PlannedStep} :
    b ∈ (newBarriers standing bs).2 ↔ b ∈ standing ∨ b ∈ bs := by
  induction bs generalizing standing with
  | nil => simp [newBarriers]
  | cons c rest ih =>
    rw [newBarriers]
    split
    · rename_i hc
      rw [ih, List.mem_cons]
      constructor
      · rintro (hb | hb)
        · exact Or.inl hb
        · exact Or.inr (Or.inr hb)
      · rintro (hb | rfl | hb)
        · exact Or.inl hb
        · exact Or.inl hc
        · exact Or.inr hb
    · simp only [ih, List.mem_cons, or_assoc, or_left_comm]

/-! ## Plans of an order -/

/-- The barriers that stand after the dogus of a list. -/
def standingAfter (p : Providers) (standing : List PlannedStep) (ds : List Descriptor) :
    List PlannedStep :=
  ds.foldl (fun standing d => (newBarriers standing (demands p d)).2) standing

theorem mem_standingAfter {standing : List PlannedStep} {ds : List Descriptor} {b : PlannedStep} :
    b ∈ standingAfter p standing ds ↔ b ∈ standing ∨ ∃ d ∈ ds, b ∈ demands p d := by
  induction ds generalizing standing with
  | nil => simp [standingAfter]
  | cons d rest ih =>
    have hstep : standingAfter p standing (d :: rest) =
        standingAfter p (newBarriers standing (demands p d)).2 rest := rfl
    rw [hstep, ih, mem_newBarriers_standing, List.exists_mem_cons_iff, or_assoc]

theorem withBarriers_cons {standing : List PlannedStep} {d : Descriptor} {rest : List Descriptor} :
    withBarriers p standing (d :: rest) =
      (newBarriers standing (demands p d)).1 ++
        .installDogu d :: withBarriers p (newBarriers standing (demands p d)).2 rest := rfl

/-- The plan of two lists of dogus is the plan of the first, and after it the plan of the second with
the barriers of the first in place. -/
theorem withBarriers_append {standing : List PlannedStep} {first second : List Descriptor} :
    withBarriers p standing (first ++ second) =
      withBarriers p standing first ++ withBarriers p (standingAfter p standing first) second := by
  induction first generalizing standing with
  | nil => rfl
  | cons d rest ih =>
    rw [List.cons_append, withBarriers_cons, withBarriers_cons, ih, List.append_assoc,
      List.cons_append]
    rfl

/-- A plan installs the dogus of its order, and no others. -/
theorem installDogu_mem_withBarriers {standing : List PlannedStep} {ds : List Descriptor}
    {d : Descriptor} : .installDogu d ∈ withBarriers p standing ds ↔ d ∈ ds := by
  induction ds generalizing standing with
  | nil => simp [withBarriers]
  | cons e rest ih =>
    -- the barriers before the installation install nothing
    have hnew : .installDogu d ∉ (newBarriers standing (demands p e)).1 := by
      intro h
      exact installDogu_not_mem_demands (mem_newBarriers.mp h).1
    rw [withBarriers_cons, List.mem_append, List.mem_cons, ih, List.mem_cons,
      PlannedStep.installDogu.injEq]
    exact or_iff_right hnew

/-- What stands before the installation of a dogu: the plan of the dogus before it, and the barriers
that it demands and that do not stand yet. -/
theorem withBarriers_split {standing : List PlannedStep} {before after : List Descriptor}
    {d : Descriptor} :
    withBarriers p standing (before ++ d :: after) =
      (withBarriers p standing before ++
        (newBarriers (standingAfter p standing before) (demands p d)).1) ++
      .installDogu d :: withBarriers p (standingAfter p standing (before ++ [d])) after := by
  have hstanding : standingAfter p standing (before ++ [d]) =
      (newBarriers (standingAfter p standing before) (demands p d)).2 := by
    simp [standingAfter]
  rw [withBarriers_append, withBarriers_cons, hstanding, List.append_assoc]

/-- The barriers of a plan are those that its dogus demand and that did not stand before it. -/
theorem barrier_mem_withBarriers {standing : List PlannedStep} {ds : List Descriptor}
    {b : PlannedStep} (hb : ∀ d, b ≠ .installDogu d) :
    b ∈ withBarriers p standing ds ↔ b ∉ standing ∧ ∃ d ∈ ds, b ∈ demands p d := by
  induction ds generalizing standing with
  | nil => simp [withBarriers]
  | cons d rest ih =>
    rw [withBarriers_cons, List.mem_append, List.mem_cons, ih, mem_newBarriers,
      mem_newBarriers_standing, List.exists_mem_cons_iff]
    constructor
    · rintro (⟨hd, hnew⟩ | heq | ⟨hnew, hrest⟩)
      · exact ⟨hnew, Or.inl hd⟩
      · exact absurd heq (hb d)
      · exact ⟨fun h => hnew (Or.inl h), Or.inr hrest⟩
    · rintro ⟨hnew, hdemand⟩
      -- the first dogu that demands it gets it; after that it stands
      by_cases hd : b ∈ demands p d
      · exact Or.inl ⟨hd, hnew⟩
      · exact Or.inr (Or.inr ⟨not_or.mpr ⟨hnew, hd⟩, hdemand.resolve_left hd⟩)

/-- A barrier that a dogu demands stands before the installation of that dogu, unless it stood before
the plan. -/
theorem barrier_before_install {standing : List PlannedStep} {before : List Descriptor}
    {d : Descriptor} {b : PlannedStep} (hdemand : b ∈ demands p d) (hnew : b ∉ standing) :
    b ∈ withBarriers p standing before ++
      (newBarriers (standingAfter p standing before) (demands p d)).1 := by
  have hb : ∀ e, b ≠ .installDogu e := by
    rintro e rfl
    exact installDogu_not_mem_demands hdemand
  rw [List.mem_append, barrier_mem_withBarriers hb, mem_newBarriers, mem_standingAfter, not_or]
  -- a dogu before has demanded it, or it is new here
  by_cases hearlier : ∃ e ∈ before, b ∈ demands p e
  · exact Or.inl ⟨hnew, hearlier⟩
  · exact Or.inr ⟨hdemand, hnew, hearlier⟩

/-- Every step of a plan belongs to a dogu: it is its installation or one of its new barriers. -/
theorem dogu_of_step {standing before after : List PlannedStep} {ds : List Descriptor}
    {step : PlannedStep} (hplan : withBarriers p standing ds = before ++ step :: after) :
    ∃ first d rest earlier, ds = first ++ d :: rest ∧
      before = withBarriers p standing first ++ earlier ∧
      ((step = .installDogu d ∧
          earlier = (newBarriers (standingAfter p standing first) (demands p d)).1) ∨
        step ∈ demands p d) := by
  induction ds generalizing standing before with
  | nil => simp [withBarriers] at hplan
  | cons d rest ih =>
    rw [withBarriers_cons] at hplan
    rcases Lists.split_of_append_eq hplan with ⟨later, hnew⟩ | ⟨skipped, rfl, htail⟩
    · -- one of the new barriers of the first dogu
      have hmem : step ∈ (newBarriers standing (demands p d)).1 := by simp [hnew]
      exact ⟨[], d, rest, before, rfl, rfl, Or.inr (mem_newBarriers.mp hmem).1⟩
    · cases skipped with
      | nil =>
        rw [List.nil_append, List.cons.injEq] at htail
        exact ⟨[], d, rest, _, rfl, rfl, Or.inl ⟨htail.1.symm, by simp [standingAfter]⟩⟩
      -- beyond the installation of the first dogu: the plan of the others
      | cons install skipped =>
        rw [List.cons_append, List.cons.injEq] at htail
        obtain ⟨rfl, htail⟩ := htail
        obtain ⟨first, e, later, earlier, rfl, rfl, hstep⟩ := ih htail
        refine ⟨d :: first, e, later, earlier, rfl, ?_, hstep⟩
        rw [withBarriers_cons, List.append_assoc, List.cons_append]

/-- What stands before the installation of a dogu: the installations of the dogus before it, and the
barriers that it demands, but for components that were awaited before the plan. -/
theorem before_install {around : Surroundings} {sorted : List Descriptor}
    {first rest : List PlannedStep} {d : Descriptor}
    (hplan : interleaveBarriers around sorted = first ++ .installDogu d :: rest) :
    ∃ before after, sorted = before ++ d :: after ∧ (∀ q ∈ before, .installDogu q ∈ first) ∧
      (∀ a ∈ d.serviceAccounts, a.kind = .dogu →
        (a.target ∈ sorted.map Descriptor.simpleName ∨ d.isOptionalAccount a = false) →
        .awaitDogu a.target ∈ first) ∧
      ∀ a ∈ d.serviceAccounts, a.kind = .component →
        (a.target ∈ around.components ∨ d.isOptionalAccount a = false) →
        a.target ∈ around.awaited ∨ .awaitComponent a.target ∈ first := by
  obtain ⟨before, e, after, earlier, hsplit, rfl, hstep⟩ := dogu_of_step hplan
  rcases hstep with ⟨hinstall, rfl⟩ | hdemand
  · rw [PlannedStep.installDogu.injEq] at hinstall
    subst hinstall
    refine ⟨before, after, hsplit, ?_, ?_, ?_⟩
    · intro q hq
      exact List.mem_append_left _ (installDogu_mem_withBarriers.mpr hq)
    · intro a ha hkind hneeded
      exact barrier_before_install (awaitDogu_mem_demands ha hkind hneeded) (by simp)
    · intro a ha hkind hneeded
      by_cases hawaited : a.target ∈ around.awaited
      · exact Or.inl hawaited
      · refine Or.inr (barrier_before_install (awaitComponent_mem_demands ha hkind hneeded) ?_)
        simpa using hawaited
  · exact absurd hdemand installDogu_not_mem_demands

/-! ## Waiting for dogus of the same plan -/

/-- Every wait for a dogu of the list stands after the installation of that dogu. -/
def AwaitsInstalled (dogus : List Descriptor) (steps : List PlannedStep) : Prop :=
  ∀ before t after, steps = before ++ .awaitDogu t :: after →
    ∀ q ∈ dogus, q.simpleName = t → .installDogu q ∈ before

/-- Every dogu comes after the dogus of the list that provide its accounts. -/
def ProvidersFirst (ds : List Descriptor) : Prop :=
  ∀ before d after, ds = before ++ d :: after →
    ∀ a ∈ d.serviceAccounts, a.kind = .dogu → ∀ q ∈ ds, q.simpleName = a.target → q ∈ before

/-- The plan of an order waits for its own dogus only after installing them if and only if the order
puts providers first. -/
theorem awaitsInstalled_withBarriers {standing : List PlannedStep} {ds : List Descriptor}
    (hp : p.dogus = ds.map Descriptor.simpleName) (hstanding : ∀ t, .awaitDogu t ∉ standing) :
    AwaitsInstalled ds (withBarriers p standing ds) ↔ ProvidersFirst ds := by
  constructor
  · intro hawaits before d after hsplit a ha hkind q hq hname
    have hlisted : a.target ∈ p.dogus := hp ▸ List.mem_map.mpr ⟨q, hq, hname⟩
    have hdemand : .awaitDogu a.target ∈ demands p d :=
      awaitDogu_mem_demands ha hkind (Or.inl hlisted)
    -- the wait stands somewhere before the installation of the consumer
    have hstands : .awaitDogu a.target ∈ withBarriers p standing before ++
        (newBarriers (standingAfter p standing before) (demands p d)).1 :=
      barrier_before_install hdemand (hstanding a.target)
    obtain ⟨first, second, hfirst⟩ := List.append_of_mem hstands
    have hplan : withBarriers p standing ds = first ++ .awaitDogu a.target :: (second ++
        .installDogu d :: withBarriers p (standingAfter p standing (before ++ [d])) after) := by
      rw [hsplit, withBarriers_split, hfirst, List.append_assoc, List.cons_append]
    have hinstalled := hawaits first a.target _ hplan q hq hname
    have hmem := List.mem_append_left (.awaitDogu a.target :: second) hinstalled
    rw [← hfirst, List.mem_append, installDogu_mem_withBarriers] at hmem
    rcases hmem with hmem | hmem
    · exact hmem
    · exact absurd (mem_newBarriers.mp hmem).1 installDogu_not_mem_demands
  · intro hproviders before t after hsplit q hq hname
    obtain ⟨first, d, rest, earlier, hds, rfl, hstep⟩ := dogu_of_step hsplit
    have hdemand : .awaitDogu t ∈ demands p d := hstep.resolve_left (by simp)
    obtain ⟨a, ha, ht⟩ := mem_demands.mp hdemand
    obtain ⟨hkind, htarget⟩ := barrier?_eq_awaitDogu.mp (demanded?_eq_some.mp ht).1
    -- the wait is demanded by some dogu, and its provider comes before that one
    have hfirst : q ∈ first :=
      hproviders first d rest hds a ha hkind q hq (hname.trans htarget.symm)
    exact List.mem_append_left _ (installDogu_mem_withBarriers.mpr hfirst)

/-- An order of installation puts providers first if every listed provider of an account is also a
dependency. -/
theorem providersFirst_of_dependencies {dogus sorted : List Descriptor}
    (hnames : (dogus.map Descriptor.simpleName).Nodup) (h : sortByDependencies dogus = .ok sorted)
    (hdeps : ∀ d ∈ dogus, ∀ a ∈ d.serviceAccounts, a.kind = .dogu →
      a.target ∈ dogus.map Descriptor.simpleName → a.target ∈ d.doguDependencies) :
    ProvidersFirst sorted := by
  have hperm := perm_of_sortByDependencies h
  intro before d after hsplit a ha hkind q hq hname
  have hd : d ∈ dogus := hperm.subset (by simp [hsplit])
  have hqd : q ∈ dogus := hperm.subset hq
  have hlisted : a.target ∈ dogus.map Descriptor.simpleName :=
    List.mem_map.mpr ⟨q, hqd, hname⟩
  exact dependency_before hnames h hsplit hqd (hname ▸ hdeps d hd a ha hkind hlisted)

/-- A plan waits for its own dogus only after installing them if and only if the order of the resolved
dogus puts the providers of accounts first. -/
theorem awaitsInstalled_iff_providersFirst {registry : Registry} {around : Surroundings}
    {requests : List Request} {steps : List PlannedStep}
    (h : generate registry around requests = .ok steps) :
    ∃ dogus sorted, resolve registry requests = .ok dogus ∧
      sortByDependencies dogus = .ok sorted ∧
      (AwaitsInstalled dogus steps ↔ ProvidersFirst sorted) := by
  obtain ⟨dogus, sorted, hdogus, hsorted, rfl⟩ := generate_eq_ok.mp h
  refine ⟨dogus, sorted, hdogus, hsorted, ?_⟩
  have hmem : ∀ q, q ∈ dogus ↔ q ∈ sorted := fun q =>
    (perm_of_sortByDependencies hsorted).mem_iff.symm
  have hplan : AwaitsInstalled sorted (interleaveBarriers around sorted) ↔ ProvidersFirst sorted :=
    awaitsInstalled_withBarriers rfl (by simp)
  rw [← hplan]
  simp only [AwaitsInstalled, hmem]

/-- A dogu with an account that another one provides, on which it does not depend. -/
def consumerFirst : List Descriptor :=
  [{ name := "official/a", version := "1", serviceAccounts := [⟨"b", .dogu, false⟩] },
    { name := "official/b", version := "1" }]

/-- Without the dependency the plan waits for the provider before it installs it. -/
theorem generate_consumerFirst :
    generate (.ofList consumerFirst) {} [⟨"official/a", none⟩, ⟨"official/b", none⟩] =
        .ok (.awaitDogu "b" :: consumerFirst.map .installDogu) ∧
      ¬ AwaitsInstalled consumerFirst (.awaitDogu "b" :: consumerFirst.map .installDogu) := by
  refine ⟨by decide +kernel, ?_⟩
  intro h
  have hmem := h [] "b" _ rfl ⟨"official/b", "1", [], [], []⟩ (by simp [consumerFirst])
    (by decide +kernel)
  simp at hmem

/-- A dogu that depends on the provider of its account. -/
def providerFirst : List Descriptor :=
  [{ name := "official/a", version := "1", dependencies := [{ name := "b" }]
     serviceAccounts := [⟨"b", .dogu, false⟩] },
    { name := "official/b", version := "1" }]

/-- With the dependency the plan installs the provider, waits for it and installs the consumer. -/
theorem generate_providerFirst :
    generate (.ofList providerFirst) {} [⟨"official/a", none⟩, ⟨"official/b", none⟩] =
        .ok ((providerFirst.drop 1).map .installDogu ++ .awaitDogu "b" ::
          (providerFirst.take 1).map .installDogu) ∧
      ∃ dogus sorted,
        resolve (.ofList providerFirst) [⟨"official/a", none⟩, ⟨"official/b", none⟩] = .ok dogus ∧
        sortByDependencies dogus = .ok sorted ∧
        (AwaitsInstalled dogus ((providerFirst.drop 1).map .installDogu ++ .awaitDogu "b" ::
          (providerFirst.take 1).map .installDogu) ↔ ProvidersFirst sorted) := by
  have h : generate (.ofList providerFirst) {} [⟨"official/a", none⟩, ⟨"official/b", none⟩] =
      .ok ((providerFirst.drop 1).map .installDogu ++ .awaitDogu "b" ::
        (providerFirst.take 1).map .installDogu) := by
    decide +kernel
  exact ⟨h, awaitsInstalled_iff_providersFirst h⟩

end EcosystemSetup.Plan

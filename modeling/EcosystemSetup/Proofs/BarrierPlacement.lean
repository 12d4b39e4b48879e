import EcosystemSetup.Proofs.Barriers

/-!
# Plans with barriers

What the plan of an order looks like: its installations are the dogus of the order, and between them
stand the waits that the accounts of the dogus call for. Each of them stands once, before every dogu
that calls for it and directly before the first one, and nothing is waited for that was awaited before.

An account that is optional for one dogu may be required by a later one, so what matters is not whether
a barrier was passed over but whether it stands: the barriers that stand grow along the order.
-/

namespace EcosystemSetup.Plan

open Dogu

variable {p : Providers} {standing : List PlannedStep} {ds : List Descriptor}

/-! ## What the accounts of a dogu call for -/

/-- An account is optional for a dogu: it says so, or its provider is an optional dependency. -/
def OptionalFor (d : Descriptor) (a : ServiceAccount) : Prop :=
  a.optional = true ∨ ∃ x ∈ d.optionalDependencies, x.name = a.target

/-- The waits that the accounts of a dogu call for: those for providers of this run, and those for
providers that the dogu cannot do without. An account of an unknown kind calls for none. -/
inductive CallsFor (around : Surroundings) (sorted : List Descriptor) (d : Descriptor) :
    PlannedStep → Prop where
  | dogu {a : ServiceAccount} (account : a ∈ d.serviceAccounts) (kind : a.kind = .dogu)
      (needed : (∃ q ∈ sorted, q.simpleName = a.target) ∨ ¬ OptionalFor d a) :
      CallsFor around sorted d (.awaitDogu a.target)
  | component {a : ServiceAccount} (account : a ∈ d.serviceAccounts) (kind : a.kind = .component)
      (needed : a.target ∈ around.components ∨ ¬ OptionalFor d a) :
      CallsFor around sorted d (.awaitComponent a.target)

theorem isOptionalAccount_iff {d : Descriptor} {a : ServiceAccount} :
    d.isOptionalAccount a = true ↔ OptionalFor d a := by
  simp [Descriptor.isOptionalAccount, OptionalFor]

/-- The providers that the plan of an order relies on. -/
def providersOf (around : Surroundings) (sorted : List Descriptor) : Providers :=
  ⟨sorted.map Descriptor.simpleName, around.components⟩

/-- The demanded barriers of a dogu are the waits that its accounts call for. -/
theorem callsFor_iff {around : Surroundings} {sorted : List Descriptor} {d : Descriptor}
    {step : PlannedStep} :
    CallsFor around sorted d step ↔ step ∈ demands (providersOf around sorted) d := by
  have hneeded : ∀ {a : ServiceAccount}, ¬ OptionalFor d a ↔ d.isOptionalAccount a = false := by
    intro a
    rw [← isOptionalAccount_iff, Bool.not_eq_true]
  constructor
  · intro h
    cases h with
    | dogu account kind needed =>
      apply awaitDogu_mem_demands account kind
      exact needed.imp List.mem_map.mpr hneeded.mp
    | component account kind needed =>
      apply awaitComponent_mem_demands account kind
      exact needed.imp_right hneeded.mp
  · intro h
    obtain ⟨a, ha, hdemand⟩ := mem_demands.mp h
    obtain ⟨hbarrier, hcall⟩ := demanded?_eq_some.mp hdemand
    cases hkind : a.kind with
    | dogu =>
      have hstep : step = .awaitDogu a.target := by simpa [barrier?, hkind] using hbarrier.symm
      have hhas : (providersOf around sorted).has a = true → ∃ q ∈ sorted, q.simpleName = a.target := by
        intro h
        simpa [Providers.has, hkind, providersOf] using h
      rw [hstep]
      exact .dogu ha hkind (hcall.imp hhas hneeded.mpr)
    | component =>
      have hstep : step = .awaitComponent a.target := by
        simpa [barrier?, hkind] using hbarrier.symm
      have hhas : (providersOf around sorted).has a = true → a.target ∈ around.components := by
        intro h
        simpa [Providers.has, hkind, providersOf] using h
      rw [hstep]
      exact .component ha hkind (hcall.imp hhas hneeded.mpr)
    | unknown name => simp [barrier?, hkind] at hbarrier

/-! ## Installations and waits -/

/-- The dogu that a step installs; a wait installs none. -/
def PlannedStep.installed? : PlannedStep → Option Descriptor
  | .installDogu d => some d
  | .awaitDogu _ => none
  | .awaitComponent _ => none

theorem PlannedStep.ne_installDogu {step : PlannedStep} (h : step.installed? = none)
    (d : Descriptor) : step ≠ .installDogu d := by
  intro heq
  rw [heq] at h
  cases h

theorem mem_installed_iff {plan : List PlannedStep} {d : Descriptor} :
    d ∈ plan.filterMap PlannedStep.installed? ↔ .installDogu d ∈ plan := by
  rw [List.mem_filterMap]
  constructor
  · rintro ⟨step, hstep, hd⟩
    cases step with
    | installDogu e =>
      cases hd
      exact hstep
    | awaitDogu t => cases hd
    | awaitComponent t => cases hd
  · intro hd
    exact ⟨_, hd, rfl⟩

/-- Demanded barriers are waits. -/
theorem installed?_of_mem_demands {d : Descriptor} {b : PlannedStep} (h : b ∈ demands p d) :
    b.installed? = none := by
  cases b with
  | installDogu e => exact absurd h installDogu_not_mem_demands
  | awaitDogu t => rfl
  | awaitComponent t => rfl

theorem installed?_of_mem_newBarriers {d : Descriptor} {b : PlannedStep}
    (h : b ∈ (newBarriers standing (demands p d)).1) : b.installed? = none :=
  installed?_of_mem_demands (mem_newBarriers.mp h).1

/-- Without its waits a plan is its order. -/
theorem installed_withBarriers :
    (withBarriers p standing ds).filterMap PlannedStep.installed? = ds := by
  induction ds generalizing standing with
  | nil => rfl
  | cons d rest ih =>
    have hnew : (newBarriers standing (demands p d)).1.filterMap PlannedStep.installed? = [] := by
      apply List.filterMap_eq_nil_iff.mpr
      intro b hb
      exact installed?_of_mem_newBarriers hb
    rw [withBarriers_cons, List.filterMap_append, hnew, List.nil_append]
    show d :: (withBarriers p _ rest).filterMap PlannedStep.installed? = _
    rw [ih]

/-! ## Each wait once -/

/-- New barriers have no repetitions: once one stands it is not new any more. -/
theorem nodup_newBarriers (standing bs : List PlannedStep) : (newBarriers standing bs).1.Nodup := by
  induction bs generalizing standing with
  | nil => exact List.nodup_nil
  | cons b rest ih =>
    rw [newBarriers]
    split
    · exact ih standing
    · have hold : b ∉ (newBarriers (b :: standing) rest).1 := by
        intro hb
        exact (mem_newBarriers.mp hb).2 List.mem_cons_self
      exact List.nodup_cons.mpr ⟨hold, ih (b :: standing)⟩

/-- A wait stands at most once in a plan. -/
theorem count_withBarriers {b : PlannedStep} (hb : b.installed? = none) :
    (withBarriers p standing ds).count b ≤ 1 := by
  induction ds generalizing standing with
  | nil => simp [withBarriers]
  | cons d rest ih =>
    have hinstall : (PlannedStep.installDogu d == b) = false := by
      simpa using (PlannedStep.ne_installDogu hb d).symm
    rw [withBarriers_cons, List.count_append, List.count_cons, hinstall]
    have hrest : (withBarriers p (newBarriers standing (demands p d)).2 rest).count b ≤ 1 := ih
    have honce := List.nodup_iff_count_le_one.mp (nodup_newBarriers standing (demands p d)) b
    -- one that is new here stands for the rest of the order
    by_cases hnew : b ∈ (newBarriers standing (demands p d)).1
    · have hstands : b ∈ (newBarriers standing (demands p d)).2 :=
        mem_newBarriers_standing.mpr (Or.inr (mem_newBarriers.mp hnew).1)
      have hgone : b ∉ withBarriers p (newBarriers standing (demands p d)).2 rest := by
        intro hmem
        exact ((barrier_mem_withBarriers (PlannedStep.ne_installDogu hb)).mp hmem).1 hstands
      rw [List.count_eq_zero.mpr hgone]
      simpa using honce
    · rw [List.count_eq_zero.mpr hnew]
      simpa using hrest

/-! ## As late as possible -/

/-- The next installation after a wait is that of a dogu that demands it. -/
theorem next_install {before after : List PlannedStep} {step : PlannedStep}
    (hplan : withBarriers p standing ds = before ++ step :: after) (hstep : step.installed? = none) :
    ∃ waits d rest, after = waits ++ .installDogu d :: rest ∧
      (∀ s ∈ waits, s.installed? = none) ∧ step ∈ demands p d := by
  induction ds generalizing standing before with
  | nil => simp [withBarriers] at hplan
  | cons d rest ih =>
    rw [withBarriers_cons] at hplan
    rcases Lists.split_of_append_eq hplan with ⟨waits, hnew⟩ | ⟨skipped, -, htail⟩
    · -- one of the new barriers of the first dogu, whose installation follows them
      have hafter : after = waits ++ .installDogu d ::
          withBarriers p (newBarriers standing (demands p d)).2 rest := by
        rw [hnew, List.append_assoc] at hplan
        have htail := List.append_cancel_left hplan
        rw [List.cons_append, List.cons.injEq] at htail
        exact htail.2.symm
      have hmem : ∀ s ∈ step :: waits, s ∈ (newBarriers standing (demands p d)).1 := by
        intro s hs
        rw [hnew]
        exact List.mem_append_right _ hs
      refine ⟨waits, d, _, hafter, ?_, ?_⟩
      · intro s hs
        exact installed?_of_mem_newBarriers (hmem s (List.mem_cons_of_mem _ hs))
      · exact (mem_newBarriers.mp (hmem step List.mem_cons_self)).1
    · cases skipped with
      | nil =>
        rw [List.nil_append, List.cons.injEq] at htail
        exact absurd htail.1.symm (PlannedStep.ne_installDogu hstep d)
      | cons install skipped =>
        rw [List.cons_append, List.cons.injEq] at htail
        exact ih htail.2

/-! ## The plan of an order -/

/-- A plan installs the dogus of an order and waits in between as their accounts call for. -/
structure Interleaves (around : Surroundings) (sorted : List Descriptor)
    (plan : List PlannedStep) : Prop where
  /-- Without its waits the plan installs the dogus of the order, each of them once. -/
  installs : plan.filterMap PlannedStep.installed? = sorted
  /-- No dogu and no component is waited for twice. -/
  once : ∀ t, plan.count (.awaitDogu t) ≤ 1 ∧ plan.count (.awaitComponent t) ≤ 1
  /-- No component is waited for that was awaited before. -/
  unawaited : ∀ t ∈ around.awaited, .awaitComponent t ∉ plan
  /-- What a dogu calls for stands before its installation, or was awaited before. -/
  covered : ∀ before d after, plan = before ++ .installDogu d :: after →
    ∀ step, CallsFor around sorted d step →
      step ∈ before ∨ ∃ t ∈ around.awaited, step = .awaitComponent t
  /-- A wait is called for by the dogu that is installed next. -/
  late : ∀ before step after, plan = before ++ step :: after → step.installed? = none →
    ∃ waits d rest, after = waits ++ .installDogu d :: rest ∧
      (∀ s ∈ waits, s.installed? = none) ∧ CallsFor around sorted d step

/-- The steps of an order are a plan that interleaves it with the waits that its accounts call for. -/
theorem interleaves_interleaveBarriers (around : Surroundings) (sorted : List Descriptor) :
    Interleaves around sorted (interleaveBarriers around sorted) where
  installs := installed_withBarriers
  once := by
    intro t
    exact ⟨count_withBarriers rfl, count_withBarriers rfl⟩
  unawaited := by
    intro t ht hmem
    have hfresh := ((barrier_mem_withBarriers (by simp)).mp hmem).1
    exact hfresh (List.mem_map_of_mem ht)
  covered := by
    intro before d after hplan step hcall
    have hdemand := callsFor_iff.mp hcall
    obtain ⟨first, e, rest, earlier, -, rfl, hstep⟩ := dogu_of_step hplan
    rcases hstep with ⟨hinstall, rfl⟩ | habsurd
    · rw [PlannedStep.installDogu.injEq] at hinstall
      subst hinstall
      -- what stood before the plan are the components awaited before it
      by_cases hstood : step ∈ around.awaited.map .awaitComponent
      · obtain ⟨t, ht, rfl⟩ := List.mem_map.mp hstood
        exact Or.inr ⟨t, ht, rfl⟩
      · exact Or.inl (barrier_before_install hdemand hstood)
    · exact absurd habsurd installDogu_not_mem_demands
  late := by
    intro before step after hplan hstep
    obtain ⟨waits, d, rest, hafter, hwaits, hdemand⟩ := next_install hplan hstep
    exact ⟨waits, d, rest, hafter, hwaits, callsFor_iff.mpr hdemand⟩

/-- An account that is optional for one dogu and required by the next, an account of an unknown kind, and
one whose component was awaited before. -/
example :
    let mail : ServiceAccount := ⟨"mail", .dogu, true⟩
    let cas : Descriptor := ⟨"official/cas", "1", [], [], [mail, ⟨"vault", .unknown "cloud", false⟩]⟩
    let jira : Descriptor :=
      ⟨"official/jira", "1", [], [], [⟨"k8s-loki", .component, false⟩, { mail with optional := false }]⟩
    interleaveBarriers ⟨["k8s-loki"], ["k8s-loki"]⟩ [cas, jira] =
      [.installDogu cas, .awaitDogu "mail", .installDogu jira] := by
  decide +kernel

end EcosystemSetup.Plan

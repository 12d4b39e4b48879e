import EcosystemSetup.CommandLine.Execute
import EcosystemSetup.Proofs.BarrierPlacement
import EcosystemSetup.Proofs.HealthyRuns

/-!
# The layout of the pipeline

The steps of a setup stand in stages, with the planned steps of the dogus between fixed ones. What
planning prints are the descriptions of these steps, and a run that succeeds performs them, in this order
and each of them once. Planning asks no cluster: it has the same result where there is none.

A component is waited for right after it is installed. An account of it may call for a wait in the plan
as well, so the plan leaves out the components of the configuration, and no component is waited for more
often than the configuration names it, or once where it does not.
-/

namespace EcosystemSetup

open Cluster

/-! ## Programs that wait -/

/-- A program may come to wait for a goal, for some answers to what it does before. -/
def Program.Awaits {α : Type} (goal : Wait.Goal) : Program α → Prop
  | done _ => False
  | call _ next => ∃ r, (next r).Awaits goal
  | await g next => g = goal ∨ ∃ o, (next o).Awaits goal
  | cancelled next => ∃ b, (next b).Awaits goal
  | now next => ∃ text, (next text).Awaits goal

/-- A program keeps from waiting for a goal if it keeps from the watches of the goal. -/
theorem Program.not_awaits_of_obeys {α : Type} {allows : Call → Prop} {goal : Wait.Goal}
    {t : Program α} (ht : t.Obeys (.only allows))
    (hgoal : ∀ version, ¬ allows (goal.move (.opening version)).call) : ¬ t.Awaits goal := by
  induction t with
  | done a => exact id
  | call k next ih =>
    rintro ⟨r, hr⟩
    exact ih r (ht.2 r trivial) hr
  | await g next ih =>
    rintro (rfl | ⟨o, ho⟩)
    · exact hgoal "" (ht.1 (.opening ""))
    · exact ih o (ht.2 o) ho
  | cancelled next ih =>
    rintro ⟨b, hb⟩
    exact ih b (ht b) hb
  | now next ih =>
    rintro ⟨text, htext⟩
    exact ih text (ht text) htext

namespace Setup

/-- The component that a step begins to wait for, if it begins with such a wait. -/
def awaitedComponent? (step : SetupStep) : Option String :=
  match step.perform with
  | .await goal _ => if goal.collection = .components then goal.target.name else none
  | _ => none

/-- The calls that watch no components. -/
def WatchesNoComponent (k : Call) : Prop :=
  ∀ selector version, k ≠ .watch .components selector version

/-- A step that watches no components. -/
def Unwatching (step : SetupStep) : Prop :=
  step.perform.Obeys (.only WatchesNoComponent)

theorem Unwatching.not_awaits {step : SetupStep} (h : Unwatching step) {goal : Wait.Goal}
    (hgoal : goal.collection = .components) : ¬ step.perform.Awaits goal := by
  apply Program.not_awaits_of_obeys h
  intro version hallowed
  obtain ⟨collection, target, predicate, settings, timeout⟩ := goal
  dsimp only at hgoal
  subst hgoal
  exact hallowed _ version rfl

theorem Unwatching.awaitedComponent?_eq_none {step : SetupStep} (h : Unwatching step) :
    awaitedComponent? step = none := by
  unfold awaitedComponent?
  split
  · rename_i goal next hperform
    have hawaits : step.perform.Awaits goal := by
      rw [hperform]
      exact Or.inl rfl
    exact if_neg fun hgoal => h.not_awaits hgoal hawaits
  · rfl

/-! ## The steps that do not wait for components -/

theorem permitsPatches_watchesNoComponent : (Rule.only WatchesNoComponent).PermitsPatches where
  resolve _ := by intro selector version; simp
  patch _ _ _ _ := by intro selector version; simp

theorem permitsSelection_watchesNoComponent :
    (Rule.only WatchesNoComponent).PermitsSelection where
  readSelection := by intro selector version; simp
  freshSelection _ _ := by intro selector version; simp
  mergedSelection _ _ _ _ := by intro selector version; simp

theorem unwatching_validateConfiguration (c : Config) : Unwatching (validateConfiguration c) :=
  Program.obeys_done _

/-- A step that creates an object only does that. -/
theorem unwatching_createOnce {c : Collection} (description : String) (o : Object c) (what : String) :
    Unwatching ⟨description, createOnce o what⟩ := by
  refine obeys_createOnce ?_
  intro selector version
  simp

theorem unwatching_patchPhase (c : Config) (phase : Phase) : Unwatching (patchPhase c phase) :=
  obeys_patchPhase permitsPatches_watchesNoComponent c phase

theorem unwatching_writeConfiguration (c : Config) : Unwatching (writeConfiguration c) :=
  obeys_storeSelection permitsSelection_watchesNoComponent c

theorem unwatching_of_mem_loadbalancerSteps {s : Setup} {step : SetupStep}
    (h : step ∈ s.loadbalancerSteps) : Unwatching step := by
  unfold loadbalancerSteps at h
  split at h
  · rw [List.mem_singleton] at h
    subst h
    exact unwatching_createOnce _ _ _
  · simp at h

/-! ## The waits for components -/

theorem unwatching_installDogu (ns : String) (settings : Wait.Settings) (d : Dogu.Descriptor) :
    Unwatching (planned ns settings (.installDogu d)) :=
  unwatching_createOnce _ _ _

/-- Waiting for a dogu watches pods. -/
theorem unwatching_awaitDogu (ns : String) (settings : Wait.Settings) (target : String) :
    Unwatching (planned ns settings (.awaitDogu target)) := by
  refine Program.obeys_bind (Program.obeys_reach ?_) fun _ => Program.obeys_pure _
  intro stage selector version
  cases stage with
  | reading attempt => simp [Wait.Goal.move, doguGoal, Wait.Target.labelled]
  | opening version => simp [Wait.Goal.move, doguGoal]

theorem awaitedComponent?_awaitComponent (ns : String) (settings : Wait.Settings) (target : String) :
    awaitedComponent? (planned ns settings (.awaitComponent target)) = some target := rfl

/-- A wait for a component waits for the goal of that component and for nothing else. -/
theorem awaits_awaitComponent {ns : String} {settings : Wait.Settings} {target : String}
    {goal : Wait.Goal} :
    (planned ns settings (.awaitComponent target)).perform.Awaits goal ↔
      goal = componentGoal settings target := by
  constructor
  · rintro (rfl | ⟨o, ho⟩)
    · rfl
    · exact absurd ho id
  · rintro rfl
    exact Or.inl rfl

/-- A step of a setup watches no components, or it is the wait for a component. -/
theorem unwatching_or_awaitComponent {s : Setup} {plan : List Plan.PlannedStep} {step : SetupStep}
    (h : step ∈ s.steps plan) :
    Unwatching step ∨
      ∃ t, step = planned s.config.namespaceName s.settings (.awaitComponent t) := by
  unfold steps at h
  simp only [List.mem_append, List.mem_cons, List.not_mem_nil, or_false, List.mem_flatMap,
    List.mem_map] at h
  rcases h with
    ((((((rfl | rfl) | ⟨e, _, he⟩) | (rfl | rfl)) | ⟨p, _, rfl⟩) | rfl) | hl) | rfl
  · exact Or.inl (unwatching_validateConfiguration _)
  · exact Or.inl (unwatching_createOnce _ _ _)
  · unfold componentSteps at he
    simp only [List.mem_cons, List.not_mem_nil, or_false] at he
    rcases he with rfl | rfl
    · exact Or.inl (unwatching_createOnce _ _ _)
    · exact Or.inr ⟨e.name, rfl⟩
  · exact Or.inl (unwatching_patchPhase _ _)
  · exact Or.inl (unwatching_writeConfiguration _)
  · cases p with
    | installDogu d => exact Or.inl (unwatching_installDogu _ _ d)
    | awaitDogu target => exact Or.inl (unwatching_awaitDogu _ _ target)
    | awaitComponent target => exact Or.inr ⟨target, rfl⟩
  · exact Or.inl (unwatching_patchPhase _ _)
  · exact Or.inl (unwatching_of_mem_loadbalancerSteps hl)
  · exact Or.inl (unwatching_patchPhase _ _)

/-- A step of a setup may wait for a component exactly if it begins with that. -/
theorem awaits_iff_awaitedComponent? {s : Setup} {plan : List Plan.PlannedStep} {step : SetupStep}
    (h : step ∈ s.steps plan) {goal : Wait.Goal} (hgoal : goal.collection = .components) :
    step.perform.Awaits goal ↔
      ∃ t, awaitedComponent? step = some t ∧ goal = componentGoal s.settings t := by
  rcases unwatching_or_awaitComponent h with hunwatching | ⟨t, rfl⟩
  · apply iff_of_false (hunwatching.not_awaits hgoal)
    rintro ⟨t, ht, -⟩
    rw [hunwatching.awaitedComponent?_eq_none] at ht
    cases ht
  · rw [awaits_awaitComponent, awaitedComponent?_awaitComponent]
    simp

/-! ## How often a component is waited for -/

/-- The components that the steps of a plan wait for. -/
theorem count_awaited_planned (ns : String) (settings : Wait.Settings)
    (plan : List Plan.PlannedStep) (t : String) :
    ((plan.map (planned ns settings)).filterMap awaitedComponent?).count t =
      plan.count (.awaitComponent t) := by
  induction plan with
  | nil => rfl
  | cons p rest ih =>
    rw [List.map_cons, List.filterMap_cons, List.count_cons]
    cases p with
    | installDogu d =>
      rw [(unwatching_installDogu ns settings d).awaitedComponent?_eq_none]
      simpa using ih
    | awaitDogu target =>
      rw [(unwatching_awaitDogu ns settings target).awaitedComponent?_eq_none]
      simpa using ih
    | awaitComponent target =>
      rw [awaitedComponent?_awaitComponent, List.count_cons, ih]
      simp

/-- The steps of the components wait for each of them, in the order of the configuration. -/
theorem awaited_componentSteps (s : Setup) (es : List Config.ComponentEntry) :
    (es.flatMap s.componentSteps).filterMap awaitedComponent? = es.map Config.ComponentEntry.name := by
  induction es with
  | nil => rfl
  | cons e rest ih =>
    have hinstall : Unwatching (installComponent s.config.namespaceName e) :=
      unwatching_createOnce _ _ _
    rw [List.flatMap_cons, List.filterMap_append, ih, componentSteps,
      List.filterMap_cons_none hinstall.awaitedComponent?_eq_none]
    rfl

/-- All waits for a component: those of the configuration, and those of the plan. -/
theorem count_awaited_steps (s : Setup) (plan : List Plan.PlannedStep) (t : String) :
    ((s.steps plan).filterMap awaitedComponent?).count t =
      s.config.componentNames.count t + plan.count (.awaitComponent t) := by
  have hloadbalancer : s.loadbalancerSteps.filterMap awaitedComponent? = [] := by
    rw [List.filterMap_eq_nil_iff]
    intro step hstep
    exact (unwatching_of_mem_loadbalancerSteps hstep).awaitedComponent?_eq_none
  have hpatch : ∀ phase, awaitedComponent? (patchPhase s.config phase) = none := fun phase =>
    (unwatching_patchPhase _ phase).awaitedComponent?_eq_none
  have hnamespace : awaitedComponent? (createNamespace s.config.namespaceName) = none :=
    (unwatching_createOnce _ _ _).awaitedComponent?_eq_none
  unfold steps
  simp only [List.filterMap_append, List.filterMap_cons, List.filterMap_nil, hloadbalancer, hpatch,
    hnamespace, (unwatching_validateConfiguration s.config).awaitedComponent?_eq_none,
    (unwatching_writeConfiguration s.config).awaitedComponent?_eq_none, awaited_componentSteps,
    List.nil_append, List.append_nil, List.count_append, count_awaited_planned]
  rfl

/-! ## The pipeline -/

/-- A pipeline in its stages, what planning says about it, and how often it waits for components. -/
structure Pipelined (s : Setup) (executor : Executor Program) : Prop where
  /-- The stages in their order. The planned steps install the dogus that the requests resolve to, each
  of them once; the others are waits. -/
  stages : ∃ requests resolved, ∃ dogus : List Plan.PlannedStep,
    s.config.requests = .ok requests ∧ Plan.resolve s.registry requests = .ok resolved ∧
    (dogus.filterMap Plan.PlannedStep.installed?).Perm resolved ∧
    executor.steps =
      [validateConfiguration s.config, createNamespace s.config.namespaceName] ++
      (s.config.components.flatMap fun e =>
        [installComponent s.config.namespaceName e,
          planned s.config.namespaceName s.settings (.awaitComponent e.name)]) ++
      [patchPhase s.config .component] ++
      [writeConfiguration s.config] ++
      dogus.map (planned s.config.namespaceName s.settings) ++
      [patchPhase s.config .dogu] ++
      (if s.config.loadbalancer.enabled then
        [createLoadbalancer s.config.namespaceName s.config.loadbalancer] else []) ++
      [patchPhase s.config .loadbalancer]
  /-- Planning gives the descriptions of the steps. -/
  described : s.plan = .ok (executor.steps.map Step.description)
  /-- Whatever cluster there is, if any, planning prints them. -/
  offline : ∀ {σ : Type} [Backend σ] (surroundings : CommandLine.Surroundings σ)
    (format : CommandLine.OutputFormat) (path : String) (registry : Option String),
    CommandLine.loadSetup surroundings path registry = .ok s →
    CommandLine.Command.execute surroundings format (.plan path registry) =
      { output := CommandLine.planText format (executor.steps.map Step.description) }
  /-- A run that succeeds looks at the state and claims the setup, with no call in between, performs
  all of the steps, one after another, and then records that it is complete. -/
  performed : ∀ {σ : Type} [Backend σ] (w : World σ), (s.run.run w).1 = .ok () →
    ∃ u v, StateStore.claim.run (StateStore.get.run w).2 = (.ok (), u) ∧
      Executor.Performed executor.steps u v ∧
      (StateStore.set .installed).run v = (.ok (), (s.run.run w).2)
  /-- The component that a step begins to wait for is the only one that it may wait for. -/
  awaits : ∀ step ∈ executor.steps, ∀ goal : Wait.Goal, goal.collection = .components →
    (step.perform.Awaits goal ↔
      ∃ t, awaitedComponent? step = some t ∧ goal = componentGoal s.settings t)
  /-- A component of the configuration is waited for once for each of its entries. -/
  configured : ∀ t ∈ s.config.componentNames,
    (executor.steps.filterMap awaitedComponent?).count t = s.config.componentNames.count t
  /-- Any other component is waited for once at most. -/
  unconfigured : ∀ t ∉ s.config.componentNames,
    (executor.steps.filterMap awaitedComponent?).count t ≤ 1

theorem pipeline_eq_ok {s : Setup} {executor : Executor Program} (h : s.pipeline = .ok executor) :
    ∃ plan, s.plannedSteps = .ok plan ∧ executor = { steps := s.steps plan } := by
  unfold pipeline at h
  cases hplan : s.plannedSteps with
  | error e =>
    rw [hplan] at h
    cases h
  | ok plan =>
    rw [hplan] at h
    exact ⟨plan, rfl, (Except.ok.inj h).symm⟩

/-- A run that succeeds has performed the steps of the plan. -/
theorem performed_of_run_ok {σ : Type} [Backend σ] {s : Setup} {plan : List Plan.PlannedStep}
    {w : World σ} (hplan : s.plannedSteps = .ok plan) (h : (s.run.run w).1 = .ok ()) :
    ∃ u v, StateStore.claim.run (StateStore.get.run w).2 = (.ok (), u) ∧
      Executor.Performed (s.steps plan) u v ∧
      (StateStore.set .installed).run v = (.ok (), (s.run.run w).2) := by
  rcases s.run_stages w with ⟨plan', u, hclaims, hrun⟩ | ⟨e, v, -, hrun⟩
  · have hsame : plan = plan' := Except.ok.inj (hplan.symm.trans hclaims.planned)
    subst hsame
    rcases run_complete (s.steps plan) u with
      ⟨v, hperformed, hcomplete⟩ | ⟨_, _, _, _, _, _, -, -, -, hcomplete⟩
    · refine ⟨u, v, hclaims.claimed, hperformed, ?_⟩
      rw [hrun, hcomplete] at h ⊢
      -- the end was recorded, or the run would not have succeeded
      cases hset : (StateStore.set .installed).run v with
      | mk answer x =>
        cases answer with
        | ok done => rfl
        | error e =>
          rw [hset] at h
          cases h
    · rw [hrun, hcomplete] at h
      cases h
  · rw [hrun] at h
    cases h

/-- What the success of a step leaves on record is on the record of a run that succeeds. -/
theorem exists_recorded {σ : Type} [Backend σ] {s : Setup} {plan : List Plan.PlannedStep}
    {w : World σ} {news : List Exchange} {step : SetupStep} {P : Exchange → Prop}
    (hplan : s.plannedSteps = .ok plan) (hrun : (s.run.run w).1 = .ok ())
    (hnews : World.Since w (s.run.run w).2 news) (hstep : step ∈ s.steps plan)
    (hP : ∀ v v' : World σ, step.perform.run v = (.ok (), v') →
      ∃ own, World.Since v v' own ∧ ∃ x ∈ own, P x) : ∃ x ∈ news, P x := by
  obtain ⟨u, v, hclaimed, hperformed, hset⟩ := performed_of_run_ok hplan hrun
  -- the record begins with the look at the state and the claim, and ends with the new state
  obtain ⟨looked, hlooked⟩ := StateStore.get.run_since w
  obtain ⟨claimed, hclaim⟩ := StateStore.claim.run_since (StateStore.get.run w).2
  obtain ⟨done, hdone⟩ := hperformed.since
  obtain ⟨last, hlast⟩ := (StateStore.set .installed).run_since v
  rw [hclaimed] at hclaim
  rw [hset] at hlast
  obtain ⟨x, hx, hPx⟩ := hperformed.exists_exchange hstep hdone hP
  rw [hnews.unique (((hlooked.trans hclaim).trans hdone).trans hlast)]
  exact ⟨x, by simp [hx], hPx⟩

/-- The pipeline of a setup stands in its stages, is what planning prints and what a run performs, and
waits for no component more often than it has to. -/
theorem pipelined_of_pipeline {s : Setup} {executor : Executor Program}
    (h : s.pipeline = .ok executor) : s.Pipelined executor := by
  obtain ⟨plan, hplan, rfl⟩ := pipeline_eq_ok h
  obtain ⟨requests, resolved, sorted, hrequests, hresolved, hsorted, hinterleaved⟩ :=
    plannedSteps_eq_ok hplan
  have hdescribed : s.plan = .ok ((s.steps plan).map Step.description) := by
    rw [Setup.plan, h]
    rfl
  refine ⟨⟨requests, resolved, plan, hrequests, hresolved, ?_, ?_⟩, hdescribed, ?_, ?_, ?_, ?_, ?_⟩
  · have hinstalled : plan.filterMap Plan.PlannedStep.installed? = sorted := by
      rw [hinterleaved]
      exact Plan.installed_withBarriers
    rw [hinstalled]
    exact Plan.perm_of_sortByDependencies hsorted
  · simp only [steps, loadbalancerSteps, List.append_assoc]
    rfl
  · intro σ _ surroundings format path registry hload
    show CommandLine.executePlan format (CommandLine.loadSetup surroundings path registry) = _
    rw [hload, CommandLine.executePlan]
    dsimp only
    rw [hdescribed]
  · intro σ _ w hrun
    exact performed_of_run_ok hplan hrun
  · intro step hstep goal hgoal
    exact awaits_iff_awaitedComponent? hstep hgoal
  · intro t ht
    -- it stands as awaited before the plan, so the plan does not wait for it again
    have hfresh : Plan.PlannedStep.awaitComponent t ∉ plan := by
      rw [hinterleaved]
      intro hmem
      exact ((Plan.barrier_mem_withBarriers (by simp)).mp hmem).1 (List.mem_map_of_mem ht)
    rw [count_awaited_steps, List.count_eq_zero.mpr hfresh, Nat.add_zero]
  · intro t ht
    have honce : plan.count (.awaitComponent t) ≤ 1 := by
      rw [hinterleaved]
      exact Plan.count_withBarriers rfl
    rw [count_awaited_steps, List.count_eq_zero.mpr ht]
    omega

/-- The planned steps of a setup with a component that is waited for before them. -/
def patchedPlan : List Plan.PlannedStep :=
  [.installDogu { name := "official/ldap", version := "2.6.2-1" }, .awaitDogu "ldap",
    .installDogu cas]

/-- An account calls for that component as well; the setup succeeds on a cluster in use. -/
theorem pipelined_patchedSetup :
    ∃ executor, patchedSetup.pipeline = .ok executor ∧
      executor.descriptions =
        ["validate setup configuration", "create namespace ecosystem",
          "install component k8s-loki (1.0.0)", "wait for component k8s-loki to become ready",
          "apply resource patches for phase component",
          "write setup configuration to k8s-ces-config", "install dogu official/ldap (2.6.2-1)",
          "wait for dogu ldap to become ready", "install dogu official/cas (7.0.5-1)",
          "apply resource patches for phase dogu", "create loadbalancer service ces-loadbalancer",
          "apply resource patches for phase loadbalancer"] ∧
      (patchedSetup.run.run busyCluster).1 = .ok () ∧ patchedSetup.Pipelined executor := by
  have hplan : patchedSetup.plannedSteps = .ok patchedPlan := by decide +kernel
  have hpipeline : patchedSetup.pipeline = .ok { steps := patchedSetup.steps patchedPlan } := by
    rw [pipeline, hplan]
    rfl
  exact ⟨_, hpipeline, by decide +kernel, by decide +kernel, pipelined_of_pipeline hpipeline⟩

end Setup

end EcosystemSetup

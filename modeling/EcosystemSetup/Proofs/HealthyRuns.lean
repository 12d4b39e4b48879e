import EcosystemSetup.Proofs.DependencyCycles
import EcosystemSetup.Proofs.RunEndings
import EcosystemSetup.Proofs.SuccessfulSteps

/-!
# Runs that succeed

A setup with a valid configuration and a plan succeeds on every cluster in memory that is calm, that has no
state yet, and on which what the setup waits for is ready and what it patches is there. It does so
whatever else the cluster holds: the run performs all its steps, and then the setup is installed, every
requested dogu has its resource, and nothing else that was there has changed.
-/

namespace EcosystemSetup.Setup

open Cluster Executor

/-! ## Healthy clusters -/

/-- A cluster on which nothing stands in the way of a setup. -/
structure Healthy (s : Setup) (w : World Sandbox) : Prop where
  valid : s.config.validate = .ok ()
  standard : s.registry.Standard
  /-- Every request is found, and what is found has no cycle. -/
  resolved : ∀ requests, s.config.requests = .ok requests → ∃ dogus,
    List.Forall₂ (fun r d => Plan.lookUp s.registry r = .ok d) requests dogus ∧ Plan.Acyclic dogus
  /-- There are no faults, no turns for others and no cancellation, and objects are filed under their
  names. -/
  calm : w.Calm
  unclaimed : StateStore.recorded w.backend = .ok none
  /-- For every dogu that the plan waits for, a pod is ready. -/
  pods : ∀ plan target, s.plannedSteps = .ok plan → .awaitDogu target ∈ plan →
    ∃ pod ∈ ((w.backend.shelf .pods).store.snapshot
      (Wait.Target.selectorOf doguLabel target)).items, Wait.podReady pod = .ready
  /-- Every component that is configured or that the plan waits for is available. -/
  components : ∀ target, (target ∈ s.config.componentNames ∨
      ∃ plan, s.plannedSteps = .ok plan ∧ .awaitComponent target ∈ plan) →
    ∃ component status, (w.backend.shelf .components).store.object? target = some component ∧
      component.body.status = some status ∧ status.health = Wait.healthAvailable
  /-- Every kind that is patched is served. -/
  served : ∀ d ∈ s.config.patches, ∃ namespaced,
    Assoc.get? d.resource.kindName.key w.backend.hub.kinds = some namespaced
  found : ∀ d ∈ s.config.patches, d.resource.name ∉ w.backend.hub.failing

theorem not_rewritten {c : Collection} (hc : c ≠ .configMaps) (name : String) :
    ¬ Rewritten c name :=
  fun h => hc h.1

/-- What a selector matches is still matched later on. -/
theorem Retained.mem_snapshot {start w : World Sandbox} (h : Retained start w)
    (hstart : start.Calm) {c : Collection} (hc : c ≠ .configMaps) {selector : String} {o : Object c}
    (ho : o ∈ ((start.backend.shelf c).store.snapshot selector).items) :
    o ∈ ((w.backend.shelf c).store.snapshot selector).items := by
  rw [Store.mem_snapshot (hstart.filed c)] at ho
  rw [Store.mem_snapshot (h.calm.filed c)]
  exact ⟨h.objects (not_rewritten hc _) ho.1, ho.2⟩

namespace Healthy

variable {s : Setup} {w u : World Sandbox} {plan : List Plan.PlannedStep}

/-! ## The plan -/

/-- There is a plan, and it installs a dogu for every request. -/
theorem exists_plan (h : s.Healthy w) :
    ∃ requests plan, s.config.requests = .ok requests ∧ s.plannedSteps = .ok plan ∧
      ∀ r ∈ requests, ∃ d, .installDogu d ∈ plan ∧ d.simpleName = r.simpleName := by
  obtain ⟨requests, hvalid⟩ := Config.validate_eq_ok.mp h.valid
  obtain ⟨dogus, hfound, hacyclic⟩ := h.resolved requests hvalid.requested
  have hresolved : Plan.resolve s.registry requests = .ok dogus :=
    Plan.resolveFrom_eq_ok.mpr ⟨hfound, hvalid.distinct, by simp⟩
  have hnames := Plan.nodup_simpleName_of_resolve h.standard.faithful hresolved
  obtain ⟨sorted, hsorted⟩ :=
    Plan.exists_order_iff.mpr ((Plan.length_installed_iff hnames).mpr hacyclic)
  have hplan : s.plannedSteps = .ok (Plan.interleaveBarriers
      ⟨s.config.componentNames, s.config.componentNames⟩ sorted) := by
    unfold plannedSteps
    rw [hvalid.requested]
    dsimp only
    rw [Plan.generate_eq_ok.mpr ⟨dogus, sorted, hresolved, hsorted, rfl⟩]
    rfl
  refine ⟨requests, _, hvalid.requested, hplan, ?_⟩
  intro r hr
  -- a request is for one of the dogus that are found, and those are the ones in the order
  have hmem : r.simpleName ∈ dogus.map Dogu.Descriptor.simpleName := by
    rw [Plan.map_simpleName_of_forall₂ h.standard.faithful hfound]
    exact List.mem_map_of_mem hr
  obtain ⟨d, hd, hname⟩ := List.mem_map.mp hmem
  refine ⟨d, ?_, hname⟩
  apply Plan.installDogu_mem_withBarriers.mpr
  exact (Plan.perm_of_sortByDependencies hsorted).mem_iff.mpr hd

/-! ## The steps -/

theorem applicable (h : s.Healthy w) (hu : Retained w u) :
    ∀ d ∈ s.config.patches, Patch.Applicable u.backend.hub d := by
  obtain ⟨requests, hvalid⟩ := Config.validate_eq_ok.mp h.valid
  intro d hd
  have hstart : Patch.Applicable w.backend.hub d :=
    ⟨hvalid.patches d hd, h.served d hd, h.found d hd⟩
  exact hstart.congr hu.kinds hu.failing

/-- Waiting for a component succeeds. -/
theorem awaitComponent_succeeds (h : s.Healthy w) (hu : Retained w u) {target : String}
    (htarget : target ∈ s.config.componentNames ∨
      ∃ plan, s.plannedSteps = .ok plan ∧ .awaitComponent target ∈ plan) :
    ((reach (componentGoal s.settings target)).run u).1 = .ok () := by
  obtain ⟨component, status, hthere, hstatus, hhealth⟩ := h.components target htarget
  have hready : Wait.componentHealthy component = .ready := by
    unfold Wait.componentHealthy
    rw [hstatus]
    dsimp only
    rw [if_pos hhealth]
  apply reach_succeeds
  apply Wait.run_of_named hu.calm (g := componentGoal s.settings target) rfl
  exact ⟨component, hu.objects (not_rewritten (by simp [componentGoal]) _) hthere, hready⟩

/-- Every step of the plan succeeds. -/
theorem planned_succeeds (h : s.Healthy w) (hplan : s.plannedSteps = .ok plan)
    (hu : Retained w u) {p : Plan.PlannedStep} (hp : p ∈ plan) :
    ((planned s.config.namespaceName s.settings p).perform.run u).1 = .ok () := by
  cases p with
  | installDogu d => exact (createOnce_succeeds hu.calm _ _).1
  | awaitDogu target =>
    obtain ⟨pod, hpod, hready⟩ := h.pods plan target hplan hp
    apply reach_succeeds
    apply Wait.run_of_listed hu.calm (g := doguGoal s.settings target) rfl
    exact ⟨pod, hu.mem_snapshot h.calm (by simp [doguGoal]) hpod, hready⟩
  | awaitComponent target => exact h.awaitComponent_succeeds hu (Or.inr ⟨plan, hplan, hp⟩)

theorem stepsBefore_succeed (h : s.Healthy w) (hu : Retained w u) :
    ∀ step ∈ s.stepsBefore, (step.perform.run u).1 = .ok () := by
  intro step hstep
  unfold stepsBefore at hstep
  simp only [List.mem_append, List.mem_cons, List.not_mem_nil, or_false, List.mem_flatMap] at hstep
  rcases hstep with ((rfl | rfl) | ⟨e, he, hstep⟩) | rfl | rfl
  · show s.config.validate.mapError configFailure = .ok ()
    rw [h.valid]
    rfl
  · exact (createOnce_succeeds hu.calm _ _).1
  · unfold componentSteps at hstep
    simp only [List.mem_cons, List.not_mem_nil, or_false] at hstep
    rcases hstep with rfl | rfl
    · exact (createOnce_succeeds hu.calm _ _).1
    · exact h.awaitComponent_succeeds hu (Or.inl (List.mem_map_of_mem he))
  · exact patchPhase_succeeds hu.calm _ _ (h.applicable hu)
  · exact storeSelection_succeeds hu.calm s.config

theorem stepsAfter_succeed (h : s.Healthy w) (hu : Retained w u) :
    ∀ step ∈ s.stepsAfter, (step.perform.run u).1 = .ok () := by
  intro step hstep
  unfold stepsAfter loadbalancerSteps at hstep
  simp only [List.mem_append, List.mem_singleton] at hstep
  rcases hstep with (rfl | hstep) | rfl
  · exact patchPhase_succeeds hu.calm _ _ (h.applicable hu)
  · split at hstep
    · rw [List.mem_singleton] at hstep
      subst hstep
      exact (createOnce_succeeds hu.calm _ _).1
    · simp at hstep
  · exact patchPhase_succeeds hu.calm _ _ (h.applicable hu)

/-- Every step succeeds in every world that has kept what was there. -/
theorem step_succeeds (h : s.Healthy w) (hplan : s.plannedSteps = .ok plan) (hu : Retained w u)
    {step : SetupStep} (hstep : step ∈ s.steps plan) : (step.perform.run u).1 = .ok () := by
  rw [steps_eq, List.mem_append, List.mem_append, List.mem_map] at hstep
  rcases hstep with hstep | ⟨p, hp, rfl⟩ | hstep
  · exact h.stepsBefore_succeed hu step hstep
  · exact h.planned_succeeds hplan hu hp
  · exact h.stepsAfter_succeed hu step hstep

/-! ## The run -/

/-- The run claims the setup. -/
theorem exists_claims (h : s.Healthy w) (hplan : s.plannedSteps = .ok plan) :
    ∃ u, s.Claims w plan u ∧ Retained w u := by
  obtain ⟨hguard, hv⟩ := StateStore.get_succeeds h.calm
  have hsame := StateStore.recorded_eq_of_unchanged (StateStore.get_sandbox h.calm.filed).1
  obtain ⟨u, hclaim, hu⟩ := StateStore.claim_succeeds hv.calm (hsame.trans h.unclaimed)
  exact ⟨u, ⟨hguard.trans h.unclaimed, hplan, hclaim⟩, hv.trans hu⟩

/-- No step halts the run. -/
theorem not_halted (h : s.Healthy w) (hplan : s.plannedSteps = .ok plan) (hu : Retained w u)
    {step : SetupStep} (hstep : step ∈ s.steps plan) {cause : Failure} {v : World Sandbox} :
    ¬ Halted step u cause v := by
  intro hhalted
  have hok := h.step_succeeds hplan hu hstep
  rw [hhalted.failure hu.calm.undisturbed] at hok
  simp at hok

end Healthy

/-- Performed steps leave what was there. -/
theorem retained_of_performed {s : Setup} {plan : List Plan.PlannedStep} {steps : List SetupStep}
    {start u v : World Sandbox} (hsteps : steps ⊆ s.steps plan) (hu : Retained start u)
    (h : Performed steps u v) : Retained start v := by
  refine h.keeps (fun _ => (keeps_retained start).look) ?_ hu
  intro step hstep x hx
  exact (steps_obey_retainRule s plan step (hsteps hstep)).keeps (keeps_retained start) hx

/-- A dogu whose installation is among performed steps has its resource. -/
theorem exists_dogu_of_performed {s : Setup} {plan : List Plan.PlannedStep} {u v : World Sandbox}
    {d : Dogu.Descriptor} (hd : .installDogu d ∈ plan) (hu : u.Calm)
    (h : Performed (s.steps plan) u v) :
    ∃ o, (v.backend.shelf .dogus).store.object? d.simpleName = some o := by
  have hstep : planned s.config.namespaceName s.settings (.installDogu d) ∈ s.steps plan := by
    rw [steps_eq, List.mem_append, List.mem_append]
    exact Or.inr (Or.inl (List.mem_map_of_mem hd))
  have hobeys := steps_obey_retainRule s plan
  -- the step that installs it leaves a resource, and all steps retain it
  apply h.establishes (I := Retained u)
    (P := fun x => ∃ o, (x.backend.shelf .dogus).store.object? d.simpleName = some o) hstep
    (fun _ => (keeps_retained u).look) (fun x hx => by rwa [World.looked_backend])
  · intro t ht x hx
    exact (hobeys t ht).keeps (keeps_retained u) hx
  · intro t ht x hx ⟨o, ho⟩
    have hkept := (hobeys t ht).keeps (keeps_retained x) (.refl hx.calm)
    exact ⟨o, hkept.objects (not_rewritten (by simp) _) ho⟩
  · intro x hx
    exact (createOnce_succeeds hx.calm (doguObject s.config.namespaceName d) _).2
  · exact .refl hu

/-- A run that claims the setup goes on to complete it. -/
theorem Claims.run_eq {s : Setup} {w u : World Sandbox} {plan : List Plan.PlannedStep}
    (h : s.Claims w plan u) : s.run.run w = (complete { steps := s.steps plan }).run u := by
  rcases s.run_stages w with ⟨plan', u', h', hrun⟩ | ⟨e, v, hrefused, _⟩
  · have hplan : plan = plan' := Except.ok.inj (h.planned.symm.trans h'.planned)
    have hworld : u = u' := congrArg Prod.snd (h.claimed.symm.trans h'.claimed)
    rw [hplan, hworld]
    exact hrun
  · exact absurd h hrefused.not_claims

/-- What a run that succeeds gives back, and what it leaves. -/
structure Completes (s : Setup) (w : World Sandbox) (answer : Except SetupError Unit)
    (v : World Sandbox) : Prop where
  answered : answer = .ok ()
  installed : StateStore.recorded v.backend = .ok (some .installed)
  /-- There is a resource for every dogu that was requested. -/
  dogus : ∃ requests, s.config.requests = .ok requests ∧ ∀ r ∈ requests,
    ∃ o, (v.backend.shelf .dogus).store.object? r.simpleName = some o
  /-- Every object that was there is as it was, except for the two config maps that are rewritten. -/
  retained : ∀ (c : Collection) (name : String) (o : Object c), ¬ Rewritten c name →
    (w.backend.shelf c).store.object? name = some o →
    (v.backend.shelf c).store.object? name = some o

/-- A run on a healthy cluster succeeds. -/
theorem completes_of_healthy {s : Setup} {w : World Sandbox} (h : s.Healthy w) :
    s.Completes w (s.run.run w).1 (s.run.run w).2 := by
  obtain ⟨requests, plan, hrequests, hplan, hinstalls⟩ := h.exists_plan
  obtain ⟨u, hclaims, hu⟩ := h.exists_claims hplan
  rw [hclaims.run_eq]
  rcases run_complete (s.steps plan) u with
    ⟨x, hperformed, hcomplete⟩ | ⟨before, step, after, cause, x, v, hsteps, hbefore, hhalted, _⟩
  · have hx : Retained w x := retained_of_performed (List.Subset.refl _) hu hperformed
    obtain ⟨v, hset, hv⟩ := StateStore.set_succeeds hx.calm .installed
    have hinstalled : StateStore.recorded v.backend = .ok (some .installed) := by
      rcases (StateStore.set_sandbox hx.calm.filed hset).2 with ⟨⟨e, he⟩, _⟩ | ⟨_, hrecorded⟩
      · simp at he
      · exact hrecorded
    rw [hcomplete, hset]
    refine ⟨rfl, hinstalled, ⟨requests, hrequests, ?_⟩, fun c name o => (hx.trans hv).objects⟩
    intro r hr
    obtain ⟨d, hd, hname⟩ := hinstalls r hr
    obtain ⟨o, ho⟩ := exists_dogu_of_performed hd hu.calm hperformed
    exact ⟨o, hname ▸ hv.objects (not_rewritten (by simp) _) ho⟩
  · -- no step can have halted the run
    have hsub : before ⊆ s.steps plan := by
      rw [hsteps]
      exact List.subset_append_left _ _
    have hx : Retained w x := retained_of_performed hsub hu hbefore
    have hmem : step ∈ s.steps plan := by simp [hsteps]
    exact absurd hhalted (h.not_halted hplan hx hmem)

/-! ## A cluster that is in use -/

/-- A setup with a load balancer and a patch, whose waits have no time. -/
def patchedSetup : Setup :=
  { casSetup with
    config :=
      { casSetup.config with
        loadbalancer := { enabled := true }
        patches :=
          [{ phase := .dogu
             resource := ⟨"apps/v1", "Deployment", "cas"⟩
             changes := [{ kind := .remove, path := "/spec/paused" }] }] }
    settings := { Wait.Settings.standard with timeout := .ofSecs 0, maxReadAttempts := 0 } }

/-- A cluster that has a resource of one of the dogus, the config map of the dogus and a state map without
a state. -/
def busyCluster : World Sandbox where
  backend :=
    { readyCluster.backend with
      dogus.store := Store.insert {} (doguObject "elsewhere" cas)
      configMaps.store :=
        Store.insert
          (Store.insert {}
            { metadata := { name := some configMapName, resourceVersion := some "7" }
              body := { data := some [("fqdn", "ces.example")] } })
          { metadata := { name := some StateStore.mapName }, body := {} }
      hub := Hub.register {} ⟨"apps", "v1", "Deployment"⟩ true }

theorem calm_busyCluster : busyCluster.Calm where
  cluster c := by
    have hclear : Clear [] := by simp [Clear]
    cases c <;> exact ⟨hclear, hclear, hclear, hclear, hclear, rfl, rfl⟩
  filed c := by
    cases c with
    | dogus => exact Store.filed_empty.insert _
    | configMaps => exact (Store.filed_empty.insert _).insert _
    | pods => exact filed_readyCluster .pods
    | components => exact filed_readyCluster .components
    | namespaces => exact Store.filed_empty
    | services => exact Store.filed_empty
  undisturbed := ⟨rfl, rfl⟩

theorem healthy_busyCluster : patchedSetup.Healthy busyCluster := by
  have hrequests : patchedSetup.config.requests =
      .ok [⟨"official/cas", none⟩, ⟨"official/ldap", none⟩] := by decide +kernel
  have hplan : patchedSetup.plannedSteps = .ok
      [.installDogu { name := "official/ldap", version := "2.6.2-1" }, .awaitDogu "ldap",
        .installDogu cas] := by decide +kernel
  refine ⟨by decide +kernel, .ofList _, ?_, calm_busyCluster, by decide +kernel, ?_, ?_, ?_, ?_⟩
  · intro requests h
    rw [hrequests, Except.ok.injEq] at h
    subst h
    refine ⟨[cas, { name := "official/ldap", version := "2.6.2-1" }],
      .cons (by decide +kernel) (.cons (by decide +kernel) .nil), ?_⟩
    exact (Plan.length_installed_iff (by decide +kernel)).mp (by decide +kernel)
  · intro plan target h hmem
    rw [hplan, Except.ok.injEq] at h
    subst h
    have htarget : target = "ldap" := by simpa using hmem
    subst htarget
    decide +kernel
  · rintro target (hconfigured | ⟨plan, h, hmem⟩)
    · have htarget : target = "k8s-loki" := by
        simpa [Config.componentNames, patchedSetup, casSetup] using hconfigured
      subst htarget
      exact ⟨_, _, rfl, rfl, rfl⟩
    · rw [hplan, Except.ok.injEq] at h
      subst h
      simp at hmem
  · intro d hd
    have hpatch : d ∈ patchedSetup.config.patches := hd
    simp only [patchedSetup, List.mem_singleton] at hpatch
    subst hpatch
    exact ⟨true, by decide +kernel⟩
  · simp [busyCluster, Hub.register]

/-- On it the setup succeeds. -/
theorem completes_busyCluster :
    patchedSetup.Healthy busyCluster ∧
      patchedSetup.Completes busyCluster (patchedSetup.run.run busyCluster).1
        (patchedSetup.run.run busyCluster).2 :=
  ⟨healthy_busyCluster, completes_of_healthy healthy_busyCluster⟩

end EcosystemSetup.Setup

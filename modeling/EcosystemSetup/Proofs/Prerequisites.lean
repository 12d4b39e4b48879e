import EcosystemSetup.Cluster.Sandbox
import EcosystemSetup.Proofs.Barriers
import EcosystemSetup.Proofs.Readiness
import EcosystemSetup.Proofs.SetupRuns
import EcosystemSetup.Proofs.StepCalls

/-!
# What must be there before a dogu is created

When a run creates the resource of a dogu, the providers of its accounts have been seen ready and the
dogus that it depends on have been created, all on the record of the same run. That holds in any cluster,
whatever it answers, because the plan puts the waits and the installations before the creation and the
run stops at the first step that does not succeed.
-/

namespace EcosystemSetup.Setup

open Cluster Dogu

variable {σ : Type} [Backend σ]

/-! ## What a successful step leaves on record -/

/-- The answer to the creation of a dogu that counts as success: it was created, or it is there. -/
inductive Installed (ns : String) (d : Descriptor) : Exchange → Prop where
  | created {time : Nat} {o : Object .dogus} :
      Installed ns d ⟨time, .create .dogus (doguObject ns d), .ok o⟩
  | present {time : Nat} {e : AccessError} (h : e.isAlreadyExists = true) :
      Installed ns d ⟨time, .create .dogus (doguObject ns d), .error e⟩

/-- A wait of the setup that succeeds has met its goal. -/
theorem met_of_reach {goal : Wait.Goal} {v w : World σ} (h : (reach goal).run v = (.ok (), w)) :
    ∃ news, World.Since v w news ∧ ∃ x ∈ news, goal.Met x := by
  rw [run_reach, Prod.mk.injEq] at h
  obtain ⟨hanswer, rfl⟩ := h
  -- a wait that fails is a step that fails
  cases houtcome : (Wait.run goal v).1 with
  | ok x => exact Wait.met_of_run houtcome
  | error e =>
    rw [houtcome] at hanswer
    simp [Except.mapError] at hanswer

theorem perform_installDogu (ns : String) (settings : Wait.Settings) (d : Descriptor) :
    (planned ns settings (.installDogu d)).perform =
      createOnce (doguObject ns d) ("dogu resource " ++ d.name) := rfl

/-- An installation that succeeds is on record. -/
theorem installed_of_planned {ns : String} {settings : Wait.Settings} {d : Descriptor}
    {v w : World σ} (h : (planned ns settings (.installDogu d)).perform.run v = (.ok (), w)) :
    ∃ news, World.Since v w news ∧ ∃ x ∈ news, Installed ns d x := by
  rw [perform_installDogu, run_createOnce, Prod.mk.injEq] at h
  obtain ⟨hanswer, rfl⟩ := h
  refine ⟨_, v.since_perform _, _, List.mem_singleton_self _, ?_⟩
  cases hreply : (v.perform (.create .dogus (doguObject ns d))).1 with
  | ok o => exact .created
  | error e =>
    rw [hreply] at hanswer
    unfold createdOutcome at hanswer
    dsimp only at hanswer
    split at hanswer
    · rename_i hexists
      exact .present hexists
    · simp at hanswer

/-! ## The creation of a dogu -/

/-- The calls that do not create a dogu. -/
def CreatesNoDogu (k : Call) : Prop :=
  ∀ o, k ≠ .create .dogus o

theorem permitsSteps_createsNoDogu : (Rule.only CreatesNoDogu).PermitsSteps where
  create := by
    intro c o _ hc q heq
    injection heq with hcollection
    exact hc hcollection
  get _ _ := by intro q; simp
  list _ _ := by intro q; simp
  watch _ _ _ := by intro q; simp
  resolve _ := by intro q; simp
  patch _ _ _ _ := by intro q; simp
  readSelection := by intro q; simp
  freshSelection _ _ := by intro q; simp
  mergedSelection _ _ _ _ := by intro q; simp

theorem obeys_get : StateStore.get.Obeys (.only CreatesNoDogu) :=
  StateStore.obeys_get (by intro q; simp)

theorem obeys_claim : StateStore.claim.Obeys (.only CreatesNoDogu) :=
  StateStore.obeys_claim (by intro q; simp) (by intro text q; simp) (by intro m text q; simp)

theorem obeys_set {state : RunState} : (StateStore.set state).Obeys (.only CreatesNoDogu) :=
  StateStore.obeys_set (by intro q; simp) (by intro text q; simp) (by intro m text q; simp)

/-- Neither the look at the state nor the claim creates a dogu. -/
theorem record_of_claim (w : World σ) :
    ∃ news, World.Since w (StateStore.claim.run (StateStore.get.run w).2).2 news ∧
      ∀ x ∈ news, CreatesNoDogu x.call := by
  obtain ⟨news, hnews, hall⟩ := obeys_get.record w
  obtain ⟨more, hmore, hall'⟩ := obeys_claim.record (StateStore.get.run w).2
  refine ⟨news ++ more, hnews.trans hmore, ?_⟩
  intro x hx
  rcases List.mem_append.mp hx with hx | hx
  · exact hall x hx
  · exact hall' x hx

theorem Claims.record {s : Setup} {w u : World σ} {plan : List Plan.PlannedStep}
    (h : s.Claims w plan u) : ∃ news, World.Since w u news ∧ ∀ x ∈ news, CreatesNoDogu x.call := by
  have hrecord := record_of_claim w
  rwa [h.claimed] at hrecord

/-- A run that is refused creates no dogu. -/
theorem Refused.record {s : Setup} {w v : World σ} {e : SetupError} (h : s.Refused w e v) :
    ∃ news, World.Since w v news ∧ ∀ x ∈ news, CreatesNoDogu x.call := by
  have hguard := obeys_get.record w
  cases h with
  | unreadable => exact hguard
  | found => exact hguard
  | unplanned => exact hguard
  | unclaimed _ _ hclaim =>
    have hrecord := record_of_claim w
    rwa [hclaim] at hrecord

/-- A run that creates a dogu does so in its steps, after it has claimed the setup. -/
theorem steps_of_record {s : Setup} {w : World σ} {before after : List Exchange} {x : Exchange}
    (hx : ¬ CreatesNoDogu x.call) (h : World.Since w (s.run.run w).2 (before ++ x :: after)) :
    ∃ (plan : List Plan.PlannedStep) (u : World σ) (skipped within rest : List Exchange),
      s.plannedSteps = .ok plan ∧ before = skipped ++ within ∧
      World.Since u ((Executor.performFrom Program.isCancelled 0 (s.steps plan)).run u).2
        (within ++ x :: rest) := by
  rcases s.run_stages w with ⟨plan, u, hclaims, hrun⟩ | ⟨e, v, hrefused, hrun⟩
  · obtain ⟨skipped, hskipped, hall⟩ := hclaims.record
    obtain ⟨more, hmore⟩ := (complete { steps := s.steps plan }).run_since u
    rw [hrun] at h
    rcases Lists.split_of_append_eq ((hskipped.trans hmore).unique h) with
      ⟨rest, hfirst⟩ | ⟨within, hbefore, hsecond⟩
    · exact absurd (hall x (by simp [hfirst])) hx
    · -- recording the end creates no dogu either
      rw [hsecond] at hmore
      change World.Since u ((Program.bind _ _).run u).2 _ at hmore
      have hend : ∃ rest, World.Since u
          ((({ steps := s.steps plan } : Executor Program).run Program.isCancelled).run u).2
          (within ++ x :: rest) := by
        refine Program.Obeys.earlier ?_ hx hmore
        intro answer
        split
        · exact Program.obeys_pure _
        · exact Program.obeys_bind obeys_set fun _ => Program.obeys_pure _
      obtain ⟨rest, hrest⟩ := hend
      rw [run_executor] at hrest
      exact ⟨plan, u, skipped, within, rest, hclaims.planned, hbefore, hrest⟩
  · obtain ⟨news, hnews, hall⟩ := hrefused.record
    rw [hrun] at h
    have heq := hnews.unique h
    exact absurd (hall x (by simp [heq])) hx

/-- Where a run creates a dogu: in the installation of a descriptor of its plan, after all steps before
it were performed. -/
theorem install_of_record {s : Setup} {w : World σ} {before after : List Exchange} {time : Nat}
    {o : Object .dogus} {reply : (Call.create .dogus o).Reply}
    (h : World.Since w (s.run.run w).2 (before ++ ⟨time, .create .dogus o, reply⟩ :: after)) :
    ∃ (first rest : List Plan.PlannedStep) (d : Descriptor) (u v : World σ)
      (skipped done : List Exchange), s.plannedSteps = .ok (first ++ .installDogu d :: rest) ∧
      o = doguObject s.config.namespaceName d ∧ before = skipped ++ done ∧ World.Since u v done ∧
      Executor.Performed
        (s.stepsBefore ++ first.map (planned s.config.namespaceName s.settings)) u v := by
  have hcreate : ¬ CreatesNoDogu (.create .dogus o) := fun h => h o rfl
  obtain ⟨plan, u, skipped, within, rest, hplan, rfl, hsteps⟩ := steps_of_record hcreate h
  obtain ⟨first, step, others, v, earlier, own, later, hsplit, hfirst, hearlier, rfl, hown⟩ :=
    Executor.step_of_record hsteps
  rw [← World.since_looked] at hown
  -- a step that keeps from creating dogus is not the one
  have hstep : ¬ step.perform.Obeys (.only CreatesNoDogu) := by
    intro hobeys
    obtain ⟨news, hnews, hall⟩ := hobeys.record v.looked
    have heq := hnews.unique hown
    exact hcreate (hall ⟨time, .create .dogus o, reply⟩ (by simp [heq]))
  rw [steps_eq] at hsplit
  -- so it is neither before the planned steps nor after them
  rcases Lists.split_of_append_eq hsplit with ⟨more, hbefore⟩ | ⟨skippedSteps, hskip, hmiddle⟩
  · exact absurd (obeys_stepsBefore permitsSteps_createsNoDogu s step (by simp [hbefore])) hstep
  rcases Lists.split_of_append_eq hmiddle with ⟨more, hplanned⟩ | ⟨beyond, _, hlast⟩
  · rw [List.map_eq_append_iff] at hplanned
    obtain ⟨firstPlanned, restPlanned, rfl, hskipped, hrest⟩ := hplanned
    rw [List.map_eq_cons_iff] at hrest
    obtain ⟨p, restPlanned, rfl, hp, _⟩ := hrest
    cases p with
    | awaitDogu target =>
      exact absurd (hp ▸ obeys_planned permitsSteps_createsNoDogu.toPermitsObjects _ _ (by simp))
        hstep
    | awaitComponent target =>
      exact absurd (hp ▸ obeys_planned permitsSteps_createsNoDogu.toPermitsObjects _ _ (by simp))
        hstep
    | installDogu d =>
      -- the installation is one call, so nothing of it comes before
      subst hp
      rw [perform_installDogu, run_createOnce] at hown
      have hcall := (v.looked.since_perform _).unique hown
      rw [eq_comm, List.append_eq_singleton_iff] at hcall
      rcases hcall with ⟨rfl, hcall⟩ | ⟨_, hcall⟩
      · rw [List.cons.injEq, Exchange.mk.injEq] at hcall
        obtain ⟨⟨_, hobject, _⟩, _⟩ := hcall
        rw [Call.create.injEq] at hobject
        refine ⟨firstPlanned, restPlanned, d, u, v, skipped, earlier, hplan, ?_, ?_, hearlier, ?_⟩
        · exact eq_of_heq hobject.2
        · rw [List.append_nil]
        · rw [hskipped, ← hskip]
          exact hfirst
      · simp at hcall
  · exact absurd (obeys_stepsAfter permitsSteps_createsNoDogu s step (by simp [hlast])) hstep

/-! ## Prerequisites -/

/-- What must be on record before the resource of a dogu is created. -/
structure Prerequisites (s : Setup) (dogus : List Descriptor) (d : Descriptor)
    (before : List Exchange) : Prop where
  /-- Dogus that provide accounts have been seen ready, unless the account is optional and its provider
  is not installed. -/
  providers : ∀ a ∈ d.serviceAccounts, a.kind = .dogu →
    (a.target ∈ dogus.map Descriptor.simpleName ∨ d.isOptionalAccount a = false) →
    ∃ x ∈ before, (doguGoal s.settings a.target).Met x
  /-- So have components. -/
  components : ∀ a ∈ d.serviceAccounts, a.kind = .component →
    (a.target ∈ s.config.componentNames ∨ d.isOptionalAccount a = false) →
    ∃ x ∈ before, (componentGoal s.settings a.target).Met x
  /-- The dogus of the setup that it depends on have been created. -/
  dependencies : ∀ q ∈ dogus, q.simpleName ∈ d.doguDependencies →
    ∃ x ∈ before, Installed s.config.namespaceName q x

/-- The plan of the dogus of a setup. -/
theorem plannedSteps_eq_ok {s : Setup} {plan : List Plan.PlannedStep}
    (h : s.plannedSteps = .ok plan) :
    ∃ requests dogus sorted, s.config.requests = .ok requests ∧
      Plan.resolve s.registry requests = .ok dogus ∧
      Plan.sortByDependencies dogus = .ok sorted ∧
      plan = Plan.interleaveBarriers ⟨s.config.componentNames, s.config.componentNames⟩ sorted := by
  unfold plannedSteps at h
  cases hrequests : s.config.requests with
  | error e => simp [hrequests] at h
  | ok requests =>
    rw [hrequests] at h
    dsimp only at h
    cases hplan : Plan.generate s.registry ⟨s.config.componentNames, s.config.componentNames⟩
        requests with
    | error e => simp [hplan, Except.mapError] at h
    | ok steps =>
      rw [hplan] at h
      simp only [Except.mapError, Except.ok.injEq] at h
      subst h
      obtain ⟨dogus, sorted, hdogus, hsorted, rfl⟩ := Plan.generate_eq_ok.mp hplan
      exact ⟨requests, dogus, sorted, rfl, hdogus, hsorted, rfl⟩

/-- Every component of the configuration is waited for before the dogus. -/
theorem awaitComponent_mem_stepsBefore {s : Setup} {target : String}
    (h : target ∈ s.config.componentNames) :
    planned s.config.namespaceName s.settings (.awaitComponent target) ∈ s.stepsBefore := by
  obtain ⟨e, he, rfl⟩ := List.mem_map.mp h
  unfold stepsBefore
  refine List.mem_append_left _ (List.mem_append_right _ ?_)
  exact List.mem_flatMap.mpr ⟨e, he, by simp [componentSteps]⟩

/-- The descriptors of a setup have different resources. -/
theorem eq_of_doguObject_eq {ns : String} {dogus : List Descriptor} {d e : Descriptor}
    (hnames : (dogus.map Descriptor.simpleName).Nodup) (hd : d ∈ dogus) (he : e ∈ dogus)
    (h : doguObject ns d = doguObject ns e) : d = e := by
  have hname : d.simpleName = e.simpleName := by
    have hmeta := congrArg (fun o => o.metadata.name) h
    simpa [doguObject] using hmeta
  exact List.inj_on_of_nodup_map hnames hd he hname

/-- Whenever a run creates the resource of a dogu, it is the resource of a dogu of the setup, and its
prerequisites are on the record of the run before it. -/
theorem prerequisites_before_create {s : Setup} {w : World σ} {before after : List Exchange}
    {time : Nat} {o : Object .dogus} {reply : (Call.create .dogus o).Reply}
    (hregistry : s.registry.Standard)
    (h : World.Since w (s.run.run w).2 (before ++ ⟨time, .create .dogus o, reply⟩ :: after)) :
    ∃ requests dogus, s.config.requests = .ok requests ∧
      Plan.resolve s.registry requests = .ok dogus ∧
      (∃ d ∈ dogus, o = doguObject s.config.namespaceName d) ∧
      ∀ d ∈ dogus, o = doguObject s.config.namespaceName d → s.Prerequisites dogus d before := by
  obtain ⟨first, rest, d, u, v, skipped, done, hplan, rfl, rfl, hdone, hperformed⟩ :=
    install_of_record h
  obtain ⟨requests, dogus, sorted, hrequests, hdogus, hsorted, hsteps⟩ := plannedSteps_eq_ok hplan
  have hnames := Plan.nodup_simpleName_of_resolve hregistry.faithful hdogus
  have hperm := Plan.perm_of_sortByDependencies hsorted
  obtain ⟨before, after, hsplit, hinstalled, hproviders, hcomponents⟩ :=
    Plan.before_install hsteps.symm
  have hd : d ∈ dogus := hperm.subset (by simp [hsplit])
  -- what a planned step before the installation leaves on record
  have hrecorded : ∀ {b : Plan.PlannedStep} {P : Exchange → Prop},
      planned s.config.namespaceName s.settings b ∈
        s.stepsBefore ++ first.map (planned s.config.namespaceName s.settings) →
      (∀ v v' : World σ,
        (planned s.config.namespaceName s.settings b).perform.run v = (.ok (), v') →
          ∃ own, World.Since v v' own ∧ ∃ x ∈ own, P x) →
      ∃ x ∈ skipped ++ done, P x := by
    intro b P hb hP
    obtain ⟨x, hx, hpx⟩ := hperformed.exists_exchange hb hdone hP
    exact ⟨x, List.mem_append_right _ hx, hpx⟩
  have hfirst : ∀ b ∈ first, planned s.config.namespaceName s.settings b ∈
      s.stepsBefore ++ first.map (planned s.config.namespaceName s.settings) := fun b hb =>
    List.mem_append_right _ (List.mem_map_of_mem hb)
  refine ⟨requests, dogus, hrequests, hdogus, ⟨d, hd, rfl⟩, ?_⟩
  intro e he hobject
  have heq : d = e := eq_of_doguObject_eq hnames hd he hobject
  subst heq
  refine ⟨?_, ?_, ?_⟩
  -- the plan has the wait for a provider before the installation
  · intro a ha hkind hneeded
    have hawait := hproviders a ha hkind (hneeded.imp_left (hperm.map _).mem_iff.mpr)
    exact hrecorded (hfirst _ hawait) fun v v' hv => met_of_reach hv
  · intro a ha hkind hneeded
    -- a component of the configuration is awaited before the plan
    rcases hcomponents a ha hkind hneeded with hawaited | hawait
    · have hmem := List.mem_append_left
        (first.map (planned s.config.namespaceName s.settings))
        (awaitComponent_mem_stepsBefore hawaited)
      exact hrecorded hmem fun v v' hv => met_of_reach hv
    · exact hrecorded (hfirst _ hawait) fun v v' hv => met_of_reach hv
  · intro q hq hdep
    have hq' : q ∈ before := Plan.dependency_before hnames hsorted hsplit hq hdep
    exact hrecorded (hfirst _ (hinstalled q hq')) fun v v' hv => installed_of_planned hv

/-! ## A run that creates a dogu with prerequisites -/

/-- A dogu that depends on another one and has accounts of that dogu and of a component. -/
def cas : Descriptor :=
  { name := "official/cas", version := "7.0.5-1", dependencies := [{ name := "ldap" }],
    serviceAccounts := [⟨"ldap", .dogu, false⟩, ⟨"k8s-loki", .component, true⟩] }

/-- A setup that installs it. -/
def casSetup : Setup where
  config :=
    { namespaceName := "ecosystem"
      dogus := { defaultDogu := "cas", install := ["official/cas", "official/ldap"] }
      components := [{ name := "k8s-loki", version := "1.0.0" }] }
  registry := .ofList [cas, { name := "official/ldap", version := "2.6.2-1" }]
  settings := .standard

/-- A cluster in which the other dogu and the component are ready as soon as they are looked at. -/
def readyCluster : World Sandbox where
  backend :=
    { pods.store := Store.insert {}
        { metadata := { name := some "ldap-0", labels := some [(doguLabel, "ldap")] }
          body := { status := some { conditions := some [⟨"Ready", "True"⟩] } } }
      components.store := Store.insert {}
        { metadata := { name := some "k8s-loki" }
          body :=
            { name := "k8s-loki", helmNamespace := "k8s", version := "1.0.0",
              status := some ⟨"installed", "available"⟩ } } }

/-- Whether an exchange creates a given dogu. -/
def creates (o : Object .dogus) (x : Exchange) : Bool :=
  match x.call with
  | .create .dogus q => q == o
  | _ => false

theorem eq_of_creates {o : Object .dogus} {x : Exchange} (h : creates o x = true) :
    ∃ time reply, x = ⟨time, .create .dogus o, reply⟩ := by
  obtain ⟨time, call, reply⟩ := x
  unfold creates at h
  split at h
  · rename_i q hcall
    dsimp only at hcall
    subst hcall
    have hq : q = o := by simpa using h
    subst hq
    exact ⟨time, reply, rfl⟩
  · simp at h

/-- The run creates it, after ten other exchanges. -/
theorem prerequisites_before_create_cas :
    ∃ before time after, ∃ reply : (Call.create .dogus (doguObject "ecosystem" cas)).Reply,
      World.Since readyCluster (casSetup.run.run readyCluster).2
        (before ++ ⟨time, .create .dogus (doguObject "ecosystem" cas), reply⟩ :: after) ∧
      before.length = 10 ∧
      ∃ requests dogus, casSetup.config.requests = .ok requests ∧
        Plan.resolve casSetup.registry requests = .ok dogus ∧
        (∃ d ∈ dogus, doguObject "ecosystem" cas = doguObject "ecosystem" d) ∧
        ∀ d ∈ dogus, doguObject "ecosystem" cas = doguObject "ecosystem" d →
          casSetup.Prerequisites dogus d before := by
  -- the exchange after the first ten is the one
  have hten : ((casSetup.run.run readyCluster).2.record[10]?.map
      (creates (doguObject "ecosystem" cas))) = some true := by decide +kernel
  rw [Option.map_eq_some_iff] at hten
  obtain ⟨x, hx, hcreates⟩ := hten
  obtain ⟨time, reply, rfl⟩ := eq_of_creates hcreates
  obtain ⟨hlt, hx⟩ := List.getElem?_eq_some_iff.mp hx
  have hsince : World.Since readyCluster (casSetup.run.run readyCluster).2
      ((casSetup.run.run readyCluster).2.record.take 10 ++
        ⟨time, .create .dogus (doguObject "ecosystem" cas), reply⟩ ::
          (casSetup.run.run readyCluster).2.record.drop 11) := by
    show _ = [] ++ _
    rw [← hx, List.nil_append, List.getElem_cons_drop, List.take_append_drop]
  refine ⟨_, time, _, reply, hsince, ?_, prerequisites_before_create (.ofList _) hsince⟩
  rw [List.length_take]
  omega

end EcosystemSetup.Setup

import EcosystemSetup.Proofs.AppliedDirectives
import EcosystemSetup.Proofs.HealthyRuns
import EcosystemSetup.Proofs.StepKinds

/-!
# The patches of a run

A cluster in memory records the patches that are sent to it. Which ones a run sends is decided by the
phases that it has reached and by nothing else: for each of them, in order, one for every directive
that passes its checks and whose kind is served. A run that succeeds has reached all phases, and then
every directive of its configuration has its record. One that fails in the patches of a phase has reached
this phase and none after it. But one that is cancelled right before them names the same step and has not
reached the phase.
-/

namespace EcosystemSetup

open Cluster

/-! ## Hubs -/

namespace Cluster

/-- The hub after some more patches. -/
def Hub.recorded (h : Hub) (records : List PatchRecord) : Hub :=
  { h with patches := h.patches ++ records }

@[simp] theorem Hub.recorded_nil (h : Hub) : h.recorded [] = h := by
  simp [recorded]

@[simp] theorem Hub.recorded_recorded (h : Hub) (first second : List PatchRecord) :
    (h.recorded first).recorded second = h.recorded (first ++ second) := by
  simp [recorded]

/-- A patch is recorded, whether or not it finds its resource. -/
theorem Hub.patch_eq_recorded (h : Hub) (k : ServedKind) (ns : Option String) (name : String)
    (operations : List Patch.Operation) :
    (h.patch k ns name operations).2 = h.recorded [⟨k.name.kind, ns, name, operations⟩] := by
  unfold patch recorded
  dsimp only
  split <;> rfl

theorem KindName.kind_ofApiVersion (apiVersion kind : String) :
    (KindName.ofApiVersion apiVersion kind).kind = kind := by
  unfold ofApiVersion
  split <;> rfl

end Cluster

/-! ## Directives -/

namespace Patch

/-- The record of a directive: none if it has a defect, cannot be encoded, or its kind is not served. -/
def recordOf? (hub : Hub) (ns : String) (d : Directive) : Option PatchRecord :=
  if d.defect? = none then
    d.operations?.bind fun operations =>
      (Assoc.get? d.resource.kindName.key hub.kinds).map fun namespaced =>
        ⟨d.resource.kind, if namespaced then some ns else none, d.resource.name, operations⟩
  else none

theorem recordOf?_recorded (hub : Hub) (records : List PatchRecord) (ns : String) :
    recordOf? (hub.recorded records) ns = recordOf? hub ns := rfl

/-- A directive that is applied leaves its record, if it has one; without one it does not succeed. -/
theorem hub_applyOne (ns : String) (d : Directive) (w : World Sandbox) :
    ((applyOne ns d).run w).2.backend.hub =
        w.backend.hub.recorded (recordOf? w.backend.hub ns d).toList ∧
      (((applyOne ns d).run w).1 = .ok () → ∃ r, recordOf? w.backend.hub ns d = some r) := by
  cases hdefect : d.defect? with
  | some defect =>
    have hnone : recordOf? w.backend.hub ns d = none := by simp [recordOf?, hdefect]
    have hrun : applyOne ns d = .done (.error ⟨invalidMessage d.resource defect, []⟩) := by
      simp [applyOne, hdefect]
    rw [hrun, hnone]
    simp [Program.run]
  | none =>
  obtain ⟨operations, hoperations⟩ := Directive.exists_operations hdefect
  rw [applyOne_of_encoded hdefect hoperations]
  have hlookUp : (w.perform (.resolve d.resource.kindName)).1 =
      w.backend.hub.resolve d.resource.kindName := rfl
  rw [Program.run, hlookUp]
  cases hserved : Assoc.get? d.resource.kindName.key w.backend.hub.kinds with
  | none =>
    have hnone : recordOf? w.backend.hub ns d = none := by
      simp [recordOf?, hdefect, hoperations, hserved]
    rw [hnone]
    unfold Hub.resolve
    rw [hserved]
    simp [afterLookUp, Program.run, World.perform, Backend.perform, Sandbox.perform]
  | some namespaced =>
    have hsome : recordOf? w.backend.hub ns d =
        some ⟨d.resource.kind, if namespaced then some ns else none, d.resource.name,
          operations⟩ := by
      simp [recordOf?, hdefect, hoperations, hserved]
    refine ⟨?_, fun _ => ⟨_, hsome⟩⟩
    have hkind : d.resource.kindName.kind = d.resource.kind :=
      KindName.kind_ofApiVersion _ _
    rw [hsome]
    unfold Hub.resolve
    rw [hserved]
    show (w.backend.hub.patch _ _ _ _).2 = _
    rw [Hub.patch_eq_recorded]
    simp [hkind, scope]

/-- Directives that are applied leave their records in order, and fail if one has none. -/
theorem hub_applyEach (ns : String) (ds : List Directive) (w : World Sandbox) :
    ((applyEach ns ds).run w).2.backend.hub =
        w.backend.hub.recorded (ds.filterMap (recordOf? w.backend.hub ns)) ∧
      (((applyEach ns ds).run w).1 = [] → ∀ d ∈ ds, ∃ r, recordOf? w.backend.hub ns d = some r) := by
  induction ds generalizing w with
  | nil => exact ⟨(Hub.recorded_nil _).symm, by simp⟩
  | cons d rest ih =>
    obtain ⟨hown, hsome⟩ := hub_applyOne ns d w
    obtain ⟨hrest, hall⟩ := ih ((applyOne ns d).run w).2
    rw [hown, recordOf?_recorded] at hrest hall
    rw [run_applyEach_cons]
    constructor
    · dsimp only
      rw [hrest, Hub.recorded_recorded, List.filterMap_cons]
      cases recordOf? w.backend.hub ns d <;> rfl
    · intro hnone
      obtain ⟨hfirst, hothers⟩ := List.append_eq_nil_iff.mp hnone
      intro e he
      rcases List.mem_cons.mp he with rfl | he
      · cases hresult : ((applyOne ns e).run w).1 with
        | ok x => exact hsome hresult
        | error f => simp [hresult, failure?] at hfirst
      · exact hall hothers e he

/-- Every directive belongs to one phase. -/
theorem perm_flatMap_ofPhase (ds : List Directive) :
    (Setup.phases.flatMap fun phase => ofPhase phase ds).Perm ds := by
  induction ds with
  | nil => simp [Setup.phases, ofPhase]
  | cons d rest ih =>
    -- it stands in the part of its phase, and the other parts are as they were
    unfold Setup.phases ofPhase at *
    simp only [List.flatMap_cons, List.flatMap_nil, List.append_nil, List.filter_cons] at *
    cases d.phase with
    | component => exact ih.cons d
    | dogu => exact List.perm_middle.trans (ih.cons d)
    | loadbalancer =>
      simp only [← List.append_assoc] at *
      exact List.perm_middle.trans (ih.cons d)

end Patch

/-! ## Steps -/

namespace Setup

open Executor

/-- The records of a phase. -/
def recordsOf (hub : Hub) (c : Config) (phase : Phase) : List PatchRecord :=
  (Patch.ofPhase phase c.patches).filterMap (Patch.recordOf? hub c.namespaceName)

/-- What is recorded does not change what will be. -/
theorem recordsOf_recorded (hub : Hub) (records : List PatchRecord) (c : Config) :
    recordsOf (hub.recorded records) c = recordsOf hub c := rfl

/-- Every directive of a phase has a record. -/
def AllRecorded (hub : Hub) (c : Config) (phase : Phase) : Prop :=
  ∀ d ∈ Patch.ofPhase phase c.patches, ∃ r, Patch.recordOf? hub c.namespaceName d = some r

/-- The calls that send no patch. -/
def PatchesNothing (k : Call) : Prop :=
  ∀ kind ns name operations, k ≠ .patch kind ns name operations

theorem hub_perform_of_patchesNothing {k : Call} (hk : PatchesNothing k) (s : Sandbox) :
    (Sandbox.perform k s).2.hub = s.hub := by
  cases k with
  | patch kind ns name operations => exact absurd rfl (hk kind ns name operations)
  | resolve kind => rfl
  | _ => rw [Sandbox.perform, Sandbox.hub_faulty]

/-- Whatever sends no patch leaves the hub. -/
theorem keeps_hub (hub : Hub) :
    (Rule.only PatchesNothing).Keeps fun w : World Sandbox => w.backend.hub = hub where
  expects _ _ := trivial
  perform := by
    intro w k hw hk
    exact (hub_perform_of_patchesNothing hk w.backend).trans hw
  look := by
    intro w hw
    rwa [World.looked_backend]
  advance _ hw := hw

theorem hub_of_obeys {α : Type} {t : Program α} (ht : t.Obeys (.only PatchesNothing))
    (w : World Sandbox) : (t.run w).2.backend.hub = w.backend.hub :=
  ht.keeps (keeps_hub w.backend.hub) rfl

theorem permitsSelection_patchesNothing : (Rule.only PatchesNothing).PermitsSelection where
  readSelection := by intro kind ns name operations; simp
  freshSelection _ _ := by intro kind ns name operations; simp
  mergedSelection _ _ _ _ := by intro kind ns name operations; simp

/-- A wait reads and watches. -/
theorem obeys_reach_patchesNothing (goal : Wait.Goal) :
    (reach goal).Obeys (.only PatchesNothing) := by
  refine Program.obeys_bind (Program.obeys_reach ?_) fun _ => Program.obeys_pure _
  intro stage kind ns name operations
  unfold Wait.Goal.move
  cases stage with
  | reading attempt => dsimp only; split <;> simp
  | opening version => simp

theorem hub_patchPhase (c : Config) (phase : Phase) (w : World Sandbox) :
    ((patchPhase c phase).perform.run w).2.backend.hub =
        w.backend.hub.recorded (recordsOf w.backend.hub c phase) ∧
      (((patchPhase c phase).perform.run w).1 = .ok () → AllRecorded w.backend.hub c phase) := by
  obtain ⟨hhub, hall⟩ :=
    Patch.hub_applyEach c.namespaceName (Patch.ofPhase phase c.patches) w
  rw [run_patchPhase, Patch.run_apply]
  refine ⟨hhub, fun hok => hall ?_⟩
  cases hfailures : ((Patch.applyEach c.namespaceName (Patch.ofPhase phase c.patches)).run w).1 with
  | nil => rfl
  | cons f rest => simp [hfailures, Patch.phaseOutcome, Except.mapError] at hok

/-- A step leaves the records of the phase whose patches it applies, and no others. -/
theorem Kind.hub_run {c : Config} {step : SetupStep} (h : Kind c step) (w : World Sandbox) :
    (step.perform.run w).2.backend.hub =
        w.backend.hub.recorded ((phaseOf? step).toList.flatMap (recordsOf w.backend.hub c)) ∧
      ((step.perform.run w).1 = .ok () →
        ∀ phase ∈ phaseOf? step, AllRecorded w.backend.hub c phase) := by
  have hnothing : ∀ {step : SetupStep}, phaseOf? step = none →
      step.perform.Obeys (.only PatchesNothing) →
      (step.perform.run w).2.backend.hub =
          w.backend.hub.recorded ((phaseOf? step).toList.flatMap (recordsOf w.backend.hub c)) ∧
        ((step.perform.run w).1 = .ok () →
          ∀ phase ∈ phaseOf? step, AllRecorded w.backend.hub c phase) := by
    intro step hphase hobeys
    rw [hphase]
    exact ⟨by simpa using hub_of_obeys hobeys w, by simp⟩
  cases h with
  | validates => exact hnothing (phaseOf?_validateConfiguration c) (Program.obeys_done _)
  | creates o what unpatching =>
    exact hnothing unpatching (obeys_createOnce (by intro kind ns name operations; simp))
  | waits goal unpatching => exact hnothing unpatching (obeys_reach_patchesNothing goal)
  | stores =>
    exact hnothing (phaseOf?_writeConfiguration c)
      (obeys_storeSelection permitsSelection_patchesNothing c)
  | patches phase =>
    rw [phaseOf?_patchPhase]
    simpa using hub_patchPhase c phase w

/-- Performed steps leave the records of the phases that they reach, and all of them. -/
theorem hub_of_performed {s : Setup} {plan : List Plan.PlannedStep} {steps : List SetupStep}
    {u v : World Sandbox} (hsteps : steps ⊆ s.steps plan) (h : Performed steps u v) :
    v.backend.hub = u.backend.hub.recorded
        ((steps.filterMap phaseOf?).flatMap (recordsOf u.backend.hub s.config)) ∧
      ∀ phase ∈ steps.filterMap phaseOf?, AllRecorded u.backend.hub s.config phase := by
  induction h with
  | nil w => exact ⟨(Hub.recorded_nil _).symm, by simp⟩
  | @cons step rest u x v uncancelled succeeded others ih =>
    obtain ⟨hown, hall⟩ := (kind_of_mem_steps (hsteps List.mem_cons_self)).hub_run u.looked
    rw [succeeded, World.looked_backend] at hown hall
    obtain ⟨hrest, hothers⟩ := ih fun t ht => hsteps (List.mem_cons_of_mem _ ht)
    dsimp only at hown
    rw [hown, recordsOf_recorded] at hrest
    rw [hown] at hothers
    have hcons : (step :: rest).filterMap phaseOf? =
        (phaseOf? step).toList ++ rest.filterMap phaseOf? := by
      rw [List.filterMap_cons]
      cases phaseOf? step <;> rfl
    rw [hcons, List.flatMap_append]
    refine ⟨?_, ?_⟩
    · rw [hrest, Hub.recorded_recorded]
    · intro phase hphase
      rcases List.mem_append.mp hphase with hphase | hphase
      · exact hall rfl phase (Option.mem_toList.mp hphase)
      · exact hothers phase hphase

/-- Patches that fail do not do so because the run is cancelled before them. -/
theorem cause_of_patchPhase {c : Config} {phase : Phase} {w v : World Sandbox} {cause : Failure}
    (h : (patchPhase c phase).perform.run w = (.error cause, v)) : cause ≠ cancelledBeforeStep := by
  rw [run_patchPhase, Patch.run_apply, Prod.mk.injEq] at h
  obtain ⟨hcause, -⟩ := h
  rintro rfl
  cases hfailures : ((Patch.applyEach c.namespaceName (Patch.ofPhase phase c.patches)).run w).1 with
  | nil => simp [hfailures, Patch.phaseOutcome, Except.mapError] at hcause
  | cons f rest =>
    -- the failures of the directives are among the causes
    rw [hfailures] at hcause
    have hsame : Patch.PhaseError.toFailure ⟨phase, f :: rest⟩ = cancelledBeforeStep :=
      Except.error.inj hcause
    exact List.cons_ne_nil _ _ (congrArg Failure.causes hsame)

theorem Kind.eq_patchPhase {c : Config} {step : SetupStep} {phase : Phase} (h : Kind c step)
    (hphase : phaseOf? step = some phase) : step = patchPhase c phase := by
  cases h with
  | validates => simp [phaseOf?_validateConfiguration] at hphase
  | creates o what unpatching => simp [unpatching] at hphase
  | waits goal unpatching => simp [unpatching] at hphase
  | stores => simp [phaseOf?_writeConfiguration] at hphase
  | patches other =>
    rw [phaseOf?_patchPhase, Option.some.injEq] at hphase
    rw [hphase]

/-- The phase of a step that halts a run, if the step has begun and applies patches. -/
def haltedIn (step : SetupStep) (cause : Failure) : List Phase :=
  if cause = cancelledBeforeStep then [] else (phaseOf? step).toList

/-- There is none if the step applies no patches, or if the run is cancelled before it. -/
theorem haltedIn_eq_nil {step : SetupStep} {cause : Failure} (c : Config)
    (h : (∀ phase, step.description ≠ (patchPhase c phase).description) ∨
      cause = cancelledBeforeStep) : haltedIn step cause = [] := by
  unfold haltedIn
  rcases h with hdescription | hcause
  · have hphase : phaseOf? step = none := by
      rw [Option.eq_none_iff_forall_ne_some]
      intro phase hphase
      exact hdescription phase ((phaseOf?_eq_some_iff c).mp hphase)
    simp [hphase]
  · rw [if_pos hcause]

/-- A step that halts a run leaves the records of its phase, if it has begun. -/
theorem Kind.hub_of_halted {c : Config} {step : SetupStep} (h : Kind c step) {x v : World Sandbox}
    {cause : Failure} (hhalted : Halted step x cause v) :
    v.backend.hub = x.backend.hub.recorded
      ((haltedIn step cause).flatMap (recordsOf x.backend.hub c)) := by
  cases hhalted with
  | cancelled => simp [haltedIn]
  | failed _ failure =>
    obtain ⟨hown, -⟩ := h.hub_run x.looked
    rw [failure, World.looked_backend] at hown
    unfold haltedIn
    split
    · -- then it applies no patches
      rename_i hcause
      have hphase : phaseOf? step = none := by
        rw [Option.eq_none_iff_forall_ne_some]
        intro phase hphase
        rw [h.eq_patchPhase hphase] at failure
        exact cause_of_patchPhase failure hcause
      rw [hphase] at hown
      exact hown
    · exact hown

/-! ## Runs -/

/-- A phase with those before it. -/
def upTo : Phase → List Phase
  | .component => [.component]
  | .dogu => [.component, .dogu]
  | .loadbalancer => [.component, .dogu, .loadbalancer]

theorem eq_upTo_of_split {before after : List Phase} {phase : Phase}
    (h : before ++ phase :: after = phases) : before ++ [phase] = upTo phase := by
  unfold phases at h
  match before with
  | [] => cases h; rfl
  | [_] => cases h; rfl
  | [_, _] => cases h; rfl
  | _ :: _ :: _ :: rest => simp at h

theorem hub_get (w : World Sandbox) : (StateStore.get.run w).2.backend.hub = w.backend.hub :=
  hub_of_obeys (StateStore.obeys_get (by intro kind ns name operations; simp)) w

/-- A look at the state and a claim leave the hub. -/
theorem hub_claim (w : World Sandbox) :
    (StateStore.claim.run (StateStore.get.run w).2).2.backend.hub = w.backend.hub := by
  have hclaim : StateStore.claim.Obeys (.only PatchesNothing) :=
    StateStore.obeys_claim (by intro kind ns name operations; simp)
      (by intro text kind ns name operations; simp) (by intro m text kind ns name operations; simp)
  exact (hub_of_obeys hclaim _).trans (hub_get w)

/-- The end is recorded without a patch. -/
theorem hub_set (state : RunState) (w : World Sandbox) :
    ((StateStore.set state).run w).2.backend.hub = w.backend.hub :=
  hub_of_obeys (StateStore.obeys_set (by intro kind ns name operations; simp)
    (by intro text kind ns name operations; simp) (by intro m text kind ns name operations; simp)) w

theorem Claims.hub_eq {s : Setup} {w u : World Sandbox} {plan : List Plan.PlannedStep}
    (h : s.Claims w plan u) : u.backend.hub = w.backend.hub := by
  have hclaim := hub_claim w
  rwa [h.claimed] at hclaim

theorem Refused.hub_eq {s : Setup} {w v : World Sandbox} {e : SetupError} (h : s.Refused w e v) :
    v.backend.hub = w.backend.hub := by
  cases h with
  | unreadable => exact hub_get w
  | found => exact hub_get w
  | unplanned => exact hub_get w
  | unclaimed _ _ hunclaimed =>
    have hclaim := hub_claim w
    rwa [hunclaimed] at hclaim

/-- The patches that a run has sent, where it has reached some phases. -/
structure Sent (s : Setup) (w : World Sandbox) (answer : Except SetupError Unit)
    (v : World Sandbox) (reached : List Phase) : Prop where
  /-- For each of the phases, in order, those of its directives that pass their checks and whose kinds
  are served have their records, and nothing else has. -/
  records : v.backend.hub.patches =
    w.backend.hub.patches ++ reached.flatMap (recordsOf w.backend.hub s.config)
  /-- A run that succeeds has reached all phases, with or without a load balancer. -/
  completed : answer = .ok () → reached = phases
  /-- Then every directive has its record. -/
  complete : answer = .ok () →
    ∃ ds : List Patch.Directive, ds.Perm s.config.patches ∧
      ds = (phases.flatMap fun phase => Patch.ofPhase phase s.config.patches) ∧
      List.Forall₂ (fun d r => Patch.recordOf? w.backend.hub s.config.namespaceName d = some r) ds
        (reached.flatMap (recordsOf w.backend.hub s.config))
  /-- A run that fails in the patches of a phase has reached this phase and those before it. -/
  failedPatches : ∀ f phase, answer = .error (.step (.step f)) →
    f.description = (patchPhase s.config phase).description → f.cause ≠ cancelledBeforeStep →
    reached = upTo phase
  /-- Where nobody cancels the run, it has no other way to end there. -/
  uncancelled : w.Undisturbed → ∀ f phase, answer = .error (.step (.step f)) →
    f.description = (patchPhase s.config phase).description → f.cause ≠ cancelledBeforeStep
  /-- One that fails in another step has reached the phases whose patches are applied before it; and so has
  one that is cancelled before the step that it names, for this step has not begun. -/
  failedElsewhere : ∀ f, answer = .error (.step (.step f)) →
    (∀ phase, f.description ≠ (patchPhase s.config phase).description) ∨
      f.cause = cancelledBeforeStep →
    ∃ plan, s.plannedSteps = .ok plan ∧
      reached = ((s.steps plan).take f.index).filterMap phaseOf?
  /-- A run that cannot record its end has performed all steps. -/
  unrecorded : ∀ cause plan u, answer = .error (.state cause) → s.Claims w plan u → reached = phases
  refused : ∀ e, s.Refused w e v → reached = []

/-- Directives that all have records have one each, in their order. -/
theorem forall₂_filterMap {f : Patch.Directive → Option PatchRecord} {ds : List Patch.Directive}
    (h : ∀ d ∈ ds, ∃ r, f d = some r) : List.Forall₂ (fun d r => f d = some r) ds (ds.filterMap f) := by
  induction ds with
  | nil => exact .nil
  | cons d rest ih =>
    obtain ⟨r, hr⟩ := h d List.mem_cons_self
    rw [List.filterMap_cons_some hr]
    exact .cons hr (ih fun e he => h e (List.mem_cons_of_mem _ he))

/-- A run that has performed all steps has reached all phases. -/
theorem sent_of_performed {s : Setup} {w u x v : World Sandbox} {plan : List Plan.PlannedStep}
    {answer : Except StateStore.StateError Unit} (hclaims : s.Claims w plan u)
    (hperformed : Performed (s.steps plan) u x)
    (hset : (StateStore.set .installed).run x = (answer, v)) :
    s.Sent w (answer.mapError .state) v phases := by
  obtain ⟨hhub, hall⟩ := hub_of_performed (List.Subset.refl _) hperformed
  rw [filterMap_phaseOf?_steps, hclaims.hub_eq] at hhub hall
  have hlast := hub_set .installed x
  rw [hset] at hlast
  have hstep : ∀ e, answer.mapError SetupError.state ≠ .error (.step e) := by
    intro e
    cases answer <;> simp [Except.mapError]
  refine ⟨?_, fun _ => rfl, ?_, ?_, ?_, ?_, fun _ _ _ _ _ => rfl, ?_⟩
  · rw [hlast, hhub]
    rfl
  · intro _
    refine ⟨_, Patch.perm_flatMap_ofPhase _, rfl, ?_⟩
    have hrecords : phases.flatMap (recordsOf w.backend.hub s.config) =
        (phases.flatMap fun phase => Patch.ofPhase phase s.config.patches).filterMap
          (Patch.recordOf? w.backend.hub s.config.namespaceName) := by
      simp [phases, recordsOf]
    rw [hrecords]
    apply forall₂_filterMap
    intro d hd
    obtain ⟨phase, hphase, hd⟩ := List.mem_flatMap.mp hd
    exact hall phase hphase d hd
  · intro f phase hanswer
    exact absurd hanswer (hstep _)
  · intro _ f phase hanswer
    exact absurd hanswer (hstep _)
  · intro f hanswer
    exact absurd hanswer (hstep _)
  · intro e hrefused
    exact absurd hclaims hrefused.not_claims

theorem Claims.undisturbed {s : Setup} {w u : World Sandbox} {plan : List Plan.PlannedStep}
    (h : s.Claims w plan u) (hw : w.Undisturbed) : u.Undisturbed := by
  have hclaim := StateStore.claim.undisturbed_run (StateStore.get.undisturbed_run hw)
  rwa [h.claimed] at hclaim

/-- A run that stops at a step has reached the phases before it, and that of the step if it has begun. -/
theorem sent_of_halted {s : Setup} {w u x v : World Sandbox} {plan : List Plan.PlannedStep}
    {before after : List SetupStep} {step : SetupStep} {cause : Failure}
    (hclaims : s.Claims w plan u) (hsteps : s.steps plan = before ++ step :: after)
    (hbefore : Performed before u x) (hhalted : Halted step x cause v) :
    s.Sent w (.error (.step (.step ⟨before.length, step.description, cause⟩))) v
      (before.filterMap phaseOf? ++ haltedIn step cause) := by
  have hsub : before ⊆ s.steps plan := by
    rw [hsteps]
    exact List.subset_append_left _ _
  have hmem : step ∈ s.steps plan := by simp [hsteps]
  have hkind := kind_of_mem_steps hmem
  obtain ⟨hhub, -⟩ := hub_of_performed hsub hbefore
  have hown := hkind.hub_of_halted hhalted
  rw [hclaims.hub_eq] at hhub
  refine ⟨?_, by simp, by simp, ?_, ?_, ?_, by simp, ?_⟩
  · rw [hown, hhub, recordsOf_recorded, List.flatMap_append, Hub.recorded_recorded]
    rfl
  · intro f phase hanswer hdescription hcause
    obtain rfl := ExecutorError.step.inj (SetupError.step.inj (Except.error.inj hanswer))
    have hphase := (phaseOf?_eq_some_iff s.config).mpr hdescription
    have hall := s.filterMap_phaseOf?_steps plan
    rw [hsteps, List.filterMap_append, List.filterMap_cons_some hphase] at hall
    rw [haltedIn, if_neg hcause, hphase]
    exact eq_upTo_of_split hall
  · intro hw f phase hanswer hdescription
    obtain rfl := ExecutorError.step.inj (SetupError.step.inj (Except.error.inj hanswer))
    have hfailure := hhalted.failure (hbefore.undisturbed (hclaims.undisturbed hw))
    rw [hkind.eq_patchPhase ((phaseOf?_eq_some_iff s.config).mpr hdescription)] at hfailure
    exact cause_of_patchPhase hfailure
  · intro f hanswer helsewhere
    obtain rfl := ExecutorError.step.inj (SetupError.step.inj (Except.error.inj hanswer))
    refine ⟨plan, hclaims.planned, ?_⟩
    rw [haltedIn_eq_nil s.config helsewhere, hsteps]
    simp
  · intro e hrefused
    exact absurd hclaims hrefused.not_claims

/-- Which patches a run on a cluster in memory has sent is decided by how far it got, whatever faults
the cluster has and whenever the run is cancelled. -/
theorem patches_sent (s : Setup) (w : World Sandbox) :
    ∃ reached, s.Sent w (s.run.run w).1 (s.run.run w).2 reached := by
  rcases s.run_stages w with ⟨plan, u, hclaims, hrun⟩ | ⟨e, v, hrefused, hrun⟩
  · rw [hrun]
    rcases run_complete (s.steps plan) u with
      ⟨x, hperformed, hcomplete⟩ |
        ⟨before, step, after, cause, x, v, hsteps, hbefore, hhalted, hcomplete⟩
    · rw [hcomplete]
      exact ⟨_, sent_of_performed hclaims hperformed rfl⟩
    · rw [hcomplete]
      exact ⟨_, sent_of_halted hclaims hsteps hbefore hhalted⟩
  · rw [hrun]
    refine ⟨[], ?_, by simp, by simp, ?_, ?_, ?_, ?_, fun _ _ => rfl⟩
    · rw [hrefused.hub_eq]
      simp
    · intro f phase hanswer
      exact absurd (Except.error.inj hanswer) (hrefused.ne_step _)
    · intro _ f phase hanswer
      exact absurd (Except.error.inj hanswer) (hrefused.ne_step _)
    · intro f hanswer
      exact absurd (Except.error.inj hanswer) (hrefused.ne_step _)
    · intro cause plan u _ hclaims
      exact absurd hclaims hrefused.not_claims

/-- The busy cluster, where the patch of the dogu finds nothing. -/
def refusingCluster : World Sandbox where
  backend := { busyCluster.backend with hub := busyCluster.backend.hub.failPatch "cas" }

/-- The failed patch of the dogu. -/
def refusedPatch : StepFailed where
  index := 9
  description := "apply resource patches for phase dogu"
  cause :=
    { message := "failed to patch resources in phase dogu: " ++
        "patching apps/v1/Deployment cas: Deployment cas not found"
      causes := ["patching apps/v1/Deployment cas: Deployment cas not found"] }

/-- On it the run fails in the patches of the dogus: it has sent the one that finds nothing, and has not
reached those of the load balancer. -/
theorem patches_sent_refusingCluster :
    (patchedSetup.run.run refusingCluster).1 = .error (.step (.step refusedPatch)) ∧
      (patchedSetup.run.run refusingCluster).2.backend.hub.patches.map
          (fun r => (r.kind, r.namespaceName, r.name)) = [("Deployment", some "ecosystem", "cas")] ∧
      patchedSetup.Sent refusingCluster (patchedSetup.run.run refusingCluster).1
        (patchedSetup.run.run refusingCluster).2 [.component, .dogu] := by
  have hanswer : (patchedSetup.run.run refusingCluster).1 =
      .error (.step (.step refusedPatch)) := by decide +kernel
  obtain ⟨reached, hsent⟩ := patches_sent patchedSetup refusingCluster
  have hreached : reached = [.component, .dogu] := hsent.failedPatches _ .dogu hanswer rfl (by decide)
  exact ⟨hanswer, by decide +kernel, hreached ▸ hsent⟩

/-- On the busy cluster an interrupt comes while the last dogu is installed. The run is cancelled before
the patches of the dogus, names their step, and has sent none of them. -/
example :
    (patchedSetup.run.run { busyCluster with interruptIn := some 10 }).1 =
        .error (.step (.step { refusedPatch with cause := cancelledBeforeStep })) ∧
      (patchedSetup.run.run { busyCluster with interruptIn := some 10 }).2.backend.hub.patches = [] := by
  decide +kernel

end Setup

end EcosystemSetup

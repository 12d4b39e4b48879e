import EcosystemSetup.Proofs.Prerequisites
import EcosystemSetup.Proofs.RecordedState

/-!
# How a run ends

A run on a cluster in memory ends in exactly one of four ways, whatever faults the cluster has and
whenever the run is cancelled: it completes; it stops at a step; it performs all steps but cannot record
that; or it is refused. Each leaves a state of its own: `installed` after a completed run, `installing`
after one that claimed the setup and did not complete, and every object as it was after one that was
refused.
-/

namespace EcosystemSetup.Setup

open Cluster Executor StateStore

/-! ## Refused runs -/

/-- A run that is refused has not failed in a step. -/
theorem Refused.ne_step {σ : Type} [Backend σ] {s : Setup} {w v : World σ} {e : SetupError}
    (h : s.Refused w e v) (cause : ExecutorError) : e ≠ .step cause := by
  cases h with
  | unreadable => simp
  | @found state => cases state <;> simp [refusal]
  | unplanned _ hplan =>
    rintro rfl
    unfold plannedSteps at hplan
    split at hplan
    · simp at hplan
    · rename_i requests _
      cases hgenerate : Plan.generate s.registry
          ⟨s.config.componentNames, s.config.componentNames⟩ requests with
      | ok steps => simp [hgenerate, Except.mapError] at hplan
      | error e => simp [hgenerate, Except.mapError] at hplan
  | unclaimed =>
    unfold claimRefusal
    split <;> simp

/-- A run that is refused changes nothing. -/
theorem Refused.unchanged {s : Setup} {w v : World Sandbox} {e : SetupError}
    (hw : w.backend.Filed) (h : s.Refused w e v) : Sandbox.Unchanged w.backend v.backend := by
  obtain ⟨hguard, hfiled⟩ := get_sandbox hw
  cases h with
  | unreadable => exact hguard
  | found => exact hguard
  | unplanned => exact hguard
  | unclaimed _ _ hclaim =>
    rcases (claim_sandbox hfiled hclaim).2 with ⟨_, hunchanged⟩ | ⟨hok, _⟩
    · exact hguard.trans hunchanged
    · simp at hok

/-- A run that claims the setup finds no state and leaves `installing`. -/
theorem Claims.recorded {s : Setup} {w u : World Sandbox} {plan : List Plan.PlannedStep}
    (hw : w.backend.Filed) (h : s.Claims w plan u) :
    u.backend.Filed ∧ StateStore.recorded w.backend = .ok none ∧
      StateStore.recorded u.backend = .ok (some .installing) := by
  obtain ⟨hguard, hfiled⟩ := get_sandbox hw
  obtain ⟨hu, hcases⟩ := claim_sandbox hfiled h.claimed
  rcases hcases with ⟨⟨e, he⟩, _⟩ | ⟨_, hnone, hinstalling⟩
  · simp at he
  · exact ⟨hu, recorded_eq_of_unchanged hguard ▸ hnone, hinstalling⟩

/-- A refused run has not claimed the setup. -/
theorem Refused.not_claims {σ : Type} [Backend σ] {s : Setup} {w u v : World σ} {e : SetupError}
    {plan : List Plan.PlannedStep} (h : s.Refused w e v) : ¬ s.Claims w plan u := by
  rintro ⟨hunclaimed, hplanned, hclaimed⟩
  cases h with
  | unreadable h => simp [h] at hunclaimed
  | found h => simp [h] at hunclaimed
  | unplanned _ h => simp [h] at hplanned
  | unclaimed _ _ h => simp [h] at hclaimed

/-! ## Steps of a claimed setup -/

/-- Performed steps leave the recorded state. -/
theorem recorded_of_performed {s : Setup} {plan : List Plan.PlannedStep} {steps : List SetupStep}
    {u v : World Sandbox} (hu : u.backend.Filed) (hsteps : steps ⊆ s.steps plan)
    (h : Performed steps u v) :
    v.backend.Filed ∧ StateStore.recorded v.backend = StateStore.recorded u.backend := by
  have hkeep : ∀ step ∈ steps, ∀ x : World Sandbox,
      (x.backend.Filed ∧ StateStore.recorded x.backend = StateStore.recorded u.backend) →
      (step.perform.run x).2.backend.Filed ∧
        StateStore.recorded (step.perform.run x).2.backend = StateStore.recorded u.backend := by
    rintro step hstep x ⟨hx, hrecorded⟩
    obtain ⟨hfiled, hsame⟩ := recorded_of_obeys (steps_obey_frameRule s plan step (hsteps hstep)) hx
    exact ⟨hfiled, hsame.trans hrecorded⟩
  have hlook : ∀ x : World Sandbox,
      (x.backend.Filed ∧ StateStore.recorded x.backend = StateStore.recorded u.backend) →
      x.looked.backend.Filed ∧
        StateStore.recorded x.looked.backend = StateStore.recorded u.backend := by
    intro x hx
    rwa [x.looked_backend]
  exact h.keeps hlook hkeep ⟨hu, rfl⟩

/-- The step that halts a run leaves the recorded state too. -/
theorem recorded_of_halted {s : Setup} {plan : List Plan.PlannedStep} {step : SetupStep}
    {u v : World Sandbox} {cause : Failure} (hu : u.backend.Filed) (hstep : step ∈ s.steps plan)
    (h : Halted step u cause v) :
    StateStore.recorded v.backend = StateStore.recorded u.backend := by
  cases h with
  | cancelled => rfl
  | failed _ failure =>
    have hu : u.looked.backend.Filed := by rwa [u.looked_backend]
    have hsame := (recorded_of_obeys (steps_obey_frameRule s plan step hstep) hu).2
    rwa [failure, u.looked_backend] at hsame

/-! ## The endings -/

/-- The ways in which a run ends. -/
inductive Ending where
  | completed
  /-- The run stopped at the step of an index. -/
  | stopped (index : Nat)
  /-- All steps were performed, but the end could not be recorded. -/
  | unrecorded
  | refused
  deriving DecidableEq, Repr

/-- What an ending says of a run on a cluster in memory, of its answer and of the world it leaves. -/
inductive Ends (s : Setup) (w : World Sandbox) (answer : Except SetupError Unit)
    (v : World Sandbox) : Ending → Prop where
  | completed {plan : List Plan.PlannedStep} {u x : World Sandbox} (claims : s.Claims w plan u)
      (performed : Performed (s.steps plan) u x)
      (set : (StateStore.set .installed).run x = (.ok (), v)) (answered : answer = .ok ())
      (state : recorded v.backend = .ok (some .installed)) : Ends s w answer v .completed
  /-- The steps before the one that halted the run were performed, and none after it. -/
  | stopped {plan : List Plan.PlannedStep} {u x : World Sandbox} {before after : List SetupStep}
      {step : SetupStep} {cause : Failure} {descriptions : List String}
      (claims : s.Claims w plan u) (steps : s.steps plan = before ++ step :: after)
      (performed : Performed before u x) (halted : Halted step x cause v)
      (answered : answer = .error (.step (.step ⟨before.length, step.description, cause⟩)))
      (planned : s.plan = .ok descriptions)
      (described : descriptions[before.length]? = some step.description)
      (state : recorded v.backend = .ok (some .installing)) :
      Ends s w answer v (.stopped before.length)
  | unrecorded {plan : List Plan.PlannedStep} {u x : World Sandbox} {cause : StateError}
      (claims : s.Claims w plan u) (performed : Performed (s.steps plan) u x)
      (set : (StateStore.set .installed).run x = (.error cause, v))
      (answered : answer = .error (.state cause))
      (state : recorded v.backend = .ok (some .installing)) : Ends s w answer v .unrecorded
  | refused {e : SetupError} (refusal : s.Refused w e v) (answered : answer = .error e)
      (noStep : ∀ cause, e ≠ .step cause)
      (unchanged : Sandbox.Unchanged w.backend v.backend) : Ends s w answer v .refused

/-- A run that claims the setup completes, stops at a step or cannot record its end. -/
theorem ends_of_claims {s : Setup} {w u : World Sandbox} {plan : List Plan.PlannedStep}
    (hw : w.backend.Filed) (h : s.Claims w plan u)
    (hrun : s.run.run w = (complete { steps := s.steps plan }).run u) :
    ∃ ending, s.Ends w (s.run.run w).1 (s.run.run w).2 ending := by
  obtain ⟨hu, _, hinstalling⟩ := h.recorded hw
  rw [hrun]
  -- either all steps are performed, or the run halts at one
  rcases run_complete (s.steps plan) u with
    ⟨x, hperformed, hcomplete⟩ |
      ⟨before, step, after, cause, x, v, hsteps, hbefore, hhalted, hcomplete⟩
  · obtain ⟨hx, hsame⟩ := recorded_of_performed hu (List.Subset.refl _) hperformed
    rw [hcomplete]
    cases hset : (StateStore.set .installed).run x with
    | mk answer v =>
    obtain ⟨_, hcases⟩ := set_sandbox hx hset
    rcases hcases with ⟨⟨e, rfl⟩, hunchanged⟩ | ⟨rfl, hinstalled⟩
    · refine ⟨.unrecorded, .unrecorded h hperformed hset rfl ?_⟩
      rw [recorded_eq_of_unchanged hunchanged, hsame, hinstalling]
    · exact ⟨.completed, .completed h hperformed hset rfl hinstalled⟩
  · rw [hcomplete]
    have hsub : before ⊆ s.steps plan := by
      rw [hsteps]
      exact List.subset_append_left _ _
    obtain ⟨hx, hsame⟩ := recorded_of_performed hu hsub hbefore
    have hmem : step ∈ s.steps plan := by simp [hsteps]
    have hhalt := recorded_of_halted hx hmem hhalted
    have hplan : s.plan = .ok ((s.steps plan).map Step.description) := by
      simp [Setup.plan, pipeline, h.planned, Except.map, descriptions]
    refine ⟨.stopped before.length, .stopped h hsteps hbefore hhalted rfl hplan ?_ ?_⟩
    · have hlength : (before.map Step.description).length ≤ before.length := by
        rw [List.length_map]
      rw [hsteps, List.map_append, List.getElem?_append_right hlength]
      simp
    · rw [hhalt, hsame, hinstalling]

/-- Every run on a cluster in memory ends in exactly one of these ways. -/
theorem run_ends (s : Setup) (w : World Sandbox) (hw : w.backend.Filed) :
    ∃! ending, s.Ends w (s.run.run w).1 (s.run.run w).2 ending := by
  rcases s.run_stages w with ⟨plan, u, hclaims, hrun⟩ | ⟨e, v, hrefused, hrun⟩
  · obtain ⟨ending, hending⟩ := ends_of_claims hw hclaims hrun
    refine ⟨ending, hending, ?_⟩
    intro other hother
    -- two endings of one run give it two answers
    cases hending with
    | completed _ _ _ hanswer =>
      cases hother with
      | completed => rfl
      | stopped _ _ _ _ hanswer' => simp [hanswer] at hanswer'
      | unrecorded _ _ _ hanswer' => simp [hanswer] at hanswer'
      | refused _ hanswer' => simp [hanswer] at hanswer'
    | stopped _ _ _ _ hanswer =>
      cases hother with
      | completed _ _ _ hanswer' => simp [hanswer] at hanswer'
      | stopped _ _ _ _ hanswer' =>
        simp only [hanswer, Except.error.injEq, SetupError.step.injEq, ExecutorError.step.injEq,
          StepFailed.mk.injEq] at hanswer'
        rw [hanswer'.1]
      | unrecorded _ _ _ hanswer' => simp [hanswer] at hanswer'
      | refused hrefused => exact absurd hclaims hrefused.not_claims
    | unrecorded _ _ _ hanswer =>
      cases hother with
      | completed _ _ _ hanswer' => simp [hanswer] at hanswer'
      | stopped _ _ _ _ hanswer' => simp [hanswer] at hanswer'
      | unrecorded => rfl
      | refused hrefused => exact absurd hclaims hrefused.not_claims
    | refused hrefused => exact absurd hclaims hrefused.not_claims
  · rw [hrun]
    refine ⟨.refused, .refused hrefused rfl hrefused.ne_step (hrefused.unchanged hw), ?_⟩
    intro other hother
    cases hother with
    | completed hclaims => exact absurd hclaims hrefused.not_claims
    | stopped hclaims => exact absurd hclaims hrefused.not_claims
    | unrecorded hclaims => exact absurd hclaims hrefused.not_claims
    | refused => rfl

theorem filed_readyCluster : readyCluster.backend.Filed := by
  intro c
  cases c with
  | pods => exact Store.filed_empty.insert _
  | components => exact Store.filed_empty.insert _
  | namespaces => exact Store.filed_empty
  | configMaps => exact Store.filed_empty
  | services => exact Store.filed_empty
  | dogus => exact Store.filed_empty

/-- A cluster in which the dogu cannot be created. -/
def failingCluster : World Sandbox where
  backend :=
    { readyCluster.backend with
      dogus.faults := { create := [none, some (.other "quota exceeded")] } }

theorem filed_failingCluster : failingCluster.backend.Filed := fun c => by
  cases c <;> exact filed_readyCluster _

/-- On it the run stops at the step that creates the dogu, and the setup stays claimed. -/
theorem run_ends_failingCluster :
    failingCluster.backend.Filed ∧
      recorded (casSetup.run.run failingCluster).2.backend = .ok (some .installing) ∧
      ∃! ending, casSetup.Ends failingCluster (casSetup.run.run failingCluster).1
        (casSetup.run.run failingCluster).2 ending :=
  ⟨filed_failingCluster, by decide +kernel, run_ends _ _ filed_failingCluster⟩

end EcosystemSetup.Setup

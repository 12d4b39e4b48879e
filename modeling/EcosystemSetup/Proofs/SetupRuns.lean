import EcosystemSetup.Proofs.StepRuns
import EcosystemSetup.Setup.Run

/-!
# The stages of a run

A run of a setup is refused, or it claims the setup and performs its pipeline. A run that is refused
ends after the first look at the state or with a claim that fails. A run that has claimed the setup stops
at the step that halts it, or it performs all steps and records that the setup is complete.
-/

namespace EcosystemSetup.Setup

open Cluster Executor

variable {σ : Type} [Backend σ]

/-- A run claims the setup: it sees no state, it has a plan, and its claim succeeds and leaves a
world. -/
structure Claims (s : Setup) (w : World σ) (plan : List Plan.PlannedStep) (u : World σ) : Prop where
  unclaimed : (StateStore.get.run w).1 = .ok none
  planned : s.plannedSteps = .ok plan
  claimed : StateStore.claim.run (StateStore.get.run w).2 = (.ok (), u)

/-- A run is refused with an error, and leaves a world. -/
inductive Refused (s : Setup) (w : World σ) : SetupError → World σ → Prop where
  | unreadable {cause : StateStore.StateError} (h : (StateStore.get.run w).1 = .error cause) :
      Refused s w (.state cause) (StateStore.get.run w).2
  | found {state : RunState} (h : (StateStore.get.run w).1 = .ok (some state)) :
      Refused s w (refusal state) (StateStore.get.run w).2
  | unplanned {e : SetupError} (unclaimed : (StateStore.get.run w).1 = .ok none)
      (h : s.plannedSteps = .error e) : Refused s w e (StateStore.get.run w).2
  | unclaimed {cause : StateStore.StateError} {v : World σ} {plan : List Plan.PlannedStep}
      (unclaimed : (StateStore.get.run w).1 = .ok none) (planned : s.plannedSteps = .ok plan)
      (h : StateStore.claim.run (StateStore.get.run w).2 = (.error cause, v)) :
      Refused s w (claimRefusal cause) v

/-- A run claims the setup and performs its steps, or it is refused. -/
theorem run_stages (s : Setup) (w : World σ) :
    (∃ plan u, s.Claims w plan u ∧ s.run.run w = (complete { steps := s.steps plan }).run u) ∨
      ∃ e v, s.Refused w e v ∧ s.run.run w = (.error e, v) := by
  unfold Setup.run
  cases hguard : StateStore.get.run w with
  | mk answer v =>
  have hanswer : (StateStore.get.run w).1 = answer := by rw [hguard]
  have hworld : (StateStore.get.run w).2 = v := by rw [hguard]
  rw [Program.run_bind_of_eq hguard]
  -- the look at the state decides first, then the plan, then the claim
  cases answer with
  | error cause => exact Or.inr ⟨_, v, hworld ▸ .unreadable hanswer, rfl⟩
  | ok found =>
  cases found with
  | some state => exact Or.inr ⟨_, v, hworld ▸ .found hanswer, rfl⟩
  | none =>
  cases hplan : s.plannedSteps with
  | error e =>
    have hpipeline : s.pipeline = .error e := by simp [pipeline, hplan, Except.map]
    rw [hpipeline]
    exact Or.inr ⟨e, v, hworld ▸ .unplanned hanswer hplan, rfl⟩
  | ok plan =>
    have hpipeline : s.pipeline = .ok { steps := s.steps plan } := by
      simp [pipeline, hplan, Except.map]
    rw [hpipeline]
    dsimp only
    unfold claimAndComplete
    cases hclaim : StateStore.claim.run v with
    | mk answer u =>
    rw [Program.run_bind_of_eq hclaim]
    cases answer with
    | error cause =>
      exact Or.inr ⟨_, u, .unclaimed hanswer hplan (hworld ▸ hclaim), rfl⟩
    | ok done => exact Or.inl ⟨plan, u, ⟨hanswer, hplan, hworld ▸ hclaim⟩, rfl⟩

/-- An executor that has not run performs its steps. -/
theorem run_executor (steps : List SetupStep) (w : World σ) :
    (({ steps } : Executor Program).run Program.isCancelled).run w =
      ((outcome ((performFrom Program.isCancelled 0 steps).run w).1,
          { steps, state := .afterRun ((performFrom Program.isCancelled 0 steps).run w).1 }),
        ((performFrom Program.isCancelled 0 steps).run w).2) := by
  unfold Executor.run
  rw [if_pos rfl]
  change ((performFrom Program.isCancelled 0 steps).bind _).run w = _
  rw [Program.run_bind]
  rfl

/-- A claimed setup is performed and recorded as complete, or it stops at the step that halts it. -/
theorem run_complete (steps : List SetupStep) (u : World σ) :
    (∃ v, Performed steps u v ∧ (complete { steps }).run u =
        (((StateStore.set .installed).run v).1.mapError .state,
          ((StateStore.set .installed).run v).2)) ∨
      ∃ before step after cause x v, steps = before ++ step :: after ∧
        Performed before u x ∧ Halted step x cause v ∧
        (complete { steps }).run u =
          (.error (.step (.step ⟨before.length, step.description, cause⟩)), v) := by
  unfold complete
  rcases run_performFrom 0 steps u with
    ⟨v, hrun, hall⟩ | ⟨before, step, after, cause, x, v, hsteps, hrun, hbefore, hhalted⟩
  · have hexecutor := run_executor steps u
    rw [hrun] at hexecutor
    refine Or.inl ⟨v, hall, ?_⟩
    rw [Program.run_bind_of_eq hexecutor]
    change ((StateStore.set .installed).bind _).run v = _
    rw [Program.run_bind]
    rfl
  · have hexecutor := run_executor steps u
    rw [hrun] at hexecutor
    refine Or.inr ⟨before, step, after, cause, x, v, hsteps, hbefore, hhalted, ?_⟩
    rw [Program.run_bind_of_eq hexecutor]
    simp [outcome, Program.run, pure]

end EcosystemSetup.Setup

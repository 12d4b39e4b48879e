import EcosystemSetup.Setup.Run

/-!
# The kinds of steps

A step of a setup checks the configuration, creates an object, waits, stores the selection of dogus or
applies the patches of a phase. The patches of each phase are applied by one step, which is known by
its description.
-/

namespace EcosystemSetup.Setup

open Cluster

/-! ## Steps that apply patches -/

/-- The phases in their order. -/
def phases : List Phase :=
  [.component, .dogu, .loadbalancer]

/-- The phase whose patches a step applies, by the description of the step. -/
def phaseOf? (step : SetupStep) : Option Phase :=
  phases.find? fun phase =>
    step.description = "apply resource patches for phase " ++ phase.name

theorem phaseOf?_patchPhase (c : Config) (phase : Phase) :
    phaseOf? (patchPhase c phase) = some phase := by
  have hfind : ∀ phase : Phase, phases.find? (fun other =>
      "apply resource patches for phase " ++ phase.name =
        "apply resource patches for phase " ++ other.name) = some phase := by
    intro phase
    cases phase <;> decide +kernel
  exact hfind phase

/-- Only a step that applies the patches of a phase has its description. -/
theorem phaseOf?_eq_some_iff {step : SetupStep} {phase : Phase} (c : Config) :
    phaseOf? step = some phase ↔ step.description = (patchPhase c phase).description := by
  constructor
  · intro h
    have hfound := List.find?_some h
    rwa [decide_eq_true_eq] at hfound
  · intro h
    have hsame : phaseOf? step = phaseOf? (patchPhase c phase) := by
      unfold phaseOf?
      rw [h]
    rw [hsame, phaseOf?_patchPhase]

theorem head?_append {x : Char} {text : String} (h : text.toList.head? = some x) (rest : String) :
    (text ++ rest).toList.head? = some x := by
  rw [String.toList_append, List.head?_append, h]
  rfl

/-- A description that begins with another letter is not one of a step that applies patches. -/
theorem phaseOf?_eq_none {step : SetupStep} {x : Char}
    (h : step.description.toList.head? = some x) (hx : x ≠ 'a') : phaseOf? step = none := by
  unfold phaseOf?
  rw [List.find?_eq_none]
  intro phase _ heq
  rw [decide_eq_true_eq] at heq
  rw [heq, head?_append (x := 'a') rfl] at h
  exact hx (Option.some.inj h).symm

theorem phaseOf?_validateConfiguration (c : Config) : phaseOf? (validateConfiguration c) = none := by
  have hfirst : "validate setup configuration".toList.head? = some 'v' := rfl
  exact phaseOf?_eq_none hfirst (by decide)

theorem phaseOf?_createNamespace (name : String) : phaseOf? (createNamespace name) = none :=
  phaseOf?_eq_none (x := 'c') (head?_append rfl _) (by decide)

theorem phaseOf?_installComponent (ns : String) (e : Config.ComponentEntry) :
    phaseOf? (installComponent ns e) = none :=
  phaseOf?_eq_none (x := 'i')
    (head?_append (head?_append (head?_append (head?_append rfl _) _) _) _) (by decide)

theorem phaseOf?_writeConfiguration (c : Config) : phaseOf? (writeConfiguration c) = none :=
  phaseOf?_eq_none (x := 'w') (head?_append rfl _) (by decide)

theorem phaseOf?_createLoadbalancer (ns : String) (l : Config.Loadbalancer) :
    phaseOf? (createLoadbalancer ns l) = none :=
  phaseOf?_eq_none (x := 'c') (head?_append rfl _) (by decide)

theorem phaseOf?_planned (ns : String) (settings : Wait.Settings) (p : Plan.PlannedStep) :
    phaseOf? (planned ns settings p) = none := by
  cases p with
  | installDogu d =>
    exact phaseOf?_eq_none (x := 'i')
      (head?_append (head?_append (head?_append (head?_append rfl _) _) _) _) (by decide)
  | awaitDogu target =>
    exact phaseOf?_eq_none (x := 'w') (head?_append (head?_append rfl _) _) (by decide)
  | awaitComponent target =>
    exact phaseOf?_eq_none (x := 'w') (head?_append (head?_append rfl _) _) (by decide)

/-! ## All steps -/

/-- What a step of a setup does. -/
inductive Kind (c : Config) : SetupStep → Prop where
  | validates : Kind c (validateConfiguration c)
  | creates {description : String} {col : Collection} (o : Object col) (what : String)
      (unpatching : phaseOf? ⟨description, createOnce o what⟩ = none) :
      Kind c ⟨description, createOnce o what⟩
  | waits {description : String} (goal : Wait.Goal)
      (unpatching : phaseOf? ⟨description, reach goal⟩ = none) : Kind c ⟨description, reach goal⟩
  | stores : Kind c (writeConfiguration c)
  | patches (phase : Phase) : Kind c (patchPhase c phase)

/-- Every step of a setup is of one of these kinds. -/
theorem kind_of_mem_steps {s : Setup} {plan : List Plan.PlannedStep} {step : SetupStep}
    (h : step ∈ s.steps plan) : Kind s.config step := by
  unfold steps at h
  simp only [List.mem_append, List.mem_cons, List.not_mem_nil, or_false, List.mem_flatMap,
    List.mem_map] at h
  rcases h with
    ((((((rfl | rfl) | ⟨e, _, he⟩) | (rfl | rfl)) | ⟨p, _, rfl⟩) | rfl) | hl) | rfl
  · exact .validates
  · exact .creates _ _ (phaseOf?_createNamespace _)
  · unfold componentSteps at he
    simp only [List.mem_cons, List.not_mem_nil, or_false] at he
    rcases he with rfl | rfl
    · exact .creates _ _ (phaseOf?_installComponent s.config.namespaceName e)
    · exact .waits _ (phaseOf?_planned s.config.namespaceName s.settings (.awaitComponent e.name))
  · exact .patches .component
  · exact .stores
  · cases p with
    | installDogu d => exact .creates _ _ (phaseOf?_planned _ s.settings (.installDogu d))
    | awaitDogu target => exact .waits _ (phaseOf?_planned s.config.namespaceName _ (.awaitDogu target))
    | awaitComponent target =>
      exact .waits _ (phaseOf?_planned s.config.namespaceName _ (.awaitComponent target))
  · exact .patches .dogu
  · unfold loadbalancerSteps at hl
    split at hl
    · rw [List.mem_singleton] at hl
      subst hl
      exact .creates _ _ (phaseOf?_createLoadbalancer _ _)
    · simp at hl
  · exact .patches .loadbalancer

/-- The patches of each phase are applied once, in the order of the phases. -/
theorem filterMap_phaseOf?_steps (s : Setup) (plan : List Plan.PlannedStep) :
    (s.steps plan).filterMap phaseOf? = phases := by
  have hcomponents : (s.config.components.flatMap s.componentSteps).filterMap phaseOf? = [] := by
    rw [List.filterMap_eq_nil_iff]
    intro step hstep
    obtain ⟨e, _, he⟩ := List.mem_flatMap.mp hstep
    unfold componentSteps at he
    simp only [List.mem_cons, List.not_mem_nil, or_false] at he
    rcases he with rfl | rfl
    · exact phaseOf?_installComponent _ e
    · exact phaseOf?_planned _ _ _
  have hplanned : (plan.map (planned s.config.namespaceName s.settings)).filterMap phaseOf? = [] := by
    rw [List.filterMap_map, List.filterMap_eq_nil_iff]
    exact fun p _ => phaseOf?_planned _ _ p
  have hloadbalancer : s.loadbalancerSteps.filterMap phaseOf? = [] := by
    unfold loadbalancerSteps
    split
    · rw [List.filterMap_cons_none (phaseOf?_createLoadbalancer _ _), List.filterMap_nil]
    · rfl
  unfold steps
  simp only [List.filterMap_append, List.filterMap_cons, List.filterMap_nil, hcomponents, hplanned,
    hloadbalancer, phaseOf?_validateConfiguration, phaseOf?_createNamespace,
    phaseOf?_writeConfiguration, phaseOf?_patchPhase]
  rfl

end EcosystemSetup.Setup

import EcosystemSetup.Proofs.Conduct
import EcosystemSetup.Setup.Run

/-!
# The calls of a setup

Which calls the steps of a setup make, whatever its configuration: they create objects, wait for pods
and components, send patches, and write one config map, the selection of dogus. Only the step that
installs a dogu creates dogus. The recorded state is read and written by its own programs, in its own
config map.
-/

namespace EcosystemSetup

open Cluster Program

variable {rule : Rule}

/-! ## The recorded state -/

namespace StateStore

/-- Reading the state reads its map. -/
theorem obeys_readMap (hread : rule.allows (.get .configMaps mapName)) : readMap.Obeys rule := by
  refine obeys_ask_bind hread ?_
  intro r _
  split
  · exact obeys_pure _
  · split <;> exact obeys_pure _

theorem obeys_get (hread : rule.allows (.get .configMaps mapName)) : get.Obeys rule := by
  refine obeys_bind (obeys_readMap hread) ?_
  intro r
  split <;> exact obeys_pure _

theorem obeys_writeMap {current : Option (Object .configMaps)} {state : RunState}
    (hcreate : ∀ text, rule.allows (.create .configMaps (fresh state text)))
    (hupdate : ∀ m text, rule.allows (.update .configMaps (withState m state text))) :
    (writeMap current state).Obeys rule := by
  refine obeys_bind obeys_time ?_
  intro time
  cases current with
  | some m => exact obeys_ask_bind (hupdate _ _) fun _ _ => obeys_pure _
  | none => exact obeys_ask_bind (hcreate _) fun _ _ => obeys_pure _

/-- Claiming reads the map and writes it. -/
theorem obeys_claim (hread : rule.allows (.get .configMaps mapName))
    (hcreate : ∀ text, rule.allows (.create .configMaps (fresh .installing text)))
    (hupdate : ∀ m text, rule.allows (.update .configMaps (withState m .installing text))) :
    claim.Obeys rule := by
  refine obeys_bind (obeys_readMap hread) ?_
  intro r
  split
  · exact obeys_pure _
  · split
    · exact obeys_pure _
    · exact obeys_pure _
    · refine obeys_bind (obeys_writeMap hcreate hupdate) ?_
      intro answer
      split <;> exact obeys_pure _

theorem obeys_set {state : RunState} (hread : rule.allows (.get .configMaps mapName))
    (hcreate : ∀ text, rule.allows (.create .configMaps (fresh state text)))
    (hupdate : ∀ m text, rule.allows (.update .configMaps (withState m state text))) :
    (set state).Obeys rule := by
  refine obeys_bind (obeys_readMap hread) ?_
  intro r
  split
  · exact obeys_pure _
  · refine obeys_bind (obeys_writeMap hcreate hupdate) ?_
    intro answer
    split <;> exact obeys_pure _

end StateStore

/-! ## The steps -/

/-- A rule that permits to create and to read objects, except for config maps and dogus. -/
structure Rule.PermitsObjects (rule : Rule) : Prop where
  create : ∀ {c : Collection} (o : Object c), c ≠ .configMaps → c ≠ .dogus →
    rule.allows (.create c o)
  get : ∀ {c : Collection} (name : String), c ≠ .configMaps → rule.allows (.get c name)
  list : ∀ {c : Collection} (selector : String), c ≠ .configMaps →
    rule.allows (.list c selector)
  watch : ∀ {c : Collection} (selector version : String), c ≠ .configMaps →
    rule.allows (.watch c selector version)

/-- A rule that permits to patch whatever there is. -/
structure Rule.PermitsPatches (rule : Rule) : Prop where
  resolve : ∀ kind, rule.allows (.resolve kind)
  patch : ∀ kind ns name operations, rule.allows (.patch kind ns name operations)

/-- A rule that permits to store the selection of dogus. -/
structure Rule.PermitsSelection (rule : Rule) : Prop where
  readSelection : rule.allows (.get .configMaps Setup.configMapName)
  freshSelection : ∀ o : Object .configMaps, o.name = Setup.configMapName →
    rule.allows (.create .configMaps o)
  /-- A map that was read is written back under its name. -/
  mergedSelection : ∀ m o : Object .configMaps,
    rule.expects (.get .configMaps Setup.configMapName) (.ok m) → o.name = m.name →
    rule.allows (.update .configMaps o)

/-- A rule that permits what the steps of a setup do, except to create dogus. -/
structure Rule.PermitsSteps (rule : Rule) : Prop extends
  rule.PermitsObjects, rule.PermitsPatches, rule.PermitsSelection

namespace Setup

/-! ### Steps of one action -/

section Runs

variable {σ : Type} [Backend σ]

/-- Creating an object is one call. -/
theorem run_createOnce {c : Collection} (o : Object c) (what : String) (w : World σ) :
    (createOnce o what).run w =
      (createdOutcome what (w.perform (.create c o)).1, (w.perform (.create c o)).2) := rfl

/-- Waiting for a goal is one wait. -/
theorem run_reach (goal : Wait.Goal) (w : World σ) :
    (reach goal).run w =
      ((Wait.run goal w).1.mapError Wait.WaitError.toFailure, (Wait.run goal w).2) := rfl

/-- Applying the patches of a phase is applying its directives. -/
theorem run_patchPhase (c : Config) (phase : Phase) (w : World σ) :
    (patchPhase c phase).perform.run w =
      (((Patch.apply c.namespaceName phase c.patches).run w).1.mapError Patch.PhaseError.toFailure,
        ((Patch.apply c.namespaceName phase c.patches).run w).2) := by
  change Program.run (Program.bind _ _) w = _
  rw [Program.run_bind]
  rfl

end Runs

/-! ### The calls of the steps -/

theorem obeys_createOnce {c : Collection} {o : Object c} {what : String}
    (h : rule.allows (.create c o)) : (createOnce o what).Obeys rule :=
  obeys_ask_bind h fun _ _ => obeys_pure _

/-- Waiting for a dogu lists and watches pods. -/
theorem obeys_awaitDogu (h : rule.PermitsObjects) (settings : Wait.Settings) (target : String) :
    (reach (doguGoal settings target)).Obeys rule := by
  refine obeys_bind (obeys_reach ?_) fun _ => obeys_pure _
  intro stage
  -- a read lists pods, as the goal names none; everything else is a watch
  cases stage with
  | reading attempt => exact h.list _ (by simp [doguGoal])
  | opening version => exact h.watch _ _ (by simp [doguGoal])

/-- Waiting for a component reads and watches components. -/
theorem obeys_awaitComponent (h : rule.PermitsObjects) (settings : Wait.Settings) (target : String) :
    (reach (componentGoal settings target)).Obeys rule := by
  refine obeys_bind (obeys_reach ?_) fun _ => obeys_pure _
  intro stage
  cases stage with
  | reading attempt => exact h.get _ (by simp [componentGoal])
  | opening version => exact h.watch _ _ (by simp [componentGoal])

theorem obeys_mergeSelection (h : rule.PermitsSelection) (c : Config) {m : Object .configMaps}
    (hm : rule.expects (.get .configMaps configMapName) (.ok m)) :
    (mergeSelection c m).Obeys rule := by
  refine obeys_ask_bind (h.mergedSelection m _ hm rfl) ?_
  intro r _
  split <;> exact obeys_pure _

/-- Storing the selection reads and writes its own map. -/
theorem obeys_storeSelection (h : rule.PermitsSelection) (c : Config) :
    (storeSelection c).Obeys rule := by
  refine obeys_ask_bind h.readSelection ?_
  intro r hr
  split
  · exact obeys_mergeSelection h c hr
  · split
    · refine obeys_ask_bind (h.freshSelection _ rfl) ?_
      intro r _
      split
      · exact obeys_pure _
      · split
        · -- another client has created the map meanwhile
          refine obeys_ask_bind h.readSelection ?_
          intro r hr
          split
          · exact obeys_mergeSelection h c hr
          · exact obeys_pure _
        · exact obeys_pure _
    · exact obeys_pure _

theorem obeys_applyOne (h : rule.PermitsPatches) (ns : String) (d : Patch.Directive) :
    (Patch.applyOne ns d).Obeys rule := by
  unfold Patch.applyOne
  split
  · exact obeys_done _
  · split
    · exact obeys_done _
    · refine obeys_ask_bind (h.resolve _) ?_
      intro r _
      split
      · exact obeys_pure _
      · refine obeys_ask_bind (h.patch _ _ _ _) ?_
        intro r _
        split <;> exact obeys_pure _

/-- Applying the patches of a phase resolves kinds and sends patches. -/
theorem obeys_patchPhase (h : rule.PermitsPatches) (c : Config) (phase : Phase) :
    (patchPhase c phase).perform.Obeys rule := by
  have heach : ∀ ds, (Patch.applyEach c.namespaceName ds).Obeys rule := by
    intro ds
    induction ds with
    | nil => exact obeys_pure _
    | cons d rest ih =>
      refine obeys_bind (obeys_applyOne h _ d) ?_
      intro answer
      split
      · exact ih
      · exact obeys_bind ih fun _ => obeys_pure _
  exact obeys_bind (obeys_bind (heach _) fun _ => obeys_pure _) fun _ => obeys_pure _

theorem obeys_installComponent (h : rule.PermitsObjects) (ns : String) (e : Config.ComponentEntry) :
    (installComponent ns e).perform.Obeys rule :=
  obeys_createOnce (h.create _ (by simp) (by simp))

/-- A planned step that is no installation only waits. -/
theorem obeys_planned (h : rule.PermitsObjects) (ns : String) (settings : Wait.Settings)
    {p : Plan.PlannedStep} (hp : ∀ d, p ≠ .installDogu d) :
    (planned ns settings p).perform.Obeys rule := by
  cases p with
  | installDogu d => exact absurd rfl (hp d)
  | awaitDogu target => exact obeys_awaitDogu h settings target
  | awaitComponent target => exact obeys_awaitComponent h settings target

/-- What comes before the planned steps. -/
def stepsBefore (s : Setup) : List SetupStep :=
  [validateConfiguration s.config, createNamespace s.config.namespaceName] ++
    s.config.components.flatMap s.componentSteps ++
    [patchPhase s.config .component, writeConfiguration s.config]

/-- What comes after them. -/
def stepsAfter (s : Setup) : List SetupStep :=
  [patchPhase s.config .dogu] ++ s.loadbalancerSteps ++ [patchPhase s.config .loadbalancer]

theorem steps_eq (s : Setup) (plan : List Plan.PlannedStep) :
    s.steps plan = s.stepsBefore ++
      (plan.map (planned s.config.namespaceName s.settings) ++ s.stepsAfter) := by
  simp [steps, stepsBefore, stepsAfter]

theorem obeys_stepsBefore (h : rule.PermitsSteps) (s : Setup) :
    ∀ step ∈ s.stepsBefore, step.perform.Obeys rule := by
  intro step hstep
  unfold stepsBefore at hstep
  simp only [List.mem_append, List.mem_cons, List.not_mem_nil, or_false, List.mem_flatMap] at hstep
  rcases hstep with ((rfl | rfl) | ⟨e, _, he⟩) | rfl | rfl
  · exact obeys_done _
  · exact obeys_createOnce (h.create _ (by simp) (by simp))
  · unfold componentSteps at he
    simp only [List.mem_cons, List.not_mem_nil, or_false] at he
    rcases he with rfl | rfl
    · exact obeys_installComponent h.toPermitsObjects _ e
    · exact obeys_planned h.toPermitsObjects _ _ (by simp)
  · exact obeys_patchPhase h.toPermitsPatches s.config .component
  · exact obeys_storeSelection h.toPermitsSelection s.config

theorem obeys_stepsAfter (h : rule.PermitsSteps) (s : Setup) :
    ∀ step ∈ s.stepsAfter, step.perform.Obeys rule := by
  intro step hstep
  unfold stepsAfter loadbalancerSteps at hstep
  simp only [List.mem_append, List.mem_singleton] at hstep
  rcases hstep with (rfl | hstep) | rfl
  · exact obeys_patchPhase h.toPermitsPatches s.config .dogu
  · split at hstep
    · rw [List.mem_singleton] at hstep
      subst hstep
      exact obeys_createOnce (h.create _ (by simp) (by simp))
    · simp at hstep
  · exact obeys_patchPhase h.toPermitsPatches s.config .loadbalancer

/-- Every step keeps to a rule that also permits to create dogus. -/
theorem obeys_steps (h : rule.PermitsSteps) (hdogus : ∀ o, rule.allows (.create .dogus o))
    (s : Setup) (plan : List Plan.PlannedStep) :
    ∀ step ∈ s.steps plan, step.perform.Obeys rule := by
  intro step hstep
  rw [steps_eq, List.mem_append, List.mem_append, List.mem_map] at hstep
  -- before the plan, in the plan, and after it
  rcases hstep with hstep | ⟨p, _, rfl⟩ | hstep
  · exact obeys_stepsBefore h s step hstep
  · cases p with
    | installDogu d => exact obeys_createOnce (hdogus _)
    | awaitDogu target => exact obeys_planned h.toPermitsObjects _ _ (by simp)
    | awaitComponent target => exact obeys_planned h.toPermitsObjects _ _ (by simp)
  · exact obeys_stepsAfter h s step hstep

end Setup

/-! ## The executor -/

namespace Executor

/-- Performing steps makes the calls of the steps. -/
theorem obeys_performFrom {steps : List (Step Program)}
    (h : ∀ step ∈ steps, step.perform.Obeys rule) (index : Nat) :
    (performFrom isCancelled index steps).Obeys rule := by
  induction steps generalizing index with
  | nil => exact obeys_pure _
  | cons step rest ih =>
    -- a step that is cancelled makes no call
    have hstep : (performStep isCancelled step).Obeys rule := by
      refine obeys_bind obeys_isCancelled ?_
      intro cancelled
      split
      · exact obeys_pure _
      · exact h step List.mem_cons_self
    refine obeys_bind hstep ?_
    intro answer
    split
    · exact ih (fun step hstep => h step (List.mem_cons_of_mem _ hstep)) _
    · exact obeys_pure _

theorem obeys_run {executor : Executor Program}
    (h : ∀ step ∈ executor.steps, step.perform.Obeys rule) :
    (executor.run isCancelled).Obeys rule := by
  unfold Executor.run
  split
  · exact obeys_bind (obeys_performFrom h 0) fun _ => obeys_pure _
  · exact obeys_pure _

end Executor

end EcosystemSetup

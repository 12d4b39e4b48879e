import EcosystemSetup.Proofs.BarrierPlacement
import EcosystemSetup.Proofs.HealthyRuns

/-!
# Steps that are performed again

A setup that was interrupted is started again on what it has left, so its steps meet their own results.
Main statement: on a cluster in memory without faults, whatever it holds, every step that creates an
object succeeds, keeps an object that is there, touches no other, and changes nothing when it is performed
once more; and the step that writes the selection of dogus leaves the same map each time, apart from the
version. So the writing steps of a pipeline, performed on their own result, change that version and nothing
else.
-/

namespace EcosystemSetup.Setup

open Cluster Executor

variable {w : World Sandbox}

/-! ## Steps that are performed twice -/

/-- A program that creates an object on a cluster without faults, whatever the cluster holds. -/
structure CreatesOnce {c : Collection} (o : Object c) (t : Program (Except Failure Unit))
    (w : World Sandbox) : Prop where
  /-- It succeeds, and every object of another name or kind stays. -/
  first : Writes t c o.name w
  /-- The object of its name stays if there is one; otherwise the new one is put there. -/
  own : ((t.run w).2.backend.shelf c).store.object? o.name =
    some (((w.backend.shelf c).store.object? o.name).getD ((w.backend.shelf c).store.stamped o))
  /-- If there is one, nothing at all changes. -/
  kept : ∀ held, (w.backend.shelf c).store.object? o.name = some held →
    Sandbox.SameContent w.backend (t.run w).2.backend
  /-- Performed once more, it succeeds and changes nothing. -/
  again : (t.run (t.run w).2).1 = .ok () ∧
    Sandbox.SameContent (t.run w).2.backend (t.run (t.run w).2).2.backend

theorem createsOnce_createOnce (h : w.backend.Faultless) {c : Collection} (o : Object c)
    (what : String) : CreatesOnce o (createOnce o what) w where
  first := writes_createOnce h o what
  own := object?_createOnce h o what
  kept _ hheld := (createOnce_held h hheld what).2
  again := createOnce_held (writes_createOnce h o what).faultless (object?_createOnce h o what) what

/-- A step that stores the selection on a cluster without faults, whatever the cluster holds. -/
structure RewritesSelection (c : Config) (t : Program (Except Failure Unit)) (w : World Sandbox) :
    Prop where
  /-- It succeeds, every other object stays, and the map gets the selection. -/
  first : Puts t (selectionMap c w.backend) w
  /-- Performed once more, it leaves the same map, at some version. -/
  again : Puts t (selectionMap c w.backend) (t.run w).2

theorem rewritesSelection_storeSelection (h : w.backend.Faultless) (c : Config) :
    RewritesSelection c (storeSelection c) w := by
  have hfirst := puts_storeSelection h c
  refine ⟨hfirst, ?_⟩
  obtain ⟨version, hmap⟩ := hfirst.map
  have hagain := puts_storeSelection hfirst.faultless c
  -- the map that the first time left has the selection already
  have hsame : selectionMap c ((storeSelection c).run w).2.backend =
      (selectionMap c w.backend).atVersion version := by
    rw [selectionMap, hmap]
    exact selected_selected c _ version
  rw [hsame] at hagain
  exact ⟨hagain.toWrites, hagain.map⟩

/-! ## What steps are for -/

/-- A step that creates an object or writes the selection, and what a cluster has on which it is done. -/
inductive Writing (c : Config) : SetupStep → (Sandbox → Prop) → Prop where
  | creates {description : String} {col : Collection} (o : Object col) (what : String) :
      Writing c ⟨description, createOnce o what⟩ fun s =>
        ∃ held, (s.shelf col).store.object? o.name = some held
  | stores : Writing c (writeConfiguration c) fun s =>
      ∃ m, (s.shelf .configMaps).store.object? configMapName = some m ∧ selected c m = m

/-- An object without its version. -/
def unversioned {col : Collection} (o : Object col) : Object col :=
  { o with metadata := { o.metadata with resourceVersion := none } }

/-- At most the version of the map of the selection differs. -/
structure SameButVersion (s t : Sandbox) : Prop where
  frame : Sandbox.DiffersAt .configMaps configMapName s t
  map : ((t.shelf .configMaps).store.object? configMapName).map unversioned =
    ((s.shelf .configMaps).store.object? configMapName).map unversioned

theorem SameButVersion.trans {s t u : Sandbox} (h₁ : SameButVersion s t) (h₂ : SameButVersion t u) :
    SameButVersion s u :=
  ⟨h₁.frame.trans h₂.frame, h₂.map.trans h₁.map⟩

theorem sameButVersion_of_sameContent {s t : Sandbox} (h : Sandbox.SameContent s t) :
    SameButVersion s t :=
  ⟨h.differsAt _ _, by rw [h.stores]⟩

namespace Writing

variable {c : Config} {step other : SetupStep} {done done' : Sandbox → Prop}

/-- A step that writes succeeds, and then it is done. -/
theorem writes (h : Writing c step done) (hw : w.backend.Faultless) :
    (∃ col name, Writes step.perform col name w) ∧ done (step.perform.run w).2.backend := by
  cases h with
  | creates o what => exact ⟨⟨_, _, writes_createOnce hw o what⟩, _, object?_createOnce hw o what⟩
  | stores => exact ⟨⟨_, _, (puts_storeSelection hw c).toWrites⟩, exists_selected hw c⟩

/-- A step that is done stays done, whichever step that writes is performed next. -/
theorem keeps (h : Writing c step done) (hother : Writing c other done')
    (hw : w.backend.Faultless) (hdone : done w.backend) :
    done (other.perform.run w).2.backend := by
  cases hother with
  | creates o what =>
    -- a creation leaves every object that is there
    have hkept : ∀ {d : Collection} {name : String} {held : Object d},
        (w.backend.shelf d).store.object? name = some held →
        (((createOnce o what).run w).2.backend.shelf d).store.object? name = some held := by
      intro d name held hheld
      exact Sandbox.object?_perform_of_some hheld (by simp)
    cases h with
    | creates q _ =>
      obtain ⟨held, hheld⟩ := hdone
      exact ⟨held, hkept hheld⟩
    | stores =>
      obtain ⟨m, hm, hselected⟩ := hdone
      exact ⟨m, hkept hm, hselected⟩
  | stores =>
    cases h with
    | @creates _ col q _ =>
      -- the object that was created is the map itself, or it is untouched
      by_cases hsame : col = .configMaps ∧ q.name = configMapName
      · obtain ⟨rfl, hname⟩ := hsame
        obtain ⟨m, hm, -⟩ := exists_selected hw c
        exact ⟨m, hname ▸ hm⟩
      · obtain ⟨held, hheld⟩ := hdone
        have hframe := (puts_storeSelection hw c).frame
        exact ⟨held, (hframe.object?_eq hsame).trans hheld⟩
    | stores => exact exists_selected hw c

/-- A step that is done changes the version of the map at most. -/
theorem sameButVersion (h : Writing c step done) (hw : w.backend.Faultless)
    (hdone : done w.backend) :
    SameButVersion w.backend (step.perform.run w).2.backend := by
  cases h with
  | creates o what =>
    obtain ⟨held, hheld⟩ := hdone
    exact sameButVersion_of_sameContent (createOnce_held hw hheld what).2
  | stores =>
    obtain ⟨m, hm, hselected⟩ := hdone
    have hputs := puts_storeSelection hw c
    obtain ⟨version, hmap⟩ := hputs.map
    have hsame : selectionMap c w.backend = m := by
      rw [selectionMap, hm]
      exact hselected
    rw [hsame] at hmap
    refine ⟨hputs.frame, ?_⟩
    show Option.map unversioned
      ((((storeSelection c).run w).2.backend.shelf .configMaps).store.object? configMapName) = _
    rw [hmap, hm]
    rfl

end Writing

/-! ## Runs of steps that write -/

section Runs

variable {c : Config} {steps : List SetupStep}

/-- Steps that write are all performed, from any cluster without faults. -/
theorem exists_performed (hsteps : ∀ step ∈ steps, ∃ done, Writing c step done)
    (hw : w.backend.Faultless) (hgoes : w.Unstopped) :
    ∃ v, Performed steps w v ∧ v.backend.Faultless ∧ v.Unstopped := by
  induction steps generalizing w with
  | nil => exact ⟨w, .nil w, hw, hgoes⟩
  | cons step rest ih =>
    obtain ⟨done, hwriting⟩ := hsteps step List.mem_cons_self
    obtain ⟨⟨_, _, hwrites⟩, -⟩ := hwriting.writes hw
    -- the others start without faults as well, and at the same time
    obtain ⟨v, hrest, hv⟩ := ih (fun t ht => hsteps t (List.mem_cons_of_mem _ ht)) hwrites.faultless
      ⟨hwrites.isCancelled.trans hgoes.1, hwrites.interruptIn.trans hgoes.2⟩
    have hsucceeds : (step.perform.run w.looked).1 = .ok () := by
      rw [World.looked_of_unstopped hgoes]
      exact hwrites.succeeds
    rw [← World.looked_of_unstopped hgoes] at hrest
    exact ⟨v, .cons hgoes.1 (Prod.ext hsucceeds rfl) hrest, hv⟩

/-- A step that writes is done once all are performed. -/
theorem done_of_performed (hsteps : ∀ step ∈ steps, ∃ done, Writing c step done)
    (hw : w.backend.Faultless) {v : World Sandbox} (h : Performed steps w v) {step : SetupStep}
    {done : Sandbox → Prop} (hstep : step ∈ steps) (hwriting : Writing c step done) :
    done v.backend := by
  -- no step brings a fault, so the step itself succeeds, and the steps after it keep what it did
  apply h.establishes (I := fun x => x.backend.Faultless) (P := fun x => done x.backend) hstep
    (fun x hx => by rwa [World.looked_backend]) (fun x hx => by rwa [World.looked_backend])
  · intro t ht x hx
    obtain ⟨done', hother⟩ := hsteps t ht
    obtain ⟨⟨_, _, hwrites⟩, -⟩ := hother.writes hx
    exact hwrites.faultless
  · intro t ht x hx hdone
    obtain ⟨done', hother⟩ := hsteps t ht
    exact hwriting.keeps hother hx hdone
  · intro x hx
    exact (hwriting.writes hx).2
  · exact hw

/-- Steps that are done change the version of the map at most. -/
theorem sameButVersion_of_performed
    (hsteps : ∀ step ∈ steps, ∃ done, Writing c step done ∧ done w.backend)
    (hw : w.backend.Faultless) {v : World Sandbox} (h : Performed steps w v) :
    SameButVersion w.backend v.backend := by
  induction h with
  | nil w => exact sameButVersion_of_sameContent ⟨fun _ => rfl, rfl⟩
  | @cons step rest w x v _ succeeded _ ih =>
    obtain ⟨done, hwriting, hdone⟩ := hsteps step List.mem_cons_self
    -- the look before the step leaves the cluster
    rw [← w.looked_backend] at hw hdone ⊢
    obtain ⟨⟨_, _, hwrites⟩, -⟩ := hwriting.writes hw
    have hnow := hwriting.sameButVersion hw hdone
    have hfaultless := hwrites.faultless
    rw [succeeded] at hnow hfaultless
    refine hnow.trans (ih ?_ hfaultless)
    -- what the other steps are for is still there
    intro t ht
    obtain ⟨done', hother, hdone'⟩ := hsteps t (List.mem_cons_of_mem _ ht)
    rw [← w.looked_backend] at hdone'
    have hkept := hother.keeps hwriting hw hdone'
    rw [succeeded] at hkept
    exact ⟨done', hother, hkept⟩

end Runs

/-! ## Pipelines -/

/-- Performs steps with a new executor; how that ends, and the world after it. -/
def performAll (steps : List SetupStep) (w : World Sandbox) :
    Except ExecutorError Unit × World Sandbox :=
  let r := (({ steps } : Executor Program).run Program.isCancelled).run w
  (r.1.1, r.2)

theorem performAll_of_performed {steps : List SetupStep} {v : World Sandbox}
    (h : Performed steps w v) : performAll steps w = (.ok (), v) := by
  unfold performAll
  rw [run_executor, h.run_performFrom]
  rfl

/-- The steps of a pipeline that create objects or write the selection. -/
def writingSteps (s : Setup) (plan : List Plan.PlannedStep) : List SetupStep :=
  [createNamespace s.config.namespaceName] ++
    s.config.components.map (installComponent s.config.namespaceName) ++
    [writeConfiguration s.config] ++
    (plan.filterMap Plan.PlannedStep.installed?).map
      (fun d => planned s.config.namespaceName s.settings (.installDogu d)) ++
    s.loadbalancerSteps

theorem installs_sublist_componentSteps (s : Setup) (es : List Config.ComponentEntry) :
    (es.map (installComponent s.config.namespaceName)).Sublist (es.flatMap s.componentSteps) := by
  induction es with
  | nil => exact List.Sublist.refl _
  | cons e rest ih => exact (ih.cons _).cons_cons _

theorem installs_sublist_planned (ns : String) (settings : Wait.Settings)
    (plan : List Plan.PlannedStep) :
    ((plan.filterMap Plan.PlannedStep.installed?).map
      fun d => planned ns settings (.installDogu d)).Sublist (plan.map (planned ns settings)) := by
  induction plan with
  | nil => exact List.Sublist.refl _
  | cons p rest ih =>
    cases p with
    | installDogu d => exact ih.cons_cons _
    | awaitDogu target => exact ih.cons _
    | awaitComponent target => exact ih.cons _

/-- They are steps of the pipeline, in its order. -/
theorem writingSteps_sublist (s : Setup) (plan : List Plan.PlannedStep) :
    (s.writingSteps plan).Sublist (s.steps plan) := by
  have hnamespace : [createNamespace s.config.namespaceName].Sublist
      [validateConfiguration s.config, createNamespace s.config.namespaceName] :=
    List.sublist_cons_self _ _
  have hcomponents := installs_sublist_componentSteps s s.config.components
  have hselection : [writeConfiguration s.config].Sublist
      [patchPhase s.config .component, writeConfiguration s.config] :=
    List.sublist_cons_self _ _
  have hdogus := installs_sublist_planned s.config.namespaceName s.settings plan
  -- the patches of two phases are left out in the same way
  have hbefore := (((hnamespace.append hcomponents).append hselection).append hdogus).trans
    (List.sublist_append_left _ [patchPhase s.config .dogu])
  exact (hbefore.append (List.Sublist.refl s.loadbalancerSteps)).trans
    (List.sublist_append_left _ _)

theorem mem_writingSteps_iff {s : Setup} {plan : List Plan.PlannedStep} {step : SetupStep} :
    step ∈ s.writingSteps plan ↔ step = createNamespace s.config.namespaceName ∨
      (∃ e ∈ s.config.components, installComponent s.config.namespaceName e = step) ∨
      step = writeConfiguration s.config ∨
      (∃ d, .installDogu d ∈ plan ∧
        planned s.config.namespaceName s.settings (.installDogu d) = step) ∨
      step ∈ s.loadbalancerSteps := by
  unfold writingSteps
  simp only [List.mem_append, List.mem_singleton, List.mem_map, Plan.mem_installed_iff, or_assoc]

/-- The other steps of the pipeline check, wait or patch. -/
theorem writes_or_not_of_mem_steps {s : Setup} {plan : List Plan.PlannedStep} {step : SetupStep}
    (h : step ∈ s.steps plan) :
    step ∈ s.writingSteps plan ∨ step = validateConfiguration s.config ∨
      (∃ goal, step.perform = reach goal) ∨ ∃ phase, step = patchPhase s.config phase := by
  rw [mem_writingSteps_iff]
  unfold steps at h
  simp only [List.mem_append, List.mem_cons, List.not_mem_nil, or_false, List.mem_flatMap,
    List.mem_map] at h
  rcases h with
    ((((((hvalid | hnamespace) | ⟨e, he, hstep⟩) | (hpatch | hselection)) | ⟨p, hp, rfl⟩) |
      hpatch) | hloadbalancer) | hpatch
  · exact Or.inr (Or.inl hvalid)
  · exact Or.inl (Or.inl hnamespace)
  · unfold componentSteps at hstep
    simp only [List.mem_cons, List.not_mem_nil, or_false] at hstep
    rcases hstep with hinstall | hwait
    · exact Or.inl (Or.inr (Or.inl ⟨e, he, hinstall.symm⟩))
    · exact Or.inr (Or.inr (Or.inl ⟨_, congrArg Step.perform hwait⟩))
  · exact Or.inr (Or.inr (Or.inr ⟨.component, hpatch⟩))
  · exact Or.inl (Or.inr (Or.inr (Or.inl hselection)))
  · cases p with
    | installDogu d => exact Or.inl (Or.inr (Or.inr (Or.inr (Or.inl ⟨d, hp, rfl⟩))))
    | awaitDogu target => exact Or.inr (Or.inr (Or.inl ⟨_, rfl⟩))
    | awaitComponent target => exact Or.inr (Or.inr (Or.inl ⟨_, rfl⟩))
  · exact Or.inr (Or.inr (Or.inr ⟨.dogu, hpatch⟩))
  · exact Or.inl (Or.inr (Or.inr (Or.inr (Or.inr hloadbalancer))))
  · exact Or.inr (Or.inr (Or.inr ⟨.loadbalancer, hpatch⟩))

theorem writing_of_mem_writingSteps {s : Setup} {plan : List Plan.PlannedStep} {step : SetupStep}
    (h : step ∈ s.writingSteps plan) : ∃ done, Writing s.config step done := by
  rcases mem_writingSteps_iff.mp h with rfl | ⟨e, -, rfl⟩ | rfl | ⟨d, -, rfl⟩ | hloadbalancer
  · exact ⟨_, .creates _ _⟩
  · exact ⟨_, .creates _ _⟩
  · exact ⟨_, .stores⟩
  · exact ⟨_, .creates _ _⟩
  · unfold loadbalancerSteps at hloadbalancer
    split at hloadbalancer
    · rw [List.mem_singleton] at hloadbalancer
      subst hloadbalancer
      exact ⟨_, .creates _ _⟩
    · simp at hloadbalancer

/-- The writing steps of a pipeline, performed from a world and then again on their own result. -/
structure RepeatsPipeline (s : Setup) (plan : List Plan.PlannedStep) (w : World Sandbox) : Prop where
  part : (s.writingSteps plan).Sublist (s.steps plan)
  rest : ∀ step ∈ s.steps plan, step ∈ s.writingSteps plan ∨ step = validateConfiguration s.config ∨
    (∃ goal, step.perform = reach goal) ∨ ∃ phase, step = patchPhase s.config phase
  first : (performAll (s.writingSteps plan) w).1 = .ok ()
  again : (performAll (s.writingSteps plan) (performAll (s.writingSteps plan) w).2).1 = .ok ()
  /-- The second time changes the version of the map of the selection at most. -/
  same : SameButVersion (performAll (s.writingSteps plan) w).2.backend
    (performAll (s.writingSteps plan) (performAll (s.writingSteps plan) w).2).2.backend

theorem repeatsPipeline (s : Setup) (plan : List Plan.PlannedStep) (hw : w.backend.Faultless)
    (hgoes : w.Unstopped) : RepeatsPipeline s plan w := by
  have hsteps : ∀ step ∈ s.writingSteps plan, ∃ done, Writing s.config step done :=
    fun step hstep => writing_of_mem_writingSteps hstep
  obtain ⟨v, hfirst, hv, hstill⟩ := exists_performed hsteps hw hgoes
  obtain ⟨u, hagain, -, -⟩ := exists_performed hsteps hv hstill
  -- the second time all steps are done before they start
  have hsame : SameButVersion v.backend u.backend := by
    refine sameButVersion_of_performed (c := s.config) ?_ hv hagain
    intro step hstep
    obtain ⟨done, hwriting⟩ := hsteps step hstep
    exact ⟨done, hwriting, done_of_performed hsteps hw hfirst hstep hwriting⟩
  refine ⟨writingSteps_sublist s plan, fun step hstep => writes_or_not_of_mem_steps hstep, ?_, ?_, ?_⟩
  · rw [performAll_of_performed hfirst]
  · rw [performAll_of_performed hfirst, performAll_of_performed hagain]
  · rw [performAll_of_performed hfirst, performAll_of_performed hagain]
    exact hsame

/-- What the writing steps of setups do in a world, and when they are performed again. -/
structure Repeatable (w : World Sandbox) : Prop where
  namespaces : ∀ name, CreatesOnce (namespaceObject name) (createNamespace name).perform w
  components : ∀ ns e, CreatesOnce (componentObject ns e) (installComponent ns e).perform w
  dogus : ∀ ns settings d,
    CreatesOnce (doguObject ns d) (planned ns settings (.installDogu d)).perform w
  loadbalancers : ∀ ns l, CreatesOnce (loadbalancerObject ns l) (createLoadbalancer ns l).perform w
  selections : ∀ c, RewritesSelection c (writeConfiguration c).perform w
  pipelines : ∀ s plan, w.Unstopped → RepeatsPipeline s plan w

/-- On a cluster without faults, whatever it holds, the writing steps of a setup can be repeated. -/
theorem repeatable_of_faultless (h : w.backend.Faultless) : Repeatable w where
  namespaces _ := createsOnce_createOnce h _ _
  components _ _ := createsOnce_createOnce h _ _
  dogus _ _ _ := createsOnce_createOnce h _ _
  loadbalancers _ _ := createsOnce_createOnce h _ _
  selections c := rewritesSelection_storeSelection h c
  pipelines s plan hgoes := repeatsPipeline s plan h hgoes

/-- A cluster that has a resource of one of the dogus and the config map already. -/
theorem repeatable_busyCluster :
    busyCluster.backend.Faultless ∧ busyCluster.Unstopped ∧ Repeatable busyCluster := by
  have hfaultless := calm_busyCluster.faultless
  exact ⟨hfaultless, ⟨rfl, rfl⟩, repeatable_of_faultless hfaultless⟩

end EcosystemSetup.Setup

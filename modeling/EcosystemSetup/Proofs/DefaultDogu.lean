import EcosystemSetup.Proofs.PipelineLayout
import EcosystemSetup.Proofs.SharedSelection

/-!
# The default dogu

The dogu that users land on is configured by a name with or without a namespace, and with any blanks
around it; the dogus to install are requests, with blanks and versions of their own; and what is
installed are descriptors that a registry gives. Main statement: if the configuration is valid and names
a default dogu, exactly one of the planned installations is of a dogu whose simple name is the one that
the setup stores as the default.
-/

namespace EcosystemSetup

open Cluster

/-! ## The dogu of a name -/

namespace Plan

open Dogu

/-- Among dogus of distinct simple names there is one of each name. -/
theorem exists_filter_eq_singleton {dogus : List Descriptor} {name : String}
    (hdistinct : (dogus.map Descriptor.simpleName).Nodup)
    (hname : name ∈ dogus.map Descriptor.simpleName) :
    ∃ d, d.simpleName = name ∧ dogus.filter (fun e => e.simpleName = name) = [d] := by
  have hsame : ((· == name) ∘ Descriptor.simpleName) = fun e => decide (e.simpleName = name) := by
    funext e
    exact beq_eq_decide _ _
  -- the name occurs once, so that the filter leaves one dogu
  have hcount : (dogus.map Descriptor.simpleName).count name = 1 :=
    List.count_eq_one_of_mem hdistinct hname
  rw [List.count_eq_countP, List.countP_map, List.countP_eq_length_filter, hsame] at hcount
  obtain ⟨d, hd⟩ := List.length_eq_one_iff.mp hcount
  have hmem : d ∈ dogus.filter fun e => e.simpleName = name := by
    rw [hd]
    exact List.mem_singleton_self d
  exact ⟨d, by simpa using (List.mem_filter.mp hmem).2, hd⟩

end Plan

/-! ## Stored maps -/

/-- The config map that a call asks to be stored. -/
def Cluster.Call.configMap? : Call → Option (Object .configMaps)
  | .create .configMaps o => some o
  | .update .configMaps o => some o
  | _ => none

/-- A config map was stored. -/
inductive Cluster.Exchange.Stores (o : Object .configMaps) : Exchange → Prop where
  | created {time : Nat} {q : Object .configMaps} :
      Exchange.Stores o ⟨time, .create .configMaps o, .ok q⟩
  | updated {time : Nat} {q : Object .configMaps} :
      Exchange.Stores o ⟨time, .update .configMaps o, .ok q⟩

theorem Cluster.Exchange.Stores.configMap? {o : Object .configMaps} {x : Exchange}
    (h : x.Stores o) : x.call.configMap? = some o := by
  cases h with
  | created => rfl
  | updated => rfl

namespace Setup

variable {c : Config} {result : Except Failure Unit} {news : List Exchange} {x : Exchange}

/-- What was recorded while the selection was stored, and what came of it: every config map that was to
be stored has the selection, and it was a success if one was stored, and only then. -/
structure SelectionWritten (c : Config) (result : Except Failure Unit) (news : List Exchange) :
    Prop where
  selected : ∀ x ∈ news, ∀ o, x.call.configMap? = some o → ∃ m, o = selected c m
  stored : result = .ok () ↔ ∃ x ∈ news, ∃ o, x.Stores o

theorem selectionWritten_error (e : Failure) : SelectionWritten c (.error e) [] where
  selected := by simp
  stored := by simp

theorem SelectionWritten.cons (h : SelectionWritten c result news)
    (hx : ∀ o, x.call.configMap? = some o → ∃ m, o = Setup.selected c m)
    (hnot : ∀ o, ¬ x.Stores o) : SelectionWritten c result (x :: news) where
  selected := List.forall_mem_cons.mpr ⟨hx, h.selected⟩
  stored := by
    rw [h.stored]
    simp [hnot]

/-- Whoever answers, running the program stores the selection. -/
def WritesSelection (c : Config) (t : Program (Except Failure Unit)) : Prop :=
  ∀ {σ : Type} [Backend σ] (w : World σ), ∃ news,
    World.Since w (t.run w).2 news ∧ SelectionWritten c (t.run w).1 news

theorem writesSelection_error (e : Failure) : WritesSelection c (.done (.error e)) := by
  intro σ _ w
  exact ⟨[], w.since_refl, selectionWritten_error e⟩

/-- One call, after which the program has succeeded, or goes on as nothing was stored. -/
theorem writesSelection_call {k : Call} {next : k.Reply → Program (Except Failure Unit)}
    (hk : ∀ o, k.configMap? = some o → ∃ m, o = selected c m)
    (hnext : ∀ time r, (∃ o, Exchange.Stores o ⟨time, k, r⟩) ∧ next r = .done (.ok ()) ∨
      (∀ o, ¬ Exchange.Stores o ⟨time, k, r⟩) ∧ WritesSelection c (next r)) :
    WritesSelection c (.call k next) := by
  intro σ _ w
  have hcall := w.since_perform k
  show ∃ news, World.Since w ((next (w.perform k).1).run (w.perform k).2).2 news ∧
    SelectionWritten c ((next (w.perform k).1).run (w.perform k).2).1 news
  rcases hnext w.clock (w.perform k).1 with ⟨hstores, hdone⟩ | ⟨hnot, hrest⟩
  · rw [hdone]
    refine ⟨_, hcall, ?_, ?_⟩
    · simpa using hk
    · simpa [Program.run] using hstores
  · obtain ⟨news, hnews, hstored⟩ := hrest (w.perform k).2
    exact ⟨_, hcall.trans hnews, hstored.cons hk hnot⟩

theorem writesSelection_mergeSelection (c : Config) (m : Object .configMaps) :
    WritesSelection c (mergeSelection c m) := by
  rw [mergeSelection_eq]
  refine writesSelection_call ?_ ?_
  · rintro o ⟨⟩
    exact ⟨m, rfl⟩
  · intro time r
    cases r with
    | ok q => exact Or.inl ⟨⟨_, .updated⟩, rfl⟩
    | error e =>
      refine Or.inr ⟨?_, writesSelection_error _⟩
      rintro o ⟨⟩

/-- A read stores nothing. -/
theorem writesSelection_read {name : String}
    {next : Except AccessError (Object .configMaps) → Program (Except Failure Unit)}
    (hnext : ∀ r, WritesSelection c (next r)) :
    WritesSelection c (.call (.get .configMaps name) next) := by
  refine writesSelection_call ?_ ?_
  · rintro o ⟨⟩
  · intro time r
    refine Or.inr ⟨?_, hnext r⟩
    rintro o ⟨⟩

theorem writesSelection_mergeConcurrent (c : Config) : WritesSelection c (mergeConcurrent c) := by
  rw [mergeConcurrent_eq]
  apply writesSelection_read
  intro r
  cases r with
  | ok m => exact writesSelection_mergeSelection c m
  | error e => exact writesSelection_error _

theorem writesSelection_createConfigMap (c : Config) : WritesSelection c (createConfigMap c) := by
  rw [createConfigMap_eq]
  refine writesSelection_call ?_ ?_
  · rintro o ⟨⟩
    exact ⟨blankConfigMap c, (selected_blank c).symm⟩
  · intro time r
    cases r with
    | ok q => exact Or.inl ⟨⟨_, .created⟩, rfl⟩
    | error e =>
      refine Or.inr ⟨?_, ?_⟩
      · rintro o ⟨⟩
      -- if another client has created the map meanwhile, the selection goes into that one
      unfold afterCreation
      dsimp only
      split
      · exact writesSelection_mergeConcurrent c
      · exact writesSelection_error _

theorem writesSelection_storeSelection (c : Config) : WritesSelection c (storeSelection c) := by
  rw [storeSelection_eq]
  apply writesSelection_read
  intro r
  cases r with
  | ok m => exact writesSelection_mergeSelection c m
  | error e =>
    unfold afterFirstRead
    dsimp only
    split
    · exact writesSelection_createConfigMap c
    · exact writesSelection_error _

/-! ## Where users land -/

/-- The simple name of the default dogu is that of one planned installation. -/
theorem exists_installed_default {s : Setup} {plan : List Plan.PlannedStep}
    (hregistry : s.registry.Standard) (hvalid : s.config.validate = .ok ())
    (hplan : s.plannedSteps = .ok plan)
    (hdefault : Text.isBlankText s.config.dogus.defaultDogu = false) :
    ∃ d, d.simpleName = defaultDoguName s.config ∧
      (plan.filterMap Plan.PlannedStep.installed?).filter
        (fun e => e.simpleName = defaultDoguName s.config) = [d] := by
  obtain ⟨requests, hrequests⟩ := Config.validate_eq_ok.mp hvalid
  obtain ⟨requests', dogus, sorted, hsame, hdogus, hsorted, rfl⟩ := plannedSteps_eq_ok hplan
  have heq : requests = requests' := Except.ok.inj (hrequests.requested.symm.trans hsame)
  subst heq
  have hinstalled : (Plan.interleaveBarriers ⟨s.config.componentNames, s.config.componentNames⟩
      sorted).filterMap Plan.PlannedStep.installed? = sorted := Plan.installed_withBarriers
  rw [hinstalled]
  -- the checks compare simple names of requests, and these are those of the dogus
  have hnames : dogus.map Dogu.Descriptor.simpleName = requests.map Dogu.Request.simpleName :=
    Plan.map_simpleName_of_forall₂ hregistry.faithful (Plan.resolveFrom_eq_ok.mp hdogus).1
  have hperm : (sorted.map Dogu.Descriptor.simpleName).Perm (requests.map Dogu.Request.simpleName) :=
    hnames ▸ (Plan.perm_of_sortByDependencies hsorted).map _
  apply Plan.exists_filter_eq_singleton
  · exact hperm.nodup_iff.mpr hrequests.distinct
  · apply hperm.mem_iff.mpr
    refine hrequests.defaultAmong.resolve_left ?_
    intro hempty
    rw [Config.defaultDogu, Text.trim_eq_empty_iff, hdefault] at hempty
    cases hempty

/-- A setup whose users land on a dogu that it installs. -/
structure LandsOn (s : Setup) (executor : Executor Program) (d : Dogu.Descriptor) : Prop where
  /-- The plan installs this dogu once and no other one of its simple name. -/
  installed : ∃ plan, s.plannedSteps = .ok plan ∧ executor.steps = s.steps plan ∧
    (plan.filterMap Plan.PlannedStep.installed?).filter
      (fun e => e.simpleName = d.simpleName) = [d]
  /-- Whoever answers, every config map that the step asks to be stored has the name of this dogu, and
  the step succeeds exactly if one is stored. -/
  written : ∀ {σ : Type} [Backend σ] (w : World σ), ∃ news,
    World.Since w ((writeConfiguration s.config).perform.run w).2 news ∧
    (∀ x ∈ news, ∀ o, x.call.configMap? = some o →
      Assoc.get? "default_dogu" (o.body.data.getD []) = some d.simpleName) ∧
    (((writeConfiguration s.config).perform.run w).1 = .ok () ↔ ∃ x ∈ news, ∃ o, x.Stores o)
  /-- A run that succeeds has stored the name and has created the dogu, unless it was there. -/
  recorded : ∀ {σ : Type} [Backend σ] (w : World σ), (s.run.run w).1 = .ok () →
    ∃ news, World.Since w (s.run.run w).2 news ∧
      (∃ x ∈ news, ∃ o, x.Stores o ∧
        Assoc.get? "default_dogu" (o.body.data.getD []) = some d.simpleName) ∧
      ∃ x ∈ news, Installed s.config.namespaceName d x

/-- Users land on a dogu that is installed, however its name is written. -/
theorem default_installed {s : Setup} {executor : Executor Program}
    (hregistry : s.registry.Standard) (hvalid : s.config.validate = .ok ())
    (hpipeline : s.pipeline = .ok executor)
    (hdefault : Text.isBlankText s.config.dogus.defaultDogu = false) :
    ∃ d, s.LandsOn executor d := by
  obtain ⟨plan, hplan, rfl⟩ := pipeline_eq_ok hpipeline
  obtain ⟨d, hname, hd⟩ := exists_installed_default hregistry hvalid hplan hdefault
  have hnamed : ∀ m, Assoc.get? "default_dogu" ((selected s.config m).body.data.getD []) =
      some d.simpleName := by
    intro m
    rw [hname, get?_default_selected]
  have hwritten : ∀ {σ : Type} [Backend σ] (w : World σ), ∃ news,
      World.Since w ((writeConfiguration s.config).perform.run w).2 news ∧
      (∀ x ∈ news, ∀ o, x.call.configMap? = some o →
        Assoc.get? "default_dogu" (o.body.data.getD []) = some d.simpleName) ∧
      (((writeConfiguration s.config).perform.run w).1 = .ok () ↔
        ∃ x ∈ news, ∃ o, x.Stores o) := by
    intro σ _ w
    obtain ⟨news, hnews, hselected, hstored⟩ := writesSelection_storeSelection s.config w
    refine ⟨news, hnews, ?_, hstored⟩
    intro x hx o ho
    obtain ⟨m, rfl⟩ := hselected x hx o ho
    exact hnamed m
  refine ⟨d, ⟨plan, hplan, rfl, hname ▸ hd⟩, hwritten, ?_⟩
  intro σ _ w hrun
  obtain ⟨news, hnews⟩ := s.run.run_since w
  -- the selection and the installation are both steps of the run
  refine ⟨news, hnews, ?_, ?_⟩
  · have hstep : writeConfiguration s.config ∈ s.steps plan := by simp [steps]
    apply exists_recorded hplan hrun hnews hstep
    intro v v' hv
    obtain ⟨own, hown, hnames, hstored⟩ := hwritten v
    rw [hv] at hown hstored
    obtain ⟨x, hx, o, ho⟩ := hstored.mp rfl
    exact ⟨own, hown, x, hx, o, ho, hnames x hx o ho.configMap?⟩
  · have hmem : d ∈ plan.filterMap Plan.PlannedStep.installed? := by
      apply List.mem_of_mem_filter
      rw [hd]
      exact List.mem_singleton_self d
    have hstep : planned s.config.namespaceName s.settings (.installDogu d) ∈ s.steps plan := by
      rw [steps_eq, List.mem_append, List.mem_append]
      exact Or.inr (Or.inl (List.mem_map_of_mem (Plan.mem_installed_iff.mp hmem)))
    exact exists_recorded hplan hrun hnews hstep fun v v' hv => installed_of_planned hv

/-- A setup with blanks around its names, whose default dogu is given by another namespace. -/
def paddedSetup : Setup :=
  { casSetup with
    config :=
      { casSetup.config with
        dogus :=
          { defaultDogu := " premium/cas\t"
            install := ["\tofficial/cas ", " official/ldap:2.6.2-1"] } } }

/-- Its users land on the dogu of that simple name. -/
theorem default_installed_cas :
    ∃ executor, paddedSetup.pipeline = .ok executor ∧
      paddedSetup.config.validate = .ok () ∧ defaultDoguName paddedSetup.config = "cas" ∧
      ∃ d, paddedSetup.LandsOn executor d := by
  have hplan : paddedSetup.plannedSteps = .ok patchedPlan := by decide +kernel
  have hpipeline : paddedSetup.pipeline = .ok { steps := paddedSetup.steps patchedPlan } := by
    rw [pipeline, hplan]
    rfl
  have hvalid : paddedSetup.config.validate = .ok () := by decide +kernel
  exact ⟨_, hpipeline, hvalid, by decide +kernel,
    default_installed (.ofList _) hvalid hpipeline (by decide +kernel)⟩

end Setup

end EcosystemSetup

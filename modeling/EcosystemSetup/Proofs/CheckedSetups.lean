import EcosystemSetup.Proofs.AppliedDirectives
import EcosystemSetup.Proofs.HealthyRuns

/-!
# Setups with a checked configuration

The checks of a configuration and the stages that work with it look at the same facts, each in its own
code. They agree: once a configuration has been accepted, a plan can fail only for what the registry
answers or for a cycle among the dogus, and a patch only for what the cluster answers.
-/

namespace EcosystemSetup

open Cluster

/-! ## Plans -/

namespace Plan

open Dogu

/-- Why there is no plan for distinct requests: a dogu is not found, or dogus depend on each other. -/
inductive Planless : PlanError → Prop where
  | cycle (stuck : List String) : Planless (.cycle stuck)
  | registry (request : String) (cause : RegistryError) : Planless (.registry request cause)

theorem planless_of_lookUp {registry : Registry} {r : Request} {e : PlanError}
    (h : lookUp registry r = .error e) : Planless e := by
  unfold lookUp at h
  dsimp only at h
  split at h
  · simp at h
  · rw [Except.error.injEq] at h
    subst h
    exact .registry _ _

/-- Requests with new and distinct simple names fail to resolve only if one of them is not found. -/
theorem planless_of_resolveFrom {registry : Registry} {seen : List String} {requests : List Request}
    {e : PlanError} (hdistinct : (requests.map Request.simpleName).Nodup)
    (hnew : ∀ r ∈ requests, r.simpleName ∉ seen)
    (h : resolveFrom registry seen requests = .error e) : Planless e := by
  induction requests generalizing seen with
  | nil => simp [resolveFrom] at h
  | cons r rest ih =>
    rw [List.map_cons, List.nodup_cons] at hdistinct
    rw [resolveFrom, if_neg (hnew r List.mem_cons_self)] at h
    split at h
    · rename_i cause hlookUp
      rw [Except.error.injEq] at h
      exact h ▸ planless_of_lookUp hlookUp
    · split at h
      · rename_i cause hrest
        rw [Except.error.injEq] at h
        subst h
        refine ih hdistinct.2 ?_ hrest
        -- the names of the others are neither the first one nor among those seen before
        intro q hq hmem
        rcases List.mem_cons.mp hmem with heq | hmem
        · exact hdistinct.1 (heq ▸ List.mem_map_of_mem hq)
        · exact hnew q (List.mem_cons_of_mem _ hq) hmem
      · simp at h

theorem planless_of_generate {registry : Registry} {around : Surroundings} {requests : List Request}
    {e : PlanError} (hdistinct : (requests.map Request.simpleName).Nodup)
    (h : generate registry around requests = .error e) : Planless e := by
  unfold generate at h
  split at h
  · rename_i cause hresolve
    rw [Except.error.injEq] at h
    exact h ▸ planless_of_resolveFrom hdistinct (by simp) hresolve
  · split at h
    · rw [Except.error.injEq] at h
      exact h ▸ .cycle _
    · simp at h

end Plan

/-! ## Patches -/

namespace Patch

variable {σ : Type} [Backend σ] {ns : String} {d : Directive} {ds : List Directive}

/-- The failure of a directive for an answer on the record: its kind could not be looked up, or its
patch was not accepted. -/
inductive Rejected (ns : String) (d : Directive) (news : List Exchange) : Failure → Prop where
  | lookUp {time : Nat} {e : AccessError} (h : ⟨time, .resolve d.resource.kindName, .error e⟩ ∈ news) :
      Rejected ns d news (e.toFailure.context ("resolving " ++ d.resource.kindName.key))
  | patch {time : Nat} {kind : ServedKind} {operations : List Operation} {e : AccessError}
      (h : ⟨time, .patch kind (scope ns kind) d.resource.name operations, .error e⟩ ∈ news) :
      Rejected ns d news (e.toFailure.context ("patching " ++ d.resource.describe))

theorem Rejected.mono {news more : List Exchange} {f : Failure} (h : Rejected ns d news f)
    (hsub : news ⊆ more) : Rejected ns d more f := by
  cases h with
  | lookUp h => exact .lookUp (hsub h)
  | patch h => exact .patch (hsub h)

/-- A directive without a defect fails only if it is rejected. -/
theorem rejected_of_applyOne {w : World σ} {f : Failure} (sound : d.defect? = none)
    (h : ((applyOne ns d).run w).1 = .error f) :
    ∃ news, World.Since w ((applyOne ns d).run w).2 news ∧ Rejected ns d news f := by
  obtain ⟨operations, hoperations⟩ := Directive.exists_operations sound
  rw [applyOne_of_encoded sound hoperations, Program.run] at h ⊢
  have hlookUp := w.since_perform (.resolve d.resource.kindName)
  -- first the kind is looked up
  cases hfound : (w.perform (.resolve d.resource.kindName)).1 with
  | error e =>
    rw [hfound] at h hlookUp
    have hfailure : f = e.toFailure.context ("resolving " ++ d.resource.kindName.key) :=
      (Except.error.inj h).symm
    exact ⟨_, hlookUp, hfailure ▸ .lookUp (List.mem_singleton_self _)⟩
  | ok kind =>
    -- then the patch is sent
    rw [hfound] at h
    rw [afterLookUp, Program.run] at h ⊢
    have hsent := (w.perform (.resolve d.resource.kindName)).2.since_perform
      (.patch kind (scope ns kind) d.resource.name operations)
    cases hreply : ((w.perform (.resolve d.resource.kindName)).2.perform
        (.patch kind (scope ns kind) d.resource.name operations)).1 with
    | ok u =>
      rw [hreply] at h
      simp [Program.run, Except.mapError] at h
    | error e =>
      rw [hreply] at h hsent
      have hfailure : f = e.toFailure.context ("patching " ++ d.resource.describe) :=
        (Except.error.inj h).symm
      exact ⟨_, hlookUp.trans hsent,
        hfailure ▸ .patch (List.mem_append_right _ (List.mem_singleton_self _))⟩

/-- Every failure among directives without defects is that of one that is rejected. -/
theorem rejected_of_applyEach (ns : String) (w : World σ) (sound : ∀ d ∈ ds, d.defect? = none) :
    ∃ news, World.Since w ((applyEach ns ds).run w).2 news ∧
      ∀ f ∈ ((applyEach ns ds).run w).1, ∃ d ∈ ds, Rejected ns d news f := by
  induction ds generalizing w with
  | nil => exact ⟨[], w.since_refl, by simp [applyEach, Program.run, pure]⟩
  | cons d rest ih =>
    rw [run_applyEach_cons]
    obtain ⟨more, hmore, hothers⟩ :=
      ih ((applyOne ns d).run w).2 fun e he => sound e (List.mem_cons_of_mem _ he)
    -- what the others leave on the record comes behind what the first one leaves
    have hrest : ∀ own f, f ∈ ((applyEach ns rest).run ((applyOne ns d).run w).2).1 →
        ∃ e ∈ d :: rest, Rejected ns e (own ++ more) f := by
      intro own f hf
      obtain ⟨e, he, hrejected⟩ := hothers f hf
      exact ⟨e, List.mem_cons_of_mem _ he, hrejected.mono (List.subset_append_right _ _)⟩
    cases hresult : ((applyOne ns d).run w).1 with
    | ok u =>
      obtain ⟨own, hown⟩ := (applyOne ns d).run_since w
      exact ⟨own ++ more, hown.trans hmore, hrest own⟩
    | error failure =>
      obtain ⟨own, hown, hrejected⟩ := rejected_of_applyOne (sound d List.mem_cons_self) hresult
      refine ⟨own ++ more, hown.trans hmore, ?_⟩
      intro f hf
      rcases List.mem_cons.mp hf with rfl | hf
      · exact ⟨d, List.mem_cons_self, hrejected.mono (List.subset_append_left _ _)⟩
      · exact hrest own f hf

/-- The failure of a phase among directives without defects: it has at least one failure, and each of
them is that of a directive of the phase that was rejected. -/
structure OnlyRejected (ns : String) (ds : List Directive) (phase : Phase) (news : List Exchange)
    (e : PhaseError) : Prop where
  phase_eq : e.phase = phase
  failed : e.failures ≠ []
  rejected : ∀ f ∈ e.failures, ∃ d ∈ ofPhase phase ds, Rejected ns d news f

/-- A phase whose directives have no defects fails only if some of them are rejected. -/
theorem onlyRejected_of_apply {phase : Phase} {w : World σ} {e : PhaseError}
    (sound : ∀ d ∈ ds, d.defect? = none) (h : ((apply ns phase ds).run w).1 = .error e) :
    ∃ news, World.Since w ((apply ns phase ds).run w).2 news ∧
      OnlyRejected ns ds phase news e := by
  have hsound : ∀ d ∈ ofPhase phase ds, d.defect? = none :=
    fun d hd => sound d (List.mem_of_mem_filter hd)
  obtain ⟨news, hnews, hall⟩ := rejected_of_applyEach ns w hsound
  rw [run_apply] at h ⊢
  refine ⟨news, hnews, ?_⟩
  cases hfailures : ((applyEach ns (ofPhase phase ds)).run w).1 with
  | nil => simp [hfailures, phaseOutcome] at h
  | cons f rest =>
    rw [hfailures] at h hall
    rw [← Except.error.inj h]
    exact ⟨rfl, by simp, hall⟩

end Patch

/-! ## Setups -/

namespace Setup

/-- What a setup has no need to check again. -/
structure Checked (s : Setup) : Prop where
  /-- The step that checks the configuration succeeds. -/
  validated : (validateConfiguration s.config).perform = .done (.ok ())
  /-- There is a pipeline, unless the registry or the dogus' dependencies stand against it. -/
  planned : ∀ e, s.pipeline = .error e → ∃ cause, e = .plan cause ∧ Plan.Planless cause
  /-- Every directive passes its checks and can be encoded. -/
  encoded : ∀ d ∈ s.config.patches, d.defect? = none ∧ ∃ operations, d.operations? = some operations
  /-- On any cluster, a step that applies patches fails only if the cluster rejects some of them. -/
  patched : ∀ {σ : Type} [Backend σ] (phase : Phase) (w : World σ) (f : Failure),
    ((patchPhase s.config phase).perform.run w).1 = .error f →
    ∃ e news, f = Patch.PhaseError.toFailure e ∧
      World.Since w ((patchPhase s.config phase).perform.run w).2 news ∧
      Patch.OnlyRejected s.config.namespaceName s.config.patches phase news e

/-- A setup whose configuration is accepted fails later on only for what its checks cannot know. -/
theorem checked_of_validate (s : Setup) (h : s.config.validate = .ok ()) : s.Checked := by
  obtain ⟨requests, hvalid⟩ := Config.validate_eq_ok.mp h
  refine ⟨?_, ?_, ?_, ?_⟩
  · unfold validateConfiguration
    rw [h]
    rfl
  · intro e he
    unfold pipeline plannedSteps at he
    rw [hvalid.requested] at he
    dsimp only at he
    cases hgenerate : Plan.generate s.registry
        ⟨s.config.componentNames, s.config.componentNames⟩ requests with
    | ok plan => simp [hgenerate, Except.mapError, Except.map] at he
    | error cause =>
      rw [hgenerate] at he
      exact ⟨cause, (Except.error.inj he).symm, Plan.planless_of_generate hvalid.distinct hgenerate⟩
  · intro d hd
    exact ⟨hvalid.patches d hd, Patch.Directive.exists_operations (hvalid.patches d hd)⟩
  · intro σ _ phase w f hf
    rw [run_patchPhase] at hf ⊢
    cases hanswer : ((Patch.apply s.config.namespaceName phase s.config.patches).run w).1 with
    | ok u => simp [hanswer, Except.mapError] at hf
    | error e =>
      rw [hanswer] at hf
      obtain ⟨news, hnews, honly⟩ := Patch.onlyRejected_of_apply hvalid.patches hanswer
      exact ⟨e, news, (Except.error.inj hf).symm, hnews, honly⟩

/-- The setup with patches, where the registry knows no dogus. -/
def unlistedSetup : Setup :=
  { patchedSetup with registry := .ofList [] }

/-- Its configuration is accepted, and the registry stands against the plan. -/
theorem checked_unlistedSetup :
    unlistedSetup.config.validate = .ok () ∧
      unlistedSetup.plannedSteps =
        .error (.plan (.registry "official/cas" (.notFound "official/cas"))) ∧
      unlistedSetup.Checked := by
  have hvalid : unlistedSetup.config.validate = .ok () := by decide +kernel
  exact ⟨hvalid, by decide +kernel, checked_of_validate unlistedSetup hvalid⟩

end Setup

end EcosystemSetup

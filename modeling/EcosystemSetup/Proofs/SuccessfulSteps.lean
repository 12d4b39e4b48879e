import EcosystemSetup.Proofs.Deadlines
import EcosystemSetup.Proofs.Observations
import EcosystemSetup.Proofs.RecordedState
import EcosystemSetup.Proofs.ValidConfigurations
import EcosystemSetup.Proofs.WritingSteps

/-!
# Steps that succeed

On a calm cluster a setup meets no error but its own. A creation always succeeds, as it counts an object
that is there as created; a wait succeeds if its target is ready at the first look, however short its
timing; the selection and the state are always written; and a patch succeeds if its kind is served and its
resource is found. All of it leaves the objects that were there, except for the two config maps that a
setup rewrites.
-/

namespace EcosystemSetup

open Cluster

/-! ## Calm worlds -/

/-- After a read the objects are as they were. -/
theorem World.object?_get {c : Collection} (w : World Sandbox) (d : Collection)
    (other name : String) :
    ((w.perform (.get d other)).2.backend.shelf c).store.object? name =
      (w.backend.shelf c).store.object? name :=
  (Sandbox.unchanged_get other).object? c name

/-- A calm cluster on which nothing is ever cancelled. -/
structure World.Calm (w : World Sandbox) : Prop where
  cluster : w.backend.Calm
  filed : w.backend.Filed
  undisturbed : w.Undisturbed

namespace World.Calm

variable {w : World Sandbox}

theorem perform (h : w.Calm) (k : Call) : (w.perform k).2.Calm where
  cluster := h.cluster.perform k
  filed := h.filed.perform k
  undisturbed := h.undisturbed

/-- A look changes nothing. -/
theorem looked (h : w.Calm) : w.looked = w :=
  World.looked_of_unstopped h.undisturbed.unstopped

theorem advanceTo (h : w.Calm) (time : Nat) : (w.advanceTo time).Calm :=
  ⟨h.cluster, h.filed, h.undisturbed⟩

theorem faultless (h : w.Calm) : w.backend.Faultless :=
  ⟨h.filed, fun c => (h.cluster c).faultless⟩

/-! ### Answers -/

variable {c : Collection}

theorem get (h : w.Calm) (name : String) :
    (w.perform (.get c name)).1 = (w.backend.shelf c).store.lookUp name :=
  h.faultless.answer_get name

theorem list (h : w.Calm) (selector : String) :
    (w.perform (.list c selector)).1 = .ok ((w.backend.shelf c).store.snapshot selector) :=
  h.cluster.list selector

/-- A creation under a free name succeeds. -/
theorem create (h : w.Calm) {o : Object c}
    (hfree : (w.backend.shelf c).store.object? o.name = none) :
    (w.perform (.create c o)).1 = .ok ((w.backend.shelf c).store.stamped o) :=
  (h.faultless.create_free hfree).answer

/-- An update at the version of the object that is held succeeds. -/
theorem update (h : w.Calm) {o held : Object c}
    (hheld : (w.backend.shelf c).store.object? o.name = some held)
    (hversion : o.metadata.resourceVersion = held.metadata.resourceVersion) :
    (w.perform (.update c o)).1 = .ok ((w.backend.shelf c).store.stamped o) :=
  (h.faultless.update_held hheld hversion).answer

end World.Calm

/-! ## Waits -/

namespace Wait

variable {g : Goal}

/-- A wait that its first answer ends makes one call and takes no time, whatever its timing. -/
theorem run_of_finish {σ : Type} [Backend σ] {w : World σ} {m : Move} {outcome : Outcome}
    (hw : w.Unstopped) (hmove : g.move (.reading 1) = m)
    (hprompt : Backend.suspends m.call w.backend = false)
    (hfinish : m.next (w.perform m.call).1 = .finish outcome) :
    run g w = (outcome, (w.perform m.call).2) := by
  subst hmove
  unfold run
  apply takeTurns_of_ended hw.1
  rw [World.looked_of_unstopped hw]
  -- the turn has calls to spare, and goes on at once to see that the wait has ended
  show drive g (2 * (g.settings.maxReadAttempts + Backend.scripted w.backend) + 3 + 1)
    (.ready (.reading 1)) w = _
  rw [drive, hprompt, hfinish, Position.ofNext, if_neg (by simp), drive]

theorem Goal.afterFound_of_ready {items : List (Object g.collection)} {version : String}
    (h : ∃ o ∈ items, g.predicate o = .ready) :
    g.afterFound items version = .finish (.ok ()) := by
  unfold Goal.afterFound
  rw [Goal.judge_of_ready h]

/-- A wait for any object that a selector matches succeeds if one of them is ready at the first look. -/
theorem run_of_listed {w : World Sandbox} (hw : w.Calm) (hname : g.target.name = none)
    (h : ∃ o ∈ ((w.backend.shelf g.collection).store.snapshot g.target.selector).items,
      g.predicate o = .ready) :
    (run g w).1 = .ok () := by
  have hreply : (w.perform (.list g.collection g.target.selector)).1 =
      .ok ((w.backend.shelf g.collection).store.snapshot g.target.selector) :=
    hw.list g.target.selector
  have hfinish : g.afterList 1 (w.perform (.list g.collection g.target.selector)).1 =
      .finish (.ok ()) := by
    rw [hreply]
    exact Goal.afterFound_of_ready h
  rw [run_of_finish hw.undisturbed.unstopped (Goal.move_reading_of_nameless hname 1)
    (hw.cluster.not_suspends _) hfinish]

/-- A wait for an object of a name succeeds if the object is there and ready at the first look. -/
theorem run_of_named {w : World Sandbox} (hw : w.Calm) {name : String}
    (hname : g.target.name = some name)
    (h : ∃ o, (w.backend.shelf g.collection).store.object? name = some o ∧
      g.predicate o = .ready) :
    (run g w).1 = .ok () := by
  obtain ⟨o, ho, hready⟩ := h
  have hreply : (w.perform (.get g.collection name)).1 = .ok o := by
    rw [hw.get, Store.lookUp, ho]
  have hfinish : g.afterGet 1 (w.perform (.get g.collection name)).1 = .finish (.ok ()) := by
    rw [hreply]
    exact Goal.afterFound_of_ready ⟨o, List.mem_singleton_self o, hready⟩
  rw [run_of_finish hw.undisturbed.unstopped (Goal.move_reading_of_name hname 1)
    (hw.cluster.not_suspends _) hfinish]

end Wait

/-! ## What a setup leaves -/

namespace Setup

/-- The objects that a setup rewrites: its state map, and the config map that dogus read. -/
def Rewritten (c : Collection) (name : String) : Prop :=
  c = .configMaps ∧ (name = StateStore.mapName ∨ name = configMapName)

/-- A calm world that has come from an earlier one: all objects that were there are as they were, except
for those that a setup rewrites, and patches are answered as they were. -/
structure Retained (start w : World Sandbox) : Prop where
  calm : w.Calm
  objects : ∀ {c : Collection} {name : String} {o : Object c}, ¬ Rewritten c name →
    (start.backend.shelf c).store.object? name = some o →
    (w.backend.shelf c).store.object? name = some o
  kinds : w.backend.hub.kinds = start.backend.hub.kinds
  failing : w.backend.hub.failing = start.backend.hub.failing

/-- The rule of a run of a setup: it updates only what it rewrites. -/
def retainRule : Rule where
  allows k := ∀ (c : Collection) (o : Object c), k = .update c o → Rewritten c o.name
  expects := StateStore.Honest

namespace Retained

variable {start u w : World Sandbox}

theorem refl (h : w.Calm) : Retained w w :=
  ⟨h, fun _ ho => ho, rfl, rfl⟩

theorem trans (h₁ : Retained start u) (h₂ : Retained u w) : Retained start w where
  calm := h₂.calm
  objects hname ho := h₂.objects hname (h₁.objects hname ho)
  kinds := h₂.kinds.trans h₁.kinds
  failing := h₂.failing.trans h₁.failing

theorem perform (h : Retained start w) {k : Call} (hk : retainRule.allows k) :
    Retained start (w.perform k).2 := by
  obtain ⟨hkinds, hfailing⟩ := w.backend.hub_perform k
  refine ⟨h.calm.perform k, ?_, hkinds.trans h.kinds, hfailing.trans h.failing⟩
  intro c name o hname ho
  apply Sandbox.object?_perform_of_some (h.objects hname ho)
  intro q hq heq
  exact hname (heq ▸ hk c q hq)

end Retained

/-- Whatever keeps to the rule retains what was there. -/
theorem keeps_retained (start : World Sandbox) : retainRule.Keeps (Retained start) where
  expects hw _ := StateStore.honest_perform hw.calm.filed _
  perform hw hk := hw.perform hk
  look := by
    intro w hw
    rwa [hw.calm.looked]
  advance time hw := ⟨hw.calm.advanceTo time, hw.objects, hw.kinds, hw.failing⟩

theorem permitsSteps_retainRule : retainRule.PermitsSteps where
  create _ _ _ := by intro d q; simp
  get _ _ := by intro d q; simp
  list _ _ := by intro d q; simp
  watch _ _ _ := by intro d q; simp
  resolve _ := by intro d q; simp
  patch _ _ _ _ := by intro d q; simp
  readSelection := by intro d q; simp
  freshSelection _ _ := by intro d q; simp
  mergedSelection m o hm ho := by
    intro d q hq
    cases hq
    have hname : m.name = configMapName := hm
    exact ⟨rfl, Or.inr (ho.trans hname)⟩

/-- Every step of a setup keeps to the rule. -/
theorem steps_obey_retainRule (s : Setup) (plan : List Plan.PlannedStep) :
    ∀ step ∈ s.steps plan, step.perform.Obeys retainRule :=
  obeys_steps permitsSteps_retainRule (fun _ => by intro d q; simp) s plan

end Setup

/-! ## The recorded state -/

namespace StateStore

variable {w : World Sandbox}

/-- The next read of a config map finds no fault and no error in its way. -/
structure Quiet (s : Sandbox) : Prop where
  fault : Sandbox.nextFault (s.shelf .configMaps).faults.get = none
  reads : (s.shelf .configMaps).store.readErrors = []

/-- A read of the state map that nothing disturbs gives what is there. -/
theorem run_readMap_quiet (hw : Quiet w.backend) :
    readMap.run w = (.ok ((w.backend.shelf .configMaps).store.object? mapName),
      (w.perform (.get .configMaps mapName)).2) := by
  have hreply : (w.perform (.get .configMaps mapName)).1 =
      (w.backend.shelf .configMaps).store.lookUp mapName := by
    show (Sandbox.perform (.get .configMaps mapName) w.backend).1 = _
    rw [Sandbox.perform, Sandbox.faulty]
    dsimp only
    rw [hw.fault]
    dsimp only
    rw [Store.get, Store.countRead_of_nil hw.reads]
  rw [run_readMap, hreply]
  unfold Store.lookUp
  cases (w.backend.shelf .configMaps).store.object? mapName with
  | some m => rfl
  | none => rfl

/-- A look that nothing disturbs gives what is recorded. -/
theorem get_quiet (hw : Quiet w.backend) : (get.run w).1 = recorded w.backend := by
  unfold get recorded
  rw [Program.run_bind_of_eq (run_readMap_quiet hw)]
  cases (w.backend.shelf .configMaps).store.object? mapName with
  | some m => rfl
  | none => rfl

theorem quiet_of_calm (hw : w.Calm) : Quiet w.backend where
  fault := (hw.cluster .configMaps).get.nextFault
  reads := (hw.cluster .configMaps).reads

/-- Reading the state map gives what is there. -/
theorem run_readMap_calm (hw : w.Calm) :
    readMap.run w = (.ok ((w.backend.shelf .configMaps).store.object? mapName),
      (w.perform (.get .configMaps mapName)).2) :=
  run_readMap_quiet (quiet_of_calm hw)

/-- Writing the state succeeds if the map is the one that is there, or there is none. -/
theorem writeMap_succeeds (hw : w.Calm) {current : Option (Object .configMaps)}
    (hcurrent : (w.backend.shelf .configMaps).store.object? mapName = current) (state : RunState) :
    ((writeMap current state).run w).1 = .ok () ∧
      Setup.Retained w ((writeMap current state).run w).2 := by
  cases current with
  | none =>
    rw [run_writeMap_none]
    refine ⟨?_, (Setup.Retained.refl hw).perform (by intro d q; simp)⟩
    rw [hw.create (o := fresh state w.timeText) hcurrent]
    rfl
  | some m =>
    -- the map is written back under its name, at the version at which it was read
    have hname : m.name = mapName := (hw.filed .configMaps).name_eq hcurrent
    have hheld : (w.backend.shelf .configMaps).store.object?
        (withState m state w.timeText).name = some m := by
      show (w.backend.shelf .configMaps).store.object? m.name = some m
      rw [hname]
      exact hcurrent
    have hallowed : Setup.retainRule.allows
        (.update .configMaps (withState m state w.timeText)) := by
      intro d q hq
      cases hq
      exact ⟨rfl, Or.inl hname⟩
    rw [run_writeMap_some]
    refine ⟨?_, (Setup.Retained.refl hw).perform hallowed⟩
    rw [hw.update hheld rfl]
    rfl

/-- After a read of the map, it is written as it was read. -/
theorem write_after_read (hw : w.Calm) (state : RunState) :
    ∃ v, (writeMap ((w.backend.shelf .configMaps).store.object? mapName) state).run
        (w.perform (.get .configMaps mapName)).2 = (.ok (), v) ∧ Setup.Retained w v := by
  have hread : Setup.Retained w (w.perform (.get .configMaps mapName)).2 :=
    (Setup.Retained.refl hw).perform (by intro d q; simp)
  obtain ⟨hok, hwritten⟩ :=
    writeMap_succeeds hread.calm (World.object?_get w .configMaps mapName mapName) state
  exact ⟨_, Prod.ext hok rfl, hread.trans hwritten⟩

/-- Looking at the state gives what is recorded. -/
theorem get_succeeds (hw : w.Calm) :
    (get.run w).1 = recorded w.backend ∧ Setup.Retained w (get.run w).2 := by
  have hread : Setup.Retained w (w.perform (.get .configMaps mapName)).2 :=
    (Setup.Retained.refl hw).perform (by intro d q; simp)
  unfold get recorded
  rw [Program.run_bind_of_eq (run_readMap_calm hw)]
  cases (w.backend.shelf .configMaps).store.object? mapName with
  | some m => exact ⟨rfl, hread⟩
  | none => exact ⟨rfl, hread⟩

/-- A claim succeeds if no state is recorded. -/
theorem claim_succeeds (hw : w.Calm) (hnone : recorded w.backend = .ok none) :
    ∃ v, claim.run w = (.ok (), v) ∧ Setup.Retained w v := by
  obtain ⟨v, hwrite, hv⟩ := write_after_read hw .installing
  refine ⟨v, ?_, hv⟩
  unfold recorded at hnone
  unfold claim
  rw [Program.run_bind_of_eq (run_readMap_calm hw)]
  dsimp only
  rw [hnone]
  dsimp only
  rw [Program.run_bind_of_eq hwrite]
  rfl

/-- A state is always recorded. -/
theorem set_succeeds (hw : w.Calm) (state : RunState) :
    ∃ v, (set state).run w = (.ok (), v) ∧ Setup.Retained w v := by
  obtain ⟨v, hwrite, hv⟩ := write_after_read hw state
  refine ⟨v, ?_, hv⟩
  unfold set
  rw [Program.run_bind_of_eq (run_readMap_calm hw)]
  dsimp only
  rw [Program.run_bind_of_eq hwrite]
  rfl

end StateStore

/-! ## Patches -/

namespace Patch

/-- A directive that can be applied: it has no defect, its kind is served, and its resource is found. -/
structure Applicable (hub : Hub) (d : Directive) : Prop where
  sound : d.defect? = none
  served : ∃ namespaced, Assoc.get? d.resource.kindName.key hub.kinds = some namespaced
  found : d.resource.name ∉ hub.failing

theorem Applicable.congr {hub later : Hub} {d : Directive} (h : Applicable hub d)
    (hkinds : later.kinds = hub.kinds) (hfailing : later.failing = hub.failing) :
    Applicable later d :=
  ⟨h.sound, hkinds ▸ h.served, hfailing ▸ h.found⟩

/-- A directive that can be applied is applied. -/
theorem applyOne_succeeds (ns : String) {d : Directive} {w : World Sandbox}
    (h : Applicable w.backend.hub d) : ((applyOne ns d).run w).1 = .ok () := by
  obtain ⟨operations, hoperations⟩ := Directive.exists_operations h.sound
  obtain ⟨namespaced, hserved⟩ := h.served
  unfold applyOne
  rw [h.sound]
  dsimp only
  rw [hoperations]
  -- the kind is resolved, and then the patch is sent
  have hkind : (w.perform (.resolve d.resource.kindName)).1 =
      .ok ⟨d.resource.kindName, d.resource.kindName.apiVersion,
        Hub.pluralOf d.resource.kindName.kind, namespaced⟩ := by
    show w.backend.hub.resolve d.resource.kindName = _
    rw [Hub.resolve, hserved]
  unfold send
  rw [Program.run_ask_bind hkind]
  dsimp only
  generalize scope ns _ = scope
  have hpatch : ∀ kind, ((w.perform (.resolve d.resource.kindName)).2.perform
      (.patch kind scope d.resource.name operations)).1 = .ok () := by
    intro kind
    show (w.backend.hub.patch kind scope d.resource.name operations).1 = .ok ()
    rw [Hub.patch, if_neg h.found]
  rw [Program.run_ask_bind (hpatch _)]
  rfl

/-- Directives that can be applied are applied without a failure. -/
theorem applyEach_succeeds (ns : String) {ds : List Directive} {w : World Sandbox} (hw : w.Calm)
    (h : ∀ d ∈ ds, Applicable w.backend.hub d) : ((applyEach ns ds).run w).1 = [] := by
  induction ds generalizing w with
  | nil => rfl
  | cons d rest ih =>
    have hok := applyOne_succeeds ns (h d List.mem_cons_self)
    have hkept : Setup.Retained w ((applyOne ns d).run w).2 :=
      (Setup.obeys_applyOne Setup.permitsSteps_retainRule.toPermitsPatches ns d).keeps
        (Setup.keeps_retained w) (.refl hw)
    rw [applyEach, Program.run_bind_of_eq (Prod.ext hok rfl)]
    apply ih hkept.calm
    intro e he
    exact (h e (List.mem_cons_of_mem _ he)).congr hkept.kinds hkept.failing

end Patch

/-! ## Steps -/

namespace Setup

variable {w : World Sandbox}

/-- A creation succeeds, and then there is an object of the name. -/
theorem createOnce_succeeds (hw : w.Calm) {c : Collection} (o : Object c) (what : String) :
    ((createOnce o what).run w).1 = .ok () ∧
      ∃ q, (((createOnce o what).run w).2.backend.shelf c).store.object? o.name = some q :=
  ⟨(writes_createOnce hw.faultless o what).succeeds, _, object?_createOnce hw.faultless o what⟩

theorem reach_succeeds {goal : Wait.Goal} (h : (Wait.run goal w).1 = .ok ()) :
    ((reach goal).run w).1 = .ok () := by
  rw [run_reach, h]
  rfl

/-- The selection is always stored. -/
theorem storeSelection_succeeds (hw : w.Calm) (c : Config) :
    ((storeSelection c).run w).1 = .ok () :=
  (puts_storeSelection hw.faultless c).succeeds

/-- The patches of a phase are applied if all directives can be. -/
theorem patchPhase_succeeds (hw : w.Calm) (c : Config) (phase : Phase)
    (h : ∀ d ∈ c.patches, Patch.Applicable w.backend.hub d) :
    ((patchPhase c phase).perform.run w).1 = .ok () := by
  have hnone : ((Patch.applyEach c.namespaceName (Patch.ofPhase phase c.patches)).run w).1 = [] := by
    apply Patch.applyEach_succeeds _ hw
    intro d hd
    exact h d (List.mem_of_mem_filter hd)
  have hrun : ((patchPhase c phase).perform.run w).1 =
      (Patch.phaseOutcome phase
        ((Patch.applyEach c.namespaceName (Patch.ofPhase phase c.patches)).run w).1).mapError
          Patch.PhaseError.toFailure := by
    show (Program.run (Program.bind (Program.bind _ _) _) w).1 = _
    rw [Program.run_bind, Program.run_bind]
    rfl
  rw [hrun, hnone]
  rfl

end Setup

end EcosystemSetup

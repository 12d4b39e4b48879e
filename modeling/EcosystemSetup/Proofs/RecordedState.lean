import EcosystemSetup.Proofs.StepCalls
import EcosystemSetup.Proofs.StepRuns
import EcosystemSetup.Proofs.StoredObjects

/-!
# The recorded state

The recorded state of a cluster in memory is what its state map says. Reading it changes no object; a
claim or a record that succeeds leaves exactly the state that it writes, and one that fails changes
nothing. The steps of a setup write other objects, so they leave the recorded state as it is.
-/

namespace EcosystemSetup.StateStore

open Cluster

/-! ## The state of a map -/

/-- What the config maps of a sandbox say of the state. -/
def recorded (s : Sandbox) : Except StateError (Option RunState) :=
  stateOfCurrent ((s.shelf .configMaps).store.object? mapName)

/-- A map in which the name of a state stands has that state. -/
theorem stateOf_of_get? {m : Object .configMaps} {state : RunState}
    (h : Assoc.get? stateKey (m.body.data.getD []) = some state.name) :
    stateOf m = .ok (some state) := by
  unfold stateOf
  rw [h]
  cases state <;> rfl

@[simp] theorem stateOf_withState (m : Object .configMaps) (state : RunState) (time : String) :
    stateOf (withState m state time) = .ok (some state) :=
  stateOf_of_get? (Assoc.get?_set_self _ _ _)

@[simp] theorem stateOf_fresh (state : RunState) (time : String) :
    stateOf (fresh state time) = .ok (some state) :=
  stateOf_of_get? rfl

@[simp] theorem stateOf_stamped (s : Store .configMaps) (m : Object .configMaps) :
    stateOf (s.stamped m) = stateOf m := rfl

theorem recorded_eq_of_unchanged {s t : Sandbox} (h : Sandbox.Unchanged s t) :
    recorded t = recorded s := by
  unfold recorded
  rw [h.object?]

/-! ## Reading and writing the map -/

/-- What the answer to a read means: there may be no map. -/
def mapOfAnswer : Except AccessError (Object .configMaps) →
    Except StateError (Option (Object .configMaps))
  | .ok m => .ok (some m)
  | .error e => if e.isNotFound then .ok none else .error (.read e)

/-- Reading the map is one call. -/
theorem readMap_eq :
    readMap = .call (.get .configMaps mapName) fun reply => .done (mapOfAnswer reply) := by
  change Program.call _ _ = _
  congr 1
  funext reply
  cases reply with
  | ok m => rfl
  | error e =>
    by_cases he : e.isNotFound = true
    · simp [mapOfAnswer, he, Program.bind, pure]
    · simp [mapOfAnswer, he, Program.bind, pure]

theorem run_readMap {σ : Type} [Backend σ] (w : World σ) :
    readMap.run w = (mapOfAnswer (w.perform (.get .configMaps mapName)).1,
      (w.perform (.get .configMaps mapName)).2) := by
  rw [readMap_eq]
  rfl

/-- What reading the map gives on a filed sandbox: the map of that name, or none. -/
theorem readMap_sandbox {w v : World Sandbox} (hw : w.backend.Filed)
    {answer : Except StateError (Option (Object .configMaps))} (h : readMap.run w = (answer, v)) :
    Sandbox.Unchanged w.backend v.backend ∧ v.backend.Filed ∧
      ∀ m, answer = .ok (some m) →
        (w.backend.shelf .configMaps).store.object? mapName = some m ∧ m.name = mapName := by
  rw [run_readMap, Prod.mk.injEq] at h
  obtain ⟨rfl, rfl⟩ := h
  refine ⟨Sandbox.unchanged_get mapName, hw.perform _, ?_⟩
  intro m hm
  -- an answer that there is no map is no map
  refine hw.name_of_get ?_
  unfold mapOfAnswer at hm
  split at hm
  · rename_i q hq
    simp only [Except.ok.injEq, Option.some.injEq] at hm
    exact hm ▸ hq
  · split at hm <;> simp at hm

/-- A write of a map with a state that succeeds records the state. -/
theorem recorded_of_written {s t : Sandbox} {o q : Object .configMaps} {state : RunState}
    {reply : Except AccessError (Object .configMaps)}
    (hwritten : Store.Written (s.shelf .configMaps).store o
      (reply, (t.shelf .configMaps).store))
    (hname : o.name = mapName) (hstate : stateOf o = .ok (some state)) (hok : reply = .ok q) :
    recorded t = .ok (some state) := by
  have hself := hwritten.object?_self hok
  rw [hname] at hself
  unfold recorded
  rw [hself, stateOfCurrent, stateOf_stamped, hstate]

/-- Without a map a new one is created. -/
theorem run_writeMap_none {σ : Type} [Backend σ] (state : RunState) (w : World σ) :
    (writeMap none state).run w =
      ((w.perform (.create .configMaps (fresh state w.timeText))).1.map fun _ => (),
        (w.perform (.create .configMaps (fresh state w.timeText))).2) := rfl

/-- A map that was read is updated. -/
theorem run_writeMap_some {σ : Type} [Backend σ] (m : Object .configMaps) (state : RunState)
    (w : World σ) :
    (writeMap (some m) state).run w =
      ((w.perform (.update .configMaps (withState m state w.timeText))).1.map fun _ => (),
        (w.perform (.update .configMaps (withState m state w.timeText))).2) := rfl

/-- Writing the state changes nothing, with an error, or it records the state; a new map is written
only where there is none. -/
theorem writeMap_sandbox {w v : World Sandbox} (hw : w.backend.Filed)
    {current : Option (Object .configMaps)} (hcurrent : ∀ m, current = some m → m.name = mapName)
    {state : RunState} {answer : Except AccessError Unit}
    (h : (writeMap current state).run w = (answer, v)) :
    v.backend.Filed ∧
      ((∃ e, answer = .error e) ∧ Sandbox.Unchanged w.backend v.backend ∨
        answer = .ok () ∧ recorded v.backend = .ok (some state) ∧
          (current = none → (w.backend.shelf .configMaps).store.object? mapName = none)) := by
  cases current with
  | none =>
    rw [run_writeMap_none, Prod.mk.injEq] at h
    obtain ⟨rfl, rfl⟩ := h
    refine ⟨hw.perform _, ?_⟩
    cases hreply : (w.perform (.create .configMaps (fresh state w.timeText))).1 with
    | error e => exact Or.inl ⟨⟨e, rfl⟩, Sandbox.unchanged_of_create hreply⟩
    | ok q =>
      refine Or.inr ⟨rfl, ?_, fun _ => Sandbox.free_of_create hreply⟩
      exact recorded_of_written (w.backend.written_create _) rfl (stateOf_fresh _ _) hreply
  | some m =>
    rw [run_writeMap_some, Prod.mk.injEq] at h
    obtain ⟨rfl, rfl⟩ := h
    refine ⟨hw.perform _, ?_⟩
    cases hreply : (w.perform (.update .configMaps (withState m state w.timeText))).1 with
    | error e => exact Or.inl ⟨⟨e, rfl⟩, Sandbox.unchanged_of_update hreply⟩
    | ok q =>
      refine Or.inr ⟨rfl, ?_, by simp⟩
      exact recorded_of_written (w.backend.written_update _) (hcurrent m rfl)
        (stateOf_withState _ _ _) hreply

/-! ## Looking, claiming and recording -/

/-- Looking at the state changes no object. -/
theorem get_sandbox {w : World Sandbox} (hw : w.backend.Filed) :
    Sandbox.Unchanged w.backend (get.run w).2.backend ∧ (get.run w).2.backend.Filed := by
  cases hread : readMap.run w with
  | mk answer v =>
  obtain ⟨hunchanged, hfiled, _⟩ := readMap_sandbox hw hread
  unfold get
  rw [Program.run_bind_of_eq hread]
  split <;> exact ⟨hunchanged, hfiled⟩

/-- A claim fails on a map that it cannot read or on a state that stands there, and otherwise it ends as
its write does. -/
theorem run_claim_cases {σ : Type} [Backend σ] (w : World σ) :
    (∃ e u, readMap.run w = (.error e, u) ∧ claim.run w = (.error e, u)) ∨
      ∃ current u, readMap.run w = (.ok current, u) ∧
        ((∃ e, stateOfCurrent current = .error e ∧ claim.run w = (.error e, u)) ∨
          (∃ found, stateOfCurrent current = .ok (some found) ∧
            claim.run w = (.error (.taken (some found)), u)) ∨
          stateOfCurrent current = .ok none ∧ ∃ answer v,
            (writeMap current .installing).run u = (answer, v) ∧
              claim.run w = (answer.mapError claimError, v)) := by
  unfold claim
  rcases hread : readMap.run w with ⟨found, u⟩
  rw [Program.run_bind_of_eq hread]
  cases found with
  | error e => exact Or.inl ⟨e, u, rfl, rfl⟩
  | ok current =>
  refine Or.inr ⟨current, u, rfl, ?_⟩
  dsimp only
  cases stateOfCurrent current with
  | error e => exact Or.inl ⟨e, rfl, rfl⟩
  | ok state =>
  cases state with
  | some found => exact Or.inr (Or.inl ⟨found, rfl, rfl⟩)
  | none =>
    refine Or.inr (Or.inr ⟨rfl, ?_⟩)
    rcases hwrite : (writeMap current .installing).run u with ⟨answer, v⟩
    refine ⟨answer, v, rfl, ?_⟩
    dsimp only
    rw [Program.run_bind_of_eq hwrite]
    cases answer with
    | ok _ => rfl
    | error e => rfl

/-- A record fails on a map that it cannot read, and otherwise it ends as its write does. -/
theorem run_set_cases {σ : Type} [Backend σ] (state : RunState) (w : World σ) :
    (∃ e u, readMap.run w = (.error e, u) ∧ (set state).run w = (.error e, u)) ∨
      ∃ current u answer v, readMap.run w = (.ok current, u) ∧
        (writeMap current state).run u = (answer, v) ∧
          (set state).run w = (answer.mapError (.write state), v) := by
  unfold set
  rcases hread : readMap.run w with ⟨found, u⟩
  rw [Program.run_bind_of_eq hread]
  cases found with
  | error e => exact Or.inl ⟨e, u, rfl, rfl⟩
  | ok current =>
  rcases hwrite : (writeMap current state).run u with ⟨answer, v⟩
  refine Or.inr ⟨current, u, answer, v, rfl, hwrite, ?_⟩
  dsimp only
  rw [Program.run_bind_of_eq hwrite]
  cases answer with
  | ok _ => rfl
  | error e => rfl

/-- A claim that succeeds finds no state and leaves `installing`; one that fails changes nothing. -/
theorem claim_sandbox {w v : World Sandbox} (hw : w.backend.Filed)
    {answer : Except StateError Unit} (h : claim.run w = (answer, v)) :
    v.backend.Filed ∧
      ((∃ e, answer = .error e) ∧ Sandbox.Unchanged w.backend v.backend ∨
        answer = .ok () ∧ recorded w.backend = .ok none ∧
          recorded v.backend = .ok (some .installing)) := by
  rcases run_claim_cases w with ⟨e, u, hread, hclaim⟩ | ⟨current, u, hread, hcases⟩
  · obtain ⟨hunchanged, hu, -⟩ := readMap_sandbox hw hread
    obtain ⟨rfl, rfl⟩ := Prod.mk.inj (h.symm.trans hclaim)
    exact ⟨hu, Or.inl ⟨⟨e, rfl⟩, hunchanged⟩⟩
  obtain ⟨hunchanged, hu, hfound⟩ := readMap_sandbox hw hread
  have hcurrent : ∀ m, current = some m → m.name = mapName := by
    rintro m rfl
    exact (hfound m rfl).2
  rcases hcases with ⟨e, -, hclaim⟩ | ⟨found, -, hclaim⟩ | ⟨hstate, written, x, hwrite, hclaim⟩
  · obtain ⟨rfl, rfl⟩ := Prod.mk.inj (h.symm.trans hclaim)
    exact ⟨hu, Or.inl ⟨⟨e, rfl⟩, hunchanged⟩⟩
  · obtain ⟨rfl, rfl⟩ := Prod.mk.inj (h.symm.trans hclaim)
    exact ⟨hu, Or.inl ⟨⟨_, rfl⟩, hunchanged⟩⟩
  obtain ⟨rfl, rfl⟩ := Prod.mk.inj (h.symm.trans hclaim)
  obtain ⟨hx, ⟨⟨e, rfl⟩, hkept⟩ | ⟨rfl, hrecorded, hfree⟩⟩ := writeMap_sandbox hu hcurrent hwrite
  · exact ⟨hx, Or.inl ⟨⟨_, rfl⟩, hunchanged.trans hkept⟩⟩
  · refine ⟨hx, Or.inr ⟨rfl, ?_, hrecorded⟩⟩
    -- the map that was read, or none, is what the sandbox held
    rw [← recorded_eq_of_unchanged hunchanged]
    unfold recorded
    cases current with
    | none => rw [hfree rfl, stateOfCurrent]
    | some m => rw [hunchanged.object?, (hfound m rfl).1, hstate]

/-- A record that succeeds leaves the state that it writes; one that fails changes nothing. -/
theorem set_sandbox {w v : World Sandbox} (hw : w.backend.Filed) {state : RunState}
    {answer : Except StateError Unit} (h : (set state).run w = (answer, v)) :
    v.backend.Filed ∧
      ((∃ e, answer = .error e) ∧ Sandbox.Unchanged w.backend v.backend ∨
        answer = .ok () ∧ recorded v.backend = .ok (some state)) := by
  rcases run_set_cases state w with ⟨e, u, hread, hset⟩ | ⟨current, u, written, x, hread, hwrite, hset⟩
  · obtain ⟨hunchanged, hu, -⟩ := readMap_sandbox hw hread
    obtain ⟨rfl, rfl⟩ := Prod.mk.inj (h.symm.trans hset)
    exact ⟨hu, Or.inl ⟨⟨e, rfl⟩, hunchanged⟩⟩
  obtain ⟨hunchanged, hu, hfound⟩ := readMap_sandbox hw hread
  obtain ⟨rfl, rfl⟩ := Prod.mk.inj (h.symm.trans hset)
  have hcurrent : ∀ m, current = some m → m.name = mapName := by
    rintro m rfl
    exact (hfound m rfl).2
  obtain ⟨hx, ⟨⟨e, rfl⟩, hkept⟩ | ⟨rfl, hrecorded, -⟩⟩ := writeMap_sandbox hu hcurrent hwrite
  · exact ⟨hx, Or.inl ⟨⟨_, rfl⟩, hunchanged.trans hkept⟩⟩
  · exact ⟨hx, Or.inr ⟨rfl, hrecorded⟩⟩

/-! ## What the steps leave -/

/-- The calls that do not write the state map. -/
def LeavesState : Call → Prop
  | .create .configMaps o => o.name ≠ mapName
  | .update .configMaps o => o.name ≠ mapName
  | _ => True

/-- The answers of a cluster that files its config maps: what is read bears the name that was asked
for. -/
def Honest : (k : Call) → k.Reply → Prop
  | .get .configMaps name, .ok o => o.name = name
  | _, _ => True

/-- The rule that leaves the state map to the programs of the recorded state. -/
def frameRule : Rule :=
  ⟨LeavesState, Honest⟩

theorem configMapName_ne_mapName : Setup.configMapName ≠ mapName := by decide

theorem permitsSteps_frameRule : frameRule.PermitsSteps where
  create := by
    intro c o hc _
    cases c <;> first | exact absurd rfl hc | trivial
  get _ _ := trivial
  list _ _ := trivial
  watch _ _ _ := trivial
  resolve _ := trivial
  patch _ _ _ _ := trivial
  readSelection := trivial
  freshSelection o ho := by
    show o.name ≠ mapName
    rw [ho]
    exact configMapName_ne_mapName
  mergedSelection m o hm ho := by
    show o.name ≠ mapName
    have hname : m.name = Setup.configMapName := hm
    rw [ho, hname]
    exact configMapName_ne_mapName

/-- Every step of a setup leaves the state map. -/
theorem steps_obey_frameRule (s : Setup) (plan : List Plan.PlannedStep) :
    ∀ step ∈ s.steps plan, step.perform.Obeys frameRule :=
  Setup.obeys_steps permitsSteps_frameRule (fun _ => trivial) s plan

/-- A filed sandbox answers honestly. -/
theorem honest_perform {s : Sandbox} (hs : s.Filed) (k : Call) :
    Honest k (Sandbox.perform k s).1 := by
  cases k with
  | get c name =>
    cases hreply : (Sandbox.perform (.get c name) s).1 with
    | ok o =>
      cases c with
      | configMaps => exact (hs.name_of_get hreply).2
      | _ => trivial
    | error e => cases c <;> trivial
  | _ => trivial

/-- A call that does not write the state map leaves it as it is. -/
theorem object?_perform {s : Sandbox} {k : Call} (hk : LeavesState k) :
    ((Sandbox.perform k s).2.shelf .configMaps).store.object? mapName =
      (s.shelf .configMaps).store.object? mapName := by
  cases k with
  | get c name => exact (Sandbox.unchanged_get name).object? _ _
  | list c selector => exact (Sandbox.unchanged_list selector).object? _ _
  | watch c selector version => exact (Sandbox.unchanged_watch selector version).object? _ _
  | create c o =>
    -- a write of another config map, or of another collection
    by_cases hc : c = .configMaps
    · subst hc
      exact (s.written_create o).object?_ne (Ne.symm hk)
    · rw [Sandbox.perform, Sandbox.shelf_faulty_ne (Ne.symm hc)]
  | update c o =>
    by_cases hc : c = .configMaps
    · subst hc
      exact (s.written_update o).object?_ne (Ne.symm hk)
    · rw [Sandbox.perform, Sandbox.shelf_faulty_ne (Ne.symm hc)]
  | resolve kind => rfl
  | patch kind ns name operations => rfl

/-- A sandbox stays filed, and its state map as it is, while the state is left. -/
theorem keeps_state (map : Option (Object .configMaps)) :
    frameRule.Keeps fun w : World Sandbox =>
      w.backend.Filed ∧ (w.backend.shelf .configMaps).store.object? mapName = map where
  expects hw _ := honest_perform hw.1 _
  perform hw hk := ⟨hw.1.perform _, (object?_perform hk).trans hw.2⟩
  look := by
    intro w hw
    rwa [World.looked_backend]
  advance _ hw := hw

/-- A program that leaves the state map leaves the recorded state. -/
theorem recorded_of_obeys {α : Type} {t : Program α} (ht : t.Obeys frameRule) {w : World Sandbox}
    (hw : w.backend.Filed) :
    (t.run w).2.backend.Filed ∧ recorded (t.run w).2.backend = recorded w.backend := by
  obtain ⟨hfiled, hmap⟩ := ht.keeps (keeps_state _) ⟨hw, rfl⟩
  refine ⟨hfiled, ?_⟩
  unfold recorded
  rw [hmap]

end EcosystemSetup.StateStore

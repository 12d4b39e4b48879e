import EcosystemSetup.Proofs.RecordedState
import EcosystemSetup.Proofs.SuccessfulSteps

/-!
# The shared state map

The state stands in a config map that others may keep their own data in. Main statement: whatever the map
holds, recording a state changes the state and the time of its last change and nothing else, or makes a
map where there is none, and the state is read back; a claim succeeds only where no state is; and an
operation that fails leaves everything as it was.
-/

namespace EcosystemSetup.StateStore

open Cluster

/-- The state map of a cluster, if there is one. -/
def heldMap (s : Sandbox) : Option (Object .configMaps) :=
  (s.shelf .configMaps).store.object? mapName

/-! ## What is left of a map -/

/-- What is left of a map in which states were recorded: all but the state, the time of its last change
and the version. -/
structure Framed (m q : Object .configMaps) : Prop where
  name : q.metadata.name = m.metadata.name
  generateName : q.metadata.generateName = m.metadata.generateName
  namespaceName : q.metadata.namespaceName = m.metadata.namespaceName
  labels : q.metadata.labels = m.metadata.labels
  annotations : ∀ key, key ≠ changedKey →
    Assoc.get? key (q.metadata.annotations.getD []) = Assoc.get? key (m.metadata.annotations.getD [])
  data : ∀ key, key ≠ stateKey →
    Assoc.get? key (q.body.data.getD []) = Assoc.get? key (m.body.data.getD [])

theorem Framed.refl (m : Object .configMaps) : Framed m m :=
  ⟨rfl, rfl, rfl, rfl, fun _ _ => rfl, fun _ _ => rfl⟩

theorem Framed.trans {m q r : Object .configMaps} (h₁ : Framed m q) (h₂ : Framed q r) :
    Framed m r where
  name := h₂.name.trans h₁.name
  generateName := h₂.generateName.trans h₁.generateName
  namespaceName := h₂.namespaceName.trans h₁.namespaceName
  labels := h₂.labels.trans h₁.labels
  annotations key hkey := (h₂.annotations key hkey).trans (h₁.annotations key hkey)
  data key hkey := (h₂.data key hkey).trans (h₁.data key hkey)

/-- A state is put beside what stands in the map. -/
theorem framed_withState (m : Object .configMaps) (state : RunState) (time version : String) :
    Framed m ((withState m state time).atVersion version) where
  name := rfl
  generateName := rfl
  namespaceName := rfl
  labels := rfl
  annotations _ hkey := Assoc.get?_set_ne hkey _ _
  data _ hkey := Assoc.get?_set_ne hkey _ _

/-- A map in which a state was recorded at a time, and what it comes from. -/
structure Holds (state : RunState) (time : String) (before : Option (Object .configMaps))
    (m : Object .configMaps) : Prop where
  holds : stateOf m = .ok (some state)
  changed : Assoc.get? changedKey (m.metadata.annotations.getD []) = some time
  name : m.name = mapName
  kept : ∀ old, before = some old → Framed old m
  /-- A new map has the state, the time and the label of the setup, and nothing else. -/
  created : before = none → ∃ version, m = (fresh state time).atVersion version

theorem holds_fresh (state : RunState) (time version : String) :
    Holds state time none ((fresh state time).atVersion version) where
  holds := stateOf_fresh state time
  changed := if_pos rfl
  name := rfl
  kept := by simp
  created _ := ⟨version, rfl⟩

theorem holds_withState {m : Object .configMaps} (hm : m.name = mapName) (state : RunState)
    (time version : String) :
    Holds state time (some m) ((withState m state time).atVersion version) where
  holds := stateOf_withState m state time
  changed := Assoc.get?_set_self _ _ _
  name := hm
  kept old hold := by
    rw [← Option.some.inj hold]
    exact framed_withState m state time version
  created := by simp

/-! ## Writing the map -/

variable {w v : World Sandbox} {current : Option (Object .configMaps)} {state : RunState}

/-- A map that was written is the one that was read with the state in it, or a new one. -/
theorem holds_of_write (hw : w.backend.Filed) (hread : readMap.run w = (.ok current, v))
    {u : World Sandbox} (hwrite : (writeMap current state).run v = (.ok (), u)) :
    ∃ m, heldMap u.backend = some m ∧ Holds state v.timeText (heldMap w.backend) m := by
  obtain ⟨hunchanged, -, hcurrent⟩ := readMap_sandbox hw hread
  have hsame : heldMap v.backend = heldMap w.backend := hunchanged.object? .configMaps mapName
  cases current with
  | none =>
    rw [run_writeMap_none] at hwrite
    obtain ⟨hanswer, rfl⟩ := Prod.mk.inj hwrite
    cases hreply : (v.perform (.create .configMaps (fresh state v.timeText))).1 with
    | error e =>
      rw [hreply] at hanswer
      cases hanswer
    | ok q =>
      -- only where there is no map a new one is made, whatever the read said
      have hfree : heldMap w.backend = none := hsame.symm.trans (Sandbox.free_of_create hreply)
      have hstored := (v.backend.written_create (fresh state v.timeText)).object?_self hreply
      rw [hfree]
      exact ⟨_, hstored, holds_fresh state v.timeText _⟩
  | some m =>
    obtain ⟨hheld, hname⟩ := hcurrent m rfl
    have hm : heldMap w.backend = some m := hheld
    rw [run_writeMap_some] at hwrite
    obtain ⟨hanswer, rfl⟩ := Prod.mk.inj hwrite
    cases hreply : (v.perform (.update .configMaps (withState m state v.timeText))).1 with
    | error e =>
      rw [hreply] at hanswer
      cases hanswer
    | ok q =>
      have hstored :=
        (v.backend.written_update (withState m state v.timeText)).object?_self hreply
      have hself : (withState m state v.timeText).name = mapName := hname
      rw [hself] at hstored
      rw [hm]
      exact ⟨_, hstored, holds_withState hname state v.timeText _⟩

/-- A state that was recorded was written after a read of the map. -/
theorem written_of_set (h : (set state).run w = (.ok (), v)) :
    ∃ current u, readMap.run w = (.ok current, u) ∧ (writeMap current state).run u = (.ok (), v) := by
  rcases run_set_cases state w with ⟨e, u, -, hset⟩ | ⟨current, u, answer, x, hread, hwrite, hset⟩
  · cases h.symm.trans hset
  · obtain ⟨hanswer, rfl⟩ := Prod.mk.inj (h.symm.trans hset)
    cases answer with
    | error e => cases hanswer
    | ok _ => exact ⟨current, u, hread, hwrite⟩

/-- A setup that was claimed was written after a read of the map. -/
theorem written_of_claim (h : claim.run w = (.ok (), v)) :
    ∃ current u, readMap.run w = (.ok current, u) ∧
      (writeMap current .installing).run u = (.ok (), v) := by
  rcases run_claim_cases w with ⟨e, u, -, hclaim⟩ | ⟨current, u, hread, hcases⟩
  · cases h.symm.trans hclaim
  rcases hcases with ⟨e, -, hclaim⟩ | ⟨found, -, hclaim⟩ | ⟨-, answer, x, hwrite, hclaim⟩
  · cases h.symm.trans hclaim
  · cases h.symm.trans hclaim
  · obtain ⟨hanswer, rfl⟩ := Prod.mk.inj (h.symm.trans hclaim)
    cases answer with
    | error e => cases hanswer
    | ok _ => exact ⟨current, u, hread, hwrite⟩

/-! ## Reading the map -/

/-- A claim that nothing disturbs fails on a state that it cannot read. -/
theorem claim_unreadable (hw : Quiet w.backend) {e : StateError}
    (h : recorded w.backend = .error e) : (claim.run w).1 = .error e := by
  have hstate : stateOfCurrent ((w.backend.shelf .configMaps).store.object? mapName) =
      .error e := h
  unfold claim
  rw [Program.run_bind_of_eq (run_readMap_quiet hw)]
  dsimp only
  rw [hstate]
  rfl

/-- No state stands in a map: there is no map, no entry for the state, or an empty one. -/
def Vacant (map : Option (Object .configMaps)) : Prop :=
  ∀ m, map = some m → Assoc.get? stateKey (m.body.data.getD []) = none ∨
    Assoc.get? stateKey (m.body.data.getD []) = some ""

/-- A map says that there is no state exactly if none stands in it. -/
theorem stateOfCurrent_eq_none_iff {map : Option (Object .configMaps)} :
    stateOfCurrent map = .ok none ↔ Vacant map := by
  cases map with
  | none => simp [stateOfCurrent, Vacant]
  | some m =>
    simp only [Vacant, Option.some.injEq, forall_eq']
    rw [stateOfCurrent, stateOf]
    cases htext : Assoc.get? stateKey (m.body.data.getD []) with
    | none => simp
    | some text =>
      dsimp only
      by_cases hempty : text = ""
      · simp [hempty]
      · -- any other text is a state or cannot be read
        rw [if_neg hempty]
        cases RunState.read text with
        | ok s => simp [hempty]
        | error e => simp [hempty]

/-- A text that names no state cannot be read. -/
theorem stateOf_unreadable {m : Object .configMaps} {text : String}
    (htext : Assoc.get? stateKey (m.body.data.getD []) = some text) (hempty : text ≠ "")
    (hnone : ∀ s : RunState, text ≠ s.name) :
    stateOf m = .error (.invalid (.runState text)) := by
  have hread : RunState.ofName? text = none := by
    unfold RunState.ofName?
    split
    · exact absurd rfl (hnone .installing)
    · exact absurd rfl (hnone .installed)
    · rfl
  unfold stateOf
  rw [htext]
  dsimp only
  rw [if_neg hempty, RunState.read, hread]

/-! ## Operations on the state -/

/-- What an operation that is to record a state does: it records the state, or it fails and changes
nothing. -/
structure Records (state : RunState) (w : World Sandbox)
    (result : Except StateError Unit × World Sandbox) : Prop where
  written : result.1 = .ok () →
    ∃ m, heldMap result.2.backend = some m ∧ Holds state w.timeText (heldMap w.backend) m
  readBack : result.1 = .ok () → Quiet result.2.backend →
    (get.run result.2).1 = .ok (some state)
  failed : ∀ e, result.1 = .error e → Sandbox.Unchanged w.backend result.2.backend

/-- A map that was read and written is read back. -/
theorem records_of_write (hw : w.backend.Filed) {result : Except StateError Unit × World Sandbox}
    (hwritten : result.1 = .ok () → ∃ current u, readMap.run w = (.ok current, u) ∧
      (writeMap current state).run u = (.ok (), result.2))
    (hfailed : ∀ e, result.1 = .error e → Sandbox.Unchanged w.backend result.2.backend) :
    Records state w result := by
  have hholds : result.1 = .ok () →
      ∃ m, heldMap result.2.backend = some m ∧ Holds state w.timeText (heldMap w.backend) m := by
    intro hok
    obtain ⟨current, u, hread, hwrite⟩ := hwritten hok
    have htime : u.timeText = w.timeText := by
      rw [run_readMap] at hread
      rw [← (Prod.mk.inj hread).2]
      rfl
    rw [← htime]
    exact holds_of_write hw hread hwrite
  refine ⟨hholds, ?_, hfailed⟩
  intro hok hquiet
  obtain ⟨m, hm, hstate⟩ := hholds hok
  have hrecorded : recorded result.2.backend = stateOfCurrent (heldMap result.2.backend) := rfl
  rw [get_quiet hquiet, hrecorded, hm, stateOfCurrent, hstate.holds]

theorem records_set (hw : w.backend.Filed) (state : RunState) :
    Records state w ((set state).run w) := by
  apply records_of_write hw
  · intro hok
    exact written_of_set (Prod.ext hok rfl)
  · intro e herror
    have hrun : (set state).run w = (.error e, ((set state).run w).2) := Prod.ext herror rfl
    obtain ⟨-, ⟨-, hunchanged⟩ | ⟨hok, -⟩⟩ := set_sandbox hw hrun
    · exact hunchanged
    · cases hok

theorem records_claim (hw : w.backend.Filed) : Records .installing w (claim.run w) := by
  apply records_of_write hw
  · intro hok
    exact written_of_claim (Prod.ext hok rfl)
  · intro e herror
    have hrun : claim.run w = (.error e, (claim.run w).2) := Prod.ext herror rfl
    obtain ⟨-, ⟨-, hunchanged⟩ | ⟨hok, -⟩⟩ := claim_sandbox hw hrun
    · exact hunchanged
    · cases hok

/-! ## One operation after another -/

/-- The operations on the state. -/
inductive Operation where
  | look
  | claim
  | record (state : RunState)

/-- What is left after an operation. -/
def Operation.after : Operation → World Sandbox → World Sandbox
  | .look, w => (get.run w).2
  | .claim, w => (StateStore.claim.run w).2
  | .record state, w => ((set state).run w).2

/-- What is left after one operation after another. -/
def afterAll (operations : List Operation) (w : World Sandbox) : World Sandbox :=
  operations.foldl (fun v operation => operation.after v) w

theorem Operation.filed (operation : Operation) (hw : w.backend.Filed) :
    (operation.after w).backend.Filed := by
  cases operation with
  | look => exact (get_sandbox hw).2
  | claim =>
    have hrun : StateStore.claim.run w = ((StateStore.claim.run w).1, (StateStore.claim.run w).2) :=
      rfl
    exact (claim_sandbox hw hrun).1
  | record state =>
    have hrun : (set state).run w = (((set state).run w).1, ((set state).run w).2) := rfl
    exact (set_sandbox hw hrun).1

/-- A map is left in its frame by an operation that records a state, whether or not it succeeds. -/
theorem Records.framed {result : Except StateError Unit × World Sandbox}
    (h : Records state w result) {m : Object .configMaps} (hm : heldMap w.backend = some m) :
    ∃ q, heldMap result.2.backend = some q ∧ Framed m q := by
  cases hanswer : result.1 with
  | error e =>
    have hsame := (h.failed e hanswer).object? .configMaps mapName
    exact ⟨m, hsame.trans hm, .refl m⟩
  | ok _ =>
    obtain ⟨q, hq, hholds⟩ := h.written hanswer
    exact ⟨q, hq, hholds.kept m hm⟩

theorem Operation.framed (operation : Operation) (hw : w.backend.Filed) {m : Object .configMaps}
    (hm : heldMap w.backend = some m) :
    ∃ q, heldMap (operation.after w).backend = some q ∧ Framed m q := by
  cases operation with
  | look =>
    have hsame := (get_sandbox hw).1.object? .configMaps mapName
    exact ⟨m, hsame.trans hm, .refl m⟩
  | claim => exact (records_claim hw).framed hm
  | record state => exact (records_set hw state).framed hm

theorem framed_afterAll (operations : List Operation) (hw : w.backend.Filed)
    {m : Object .configMaps} (hm : heldMap w.backend = some m) :
    ∃ q, heldMap (afterAll operations w).backend = some q ∧ Framed m q := by
  induction operations generalizing w m with
  | nil => exact ⟨m, hm, .refl m⟩
  | cons operation rest ih =>
    obtain ⟨q, hq, hfirst⟩ := operation.framed hw hm
    obtain ⟨r, hr, hlater⟩ := ih (operation.filed hw) hq
    exact ⟨r, hr, hfirst.trans hlater⟩

/-! ## A map that is shared -/

/-- What the operations on the state do to a map that is shared. -/
structure SharesMap (w : World Sandbox) : Prop where
  set : ∀ state, Records state w ((set state).run w)
  claim : Records .installing w (claim.run w)
  /-- A claim succeeds only where no state stands. -/
  claimed : (StateStore.claim.run w).1 = .ok () → Vacant (heldMap w.backend)
  looked : Sandbox.Unchanged w.backend (get.run w).2.backend
  /-- However many operations there are, the rest of the map stays. -/
  kept : ∀ operations m, heldMap w.backend = some m →
    ∃ q, heldMap (afterAll operations w).backend = some q ∧ Framed m q
  /-- A text that names no state makes a look and a claim fail. -/
  unreadable : ∀ m text, heldMap w.backend = some m →
    Assoc.get? stateKey (m.body.data.getD []) = some text → text ≠ "" →
    (∀ s : RunState, text ≠ s.name) → Quiet w.backend →
    (get.run w).1 = .error (.invalid (.runState text)) ∧
      (StateStore.claim.run w).1 = .error (.invalid (.runState text))
  /-- On a calm cluster every state is recorded, and the setup is claimed where no state stands. -/
  succeed : w.Calm → (∀ state, ((StateStore.set state).run w).1 = .ok ()) ∧
    (Vacant (heldMap w.backend) → (StateStore.claim.run w).1 = .ok ())

/-- Whatever a state map holds, a record and a claim keep to its frame and are read back, or they fail and
change nothing. -/
theorem state_recorded_in_frame (hw : w.backend.Filed) : SharesMap w := by
  refine ⟨records_set hw, records_claim hw, ?_, (get_sandbox hw).1,
    fun operations _ hm => framed_afterAll operations hw hm, ?_, ?_⟩
  · intro hok
    have hrun : claim.run w = (.ok (), (claim.run w).2) := Prod.ext hok rfl
    obtain ⟨-, ⟨⟨e, herror⟩, -⟩ | ⟨-, hnone, -⟩⟩ := claim_sandbox hw hrun
    · cases herror
    · exact stateOfCurrent_eq_none_iff.mp hnone
  · intro m text hm htext hempty hunnamed hquiet
    have hrecorded : recorded w.backend = .error (.invalid (.runState text)) := by
      show stateOfCurrent (heldMap w.backend) = _
      rw [hm]
      exact stateOf_unreadable htext hempty hunnamed
    exact ⟨(get_quiet hquiet).trans hrecorded, claim_unreadable hquiet hrecorded⟩
  · intro hcalm
    refine ⟨?_, ?_⟩
    · intro state
      obtain ⟨v, hrun, -⟩ := set_succeeds hcalm state
      rw [hrun]
    · intro hvacant
      have hnone : recorded w.backend = .ok none := stateOfCurrent_eq_none_iff.mpr hvacant
      obtain ⟨v, hrun, -⟩ := claim_succeeds hcalm hnone
      rw [hrun]

/-- A state map with data of others, and a text for the state. -/
def sharedMap (text : String) : Object .configMaps where
  metadata :=
    { name := some mapName, labels := some [("team", "platform")],
      annotations := some [("note", "kept")], resourceVersion := some "4" }
  body := { data := some [("owner", "platform"), (stateKey, text)] }

/-- A cluster that holds it. -/
def sharedWorld (text : String) : World Sandbox where
  backend :=
    { configMaps := { store := { objects := [(mapName, sharedMap text)], revision := 4 } } }

theorem filed_sharedWorld (text : String) : (sharedWorld text).backend.Filed := by
  intro c
  cases c with
  | configMaps =>
    constructor
    · simp [Assoc.Sorted, Sandbox.shelf, sharedWorld]
    · intro p hp
      rw [List.mem_singleton.mp hp]
      rfl
  | _ => exact Store.filed_empty

/-- An empty text is claimed, a garbled one is not but gives way to a record, and each map keeps its
frame. -/
theorem state_recorded_in_frame_shared :
    (sharedWorld "").backend.Filed ∧ (sharedWorld "garbled").backend.Filed ∧
      (claim.run (sharedWorld "")).1 = .ok () ∧ Vacant (some (sharedMap "")) ∧
      Records .installing (sharedWorld "") (claim.run (sharedWorld "")) ∧
      Quiet (sharedWorld "garbled").backend ∧
      (claim.run (sharedWorld "garbled")).1 = .error (.invalid (.runState "garbled")) ∧
      ((set .installed).run (sharedWorld "garbled")).1 = .ok () ∧
      Records .installed (sharedWorld "garbled") ((set .installed).run (sharedWorld "garbled")) := by
  have hempty : SharesMap (sharedWorld "") := state_recorded_in_frame (filed_sharedWorld "")
  have hgarbled : SharesMap (sharedWorld "garbled") :=
    state_recorded_in_frame (filed_sharedWorld "garbled")
  have hquiet : Quiet (sharedWorld "garbled").backend := ⟨rfl, rfl⟩
  have hunnamed : ∀ s : RunState, "garbled" ≠ s.name := by
    intro s
    cases s <;> decide
  obtain ⟨-, hrefused⟩ := hgarbled.unreadable (sharedMap "garbled") "garbled" rfl rfl (by decide)
    hunnamed hquiet
  exact ⟨filed_sharedWorld "", filed_sharedWorld "garbled", rfl, hempty.claimed rfl, hempty.claim,
    hquiet, hrefused, rfl, hgarbled.set .installed⟩

end EcosystemSetup.StateStore

import EcosystemSetup.Proofs.Interleaving

/-!
# Turns and rounds

Programs that take turns on one cluster in memory are one of the ways in which programs share the config
maps: a cluster answers each call by its store of config maps or by a fault, or it leaves the config maps,
so whatever programs do in their turns and rounds is a history.
-/

namespace EcosystemSetup

open Cluster Program

variable {α : Type}

/-- The config maps of a cluster in memory. -/
def World.configMaps (w : World Sandbox) : Store .configMaps :=
  (w.backend.shelf .configMaps).store

theorem World.configMaps_looked (w : World Sandbox) : w.looked.configMaps = w.configMaps := by
  simp [configMaps]

/-! ## One call -/

/-- A call that passes the faults of the config maps is answered by a fault or by the store. -/
theorem Answered.of_faulty {k : Call} (hk : k.collection? = some .configMaps) {s : Sandbox}
    {queue : FaultQueue} {setQueue : Faults → FaultQueue → Faults}
    {act : Store .configMaps → Except AccessError k.Answer × Store .configMaps}
    (hact : ∃ faulted, Answered (s.shelf .configMaps).store
      (.called k (act (s.shelf .configMaps).store).1) faulted (act (s.shelf .configMaps).store).2) :
    ∃ faulted, Answered (s.shelf .configMaps).store
      (.called k (s.faulty queue setQueue act).1) faulted
      ((s.faulty queue setQueue act).2.shelf .configMaps).store := by
  rcases s.faulty_cases queue setQueue act with ⟨⟨e, he⟩, hstore⟩ | ⟨hanswer, hstore⟩
  · rw [he, hstore]
    exact ⟨true, .fault hk e⟩
  · rw [hanswer, hstore]
    exact hact

/-- A cluster in memory answers every call as its config maps do. -/
theorem Answered.of_perform (k : Call) (s : Sandbox) :
    ∃ faulted, Answered (s.shelf .configMaps).store (.called k (Sandbox.perform k s).1) faulted
      ((Sandbox.perform k s).2.shelf .configMaps).store := by
  by_cases hk : k.collection? = some .configMaps
  · cases k with
    | get c name =>
      obtain rfl : c = .configMaps := Option.some.inj hk
      exact of_faulty hk ⟨_, .get name⟩
    | list c selector =>
      obtain rfl : c = .configMaps := Option.some.inj hk
      exact of_faulty hk ⟨_, .list selector⟩
    | watch c selector version =>
      obtain rfl : c = .configMaps := Option.some.inj hk
      exact of_faulty hk ⟨_, .watch selector version⟩
    | create c o =>
      obtain rfl : c = .configMaps := Option.some.inj hk
      exact of_faulty hk ⟨_, .create o⟩
    | update c o =>
      obtain rfl : c = .configMaps := Option.some.inj hk
      exact of_faulty hk ⟨_, .update o⟩
    | resolve kind => cases hk
    | patch kind ns name operations => cases hk
  -- a call on anything else does not touch the shelf of the config maps
  · have hsame : ((Sandbox.perform k s).2.shelf .configMaps) = s.shelf .configMaps := by
      cases k with
      | resolve kind => rfl
      | patch kind ns name operations => rfl
      | _ => exact Sandbox.shelf_faulty_ne (fun h => hk (congrArg some h.symm)) _ _ _ _
    rw [hsame]
    exact ⟨false, .elsewhere hk _ _⟩

/-! ## One turn -/

/-- The programs can come to a joint state. -/
def Reaches (start : Joint α) (j : Joint α) : Prop :=
  ∃ log, History start log j

/-- What is left of a program between two turns. -/
def Program.Fiber.left : Fiber α → Program α
  | .ready t => t
  | .waiting goal _ next => .await goal next
  | .finished a => .done a

namespace Reaches

variable {start : Joint α} {runs : List (Program α)} {i : Nat} {w : World Sandbox}

theorem act {t u : Program α} {action : Action} {store store' : Store .configMaps} {faulted : Bool}
    (h : Reaches start ⟨store, runs⟩) (run : runs[i]? = some t) (step : Program.Step t action u)
    (answered : Answered store action faulted store') : Reaches start ⟨store', runs.set i u⟩ := by
  obtain ⟨log, hlog⟩ := h
  exact ⟨_, hlog.snoc (.act run step answered)⟩

/-- A program that does nothing is where it was. -/
theorem stay {store : Store .configMaps} {t : Program α} (h : Reaches start ⟨store, runs⟩)
    (ht : runs[i]? = some t) : Reaches start ⟨store, runs.set i t⟩ := by
  obtain ⟨hi, ht⟩ := List.getElem?_eq_some_iff.mp ht
  rwa [← ht, List.set_getElem_self]

/-- The rule of a wait: it makes its own calls. -/
def waitRule (goal : Wait.Goal) : Rule :=
  .only fun k => ∃ stage, (goal.move stage).call = k

/-- The calls of a wait leave the program waiting. -/
theorem turn_of_wait {goal : Wait.Goal} {next : Wait.Outcome → Program α} (p : Wait.Progress)
    (h : Reaches start ⟨w.configMaps, runs⟩) (ht : runs[i]? = some (.await goal next)) :
    Reaches start ⟨(Wait.turn goal p w).2.configMaps, runs⟩ := by
  -- being able to come here is what the calls of the wait keep
  have hkeeps : (waitRule goal).Keeps fun w : World Sandbox =>
      Reaches start ⟨w.configMaps, runs⟩ :=
    { expects := fun _ _ => trivial
      perform := by
        rintro w k hw ⟨stage, hstage⟩
        obtain ⟨faulted, hanswered⟩ := Answered.of_perform k w.backend
        have hstep := hw.act ht (.waiting hstage _) hanswered
        obtain ⟨hi, ht⟩ := List.getElem?_eq_some_iff.mp ht
        rwa [← ht, List.set_getElem_self] at hstep
      look := by
        intro w hw
        rwa [World.configMaps_looked]
      advance := fun _ hw => hw }
  exact Wait.turn_keeps hkeeps (fun stage => ⟨stage, rfl⟩) p h

/-- A turn of a program is a stretch of a history. -/
theorem turn (t : Program α) (h : Reaches start ⟨w.configMaps, runs⟩) (ht : runs[i]? = some t) :
    Reaches start ⟨(t.turn w).2.configMaps, runs.set i (t.turn w).1.1.left⟩ := by
  induction t generalizing runs w with
  | done a => exact h.stay ht
  | call k next ih =>
    obtain ⟨hi, _⟩ := List.getElem?_eq_some_iff.mp ht
    obtain ⟨faulted, hanswered⟩ := Answered.of_perform k w.backend
    have hcall : Reaches start ⟨(w.perform k).2.configMaps, runs.set i (next (w.perform k).1)⟩ :=
      h.act ht (.call _) hanswered
    rw [Program.turn]
    -- the turn ends with a call that gives others their turn, or it goes on
    split
    · exact hcall
    · have hnext := ih _ hcall (List.getElem?_set_self hi)
      rwa [List.set_set] at hnext
  | await goal next ih =>
    obtain ⟨hi, _⟩ := List.getElem?_eq_some_iff.mp ht
    have hwait := h.turn_of_wait (.start goal w) ht
    rw [Program.turn]
    split
    · rename_i outcome w' heq
      rw [heq] at hwait
      have hnext := ih outcome (hwait.act ht (.await outcome) (.awaited goal outcome))
        (List.getElem?_set_self hi)
      rwa [List.set_set] at hnext
    · rename_i position wake w' heq
      rw [heq] at hwait
      exact hwait.stay ht
  | cancelled next ih =>
    obtain ⟨hi, _⟩ := List.getElem?_eq_some_iff.mp ht
    have hlook := h.act ht (.cancelled w.isCancelled) (.looked _)
    rw [← w.configMaps_looked] at hlook
    have hnext := ih _ hlook (List.getElem?_set_self hi)
    rwa [List.set_set] at hnext
  | now next ih =>
    obtain ⟨hi, _⟩ := List.getElem?_eq_some_iff.mp ht
    have hnext := ih _ (h.act ht (.now w.timeText) (.timed _)) (List.getElem?_set_self hi)
    rwa [List.set_set] at hnext

/-- So is a turn of a program that may be in the middle of a wait. -/
theorem fiber_turn (f : Fiber α) (h : Reaches start ⟨w.configMaps, runs⟩)
    (ht : runs[i]? = some f.left) :
    Reaches start ⟨(f.turn w).2.configMaps, runs.set i (f.turn w).1.1.left⟩ := by
  cases f with
  | finished a => exact h.stay ht
  | ready t => exact h.turn t ht
  | waiting goal progress next =>
    obtain ⟨hi, _⟩ := List.getElem?_eq_some_iff.mp ht
    have hwait := h.turn_of_wait progress ht
    rw [Fiber.turn]
    split
    · rename_i outcome w' heq
      rw [heq] at hwait
      have hnext := (hwait.act ht (.await outcome) (.awaited goal outcome)).turn _
        (List.getElem?_set_self hi)
      rwa [List.set_set] at hnext
    · rename_i position wake w' heq
      rw [heq] at hwait
      exact hwait.stay ht

/-! ## Rounds -/

/-- One turn of every program, after some that have had theirs. -/
theorem turns (fibers : List (Fiber α)) {before : List (Program α)}
    (h : Reaches start ⟨w.configMaps, before ++ fibers.map Fiber.left⟩) :
    Reaches start ⟨(turns fibers w).2.configMaps,
      before ++ (Program.turns fibers w).1.1.map Fiber.left⟩ := by
  -- those that have had their turn move over to the front
  induction fibers generalizing before w with
  | nil => exact h
  | cons f rest ih =>
    have hturn := h.fiber_turn (i := before.length) f (by simp)
    rw [List.map_cons, List.set_append_right _ _ (Nat.le_refl _), Nat.sub_self,
      List.set_cons_zero, List.append_cons] at hturn
    have hrest := ih hturn
    rw [← List.append_cons] at hrest
    exact hrest

/-- Rounds are histories, whoever has finished after them. -/
theorem rounds (fuel : Nat) (fibers : List (Fiber α))
    (h : Reaches start ⟨w.configMaps, fibers.map Fiber.left⟩) :
    ∃ fibers' : List (Fiber α), (Program.rounds fuel fibers w).1 = fibers'.mapM Fiber.result? ∧
      Reaches start ⟨(Program.rounds fuel fibers w).2.configMaps, fibers'.map Fiber.left⟩ := by
  induction fuel generalizing fibers w with
  | zero => exact ⟨fibers, rfl, h⟩
  | succ fuel ih =>
    have hturns : Reaches start ⟨(Program.turns fibers w).2.configMaps,
        [] ++ (Program.turns fibers w).1.1.map Fiber.left⟩ := Reaches.turns fibers h
    rw [Program.rounds]
    split
    · rename_i fibers' time w' heq
      rw [heq] at hturns
      exact ih fibers' hturns
    · rename_i fibers' w' heq
      rw [heq] at hturns
      exact ⟨fibers', rfl, hturns⟩

end Reaches

/-- Programs that have all finished leave their results. -/
theorem Program.Fiber.left_of_results {fibers : List (Fiber α)} {results : List α}
    (h : fibers.mapM Fiber.result? = some results) :
    fibers.map Fiber.left = results.map .done := by
  have hall := Lists.mapM_eq_some_iff.mp h
  clear h
  induction hall with
  | nil => rfl
  | @cons fiber a _ _ hfiber _ ih =>
    cases fiber with
    | ready t => cases hfiber
    | waiting goal progress next => cases hfiber
    | finished b =>
      cases hfiber
      rw [List.map_cons, List.map_cons, ih]
      rfl

/-- Programs that run together on one cluster in memory make a history of its config maps, and end as it
ends. -/
theorem exists_history_runAll (fuel : Nat) (programs : List (Program α)) (w : World Sandbox) :
    ∃ log j, History ⟨w.configMaps, programs⟩ log j ∧
      j.store = (runAll fuel programs w).2.configMaps ∧
      ∀ results, (runAll fuel programs w).1 = some results → j.runs = results.map .done := by
  have hstart : Reaches ⟨w.configMaps, programs⟩
      ⟨w.configMaps, (programs.map Fiber.ready).map Fiber.left⟩ := by
    have hleft : (programs.map Fiber.ready).map Fiber.left = programs := by
      rw [List.map_map]
      exact List.map_id programs
    rw [hleft]
    exact ⟨[], .nil⟩
  obtain ⟨fibers, hresults, log, hlog⟩ := hstart.rounds fuel
  refine ⟨log, _, hlog, rfl, ?_⟩
  intro results h
  exact Fiber.left_of_results (hresults ▸ h)

end EcosystemSetup

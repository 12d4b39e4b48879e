import EcosystemSetup.Executor
import Mathlib.Data.List.Nodup
import Mathlib.Data.List.Range

/-!
# The life of an executor

Clients register steps with an executor and run it, in any order and as often as they like, while a run
may be cancelled at any time. A monitor notes when a run looks whether it is cancelled and which step it
performs, by its place in the order of registration.

Main statement: only the first run performs anything. It performs the steps registered by then, in their
order, up to the first one that fails or before which it finds itself cancelled, and it names that step.
From then on the executor is completed or failed for good, and every later run is told so.
-/

namespace EcosystemSetup.Executor

variable {σ : Type}

/-! ## Monitored steps -/

/-- What a run does with its steps. -/
inductive Event where
  /-- It looked whether it is cancelled. -/
  | looked (cancelled : Bool)
  /-- It performed the step of an index. -/
  | performed (index : Nat) (outcome : Except Failure Unit)

/-- The index of the step that an event performs. -/
def Event.step? : Event → Option Nat
  | .looked _ => none
  | .performed index _ => some index

/-- Work on a state of any kind, with the events so far. -/
abbrev Monitored (σ : Type) := StateM (σ × List Event)

/-- A look whether the run is cancelled. -/
def look (isCancelled : σ → Bool) : Monitored σ Bool := fun s =>
  (isCancelled s.1, s.1, s.2 ++ [.looked (isCancelled s.1)])

/-- A step that is noted when it is performed. -/
def monitor (index : Nat) (s : Step (StateM σ)) : Step (Monitored σ) where
  description := s.description
  perform := fun x =>
    let r := s.perform x.1
    (r.1, r.2, x.2 ++ [.performed index r.1])

/-- Steps that are noted, the first of which has the given index. -/
def monitorFrom (index : Nat) : List (Step (StateM σ)) → List (Step (Monitored σ))
  | [] => []
  | s :: rest => monitor index s :: monitorFrom (index + 1) rest

theorem length_monitorFrom (index : Nat) (steps : List (Step (StateM σ))) :
    (monitorFrom index steps).length = steps.length := by
  induction steps generalizing index with
  | nil => rfl
  | cons s rest ih => rw [monitorFrom, List.length_cons, List.length_cons, ih]

theorem monitorFrom_append (index : Nat) (first second : List (Step (StateM σ))) :
    monitorFrom index (first ++ second) =
      monitorFrom index first ++ monitorFrom (index + first.length) second := by
  induction first generalizing index with
  | nil => rfl
  | cons s rest ih =>
    rw [List.cons_append, monitorFrom, monitorFrom, ih, List.cons_append, List.length_cons,
      Nat.add_right_comm, Nat.add_assoc]

/-! ## What a run does -/

/-- The events of steps that are performed one after another and succeed, each after a look. -/
def passes (first count : Nat) : List Event :=
  (List.range' first count).flatMap fun i => [.looked false, .performed i (.ok ())]

theorem passes_succ (first count : Nat) :
    passes first (count + 1) =
      [.looked false, .performed first (.ok ())] ++ passes (first + 1) count := by
  rw [passes, List.range'_succ, List.flatMap_cons]
  rfl

theorem steps_passes (first count : Nat) :
    (passes first count).filterMap Event.step? = List.range' first count := by
  induction count generalizing first with
  | zero => rfl
  | succ count ih =>
    rw [passes_succ, List.filterMap_append, ih, List.range'_succ]
    rfl

/-- How a run goes over steps with the given descriptions, the first of which has the given index, and
the step that it fails in, if there is one. -/
inductive Goes (first : Nat) (descriptions : List String) :
    List Event → Option StepFailed → Prop where
  /-- All steps are performed and succeed. -/
  | completed : Goes first descriptions (passes first descriptions.length) none
  /-- The steps before one succeed, and this one fails. -/
  | failed {i : Nat} {description : String} {cause : Failure}
      (named : descriptions[i]? = some description) :
      Goes first descriptions
        (passes first i ++ [.looked false, .performed (first + i) (.error cause)])
        (some ⟨first + i, description, cause⟩)
  /-- The steps before one succeed, and this one is not performed because the run is cancelled. -/
  | cancelled {i : Nat} {description : String} (named : descriptions[i]? = some description) :
      Goes first descriptions (passes first i ++ [.looked true])
        (some ⟨first + i, description, cancelledBeforeStep⟩)

namespace Goes

variable {first : Nat} {description : String} {descriptions : List String} {events : List Event}
  {failed : Option StepFailed}

/-- A step that is performed and succeeds comes before the others. -/
theorem cons (h : Goes (first + 1) descriptions events failed) :
    Goes first (description :: descriptions)
      ([.looked false, .performed first (.ok ())] ++ events) failed := by
  -- in each case the first pass joins the others, and the indices count from one step earlier
  cases h with
  | completed =>
    rw [← passes_succ]
    exact .completed
  | @failed i d cause named =>
    rw [← List.append_assoc, ← passes_succ, Nat.add_right_comm, Nat.add_assoc]
    exact .failed (i := i + 1) (by simpa using named)
  | @cancelled i d named =>
    rw [← List.append_assoc, ← passes_succ, Nat.add_right_comm, Nat.add_assoc]
    exact .cancelled (i := i + 1) (by simpa using named)

/-- No step is performed twice. -/
theorem nodup (h : Goes first descriptions events failed) :
    (events.filterMap Event.step?).Nodup := by
  cases h with
  | completed =>
    rw [steps_passes]
    exact List.nodup_range'
  | @failed i d cause named =>
    have hsteps :
        (passes first i ++ [Event.looked false, .performed (first + i) (.error cause)]).filterMap
          Event.step? = List.range' first (i + 1) := by
      rw [List.filterMap_append, steps_passes, List.range'_concat, Nat.one_mul]
      rfl
    rw [hsteps]
    exact List.nodup_range'
  | @cancelled i d named =>
    have hsteps :
        (passes first i ++ [Event.looked true]).filterMap Event.step? = List.range' first i := by
      rw [List.filterMap_append, steps_passes]
      exact List.append_nil _
    rw [hsteps]
    exact List.nodup_range'

end Goes

/-! ## One step after another -/

section Steps

variable {isCancelled : σ → Bool} {index : Nat} {s : Step (StateM σ)} {rest : List (Step (StateM σ))}
  {w u : σ} {events : List Event} {cause : Failure}

/-- A cancelled run does not perform the step that it comes to. -/
theorem performStep_cancelled (hcancelled : isCancelled w = true) :
    performStep (look isCancelled) (monitor index s) (w, events) =
      (.error cancelledBeforeStep, w, events ++ [.looked true]) := by
  show (if isCancelled w = true then pure (.error cancelledBeforeStep)
    else (monitor index s).perform : Monitored σ (Except Failure Unit))
      (w, events ++ [.looked (isCancelled w)]) = _
  rw [hcancelled, if_pos rfl]
  rfl

/-- A run that is not cancelled performs the step that it comes to. -/
theorem performStep_performed {outcome : Except Failure Unit} (hgoing : isCancelled w = false)
    (hperform : s.perform w = (outcome, u)) :
    performStep (look isCancelled) (monitor index s) (w, events) =
      (outcome, u, events ++ [.looked false, .performed index outcome]) := by
  show (if isCancelled w = true then pure (.error cancelledBeforeStep)
    else (monitor index s).perform : Monitored σ (Except Failure Unit))
      (w, events ++ [.looked (isCancelled w)]) = _
  rw [hgoing, if_neg Bool.false_ne_true]
  show ((s.perform w).1, (s.perform w).2,
    events ++ [.looked false] ++ [.performed index (s.perform w).1]) = _
  rw [hperform, List.append_assoc]
  rfl

theorem performFrom_of_error {x y : σ × List Event}
    (hstep : performStep (look isCancelled) (monitor index s) x = (.error cause, y)) :
    performFrom (look isCancelled) index (monitorFrom index (s :: rest)) x =
      (some ⟨index, s.description, cause⟩, y) := by
  rw [monitorFrom, performFrom]
  show StateT.bind (performStep (look isCancelled) (monitor index s)) _ x = _
  rw [StateT.bind, hstep]
  rfl

theorem performFrom_of_ok {x y : σ × List Event}
    (hstep : performStep (look isCancelled) (monitor index s) x = (.ok (), y)) :
    performFrom (look isCancelled) index (monitorFrom index (s :: rest)) x =
      performFrom (look isCancelled) (index + 1) (monitorFrom (index + 1) rest) y := by
  rw [monitorFrom, performFrom]
  show StateT.bind (performStep (look isCancelled) (monitor index s)) _ x = _
  rw [StateT.bind, hstep]
  rfl

end Steps

/-- A run goes over its steps. -/
theorem goes_performFrom (isCancelled : σ → Bool) (first : Nat) (steps : List (Step (StateM σ)))
    (w : σ) (events : List Event) :
    ∃ failed v news, performFrom (look isCancelled) first (monitorFrom first steps) (w, events) =
        (failed, v, events ++ news) ∧
      Goes first (steps.map Step.description) news failed := by
  induction steps generalizing first w events with
  | nil => exact ⟨none, w, [], by rw [List.append_nil]; rfl, .completed⟩
  | cons s rest ih =>
    cases hcancelled : isCancelled w with
    | true =>
      exact ⟨_, w, [.looked true], performFrom_of_error (performStep_cancelled hcancelled),
        .cancelled (i := 0) rfl⟩
    | false =>
      cases hperform : s.perform w with
      | mk outcome u =>
        have hstep : performStep (look isCancelled) (monitor first s) (w, events) =
            (outcome, u, events ++ [.looked false, .performed first outcome]) :=
          performStep_performed hcancelled hperform
        cases outcome with
        | error cause =>
          exact ⟨_, u, [.looked false, .performed first (.error cause)], performFrom_of_error hstep,
            .failed (i := 0) rfl⟩
        | ok done =>
          obtain ⟨failed, v, news, hrest, hgoes⟩ :=
            ih (first + 1) u (events ++ [.looked false, .performed first (.ok ())])
          refine ⟨failed, v, [Event.looked false, .performed first (.ok ())] ++ news, ?_, hgoes.cons⟩
          rw [performFrom_of_ok hstep, hrest, List.append_assoc]

/-! ## Sessions -/

/-- What clients do with an executor, and what happens besides. -/
inductive Operation (σ : Type) where
  | register (s : Step (StateM σ))
  | registerAll (ss : List (Step (StateM σ)))
  /-- A run, with the token that cancels it. -/
  | run (isCancelled : σ → Bool)
  /-- Something else happens: time passes, or a token is cancelled. -/
  | pass (change : σ → σ)

namespace Operation

/-- The steps that an operation registers. -/
def steps : Operation σ → List (Step (StateM σ))
  | .register s => [s]
  | .registerAll ss => ss
  | .run _ => []
  | .pass _ => []

/-- Whether an operation is a run. -/
def isRun : Operation σ → Bool
  | .run _ => true
  | _ => false

end Operation

/-- An executor in the hands of its clients: what it works on, what it has done and what it has
answered so far. -/
structure Session (σ : Type) where
  executor : Executor (Monitored σ) := {}
  world : σ
  events : List Event := []
  answers : List (Except ExecutorError Unit) := []

namespace Session

/-- An operation on an executor. -/
def operate (x : Session σ) : Operation σ → Session σ
  | .register s =>
    { x with executor := x.executor.register (monitor x.executor.steps.length s) }
  | .registerAll ss =>
    { x with executor := x.executor.registerAll (monitorFrom x.executor.steps.length ss) }
  | .run isCancelled =>
    let r := x.executor.run (look isCancelled) (x.world, x.events)
    { executor := r.1.2, world := r.2.1, events := r.2.2, answers := x.answers ++ [r.1.1] }
  | .pass change => { x with world := change x.world }

/-- A new executor after some operations. -/
def after (world : σ) (operations : List (Operation σ)) : Session σ :=
  operations.foldl operate { world }

theorem after_append (world : σ) (first second : List (Operation σ)) :
    after world (first ++ second) = second.foldl operate (after world first) :=
  List.foldl_append

/-! ### Before the first run -/

/-- The steps that operations register, in order. -/
def registered (operations : List (Operation σ)) : List (Step (StateM σ)) :=
  operations.flatMap Operation.steps

/-- An executor that has not run: it is idle, with the steps registered so far, and has done nothing. -/
structure Unrun (x : Session σ) (steps : List (Step (StateM σ))) : Prop where
  executor : x.executor = { steps := monitorFrom 0 steps, state := .idle }
  events : x.events = []
  answers : x.answers = []

theorem Unrun.operate {x : Session σ} {steps : List (Step (StateM σ))} (h : x.Unrun steps)
    {operation : Operation σ} (hrun : operation.isRun = false) :
    (x.operate operation).Unrun (steps ++ operation.steps) := by
  obtain ⟨hexecutor, hevents, hanswers⟩ := h
  have hlength : x.executor.steps.length = steps.length := by
    rw [hexecutor, length_monitorFrom]
  cases operation with
  | register s =>
    refine ⟨?_, hevents, hanswers⟩
    show x.executor.register (monitor x.executor.steps.length s) = _
    rw [hlength, hexecutor, register, Operation.steps, monitorFrom_append, Nat.zero_add]
    rfl
  | registerAll ss =>
    refine ⟨?_, hevents, hanswers⟩
    show x.executor.registerAll (monitorFrom x.executor.steps.length ss) = _
    rw [hlength, hexecutor, registerAll, Operation.steps, monitorFrom_append, Nat.zero_add]
  | run isCancelled => cases hrun
  | pass change =>
    refine ⟨?_, hevents, hanswers⟩
    rw [Operation.steps, List.append_nil]
    exact hexecutor

theorem unrun_after (world : σ) {operations : List (Operation σ)}
    (h : ∀ operation ∈ operations, operation.isRun = false) :
    (after world operations).Unrun (registered operations) := by
  -- along the operations from the front, the last one being taken last
  induction operations using List.reverseRecOn with
  | nil => exact ⟨rfl, rfl, rfl⟩
  | append_singleton before operation ih =>
    have hbefore := ih fun o ho => h o (List.mem_append_left _ ho)
    have hlast := h operation (List.mem_append_right _ (List.mem_singleton_self _))
    have hregistered : registered (before ++ [operation]) = registered before ++ operation.steps := by
      simp [registered]
    rw [after_append, hregistered]
    exact hbefore.operate hlast

/-! ### The first run -/

/-- An executor that has run: how it went, and the state that this leaves. -/
structure Ran (x : Session σ) (descriptions : List String) (failed : Option StepFailed) : Prop where
  goes : Goes 0 descriptions x.events failed
  state : x.executor.state = .afterRun failed
  answers : x.answers = [outcome failed]

theorem Unrun.run {x : Session σ} {steps : List (Step (StateM σ))} (h : x.Unrun steps)
    (isCancelled : σ → Bool) :
    ∃ failed, (x.operate (.run isCancelled)).Ran (steps.map Step.description) failed := by
  obtain ⟨hexecutor, hevents, hanswers⟩ := h
  obtain ⟨failed, v, news, hrun, hgoes⟩ := goes_performFrom isCancelled 0 steps x.world []
  have hall : x.executor.run (look isCancelled) (x.world, x.events) =
      ((outcome failed, { steps := monitorFrom 0 steps, state := .afterRun failed }), v, news) := by
    rw [hexecutor, hevents, Executor.run, if_pos rfl]
    show StateT.bind (performFrom _ _ _) _ _ = _
    rw [StateT.bind, hrun]
    rfl
  refine ⟨failed, ?_, ?_, ?_⟩
  · show Goes 0 _ (x.executor.run (look isCancelled) (x.world, x.events)).2.2 failed
    rw [hall]
    exact hgoes
  · show (x.executor.run (look isCancelled) (x.world, x.events)).1.2.state = _
    rw [hall]
  · show x.answers ++ [(x.executor.run (look isCancelled) (x.world, x.events)).1.1] = _
    rw [hall, hanswers, List.nil_append]

/-! ### Later runs -/

/-- An executor that has run does nothing more, whatever it is asked: it keeps its state, and answers
each run with it. -/
structure Spent (x y : Session σ) (runs : Nat) : Prop where
  events : y.events = x.events
  state : y.executor.state = x.executor.state
  answers : y.answers = x.answers ++ List.replicate runs (.error (.alreadyRan x.executor.state))

theorem Spent.operate {x y : Session σ} {runs : Nat} (h : Spent x y runs)
    (hx : x.executor.state ≠ .idle) (operation : Operation σ) :
    Spent x (y.operate operation) (runs + if operation.isRun then 1 else 0) := by
  obtain ⟨hevents, hstate, hanswers⟩ := h
  cases operation with
  | register s => exact ⟨hevents, hstate, hanswers⟩
  | registerAll ss => exact ⟨hevents, hstate, hanswers⟩
  | run isCancelled =>
    have hrun : y.executor.run (look isCancelled) (y.world, y.events) =
        ((.error (.alreadyRan y.executor.state), y.executor), y.world, y.events) := by
      rw [Executor.run, if_neg (hstate ▸ hx)]
      rfl
    refine ⟨?_, ?_, ?_⟩
    · show (y.executor.run (look isCancelled) (y.world, y.events)).2.2 = _
      rw [hrun, hevents]
    · show (y.executor.run (look isCancelled) (y.world, y.events)).1.2.state = _
      rw [hrun, hstate]
    · show y.answers ++ [(y.executor.run (look isCancelled) (y.world, y.events)).1.1] = _
      rw [hrun, hstate, hanswers, List.append_assoc]
      exact congrArg _ List.replicate_succ'.symm
  | pass change => exact ⟨hevents, hstate, hanswers⟩

theorem spent_foldl {x : Session σ} (hx : x.executor.state ≠ .idle)
    (operations : List (Operation σ)) :
    Spent x (operations.foldl Session.operate x) (operations.countP Operation.isRun) := by
  induction operations using List.reverseRecOn with
  | nil => exact ⟨rfl, rfl, (List.append_nil _).symm⟩
  | append_singleton before operation ih =>
    rw [List.foldl_append, List.countP_append, List.countP_singleton]
    exact ih.operate hx operation

/-! ### The whole life -/

/-- What an executor does in its life. -/
structure Lives (world : σ) (operations : List (Operation σ)) : Prop where
  /-- No step is performed twice. -/
  once : ((after world operations).events.filterMap Event.step?).Nodup
  /-- Up to the first run the executor is idle and does nothing. -/
  idle : (∀ operation ∈ operations, operation.isRun = false) →
    (after world operations).executor.state = .idle ∧ (after world operations).events = []
  /-- The first run goes over the steps registered by then: it answers with the step that it fails in,
  and leaves the executor failed, or there is none and it leaves it completed. -/
  first : ∀ before isCancelled later, operations = before ++ .run isCancelled :: later →
    (∀ operation ∈ before, operation.isRun = false) →
    let ran := after world (before ++ [.run isCancelled])
    ∃ failed, Goes 0 ((registered before).map Step.description) ran.events failed ∧
      (match failed with
        | none => ran.answers = [.ok ()] ∧ ran.executor.state = .completed
        | some f => ran.answers = [.error (.step f)] ∧ ran.executor.state = .failed)
  /-- Every later run is answered with the state that the first one left; nothing more is performed and
  the state stays. -/
  spent : ∀ before isCancelled later, operations = before ++ .run isCancelled :: later →
    (∀ operation ∈ before, operation.isRun = false) →
    Spent (after world (before ++ [.run isCancelled])) (after world operations)
      (later.countP Operation.isRun)

/-- The first run, with all that is before it, and what is left of the operations. -/
theorem ran_after (world : σ) {before : List (Operation σ)}
    (hbefore : ∀ operation ∈ before, operation.isRun = false) (isCancelled : σ → Bool) :
    ∃ failed, (after world (before ++ [.run isCancelled])).Ran
      ((registered before).map Step.description) failed := by
  rw [after_append]
  exact (unrun_after world hbefore).run isCancelled

theorem Ran.not_idle {x : Session σ} {descriptions : List String} {failed : Option StepFailed}
    (h : x.Ran descriptions failed) : x.executor.state ≠ .idle := by
  rw [h.state]
  cases failed <;> simp [State.afterRun]

theorem spent_after (world : σ) {before later : List (Operation σ)} {isCancelled : σ → Bool}
    (hbefore : ∀ operation ∈ before, operation.isRun = false) :
    Spent (after world (before ++ [.run isCancelled]))
      (after world (before ++ .run isCancelled :: later)) (later.countP Operation.isRun) := by
  obtain ⟨failed, hran⟩ := ran_after world hbefore isCancelled
  have hsplit : after world (before ++ .run isCancelled :: later) =
      later.foldl operate (after world (before ++ [.run isCancelled])) := by
    rw [← after_append, List.append_assoc]
    rfl
  rw [hsplit]
  exact spent_foldl hran.not_idle later

/-- Operations have no run among them, or a first one. -/
theorem first_run (operations : List (Operation σ)) :
    (∀ operation ∈ operations, operation.isRun = false) ∨
      ∃ before isCancelled later, operations = before ++ .run isCancelled :: later ∧
        ∀ operation ∈ before, operation.isRun = false := by
  induction operations with
  | nil => exact Or.inl (by simp)
  | cons operation rest ih =>
    cases operation with
    | run isCancelled => exact Or.inr ⟨[], isCancelled, rest, rfl, by simp⟩
    | _ =>
      rcases ih with hnone | ⟨before, isCancelled, later, rfl, hbefore⟩
      · exact Or.inl (List.forall_mem_cons.mpr ⟨rfl, hnone⟩)
      · exact Or.inr ⟨_ :: before, isCancelled, later, rfl, List.forall_mem_cons.mpr ⟨rfl, hbefore⟩⟩

/-- Whatever clients do with an executor, and whatever its steps do, it runs once. -/
theorem runs_once (world : σ) (operations : List (Operation σ)) : Lives world operations where
  once := by
    rcases first_run operations with hnone | ⟨before, isCancelled, later, rfl, hbefore⟩
    · rw [(unrun_after world hnone).events]
      exact List.nodup_nil
    · obtain ⟨failed, hran⟩ := ran_after world hbefore isCancelled
      rw [(spent_after world hbefore).events]
      exact hran.goes.nodup
  idle := by
    intro hnone
    have hunrun := unrun_after world hnone
    exact ⟨by rw [hunrun.executor], hunrun.events⟩
  first := by
    intro before isCancelled later _ hbefore
    obtain ⟨failed, hran⟩ := ran_after world hbefore isCancelled
    refine ⟨failed, hran.goes, ?_⟩
    cases failed with
    | none => exact ⟨hran.answers, hran.state⟩
    | some f => exact ⟨hran.answers, hran.state⟩
  spent := by
    rintro before isCancelled later rfl hbefore
    exact spent_after world hbefore

end Session

end EcosystemSetup.Executor

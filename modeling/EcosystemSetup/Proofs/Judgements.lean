import EcosystemSetup.Proofs.Readiness
import EcosystemSetup.Proofs.Verdicts

/-!
# What a wait judges

Listening applies the predicate to some of the objects that it hears of. To see to which, and how often,
listening is described once more with the question for an object's readiness left open, in any monad
that answers it. Where the predicate answers, this is the listening of a wait; where every question is
noted besides, the notes are what the wait has judged. Main statement: these are the targets that the
events announce, each once and in order, up to the first event that decides.
-/

namespace EcosystemSetup.Wait

open Cluster

namespace Goal

variable (g : Goal)

/-! ## Events up to a decision -/

/-- The target that an event announces, if it does. -/
def target? (e : Cluster.Event g.collection) : Option (Object g.collection) :=
  (announced? e).filter g.concerns

/-- The targets that events announce, up to the first event that decides. -/
def candidates (events : List (Cluster.Event g.collection)) : List (Object g.collection) :=
  (events.take (events.findIdx (fun e => (g.verdict? e).isSome) + 1)).filterMap g.target?

variable {g : Goal} {e : Cluster.Event g.collection}
  {events first second : List (Cluster.Event g.collection)}

@[simp] theorem candidates_nil : g.candidates [] = [] := rfl

theorem candidates_cons_of_verdict {outcome : Outcome} (h : g.verdict? e = some outcome) :
    g.candidates (e :: events) = (g.target? e).toList := by
  cases htarget : g.target? e <;> simp [candidates, List.findIdx_cons, h, htarget]

theorem candidates_cons_of_verdict_none (h : g.verdict? e = none) :
    g.candidates (e :: events) = (g.target? e).toList ++ g.candidates events := by
  cases htarget : g.target? e <;> simp [candidates, List.findIdx_cons, h, htarget]

/-- Where the first events decide nothing, those behind them have their say. -/
theorem candidates_append_of_verdict_none (h : ∀ e ∈ first, g.verdict? e = none) :
    g.candidates (first ++ second) = first.filterMap g.target? ++ g.candidates second := by
  induction first with
  | nil => rfl
  | cons e rest ih =>
    rw [List.cons_append, candidates_cons_of_verdict_none (h e List.mem_cons_self),
      ih fun e he => h e (List.mem_cons_of_mem _ he)]
    cases htarget : g.target? e <;> simp [htarget]

theorem candidates_of_verdict_none (h : ∀ e ∈ events, g.verdict? e = none) :
    g.candidates events = events.filterMap g.target? := by
  have hsplit : g.candidates (events ++ []) = events.filterMap g.target? ++ g.candidates [] :=
    candidates_append_of_verdict_none h
  simpa using hsplit

/-- Whatever breaks a stream announces nothing. -/
theorem target?_of_breaks (h : breaks (.ok e) = true) : g.target? e = none := by
  cases e with
  | error s => rfl
  | added o => simp [breaks] at h
  | modified o => simp [breaks] at h
  | deleted o => simp [breaks] at h
  | bookmark v => simp [breaks] at h

/-! ## Listening with the question left open -/

section Asking

variable {m : Type → Type} [Monad m] (ask : Object g.collection → m Readiness)

/-- What a change of an object means. -/
def weighChange (version : String) (o : Object g.collection) : m Reaction :=
  if g.concerns o then do
    match ← ask o with
    | .ready => pure (.decide (.ok ()))
    | .failed reason => pure (.decide (.error (.failed g.targetText reason)))
    | .pending => pure (.goOn (o.metadata.resourceVersion.getD version))
  else pure (.goOn version)

/-- What an event means. -/
def weigh (version : String) : Cluster.Event g.collection → m Reaction
  | .added o => g.weighChange ask version o
  | .modified o => g.weighChange ask version o
  | e => pure (g.react version e)

/-- Listens to the items of a stream until one decides or breaks it. -/
def attend (version : String) : Session g.collection → m Heard
  | [] => pure (.drained version)
  | .error _ :: _ => pure (.broken version)
  | .ok e :: rest => do
    match ← g.weigh ask version e with
    | .goOn v => attend v rest
    | .reopen => pure (.broken version)
    | .decide outcome => pure (.decided outcome)

theorem weigh_pure [LawfulMonad m] (version : String) (e : Cluster.Event g.collection) :
    g.weigh (fun o => pure (g.predicate o)) version e = (pure (g.react version e) : m Reaction) := by
  have hchange : ∀ o, g.weighChange (fun o => pure (g.predicate o)) version o =
      (pure (g.afterChange version o) : m Reaction) := by
    intro o
    unfold weighChange afterChange
    split
    · rw [pure_bind]
      cases g.predicate o <;> rfl
    · rfl
  cases e with
  | added o => exact hchange o
  | modified o => exact hchange o
  | _ => rfl

/-- Where the predicate answers the questions, this is the listening of a wait. -/
theorem attend_pure [LawfulMonad m] (version : String) (items : Session g.collection) :
    g.attend (fun o => pure (g.predicate o)) version items =
      (pure (g.listen version items) : m Heard) := by
  induction items generalizing version with
  | nil => rfl
  | cons item rest ih =>
    cases item with
    | error e => rfl
    | ok e =>
      rw [attend, listen, weigh_pure, pure_bind]
      cases g.react version e with
      | goOn v => exact ih v
      | reopen => rfl
      | decide outcome => rfl

end Asking

/-! ## Judged objects -/

/-- Answers by the predicate, and notes what was asked for. -/
def note (o : Object g.collection) : StateM (List (Object g.collection)) Readiness := do
  modify fun noted => noted ++ [o]
  return g.predicate o

variable (g) in
/-- The objects to which listening applies the predicate, in order. -/
def judged (version : String) (items : Session g.collection) : List (Object g.collection) :=
  ((g.attend note version items).run []).2

theorem run_note_bind {α : Type} (o : Object g.collection)
    (f : Readiness → StateM (List (Object g.collection)) α) (noted : List (Object g.collection)) :
    (note o >>= f).run noted = (f (g.predicate o)).run (noted ++ [o]) := rfl

theorem run_weigh_note (version : String) (e : Cluster.Event g.collection)
    (noted : List (Object g.collection)) :
    (g.weigh note version e).run noted =
      pure (g.react version e, noted ++ (g.target? e).toList) := by
  have hchange : ∀ o, (g.weighChange note version o).run noted =
      pure (g.afterChange version o, noted ++ ((some o).filter g.concerns).toList) := by
    intro o
    unfold weighChange afterChange
    by_cases hconcerns : g.concerns o = true
    · rw [if_pos hconcerns, if_pos hconcerns, run_note_bind, Option.filter_some, if_pos hconcerns]
      cases g.predicate o <;> rfl
    · rw [if_neg hconcerns, if_neg hconcerns, Option.filter_some, if_neg hconcerns]
      simp
  cases e with
  | added o => exact hchange o
  | modified o => exact hchange o
  | _ => simp [weigh, target?, announced?]

/-- Taking notes does not change what listening comes to, and what is noted are the targets that the
events announce, up to the first event that decides. -/
theorem run_attend_note (version : String) (items : Session g.collection)
    (noted : List (Object g.collection)) :
    (g.attend note version items).run noted =
      pure (g.listen version items, noted ++ g.candidates (heard items)) := by
  induction items generalizing version noted with
  | nil => simp [attend, listen, heard_nil]
  | cons x rest ih =>
    cases x with
    | error e =>
      have hbreaks : breaks (c := g.collection) (.error e) = true := rfl
      rw [heard_cons_of_breaks hbreaks]
      simp [attend, listen]
    | ok e =>
      rw [attend, StateT.run_bind, run_weigh_note, pure_bind]
      by_cases hbreaks : breaks (.ok e) = true
      · rw [listen_cons_of_breaks hbreaks, heard_cons_of_breaks hbreaks, react_of_breaks hbreaks,
          target?_of_breaks hbreaks]
        simp
      · rw [Bool.not_eq_true] at hbreaks
        rw [heard_cons_of_not_breaks hbreaks]
        cases hverdict : g.verdict? e with
        | some outcome =>
          rw [listen_cons_of_verdict hverdict, candidates_cons_of_verdict hverdict,
            react_of_verdict hverdict]
          rfl
        | none =>
          rw [listen_cons_of_verdict_none hbreaks hverdict,
            candidates_cons_of_verdict_none hverdict, react_of_verdict_none hbreaks hverdict,
            ← List.append_assoc]
          exact ih _ _

/-- What listening judges. -/
theorem judged_eq (version : String) (items : Session g.collection) :
    g.judged version items = g.candidates (heard items) := by
  rw [judged, run_attend_note]
  rfl

end Goal

end EcosystemSetup.Wait

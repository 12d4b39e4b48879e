import EcosystemSetup.Proofs.ClaimAttempts
import EcosystemSetup.Proofs.Prerequisites
import EcosystemSetup.Proofs.Rounds

/-!
# Setups that share the state map

Any number of runs of setups share the config maps, each with a configuration of its own, and their
actions come in any order. At most one of them gets past its claim, and one does as soon as a claim has
come to its write without an error put in its way. All others leave no trace, and the recorded state only
moves from none to `installing` and from there to `installed`.
-/

namespace EcosystemSetup.Setup

open Cluster Program StateStore

/-! ## The stages of a run -/

/-- The state that an answer to the read of the state map shows. -/
def seenState (reply : Except AccessError (Object .configMaps)) :
    Except StateError (Option RunState) :=
  match mapOfAnswer reply with
  | .error e => .error e
  | .ok current => stateOfCurrent current

/-- What a run does with the state that it has seen. -/
def guarded (s : Setup) : Except StateError (Option RunState) → Program (Except SetupError Unit)
  | .error e => .done (.error (.state e))
  | .ok (some found) => .done (.error (refusal found))
  | .ok none =>
    match s.pipeline with
    | .error e => .done (.error e)
    | .ok executor => claimAndComplete executor

/-- What a run does with the result of its claim. -/
def afterClaim (executor : Executor Program) :
    Except StateError Unit → Program (Except SetupError Unit)
  | .error e => .done (.error (claimRefusal e))
  | .ok () => complete executor

/-- Looking at the state is one call. -/
theorem get_eq :
    StateStore.get = .call (.get .configMaps mapName) fun reply => .done (seenState reply) := by
  unfold StateStore.get
  rw [readMap_eq]
  change Program.call _ _ = _
  congr 1
  funext reply
  unfold seenState
  dsimp only
  generalize mapOfAnswer reply = answer
  cases answer with
  | error e => rfl
  | ok current => cases current <;> rfl

/-- A run looks at the state first. -/
theorem run_eq (s : Setup) :
    s.run = .call (.get .configMaps mapName) fun reply => s.guarded (seenState reply) := by
  unfold Setup.run
  rw [get_eq]
  rfl

theorem claimAndComplete_eq (executor : Executor Program) :
    claimAndComplete executor = claim.bind (afterClaim executor) := rfl

/-- A run that has looked at the state ends with an error, or it goes on to its claim. -/
theorem guarded_cases (s : Setup) (found : Except StateError (Option RunState)) :
    (∃ e, s.guarded found = .done (.error e)) ∨
      found = .ok none ∧ ∃ executor, s.pipeline = .ok executor ∧
        s.guarded found = claim.bind (afterClaim executor) := by
  unfold guarded
  cases found with
  | error e => exact Or.inl ⟨_, rfl⟩
  | ok found =>
    cases found with
    | some state => exact Or.inl ⟨_, rfl⟩
    | none =>
      dsimp only
      cases hpipeline : s.pipeline with
      | error e => exact Or.inl ⟨e, rfl⟩
      | ok executor => exact Or.inr ⟨rfl, executor, rfl, claimAndComplete_eq executor⟩

/-! ## After the claim -/

/-- The calls that record the end of a setup. -/
def RecordsEnd : Call → Prop
  | .create .configMaps o => stateOf o = .ok (some .installed)
  | .update .configMaps o => stateOf o = .ok (some .installed)
  | _ => False

/-- The rule of a run that has claimed the setup: it leaves the state map, or records the end in it. -/
def finishRule : Rule :=
  ⟨fun k => LeavesState k ∨ RecordsEnd k, Honest⟩

theorem obeys_set_installed : (StateStore.set .installed).Obeys finishRule :=
  StateStore.obeys_set (Or.inl trivial) (fun text => Or.inr (stateOf_fresh .installed text))
    fun m text => Or.inr (stateOf_withState m .installed text)

/-- Completing a claimed setup keeps to the rule. -/
theorem obeys_complete {s : Setup} {executor : Executor Program}
    (h : s.pipeline = .ok executor) : (complete executor).Obeys finishRule := by
  have hsteps : ∀ step ∈ executor.steps, step.perform.Obeys finishRule := by
    unfold pipeline at h
    cases hplan : s.plannedSteps with
    | error e => simp [hplan, Except.map] at h
    | ok plan =>
      simp only [hplan, Except.map, Except.ok.injEq] at h
      subst h
      intro step hstep
      exact (steps_obey_frameRule s plan step hstep).mono (fun _ => Or.inl) fun _ _ => id
  refine obeys_bind (Executor.obeys_run hsteps) ?_
  intro result
  split
  · exact obeys_pure _
  · exact obeys_bind obeys_set_installed fun _ => obeys_pure _

/-- What a run past its claim does to the config maps: the state map stays as it is, or the end is
recorded in it. -/
theorem finish_step {map : Option (Object .configMaps)} {bound : Nat} {taken : Prop}
    {s s' : Store .configMaps} {t u : Program (Except SetupError Unit)} {action : Action}
    {faulted : Bool} (hs : Custody map bound taken s) (htaken : taken) (ht : t.Obeys finishRule)
    (hstep : Program.Step t action u) (hanswered : Answered s action faulted s') :
    u.Obeys finishRule ∧ Custody map bound taken s' ∧
      (s'.object? mapName = s.object? mapName ∨
        stateOfCurrent (s'.object? mapName) = .ok (some .installed)) := by
  -- the store is filed, so a config map that is read bears the name that was asked for
  have hhonest : ∀ k reply, action = .called k reply → Honest k reply := by
    rintro k reply rfl
    cases k with
    | get c name =>
      cases reply with
      | ok o =>
        cases c with
        | configMaps => exact hs.filed.name_eq (hanswered.of_get.2.2.2 o rfl)
        | _ => trivial
      | error e => cases c <;> trivial
    | _ => trivial
  refine ⟨hstep.obeys ht hhonest, ?_⟩
  rcases hanswered.cases_written with ⟨hobjects, hrevision⟩ | ⟨o, reply, haction, hwritten⟩
  · exact ⟨hs.of_objects hobjects hrevision, Or.inl (Store.object?_congr hobjects mapName)⟩
  · by_cases hname : mapName = o.name
    · have hend : stateOf o = .ok (some .installed) := by
        rcases haction with rfl | rfl
        · exact (hstep.allows ht).resolve_left fun h => h hname.symm
        · exact (hstep.allows ht).resolve_left fun h => h hname.symm
      cases reply with
      | error e =>
        have hsame : s' = s := hwritten.eq_of_error rfl
        exact ⟨hsame ▸ hs, Or.inl (hsame ▸ rfl)⟩
      | ok q =>
        obtain ⟨hs', hinstalled⟩ := hs.of_state hwritten hname.symm hend
        exact ⟨hs'.congr (by simp [htaken]), Or.inr hinstalled⟩
    · obtain ⟨hs', hsame⟩ := hs.of_other hwritten hname
      exact ⟨hs', Or.inl hsame⟩

/-! ## Past the claim, and short of it -/

/-- The entries of a run that has got past its claim: it saw no state, and its claim succeeded. -/
def GetsPast (entries : List Entry) : Prop :=
  ∃ guard claim rest, entries = guard ++ claim ++ rest ∧
    Course StateStore.get (guard.map Entry.action) (.done (.ok none)) ∧
    Course StateStore.claim (claim.map Entry.action) (.done (.ok ()))

/-- The entries of a run whose claim has come to its write without an error put in its way. -/
def ReachesWrite (entries : List Entry) : Prop :=
  ∃ guard claim rest left, entries = guard ++ claim ++ rest ∧
    Course StateStore.get (guard.map Entry.action) (.done (.ok none)) ∧
    Course StateStore.claim (claim.map Entry.action) left ∧
    (∃ x ∈ claim, Writes x.action) ∧ ∀ x ∈ claim, x.faulted = false

/-- The entries of a run that has not got past its claim so far, and what is left of it. -/
inductive Short (map : Option (Object .configMaps)) (taken : Prop) (s : Setup) :
    List Entry → Program (Except SetupError Unit) → Prop where
  | unstarted : Short map taken s [] s.run
  | refused {reply : Except AccessError (Object .configMaps)} {f : Bool} {e : SetupError}
      (truthful : Truthful map reply f) (ended : s.guarded (seenState reply) = .done (.error e)) :
      Short map taken s [⟨.called (.get .configMaps mapName) reply, f⟩] (.done (.error e))
  | claiming {reply : Except AccessError (Object .configMaps)} {f : Bool}
      {executor : Executor Program} {entries : List Entry}
      {c : Program (Except StateError Unit)} (unclaimed : seenState reply = .ok none)
      (planned : s.pipeline = .ok executor) (attempt : Attempt map taken entries c) :
      Short map taken s (⟨.called (.get .configMaps mapName) reply, f⟩ :: entries)
        (c.bind (afterClaim executor))

/-- Looking at the state is one entry. -/
theorem length_of_course_get {entries : List Entry} {found : Except StateError (Option RunState)}
    (h : Course StateStore.get (entries.map Entry.action) (.done found)) :
    ∃ entry, entries = [entry] := by
  rw [get_eq] at h
  cases entries with
  | nil => cases h
  | cons entry rest =>
    rw [List.map_cons] at h
    generalize entry.action = action at h
    cases h with
    | cons step later =>
      cases step with
      | call reply =>
        obtain ⟨hrest, _⟩ := later.of_done
        rw [List.map_eq_nil_iff] at hrest
        exact ⟨entry, by rw [hrest]⟩

namespace Short

variable {map : Option (Object .configMaps)} {bound : Nat} {taken : Prop} {s : Setup}
  {entries : List Entry} {t u : Program (Except SetupError Unit)} {store store' : Store .configMaps}
  {action : Action} {faulted : Bool}

theorem mono {taken' : Prop} (h : Short map taken s entries t) (hle : taken → taken') :
    Short map taken' s entries t := by
  cases h with
  | unstarted => exact .unstarted
  | refused truthful ended => exact .refused truthful ended
  | claiming unclaimed planned attempt => exact .claiming unclaimed planned (attempt.mono hle)

theorem fruitless (h : Short map taken s entries t) : ∀ x ∈ entries, Fruitless x.action := by
  cases h with
  | unstarted => simp
  | refused => simp [Fruitless.read]
  | claiming _ _ attempt =>
    rw [List.forall_mem_cons]
    exact ⟨.read _, attempt.fruitless⟩

theorem length_le (h : Short map taken s entries t) : entries.length ≤ 4 := by
  cases h with
  | unstarted => simp
  | refused => simp
  | claiming _ _ attempt => exact Nat.succ_le_succ attempt.length_le

/-- What follows the look at the state is the attempt to claim. -/
theorem attempt_of_split {guard claim rest : List Entry}
    {found : Except StateError (Option RunState)}
    (h : Short map taken s (guard ++ claim ++ rest) t) (hclaim : claim ≠ [])
    (hguard : Course StateStore.get (guard.map Entry.action) (.done found)) :
    ∃ c, Attempt map taken (claim ++ rest) c := by
  obtain ⟨entry, rfl⟩ := length_of_course_get hguard
  generalize hentries : [entry] ++ claim ++ rest = entries at h
  cases h with
  | unstarted => simp at hentries
  | refused =>
    simp only [List.cons_append, List.nil_append, List.cons.injEq,
      List.append_eq_nil_iff] at hentries
    exact absurd hentries.2.1 hclaim
  | claiming _ _ attempt =>
    simp only [List.cons_append, List.nil_append, List.cons.injEq] at hentries
    exact ⟨_, hentries.2 ▸ attempt⟩

theorem not_getsPast (h : Short map taken s entries t) : ¬ GetsPast entries := by
  rintro ⟨guard, claim, rest, rfl, hguard, hclaim⟩
  have hne : claim ≠ [] := by
    rintro rfl
    rw [claim_eq] at hclaim
    cases hclaim
  obtain ⟨c, hattempt⟩ := h.attempt_of_split hne hguard
  -- a course of the claim that succeeds would leave nothing to do
  have hcourse := hattempt.course
  rw [List.map_append] at hcourse
  obtain ⟨left, hfirst, hrest⟩ := hcourse.split
  rw [hfirst.unique hclaim] at hrest
  exact hattempt.ne_done_ok hrest.of_done.2

/-- If a claim has come to its write, and no error was put in its way, then the setup is taken. -/
theorem taken_of_reachesWrite (h : Short map taken s entries t) (hreach : ReachesWrite entries) :
    taken := by
  obtain ⟨guard, claim, rest, left, rfl, hguard, _, hwrite, hclean⟩ := hreach
  have hne : claim ≠ [] := by
    rintro rfl
    simp at hwrite
  obtain ⟨c, hattempt⟩ := h.attempt_of_split hne hguard
  exact hattempt.taken_of_write hwrite hclean

/-- A run that has ended short of its claim, with a pipeline of its own and no error put in its way, has
found the setup running or installed. -/
theorem refusal {answer : Except SetupError Unit} (h : Short map taken s entries (.done answer))
    (hclean : ∀ x ∈ entries, x.faulted = false) {executor : Executor Program}
    (hplanned : s.pipeline = .ok executor) :
    answer = .error .alreadyRunning ∨ answer = .error .alreadyInstalled := by
  generalize hleft : Program.done answer = left at h
  cases h with
  | unstarted =>
    rw [run_eq] at hleft
    cases hleft
  | @refused reply f e truthful ended =>
    cases hleft
    rw [List.forall_mem_singleton] at hclean
    obtain ⟨current, found, hread, hstate, _⟩ := truthful.seen hclean
    have hseen : seenState reply = .ok found := by
      unfold seenState
      rw [hread]
      exact hstate
    rw [hseen] at ended
    -- had it seen no state, it would have gone on to its claim
    cases found with
    | none =>
      simp only [guarded, hplanned, claimAndComplete_eq, claim_eq] at ended
      cases ended
    | some state =>
      cases ended
      cases state with
      | installing => exact Or.inl rfl
      | installed => exact Or.inr rfl
  | claiming unclaimed planned attempt =>
    rw [List.forall_mem_cons] at hclean
    obtain ⟨result, rfl, hanswer⟩ := bind_eq_done hleft.symm
    cases result with
    | ok done => exact absurd rfl attempt.ne_done_ok
    | error e =>
      obtain ⟨found, rfl⟩ := attempt.eq_taken hclean.2
      cases hanswer
      cases found with
      | none => exact Or.inl rfl
      | some state =>
        cases state with
        | installing => exact Or.inl rfl
        | installed => exact Or.inr rfl

/-- One action of a run that is short of its claim: it leaves no trace, or it takes the setup, which
nobody held. -/
theorem step (h : Short map taken s entries t) (hs : Custody map bound taken store)
    (hstep : Program.Step t action u) (hanswered : Answered store action faulted store') :
    (Short map taken s (entries ++ [⟨action, faulted⟩]) u ∧ Custody map bound taken store' ∧
        store'.object? mapName = store.object? mapName) ∨
      GetsPast (entries ++ [⟨action, faulted⟩]) ∧ u.Obeys finishRule ∧ ¬ taken ∧
        Custody map bound True store' ∧
        stateOfCurrent (store'.object? mapName) = .ok (some .installing) := by
  cases h with
  | unstarted =>
    rw [run_eq] at hstep
    cases hstep with
    | call reply =>
      have htruthful := hs.truthful hanswered
      obtain ⟨hobjects, hrevision, _⟩ := hanswered.of_get
      have hsame := Store.object?_congr hobjects mapName
      -- the look at the state ends the run or brings it to its claim
      refine Or.inl ⟨?_, hs.of_objects hobjects hrevision, hsame⟩
      rcases s.guarded_cases (seenState reply) with ⟨e, he⟩ | ⟨hseen, executor, hplanned, hnext⟩
      · show Short map taken s [_] (s.guarded (seenState reply))
        rw [he]
        exact .refused htruthful he
      · show Short map taken s [_] (s.guarded (seenState reply))
        rw [hnext]
        exact .claiming hseen hplanned .begun
  | refused => exact absurd hstep not_step_done
  | @claiming reply f executor entries c unclaimed planned attempt =>
    by_cases hdone : ∃ a, c = .done a
    · obtain ⟨a, rfl⟩ := hdone
      cases a with
      | ok done => exact absurd rfl attempt.ne_done_ok
      | error e => exact absurd hstep not_step_done
    · obtain ⟨c', hstep', rfl⟩ := hstep.of_bind fun a ha => hdone ⟨a, ha⟩
      rcases attempt.step hs hstep' hanswered with
        ⟨hattempt, hs', hsame⟩ | ⟨rfl, htaken, hs', hinstalling⟩
      · exact Or.inl ⟨.claiming unclaimed planned hattempt, hs', hsame⟩
      · refine Or.inr ⟨?_, obeys_complete planned, htaken, hs', hinstalling⟩
        refine ⟨[⟨.called (.get .configMaps mapName) reply, f⟩], entries ++ [⟨action, faulted⟩], [],
          by simp, ?_, ?_⟩
        · rw [get_eq, ← unclaimed]
          exact .cons (Step.call (k := .get .configMaps mapName) reply) (.nil _)
        · rw [List.map_append]
          exact attempt.course.snoc hstep'

end Short

theorem GetsPast.append {entries : List Entry} (h : GetsPast entries) (more : List Entry) :
    GetsPast (entries ++ more) := by
  obtain ⟨guard, claim, rest, rfl, hguard, hclaim⟩ := h
  exact ⟨guard, claim, rest ++ more, by simp, hguard, hclaim⟩

/-! ## All runs together -/

/-- A recorded state moves from none to `installing`, and from there to `installed`. -/
inductive Moves :
    Except StateError (Option RunState) → Except StateError (Option RunState) → Prop where
  | stays (found : Except StateError (Option RunState)) : Moves found found
  | begins : Moves (.ok none) (.ok (some .installing))
  | completes : Moves (.ok (some .installing)) (.ok (some .installed))

/-- How the runs stand with each other: the winner, if there is one, has got past its claim, and all
others are short of theirs. -/
structure Standing (setups : List Setup) (map : Option (Object .configMaps)) (bound : Nat)
    (winner : Option Nat) (log : Log) (j : Joint (Except SetupError Unit)) : Prop where
  custody : Custody map bound (winner ≠ none) j.store
  length : j.runs.length = setups.length
  winner_lt : ∀ i, winner = some i → i < setups.length
  past : ∀ i t, winner = some i → j.runs[i]? = some t →
    GetsPast (log.entriesOf i) ∧ t.Obeys finishRule
  short : ∀ i s t, winner ≠ some i → setups[i]? = some s → j.runs[i]? = some t →
    Short map (winner ≠ none) s (log.entriesOf i) t

namespace Standing

variable {setups : List Setup} {map : Option (Object .configMaps)} {bound : Nat}
  {winner : Option Nat} {log : Log} {j j' : Joint (Except SetupError Unit)} {i : Nat}
  {t u : Program (Except SetupError Unit)} {action : Action} {faulted : Bool}
  {store : Store .configMaps}

/-- At the start nobody has won. -/
theorem start (hfiled : store.Filed)
    (hmap : ∀ m, store.object? mapName = some m → Original store.revision m) :
    Standing setups (store.object? mapName) store.revision none []
      ⟨store, setups.map Setup.run⟩ where
  custody :=
    { original := fun m hm => ⟨hfiled.name_eq hm, hmap m hm⟩
      filed := hfiled
      bound_le := Nat.le_refl _
      untouched := fun _ => rfl
      held := fun h => absurd rfl h }
  length := by simp
  winner_lt := by simp
  past := by simp
  short := by
    intro i s t _ hs ht
    simp only [List.getElem?_map, hs, Option.map_some, Option.some.injEq] at ht
    exact ht ▸ .unstarted

theorem exists_run (h : Standing setups map bound winner log j) (hi : i < setups.length) :
    ∃ s t, setups[i]? = some s ∧ j.runs[i]? = some t :=
  ⟨_, _, List.getElem?_eq_getElem hi, List.getElem?_eq_getElem (h.length ▸ hi)⟩

/-- The winner goes on. -/
theorem winner_step (h : Standing setups map bound winner log j) (hwinner : winner = some i)
    (hrun : j.runs[i]? = some t) (hstep : Program.Step t action u)
    (hanswered : Answered j.store action faulted store) :
    Standing setups map bound winner (log ++ [(i, ⟨action, faulted⟩)]) ⟨store, j.runs.set i u⟩ ∧
      Moves (stateOfCurrent (j.store.object? mapName))
        (stateOfCurrent (store.object? mapName)) := by
  have htaken : winner ≠ none := by simp [hwinner]
  obtain ⟨hpast, hobeys⟩ := h.past i t hwinner hrun
  obtain ⟨hu, hcustody, hstate⟩ := finish_step h.custody htaken hobeys hstep hanswered
  refine ⟨⟨hcustody, by simp [h.length], h.winner_lt, ?_, ?_⟩, ?_⟩
  · intro k t' hk ht'
    rw [hwinner, Option.some.injEq] at hk
    subst hk
    rw [Log.entriesOf_snoc_self]
    rw [List.getElem?_set_self (List.getElem?_eq_some_iff.mp hrun).1, Option.some.injEq] at ht'
    exact ⟨hpast.append _, ht' ▸ hu⟩
  · intro k s t' hk hs ht'
    have hne : i ≠ k := by
      rintro rfl
      exact hk hwinner
    rw [Log.entriesOf_snoc_ne hne]
    rw [List.getElem?_set_ne hne] at ht'
    exact h.short k s t' hk hs ht'
  · rcases hstate with hsame | hinstalled
    · rw [hsame]
      exact .stays _
    · obtain ⟨m, n, state, hm, _, _, hfound⟩ := h.custody.held htaken
      rw [hinstalled, hm]
      change Moves (stateOf m) _
      rw [hfound]
      cases state with
      | installing => exact .completes
      | installed => exact .stays _

/-- A run that is short of its claim goes on, or it wins. -/
theorem short_step (h : Standing setups map bound winner log j) (hwinner : winner ≠ some i)
    (hrun : j.runs[i]? = some t) (hstep : Program.Step t action u)
    (hanswered : Answered j.store action faulted store) :
    ∃ winner', Standing setups map bound winner' (log ++ [(i, ⟨action, faulted⟩)])
        ⟨store, j.runs.set i u⟩ ∧
      Moves (stateOfCurrent (j.store.object? mapName))
        (stateOfCurrent (store.object? mapName)) := by
  have hi : i < j.runs.length := (List.getElem?_eq_some_iff.mp hrun).1
  obtain ⟨s, _, hs, _⟩ := h.exists_run (h.length ▸ hi)
  have hself : (j.runs.set i u)[i]? = some u := List.getElem?_set_self hi
  have hother : ∀ {k : Nat}, i ≠ k → (j.runs.set i u)[k]? = j.runs[k]? :=
    fun hne => List.getElem?_set_ne hne
  -- the standing of all others stays, but if this run wins they learn that the setup is taken
  rcases (h.short i s t hwinner hs hrun).step h.custody hstep hanswered with
    ⟨hshort, hcustody, hsame⟩ | ⟨hpast, hobeys, hfree, hcustody, hinstalling⟩
  · refine ⟨winner, ⟨hcustody, by simp [h.length], h.winner_lt, ?_, ?_⟩, hsame ▸ .stays _⟩
    · intro k t' hk ht'
      have hne : i ≠ k := by
        rintro rfl
        exact hwinner hk
      rw [Log.entriesOf_snoc_ne hne]
      rw [hother hne] at ht'
      exact h.past k t' hk ht'
    · intro k s' t' hk hsk ht'
      by_cases hne : i = k
      · subst hne
        rw [hs, Option.some.injEq] at hsk
        rw [hself, Option.some.injEq] at ht'
        rw [Log.entriesOf_snoc_self]
        exact hsk ▸ ht' ▸ hshort
      · rw [Log.entriesOf_snoc_ne hne]
        rw [hother hne] at ht'
        exact h.short k s' t' hk hsk ht'
  · have hnone : winner = none := by
      by_contra hsome
      exact hfree hsome
    refine ⟨some i, ⟨hcustody.congr (by simp), by simp [h.length], ?_, ?_, ?_⟩, ?_⟩
    · rintro k hk
      rw [Option.some.injEq] at hk
      exact hk ▸ h.length ▸ hi
    · intro k t' hk ht'
      rw [Option.some.injEq] at hk
      subst hk
      rw [hself, Option.some.injEq] at ht'
      rw [Log.entriesOf_snoc_self]
      exact ⟨hpast, ht' ▸ hobeys⟩
    · intro k s' t' hk hsk ht'
      have hne : i ≠ k := fun hik => hk (congrArg some hik)
      rw [Log.entriesOf_snoc_ne hne]
      rw [hother hne] at ht'
      exact (h.short k s' t' (by simp [hnone]) hsk ht').mono fun _ => by simp
    · -- nobody had won, so the map was still the one from the beginning
      have hmap : stateOfCurrent (j.store.object? mapName) = .ok none := by
        rw [h.custody.untouched (by simp [hnone])]
        cases hm : map with
        | none => rfl
        | some m => exact (h.custody.original m hm).2.stateless
      rw [hmap, hinstalling]
      exact .begins

/-- One action of any run keeps the standing, and moves the recorded state on if at all. -/
theorem step (h : Standing setups map bound winner log j) {x : Nat × Entry} (hx : j.Step x j') :
    ∃ winner', Standing setups map bound winner' (log ++ [x]) j' ∧
      Moves (stateOfCurrent (j.store.object? mapName))
        (stateOfCurrent (j'.store.object? mapName)) := by
  cases hx with
  | @act i t u action faulted store hrun hstep hanswered =>
    by_cases hwinner : winner = some i
    · exact ⟨winner, h.winner_step hwinner hrun hstep hanswered⟩
    · exact h.short_step hwinner hrun hstep hanswered

/-- So there is a standing after every history. -/
theorem of_history (hfiled : store.Filed)
    (hmap : ∀ m, store.object? mapName = some m → Original store.revision m)
    (h : History ⟨store, setups.map Setup.run⟩ log j) :
    ∃ winner, Standing setups (store.object? mapName) store.revision winner log j := by
  induction h with
  | nil => exact ⟨none, start hfiled hmap⟩
  | snoc before hstep ih =>
    obtain ⟨winner, hstanding⟩ := ih
    obtain ⟨winner', hstanding', _⟩ := hstanding.step hstep
    exact ⟨winner', hstanding'⟩

theorem getsPast_iff (h : Standing setups map bound winner log j) (hi : i < setups.length) :
    GetsPast (log.entriesOf i) ↔ winner = some i := by
  obtain ⟨s, t, hs, ht⟩ := h.exists_run hi
  constructor
  · intro hpast
    by_contra hwinner
    exact (h.short i s t hwinner hs ht).not_getsPast hpast
  · intro hwinner
    exact (h.past i t hwinner ht).1

end Standing

/-- What a history of setups comes to: one claim at most. -/
structure OneClaim (setups : List Setup) (log : Log) (j : Joint (Except SetupError Unit)) :
    Prop where
  atMostOne : ∀ i k, i < setups.length → k < setups.length →
    GetsPast (log.entriesOf i) → GetsPast (log.entriesOf k) → i = k
  one : (∃ i < setups.length, ReachesWrite (log.entriesOf i)) →
    ∃! k, k < setups.length ∧ GetsPast (log.entriesOf k)
  /-- A run that has not got past its claim has read the state map, and at most tried a write that
  failed. -/
  fruitless : ∀ i < setups.length, ¬ GetsPast (log.entriesOf i) →
    (log.entriesOf i).length ≤ 4 ∧ ∀ x ∈ log.entriesOf i, Fruitless x.action
  /-- If it has ended, with no error put in its way and a pipeline of its own, it found the setup
  taken. -/
  refused : ∀ i s answer, setups[i]? = some s → ¬ GetsPast (log.entriesOf i) →
    j.runs[i]? = some (.done answer) → (∀ x ∈ log.entriesOf i, x.faulted = false) →
    (∃ executor, s.pipeline = .ok executor) →
    answer = .error .alreadyRunning ∨ answer = .error .alreadyInstalled
  /-- No run is ever stuck. -/
  goesOn : ∀ i < setups.length,
    (∃ answer, j.runs[i]? = some (.done answer)) ∨ ∃ entry j', j.Step (i, entry) j'
  moves : ∀ x j', j.Step x j' →
    Moves (stateOfCurrent (j.store.object? mapName)) (stateOfCurrent (j'.store.object? mapName))

/-- However the actions of the runs come in order, and whatever errors are put in their way: of all runs
that share config maps in which the setup is not claimed yet, at most one gets past its claim. -/
theorem one_claim {setups : List Setup} {store : Store .configMaps} (hfiled : store.Filed)
    (hmap : ∀ m, store.object? mapName = some m → Original store.revision m) {log : Log}
    {j : Joint (Except SetupError Unit)} (h : History ⟨store, setups.map Setup.run⟩ log j) :
    OneClaim setups log j := by
  obtain ⟨winner, hstanding⟩ := Standing.of_history hfiled hmap h
  have hshort : ∀ {i s t}, i < setups.length → ¬ GetsPast (log.entriesOf i) →
      setups[i]? = some s → j.runs[i]? = some t →
      Short (store.object? mapName) (winner ≠ none) s (log.entriesOf i) t := by
    intro i s t hi hpast hs ht
    have hwinner : winner ≠ some i := fun h => hpast ((hstanding.getsPast_iff hi).mpr h)
    exact hstanding.short i s t hwinner hs ht
  have hunique : ∀ i k, i < setups.length → k < setups.length →
      GetsPast (log.entriesOf i) → GetsPast (log.entriesOf k) → i = k := by
    intro i k hi hk hpast hpast'
    have hwinner := (hstanding.getsPast_iff hi).mp hpast
    rw [(hstanding.getsPast_iff hk).mp hpast', Option.some.injEq] at hwinner
    exact hwinner.symm
  refine ⟨hunique, ?_, ?_, ?_, ?_, ?_⟩
  · rintro ⟨i, hi, hreach⟩
    have hpast : ∃ k, k < setups.length ∧ GetsPast (log.entriesOf k) := by
      by_cases hi' : GetsPast (log.entriesOf i)
      · exact ⟨i, hi, hi'⟩
      · -- a run that is short of its claim has lost to the winner
        obtain ⟨s, t, hs, ht⟩ := hstanding.exists_run hi
        have htaken := (hshort hi hi' hs ht).taken_of_reachesWrite hreach
        obtain ⟨k, hk⟩ := Option.ne_none_iff_exists'.mp htaken
        have hlt := hstanding.winner_lt k hk
        exact ⟨k, hlt, (hstanding.getsPast_iff hlt).mpr hk⟩
    obtain ⟨k, hk, hpast⟩ := hpast
    exact ⟨k, ⟨hk, hpast⟩, fun k' hk' => hunique k' k hk'.1 hk hk'.2 hpast⟩
  · intro i hi hpast
    obtain ⟨s, t, hs, ht⟩ := hstanding.exists_run hi
    have hrun := hshort hi hpast hs ht
    exact ⟨hrun.length_le, hrun.fruitless⟩
  · rintro i s answer hs hpast ht hclean ⟨executor, hplanned⟩
    have hi : i < setups.length := (List.getElem?_eq_some_iff.mp hs).1
    exact (hshort hi hpast hs ht).refusal hclean hplanned
  · intro i hi
    obtain ⟨s, t, _, ht⟩ := hstanding.exists_run hi
    by_cases hdone : ∃ answer, t = .done answer
    · obtain ⟨answer, rfl⟩ := hdone
      exact Or.inl ⟨answer, ht⟩
    · exact Or.inr (Joint.can_act ht fun answer h => hdone ⟨answer, h⟩)
  · intro x j' hx
    obtain ⟨_, _, hmoves⟩ := hstanding.step hx
    exact hmoves

/-- A cluster that was shipped with a state map without a state, and that gives others their turn after
every read of a config map. -/
def shippedCluster : World Sandbox where
  backend :=
    { readyCluster.backend with
      configMaps :=
        { store := Store.insert {}
            { metadata := { name := some mapName, resourceVersion := some "1" }, body := {} }
          yields := true } }

theorem original_shipped {m : Object .configMaps}
    (h : shippedCluster.configMaps.object? mapName = some m) :
    Original shippedCluster.configMaps.revision m := by
  have hm : m = { metadata := { name := some mapName, resourceVersion := some "1" }, body := {} } :=
    (Option.some.inj h).symm
  subst hm
  refine ⟨rfl, "1", rfl, ?_⟩
  intro n hn hsame
  have hone : 1 = n := eq_of_toString_eq hsame
  have hrevision : shippedCluster.configMaps.revision = 1 := rfl
  omega

/-- Two runs that take turns on it: the first completes, the second finds the setup running. -/
theorem one_claim_twice :
    shippedCluster.configMaps.Filed ∧
      (∀ m, shippedCluster.configMaps.object? mapName = some m →
        Original shippedCluster.configMaps.revision m) ∧
      ∃ log j, History ⟨shippedCluster.configMaps, [casSetup, casSetup].map Setup.run⟩ log j ∧
        j.runs = [.done (.ok ()), .done (.error .alreadyRunning)] ∧
        stateOfCurrent (j.store.object? mapName) = .ok (some .installed) ∧
        OneClaim [casSetup, casSetup] log j := by
  have hfiled : shippedCluster.configMaps.Filed := Store.filed_empty.insert _
  have hresults : (runAll 20 ([casSetup, casSetup].map Setup.run) shippedCluster).1 =
      some [.ok (), .error .alreadyRunning] := by decide +kernel
  have hstate : stateOfCurrent ((runAll 20 ([casSetup, casSetup].map Setup.run)
      shippedCluster).2.configMaps.object? mapName) = .ok (some .installed) := by decide +kernel
  obtain ⟨log, j, hhistory, hstore, hruns⟩ :=
    exists_history_runAll 20 ([casSetup, casSetup].map Setup.run) shippedCluster
  refine ⟨hfiled, fun m => original_shipped, log, j, hhistory, hruns _ hresults, ?_,
    one_claim hfiled (fun m => original_shipped) hhistory⟩
  rw [hstore, hstate]

end EcosystemSetup.Setup

import EcosystemSetup.Proofs.Scripts

/-!
# Observations

What a wait gets to see of a script, in order: what its reads find in the end, then the events of one
session after the other, each up to the item that breaks it. Main statement: a wait alone ends as the
first observation decides that decides at all, and does not end if none does. So it makes no difference
where the sessions are cut and how many watches are refused between them.
-/

namespace EcosystemSetup.Wait

open Cluster

/-- What a wait observes. -/
inductive Observation (c : Collection) where
  | found (items : List (Object c))
  | unreadable (cause : AccessError)
  /-- So many reads have found nothing. -/
  | absent (reads : Nat)
  | event (e : Cluster.Event c)

/-- Why an object will never be ready. -/
def Readiness.reason? : Readiness → Option String
  | .failed reason => some reason
  | _ => none

/-- Whether a read found nothing. -/
def missing {α : Type} : Except AccessError α → Bool
  | .ok _ => false
  | .error e => e.isNotFound

/-- What is observed of an opened watch. -/
def watched {c : Collection} : Except AccessError (Session c) → List (Observation c)
  | .ok items => (heard items).map .event
  | .error _ => []

namespace Goal

variable (g : Goal)

/-- What an observation decides. -/
def decides : Observation g.collection → Option Outcome
  | .found items =>
    if ∃ o ∈ items, g.predicate o = .ready then some (.ok ())
    else (items.findSome? fun o => (g.predicate o).reason?).map fun reason =>
      .error (.failed g.targetText reason)
  | .unreadable cause => some (.error (.read g.targetText cause))
  | .absent reads => some (.error (.notFound g.targetText reads))
  | .event e => g.verdict? e

/-- How often a target that is not there is read; at least once. -/
def attempts : Nat :=
  max 1 g.settings.maxReadAttempts

/-- What the reads of a script find for the target. -/
def results (s : Script g.collection) : List (Except AccessError (List (Object g.collection))) :=
  match g.target.name with
  | some _ => s.gets.map fun result => result.map fun o => [o]
  | none => s.lists.map fun result => result.map Snapshot.items

/-- What reading observes when so many reads are left. -/
def firstRead (reads : Nat) (results : List (Except AccessError (List (Object g.collection)))) :
    Observation g.collection :=
  match (results.take reads).find? fun result => !missing result with
  | some (.ok items) => .found items
  | some (.error cause) => .unreadable cause
  | none => .absent g.attempts

/-- All that a wait may observe of a script. -/
def observations (s : Script g.collection) : List (Observation g.collection) :=
  g.firstRead g.attempts (g.results s) :: s.opens.flatMap watched

/-- What the first observation decides that decides at all. -/
def decided (s : Script g.collection) : Option Outcome :=
  (g.observations s).findSome? g.decides

variable {g : Goal}

/-! ## Judged snapshots -/

theorem judge_of_ready {items : List (Object g.collection)}
    (h : ∃ o ∈ items, g.predicate o = .ready) : judge g.predicate items = .ready := by
  induction items with
  | nil => simp at h
  | cons o rest ih =>
    rw [judge]
    by_cases ho : g.predicate o = .ready
    · rw [ho]
    · obtain ⟨q, hq, hready⟩ := h
      rcases List.mem_cons.mp hq with rfl | hrest
      · exact absurd hready ho
      · rw [ih ⟨q, hrest, hready⟩]
        cases g.predicate o <;> rfl

theorem judge_of_not_ready {items : List (Object g.collection)}
    (h : ¬ ∃ o ∈ items, g.predicate o = .ready) :
    judge g.predicate items =
      match items.findSome? fun o => (g.predicate o).reason? with
      | some reason => .failed reason
      | none => .pending := by
  induction items with
  | nil => rfl
  | cons o rest ih =>
    have hrest : ¬ ∃ q ∈ rest, g.predicate q = .ready := by
      rintro ⟨q, hq, hready⟩
      exact h ⟨q, List.mem_cons_of_mem _ hq, hready⟩
    rw [judge, ih hrest, List.findSome?_cons]
    cases ho : g.predicate o with
    | ready => exact absurd ⟨o, List.mem_cons_self, ho⟩ h
    | failed reason => cases rest.findSome? fun o => (g.predicate o).reason? <;> rfl
    | pending => cases rest.findSome? fun o => (g.predicate o).reason? <;> rfl

/-- A snapshot decides as its judgement settles. -/
theorem decides_found (items : List (Object g.collection)) :
    g.decides (.found items) = g.settle (judge g.predicate items) := by
  by_cases h : ∃ o ∈ items, g.predicate o = .ready
  · rw [decides, if_pos h, judge_of_ready h]
    rfl
  · rw [decides, if_neg h, judge_of_not_ready h]
    cases items.findSome? fun o => (g.predicate o).reason? <;> rfl

/-- The events of a session decide as listening to it does. -/
theorem findSome?_watched (version : String) (items : Session g.collection) :
    (watched (.ok items)).findSome? g.decides = (g.listen version items).outcome? := by
  rw [outcome_listen, watched, List.findSome?_map]
  rfl

/-! ## Waits on scripts -/

variable {w : World (Script g.collection)} {outcome : Outcome}

/-- A wait for a name goes on as the next result for an object says. -/
theorem after_get {name : String} (hname : g.target.name = some name)
    (w : World (Script g.collection)) (attempt : Nat) :
    (g.after (.reading attempt) w).1 =
        .ofNext w.clock (g.afterGet attempt (w.backend.get name).1) ∧
      (g.after (.reading attempt) w).2.backend = (w.backend.get name).2 := by
  rw [after, move_reading_of_name hname, ← w.backend.perform_get name]
  exact ⟨rfl, rfl⟩

/-- A wait without a name goes on as the next listing says. -/
theorem after_list (hname : g.target.name = none) (w : World (Script g.collection))
    (attempt : Nat) :
    (g.after (.reading attempt) w).1 =
        .ofNext w.clock (g.afterList attempt (w.backend.list g.target.selector).1) ∧
      (g.after (.reading attempt) w).2.backend = (w.backend.list g.target.selector).2 := by
  rw [after, move_reading_of_nameless hname, ← w.backend.perform_list g.target.selector]
  exact ⟨rfl, rfl⟩

/-- A wait that watches goes on as the next watch of the script says. -/
theorem after_opening (w : World (Script g.collection)) (version : String) :
    (g.after (.opening version) w).1 = .ofNext w.clock (g.afterOpen version w.backend.watch.1) ∧
      (g.after (.opening version) w).2.backend = w.backend.watch.2 := by
  rw [← w.backend.perform_watch g.target.selector version]
  exact ⟨rfl, rfl⟩

theorem settles_finish_iff {clock : Nat} {decision : Outcome} :
    (∃ v, g.Settles (.ofNext clock (.finish decision)) w outcome v) ↔
      some decision = some outcome := by
  simp [Position.ofNext, settles_ended_iff, eq_comm]

/-- After a pause a wait settles as it would have without it, if that depends on the script alone. -/
theorem settles_pause_iff {P : Prop} {clock : Nat} {d : Duration} {stage : Stage}
    (h : ∀ time, (∃ v, g.Settles (.ready stage) (w.advanceTo time) outcome v) ↔ P) :
    (∃ v, g.Settles (.ofNext clock (.pause d stage)) w outcome v) ↔ P := by
  obtain ⟨time, hsame⟩ := settles_pause (g := g) w clock d stage
  rw [← h time]
  exact exists_congr fun v => hsame outcome v

/-- An opened watch decides, or the wait goes on as it does after opening the watch again. -/
theorem settles_opened (opened : Except AccessError (Session g.collection)) (version : String)
    (clock : Nat) (observed : List (Observation g.collection))
    (hreopen : ∀ v, (∃ u, g.Settles (.ofNext clock (g.reopen v)) w outcome u) ↔
      observed.findSome? g.decides = some outcome) :
    (∃ u, g.Settles (.ofNext clock
      (g.afterOpen version (opened.map fun items => ⟨items, true⟩))) w outcome u) ↔
      (watched opened ++ observed).findSome? g.decides = some outcome := by
  cases opened with
  | error e => exact hreopen version
  | ok items =>
    show (∃ u, g.Settles (.ofNext clock (g.afterOpen version (.ok ⟨items, true⟩))) w outcome u) ↔ _
    rw [List.findSome?_append, findSome?_watched version]
    rcases afterOpen_cases version ⟨items, true⟩ with
      ⟨decision, hdecided, hnext⟩ | ⟨v, hundecided, _, hnext | ⟨hends, _⟩⟩
    · rw [hnext, hdecided]
      exact settles_finish_iff
    · rw [hnext, hundecided]
      exact hreopen v
    · cases hends

/-- From its first watch on, a wait ends as the first event decides that decides at all. -/
theorem settles_opening (opens : List (Except AccessError (Session g.collection)))
    {version : String} (hopens : w.backend.opens = opens) :
    (∃ v, g.Settles (.ready (.opening version)) w outcome v) ↔
      (opens.flatMap watched).findSome? g.decides = some outcome := by
  obtain ⟨hposition, hbackend⟩ := after_opening w version
  simp only [settles_ready_iff, hposition]
  induction opens generalizing w version with
  | nil =>
    -- the script is exhausted, so the watch stays silent
    have hsilent : g.afterOpen version w.backend.watch.1 = .silence := by
      rw [Script.watch, hopens]
      rfl
    rw [hsilent]
    constructor
    · rintro ⟨v, hv⟩
      exact absurd hv not_settles_silent
    · simp
  | cons opened rest ih =>
    have hwatch : w.backend.watch =
        (opened.map fun items => ⟨items, true⟩, { w.backend with opens := rest }) := by
      rw [Script.watch, hopens]
    rw [hwatch] at hbackend ⊢
    apply settles_opened
    -- whatever the watch comes to, the rest of the script is watched from there
    intro v
    apply settles_pause_iff
    intro time
    have hrest : ((g.after (.opening version) w).2.advanceTo time).backend.opens = rest := by
      show (g.after (.opening version) w).2.backend.opens = rest
      rw [hbackend]
    obtain ⟨hnext, hafter⟩ := after_opening ((g.after (.opening version) w).2.advanceTo time) v
    simp only [settles_ready_iff, hnext]
    exact ih hrest hnext hafter

/-- The next read of a script takes its next result, and finds nothing where it is exhausted. -/
theorem after_reading (w : World (Script g.collection)) (attempt : Nat) :
    ∃ version absence, absence.isNotFound = true ∧
      (g.after (.reading attempt) w).2.backend.opens = w.backend.opens ∧
      g.results (g.after (.reading attempt) w).2.backend = (g.results w.backend).tail ∧
      (g.after (.reading attempt) w).1 = .ofNext w.clock
        (match (g.results w.backend).head?.getD (.error absence) with
          | .ok items => g.afterFound items version
          | .error e => g.afterReadError attempt e) := by
  cases hname : g.target.name with
  | some name =>
    have hresults : ∀ s, g.results s = s.gets.map fun result => result.map fun o => [o] := by
      simp [results, hname]
    obtain ⟨hposition, hbackend⟩ := after_get hname w attempt
    rw [hposition, hresults, hresults, hbackend, Script.opens_get]
    unfold Script.get
    split
    · exact ⟨"", .notFound name, rfl, rfl, by simp_all, by simp_all [afterGet]⟩
    · rename_i result rest hgets
      rw [hgets]
      cases result with
      | error e => exact ⟨"", .notFound name, rfl, rfl, rfl, rfl⟩
      | ok o => exact ⟨_, .notFound name, rfl, rfl, rfl, rfl⟩
  | none =>
    have hresults : ∀ s, g.results s = s.lists.map fun result => result.map Snapshot.items := by
      simp [results, hname]
    obtain ⟨hposition, hbackend⟩ := after_list hname w attempt
    rw [hposition, hresults, hresults, hbackend, Script.opens_list]
    unfold Script.list
    split
    · exact ⟨"", .notFound g.target.selector, rfl, rfl, by simp_all, by simp_all [afterList]⟩
    · rename_i result rest hlists
      rw [hlists]
      cases result with
      | error e => exact ⟨"", .notFound g.target.selector, rfl, rfl, rfl, rfl⟩
      | ok found => exact ⟨_, .notFound g.target.selector, rfl, rfl, rfl, rfl⟩

/-- A found snapshot decides, or the watch begins. -/
theorem settles_found (items : List (Object g.collection)) (version : String) (clock : Nat)
    (observed : List (Observation g.collection))
    (h : (∃ v, g.Settles (.ready (.opening version)) w outcome v) ↔
      observed.findSome? g.decides = some outcome) :
    (∃ v, g.Settles (.ofNext clock (g.afterFound items version)) w outcome v) ↔
      (.found items :: observed).findSome? g.decides = some outcome := by
  rw [List.findSome?_cons, decides_found]
  unfold afterFound
  cases judge g.predicate items with
  | ready => exact settles_finish_iff
  | failed reason => exact settles_finish_iff
  | pending => exact h

theorem firstRead_of_missing {reads : Nat}
    {results : List (Except AccessError (List (Object g.collection)))}
    (h : ∀ result ∈ results.head?, missing result = true) :
    g.firstRead (reads + 1) results = g.firstRead reads results.tail := by
  cases results with
  | nil => simp [firstRead]
  | cons result rest =>
    have hmissing : missing result = true := h result rfl
    simp [firstRead, hmissing]

/-- A read ends a wait as what it finds decides, if one that finds nothing leaves the reads after it to
decide. -/
theorem settles_read {attempt reads : Nat}
    (hmissed : ∀ e : AccessError, e.isNotFound = true →
      ((∃ v, g.Settles (.ofNext w.clock (g.afterReadError attempt e))
        (g.after (.reading attempt) w).2 outcome v) ↔
        (g.firstRead reads (g.results w.backend).tail ::
          w.backend.opens.flatMap watched).findSome? g.decides = some outcome)) :
    (∃ v, g.Settles (.ready (.reading attempt)) w outcome v) ↔
      (g.firstRead (reads + 1) (g.results w.backend) ::
        w.backend.opens.flatMap watched).findSome? g.decides = some outcome := by
  obtain ⟨version, absence, habsence, hopens, _, hposition⟩ := after_reading w attempt
  simp only [settles_ready_iff, hposition]
  cases hresults : g.results w.backend with
  | nil =>
    have hlater := hmissed absence habsence
    rw [hresults] at hlater
    rw [firstRead_of_missing (by simp)]
    exact hlater
  | cons result rest =>
    cases result with
    | ok items =>
      have hfirst : g.firstRead (reads + 1) (.ok items :: rest) = .found items := rfl
      rw [hfirst]
      exact settles_found items version w.clock _ (settles_opening _ hopens)
    | error e =>
      show (∃ v, g.Settles (.ofNext w.clock (g.afterReadError attempt e)) _ outcome v) ↔ _
      by_cases hmissing : e.isNotFound = true
      · have hfirst : g.firstRead (reads + 1) (.error e :: rest) = g.firstRead reads rest :=
          firstRead_of_missing (by simpa [missing] using hmissing)
        rw [hfirst]
        have hlater := hmissed e hmissing
        rwa [hresults] at hlater
      · have hfirst : g.firstRead (reads + 1) (.error e :: rest) = .unreadable e := by
          simp [firstRead, missing, hmissing]
        rw [hfirst, afterReadError, if_neg hmissing]
        exact settles_finish_iff

/-- From a read on, a wait ends as its reads and then the events decide. -/
theorem settles_reading (reads : Nat) {attempt : Nat} (hfirst : 0 < attempt)
    (hreads : attempt + reads = g.attempts) :
    (∃ v, g.Settles (.ready (.reading attempt)) w outcome v) ↔
      (g.firstRead (reads + 1) (g.results w.backend) ::
        w.backend.opens.flatMap watched).findSome? g.decides = some outcome := by
  induction reads generalizing w attempt with
  | zero =>
    apply settles_read
    intro e he
    -- this was the last read
    have hlast : g.settings.maxReadAttempts ≤ attempt := by
      have hmax : g.settings.maxReadAttempts ≤ g.attempts := Nat.le_max_right _ _
      omega
    have habsent : g.firstRead 0 (g.results w.backend).tail = .absent attempt :=
      congrArg Observation.absent hreads.symm
    rw [afterReadError, if_pos he, if_pos hlast, habsent]
    exact settles_finish_iff
  | succ reads ih =>
    apply settles_read
    intro e he
    obtain ⟨_, _, _, hopens, hresults, _⟩ := after_reading w attempt
    have hmore : ¬ g.settings.maxReadAttempts ≤ attempt := by
      have hmax : g.attempts = max 1 g.settings.maxReadAttempts := rfl
      omega
    rw [afterReadError, if_pos he, if_neg hmore]
    apply settles_pause_iff
    intro time
    have hlater := ih (w := (g.after (.reading attempt) w).2.advanceTo time) (Nat.succ_pos attempt)
      (by omega)
    rw [hlater]
    show (g.firstRead _ (g.results (g.after (.reading attempt) w).2.backend) ::
      (g.after (.reading attempt) w).2.backend.opens.flatMap watched).findSome? _ = _ ↔ _
    rw [hopens, hresults]

/-- A wait alone ends as the first observation decides that decides at all. -/
theorem settles_iff (w : World (Script g.collection)) (outcome : Outcome) :
    (∃ v, g.Settles (.ready (.reading 1)) w outcome v) ↔ g.decided w.backend = some outcome := by
  have hattempts : 1 ≤ g.attempts := Nat.le_max_left _ _
  have hreads : 1 + (g.attempts - 1) = g.attempts := Nat.add_sub_cancel' hattempts
  have hsettles : (∃ v, g.Settles (.ready (.reading 1)) w outcome v) ↔ _ :=
    settles_reading _ Nat.one_pos hreads
  rwa [Nat.sub_add_cancel hattempts] at hsettles

/-- With a deadline, it ends so if it has the time for that. -/
theorem endsWith_decided (hw : w.Undisturbed) : g.EndsWith w (g.decided w.backend) :=
  endsWith_of_settles (Script.steady g.collection) hw (settles_iff w)

end Goal

end EcosystemSetup.Wait

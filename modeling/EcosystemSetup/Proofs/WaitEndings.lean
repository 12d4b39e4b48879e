import EcosystemSetup.Proofs.Verdicts

/-!
# How waits end of their own accord

A wait alone, with no deadline and nobody to cancel it: it makes its calls, sleeps through its pauses,
and either settles or never ends. On a cluster that answers at once, and whose watches that end or fail
are used up, a wait with a deadline does the same. Main statement: it settles, or it times out, and then
it would not have settled before the deadline.
-/

namespace EcosystemSetup

open Cluster

/-! ## Time -/

section Time

variable {σ : Type} {w : World σ}

theorem World.clock_le_advanceTo (w : World σ) (time : Nat) : w.clock ≤ (w.advanceTo time).clock :=
  Nat.le_max_left _ _

theorem World.advanceTo_zero (w : World σ) : w.advanceTo 0 = w := by
  obtain ⟨backend, clock, cancelAt, interruptIn, record⟩ := w
  cases cancelAt <;> simp [advanceTo]

/-- Where nobody cancels, time passes as far as it is let. -/
theorem World.advanceTo_eq (hw : w.Undisturbed) (time : Nat) :
    w.advanceTo time = { w with clock := max w.clock time } := by
  simp [advanceTo, hw.1]

theorem World.advanceTo_of_le (hw : w.Undisturbed) {time : Nat} (h : time ≤ w.clock) :
    w.advanceTo time = w := by
  rw [advanceTo_eq hw, Nat.max_eq_left h]

/-- A stop on the way makes no difference. -/
theorem World.advanceTo_advanceTo (hw : w.Undisturbed) {stop time : Nat} (h : stop ≤ time) :
    (w.advanceTo stop).advanceTo time = w.advanceTo time := by
  rw [advanceTo_eq (w := w.advanceTo stop) hw, advanceTo_eq hw, advanceTo_eq hw]
  simp only [World.mk.injEq, and_true, true_and]
  omega

end Time

namespace Wait

variable {σ : Type} [Backend σ] {g : Goal}

/-! ## Settling -/

/-- Where a wait stands after the call of a stage, and the world then. -/
def Goal.after (g : Goal) (stage : Stage) (w : World σ) : Position × World σ :=
  let x := w.perform (g.move stage).call
  (.ofNext x.2.clock ((g.move stage).next x.1), x.2)

/-- A wait that is left alone ends with an outcome, in a world. -/
inductive Goal.Settles (g : Goal) : Position → World σ → Outcome → World σ → Prop where
  | ended (outcome : Outcome) (w : World σ) : g.Settles (.ended outcome) w outcome w
  | call {stage : Stage} {w v : World σ} {outcome : Outcome}
      (later : g.Settles (g.after stage w).1 (g.after stage w).2 outcome v) :
      g.Settles (.ready stage) w outcome v
  | wake {wake : Nat} {stage : Stage} {w v : World σ} {outcome : Outcome}
      (later : g.Settles (.ready stage) (w.advanceTo wake) outcome v) :
      g.Settles (.paused wake stage) w outcome v

namespace Goal

variable {w v : World σ} {stage : Stage} {outcome : Outcome} {p : Position}

theorem settles_ended_iff {end' : Outcome} :
    g.Settles (.ended end') w outcome v ↔ outcome = end' ∧ v = w := by
  constructor
  · intro h
    cases h
    exact ⟨rfl, rfl⟩
  · rintro ⟨rfl, rfl⟩
    exact .ended _ _

theorem not_settles_silent : ¬ g.Settles .silent w outcome v :=
  nofun

theorem settles_ready_iff :
    g.Settles (.ready stage) w outcome v ↔
      g.Settles (g.after stage w).1 (g.after stage w).2 outcome v := by
  constructor
  · intro h
    cases h with
    | call later => exact later
  · exact .call

theorem settles_paused_iff {wake : Nat} :
    g.Settles (.paused wake stage) w outcome v ↔
      g.Settles (.ready stage) (w.advanceTo wake) outcome v := by
  constructor
  · intro h
    cases h with
    | wake later => exact later
  · exact .wake

/-- A wait settles in one way only. -/
theorem Settles.unique {u : World σ} {other : Outcome} (h₁ : g.Settles p w outcome v)
    (h₂ : g.Settles p w other u) : outcome = other ∧ v = u := by
  induction h₁ with
  | ended outcome w =>
    obtain ⟨rfl, rfl⟩ := settles_ended_iff.mp h₂
    exact ⟨rfl, rfl⟩
  | call _ ih => exact ih (settles_ready_iff.mp h₂)
  | wake _ ih => exact ih (settles_paused_iff.mp h₂)

/-- Time does not run back while a wait settles. -/
theorem Settles.clock_le (h : g.Settles p w outcome v) : w.clock ≤ v.clock := by
  induction h with
  | ended => exact Nat.le_refl _
  | call _ ih => exact ih
  | wake _ ih => exact Nat.le_trans (World.clock_le_advanceTo _ _) ih

/-- After a pause, and be it of no length, a wait goes on with its stage. -/
theorem settles_pause (w : World σ) (clock : Nat) (d : Duration) (stage : Stage) :
    ∃ time, ∀ outcome v, g.Settles (.ofNext clock (.pause d stage)) w outcome v ↔
      g.Settles (.ready stage) (w.advanceTo time) outcome v := by
  unfold Position.ofNext
  dsimp only
  split
  · exact ⟨0, fun outcome v => by rw [World.advanceTo_zero]⟩
  · exact ⟨_, fun outcome v => settles_paused_iff⟩

/-- A pause may be slept through in parts. -/
theorem settles_paused_advanceTo {wake stop : Nat} (hw : w.Undisturbed) (h : stop ≤ wake) :
    g.Settles (.paused wake stage) (w.advanceTo stop) outcome v ↔
      g.Settles (.paused wake stage) w outcome v := by
  rw [settles_paused_iff, settles_paused_iff, World.advanceTo_advanceTo hw h]

end Goal

/-! ## Turns -/

/-- A cluster that answers at once, and whose watches that end or fail are used up: what is left are
streams that stay silent. -/
structure Steady (σ : Type) [Backend σ] : Prop where
  prompt : ∀ (k : Call) (b : σ), Backend.suspends k b = false
  lasts : ∀ (k : Call) (b : σ), Backend.scripted (Backend.perform k b).2 ≤ Backend.scripted b
  used : ∀ (c : Collection) (selector version : String) (b : σ),
    (Backend.perform (.watch c selector version) b).1 = .ok ⟨[], false⟩ ∨
      Backend.scripted (Backend.perform (.watch c selector version) b).2 < Backend.scripted b

/-- A bound on the steps of a turn, by the watches that the cluster has left. -/
def Goal.effort (g : Goal) (scripted : Nat) : Position → Nat
  | .ended _ => 0
  | .silent => 0
  | .ready (.opening _) => 2 * scripted + 2
  | .ready (.reading attempt) => 2 * (g.settings.maxReadAttempts - attempt) + 2 * scripted + 3
  | .paused _ (.opening _) => 2 * scripted + 3
  | .paused _ (.reading attempt) => 2 * (g.settings.maxReadAttempts - attempt) + 2 * scripted + 4

theorem Goal.effort_le_turnBound (g : Goal) (w : World σ) (p : Position) :
    g.effort (Backend.scripted w.backend) p ≤ turnBound g w := by
  unfold effort turnBound
  split <;> omega

theorem Goal.effort_paused (g : Goal) (scripted wake : Nat) (stage : Stage) :
    g.effort scripted (.paused wake stage) = g.effort scripted (.ready stage) + 1 := by
  cases stage <;> rfl

/-- A pause costs one step more than going on at once. -/
theorem Goal.effort_ofNext_pause (g : Goal) (scripted clock : Nat) (d : Duration) (stage : Stage) :
    g.effort scripted (.ofNext clock (.pause d stage)) ≤ g.effort scripted (.ready stage) + 1 := by
  unfold Position.ofNext
  dsimp only
  split
  · omega
  · exact Nat.le_of_eq (g.effort_paused _ _ _)

/-- A read ends the wait, or leads on to a watch or to a read that is still allowed. -/
theorem Goal.next_reading (g : Goal) (attempt : Nat) (reply : (g.move (.reading attempt)).call.Reply) :
    (∃ outcome, (g.move (.reading attempt)).next reply = .finish outcome) ∨
      (∃ version, (g.move (.reading attempt)).next reply = .proceed (.opening version)) ∨
      (attempt < g.settings.maxReadAttempts ∧
        ∃ d, (g.move (.reading attempt)).next reply = .pause d (.reading (attempt + 1))) := by
  have hfound : ∀ items version, (∃ outcome, g.afterFound items version = .finish outcome) ∨
      ∃ v, g.afterFound items version = .proceed (.opening v) := by
    intro items version
    unfold afterFound
    cases judge g.predicate items with
    | ready => exact Or.inl ⟨_, rfl⟩
    | failed reason => exact Or.inl ⟨_, rfl⟩
    | pending => exact Or.inr ⟨version, rfl⟩
  have herror : ∀ e, (∃ outcome, g.afterReadError attempt e = .finish outcome) ∨
      (attempt < g.settings.maxReadAttempts ∧
        ∃ d, g.afterReadError attempt e = .pause d (.reading (attempt + 1))) := by
    intro e
    unfold afterReadError
    split
    · split
      · exact Or.inl ⟨_, rfl⟩
      · exact Or.inr ⟨by omega, _, rfl⟩
    · exact Or.inl ⟨_, rfl⟩
  revert reply
  cases hname : g.target.name with
  | some name =>
    rw [move_reading_of_name hname]
    rintro (e | o)
    · exact (herror e).imp_right Or.inr
    · exact (hfound _ _).imp_right Or.inl
  | none =>
    rw [move_reading_of_nameless hname]
    rintro (e | found)
    · exact (herror e).imp_right Or.inr
    · exact (hfound _ _).imp_right Or.inl

/-- A read takes a wait forward, since the reads are counted. -/
theorem Goal.effort_after_reading (hsteady : Steady σ) (g : Goal) (attempt : Nat) (w : World σ) :
    g.effort (Backend.scripted (g.after (.reading attempt) w).2.backend)
        (g.after (.reading attempt) w).1 <
      g.effort (Backend.scripted w.backend) (.ready (.reading attempt)) := by
  have hlasts := hsteady.lasts (g.move (.reading attempt)).call w.backend
  rcases g.next_reading attempt (w.perform (g.move (.reading attempt)).call).1 with
    ⟨outcome, hnext⟩ | ⟨version, hnext⟩ | ⟨hmore, d, hnext⟩
  · rw [after, hnext]
    simp only [effort, Position.ofNext]
    omega
  · rw [after, hnext]
    simp only [effort, Position.ofNext, World.perform]
    omega
  · rw [after, hnext]
    refine Nat.lt_of_le_of_lt (g.effort_ofNext_pause _ _ d _) ?_
    simp only [effort, World.perform]
    omega

/-- So does a watch, since one that ends or fails is used up. -/
theorem Goal.effort_after_opening (hsteady : Steady σ) (g : Goal) (version : String) (w : World σ) :
    g.effort (Backend.scripted (g.after (.opening version) w).2.backend)
        (g.after (.opening version) w).1 <
      g.effort (Backend.scripted w.backend) (.ready (.opening version)) := by
  have hused := hsteady.used g.collection g.target.selector version w.backend
  have hlasts := hsteady.lasts (.watch g.collection g.target.selector version) w.backend
  show g.effort
      (Backend.scripted (Backend.perform (.watch g.collection g.target.selector version) w.backend).2)
      (.ofNext w.clock (g.afterOpen version
        (Backend.perform (.watch g.collection g.target.selector version) w.backend).1)) < _
  generalize Backend.perform (.watch g.collection g.target.selector version) w.backend = x at *
  obtain ⟨reply, b⟩ := x
  dsimp only at hused hlasts ⊢
  rcases hused with rfl | hused
  · -- the stream delivers nothing and stays open
    exact Nat.succ_pos _
  · have hreopen : ∀ v, g.effort (Backend.scripted b) (.ofNext w.clock (g.reopen v)) <
        g.effort (Backend.scripted w.backend) (.ready (.opening version)) := by
      intro v
      refine Nat.lt_of_le_of_lt (g.effort_ofNext_pause _ _ _ _) ?_
      simp only [effort]
      omega
    have hover : 0 < g.effort (Backend.scripted w.backend) (.ready (.opening version)) :=
      Nat.succ_pos _
    cases reply with
    | error e => exact hreopen version
    | ok stream =>
      rcases afterOpen_cases version stream with
        ⟨outcome, _, hnext⟩ | ⟨v, _, _, hnext | ⟨_, hnext⟩⟩
      · rw [hnext]
        exact hover
      · rw [hnext]
        exact hreopen v
      · rw [hnext]
        exact hover

/-- Every call takes a wait forward. -/
theorem Goal.effort_after (hsteady : Steady σ) (g : Goal) (stage : Stage) (w : World σ) :
    g.effort (Backend.scripted (g.after stage w).2.backend) (g.after stage w).1 <
      g.effort (Backend.scripted w.backend) (.ready stage) := by
  cases stage with
  | reading attempt => exact g.effort_after_reading hsteady attempt w
  | opening version => exact g.effort_after_opening hsteady version w

/-- What the calls of a turn leave of a wait: its own end, silence for good, or a pause that is not
over. -/
inductive Driven (g : Goal) (p : Position) (w : World σ) : Turn × World σ → Prop where
  | ended {outcome : Outcome} {v : World σ} (settles : g.Settles p w outcome v) :
      Driven g p w (.ended outcome, v)
  | silent {v : World σ} (later : w.clock ≤ v.clock) (uncancelled : v.Undisturbed)
      (never : ∀ outcome u, ¬ g.Settles p w outcome u) : Driven g p w (.again .silent none, v)
  | paused {wake : Nat} {stage : Stage} {v : World σ} (later : w.clock ≤ v.clock)
      (uncancelled : v.Undisturbed) (asleep : v.clock < wake)
      (same : ∀ outcome u, g.Settles p w outcome u ↔ g.Settles (.paused wake stage) v outcome u) :
      Driven g p w (.again (.paused wake stage) wake, v)

/-- Positions from which a wait settles in the same ways are driven to the same. -/
theorem Driven.of_same {p q : Position} {w v : World σ} {t : Turn × World σ} (h : Driven g q v t)
    (hclock : w.clock ≤ v.clock)
    (hsame : ∀ outcome u, g.Settles p w outcome u ↔ g.Settles q v outcome u) : Driven g p w t := by
  cases h with
  | ended settles => exact .ended ((hsame _ _).mpr settles)
  | silent later uncancelled never =>
    exact .silent (Nat.le_trans hclock later) uncancelled
      fun outcome u hsettles => never outcome u ((hsame _ _).mp hsettles)
  | paused later uncancelled asleep same =>
    exact .paused (Nat.le_trans hclock later) uncancelled asleep
      fun outcome u => (hsame outcome u).trans (same outcome u)

/-- A turn is long enough for all that a wait can do without letting time pass. -/
theorem driven_drive (hsteady : Steady σ) (fuel : Nat) {p : Position} {w : World σ}
    (hw : w.Undisturbed) (hfuel : g.effort (Backend.scripted w.backend) p ≤ fuel) :
    Driven g p w (drive g fuel p w) := by
  induction fuel generalizing p w with
  | zero =>
    -- no position that has something left to do fits
    cases p with
    | ended outcome => exact .ended (.ended _ _)
    | silent => exact .silent (Nat.le_refl _) hw fun _ _ => Goal.not_settles_silent
    | ready stage => cases stage <;> simp [Goal.effort] at hfuel
    | paused wake stage => cases stage <;> simp [Goal.effort] at hfuel
  | succ fuel ih =>
    cases p with
    | ended outcome => exact .ended (.ended _ _)
    | silent => exact .silent (Nat.le_refl _) hw fun _ _ => Goal.not_settles_silent
    | paused wake stage =>
      rw [drive]
      split
      · rename_i hwake
        rw [Goal.effort_paused] at hfuel
        refine (ih hw (Nat.le_of_succ_le_succ hfuel)).of_same (Nat.le_refl _) ?_
        intro outcome u
        rw [Goal.settles_paused_iff, World.advanceTo_of_le hw hwake]
      · rename_i hwake
        exact .paused (Nat.le_refl _) hw (Nat.lt_of_not_le hwake) fun _ _ => Iff.rfl
    | ready stage =>
      have hafter := g.effort_after hsteady stage w
      have hdriven : Driven g (g.after stage w).1 (g.after stage w).2
          (drive g fuel (g.after stage w).1 (g.after stage w).2) := ih hw (by omega)
      rw [drive, if_neg (by simp [hsteady.prompt])]
      exact hdriven.of_same (Nat.le_refl _) fun _ _ => Goal.settles_ready_iff

/-- Turn after turn, a wait settles as it would alone, or it times out; then it would not have settled
before the deadline. -/
theorem settles_or_late (hsteady : Steady σ) (fuel : Nat) {p : Progress} {w : World σ}
    (hw : w.Undisturbed) (hfuel : p.deadline ≤ w.clock + fuel) :
    g.Settles p.position w (takeTurns g fuel p w).1 (takeTurns g fuel p w).2 ∨
      (takeTurns g fuel p w).1 = .error (.timeout g.targetText g.timeout) ∧
        ∀ outcome v, g.Settles p.position w outcome v → p.deadline ≤ v.clock := by
  induction fuel generalizing p w with
  | zero =>
    refine Or.inr ⟨rfl, ?_⟩
    intro outcome v hsettles
    exact Nat.le_trans hfuel hsettles.clock_le
  | succ fuel ih =>
    have hdriven := driven_drive hsteady (turnBound g w) hw (g.effort_le_turnBound w p.position)
    rw [takeTurns, turn, if_neg (by simp [hw.unstopped.1]),
      World.looked_of_unstopped hw.unstopped]
    generalize drive g (turnBound g w) p.position w = t at *
    cases hdriven with
    | ended settles => exact Or.inl settles
    | @silent v later uncancelled never =>
      refine Or.inr ⟨?_, fun outcome u hsettles => absurd hsettles (never outcome u)⟩
      by_cases hlate : p.deadline ≤ v.clock
      · simp only [if_pos hlate]
      · simp only [if_neg hlate]
        have hclock := v.advanceTo_eq uncancelled (nextTime p none)
        have hturns := ih (p := { p with position := .silent })
          (w := v.advanceTo (nextTime p none)) uncancelled
          (by rw [hclock]; simp only [nextTime]; omega)
        rcases hturns with hsettles | ⟨htimeout, _⟩
        · exact absurd hsettles Goal.not_settles_silent
        · exact htimeout
    | @paused wake stage v later uncancelled asleep same =>
      by_cases hlate : p.deadline ≤ v.clock
      · refine Or.inr ⟨by simp only [if_pos hlate], ?_⟩
        intro outcome u hsettles
        exact Nat.le_trans hlate ((same outcome u).mp hsettles).clock_le
      · simp only [if_neg hlate]
        -- the wait sleeps until the pause is over or the deadline has come
        have hclock := v.advanceTo_eq uncancelled (nextTime p (some wake))
        have hsame : ∀ outcome u, g.Settles p.position w outcome u ↔
            g.Settles (.paused wake stage) (v.advanceTo (nextTime p (some wake))) outcome u := by
          intro outcome u
          have hstop : nextTime p (some wake) ≤ wake := Nat.min_le_left _ _
          exact (same outcome u).trans (Goal.settles_paused_advanceTo uncancelled hstop).symm
        have hturns := ih (p := { p with position := .paused wake stage })
          (w := v.advanceTo (nextTime p (some wake))) uncancelled
          (by rw [hclock]; simp only [nextTime]; omega)
        rcases hturns with hsettles | ⟨htimeout, hlater⟩
        · exact Or.inl ((hsame _ _).mpr hsettles)
        · exact Or.inr ⟨htimeout, fun outcome u h => hlater outcome u ((hsame _ _).mp h)⟩

/-- A wait with a deadline settles as it would alone, or times out, and then it would not have settled
before the deadline. -/
theorem settles_or_timeout (hsteady : Steady σ) (g : Goal) {w : World σ} (hw : w.Undisturbed) :
    g.Settles (.ready (.reading 1)) w (run g w).1 (run g w).2 ∨
      (run g w).1 = .error (.timeout g.targetText g.timeout) ∧
        ∀ outcome v, g.Settles (.ready (.reading 1)) w outcome v →
          w.clock + g.timeout.millisUp ≤ v.clock := by
  refine settles_or_late hsteady _ (p := .start g w) hw ?_
  simp only [Progress.start]
  omega

/-! ## Deadlines aside -/

/-- The same wait with another timeout. -/
def Goal.within (g : Goal) (timeout : Duration) : Goal :=
  { g with timeout }

namespace Goal

variable (timeout : Duration)

theorem verdict?_within (e : Cluster.Event g.collection) :
    (g.within timeout).verdict? e = g.verdict? e := by
  cases e <;> rfl

theorem resume_within (version : String) (e : Cluster.Event g.collection) :
    (g.within timeout).resume version e = g.resume version e := by
  cases e <;> rfl

theorem listen_within (version : String) (items : Session g.collection) :
    (g.within timeout).listen version items = g.listen version items := by
  induction items generalizing version with
  | nil => rfl
  | cons x rest ih =>
    by_cases hbreaks : breaks x = true
    · exact (listen_cons_of_breaks (g := g.within timeout) hbreaks).trans
        (listen_cons_of_breaks hbreaks).symm
    · rw [Bool.not_eq_true] at hbreaks
      cases x with
      | error e => simp [breaks] at hbreaks
      | ok e =>
        have hsame := g.verdict?_within timeout e
        cases hverdict : g.verdict? e with
        | some outcome =>
          exact (listen_cons_of_verdict (hsame.trans hverdict)).trans
            (listen_cons_of_verdict hverdict).symm
        | none =>
          rw [listen_cons_of_verdict_none hbreaks hverdict, ← ih, ← g.resume_within timeout]
          exact listen_cons_of_verdict_none hbreaks (hsame.trans hverdict)

theorem afterOpen_within (version : String) (reply : Except AccessError (Stream g.collection)) :
    (g.within timeout).afterOpen version reply = g.afterOpen version reply := by
  cases reply with
  | error e => rfl
  | ok stream =>
    have hlisten := g.listen_within timeout version stream.items
    unfold afterOpen
    dsimp only
    rw [hlisten]
    rfl

/-- The calls of a wait, and how it goes on after them, have nothing to do with its timeout. -/
theorem after_within (stage : Stage) (w : World σ) :
    (g.within timeout).after stage w = g.after stage w := by
  have hmove : (g.within timeout).move stage = g.move stage := by
    cases stage with
    | reading attempt =>
      cases hname : g.target.name with
      | some name =>
        have hget : (g.within timeout).afterGet attempt = g.afterGet attempt := by
          funext reply
          cases reply <;> rfl
        rw [move_reading_of_name hname, move_reading_of_name (g := g.within timeout) hname, hget]
        rfl
      | none =>
        have hlist : (g.within timeout).afterList attempt = g.afterList attempt := by
          funext reply
          cases reply <;> rfl
        rw [move_reading_of_nameless hname, move_reading_of_nameless (g := g.within timeout) hname,
          hlist]
        rfl
    | opening version =>
      have hopen : (g.within timeout).afterOpen version = g.afterOpen version :=
        funext fun reply => g.afterOpen_within timeout version reply
      show (⟨.watch g.collection g.target.selector version, (g.within timeout).afterOpen version⟩ :
        Move) = _
      rw [hopen]
      rfl
  rw [after, hmove]
  rfl

theorem Settles.within {p : Position} {w v : World σ} {outcome : Outcome}
    (h : g.Settles p w outcome v) : (g.within timeout).Settles p w outcome v := by
  induction h with
  | ended outcome w => exact .ended outcome w
  | call _ ih =>
    refine .call ?_
    rw [after_within]
    exact ih
  | wake _ ih => exact .wake ih

/-- How a wait ends, leaving its deadline aside: with an outcome, if only it has the time for that, or
not of its own accord. -/
def EndsWith (g : Goal) (w : World σ) : Option Outcome → Prop
  | some outcome =>
    (∀ timeout : Duration, (Wait.run (g.within timeout) w).1 = outcome ∨
      (Wait.run (g.within timeout) w).1 = .error (.timeout g.targetText timeout)) ∧
    ∃ time : Nat, ∀ timeout : Duration, time < timeout.millisUp →
      (Wait.run (g.within timeout) w).1 = outcome
  | none => ∀ timeout : Duration,
    (Wait.run (g.within timeout) w).1 = .error (.timeout g.targetText timeout)

/-- A wait that settles ends so, and one that does not only by its deadline. -/
theorem endsWith_of_settles (hsteady : Steady σ) {w : World σ} (hw : w.Undisturbed)
    {answer : Option Outcome} (h : ∀ outcome,
      (∃ v, g.Settles (.ready (.reading 1)) w outcome v) ↔ answer = some outcome) :
    g.EndsWith w answer := by
  have hrun : ∀ timeout, g.Settles (.ready (.reading 1)) w (Wait.run (g.within timeout) w).1
      (Wait.run (g.within timeout) w).2 ∨
      (Wait.run (g.within timeout) w).1 = .error (.timeout g.targetText timeout) ∧
        ∀ outcome v, g.Settles (.ready (.reading 1)) w outcome v →
          w.clock + timeout.millisUp ≤ v.clock := by
    intro timeout
    rcases settles_or_timeout hsteady (g.within timeout) hw with hsettles | ⟨htimeout, hlate⟩
    · exact Or.inl (hsettles.within g.timeout)
    · exact Or.inr ⟨htimeout, fun outcome v hv => hlate outcome v (hv.within timeout)⟩
  cases answer with
  | none =>
    intro timeout
    rcases hrun timeout with hsettles | ⟨htimeout, _⟩
    · simpa using (h _).mp ⟨_, hsettles⟩
    · exact htimeout
  | some outcome =>
    refine ⟨?_, ?_⟩
    · intro timeout
      rcases hrun timeout with hsettles | ⟨htimeout, _⟩
      · exact Or.inl (Option.some.inj ((h _).mp ⟨_, hsettles⟩)).symm
      · exact Or.inr htimeout
    · obtain ⟨v, hv⟩ := (h outcome).mpr rfl
      refine ⟨v.clock - w.clock, ?_⟩
      intro timeout hlong
      rcases hrun timeout with hsettles | ⟨_, hlate⟩
      · exact (hsettles.unique hv).1
      · have hdeadline := hlate outcome v hv
        have hclock := hv.clock_le
        omega

end Goal

end Wait

end EcosystemSetup

import EcosystemSetup.Proofs.Scripts
import Mathlib.Data.ENat.Lattice

/-!
# Cancellation, deadline and own end

Three clocks run while a wait is under way: its own, which says when it would end if it were left alone,
its deadline, and the time at which it is cancelled. Main statement: the first of the three decides how
the wait ends. A wait that is cancelled before its own end and its deadline ends as cancelled; one that
reaches its own end before its deadline ends so, and otherwise it times out. It ends by its deadline, and
makes no call once the time of its cancellation has come. An interrupt that comes in the middle of a turn
is a cancellation at the time of this turn. The settings see to it that every pause has a duration, as a
wait that comes to a longer pause breaks off without an end.

The race is run turn by turn. A turn takes no time; between two turns the clock passes to the end of a
pause, to the deadline or to the cancellation, whichever comes first, and in none of the cases has the
wait's own end been passed over.
-/

namespace EcosystemSetup

open Cluster

variable {σ : Type}

/-! ## Worlds without cancellation -/

namespace World

/-- The same world if nobody cancels. -/
def undisturbed (w : World σ) : World σ :=
  { w with cancelAt := none, interruptIn := none }

theorem undisturbed_looked (w : World σ) : w.looked.undisturbed = w.undisturbed := by
  obtain ⟨_, _, h⟩ := w.looked_eq
  rw [h]
  rfl

/-- When the program is cancelled; that may be never. -/
def cancelTime (w : World σ) : ℕ∞ :=
  match w.cancelAt with
  | some c => c
  | none => ⊤

theorem cancelTime_of_some {w : World σ} {c : Nat} (h : w.cancelAt = some c) :
    w.cancelTime = c := by
  unfold cancelTime
  rw [h]

theorem lt_cancelTime_iff {w : World σ} {time : Nat} :
    (time : ℕ∞) < w.cancelTime ↔ ∀ c, w.cancelAt = some c → time < c := by
  unfold cancelTime
  cases w.cancelAt with
  | none => simp
  | some c => simp

theorem le_cancelTime_iff {w : World σ} {time : Nat} :
    (time : ℕ∞) ≤ w.cancelTime ↔ ∀ c, w.cancelAt = some c → time ≤ c := by
  unfold cancelTime
  cases w.cancelAt with
  | none => simp
  | some c => simp

theorem isCancelled_iff {w : World σ} :
    w.isCancelled = true ↔ ∃ c, w.cancelAt = some c ∧ c ≤ w.clock := by
  unfold isCancelled
  cases w.cancelAt with
  | none => simp
  | some c => simp

theorem not_isCancelled_iff {w : World σ} :
    w.isCancelled = false ↔ ∀ c, w.cancelAt = some c → w.clock < c := by
  rw [← Bool.not_eq_true, isCancelled_iff]
  simp

/-- Time passes, but not beyond the time it is let: it may stop at the time of cancellation. -/
theorem advanceTo_stop {w : World σ} (h : w.isCancelled = false) {time : Nat}
    (hlater : w.clock < time) :
    w.clock < (w.advanceTo time).clock ∧ (w.advanceTo time).clock ≤ time ∧
      ∃ stop ≤ time, (w.advanceTo time).undisturbed = w.undisturbed.advanceTo stop := by
  have hcoming := not_isCancelled_iff.mp h
  unfold advanceTo undisturbed
  cases hc : w.cancelAt with
  | none => exact ⟨by dsimp only; omega, by dsimp only; omega, time, Nat.le_refl _, rfl⟩
  | some c =>
    have hlt := hcoming c hc
    exact ⟨by dsimp only; omega, by dsimp only; omega, min c time, Nat.min_le_right _ _, rfl⟩

/-- No time passes for a program that is cancelled. -/
theorem advanceTo_of_isCancelled {w : World σ} (h : w.isCancelled = true) (time : Nat) :
    w.advanceTo time = w := by
  obtain ⟨c, hc, hpast⟩ := isCancelled_iff.mp h
  obtain ⟨backend, clock, cancelAt, interruptIn, record⟩ := w
  dsimp only at hc hpast
  subst hc
  simp only [advanceTo, World.mk.injEq, and_true, true_and]
  omega

/-! ## Interrupts -/

/-- From one world to a later one nothing has changed what cancels the program but an interrupt, if one
was to come: it has set the time of cancellation to a time in between. -/
structure Interrupts (w v : World σ) : Prop where
  clock_le : w.clock ≤ v.clock
  uninterrupted : w.interruptIn = none → v.cancelAt = w.cancelAt ∧ v.interruptIn = none
  cancelAt : v.cancelAt = w.cancelAt ∨ ∃ c, v.cancelAt = some c ∧ w.clock ≤ c ∧ c ≤ v.clock

theorem Interrupts.of_eq {w v : World σ} (hclock : w.clock ≤ v.clock)
    (hcancelAt : v.cancelAt = w.cancelAt) (hinterruptIn : v.interruptIn = w.interruptIn) :
    w.Interrupts v :=
  ⟨hclock, fun h => ⟨hcancelAt, hinterruptIn.trans h⟩, Or.inl hcancelAt⟩

theorem Interrupts.trans {u w v : World σ} (h₁ : u.Interrupts w) (h₂ : w.Interrupts v) :
    u.Interrupts v := by
  refine ⟨Nat.le_trans h₁.clock_le h₂.clock_le, ?_, ?_⟩
  · intro hnone
    obtain ⟨hfirst, hstill⟩ := h₁.uninterrupted hnone
    obtain ⟨hsecond, hnever⟩ := h₂.uninterrupted hstill
    exact ⟨hsecond.trans hfirst, hnever⟩
  · have hu := h₁.clock_le
    have hw := h₂.clock_le
    rcases h₂.cancelAt with hsecond | ⟨c, hc, hafter, hbefore⟩
    · rcases h₁.cancelAt with hfirst | ⟨c, hc, hafter, hbefore⟩
      · exact Or.inl (hsecond.trans hfirst)
      · exact Or.inr ⟨c, hsecond.trans hc, hafter, by omega⟩
    · exact Or.inr ⟨c, hc, by omega, hbefore⟩

theorem interrupts_looked (w : World σ) : w.Interrupts w.looked := by
  have hclock : w.clock ≤ w.looked.clock := Nat.le_of_eq w.looked_clock.symm
  cases hcancelled : w.isCancelled with
  | true =>
    rw [looked_of_isCancelled hcancelled]
    exact .of_eq (Nat.le_refl _) rfl rfl
  | false =>
    refine ⟨hclock, ?_, ?_⟩
    · intro hnone
      simp [looked, hcancelled, hnone]
    · cases hinterrupt : w.interruptIn with
      | none => exact Or.inl (by simp [looked, hcancelled, hinterrupt])
      | some looks =>
        cases looks with
        | zero => exact Or.inr ⟨w.clock, by simp [looked, hcancelled, hinterrupt], by simp, by simp⟩
        | succ looks => exact Or.inl (by simp [looked, hcancelled, hinterrupt])

/-- A program that is not found cancelled is cancelled from now on at the earliest. -/
theorem clock_le_of_looked {w : World σ} (h : w.isCancelled = false) {c : Nat}
    (hc : w.looked.cancelAt = some c) : w.clock ≤ c := by
  rcases w.interrupts_looked.cancelAt with hsame | ⟨t, ht, hafter, _⟩
  · exact Nat.le_of_lt (not_isCancelled_iff.mp h c (hsame ▸ hc))
  · rw [ht, Option.some.injEq] at hc
    exact hc ▸ hafter

/-- An interrupt brings the cancellation forward. -/
theorem cancelTime_looked_le (w : World σ) : w.looked.cancelTime ≤ w.cancelTime := by
  cases hcancelled : w.isCancelled with
  | true => rw [looked_of_isCancelled hcancelled]
  | false =>
    have hcoming := lt_cancelTime_iff.mpr (not_isCancelled_iff.mp hcancelled)
    rcases w.interrupts_looked.cancelAt with hsame | ⟨c, hc, -, hbefore⟩
    · unfold cancelTime
      rw [hsame]
    · rw [cancelTime_of_some hc]
      rw [looked_clock] at hbefore
      exact (Nat.cast_le.mpr hbefore).trans hcoming.le

/-- As long as no call is made, all calls are as they should be. -/
theorem since_self (w : World σ) (P : Exchange → Prop) :
    ∃ news, World.Since w w news ∧ ∀ x ∈ news, P x :=
  ⟨[], w.since_refl, by simp⟩

end World

namespace Wait

variable [Backend σ] {g : Goal}

/-! ## Calls take no time -/

/-- A turn makes its calls at once, and cancels nothing. -/
theorem drive_now (g : Goal) (fuel : Nat) (p : Position) (w : World σ) :
    (drive g fuel p w).2.clock = w.clock ∧ (drive g fuel p w).2.cancelAt = w.cancelAt ∧
      (drive g fuel p w).2.interruptIn = w.interruptIn ∧
      ∃ news, World.Since w (drive g fuel p w).2 news ∧ ∀ x ∈ news, x.time = w.clock := by
  induction fuel generalizing p w with
  | zero => cases p <;> exact ⟨rfl, rfl, rfl, w.since_self _⟩
  | succ fuel ih =>
    cases p with
    | ended outcome => exact ⟨rfl, rfl, rfl, w.since_self _⟩
    | silent => exact ⟨rfl, rfl, rfl, w.since_self _⟩
    | paused wake stage =>
      rw [drive]
      split
      · exact ih _ w
      · exact ⟨rfl, rfl, rfl, w.since_self _⟩
    | ready stage =>
      have hcall := w.since_perform (g.move stage).call
      rw [drive]
      split
      · exact ⟨rfl, rfl, rfl, _, hcall, by simp⟩
      · obtain ⟨hclock, hcancel, hinterrupt, news, hnews, htimes⟩ := ih
          (.ofNext (w.perform (g.move stage).call).2.clock
            ((g.move stage).next (w.perform (g.move stage).call).1))
          (w.perform (g.move stage).call).2
        refine ⟨hclock, hcancel, hinterrupt, _, hcall.trans hnews, ?_⟩
        intro x hx
        rcases List.mem_append.mp hx with hx | hx
        · rw [List.mem_singleton.mp hx]
        · exact htimes x hx

/-- Whether it is cancelled later makes no difference to what a turn does. -/
theorem drive_undisturbed (g : Goal) (fuel : Nat) (p : Position) (w : World σ) :
    drive g fuel p w.undisturbed = ((drive g fuel p w).1, (drive g fuel p w).2.undisturbed) := by
  induction fuel generalizing p w with
  | zero => cases p <;> rfl
  | succ fuel ih =>
    cases p with
    | ended outcome => rfl
    | silent => rfl
    | paused wake stage =>
      rw [drive, drive]
      by_cases hwake : wake ≤ w.clock
      · rw [if_pos hwake]
        exact (if_pos hwake).trans (ih _ w)
      · rw [if_neg hwake]
        exact if_neg hwake
    | ready stage =>
      rw [drive, drive]
      by_cases hsuspends : Backend.suspends (g.move stage).call w.backend = true
      · rw [if_pos hsuspends]
        exact if_pos hsuspends
      · rw [if_neg hsuspends]
        exact (if_neg hsuspends).trans (ih _ (w.perform (g.move stage).call).2)

/-! ## Turns -/

section Turns

variable {fuel : Nat} {p : Progress} {w v : World σ}

/-- Cancellation is looked at first. -/
theorem takeTurns_of_cancelled (h : w.isCancelled = true) :
    takeTurns g (fuel + 1) p w = (.error (.cancelled g.targetText), w) := by
  rw [takeTurns, turn, if_pos h]

theorem takeTurns_of_ended {outcome : Outcome} (h : w.isCancelled = false)
    (hdrive : drive g (turnBound g w) p.position w.looked = (.ended outcome, v)) :
    takeTurns g (fuel + 1) p w = (outcome, v) := by
  rw [takeTurns, turn, if_neg (by simp [h]), hdrive]

/-- A wait that has not ended times out if its deadline has come. Otherwise the clock passes, and it goes
on where it rests. -/
theorem takeTurns_of_again {q : Position} {wake : Option Nat} (h : w.isCancelled = false)
    (hdrive : drive g (turnBound g w) p.position w.looked = (.again q wake, v)) :
    takeTurns g (fuel + 1) p w =
      if p.deadline ≤ v.clock then (.error (.timeout g.targetText g.timeout), v)
      else takeTurns g fuel { p with position := q } (v.advanceTo (nextTime p wake)) := by
  rw [takeTurns, turn, if_neg (by simp [h]), hdrive]
  dsimp only
  by_cases hlate : p.deadline ≤ v.clock
  · rw [if_pos hlate, if_pos hlate]
  · rw [if_neg hlate, if_neg hlate]

end Turns

/-- What a turn leaves of the world: it takes no time, makes its calls before the time of cancellation,
and an interrupt may come in it. -/
theorem drive_looked (g : Goal) (fuel : Nat) (p : Position) {w : World σ}
    (h : w.isCancelled = false) :
    (drive g fuel p w.looked).2.clock = w.clock ∧ w.Interrupts (drive g fuel p w.looked).2 ∧
      (drive g fuel p w.looked).2.cancelTime ≤ w.cancelTime ∧
      (∀ c, (drive g fuel p w.looked).2.cancelAt = some c → w.clock ≤ c) ∧
      ∃ news, World.Since w (drive g fuel p w.looked).2 news ∧
        ∀ x ∈ news, x.time ≤ w.clock ∧ (x.time : ℕ∞) < w.cancelTime := by
  obtain ⟨hclock, hcancel, hinterrupt, news, hnews, htimes⟩ := drive_now g fuel p w.looked
  have hinterrupts := w.interrupts_looked.trans (.of_eq (Nat.le_of_eq hclock.symm) hcancel hinterrupt)
  have hcoming := World.lt_cancelTime_iff.mpr (World.not_isCancelled_iff.mp h)
  rw [World.since_looked] at hnews
  rw [World.looked_clock] at hclock htimes
  refine ⟨hclock, hinterrupts, ?_, ?_, news, hnews, ?_⟩
  · refine le_trans (le_of_eq ?_) w.cancelTime_looked_le
    unfold World.cancelTime
    rw [hcancel]
  · intro c hc
    exact World.clock_le_of_looked h (hcancel ▸ hc)
  · intro x hx
    rw [htimes x hx]
    exact ⟨Nat.le_refl _, hcoming⟩

/-- Every call is made before the wait ends and before it is cancelled. -/
theorem takeTurns_calls (g : Goal) (fuel : Nat) (p : Progress) (w : World σ) :
    w.Interrupts (takeTurns g fuel p w).2 ∧
      ∃ news, World.Since w (takeTurns g fuel p w).2 news ∧
        ∀ x ∈ news, x.time ≤ (takeTurns g fuel p w).2.clock ∧ (x.time : ℕ∞) < w.cancelTime := by
  have hhere : w.Interrupts w := .of_eq (Nat.le_refl _) rfl rfl
  induction fuel generalizing p w with
  | zero => exact ⟨hhere, w.since_self _⟩
  | succ fuel ih =>
    cases hcancelled : w.isCancelled with
    | true =>
      rw [takeTurns_of_cancelled hcancelled]
      exact ⟨hhere, w.since_self _⟩
    | false =>
      obtain ⟨hclock, hinterrupts, hsooner, -, news, hnews, hcalls⟩ :=
        drive_looked g (turnBound g w) p.position hcancelled
      rcases hdrive : drive g (turnBound g w) p.position w.looked with ⟨outcome | ⟨q, wake⟩, v⟩
      · rw [hdrive] at hclock hinterrupts hnews
        rw [takeTurns_of_ended hcancelled hdrive]
        dsimp only at hclock ⊢
        rw [hclock]
        exact ⟨hinterrupts, news, hnews, hcalls⟩
      · rw [hdrive] at hclock hinterrupts hsooner hnews
        rw [takeTurns_of_again hcancelled hdrive]
        dsimp only at hclock hinterrupts hsooner hnews
        by_cases hlate : p.deadline ≤ v.clock
        · rw [if_pos hlate]
          dsimp only
          rw [hclock]
          exact ⟨hinterrupts, news, hnews, hcalls⟩
        · rw [if_neg hlate]
          -- the turns that follow are taken at a later time, and may be cancelled sooner
          have hpassed : v.Interrupts (v.advanceTo (nextTime p wake)) :=
            .of_eq (v.clock_le_advanceTo _) rfl rfl
          obtain ⟨hlater, more, hmore, hrest⟩ :=
            ih { p with position := q } (v.advanceTo (nextTime p wake))
              (.of_eq (Nat.le_refl _) rfl rfl)
          have hclocks := (hpassed.trans hlater).clock_le
          refine ⟨hinterrupts.trans (hpassed.trans hlater), news ++ more, hnews.trans hmore, ?_⟩
          intro x hx
          rcases List.mem_append.mp hx with hx | hx
          · have hearly := (hcalls x hx).1
            exact ⟨by omega, (hcalls x hx).2⟩
          · have hlast := hrest x hx
            exact ⟨hlast.1, lt_of_lt_of_le hlast.2 hsooner⟩

/-! ## The race -/

/-- How a wait with a deadline comes to its end from a position: it is cancelled before it would end
otherwise, it ends of its own accord in time, or the deadline comes before that. -/
inductive Raced (g : Goal) (deadline : Nat) (p : Position) (w : World σ) :
    Outcome × World σ → Prop where
  | cancelled {v : World σ} {c : Nat} (cancels : v.cancelAt = some c) (intime : v.clock ≤ deadline)
      (first : c ≤ deadline) (early : ∀ outcome u, g.Settles p w.undisturbed outcome u → c ≤ u.clock) :
      Raced g deadline p w (.error (.cancelled g.targetText), v)
  | own {v : World σ} {outcome : Outcome} (settles : g.Settles p w.undisturbed outcome v.undisturbed)
      (intime : v.clock ≤ deadline) (uncancelled : ∀ c, v.cancelAt = some c → v.clock ≤ c) :
      Raced g deadline p w (outcome, v)
  | timeout {v : World σ} (intime : v.clock ≤ deadline)
      (uncancelled : ∀ c, v.cancelAt = some c → deadline ≤ c)
      (late : ∀ outcome u, g.Settles p w.undisturbed outcome u → deadline < u.clock) :
      Raced g deadline p w (.error (.timeout g.targetText g.timeout), v)

/-- A race that goes on later is the same race, if the wait settles as before. -/
theorem Raced.of_later {deadline : Nat} {p q : Position} {w v : World σ} {x : Outcome × World σ}
    (h : Raced g deadline q v x)
    (hsame : ∀ outcome u, g.Settles p w.undisturbed outcome u ↔
      g.Settles q v.undisturbed outcome u) : Raced g deadline p w x := by
  cases h with
  | cancelled cancels intime first early =>
    exact .cancelled cancels intime first
      fun outcome u hsettles => early outcome u ((hsame outcome u).mp hsettles)
  | own settles intime uncancelled =>
    exact .own ((hsame _ _).mpr settles) intime uncancelled
  | timeout intime uncancelled late =>
    exact .timeout intime uncancelled
      fun outcome u hsettles => late outcome u ((hsame outcome u).mp hsettles)

/-- A wait that is cancelled takes one more turn. -/
theorem raced_of_cancelled {fuel : Nat} {p : Progress} {w : World σ} (h : w.isCancelled = true)
    (hclock : w.clock ≤ p.deadline) :
    Raced g p.deadline p.position w (takeTurns g (fuel + 1) p w) := by
  obtain ⟨c, hc, hpast⟩ := World.isCancelled_iff.mp h
  rw [takeTurns_of_cancelled h]
  refine .cancelled hc hclock (by omega) ?_
  intro outcome u hsettles
  exact Nat.le_trans hpast hsettles.clock_le

/-- A wait that rests times out if its deadline has come. Otherwise the clock passes, unless an interrupt
has come, and the race goes on where it rests. -/
theorem Raced.rest {fuel : Nat} {p : Progress} {q : Position} {wake : Option Nat} {v : World σ}
    (hcoming : ∀ c, v.cancelAt = some c → v.clock ≤ c) (hclock : v.clock ≤ p.deadline)
    (hfuel : p.deadline < v.clock + (fuel + 1))
    (hwake : ∀ time, wake = some time → v.clock < time)
    (hpending : ∀ outcome u, g.Settles q v.undisturbed outcome u → v.clock < u.clock)
    (hsame : ∀ stop ≤ nextTime p wake, ∀ outcome u, g.Settles q v.undisturbed outcome u ↔
      g.Settles q (v.undisturbed.advanceTo stop) outcome u)
    (hrace : ∀ u : World σ, v.clock < u.clock → u.clock ≤ p.deadline →
      Raced g p.deadline q u (takeTurns g fuel { p with position := q } u)) :
    Raced g p.deadline q v
      (if p.deadline ≤ v.clock then (.error (.timeout g.targetText g.timeout), v)
        else takeTurns g fuel { p with position := q } (v.advanceTo (nextTime p wake))) := by
  by_cases hlate : p.deadline ≤ v.clock
  · rw [if_pos hlate]
    refine .timeout hclock ?_ ?_
    · intro c hc
      exact Nat.le_trans hlate (hcoming c hc)
    · intro outcome u hsettles
      exact Nat.lt_of_le_of_lt hlate (hpending outcome u hsettles)
  · rw [if_neg hlate]
    cases hawake : v.isCancelled with
    | true =>
      -- an interrupt has come in this turn
      obtain ⟨rest, rfl⟩ : ∃ rest, fuel = rest + 1 := ⟨fuel - 1, by omega⟩
      rw [World.advanceTo_of_isCancelled hawake]
      exact raced_of_cancelled (p := { p with position := q }) hawake hclock
    | false =>
      have hnext : v.clock < nextTime p wake ∧ nextTime p wake ≤ p.deadline := by
        unfold nextTime
        cases hw : wake with
        | none =>
          dsimp only
          omega
        | some time =>
          have hafter := hwake time hw
          dsimp only
          omega
      obtain ⟨hpassed, hstopped, stop, hstop, hundisturbed⟩ :=
        World.advanceTo_stop hawake hnext.1
      have hlater := hrace (v.advanceTo (nextTime p wake)) hpassed (by omega)
      refine hlater.of_later ?_
      rw [hundisturbed]
      exact hsame stop hstop

/-- Turn after turn, the race goes on until one of the three clocks has won it. -/
theorem raced_takeTurns (hsteady : Steady σ) (fuel : Nat) {p : Progress} {w : World σ}
    (hclock : w.clock ≤ p.deadline) (hfuel : p.deadline < w.clock + fuel) :
    Raced g p.deadline p.position w (takeTurns g fuel p w) := by
  induction fuel generalizing p w with
  | zero => omega
  | succ fuel ih =>
    cases hcancelled : w.isCancelled with
    | true => exact raced_of_cancelled hcancelled hclock
    | false =>
      -- the turn does what it would do if nobody cancelled
      have hdriven : Driven g p.position w.undisturbed
          (drive g (turnBound g w) p.position w.undisturbed) :=
        driven_drive hsteady (turnBound g w) ⟨rfl, rfl⟩ (g.effort_le_turnBound w p.position)
      rw [← w.undisturbed_looked, drive_undisturbed, w.undisturbed_looked] at hdriven
      obtain ⟨hnow, -, -, hcoming, -⟩ := drive_looked g (turnBound g w) p.position hcancelled
      rcases hdrive : drive g (turnBound g w) p.position w.looked with ⟨result, v⟩
      rw [hdrive] at hdriven hnow hcoming
      dsimp only at hdriven hnow hcoming
      rw [← hnow] at hcoming hfuel
      have hintime : v.clock ≤ p.deadline := by omega
      have hrace : ∀ (q : Position) (u : World σ), v.clock < u.clock → u.clock ≤ p.deadline →
          Raced g p.deadline q u (takeTurns g fuel { p with position := q } u) := by
        intro q u hpassed hstopped
        exact ih (p := { p with position := q }) hstopped (by dsimp only; omega)
      generalize hfree : v.undisturbed = u at hdriven
      cases hdriven with
      | ended settles =>
        subst hfree
        rw [takeTurns_of_ended hcancelled hdrive]
        exact .own settles hintime hcoming
      | silent _ _ never =>
        subst hfree
        rw [takeTurns_of_again hcancelled hdrive]
        have hrest : Raced g p.deadline .silent v
            (if p.deadline ≤ v.clock then (.error (.timeout g.targetText g.timeout), v)
              else takeTurns g fuel { p with position := .silent } (v.advanceTo (nextTime p none))) := by
          apply Raced.rest hcoming hintime hfuel _ _ _ (hrace .silent)
          · intro time htime
            cases htime
          · intro outcome u hsettles
            exact absurd hsettles Goal.not_settles_silent
          · intro stop _ outcome u
            exact iff_of_false Goal.not_settles_silent Goal.not_settles_silent
        refine hrest.of_later ?_
        intro outcome u
        exact iff_of_false (never outcome u) Goal.not_settles_silent
      | @paused wake stage _ _ uncancelled asleep same =>
        subst hfree
        rw [takeTurns_of_again hcancelled hdrive]
        have hpending : ∀ outcome u, g.Settles (.paused wake stage) v.undisturbed outcome u →
            v.clock < u.clock := by
          intro outcome u hsettles
          have hwoken := (Goal.settles_paused_iff.mp hsettles).clock_le
          rw [World.advanceTo_eq uncancelled] at hwoken
          dsimp only at hwoken
          exact Nat.lt_of_lt_of_le asleep (Nat.le_trans (Nat.le_max_right _ _) hwoken)
        have hparts : ∀ stop ≤ nextTime p (some wake), ∀ outcome u,
            g.Settles (.paused wake stage) v.undisturbed outcome u ↔
              g.Settles (.paused wake stage) (v.undisturbed.advanceTo stop) outcome u := by
          intro stop hstop outcome u
          have hwake : nextTime p (some wake) ≤ wake := Nat.min_le_left _ _
          exact (Goal.settles_paused_advanceTo uncancelled (Nat.le_trans hstop hwake)).symm
        have hrest := Raced.rest (g := g) (p := p) hcoming hintime hfuel
          (fun time htime => Option.some.inj htime ▸ asleep) hpending hparts (hrace _)
        exact hrest.of_later same

/-! ## The first of three clocks -/

namespace Goal

variable {w : World σ}

/-- When a wait that is left alone comes to its own end, and with what: at some time, or never. -/
inductive Alone (g : Goal) (w : World σ) : ℕ∞ → Option Outcome → Prop where
  | ends {outcome : Outcome} {u : World σ}
      (settles : g.Settles (.ready (.reading 1)) w.undisturbed outcome u) :
      Alone g w u.clock (some outcome)
  | never (unsettled : ∀ outcome u, ¬ g.Settles (.ready (.reading 1)) w.undisturbed outcome u) :
      Alone g w ⊤ none

theorem exists_alone (g : Goal) (w : World σ) : ∃ time own, g.Alone w time own := by
  by_cases h : ∃ outcome u, g.Settles (.ready (.reading 1)) w.undisturbed outcome u
  · obtain ⟨outcome, u, hsettles⟩ := h
    exact ⟨_, _, .ends hsettles⟩
  · refine ⟨⊤, none, .never ?_⟩
    intro outcome u hsettles
    exact h ⟨outcome, u, hsettles⟩

/-- A wait that settles has its own end there. -/
theorem Alone.of_settles {time : ℕ∞} {own : Option Outcome} {outcome : Outcome} {u : World σ}
    (h : g.Alone w time own)
    (hsettles : g.Settles (.ready (.reading 1)) w.undisturbed outcome u) :
    time = u.clock ∧ own = some outcome := by
  cases h with
  | ends settles =>
    obtain ⟨rfl, rfl⟩ := settles.unique hsettles
    exact ⟨rfl, rfl⟩
  | never unsettled => exact absurd hsettles (unsettled outcome u)

/-- What comes before every end of its own comes before its own end. -/
theorem Alone.le {time : ℕ∞} {own : Option Outcome} {t : Nat} (h : g.Alone w time own)
    (hbefore : ∀ outcome u, g.Settles (.ready (.reading 1)) w.undisturbed outcome u → t ≤ u.clock) :
    (t : ℕ∞) ≤ time := by
  cases h with
  | ends settles => exact Nat.cast_le.mpr (hbefore _ _ settles)
  | never => exact le_top

/-- When a wait that begins now times out. -/
def deadline (g : Goal) (w : World σ) : Nat :=
  w.clock + g.timeout.millisUp

/-- A wait with its own end at some time, if ever, ends as the first of its three clocks decides. The
time of its cancellation is the one that is known in the end. -/
structure EndsFirst (g : Goal) (w : World σ) (time : ℕ∞) (own : Option Outcome)
    (x : Outcome × World σ) : Prop where
  /-- It was cancelled before it began, or before its own end and its deadline. -/
  cancelled : w.cancelTime ≤ w.clock ∨ x.2.cancelTime < min time (g.deadline w) →
    x.1 = .error (.cancelled g.targetText)
  /-- It comes to its own end, because it needs no pause or comes there before its deadline. -/
  own : w.clock < w.cancelTime → min time (g.deadline w) < x.2.cancelTime →
    time = w.clock ∨ time < g.deadline w → own = some x.1
  /-- Its deadline comes first. -/
  timeout : w.clock < w.cancelTime → min time (g.deadline w) < x.2.cancelTime →
    g.deadline w < time → x.1 = .error (.timeout g.targetText g.timeout)
  /-- Its time of cancellation has been known from the beginning, if no interrupt comes. -/
  uninterrupted : w.interruptIn = none → x.2.cancelTime = w.cancelTime
  /-- Otherwise an interrupt may have set it during the wait, to the time then. -/
  interrupted : x.2.cancelTime = w.cancelTime ∨
    w.clock ≤ x.2.cancelTime ∧ x.2.cancelTime ≤ x.2.clock
  /-- It ends by its deadline. -/
  intime : x.2.clock ≤ g.deadline w
  /-- It makes no call after its end, and none once the time has come at which it was to be cancelled. -/
  calls : ∃ news, World.Since w x.2 news ∧
    ∀ y ∈ news, y.time ≤ x.2.clock ∧ (y.time : ℕ∞) < w.cancelTime

/-- Whichever clock has won the race, it was the first. -/
theorem endsFirst_of_raced {time : ℕ∞} {own : Option Outcome} {x : Outcome × World σ}
    (hrace : Raced g (g.deadline w) (.ready (.reading 1)) w x) (halone : g.Alone w time own)
    (hbefore : w.isCancelled = true → x.1 = .error (.cancelled g.targetText))
    (hinterrupts : w.Interrupts x.2)
    (hcalls : ∃ news, World.Since w x.2 news ∧
      ∀ y ∈ news, y.time ≤ x.2.clock ∧ (y.time : ℕ∞) < w.cancelTime) :
    g.EndsFirst w time own x := by
  have hbegin : (w.clock : ℕ∞) ≤ g.deadline w := Nat.cast_le.mpr (Nat.le_add_right _ _)
  have hfirst : w.cancelTime ≤ w.clock → x.1 = .error (.cancelled g.targetText) := by
    intro hle
    apply hbefore
    rw [← Bool.not_eq_false, World.not_isCancelled_iff, ← World.lt_cancelTime_iff]
    exact not_lt.mpr hle
  have huninterrupted : w.interruptIn = none → x.2.cancelTime = w.cancelTime := by
    intro hnone
    unfold World.cancelTime
    rw [(hinterrupts.uninterrupted hnone).1]
  have hinterrupted : x.2.cancelTime = w.cancelTime ∨
      w.clock ≤ x.2.cancelTime ∧ x.2.cancelTime ≤ x.2.clock := by
    rcases hinterrupts.cancelAt with hsame | ⟨c, hc, hafter, hbefore⟩
    · left
      unfold World.cancelTime
      rw [hsame]
    · right
      rw [World.cancelTime_of_some hc]
      exact ⟨Nat.cast_le.mpr hafter, Nat.cast_le.mpr hbefore⟩
  cases hrace with
  | @cancelled v c cancels intime first early =>
    have hle : v.cancelTime ≤ min time (g.deadline w) := by
      rw [World.cancelTime_of_some cancels]
      exact le_min (halone.le early) (Nat.cast_le.mpr first)
    exact ⟨fun _ => rfl, fun _ h => absurd h (not_lt.mpr hle), fun _ h => absurd h (not_lt.mpr hle),
      huninterrupted, hinterrupted, intime, hcalls⟩
  | @own v outcome settles intime uncancelled =>
    obtain ⟨rfl, rfl⟩ := halone.of_settles settles
    have hle : (v.clock : ℕ∞) ≤ g.deadline w := Nat.cast_le.mpr intime
    have hcancel : (v.clock : ℕ∞) ≤ v.cancelTime := World.le_cancelTime_iff.mpr uncancelled
    refine ⟨?_, fun _ _ _ => rfl, fun _ _ h => absurd h (not_lt.mpr hle), huninterrupted, hinterrupted,
      intime, hcalls⟩
    rintro (hbefore | hsooner)
    · exact hfirst hbefore
    · exact absurd (lt_of_lt_of_le hsooner (min_le_left _ _)) (not_lt.mpr hcancel)
  | @timeout v intime uncancelled late =>
    have hcancel : (g.deadline w : ℕ∞) ≤ v.cancelTime := World.le_cancelTime_iff.mpr uncancelled
    have hlate : (g.deadline w : ℕ∞) < time :=
      lt_of_lt_of_le (Nat.cast_lt.mpr (Nat.lt_succ_self _)) (halone.le late)
    refine ⟨?_, ?_, fun _ _ _ => rfl, huninterrupted, hinterrupted, intime, hcalls⟩
    · rintro (hbefore | hsooner)
      · exact hfirst hbefore
      · exact absurd (lt_of_lt_of_le hsooner (min_le_right _ _)) (not_lt.mpr hcancel)
    · rintro - - (hnow | hearly)
      · exact absurd (hnow ▸ hlate) (not_lt.mpr hbegin)
      · exact absurd hlate (not_lt.mpr hearly.le)

/-- On any script, a wait ends as the first of its three clocks decides: its cancellation, its deadline
and its own end. -/
theorem first_clock_decides (g : Goal) (w : World (Script g.collection)) :
    ∃ time own, g.Alone w time own ∧ g.EndsFirst w time own (run g w) := by
  obtain ⟨time, own, halone⟩ := g.exists_alone w
  have hrace : Raced g (g.deadline w) (.ready (.reading 1)) w (run g w) := by
    apply raced_takeTurns (Script.steady g.collection) _ (p := .start g w)
    · exact Nat.le_add_right _ _
    · simp only [Progress.start]
      omega
  have hbefore : w.isCancelled = true → (run g w).1 = .error (.cancelled g.targetText) := by
    intro hcancelled
    exact congrArg Prod.fst (takeTurns_of_cancelled (p := .start g w) hcancelled)
  obtain ⟨hinterrupts, hcalls⟩ :=
    takeTurns_calls g (g.timeout.millisUp + g.settings.maxReadAttempts + 3) (.start g w) w
  exact ⟨time, own, halone, endsFirst_of_raced hrace halone hbefore hinterrupts hcalls⟩

/-- A watch is refused, and opened again after five milliseconds it delivers that the component is
available: with ten milliseconds to wait, with four, with ten but cancelled after three, and with ten but
interrupted in its first turn or, too late, in its second. -/
example :
    let component (version health : String) : Object .components :=
      { metadata := { name := some "k8s-loki", resourceVersion := some version }
        body :=
          { name := "k8s-loki", helmNamespace := "k8s", version := "1.0.0",
            status := some { health } } }
    let goal (millis : Nat) : Goal :=
      { collection := .components
        target := .named "k8s-loki" "app"
        predicate := componentHealthy
        settings := { Settings.standard with retryPause := .ofMillis 5 }
        timeout := .ofMillis millis }
    let world (cancelAt : Option Nat) : World (Script .components) :=
      { backend :=
          { gets := [.ok (component "1" "")]
            opens := [.error (.other "connection refused"),
              .ok [.ok (.modified (component "2" "available"))]] }
        cancelAt }
    (run (goal 10) (world none)).1 = .ok () ∧
      (run (goal 4) (world none)).1 = .error (.timeout "k8s-loki (app=k8s-loki)" (.ofMillis 4)) ∧
      (run (goal 10) (world (some 3))).1 = .error (.cancelled "k8s-loki (app=k8s-loki)") ∧
      (run (goal 10) { world none with interruptIn := some 0 }).1 =
        .error (.cancelled "k8s-loki (app=k8s-loki)") ∧
      (run (goal 10) { world none with interruptIn := some 1 }).1 = .ok () :=
  ⟨rfl, rfl, rfl, rfl, rfl⟩

end Goal

end Wait

end EcosystemSetup

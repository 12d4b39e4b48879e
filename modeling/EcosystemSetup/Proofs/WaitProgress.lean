import EcosystemSetup.Proofs.Deadlines

/-!
# How far a wait gets

A wait that is left alone makes its calls and sleeps through its pauses, one after the other. How far it
has got is a position in a world, and of two such positions one lies on the way to the other. Main
statement: with a deadline a wait gets as far, unless it is silent by then or in a pause that lasts until
then. So whatever it does alone before the deadline, it has done in the end.
-/

namespace EcosystemSetup.Wait

open Cluster

variable {σ : Type} {g : Goal}

/-! ## Where a wait stops -/

/-- Where a wait has not got on by its deadline: it hears nothing more, or its pause lasts until then. -/
inductive Position.Held (deadline : Nat) : Position → Prop where
  | silent : Held deadline .silent
  | paused {wake : Nat} {stage : Stage} (late : deadline ≤ wake) : Held deadline (.paused wake stage)

/-- A wait ends where it has got to its own end, or it times out where it is held by its deadline. In
either case it has made the calls on its way there and no others. -/
def Goal.Stops (g : Goal) (deadline : Nat) (q : Position) (v : World σ) (x : Outcome × World σ) :
    Prop :=
  x.2.record = v.record ∧
    (q = .ended x.1 ∧ v = x.2 ∨
      x.1 = .error (.timeout g.targetText g.timeout) ∧ q.Held deadline)

/-- What has stopped without an end is held where it stands, also before time passed there. -/
theorem Goal.Stops.earlier {deadline : Nat} {q : Position} {v u : World σ} {x : Outcome × World σ}
    (h : g.Stops deadline q u x) (hq : ∀ outcome, q ≠ .ended outcome) (hrecord : u.record = v.record) :
    g.Stops deadline q v x := by
  obtain ⟨hsame, ⟨hended, -⟩ | htimeout⟩ := h
  · exact absurd hended (hq _)
  · exact ⟨hsame.trans hrecord, Or.inr htimeout⟩

variable [Backend σ]

/-! ## The way of a wait -/

/-- A wait that is left alone gets from a position in a world to another. -/
inductive Goal.Gets (g : Goal) : Position → World σ → Position → World σ → Prop where
  | here (p : Position) (w : World σ) : g.Gets p w p w
  | call {stage : Stage} {q : Position} {w v : World σ}
      (later : g.Gets (g.after stage w).1 (g.after stage w).2 q v) : g.Gets (.ready stage) w q v
  | wake {wake : Nat} {stage : Stage} {q : Position} {w v : World σ}
      (later : g.Gets (.ready stage) (w.advanceTo wake) q v) : g.Gets (.paused wake stage) w q v

namespace Goal.Gets

variable {p q r : Position} {w v u : World σ}

theorem trans (h₁ : g.Gets p w q v) (h₂ : g.Gets q v r u) : g.Gets p w r u := by
  induction h₁ with
  | here => exact h₂
  | call _ ih => exact .call (ih h₂)
  | wake _ ih => exact .wake (ih h₂)

theorem clock_le (h : g.Gets p w q v) : w.clock ≤ v.clock := by
  induction h with
  | here => exact Nat.le_refl _
  | call _ ih => exact ih
  | wake _ ih => exact Nat.le_trans (World.clock_le_advanceTo _ _) ih

/-- Nobody cancels a wait on its way. -/
theorem undisturbed (h : g.Gets p w q v) (hw : w.Undisturbed) : v.Undisturbed := by
  induction h with
  | here => exact hw
  | call _ ih => exact ih hw
  | wake _ ih => exact ih hw

/-- A wait has one way only, so of two positions it gets to the one is on the way to the other. -/
theorem total (h₁ : g.Gets p w q v) (h₂ : g.Gets p w r u) : g.Gets q v r u ∨ g.Gets r u q v := by
  induction h₁ with
  | here => exact Or.inl h₂
  | call later ih =>
    cases h₂ with
    | here => exact Or.inr (.call later)
    | call other => exact ih other
  | wake later ih =>
    cases h₂ with
    | here => exact Or.inr (.wake later)
    | wake other => exact ih other

theorem of_ended {outcome : Outcome} (h : g.Gets (.ended outcome) w q v) :
    q = .ended outcome ∧ v = w := by
  cases h with
  | here => exact ⟨rfl, rfl⟩

theorem of_silent (h : g.Gets .silent w q v) : q = .silent ∧ v = w := by
  cases h with
  | here => exact ⟨rfl, rfl⟩

/-- A wait that gets on from a pause has slept through it. -/
theorem of_paused {wake : Nat} {stage : Stage} (h : g.Gets (.paused wake stage) w q v) :
    q = .paused wake stage ∧ v = w ∨ g.Gets (.ready stage) (w.advanceTo wake) q v := by
  cases h with
  | here => exact Or.inl ⟨rfl, rfl⟩
  | wake later => exact Or.inr later

/-- After a pause, and be it of no length, a wait goes on with its stage. -/
theorem pause (hw : w.Undisturbed) (d : Duration) (stage : Stage) :
    g.Gets (.ofNext w.clock (.pause d stage)) w (.ready stage)
      { w with clock := w.clock + d.millisUp } := by
  unfold Position.ofNext
  dsimp only
  by_cases hlength : d.nanos = 0
  · have hmillis : d.millisUp = 0 := by simp [Duration.millisUp, hlength]
    rw [if_pos hlength, hmillis]
    exact .here _ _
  · have hclock : w.advanceTo (w.clock + d.millisUp) =
        { w with clock := w.clock + d.millisUp } := by
      rw [World.advanceTo_eq hw, Nat.max_eq_right (Nat.le_add_right _ _)]
    rw [if_neg hlength, ← hclock]
    exact .wake (.here _ _)

end Goal.Gets

/-! ## With a deadline -/

/-- In one turn a wait gets as far as it would alone. -/
theorem gets_drive (fuel : Nat) {p : Position} {w : World σ} (hw : w.Undisturbed) :
    g.Gets p w (drive g fuel p w).1.position (drive g fuel p w).2 := by
  induction fuel generalizing p w with
  | zero => cases p <;> exact .here _ _
  | succ fuel ih =>
    cases p with
    | ended outcome => exact .here _ _
    | silent => exact .here _ _
    | paused wake stage =>
      rw [drive]
      split
      · rename_i hwake
        refine .wake ?_
        rw [World.advanceTo_of_le hw hwake]
        exact ih hw
      · exact .here _ _
    | ready stage =>
      rw [drive]
      split
      · exact .call (.here _ _)
      · have hlater := ih (p := (g.after stage w).1) (w := (g.after stage w).2) hw
        exact .call hlater

/-- Turn after turn, a wait gets to its own end, or to where it is held by its deadline. -/
theorem stops_takeTurns (hsteady : Steady σ) (fuel : Nat) {p : Progress} {w : World σ}
    (hw : w.Undisturbed) (hclock : w.clock ≤ p.deadline) (hfuel : p.deadline < w.clock + fuel) :
    ∃ q v, g.Gets p.position w q v ∧ g.Stops p.deadline q v (takeTurns g fuel p w) := by
  induction fuel generalizing p w with
  | zero => omega
  | succ fuel ih =>
    have hawake := hw.unstopped.1
    have hdriven : Driven g p.position w (drive g (turnBound g w) p.position w) :=
      driven_drive hsteady (turnBound g w) hw (g.effort_le_turnBound w p.position)
    have hgets := gets_drive (g := g) (turnBound g w) (p := p.position) hw
    obtain ⟨hnow, -, -⟩ := drive_now g (turnBound g w) p.position w
    rcases hdrive : drive g (turnBound g w) p.position w with ⟨result, v⟩
    rw [hdrive] at hdriven hgets hnow
    have hturn : drive g (turnBound g w) p.position w.looked = (result, v) := by
      rw [World.looked_of_unstopped hw.unstopped]
      exact hdrive
    dsimp only at hgets hnow
    cases hdriven with
    | ended settles =>
      rw [takeTurns_of_ended hawake hturn]
      exact ⟨_, v, hgets, rfl, Or.inl ⟨rfl, rfl⟩⟩
    | silent _ uncancelled _ =>
      rw [takeTurns_of_again hawake hturn]
      by_cases hlate : p.deadline ≤ v.clock
      · rw [if_pos hlate]
        exact ⟨_, v, hgets, rfl, Or.inr ⟨rfl, .silent⟩⟩
      · rw [if_neg hlate]
        have hpassed := v.advanceTo_eq uncancelled (nextTime p none)
        have hturns := ih (p := { p with position := .silent })
          (w := v.advanceTo (nextTime p none)) uncancelled
          (by rw [hpassed]; simp only [nextTime]; omega)
          (by rw [hpassed]; simp only [nextTime]; omega)
        obtain ⟨q, u, hlater, hstops⟩ := hturns
        -- nothing is on the way from there
        obtain ⟨rfl, rfl⟩ := hlater.of_silent
        exact ⟨_, v, hgets, hstops.earlier (by simp) rfl⟩
    | @paused wake stage _ _ uncancelled asleep _ =>
      rw [takeTurns_of_again hawake hturn]
      by_cases hlate : p.deadline ≤ v.clock
      · rw [if_pos hlate]
        exact ⟨_, v, hgets, rfl, Or.inr ⟨rfl, .paused (Nat.le_of_lt (Nat.lt_of_le_of_lt hlate asleep))⟩⟩
      · rw [if_neg hlate]
        have hpassed := v.advanceTo_eq uncancelled (nextTime p (some wake))
        have hstop : nextTime p (some wake) ≤ wake := Nat.min_le_left _ _
        have hturns := ih (p := { p with position := .paused wake stage })
          (w := v.advanceTo (nextTime p (some wake))) uncancelled
          (by rw [hpassed]; simp only [nextTime]; omega)
          (by rw [hpassed]; simp only [nextTime]; omega)
        obtain ⟨q, u, hlater, hstops⟩ := hturns
        rcases hlater.of_paused with ⟨rfl, rfl⟩ | hwoken
        · -- the deadline has come during the pause
          exact ⟨_, v, hgets, hstops.earlier (by simp) rfl⟩
        · rw [World.advanceTo_advanceTo uncancelled hstop] at hwoken
          exact ⟨q, u, hgets.trans (.wake hwoken), hstops⟩

/-- A wait with a deadline gets to its own end, or to where it is held by its deadline. -/
theorem stops_run (hsteady : Steady σ) (g : Goal) {w : World σ} (hw : w.Undisturbed) :
    ∃ q v, g.Gets (.ready (.reading 1)) w q v ∧ g.Stops (g.deadline w) q v (run g w) := by
  refine stops_takeTurns hsteady _ (p := .start g w) hw ?_ ?_
  · exact Nat.le_add_right _ _
  · simp only [Progress.start]
    omega

/-- Wherever a wait gets before its deadline, it has been there in the end. -/
theorem Goal.Gets.run (hsteady : Steady σ) {w v : World σ} {p : Position} (hw : w.Undisturbed)
    (h : g.Gets (.ready (.reading 1)) w p v) (htime : v.clock < g.deadline w) :
    ∃ q u, g.Gets p v q u ∧ g.Stops (g.deadline w) q u (Wait.run g w) := by
  obtain ⟨q, u, hgets, hstops⟩ := stops_run hsteady g hw
  refine ⟨q, u, ?_, hstops⟩
  rcases h.total hgets with hlater | hbefore
  · exact hlater
  · -- where it has stopped, it gets no further before the deadline
    obtain ⟨-, ⟨rfl, -⟩ | ⟨-, hheld⟩⟩ := hstops
    · obtain ⟨rfl, rfl⟩ := hbefore.of_ended
      exact .here _ _
    · cases hheld with
      | silent =>
        obtain ⟨rfl, rfl⟩ := hbefore.of_silent
        exact .here _ _
      | @paused wake stage late =>
        rcases hbefore.of_paused with ⟨rfl, rfl⟩ | hwoken
        · exact .here _ _
        · have hasleep := hwoken.clock_le
          have hundisturbed : u.Undisturbed := hgets.undisturbed hw
          rw [World.advanceTo_eq hundisturbed] at hasleep
          dsimp only at hasleep
          omega

/-- The way of a wait has nothing to do with its timeout. -/
theorem Goal.Gets.within (timeout : Duration) {p q : Position} {w v : World σ}
    (h : g.Gets p w q v) : (g.within timeout).Gets p w q v := by
  induction h with
  | here p w => exact .here p w
  | call _ ih =>
    refine .call ?_
    rw [after_within]
    exact ih
  | wake _ ih => exact .wake ih

end EcosystemSetup.Wait

import EcosystemSetup.Executor
import EcosystemSetup.Proofs.Conduct
import EcosystemSetup.Proofs.Lists

/-!
# Runs of steps

An executor performs its steps in order up to the first that halts it: one before which the run is
cancelled, or one that fails. So a run without a failure has performed all steps, and a run with one has
performed exactly the steps before it; and whatever is on the record of a run was done by a step before
which all earlier ones had been performed.
-/

namespace EcosystemSetup.Executor

open Cluster

variable {σ : Type} [Backend σ]

/-! ## Performing and halting -/

/-- Steps performed one after another, from one world to another: a look before each of them did not find
the run cancelled, and each succeeded. -/
inductive Performed : List (Step Program) → World σ → World σ → Prop where
  | nil (w : World σ) : Performed [] w w
  | cons {s : Step Program} {rest : List (Step Program)} {u v w : World σ}
      (uncancelled : u.isCancelled = false) (succeeded : s.perform.run u.looked = (.ok (), v))
      (others : Performed rest v w) : Performed (s :: rest) u w

/-- A step that ends the run, with its cause and the world it leaves: the look before it finds the run
cancelled, or it fails. -/
inductive Halted (s : Step Program) : World σ → Failure → World σ → Prop where
  | cancelled {w : World σ} (h : w.isCancelled = true) : Halted s w cancelledBeforeStep w
  | failed {u v : World σ} {cause : Failure} (uncancelled : u.isCancelled = false)
      (failure : s.perform.run u.looked = (.error cause, v)) : Halted s u cause v

/-- Where nobody cancels the run, only a step that fails halts it. -/
theorem Halted.failure {s : Step Program} {w v : World σ} {cause : Failure} (h : Halted s w cause v)
    (hw : w.Undisturbed) : s.perform.run w = (.error cause, v) := by
  cases h with
  | cancelled hcancelled =>
    rw [hw.unstopped.1] at hcancelled
    simp at hcancelled
  | failed _ failure => rwa [World.looked_of_unstopped hw.unstopped] at failure

namespace Performed

/-- Performed steps only add to the record. -/
theorem since {steps : List (Step Program)} {u w : World σ} (h : Performed steps u w) :
    ∃ news, World.Since u w news := by
  induction h with
  | nil w => exact ⟨[], w.since_refl⟩
  | @cons s rest u v w uncancelled succeeded others ih =>
    obtain ⟨news, hnews⟩ := s.perform.run_since u.looked
    obtain ⟨more, hmore⟩ := ih
    rw [succeeded, World.since_looked] at hnews
    exact ⟨news ++ more, hnews.trans hmore⟩

/-- Each performed step succeeded in some world on the way. -/
theorem mem {steps : List (Step Program)} {u w : World σ} {s : Step Program}
    (h : Performed steps u w) (hs : s ∈ steps) :
    ∃ v v' earlier later, World.Since u v earlier ∧ s.perform.run v = (.ok (), v') ∧
      World.Since v' w later := by
  -- along the steps; what was recorded before adds up
  induction h with
  | nil => simp at hs
  | @cons t rest u v w uncancelled succeeded others ih =>
    rcases List.mem_cons.mp hs with rfl | hs
    · obtain ⟨later, hlater⟩ := others.since
      exact ⟨u.looked, v, [], later, World.since_looked.mp u.looked.since_refl, succeeded, hlater⟩
    · obtain ⟨x, x', earlier, later, hearlier, hx, hlater⟩ := ih hs
      obtain ⟨news, hnews⟩ := t.perform.run_since u.looked
      rw [succeeded, World.since_looked] at hnews
      exact ⟨x, x', news ++ earlier, later, hnews.trans hearlier, hx, hlater⟩

/-- What the success of a performed step leaves on record is on the record of all. -/
theorem exists_exchange {P : Exchange → Prop} {steps : List (Step Program)} {u w : World σ}
    {s : Step Program} {news : List Exchange} (h : Performed steps u w) (hs : s ∈ steps)
    (hnews : World.Since u w news)
    (hP : ∀ v v' : World σ, s.perform.run v = (.ok (), v') →
      ∃ own, World.Since v v' own ∧ ∃ x ∈ own, P x) :
    ∃ x ∈ news, P x := by
  obtain ⟨v, v', earlier, later, hearlier, hv, hlater⟩ := h.mem hs
  obtain ⟨own, hown, x, hx, hpx⟩ := hP v v' hv
  rw [hnews.unique ((hearlier.trans hown).trans hlater)]
  exact ⟨x, by simp [hx], hpx⟩

/-- What looks and every step keep, performed steps keep. -/
theorem keeps {I : World σ → Prop} {steps : List (Step Program)} {u w : World σ}
    (h : Performed steps u w) (hlook : ∀ v, I v → I v.looked)
    (hsteps : ∀ s ∈ steps, ∀ v, I v → I (s.perform.run v).2) (hu : I u) : I w := by
  induction h with
  | nil => exact hu
  | @cons s rest u v w uncancelled succeeded others ih =>
    refine ih (fun t ht => hsteps t (List.mem_cons_of_mem _ ht)) ?_
    have hv := hsteps s List.mem_cons_self u.looked (hlook u hu)
    rwa [succeeded] at hv

/-- No step cancels the run. -/
theorem undisturbed {steps : List (Step Program)} {u w : World σ} (h : Performed steps u w)
    (hu : u.Undisturbed) : w.Undisturbed :=
  h.keeps (fun _ hv => hv.looked) (fun s _ _ hv => s.perform.undisturbed_run hv) hu

/-- What one of the steps brings about, and looks and every step keep, holds once all are performed. -/
theorem establishes {I P : World σ → Prop} {steps : List (Step Program)} {u w : World σ}
    {s : Step Program} (h : Performed steps u w) (hs : s ∈ steps)
    (hlook : ∀ v, I v → I v.looked) (hlookP : ∀ v, P v → P v.looked)
    (hI : ∀ t ∈ steps, ∀ v, I v → I (t.perform.run v).2)
    (hP : ∀ t ∈ steps, ∀ v, I v → P v → P (t.perform.run v).2)
    (hstep : ∀ v, I v → P (s.perform.run v).2) (hu : I u) : P w := by
  induction h with
  | nil => simp at hs
  | @cons t rest u v w uncancelled succeeded others ih =>
    have hv := hI t List.mem_cons_self u.looked (hlook u hu)
    rw [succeeded] at hv
    rcases List.mem_cons.mp hs with rfl | hs
    · -- it holds after this step, and from then on with the invariant
      have hnow := hstep u.looked (hlook u hu)
      rw [succeeded] at hnow
      have hboth : ∀ r ∈ rest, ∀ x, I x ∧ P x → I (r.perform.run x).2 ∧ P (r.perform.run x).2 := by
        intro r hr x hx
        have hmem := List.mem_cons_of_mem s hr
        exact ⟨hI r hmem x hx.1, hP r hmem x hx.1 hx.2⟩
      exact (others.keeps (fun x hx => ⟨hlook x hx.1, hlookP x hx.2⟩) hboth ⟨hv, hnow⟩).2
    · exact ih hs (fun r hr => hI r (List.mem_cons_of_mem _ hr))
        (fun r hr => hP r (List.mem_cons_of_mem _ hr)) hv

end Performed

/-! ## Runs -/

/-- A step halts the run, or it succeeds. -/
theorem run_performStep (s : Step Program) (w : World σ) :
    (∃ cause v, (performStep Program.isCancelled s).run w = (.error cause, v) ∧
        Halted s w cause v) ∨
      ∃ v, (performStep Program.isCancelled s).run w = (.ok (), v) ∧ w.isCancelled = false ∧
        s.perform.run w.looked = (.ok (), v) := by
  have hrun : (performStep Program.isCancelled s).run w =
      if w.isCancelled then (.error cancelledBeforeStep, w.looked) else s.perform.run w.looked := by
    unfold performStep
    change Program.run (if w.isCancelled then _ else _) w.looked = _
    split <;> rfl
  rw [hrun]
  cases hcancelled : w.isCancelled with
  | true =>
    rw [World.looked_of_isCancelled hcancelled]
    exact Or.inl ⟨_, w, rfl, .cancelled hcancelled⟩
  | false =>
    cases hperform : s.perform.run w.looked with
    | mk answer v =>
      cases answer with
      | ok x => exact Or.inr ⟨v, rfl, rfl, rfl⟩
      | error cause => exact Or.inl ⟨cause, v, rfl, .failed hcancelled hperform⟩

/-- After the first step the run ends, or it goes on with the other steps. -/
theorem run_performFrom_cons (index : Nat) (s : Step Program) (rest : List (Step Program))
    (w : World σ) :
    (∃ cause v, (performFrom Program.isCancelled index (s :: rest)).run w =
        (some ⟨index, s.description, cause⟩, v) ∧ Halted s w cause v) ∨
      ∃ v, (performFrom Program.isCancelled index (s :: rest)).run w =
          (performFrom Program.isCancelled (index + 1) rest).run v ∧
        w.isCancelled = false ∧ s.perform.run w.looked = (.ok (), v) := by
  rw [performFrom]
  change (∃ cause v, Program.run (Program.bind _ _) w = _ ∧ _) ∨
    ∃ v, Program.run (Program.bind _ _) w = _ ∧ _
  rw [Program.run_bind]
  rcases run_performStep s w with ⟨cause, v, hrun, hhalted⟩ | ⟨v, hrun, hperform⟩
  · rw [hrun]
    exact Or.inl ⟨cause, v, rfl, hhalted⟩
  · rw [hrun]
    exact Or.inr ⟨v, rfl, hperform⟩

/-- A run performs all its steps, or the steps before one that halts it; then it names that step. -/
theorem run_performFrom (index : Nat) (steps : List (Step Program)) (w : World σ) :
    (∃ v, (performFrom Program.isCancelled index steps).run w = (none, v) ∧
        Performed steps w v) ∨
      ∃ before s after cause u v, steps = before ++ s :: after ∧
        (performFrom Program.isCancelled index steps).run w =
          (some ⟨index + before.length, s.description, cause⟩, v) ∧
        Performed before w u ∧ Halted s u cause v := by
  -- the index of the first step moves on with the steps
  induction steps generalizing index w with
  | nil => exact Or.inl ⟨w, rfl, .nil w⟩
  | cons s rest ih =>
    rcases run_performFrom_cons index s rest w with
      ⟨cause, v, hrun, hhalted⟩ | ⟨u, hrun, hcancelled, hperform⟩
    · exact Or.inr ⟨[], s, rest, cause, w, v, rfl, hrun, .nil w, hhalted⟩
    · rw [hrun]
      rcases ih (index + 1) u with
        ⟨v, hrest, hall⟩ | ⟨before, t, after, cause, x, v, rfl, hrest, hall, hhalted⟩
      · exact Or.inl ⟨v, hrest, .cons hcancelled hperform hall⟩
      · refine Or.inr ⟨s :: before, t, after, cause, x, v, rfl, ?_, .cons hcancelled hperform hall,
          hhalted⟩
        rw [hrest, List.length_cons, Nat.add_right_comm, Nat.add_assoc]

/-- A run of steps that are performed from a world performs them. -/
theorem Performed.run_performFrom {steps : List (Step Program)} {u w : World σ}
    (h : Performed steps u w) (index : Nat) :
    (performFrom Program.isCancelled index steps).run u = (none, w) := by
  induction h generalizing index with
  | nil w => rfl
  | @cons s rest u v w uncancelled succeeded others ih =>
    rcases run_performFrom_cons index s rest u with
      ⟨cause, x, -, hhalted⟩ | ⟨x, hrun, -, hperform⟩
    · -- the first step succeeds, so it does not halt the run
      cases hhalted with
      | cancelled hcancelled => simp [uncancelled] at hcancelled
      | failed _ failure => simp [succeeded] at failure
    · have hsame : v = x := congrArg Prod.snd (succeeded.symm.trans hperform)
      subst hsame
      rw [hrun]
      exact ih (index + 1)

/-- Whatever a run of steps records was done by one of them, after all earlier ones had been
performed. -/
theorem step_of_record {index : Nat} {steps : List (Step Program)} {w : World σ}
    {before after : List Exchange} {x : Exchange}
    (h : World.Since w ((performFrom Program.isCancelled index steps).run w).2
      (before ++ x :: after)) :
    ∃ first s rest u earlier within later, steps = first ++ s :: rest ∧ Performed first w u ∧
      World.Since w u earlier ∧ before = earlier ++ within ∧
      World.Since u (s.perform.run u.looked).2 (within ++ x :: later) := by
  induction steps generalizing index w before with
  | nil =>
    have hnone : World.Since w w (before ++ x :: after) := h
    simp [World.Since] at hnone
  | cons s rest ih =>
    obtain ⟨news, hnews⟩ := s.perform.run_since w.looked
    rw [World.since_looked] at hnews
    rcases run_performFrom_cons index s rest w with
      ⟨cause, v, hrun, hhalted⟩ | ⟨u, hrun, hcancelled, hperform⟩
    · -- the run ends in the first step
      rw [hrun] at h
      refine ⟨[], s, rest, w, [], before, after, rfl, .nil w, w.since_refl, rfl, ?_⟩
      cases hhalted with
      | cancelled =>
        simp [World.Since] at h
      | failed _ failure =>
        rw [failure]
        exact h
    · rw [hrun] at h
      rw [hperform] at hnews
      obtain ⟨more, hmore⟩ := (performFrom Program.isCancelled (index + 1) rest).run_since u
      have hall : news ++ more = before ++ x :: after := (hnews.trans hmore).unique h
      -- the exchange is of the first step, or of the others
      rcases Lists.split_of_append_eq hall with ⟨later, hfirst⟩ | ⟨skipped, rfl, hsecond⟩
      · refine ⟨[], s, rest, w, [], before, later, rfl, .nil w, w.since_refl, rfl, ?_⟩
        rw [hperform, ← hfirst]
        exact hnews
      · rw [hsecond] at hmore
        obtain ⟨first, t, others, v, earlier, within, later, rfl, hfirst, hearlier, rfl, hwithin⟩ :=
          ih hmore
        refine ⟨s :: first, t, others, v, news ++ earlier, within, later, rfl,
          .cons hcancelled hperform hfirst, hnews.trans hearlier, ?_, hwithin⟩
        rw [List.append_assoc]

end EcosystemSetup.Executor

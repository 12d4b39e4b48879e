import EcosystemSetup.Program.Timestamp
import EcosystemSetup.Program.Basic

/-!
# Worlds

What a program runs in: a cluster that answers its calls, a clock that passes only while the program
waits, what cancels the program, and the record of all calls and answers so far.

A program can be cancelled at any moment, in the middle of a call as well as between two steps. It finds
out when it looks, and nothing else tells it. So an interrupt that comes while the clock stands still is
one that comes right after some look and is found by the next; it is given by the number of looks before
it. One that comes while the clock passes is given by its time.
-/

namespace EcosystemSetup

open Cluster

/-- A cluster that answers calls. -/
class Backend (σ : Type) where
  /-- The answer to a call, and the cluster after it. -/
  perform : (k : Call) → σ → k.Reply × σ
  /-- Whether others get their turn before the answer to a call arrives. -/
  suspends : Call → σ → Bool
  /-- A bound on the opened watches that end or fail without any time passing. -/
  scripted : σ → Nat

/-- A cluster with its clock and its record. -/
structure World (σ : Type) where
  backend : σ
  /-- The time in milliseconds. -/
  clock : Nat := 0
  /-- The time from which on the program is cancelled. -/
  cancelAt : Option Nat := none
  /-- How many looks an interrupt lets pass before the one that it follows, if one is still to come. -/
  interruptIn : Option Nat := none
  /-- The calls so far, in order. -/
  record : List Exchange := []

namespace World

variable {σ : Type}

/-- Whether the program is cancelled by now. -/
def isCancelled (w : World σ) : Bool :=
  match w.cancelAt with
  | some t => t ≤ w.clock
  | none => false

/-- The world after a look at whether the program is cancelled, in which an interrupt may follow: then
the program is cancelled from this time on. -/
def looked (w : World σ) : World σ :=
  if w.isCancelled then w
  else match w.interruptIn with
    | none => w
    | some 0 => { w with cancelAt := some w.clock, interruptIn := none }
    | some (looks + 1) => { w with interruptIn := some looks }

/-- A look changes nothing but what cancels the program. -/
theorem looked_eq (w : World σ) :
    ∃ cancelAt interruptIn, w.looked = { w with cancelAt, interruptIn } := by
  unfold looked
  split
  · exact ⟨w.cancelAt, w.interruptIn, rfl⟩
  · split
    · exact ⟨w.cancelAt, w.interruptIn, rfl⟩
    · exact ⟨_, _, rfl⟩
    · exact ⟨_, _, rfl⟩

/-- Once it is cancelled a program stays so. -/
theorem looked_of_isCancelled {w : World σ} (h : w.isCancelled = true) : w.looked = w := by
  unfold looked
  rw [if_pos h]

/-- Nobody cancels the program, at no time and after no look. -/
def Undisturbed (w : World σ) : Prop :=
  w.cancelAt = none ∧ w.interruptIn = none

/-- Nobody has cancelled the program, or is going to while the clock stands still. -/
def Unstopped (w : World σ) : Prop :=
  w.isCancelled = false ∧ w.interruptIn = none

theorem Undisturbed.unstopped {w : World σ} (h : w.Undisturbed) : w.Unstopped :=
  ⟨by simp [isCancelled, h.1], h.2⟩

/-- A look that nothing follows changes nothing. -/
theorem looked_of_unstopped {w : World σ} (h : w.Unstopped) : w.looked = w := by
  simp [looked, h.1, h.2]

theorem Undisturbed.looked {w : World σ} (h : w.Undisturbed) : w.looked.Undisturbed := by
  rwa [looked_of_unstopped h.unstopped]

@[simp] theorem looked_backend (w : World σ) : w.looked.backend = w.backend := by
  obtain ⟨_, _, h⟩ := w.looked_eq
  rw [h]

@[simp] theorem looked_clock (w : World σ) : w.looked.clock = w.clock := by
  obtain ⟨_, _, h⟩ := w.looked_eq
  rw [h]

@[simp] theorem looked_record (w : World σ) : w.looked.record = w.record := by
  obtain ⟨_, _, h⟩ := w.looked_eq
  rw [h]

/-- The time as a text. -/
def timeText (w : World σ) : String :=
  Timestamp.ofMillis w.clock

/-- Makes a call. -/
def perform [Backend σ] (w : World σ) (k : Call) : k.Reply × World σ :=
  let x := Backend.perform k w.backend
  (x.1, { w with backend := x.2, record := w.record ++ [⟨w.clock, k, x.1⟩] })

/-- Lets the clock pass to a time, but not beyond the time of cancellation, and never back. -/
def advanceTo (w : World σ) (time : Nat) : World σ :=
  let time := match w.cancelAt with
    | some t => min t time
    | none => time
  { w with clock := max w.clock time }

end World

end EcosystemSetup

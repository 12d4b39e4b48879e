import EcosystemSetup.Program.World

/-!
# Waits in time

A wait has a deadline, and it can be cancelled. At every turn cancellation is looked at first; then
the wait goes on until it must let time pass or others take their turn; and only then, if it has not
ended, the deadline is looked at. So a wait that needs no pause reaches its own end even if its
deadline is now.
-/

namespace EcosystemSetup.Wait

open Cluster

variable {σ : Type}

/-- Where a wait stands between two turns. -/
inductive Position where
  | ready (stage : Stage)
  | paused (wake : Nat) (stage : Stage)
  | silent
  | ended (outcome : Outcome)

/-- The position that a wait takes at a time; a pause of no length is none. -/
def Position.ofNext (clock : Nat) : Next → Position
  | .proceed stage => .ready stage
  | .pause d stage => if d.nanos = 0 then .ready stage else .paused (clock + d.millisUp) stage
  | .silence => .silent
  | .finish outcome => .ended outcome

/-- A wait under way. -/
structure Progress where
  /-- When the wait times out, in milliseconds. -/
  deadline : Nat
  position : Position

/-- A wait that begins now. -/
def Progress.start (g : Goal) (w : World σ) : Progress :=
  ⟨w.clock + g.timeout.millisUp, .ready (.reading 1)⟩

/-- Whether a wait goes on: it has ended, or it comes back at some time, if at all. -/
inductive Turn where
  | ended (outcome : Outcome)
  | again (position : Position) (wake : Option Nat)

/-- Makes the calls of a wait until it ends, pauses, hears nothing more or gives others a turn. -/
def drive [Backend σ] (g : Goal) : Nat → Position → World σ → Turn × World σ
  | _, .ended outcome, w => (.ended outcome, w)
  | _, .silent, w => (.again .silent none, w)
  | 0, position, w => (.again position none, w)
  | fuel + 1, .paused wake stage, w =>
    if wake ≤ w.clock then drive g fuel (.ready stage) w else (.again (.paused wake stage) wake, w)
  | fuel + 1, .ready stage, w =>
    let move := g.move stage
    let suspends := Backend.suspends move.call w.backend
    let x := w.perform move.call
    let position := Position.ofNext x.2.clock (move.next x.1)
    if suspends then (.again position x.2.clock, x.2) else drive g fuel position x.2

/-- A bound on the calls of one turn. -/
def turnBound [Backend σ] (g : Goal) (w : World σ) : Nat :=
  2 * (g.settings.maxReadAttempts + Backend.scripted w.backend) + 4

/-- One turn of a wait. -/
def turn [Backend σ] (g : Goal) (p : Progress) (w : World σ) : Turn × World σ :=
  if w.isCancelled then (.ended (.error (.cancelled g.targetText)), w)
  else
    match drive g (turnBound g w) p.position w.looked with
    | (.ended outcome, w) => (.ended outcome, w)
    | (.again position wake, w) =>
      if p.deadline ≤ w.clock then (.ended (.error (.timeout g.targetText g.timeout)), w)
      else (.again position wake, w)

/-- The time of the next turn of a wait. -/
def nextTime (p : Progress) (wake : Option Nat) : Nat :=
  match wake with
  | some t => min t p.deadline
  | none => p.deadline

/-- Takes turns until the wait ends, letting the clock pass in between. -/
def takeTurns [Backend σ] (g : Goal) : Nat → Progress → World σ → Outcome × World σ
  | 0, _, w => (.error (.timeout g.targetText g.timeout), w)
  | fuel + 1, p, w =>
    match turn g p w with
    | (.ended outcome, w) => (outcome, w)
    | (.again position wake, w) =>
      takeTurns g fuel { p with position } (w.advanceTo (nextTime p wake))

/-- Waits. Between two turns the clock passes, or a read has given others their turn, so their number
is bounded. -/
def run [Backend σ] (g : Goal) (w : World σ) : Outcome × World σ :=
  takeTurns g (g.timeout.millisUp + g.settings.maxReadAttempts + 3) (.start g w) w

end EcosystemSetup.Wait

import EcosystemSetup.Program.Waiting

/-!
# Running programs

A program alone in its world, and several programs that share one. Those that share a world take
turns in the order of their list; a turn lasts until the program must wait, and the clock passes only
when all of them wait.
-/

namespace EcosystemSetup.Program

open Cluster

variable {σ α : Type}

/-- Runs a program. -/
def run [Backend σ] : Program α → World σ → α × World σ
  | done a, w => (a, w)
  | call k next, w =>
    let x := w.perform k
    run (next x.1) x.2
  | await g next, w =>
    let x := Wait.run g w
    run (next x.1) x.2
  | cancelled next, w => run (next w.isCancelled) w.looked
  | now next, w => run (next w.timeText) w

theorem run_bind [Backend σ] {β : Type} (t : Program α) (f : α → Program β) (w : World σ) :
    (t.bind f).run w = (f (t.run w).1).run (t.run w).2 := by
  induction t generalizing w with
  | done a => rfl
  | call k next ih => exact ih _ _
  | await g next ih => exact ih _ _
  | cancelled next ih => exact ih _ _
  | now next ih => exact ih _ _

/-! ## Several programs -/

/-- A program between two turns. -/
inductive Fiber (α : Type) where
  | ready (t : Program α)
  | waiting (goal : Wait.Goal) (progress : Wait.Progress) (next : Wait.Outcome → Program α)
  | finished (a : α)

/-- A turn of a program: the program after it, and when to come back to it, if ever. -/
def turn [Backend σ] : Program α → World σ → (Fiber α × Option Nat) × World σ
  | done a, w => ((.finished a, none), w)
  | call k next, w =>
    let suspends := Backend.suspends k w.backend
    let x := w.perform k
    if suspends then ((.ready (next x.1), some x.2.clock), x.2) else turn (next x.1) x.2
  | await g next, w =>
    let progress := Wait.Progress.start g w
    match Wait.turn g progress w with
    | (.ended outcome, w) => turn (next outcome) w
    | (.again position wake, w) =>
      ((.waiting g { progress with position } next, some (Wait.nextTime progress wake)), w)
  | cancelled next, w => turn (next w.isCancelled) w.looked
  | now next, w => turn (next w.timeText) w

/-- A turn of a program that may be in the middle of a wait. -/
def Fiber.turn [Backend σ] : Fiber α → World σ → (Fiber α × Option Nat) × World σ
  | .finished a, w => ((.finished a, none), w)
  | .ready t, w => t.turn w
  | .waiting g progress next, w =>
    match Wait.turn g progress w with
    | (.ended outcome, w) => (next outcome).turn w
    | (.again position wake, w) =>
      ((.waiting g { progress with position } next, some (Wait.nextTime progress wake)), w)

/-- The earlier of two times, where there may be none. -/
def earlier : Option Nat → Option Nat → Option Nat
  | some a, some b => some (min a b)
  | some a, none => some a
  | none, b => b

/-- One turn of every program, in order, and when to come back. -/
def turns [Backend σ] : List (Fiber α) → World σ → (List (Fiber α) × Option Nat) × World σ
  | [], w => (([], none), w)
  | f :: rest, w =>
    let x := f.turn w
    let xs := turns rest x.2
    ((x.1.1 :: xs.1.1, earlier x.1.2 xs.1.2), xs.2)

/-- The result of a program that has finished. -/
def Fiber.result? : Fiber α → Option α
  | .finished a => some a
  | _ => none

/-- Lets programs take turns until all have finished; `none` if they have not after `fuel` rounds. -/
def rounds [Backend σ] : Nat → List (Fiber α) → World σ → Option (List α) × World σ
  | 0, fibers, w => (fibers.mapM Fiber.result?, w)
  | fuel + 1, fibers, w =>
    match turns fibers w with
    | ((fibers, some time), w) => rounds fuel fibers (w.advanceTo time)
    | ((fibers, none), w) => (fibers.mapM Fiber.result?, w)

/-- Runs programs together, for at most `fuel` rounds. -/
def runAll [Backend σ] (fuel : Nat) (programs : List (Program α)) (w : World σ) :
    Option (List α) × World σ :=
  rounds fuel (programs.map .ready) w

end EcosystemSetup.Program

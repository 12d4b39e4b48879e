import EcosystemSetup.Wait.Watcher

/-!
# Programs

A program works on the cluster: it makes calls, waits for objects to become ready, looks whether it
is cancelled and asks for the time. It does not say who answers; the same program runs against any
cluster. Programs form a monad whose laws hold as equations.
-/

namespace EcosystemSetup

open Cluster

/-- A program that works on the cluster. -/
inductive Program (α : Type) where
  | done (a : α)
  | call (k : Call) (next : k.Reply → Program α)
  | await (goal : Wait.Goal) (next : Wait.Outcome → Program α)
  | cancelled (next : Bool → Program α)
  | now (next : String → Program α)

namespace Program

variable {α β γ : Type}

/-- Goes on with the result of a program. -/
def bind : Program α → (α → Program β) → Program β
  | done a, f => f a
  | call k next, f => call k fun r => (next r).bind f
  | await g next, f => await g fun o => (next o).bind f
  | cancelled next, f => cancelled fun b => (next b).bind f
  | now next, f => now fun t => (next t).bind f

instance : Monad Program where
  pure := done
  bind := bind

/-- Makes a call. -/
def ask (k : Call) : Program k.Reply :=
  call k done

/-- Waits until a goal is reached. -/
def reach (goal : Wait.Goal) : Program Wait.Outcome :=
  await goal done

/-- Whether the program is cancelled. -/
def isCancelled : Program Bool :=
  cancelled done

/-- The time, as a text. -/
def time : Program String :=
  now done

theorem bind_done (t : Program α) : t.bind done = t := by
  induction t with
  | done a => rfl
  | call k next ih => simp only [bind]; congr 1; funext r; exact ih r
  | await g next ih => simp only [bind]; congr 1; funext r; exact ih r
  | cancelled next ih => simp only [bind]; congr 1; funext r; exact ih r
  | now next ih => simp only [bind]; congr 1; funext r; exact ih r

theorem bind_assoc (t : Program α) (f : α → Program β) (g : β → Program γ) :
    (t.bind f).bind g = t.bind fun a => (f a).bind g := by
  induction t with
  | done a => rfl
  | call k next ih => simp only [bind]; congr 1; funext r; exact ih r
  | await g next ih => simp only [bind]; congr 1; funext r; exact ih r
  | cancelled next ih => simp only [bind]; congr 1; funext r; exact ih r
  | now next ih => simp only [bind]; congr 1; funext r; exact ih r

instance : LawfulMonad Program :=
  LawfulMonad.mk' Program bind_done (fun _ _ => rfl) bind_assoc

end Program

end EcosystemSetup

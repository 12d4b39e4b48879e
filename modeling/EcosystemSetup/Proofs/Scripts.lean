import EcosystemSetup.Proofs.WaitEndings

/-!
# Scripts

A cluster that answers from a script: the results of the reads of one collection, and of the watches
that are opened on it, in order. Where the script is exhausted, reads find nothing and watches stay
silent.
-/

namespace EcosystemSetup.Wait

open Cluster

/-- What comes of the reads and watches of a collection. -/
structure Script (c : Collection) where
  gets : List (Except AccessError (Object c)) := []
  lists : List (Except AccessError (Snapshot c)) := []
  /-- Watches that are refused, and sessions that end after their items. -/
  opens : List (Except AccessError (Session c)) := []

namespace Script

variable {c : Collection}

/-- Reads an object. -/
def get (s : Script c) (name : String) : Except AccessError (Object c) × Script c :=
  match s.gets with
  | [] => (.error (.notFound name), s)
  | result :: rest => (result, { s with gets := rest })

/-- Reads the objects that a selector matches. -/
def list (s : Script c) (selector : String) : Except AccessError (Snapshot c) × Script c :=
  match s.lists with
  | [] => (.error (.notFound selector), s)
  | result :: rest => (result, { s with lists := rest })

/-- Opens a watch. -/
def watch (s : Script c) : Except AccessError (Stream c) × Script c :=
  match s.opens with
  | [] => (.ok ⟨[], false⟩, s)
  | opened :: rest => (opened.map fun items => ⟨items, true⟩, { s with opens := rest })

/-- Answers a call. Of other collections nothing is scripted. -/
def perform : (k : Call) → Script c → k.Reply × Script c
  | .get d name, s =>
    if h : c = d then (h ▸ (s.get name).1, (s.get name).2) else (.error (.notFound name), s)
  | .list d selector, s =>
    if h : c = d then (h ▸ (s.list selector).1, (s.list selector).2)
    else (.error (.notFound selector), s)
  | .watch d _ _, s => if h : c = d then (h ▸ s.watch.1, s.watch.2) else (.ok ⟨[], false⟩, s)
  | .create _ _, s => (.error (.other "not scripted"), s)
  | .update _ _, s => (.error (.other "not scripted"), s)
  | .resolve _, s => (.error (.other "not scripted"), s)
  | .patch _ _ _ _, s => (.error (.other "not scripted"), s)

instance : Backend (Script c) where
  perform := perform
  suspends := fun _ _ => false
  scripted := fun s => s.opens.length

theorem perform_get (s : Script c) (name : String) :
    Backend.perform (.get c name) s = s.get name := by
  show perform (.get c name) s = _
  simp [perform]

theorem perform_list (s : Script c) (selector : String) :
    Backend.perform (.list c selector) s = s.list selector := by
  show perform (.list c selector) s = _
  simp [perform]

theorem perform_watch (s : Script c) (selector version : String) :
    Backend.perform (.watch c selector version) s = s.watch := by
  show perform (.watch c selector version) s = _
  simp [perform]

theorem opens_get (s : Script c) (name : String) : (s.get name).2.opens = s.opens := by
  unfold get
  split <;> rfl

theorem opens_list (s : Script c) (selector : String) : (s.list selector).2.opens = s.opens := by
  unfold list
  split <;> rfl

/-- A watch is silent, or the script has been taken forward. -/
theorem watch_cases (s : Script c) :
    s.opens = [] ∧ s.watch = (.ok ⟨[], false⟩, s) ∨
      ∃ opened rest, s.opens = opened :: rest ∧
        s.watch = (opened.map fun items => ⟨items, true⟩, { s with opens := rest }) := by
  unfold watch
  cases hopens : s.opens with
  | nil => exact Or.inl ⟨rfl, rfl⟩
  | cons opened rest => exact Or.inr ⟨opened, rest, rfl, rfl⟩

/-- Each call leaves the watches of a script, or all but the next one. -/
theorem opens_perform (k : Call) (s : Script c) :
    (perform k s).2.opens = s.opens ∨ (perform k s).2.opens = s.opens.tail := by
  cases k with
  | get d name =>
    refine Or.inl ?_
    unfold perform
    dsimp only
    split
    · exact s.opens_get name
    · rfl
  | list d selector =>
    refine Or.inl ?_
    unfold perform
    dsimp only
    split
    · exact s.opens_list selector
    · rfl
  | watch d selector version =>
    unfold perform
    dsimp only
    split
    · rcases s.watch_cases with ⟨_, hwatch⟩ | ⟨opened, rest, hopens, hwatch⟩
      · exact Or.inl (congrArg (fun x => x.2.opens) hwatch)
      · refine Or.inr ?_
        rw [hopens]
        exact congrArg (fun x => x.2.opens) hwatch
    · exact Or.inl rfl
  | _ => exact Or.inl rfl

/-- A script answers at once, and each watch that ends or fails uses up one of its entries. -/
theorem steady (c : Collection) : Steady (Script c) where
  prompt := fun _ _ => rfl
  lasts := by
    intro k s
    show (perform k s).2.opens.length ≤ s.opens.length
    rcases s.opens_perform k with hsame | htail
    · exact Nat.le_of_eq (congrArg List.length hsame)
    · rw [htail, List.length_tail]
      exact Nat.sub_le _ _
  used := by
    intro d selector version s
    by_cases hd : c = d
    · subst hd
      rw [perform_watch]
      rcases s.watch_cases with ⟨_, hwatch⟩ | ⟨opened, rest, hopens, hwatch⟩
      · rw [hwatch]
        exact Or.inl rfl
      · rw [hwatch]
        refine Or.inr ?_
        show rest.length < s.opens.length
        rw [hopens]
        exact Nat.lt_succ_self _
    · refine Or.inl ?_
      show (perform (.watch d selector version) s).1 = _
      simp [perform, hd]

end Script

end EcosystemSetup.Wait

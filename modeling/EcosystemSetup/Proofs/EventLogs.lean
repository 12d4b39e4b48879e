import EcosystemSetup.Proofs.Verdicts

/-!
# Logs of events

A server that keeps a log. Every change of an object is an entry with a version of its own, and any
version stands behind some entries and before the others; a watch from a version delivers the entries
behind it in order, with bookmarks in between, until it ends or breaks wherever it likes.
-/

namespace EcosystemSetup.Wait

open Cluster

/-- An ordered log of changes. -/
structure EventLog (c : Collection) where
  entries : List (Cluster.Event c)
  /-- How many entries a version stands behind. -/
  place : String → Nat
  /-- Every entry is a change, and stands right before the version that its object carries. -/
  stamped : ∀ (i : Nat) (e : Cluster.Event c), entries[i]? = some e →
    ∃ o version, changed? e = some o ∧ o.metadata.resourceVersion = some version ∧
      place version = i + 1

/-- How many changes a stream announces before it breaks. -/
def delivered {c : Collection} (items : Session c) : Nat :=
  (heard items).countP fun e => (changed? e).isSome

namespace EventLog

variable {c : Collection} {log : EventLog c}

/-! ## Stretches of a log -/

variable (log) in
/-- The entries from one place to another. -/
def between (a b : Nat) : List (Cluster.Event c) :=
  (log.entries.take b).drop a

theorem between_eq_nil {a b : Nat} (h : b ≤ a) : log.between a b = [] := by
  unfold between
  rw [List.drop_eq_nil_iff, List.length_take]
  omega

/-- Consecutive stretches are one. -/
theorem between_append {a b n : Nat} (hab : a ≤ b) (hbn : b ≤ n) :
    log.between a b ++ log.between b n = log.between a n := by
  obtain ⟨m, rfl⟩ := Nat.exists_eq_add_of_le hbn
  unfold between
  by_cases hb : b ≤ log.entries.length
  · have hlength : a ≤ (log.entries.take b).length := by rw [List.length_take]; omega
    rw [List.take_add, List.drop_append_of_le_length hlength, List.drop_append_of_le_length
      (by rw [List.length_take]; omega), List.drop_eq_nil_of_le (List.length_take_le b _)]
    rfl
  · -- the log ends before the second stretch
    rw [List.take_of_length_le (i := b) (by omega), List.take_of_length_le (i := b + m) (by omega),
      List.drop_eq_nil_of_le (i := b) (by omega), List.append_nil]

theorem between_succ {n : Nat} {e : Cluster.Event c} (h : log.entries[n]? = some e) :
    log.between n (n + 1) = [e] := by
  obtain ⟨hn, rfl⟩ := List.getElem?_eq_some_iff.mp h
  unfold between
  rw [List.take_add_one, List.drop_append_of_le_length (by rw [List.length_take]; omega),
    List.drop_eq_nil_of_le (by rw [List.length_take]; omega), h]
  rfl

/-- A stretch begins with the entry at its place. -/
theorem between_cons {n m : Nat} {e : Cluster.Event c} (h : log.entries[n]? = some e) (hnm : n < m) :
    log.between n m = e :: log.between (n + 1) m := by
  rw [← between_append (Nat.le_succ n) hnm, between_succ h]
  rfl

theorem exists_of_mem_between {a b : Nat} {e : Cluster.Event c} (h : e ∈ log.between a b) :
    ∃ i, a ≤ i ∧ i < b ∧ log.entries[i]? = some e := by
  unfold between at h
  obtain ⟨i, hi, rfl⟩ := List.mem_iff_getElem.mp h
  rw [List.length_drop, List.length_take] at hi
  refine ⟨a + i, by omega, by omega, ?_⟩
  rw [List.getElem_drop, List.getElem_take]
  exact List.getElem?_eq_getElem (by omega)

/-! ## Watches of a log -/

variable (log) in
/-- What a watch may deliver that stands behind some of the entries. A bookmark carries a version that
stands exactly there; where the stream breaks, what would come next does not matter. -/
inductive Delivers : Nat → Session c → Prop where
  | stop (n : Nat) : Delivers n []
  | entry {n : Nat} {e : Cluster.Event c} {rest : Session c} (next : log.entries[n]? = some e)
      (later : Delivers (n + 1) rest) : Delivers n (.ok e :: rest)
  | bookmark {n : Nat} {version : String} {rest : Session c} (here : log.place version = n)
      (later : Delivers n rest) : Delivers n (.ok (.bookmark version) :: rest)
  | broken {n : Nat} {item : Except AccessError (Cluster.Event c)} {rest : Session c}
      (breaks : breaks item = true) : Delivers n (item :: rest)

/-- An entry does not break a stream. -/
theorem breaks_entry {n : Nat} {e : Cluster.Event c} (h : log.entries[n]? = some e) :
    breaks (.ok e) = false := by
  obtain ⟨o, version, hchanged, _⟩ := log.stamped n e h
  cases e with
  | error s => simp [changed?] at hchanged
  | _ => rfl

@[simp] theorem delivered_nil : delivered ([] : Session c) = 0 := rfl

theorem delivered_entry {n : Nat} {e : Cluster.Event c} {rest : Session c}
    (h : log.entries[n]? = some e) : delivered (.ok e :: rest) = delivered rest + 1 := by
  obtain ⟨o, version, hchanged, _⟩ := log.stamped n e h
  rw [delivered, heard_cons_of_not_breaks (breaks_entry h)]
  simp [delivered, hchanged]

@[simp] theorem delivered_bookmark {version : String} {rest : Session c} :
    delivered (.ok (.bookmark version) :: rest) = delivered rest := rfl

theorem delivered_of_breaks {item : Except AccessError (Cluster.Event c)} {rest : Session c}
    (h : breaks item = true) : delivered (item :: rest) = 0 := by
  rw [delivered, heard_cons_of_breaks h]
  rfl

end EventLog

end EcosystemSetup.Wait

import EcosystemSetup.Proofs.Courses
import Mathlib.Algebra.BigOperators.Group.Finset.Piecewise
import Mathlib.Algebra.Order.BigOperators.Group.Finset

/-!
# Programs side by side

Programs that are under way at the same time. At each moment one of them acts, in whatever order, and
what comes of it does not matter to the others. So each program goes its own course, and one that has
not come to its end can always go on, wherever the others stand.
-/

namespace EcosystemSetup.Program

open Cluster

variable {α β : Type}

/-! ## Courses of one program after another -/

/-- A program that goes on with the result of another goes on where the other ends. -/
theorem Course.bind {first second : List Action} {t : Program α} {f : α → Program β} {a : α}
    {v : Program β} (ht : Course t first (.done a)) (hf : Course (f a) second v) :
    Course (t.bind f) (first ++ second) v := by
  generalize hend : Program.done a = u at ht
  induction ht with
  | nil t =>
    subst hend
    exact hf
  | @cons t u v action rest step later ih =>
    refine .cons ?_ (ih hend)
    cases step with
    | call reply => exact .call reply
    | waiting own reply => exact .waiting own reply
    | await outcome => exact .await outcome
    | cancelled b => exact .cancelled b
    | now text => exact .now text

/-- What is made of a result takes no action. -/
theorem Course.map {actions : List Action} {t : Program α} {a : α} (h : Course t actions (.done a))
    (f : α → β) : Course (t.bind fun a => .done (f a)) actions (.done (f a)) := by
  have hall := h.bind (f := fun a => .done (f a)) (.nil (.done (f a)))
  rwa [List.append_nil] at hall

/-- Where a program that goes on with the result of another has come to its end, the other has too. -/
theorem Course.of_bind {actions : List Action} {t : Program α} {f : α → Program β} {b : β}
    (h : Course (t.bind f) actions (.done b)) :
    ∃ a first second, actions = first ++ second ∧ Course t first (.done a) ∧
      Course (f a) second (.done b) := by
  -- along the actions; the first program takes them until it is done
  induction actions generalizing t with
  | nil =>
    cases t with
    | done a => exact ⟨a, [], [], rfl, .nil _, h⟩
    | _ => nomatch h
  | cons action rest ih =>
    cases t with
    | done a => exact ⟨a, [], action :: rest, rfl, .nil _, h⟩
    | _ =>
      cases h with
      | cons step later =>
        obtain ⟨v, hstep, rfl⟩ := step.of_bind nofun
        obtain ⟨a, first, second, rfl, hfirst, hsecond⟩ := ih later
        exact ⟨a, action :: first, second, rfl, .cons hstep hfirst, hsecond⟩

/-! ## Several programs -/

/-- One of several programs acts, and the others stay as they are. -/
inductive Acts (ts : List (Program α)) : Nat × Action → List (Program α) → Prop where
  | act {i : Nat} {t u : Program α} {action : Action} (own : ts[i]? = some t)
      (step : Step t action u) : Acts ts (i, action) (ts.set i u)

/-- Actions, each with the place of the program that it is of. -/
abbrev Journal := List (Nat × Action)

/-- A journal leads from programs at their start to what is left of them. -/
inductive SideBySide (start : List (Program α)) : Journal → List (Program α) → Prop where
  | nil : SideBySide start [] start
  | snoc {journal : Journal} {ts us : List (Program α)} {x : Nat × Action}
      (before : SideBySide start journal ts) (step : Acts ts x us) :
      SideBySide start (journal ++ [x]) us

namespace Journal

/-- The actions of one program. -/
def actionsOf (i : Nat) (journal : Journal) : List Action :=
  journal.filterMap fun x => if x.1 = i then some x.2 else none

@[simp] theorem actionsOf_snoc_self (i : Nat) (journal : Journal) (action : Action) :
    actionsOf i (journal ++ [(i, action)]) = actionsOf i journal ++ [action] := by
  simp [actionsOf]

@[simp] theorem actionsOf_snoc_ne {i k : Nat} (h : k ≠ i) (journal : Journal) (action : Action) :
    actionsOf i (journal ++ [(k, action)]) = actionsOf i journal := by
  simp [actionsOf, h]

/-- Every action is of one program, so their numbers add up. -/
theorem length_eq_sum {n : Nat} {journal : Journal} (h : ∀ x ∈ journal, x.1 < n) :
    journal.length = ∑ i ∈ Finset.range n, (actionsOf i journal).length := by
  induction journal with
  | nil => simp [actionsOf]
  | cons x rest ih =>
    have hrest := ih fun y hy => h y (List.mem_cons_of_mem _ hy)
    have hcons : ∀ i, (actionsOf i (x :: rest)).length =
        (actionsOf i rest).length + if x.1 = i then 1 else 0 := by
      intro i
      by_cases hi : x.1 = i
      · simp [actionsOf, hi]
      · simp [actionsOf, hi]
    have hone : (∑ i ∈ Finset.range n, if x.1 = i then 1 else 0) = 1 := by
      rw [Finset.sum_ite_eq, if_pos (Finset.mem_range.mpr (h x List.mem_cons_self))]
    rw [List.length_cons, Finset.sum_congr rfl fun i _ => hcons i, Finset.sum_add_distrib, hone,
      ← hrest]

end Journal

namespace SideBySide

variable {start ts us : List (Program α)} {journal : Journal}

theorem length_eq (h : SideBySide start journal ts) : ts.length = start.length := by
  induction h with
  | nil => rfl
  | snoc _ step ih =>
    cases step with
    | act => rw [List.length_set, ih]

/-- Only the programs act. -/
theorem lt_length (h : SideBySide start journal ts) : ∀ x ∈ journal, x.1 < start.length := by
  induction h with
  | nil => simp
  | snoc before step ih =>
    cases step with
    | @act i _ _ action own _ =>
      have hi : i < start.length := by
        rw [← before.length_eq]
        exact (List.getElem?_eq_some_iff.mp own).1
      intro x hx
      rcases List.mem_append.mp hx with hx | hx
      · exact ih x hx
      · rw [List.mem_singleton] at hx
        exact hx ▸ hi

/-- Each program goes its own course. -/
theorem course (h : SideBySide start journal ts) {i : Nat} {t : Program α}
    (ht : start[i]? = some t) :
    ∃ u, ts[i]? = some u ∧ Course t (journal.actionsOf i) u := by
  induction h with
  | nil => exact ⟨t, ht, .nil t⟩
  | snoc before step ih =>
    obtain ⟨u, hu, hcourse⟩ := ih
    cases step with
    | @act k _ v action own step =>
      by_cases hk : k = i
      · -- the program that acts goes on with its course
        subst hk
        rw [hu, Option.some.injEq] at own
        subst own
        refine ⟨v, List.getElem?_set_self (List.getElem?_eq_some_iff.mp hu).1, ?_⟩
        rw [Journal.actionsOf_snoc_self]
        exact hcourse.snoc step
      · refine ⟨u, ?_, ?_⟩
        · rw [List.getElem?_set_ne hk]
          exact hu
        · rw [Journal.actionsOf_snoc_ne hk]
          exact hcourse

theorem trans {more : Journal} (h₁ : SideBySide start journal ts) (h₂ : SideBySide ts more us) :
    SideBySide start (journal ++ more) us := by
  induction h₂ with
  | nil => rwa [List.append_nil]
  | snoc _ step ih =>
    rw [← List.append_assoc]
    exact .snoc ih step

/-- The first of some programs goes a course of its own while the others rest. -/
theorem of_course {actions : List Action} {t u : Program α} (h : Course t actions u)
    (rest : List (Program α)) :
    SideBySide (t :: rest) (actions.map fun action => (0, action)) (u :: rest) := by
  induction h with
  | nil t => exact .nil
  | @cons t u v action _ step _ ih =>
    have hstep : Acts (t :: rest) (0, action) (u :: rest) := .act rfl step
    exact trans (.snoc .nil hstep) ih

/-- The others go on while the first of them rests. -/
theorem cons (h : SideBySide start journal ts) (t : Program α) :
    SideBySide (t :: start) (journal.map fun x => (x.1 + 1, x.2)) (t :: ts) := by
  induction h with
  | nil => exact .nil
  | snoc _ step ih =>
    rw [List.map_append]
    refine .snoc ih ?_
    cases step with
    | act own step => exact .act own step

end SideBySide

end EcosystemSetup.Program

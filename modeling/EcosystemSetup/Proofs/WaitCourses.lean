import EcosystemSetup.Proofs.Conduct

/-!
# Courses of waits

The calls of a wait with their answers, one after the other, seen from the wait alone: each answer says
how it goes on, and so which call comes next. Main statement: whoever answers, and whenever time passes
or others take their turn, the calls that a wait has made are a course of it, and it ends as its course
does unless it is interrupted.
-/

namespace EcosystemSetup.Wait

open Cluster

/-- The stage of a wait that goes on. -/
def Next.stage? : Next → Option Stage
  | .proceed stage => some stage
  | .pause _ stage => some stage
  | .silence => none
  | .finish _ => none

/-- What a wait that has come to its end ends with. -/
def Next.outcome? : Next → Option Outcome
  | .finish outcome => some outcome
  | _ => none

/-- A wait that goes on has not come to its end. -/
theorem Next.outcome?_of_stage? {n : Next} {stage : Stage} (h : n.stage? = some stage) :
    n.outcome? = none := by
  cases n with
  | finish outcome => simp [Next.stage?] at h
  | _ => rfl

namespace Goal

/-- A wait for a name reads the object of that name. -/
theorem move_reading_of_name {g : Goal} {name : String} (h : g.target.name = some name)
    (attempt : Nat) : g.move (.reading attempt) = ⟨.get g.collection name, g.afterGet attempt⟩ := by
  simp [move, h]

/-- A wait without a name lists what its selector matches. -/
theorem move_reading_of_nameless {g : Goal} (h : g.target.name = none) (attempt : Nat) :
    g.move (.reading attempt) =
      ⟨.list g.collection g.target.selector, g.afterList attempt⟩ := by
  simp [move, h]

/-- Exchanges that lead a wait from one way to go on to another. -/
inductive Course (g : Goal) : Next → List Exchange → Next → Prop where
  | nil (n : Next) : g.Course n [] n
  | cons {n last : Next} {stage : Stage} {rest : List Exchange} (goesOn : n.stage? = some stage)
      (time : Nat) (reply : (g.move stage).call.Reply)
      (later : g.Course ((g.move stage).next reply) rest last) :
      g.Course n (⟨time, (g.move stage).call, reply⟩ :: rest) last

variable {g : Goal}

theorem Course.trans {n l last : Next} {first second : List Exchange} (h₁ : g.Course n first l)
    (h₂ : g.Course l second last) : g.Course n (first ++ second) last := by
  induction h₁ with
  | nil n => exact h₂
  | cons goesOn time reply _ ih => exact .cons goesOn time reply (ih h₂)

/-- A course is grown at its end by the next call. -/
theorem Course.snoc {n l : Next} {stage : Stage} {xs : List Exchange} (h : g.Course n xs l)
    (hstage : l.stage? = some stage) (time : Nat) (reply : (g.move stage).call.Reply) :
    g.Course n (xs ++ [⟨time, (g.move stage).call, reply⟩]) ((g.move stage).next reply) :=
  h.trans (.cons hstage time reply (.nil _))

/-- Nothing follows where a wait does not go on. -/
theorem Course.eq_nil {n last : Next} {xs : List Exchange} (h : g.Course n xs last)
    (hn : n.stage? = none) : xs = [] ∧ last = n := by
  cases h with
  | nil => exact ⟨rfl, rfl⟩
  | cons goesOn => simp [hn] at goesOn

/-- A course that has a call goes on from its start. -/
theorem Course.exists_stage {n last : Next} {before after : List Exchange} {x : Exchange}
    (h : g.Course n (before ++ x :: after) last) : ∃ stage, n.stage? = some stage := by
  cases hstage : n.stage? with
  | some stage => exact ⟨stage, rfl⟩
  | none =>
    obtain ⟨hnil, _⟩ := h.eq_nil hstage
    simp at hnil

/-- A wait that is to open a watch opens it, and goes on as its answer says. -/
theorem Course.of_opening {n last : Next} {x : Exchange} {rest : List Exchange} {version : String}
    (h : g.Course n (x :: rest) last) (hstage : n.stage? = some (.opening version)) :
    ∃ (time : Nat) (reply : Except AccessError (Stream g.collection)),
      x = ⟨time, .watch g.collection g.target.selector version, reply⟩ ∧
      g.Course (g.afterOpen version reply) rest last := by
  cases h with
  | @cons _ _ stage _ goesOn time reply later =>
    obtain rfl : stage = .opening version := by
      rw [goesOn] at hstage
      exact Option.some.inj hstage
    exact ⟨time, reply, rfl, later⟩

/-- The calls and their answers decide where a course leads, and so it may be cut anywhere. -/
theorem Course.of_append {n l last : Next} {first second : List Exchange}
    (h₁ : g.Course n first l) (h : g.Course n (first ++ second) last) :
    g.Course l second last := by
  induction h₁ with
  | nil n => exact h
  | @cons n l stage rest goesOn time reply later ih =>
    rw [List.cons_append] at h
    generalize hxs : (⟨time, (g.move stage).call, reply⟩ : Exchange) :: (rest ++ second) = xs at h
    cases h with
    | nil => cases hxs
    | @cons _ _ stage' rest' goesOn' time' reply' later' =>
      -- both go on with the same stage, so their answers are of one type
      obtain rfl : stage = stage' := by
        rw [goesOn] at goesOn'
        exact Option.some.inj goesOn'
      cases hxs
      exact ih later'

/-- A course may be cut anywhere: it has led somewhere by then, and goes on from there. -/
theorem Course.split {n last : Next} {first second : List Exchange}
    (h : g.Course n (first ++ second) last) :
    ∃ l, g.Course n first l ∧ g.Course l second last := by
  induction first generalizing n with
  | nil => exact ⟨n, .nil n, h⟩
  | cons x rest ih =>
    rw [List.cons_append] at h
    cases h with
    | cons goesOn time reply later =>
      obtain ⟨l, hfirst, hsecond⟩ := ih later
      exact ⟨l, .cons goesOn time reply hfirst, hsecond⟩

end Goal

/-! ## Courses of runs -/

/-- A wait stands where its course has led it. -/
inductive Position.Follows : Position → Next → Prop where
  | ready {stage : Stage} {n : Next} (goesOn : n.stage? = some stage) : Follows (.ready stage) n
  | paused {wake : Nat} {stage : Stage} {n : Next} (goesOn : n.stage? = some stage) :
      Follows (.paused wake stage) n
  | silent : Follows .silent .silence
  | ended (outcome : Outcome) : Follows (.ended outcome) (.finish outcome)

theorem Position.follows_ofNext (clock : Nat) (n : Next) : (Position.ofNext clock n).Follows n := by
  cases n with
  | proceed stage => exact .ready rfl
  | pause d stage =>
    unfold Position.ofNext
    dsimp only
    split
    · exact .ready rfl
    · exact .paused rfl
  | silence => exact .silent
  | finish outcome => exact .ended outcome

variable {σ : Type} {g : Goal}

/-- A position that a wait has come to since some world, by a course of its own. -/
def Goal.Reached (g : Goal) (start : World σ) (p : Position) (w : World σ) : Prop :=
  ∃ news n, World.Since start w news ∧ g.Course (.proceed (.reading 1)) news n ∧ p.Follows n

variable [Backend σ]

theorem Goal.keeps_reached (g : Goal) (start : World σ) : g.Keeps (g.Reached start) where
  call := by
    rintro stage w ⟨news, n, hnews, hcourse, hfollows⟩
    cases hfollows with
    | ready goesOn =>
      exact ⟨_, _, hnews.trans (w.since_perform _), hcourse.snoc goesOn _ _,
        Position.follows_ofNext _ _⟩
  wake := by
    rintro wake stage w ⟨news, n, hnews, hcourse, hfollows⟩
    cases hfollows with
    | paused goesOn => exact ⟨news, n, hnews, hcourse, .ready goesOn⟩
  look := by
    rintro p w ⟨news, n, hnews, hcourse, hfollows⟩
    exact ⟨news, n, by simpa [World.Since] using hnews, hcourse, hfollows⟩
  advance := by
    rintro p w time ⟨news, n, hnews, hcourse, hfollows⟩
    exact ⟨news, n, hnews, hcourse, hfollows⟩

/-- The calls of a wait are a course of it, at whose end it stands, unless it is interrupted. -/
theorem course_of_run (g : Goal) (w : World σ) :
    ∃ news n, World.Since w (run g w).2 news ∧ g.Course (.proceed (.reading 1)) news n ∧
      (n = .finish (run g w).1 ∨ g.Interrupted (run g w).1) := by
  have hstart : g.Reached w (.ready (.reading 1)) w := ⟨[], _, w.since_refl, .nil _, .ready rfl⟩
  obtain ⟨q, ⟨news, n, hnews, hcourse, hfollows⟩, hend⟩ := (g.keeps_reached w).run hstart
  refine ⟨news, n, hnews, hcourse, hend.imp_left ?_⟩
  rintro rfl
  cases hfollows with
  | ended outcome => rfl

end EcosystemSetup.Wait

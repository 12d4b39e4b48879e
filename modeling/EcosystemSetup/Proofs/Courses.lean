import EcosystemSetup.Proofs.Conduct

/-!
# Courses of programs

What a program does, one action after another, seen from the program alone. Each action comes with what
came of it, so it does not matter who answers, nor what others do in between. A program under way obeys
the rules that it obeyed at its start.
-/

namespace EcosystemSetup.Program

open Cluster

variable {α β : Type}

/-! ## Actions -/

/-- One action of a program, with what came of it. -/
inductive Action where
  | called (k : Call) (reply : k.Reply)
  /-- A wait has ended. -/
  | awaited (goal : Wait.Goal) (outcome : Wait.Outcome)
  | looked (cancelled : Bool)
  | timed (text : String)

/-- One action leads from a program to what is left of it. A wait makes calls of its own, as many as it
likes, before it ends. -/
inductive Step : Program α → Action → Program α → Prop where
  | call {k : Call} {next : k.Reply → Program α} (reply : k.Reply) :
      Step (.call k next) (.called k reply) (next reply)
  | waiting {goal : Wait.Goal} {next : Wait.Outcome → Program α} {stage : Wait.Stage} {k : Call}
      (own : (goal.move stage).call = k) (reply : k.Reply) :
      Step (.await goal next) (.called k reply) (.await goal next)
  | await {goal : Wait.Goal} {next : Wait.Outcome → Program α} (outcome : Wait.Outcome) :
      Step (.await goal next) (.awaited goal outcome) (next outcome)
  | cancelled {next : Bool → Program α} (b : Bool) :
      Step (.cancelled next) (.looked b) (next b)
  | now {next : String → Program α} (text : String) :
      Step (.now next) (.timed text) (next text)

theorem not_step_done {a : α} {action : Action} {u : Program α} : ¬ Step (done a) action u :=
  nofun

/-- What comes of an action decides what is left of the program. -/
theorem Step.unique {t u v : Program α} {action : Action} (h₁ : Step t action u)
    (h₂ : Step t action v) : u = v := by
  cases h₁ with
  | call reply => cases h₂; rfl
  | waiting own reply => cases h₂; rfl
  | await outcome => cases h₂; rfl
  | cancelled b => cases h₂; rfl
  | now text => cases h₂; rfl

theorem bind_eq_done {t : Program α} {f : α → Program β} {b : β} (h : t.bind f = done b) :
    ∃ a, t = done a ∧ f a = done b := by
  cases t with
  | done a => exact ⟨a, rfl, h⟩
  | _ => cases h

/-- A program that goes on with the result of another does as the other does, up to its result. -/
theorem Step.of_bind {t : Program α} {f : α → Program β} {action : Action} {u : Program β}
    (h : Step (t.bind f) action u) (ht : ∀ a, t ≠ done a) :
    ∃ v, Step t action v ∧ u = v.bind f := by
  -- whatever it does first, the rest of it is still bound
  cases t with
  | done a => exact absurd rfl (ht a)
  | call k next =>
    cases h with
    | call reply => exact ⟨_, .call reply, rfl⟩
  | await goal next =>
    cases h with
    | waiting own reply => exact ⟨_, .waiting own reply, rfl⟩
    | await outcome => exact ⟨_, .await outcome, rfl⟩
  | cancelled next =>
    cases h with
    | cancelled b => exact ⟨_, .cancelled b, rfl⟩
  | now next =>
    cases h with
    | now text => exact ⟨_, .now text, rfl⟩

/-! ## Rules along the way -/

variable {rule : Rule}

/-- A rule that allows more and expects the same or less is obeyed too. -/
theorem Obeys.mono {t : Program α} (ht : t.Obeys rule) {wider : Rule}
    (hallows : ∀ k, rule.allows k → wider.allows k)
    (hexpects : ∀ k r, wider.expects k r → rule.expects k r) : t.Obeys wider := by
  -- fewer answers are expected, so fewer programs have to obey
  induction t with
  | done a => trivial
  | call k next ih =>
    exact ⟨hallows _ ht.1, fun r hr => ih r (ht.2 r (hexpects k r hr))⟩
  | await goal next ih =>
    exact ⟨fun stage => hallows _ (ht.1 stage), fun outcome => ih outcome (ht.2 outcome)⟩
  | cancelled next ih => exact fun b => ih b (ht b)
  | now next ih => exact fun text => ih text (ht text)

/-- A program that obeys makes allowed calls. -/
theorem Step.allows {t u : Program α} (ht : t.Obeys rule) {k : Call} {reply : k.Reply}
    (h : Step t (.called k reply) u) : rule.allows k := by
  cases h with
  | call reply => exact ht.1
  | waiting own reply => exact own ▸ ht.1 _

/-- After an expected answer the program obeys as before. -/
theorem Step.obeys {t u : Program α} (ht : t.Obeys rule) {action : Action}
    (h : Step t action u)
    (hexpects : ∀ k reply, action = .called k reply → rule.expects k reply) : u.Obeys rule := by
  cases h with
  | call reply => exact ht.2 _ (hexpects _ _ rfl)
  | waiting own reply => exact ht
  | await outcome => exact ht.2 outcome
  | cancelled b => exact ht b
  | now text => exact ht text

/-! ## Courses -/

/-- Some actions lead from a program to what is left of it. -/
inductive Course : Program α → List Action → Program α → Prop where
  | nil (t : Program α) : Course t [] t
  | cons {t u v : Program α} {action : Action} {rest : List Action} (step : Step t action u)
      (later : Course u rest v) : Course t (action :: rest) v

/-- The first actions of a course lead to the program from which the others go on. -/
theorem Course.split {first second : List Action} {t v : Program α}
    (h : Course t (first ++ second) v) : ∃ u, Course t first u ∧ Course u second v := by
  -- along the first actions, from the front
  induction first generalizing t with
  | nil => exact ⟨t, .nil t, h⟩
  | cons action rest ih =>
    cases h with
    | cons step later =>
      obtain ⟨u, hfirst, hsecond⟩ := ih later
      exact ⟨u, .cons step hfirst, hsecond⟩

/-- A course goes on with one more action. -/
theorem Course.snoc {actions : List Action} {t u v : Program α} {action : Action}
    (h : Course t actions u) (step : Step u action v) : Course t (actions ++ [action]) v := by
  induction h with
  | nil t => exact .cons step (.nil v)
  | cons first later ih => exact .cons first (ih step)

theorem Course.unique {actions : List Action} {t u v : Program α} (h₁ : Course t actions u)
    (h₂ : Course t actions v) : u = v := by
  induction h₁ with
  | nil t => cases h₂; rfl
  | cons step later ih =>
    cases h₂ with
    | cons step' later' =>
      rw [← step.unique step'] at later'
      exact ih later'

/-- A finished program does nothing more. -/
theorem Course.of_done {a : α} {actions : List Action} {t : Program α}
    (h : Course (done a) actions t) : actions = [] ∧ t = done a := by
  cases h with
  | nil => exact ⟨rfl, rfl⟩
  | cons step => exact absurd step not_step_done

end EcosystemSetup.Program

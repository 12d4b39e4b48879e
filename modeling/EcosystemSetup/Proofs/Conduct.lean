import EcosystemSetup.Program.Run
import EcosystemSetup.Proofs.Lists

/-!
# The conduct of programs

Which calls a program can make is seen from the program alone, whoever answers it. A program obeys a
rule when every call it makes, in its waits too, is allowed, as long as the answers it gets are ones
that may come. A property of worlds that allowed calls and the passing of time keep is then kept by the
whole run; in particular a run adds allowed calls to the record and nothing else.
-/

namespace EcosystemSetup

open Cluster

variable {σ α β : Type}

/-! ## Rules for programs -/

/-- Which calls are allowed, and which answers may come. -/
structure Rule where
  allows : Call → Prop
  expects : (k : Call) → k.Reply → Prop

/-- The rule that allows some calls and expects any answer. -/
def Rule.only (allows : Call → Prop) : Rule :=
  ⟨allows, fun _ _ => True⟩

namespace Program

/-- Whether a program keeps to the allowed calls, in its waits too, under the expected answers. -/
def Obeys (rule : Rule) : Program α → Prop
  | done _ => True
  | call k next => rule.allows k ∧ ∀ r, rule.expects k r → (next r).Obeys rule
  | await g next => (∀ stage, rule.allows (g.move stage).call) ∧ ∀ o, (next o).Obeys rule
  | cancelled next => ∀ b, (next b).Obeys rule
  | now next => ∀ text, (next text).Obeys rule

variable {rule : Rule}

theorem obeys_done (a : α) : (done a).Obeys rule := trivial

theorem obeys_pure (a : α) : (pure a : Program α).Obeys rule := trivial

/-- A program that goes on with the result of another obeys if both do. -/
theorem obeys_bind {t : Program α} {f : α → Program β} (ht : t.Obeys rule)
    (hf : ∀ a, (f a).Obeys rule) : (t >>= f).Obeys rule := by
  change (t.bind f).Obeys rule
  -- along the first program; the other takes over where it is done
  induction t with
  | done a => exact hf a
  | call k next ih => exact ⟨ht.1, fun r hr => ih r (ht.2 r hr)⟩
  | await g next ih => exact ⟨ht.1, fun o => ih o (ht.2 o)⟩
  | cancelled next ih => exact fun b => ih b (ht b)
  | now next ih => exact fun text => ih text (ht text)

/-- After a call only the expected answers count. -/
theorem obeys_ask_bind {k : Call} {f : k.Reply → Program β} (hk : rule.allows k)
    (hf : ∀ r, rule.expects k r → (f r).Obeys rule) : (ask k >>= f).Obeys rule :=
  ⟨hk, hf⟩

theorem obeys_reach {goal : Wait.Goal} (hgoal : ∀ stage, rule.allows (goal.move stage).call) :
    (reach goal).Obeys rule :=
  ⟨hgoal, fun _ => trivial⟩

theorem obeys_time : time.Obeys rule := fun _ => trivial

theorem obeys_isCancelled : isCancelled.Obeys rule := fun _ => trivial

end Program

/-! ## Records -/

/-- The world has come from another by exchanges that it has recorded. -/
def World.Since (before after : World σ) (news : List Exchange) : Prop :=
  after.record = before.record ++ news

theorem World.since_refl (w : World σ) : World.Since w w [] := by
  simp [World.Since]

/-- Nothing is recorded by a look. -/
@[simp] theorem World.since_looked {w v : World σ} {news : List Exchange} :
    World.Since w.looked v news ↔ World.Since w v news := by
  simp [World.Since]

theorem World.Since.trans {u v w : World σ} {first second : List Exchange}
    (h₁ : World.Since u v first) (h₂ : World.Since v w second) :
    World.Since u w (first ++ second) := by
  unfold World.Since at *
  rw [h₂, h₁, List.append_assoc]

/-- Stretches of a record that begin and end in the same worlds are the same. -/
theorem World.Since.unique {u v : World σ} {first second : List Exchange}
    (h₁ : World.Since u v first) (h₂ : World.Since u v second) : first = second := by
  unfold World.Since at h₁ h₂
  rw [h₁] at h₂
  exact List.append_cancel_left h₂

theorem World.since_perform [Backend σ] (w : World σ) (k : Call) :
    World.Since w (w.perform k).2 [⟨w.clock, k, (w.perform k).1⟩] := rfl

/-- The run of a program that has a result goes on with it. -/
theorem Program.run_bind_of_eq [Backend σ] {t : Program α} {f : α → Program β} {w v : World σ}
    {a : α} (h : t.run w = (a, v)) : (t >>= f).run w = (f a).run v := by
  change (t.bind f).run w = _
  rw [run_bind, h]

/-- After a call a program goes on with the answer. -/
theorem Program.run_ask_bind [Backend σ] {k : Call} {f : k.Reply → Program α} {w : World σ}
    {reply : k.Reply} (h : (w.perform k).1 = reply) :
    (ask k >>= f).run w = (f reply).run (w.perform k).2 := by
  rw [← h]
  rfl

/-! ## Invariants of worlds -/

/-- A property of worlds that allowed calls, looks and the passing of time keep, and under which only
expected answers come. -/
structure Rule.Keeps [Backend σ] (rule : Rule) (I : World σ → Prop) : Prop where
  expects : ∀ {w : World σ} {k : Call}, I w → rule.allows k → rule.expects k (w.perform k).1
  perform : ∀ {w : World σ} {k : Call}, I w → rule.allows k → I (w.perform k).2
  look : ∀ {w : World σ}, I w → I w.looked
  advance : ∀ {w : World σ} (time : Nat), I w → I (w.advanceTo time)

variable [Backend σ] {rule : Rule} {I : World σ → Prop} {g : Wait.Goal}

namespace Wait

/-- The position in which a turn leaves a wait. -/
def Turn.position : Turn → Position
  | .ended outcome => .ended outcome
  | .again position _ => position

/-- The ends of a wait that its own calls do not bring about. -/
def Goal.Interrupted (g : Goal) (outcome : Outcome) : Prop :=
  outcome = .error (.cancelled g.targetText) ∨ outcome = .error (.timeout g.targetText g.timeout)

/-- A property of a wait's position in its world that the wait keeps: its calls do, and so do waking up,
looking and the passing of time. -/
structure Goal.Keeps (g : Goal) (P : Position → World σ → Prop) : Prop where
  call : ∀ {stage : Stage} {w : World σ}, P (.ready stage) w →
    P (.ofNext (w.perform (g.move stage).call).2.clock
      ((g.move stage).next (w.perform (g.move stage).call).1)) (w.perform (g.move stage).call).2
  wake : ∀ {wake : Nat} {stage : Stage} {w : World σ}, P (.paused wake stage) w → P (.ready stage) w
  look : ∀ {p : Position} {w : World σ}, P p w → P p w.looked
  advance : ∀ {p : Position} {w : World σ} (time : Nat), P p w → P p (w.advanceTo time)

variable {P : Position → World σ → Prop}

theorem Goal.Keeps.drive (h : g.Keeps P) (fuel : Nat) {p : Position} {w : World σ} (hp : P p w) :
    P (drive g fuel p w).1.position (drive g fuel p w).2 := by
  -- only a wait that is ready makes a call; in all other positions the world stays
  induction fuel generalizing p w with
  | zero => cases p <;> exact hp
  | succ fuel ih =>
    cases p with
    | ended outcome => exact hp
    | silent => exact hp
    | paused wake stage =>
      rw [Wait.drive]
      split
      · exact ih (h.wake hp)
      · exact hp
    | ready stage =>
      rw [Wait.drive]
      split
      · exact h.call hp
      · exact ih (h.call hp)

/-- A position in which the calls of a turn can leave a wait that goes on. -/
def Goal.Rests (σ : Type) [Backend σ] (g : Goal) (q : Position) : Prop :=
  ∃ (fuel : Nat) (p : Position) (w : World σ) (wake : Option Nat),
    (Wait.drive g fuel p w).1 = .again q wake

/-- Where a turn from a position leaves a wait: at its end, where it was or came to rest and is
interrupted, or where it rests and goes on. -/
inductive Goal.Leaves (σ : Type) [Backend σ] (g : Goal) (p : Position) : Turn → Position → Prop where
  | ended (outcome : Outcome) : g.Leaves σ p (.ended outcome) (.ended outcome)
  | interrupted {outcome : Outcome} {q : Position} (rests : q = p ∨ g.Rests σ q)
      (interrupted : g.Interrupted outcome) : g.Leaves σ p (.ended outcome) q
  | again {q : Position} {wake : Option Nat} (rests : g.Rests σ q) : g.Leaves σ p (.again q wake) q

/-- A turn leads to a position that is kept. -/
theorem Goal.Keeps.turn (h : g.Keeps P) {p : Progress} {w : World σ} (hp : P p.position w) :
    ∃ q, P q (turn g p w).2 ∧ g.Leaves σ p.position (turn g p w).1 q := by
  unfold Wait.turn
  split
  · exact ⟨_, hp, .interrupted (Or.inl rfl) (Or.inl rfl)⟩
  · have hdrive := h.drive (turnBound g w) (h.look hp)
    split
    · rename_i heq
      rw [heq] at hdrive
      exact ⟨_, hdrive, .ended _⟩
    · rename_i heq
      rw [heq] at hdrive
      have hrests : g.Rests σ _ := ⟨_, _, _, _, congrArg Prod.fst heq⟩
      split
      · exact ⟨_, hdrive, .interrupted (Or.inr hrests) (Or.inr rfl)⟩
      · exact ⟨_, hdrive, .again hrests⟩

variable {Q : Position → Prop}

/-- Where turns end, what the wait keeps holds of its end, unless it was interrupted where it rested. -/
theorem Goal.Keeps.takeTurns (h : g.Keeps P) (hQ : ∀ q, g.Rests σ q → Q q) (fuel : Nat)
    {p : Progress} {w : World σ} (hp : P p.position w) (hq : Q p.position) :
    ∃ q, P q (takeTurns g fuel p w).2 ∧ (q = .ended (takeTurns g fuel p w).1 ∨
      g.Interrupted (takeTurns g fuel p w).1 ∧ Q q) := by
  induction fuel generalizing p w with
  | zero => exact ⟨_, hp, Or.inr ⟨Or.inr rfl, hq⟩⟩
  | succ fuel ih =>
    obtain ⟨q, hkept, hturn⟩ := h.turn hp
    rw [Wait.takeTurns]
    generalize Wait.turn g p w = x at *
    obtain ⟨t, v⟩ := x
    cases hturn with
    | ended outcome => exact ⟨_, hkept, Or.inl rfl⟩
    | interrupted rests interrupted =>
      refine ⟨q, hkept, Or.inr ⟨interrupted, ?_⟩⟩
      rcases rests with rfl | rests
      · exact hq
      · exact hQ q rests
    | again rests => exact ih (h.advance _ hkept) (hQ q rests)

/-- Where a wait ends, what it keeps holds of its end, unless it was interrupted where it rested. -/
theorem Goal.Keeps.run_rests (h : g.Keeps P) (hQ : ∀ q, g.Rests σ q → Q q) {w : World σ}
    (hw : P (.ready (.reading 1)) w) (hq : Q (.ready (.reading 1))) :
    ∃ q, P q (run g w).2 ∧
      (q = .ended (run g w).1 ∨ g.Interrupted (run g w).1 ∧ Q q) :=
  h.takeTurns hQ _ hw hq

/-- Where a wait ends, what it keeps holds of its end, unless the wait was interrupted. -/
theorem Goal.Keeps.run (h : g.Keeps P) {w : World σ} (hw : P (.ready (.reading 1)) w) :
    ∃ q, P q (run g w).2 ∧ (q = .ended (run g w).1 ∨ g.Interrupted (run g w).1) := by
  obtain ⟨q, hkept, hend⟩ := h.run_rests (Q := fun _ => True) (fun _ _ => trivial) hw trivial
  exact ⟨q, hkept, hend.imp_right And.left⟩

/-- A wait goes on by its own calls, so what they keep it keeps. -/
theorem keeps_of_rule (hI : rule.Keeps I) (hg : ∀ stage, rule.allows (g.move stage).call) :
    g.Keeps fun _ w => I w where
  call := fun hw => hI.perform hw (hg _)
  wake := fun hw => hw
  look := hI.look
  advance := hI.advance

theorem turn_keeps (hI : rule.Keeps I) (hg : ∀ stage, rule.allows (g.move stage).call)
    (p : Progress) {w : World σ} (hw : I w) : I (turn g p w).2 := by
  obtain ⟨_, hturn, _⟩ := (keeps_of_rule hI hg).turn (p := p) hw
  exact hturn

theorem run_keeps (hI : rule.Keeps I) (hg : ∀ stage, rule.allows (g.move stage).call)
    {w : World σ} (hw : I w) : I (run g w).2 := by
  obtain ⟨_, hrun, _⟩ := (keeps_of_rule hI hg).run hw
  exact hrun

end Wait

namespace Program

/-- What allowed calls keep, a program that obeys keeps. -/
theorem Obeys.keeps (hI : rule.Keeps I) {t : Program α} (ht : t.Obeys rule) {w : World σ}
    (hw : I w) : I (t.run w).2 := by
  -- the invariant says which answers may come, and these are the ones that obeying counts on
  induction t generalizing w with
  | done a => exact hw
  | call k next ih => exact ih _ (ht.2 _ (hI.expects hw ht.1)) (hI.perform hw ht.1)
  | await g next ih => exact ih _ (ht.2 _) (Wait.run_keeps hI ht.1 hw)
  | cancelled next ih => exact ih _ (ht _) (hI.look hw)
  | now next ih => exact ih _ (ht _) hw

/-- Every program obeys the rule that allows all calls. -/
theorem obeys_any (t : Program α) : t.Obeys (.only fun _ => True) := by
  induction t with
  | done a => trivial
  | call k next ih => exact ⟨trivial, fun r _ => ih r⟩
  | await g next ih => exact ⟨fun _ => trivial, ih⟩
  | cancelled next ih => exact ih
  | now next ih => exact ih

/-- No program cancels itself. -/
theorem undisturbed_run (t : Program α) {w : World σ} (hw : w.Undisturbed) :
    (t.run w).2.Undisturbed := by
  have hkeeps : (Rule.only fun _ => True).Keeps fun v : World σ => v.Undisturbed :=
    { expects := fun _ _ => trivial
      perform := fun hv _ => hv
      look := fun hv => hv.looked
      advance := fun _ hv => hv }
  exact t.obeys_any.keeps hkeeps hw

end Program

/-! ## What a run records -/

/-- Calls and time only add to a record. -/
theorem keeps_record (allows : Call → Prop) (start : World σ) :
    (Rule.only allows).Keeps fun w : World σ =>
      ∃ news, World.Since start w news ∧ ∀ x ∈ news, allows x.call where
  expects := fun _ _ => trivial
  perform := by
    rintro w k ⟨news, hnews, hall⟩ hk
    refine ⟨_, hnews.trans (w.since_perform k), ?_⟩
    intro x hx
    rcases List.mem_append.mp hx with hx | hx
    · exact hall x hx
    · rw [List.mem_singleton] at hx
      exact hx ▸ hk
  look := by
    intro w hw
    simpa [World.Since] using hw
  advance := fun _ hw => hw

/-- A run adds allowed calls to the record, and nothing else. -/
theorem Program.Obeys.record {allows : Call → Prop} {t : Program α}
    (ht : t.Obeys (.only allows)) (w : World σ) :
    ∃ news, World.Since w (t.run w).2 news ∧ ∀ x ∈ news, allows x.call :=
  ht.keeps (keeps_record allows w) ⟨[], w.since_refl, by simp⟩

/-- Whatever a program does, it only adds to the record. -/
theorem Program.run_since (t : Program α) (w : World σ) :
    ∃ news, World.Since w (t.run w).2 news := by
  obtain ⟨news, hnews, _⟩ := t.obeys_any.record w
  exact ⟨news, hnews⟩

/-- What the program that goes on does not do was done before it. -/
theorem Program.Obeys.earlier {allows : Call → Prop} {t : Program α} {f : α → Program β}
    (hf : ∀ a, (f a).Obeys (.only allows)) {w : World σ} {before after : List Exchange}
    {x : Exchange} (hx : ¬ allows x.call)
    (h : World.Since w ((t.bind f).run w).2 (before ++ x :: after)) :
    ∃ rest, World.Since w (t.run w).2 (before ++ x :: rest) := by
  rw [run_bind] at h
  obtain ⟨news, hnews⟩ := t.run_since w
  obtain ⟨more, hmore, hall⟩ := (hf (t.run w).1).record (t.run w).2
  -- the exchange is not one of the second program, so it lies before them
  rcases Lists.split_of_append_eq ((hnews.trans hmore).unique h) with
    ⟨rest, hfirst⟩ | ⟨within, hbefore, hsecond⟩
  · exact ⟨rest, hfirst ▸ hnews⟩
  · exact absurd (hall x (by simp [hsecond])) hx

end EcosystemSetup

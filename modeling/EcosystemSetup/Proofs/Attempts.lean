import EcosystemSetup.Server.Client

/-!
# Attempts with responses in order

What a client does with a server is decided by the responses that come. Given the first of them, an
attempt uses them up one after another and ends with a result or with an error; of the client only the
requests grow.
-/

namespace EcosystemSetup.Server.Client

open Cluster

variable {α β γ : Type}

/-- What has been left of a client that has used up its first responses. -/
structure Used (c : Client) (later : List Response) (d : Client) : Prop where
  namespaceName : d.namespaceName = c.namespaceName
  reachable : d.reachable = c.reachable
  kinds : d.kinds = c.kinds
  responses : d.responses = later

theorem Used.trans {c d e : Client} {middle later : List Response} (h₁ : Used c middle d)
    (h₂ : Used d later e) : Used c later e where
  namespaceName := h₂.namespaceName.trans h₁.namespaceName
  reachable := h₂.reachable.trans h₁.reachable
  kinds := h₂.kinds.trans h₁.kinds
  responses := h₂.responses

/-- A client that is answered by some responses before others. -/
structure Answered (c : Client) (first later : List Response) : Prop where
  reachable : c.reachable = true
  responses : c.responses = first ++ later

/-- An attempt that is answered by some responses uses them up and comes to an end. -/
def Ends (m : Attempt α) (first : List Response) (outcome : Except AccessError α) : Prop :=
  ∀ (c : Client) (later : List Response), Answered c first later →
    ∃ d, m.run c = (outcome, d) ∧ Used c later d

theorem run_bind (m : Attempt α) (f : α → Attempt β) (c : Client) :
    (m >>= f).run c = match m.run c with
      | (.ok a, d) => (f a).run d
      | (.error e, d) => (.error e, d) := by
  change ExceptT.bindCont f (m.run c).1 (m.run c).2 = _
  rcases m.run c with ⟨r, d⟩
  cases r <;> rfl

/-- What remains after the first responses answers what comes next. -/
theorem Used.answered {c d : Client} {first more later : List Response}
    (hc : Answered c (first ++ more) later) (hd : Used c (more ++ later) d) :
    Answered d more later :=
  ⟨hd.reachable.trans hc.reachable, hd.responses⟩

namespace Ends

theorem pure (a : α) : Ends (Pure.pure a) [] (.ok a) :=
  fun c _ hc => ⟨c, rfl, rfl, rfl, rfl, hc.responses⟩

theorem throw (e : AccessError) : Ends (MonadExcept.throw e : Attempt α) [] (.error e) :=
  fun c _ hc => ⟨c, rfl, rfl, rfl, rfl, hc.responses⟩

/-- An attempt that goes on with the result of another uses up what that one has left. -/
theorem bind {m : Attempt α} {f : α → Attempt β} {first more : List Response} {a : α}
    {outcome : Except AccessError β} (hm : Ends m first (.ok a)) (hf : Ends (f a) more outcome) :
    Ends (m >>= f) (first ++ more) outcome := by
  intro c later hc
  obtain ⟨d, hd, hused⟩ := hm c (more ++ later)
    ⟨hc.reachable, by rw [hc.responses, List.append_assoc]⟩
  obtain ⟨e, he, hrest⟩ := hf d later (hused.answered hc)
  refine ⟨e, ?_, hused.trans hrest⟩
  rw [run_bind, hd]
  exact he

/-- An error ends what goes on with the result. -/
theorem bind_error {m : Attempt α} {first : List Response} {e : AccessError}
    (hm : Ends m first (.error e)) (f : α → Attempt β) : Ends (m >>= f) first (.error e) := by
  intro c later hc
  obtain ⟨d, hd, hused⟩ := hm c later hc
  refine ⟨d, ?_, hused⟩
  rw [run_bind, hd]

theorem map {m : Attempt α} {first : List Response} {a : α} (hm : Ends m first (.ok a)) (f : α → β) :
    Ends (do return f (← m)) first (.ok (f a)) := by
  have hall := hm.bind (f := fun a => Pure.pure (f a)) (pure (f a))
  rwa [List.append_nil] at hall

/-- A request uses up the response that answers it. -/
theorem fetch {what : String} {decode : Document → Option α} {r : Request} {x : Response}
    {outcome : Except AccessError α} (h : x.read what decode = outcome) :
    Ends (Client.fetch what decode r) [x] outcome := by
  intro c later hc
  have hsend : c.send r =
      (some x, { c with responses := later, requests := c.requests ++ [r] }) := by
    unfold send
    rw [if_pos hc.reachable, hc.responses]
    rfl
  refine ⟨{ c with responses := later, requests := c.requests ++ [r] }, ?_, rfl, rfl, rfl, rfl⟩
  simp only [Client.fetch, exchange, ExceptT.run, ExceptT.mk, hsend, h]

/-- Attempts that each give a result, one after another. -/
theorem mapM {f : α → Attempt β} {key : γ → α} {used : γ → List Response} {result : γ → β}
    {xs : List γ} (h : ∀ x ∈ xs, Ends (f (key x)) (used x) (.ok (result x))) :
    Ends ((xs.map key).mapM f) (xs.flatMap used) (.ok (xs.map result)) := by
  induction xs with
  | nil => exact pure []
  | cons x rest ih =>
    rw [List.map_cons, List.mapM_cons, List.flatMap_cons, List.map_cons]
    refine (h x List.mem_cons_self).bind ?_
    exact (ih fun y hy => h y (List.mem_cons_of_mem _ hy)).map (result x :: ·)

/-- The first one that fails ends them all. -/
theorem mapM_error {f : α → Attempt β} {key : γ → α} {used : γ → List Response} {result : γ → β}
    {before after : List γ} {x : γ} {first : List Response} {e : AccessError}
    (h : ∀ y ∈ before, Ends (f (key y)) (used y) (.ok (result y)))
    (hx : Ends (f (key x)) first (.error e)) :
    Ends (((before ++ x :: after).map key).mapM f) (before.flatMap used ++ first) (.error e) := by
  induction before with
  | nil =>
    rw [List.nil_append, List.map_cons, List.mapM_cons]
    exact hx.bind_error _
  | cons y rest ih =>
    rw [List.cons_append, List.map_cons, List.mapM_cons, List.flatMap_cons, List.append_assoc]
    refine (h y List.mem_cons_self).bind ?_
    exact (ih fun z hz => h z (List.mem_cons_of_mem _ hz)).bind_error _

end Ends

end EcosystemSetup.Server.Client

import EcosystemSetup.Proofs.WaitCourses

/-!
# What a successful wait has seen

A wait succeeds only on an answer of the cluster: an object that it read, or one that a watch delivered
as added or modified, and that its predicate judged ready. Such an answer meets the goal. Everything a
wait does besides is reading, listing and watching its collection.
-/

namespace EcosystemSetup.Wait

open Cluster

/-! ## Answers that meet a goal -/

/-- An object as an event announces it, if it was added or modified. -/
def announced? {c : Collection} : Cluster.Event c → Option (Object c)
  | .added o => some o
  | .modified o => some o
  | _ => none

namespace Goal

/-- An exchange in which the cluster delivered a target of the goal that is ready. -/
inductive Met (g : Goal) : Exchange → Prop where
  | got {time : Nat} {name : String} {o : Object g.collection} (named : g.target.name = some name)
      (ready : g.predicate o = .ready) : Met g ⟨time, .get g.collection name, .ok o⟩
  | listed {time : Nat} {found : Snapshot g.collection} {o : Object g.collection}
      (nameless : g.target.name = none) (mem : o ∈ found.items) (ready : g.predicate o = .ready) :
      Met g ⟨time, .list g.collection g.target.selector, .ok found⟩
  /-- The items before the deciding one were heard without an end. -/
  | watched {time : Nat} {version reached : String} {stream : Stream g.collection}
      {heard rest : Session g.collection} {e : Cluster.Event g.collection} {o : Object g.collection}
      (items : stream.items = heard ++ .ok e :: rest)
      (undecided : g.listen version heard = .drained reached) (announced : announced? e = some o)
      (concerns : g.concerns o = true) (ready : g.predicate o = .ready) :
      Met g ⟨time, .watch g.collection g.target.selector version, .ok stream⟩

variable {g : Goal}

/-- A judgement of several objects that they are ready rests on one of them. -/
theorem ready_of_judge {c : Collection} {predicate : Object c → Readiness} {items : List (Object c)}
    (h : judge predicate items = .ready) : ∃ o ∈ items, predicate o = .ready := by
  induction items with
  | nil => simp [judge] at h
  | cons o rest ih =>
    rw [judge] at h
    split at h
    · rename_i ho
      exact ⟨o, List.mem_cons_self, ho⟩
    · rename_i hrest _
      obtain ⟨q, hq, hready⟩ := ih hrest
      exact ⟨q, List.mem_cons_of_mem _ hq, hready⟩
    · simp at h
    · obtain ⟨q, hq, hready⟩ := ih h
      exact ⟨q, List.mem_cons_of_mem _ hq, hready⟩

/-- A read that ends a wait with success has found an object that is ready. -/
theorem ready_of_afterFound {items : List (Object g.collection)} {version : String}
    (h : g.afterFound items version = .finish (.ok ())) : ∃ o ∈ items, g.predicate o = .ready := by
  unfold afterFound at h
  split at h
  · rename_i hjudge
    exact ready_of_judge hjudge
  · simp at h
  · simp at h

theorem afterReadError_ne_ok {attempt : Nat} {e : AccessError} :
    g.afterReadError attempt e ≠ .finish (.ok ()) := by
  unfold afterReadError
  split
  · split <;> simp
  · simp

/-- An event that ends a wait with success announces a target that is ready. -/
theorem announced_of_react {version : String} {e : Cluster.Event g.collection}
    (h : g.react version e = .decide (.ok ())) :
    ∃ o, announced? e = some o ∧ g.concerns o = true ∧ g.predicate o = .ready := by
  -- only an added or a modified object can decide a wait with success
  have hchange : ∀ o, g.afterChange version o = .decide (.ok ()) →
      g.concerns o = true ∧ g.predicate o = .ready := by
    intro o ho
    unfold afterChange at ho
    split at ho
    · rename_i hconcerns
      split at ho
      · rename_i hready
        exact ⟨hconcerns, hready⟩
      · simp at ho
      · simp at ho
    · simp at ho
  cases e with
  | added o => exact ⟨o, rfl, hchange o h⟩
  | modified o => exact ⟨o, rfl, hchange o h⟩
  | deleted o =>
    unfold react at h
    dsimp only at h
    split at h <;> simp at h
  | bookmark v => simp [react] at h
  | error s =>
    unfold react at h
    dsimp only at h
    split at h <;> simp at h

/-- Items that decide a wait with success hold an event that does, and those before it decide nothing. -/
theorem ready_of_listen {version : String} {items : Session g.collection}
    (h : g.listen version items = .decided (.ok ())) :
    ∃ heard e rest o reached, items = heard ++ .ok e :: rest ∧
      g.listen version heard = .drained reached ∧ announced? e = some o ∧
      g.concerns o = true ∧ g.predicate o = .ready := by
  induction items generalizing version with
  | nil => simp [listen] at h
  | cons item rest ih =>
    cases item with
    | error e => simp [listen] at h
    | ok e =>
      rw [listen] at h
      -- the event is passed over, or it decides
      split at h
      · rename_i v hreact
        obtain ⟨heard, e', rest', o, reached, rfl, hheard, ho⟩ := ih h
        refine ⟨.ok e :: heard, e', rest', o, reached, rfl, ?_, ho⟩
        rw [listen, hreact]
        exact hheard
      · simp at h
      · rename_i outcome hreact
        rw [Heard.decided.injEq] at h
        obtain ⟨o, ho⟩ := announced_of_react (h ▸ hreact)
        exact ⟨[], e, rest, o, version, rfl, rfl, ho⟩

/-- A call that ends a wait with success meets the goal. -/
theorem met_of_move {stage : Stage} {reply : (g.move stage).call.Reply} {time : Nat}
    (h : (g.move stage).next reply = .finish (.ok ())) :
    g.Met ⟨time, (g.move stage).call, reply⟩ := by
  cases stage with
  | reading attempt =>
    revert reply
    cases hname : g.target.name with
    | some name =>
      rw [move_reading_of_name hname]
      rintro (e | o) h
      · exact absurd h afterReadError_ne_ok
      · obtain ⟨q, hq, hready⟩ := ready_of_afterFound h
        rw [List.mem_singleton] at hq
        exact .got hname (hq ▸ hready)
    | none =>
      rw [move_reading_of_nameless hname]
      rintro (e | found) h
      · exact absurd h afterReadError_ne_ok
      · obtain ⟨q, hq, hready⟩ := ready_of_afterFound h
        exact .listed hname hq hready
  | opening version =>
    revert reply
    change ∀ reply, g.afterOpen version reply = _ → g.Met ⟨time, .watch _ _ _, reply⟩
    rintro (e | stream) h
    · simp [afterOpen, reopen] at h
    · unfold afterOpen at h
      dsimp only at h
      split at h
      · rename_i outcome hlisten
        rw [Next.finish.injEq] at h
        obtain ⟨heard, e, rest, o, reached, hitems, hheard, ho, hconcerns, hready⟩ :=
          ready_of_listen (h ▸ hlisten)
        exact .watched hitems hheard ho hconcerns hready
      · simp [reopen] at h
      · split at h <;> simp [reopen] at h

end Goal

/-! ## Successful waits -/

/-- A course that comes to a success has met the goal. -/
theorem Goal.Course.met {g : Goal} {n last : Next} {xs : List Exchange} (h : g.Course n xs last)
    (hlast : last = .finish (.ok ())) (hn : n ≠ .finish (.ok ())) : ∃ x ∈ xs, g.Met x := by
  induction h with
  | nil n => exact absurd hlast hn
  | @cons n last stage rest goesOn time reply later ih =>
    -- this answer is the success, or a later one
    by_cases hnext : (g.move stage).next reply = .finish (.ok ())
    · exact ⟨_, List.mem_cons_self, met_of_move hnext⟩
    · obtain ⟨x, hx, hmet⟩ := ih hlast hnext
      exact ⟨x, List.mem_cons_of_mem _ hx, hmet⟩

variable {σ : Type} [Backend σ] {g : Goal}

/-- An exchange since some world meets the goal. -/
def Goal.MetSince (g : Goal) (start w : World σ) : Prop :=
  ∃ news, World.Since start w news ∧ ∃ x ∈ news, g.Met x

/-- A wait that succeeds has met its goal in one of its own exchanges. -/
theorem met_of_run {w : World σ} (hok : (run g w).1 = .ok ()) : g.MetSince w (run g w).2 := by
  obtain ⟨news, n, hnews, hcourse, hend⟩ := course_of_run g w
  rw [hok] at hend
  rcases hend with hlast | hcancelled | htimeout
  · exact ⟨news, hnews, hcourse.met hlast (by simp)⟩
  · simp at hcancelled
  · simp at htimeout

end EcosystemSetup.Wait

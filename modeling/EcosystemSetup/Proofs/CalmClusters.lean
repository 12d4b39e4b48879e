import EcosystemSetup.Proofs.Conduct
import EcosystemSetup.Proofs.StoredObjects

/-!
# Calm clusters

A cluster in memory is calm when no fault waits for any call and no read gives others a turn. Calls on a
calm cluster are answered by its stores, and they leave it calm. In any cluster, calm or not, only an
update of its name changes an object that is there.
-/

namespace EcosystemSetup.Cluster

/-! ## Stores -/

namespace Store

variable {c : Collection} {s : Store c}

/-- A read of a store for which no error waits is answered and counted. -/
theorem countRead_of_nil {α : Type} (h : s.readErrors = []) (answer : Except AccessError α) :
    s.countRead answer = (answer, { s with reads := s.reads + 1 }) := by
  unfold countRead
  dsimp only
  rw [h]

theorem readErrors_watch (selector version : String) :
    (s.watch selector version).2.readErrors = s.readErrors := by
  unfold watch
  dsimp only
  split <;> rfl

theorem readErrors_create (o : Object c) : (s.create o).2.readErrors = s.readErrors := by
  rcases s.create_cases o with ⟨_, h⟩ | ⟨_, h⟩
  · rw [h]
  · rw [h]
    rfl

theorem readErrors_update (o : Object c) : (s.update o).2.readErrors = s.readErrors := by
  rcases s.update_cases o with ⟨_, h⟩ | ⟨_, _, _, _, h⟩ | ⟨_, _, _, h⟩
  · rw [h]
  · rw [h]
  · rw [h]
    rfl

/-- In a filed store, a snapshot has the objects that its selector matches. -/
theorem mem_snapshot (h : s.Filed) {selector : String} {o : Object c} :
    o ∈ (s.snapshot selector).items ↔
      s.object? o.name = some o ∧ selects selector o.labels = true := by
  unfold snapshot object?
  rw [List.mem_filter, List.mem_map]
  apply and_congr_left
  intro _
  constructor
  · rintro ⟨p, hp, rfl⟩
    rw [h.named p hp]
    exact h.sorted.get?_of_mem hp
  · intro ho
    exact ⟨_, Assoc.mem_of_get? ho, rfl⟩

end Store

/-! ## Calls on calm clusters -/

/-- No call finds a fault. -/
def Clear (queue : FaultQueue) : Prop :=
  ∀ fault ∈ queue, fault = none

theorem Clear.tail {queue : FaultQueue} (h : Clear queue) : Clear queue.tail :=
  fun fault hfault => h fault (List.mem_of_mem_tail hfault)

theorem Clear.nextFault {queue : FaultQueue} (h : Clear queue) : Sandbox.nextFault queue = none := by
  cases queue with
  | nil => rfl
  | cons fault rest => exact h fault List.mem_cons_self

/-- No call on the shelf finds a fault, and no read gives others a turn. -/
structure Shelf.Calm {c : Collection} (x : Shelf c) : Prop where
  get : Clear x.faults.get
  list : Clear x.faults.list
  watch : Clear x.faults.watch
  create : Clear x.faults.create
  update : Clear x.faults.update
  reads : x.store.readErrors = []
  prompt : x.yields = false

namespace Sandbox

variable {c : Collection} {s : Sandbox}

/-- Every shelf is calm. -/
def Calm (s : Sandbox) : Prop :=
  ∀ c, (s.shelf c).Calm

/-- A call that finds no fault is answered by its store. -/
theorem faulty_of_clear {α : Type} {queue : FaultQueue} (h : Clear queue)
    (setQueue : Faults → FaultQueue → Faults) (act : Store c → Except AccessError α × Store c) :
    s.faulty queue setQueue act =
      ((act (s.shelf c).store).1,
        s.setShelf c { s.shelf c with
          store := (act (s.shelf c).store).2
          faults := setQueue (s.shelf c).faults queue.tail }) := by
  unfold faulty
  rw [h.nextFault]

theorem Calm.setShelf (h : s.Calm) {x : Shelf c} (hx : x.Calm) : (s.setShelf c x).Calm := by
  intro d
  by_cases hd : d = c
  · subst hd
    rw [shelf_setShelf_self]
    exact hx
  · rw [shelf_setShelf_ne _ hd]
    exact h d

/-- Every call leaves a calm cluster calm. -/
theorem Calm.perform (h : s.Calm) (k : Call) : (perform k s).2.Calm := by
  -- a call takes one entry from one queue of its shelf, and no store puts an error in the way of reads
  cases k with
  | get c name =>
    have hreads := (h c).reads
    rw [Sandbox.perform, faulty_of_clear (h c).get, Store.get, Store.countRead_of_nil hreads]
    exact h.setShelf { h c with get := (h c).get.tail }
  | list c selector =>
    have hreads := (h c).reads
    rw [Sandbox.perform, faulty_of_clear (h c).list, Store.list, Store.countRead_of_nil hreads]
    exact h.setShelf { h c with list := (h c).list.tail }
  | watch c selector version =>
    have hreads := (Store.readErrors_watch selector version).trans (h c).reads
    rw [Sandbox.perform, faulty_of_clear (h c).watch]
    exact h.setShelf { h c with watch := (h c).watch.tail, reads := hreads }
  | create c o =>
    have hreads := (Store.readErrors_create o).trans (h c).reads
    rw [Sandbox.perform, faulty_of_clear (h c).create]
    exact h.setShelf { h c with create := (h c).create.tail, reads := hreads }
  | update c o =>
    have hreads := (Store.readErrors_update o).trans (h c).reads
    rw [Sandbox.perform, faulty_of_clear (h c).update]
    exact h.setShelf { h c with update := (h c).update.tail, reads := hreads }
  | resolve kind => exact h
  | patch kind ns name operations => exact h

/-- A call is answered at once. -/
theorem Calm.not_suspends (h : s.Calm) (k : Call) : suspends k s = false := by
  cases k with
  | get c name => exact (h c).prompt
  | _ => rfl

theorem Calm.list (h : s.Calm) (selector : String) :
    (Sandbox.perform (.list c selector) s).1 = .ok ((s.shelf c).store.snapshot selector) := by
  rw [Sandbox.perform, faulty_of_clear (h c).list, Store.list, Store.countRead_of_nil (h c).reads]

/-! ## What calls leave -/

/-- Only an update of its name changes an object that is there. -/
theorem object?_perform_of_some {name : String} {o : Object c} {k : Call}
    (h : (s.shelf c).store.object? name = some o) (hk : ∀ q, k = .update c q → q.name ≠ name) :
    ((perform k s).2.shelf c).store.object? name = some o := by
  cases k with
  | get d other => exact ((unchanged_get other).object? c name).trans h
  | list d selector => exact ((unchanged_list selector).object? c name).trans h
  | watch d selector version => exact ((unchanged_watch selector version).object? c name).trans h
  | create d q =>
    by_cases hd : c = d
    · subst hd
      -- a creation that succeeds is one under another name
      by_cases hname : name = q.name
      · subst hname
        cases hreply : (perform (.create c q) s).1 with
        | error e => exact ((unchanged_of_create hreply).object? c _).trans h
        | ok r =>
          rw [free_of_create hreply] at h
          simp at h
      · exact ((s.written_create q).object?_ne hname).trans h
    · rw [perform, shelf_faulty_ne hd]
      exact h
  | update d q =>
    by_cases hd : c = d
    · subst hd
      have hname : name ≠ q.name := Ne.symm (hk q rfl)
      exact ((s.written_update q).object?_ne hname).trans h
    · rw [perform, shelf_faulty_ne hd]
      exact h
  | resolve kind => exact h
  | patch kind ns name operations => exact h

/-- The kinds that are served, and the names that no patch finds, stay. -/
theorem hub_perform (s : Sandbox) (k : Call) :
    (perform k s).2.hub.kinds = s.hub.kinds ∧ (perform k s).2.hub.failing = s.hub.failing := by
  cases k with
  | resolve kind => exact ⟨rfl, rfl⟩
  | patch kind ns name operations =>
    -- a patch is recorded, whether or not it finds its resource
    show (s.hub.patch kind ns name operations).2.kinds = s.hub.kinds ∧
      (s.hub.patch kind ns name operations).2.failing = s.hub.failing
    unfold Hub.patch
    dsimp only
    split <;> exact ⟨rfl, rfl⟩
  | _ =>
    rw [perform, hub_faulty]
    exact ⟨rfl, rfl⟩

end Sandbox

end EcosystemSetup.Cluster

import EcosystemSetup.Proofs.CalmClusters

/-!
# Clusters without faults

A cluster in memory is without faults when no error waits for a read of an object, a creation or an
update; unlike a calm one it may give others a turn, and its watches may fail. Such a call is answered by
its store: a creation stores its object under a free name and changes nothing under one that is taken, and
an update at the version of the object that is there replaces it. No object of another name changes.
-/

namespace EcosystemSetup.Cluster

/-! ## Shelves without faults -/

/-- No fault waits for a read of an object, a creation or an update, and no error for a read. -/
structure Shelf.Faultless {c : Collection} (x : Shelf c) : Prop where
  get : Clear x.faults.get
  create : Clear x.faults.create
  update : Clear x.faults.update
  reads : x.store.readErrors = []

theorem Shelf.Calm.faultless {c : Collection} {x : Shelf c} (h : x.Calm) : x.Faultless :=
  ⟨h.get, h.create, h.update, h.reads⟩

namespace Sandbox

variable {c : Collection} {s t u : Sandbox}

/-- A cluster whose shelves are all without faults, and whose objects are kept under their names. -/
structure Faultless (s : Sandbox) : Prop where
  filed : s.Filed
  shelf : ∀ c, (s.shelf c).Faultless

/-! ## What may differ -/

/-- Two clusters with the same stores and the same hub; how many entries are left in the queues of faults
does not count. -/
structure SameContent (s t : Sandbox) : Prop where
  stores : ∀ c, (t.shelf c).store = (s.shelf c).store
  hub : t.hub = s.hub

/-- Only the object of one name may differ. -/
structure DiffersAt (c : Collection) (name : String) (s t : Sandbox) : Prop where
  others : ∀ other, other ≠ name → (t.shelf c).store.object? other = (s.shelf c).store.object? other
  elsewhere : ∀ d, d ≠ c → (t.shelf d).store = (s.shelf d).store
  hub : t.hub = s.hub

theorem DiffersAt.trans {name : String} (h₁ : DiffersAt c name s t) (h₂ : DiffersAt c name t u) :
    DiffersAt c name s u where
  others other hother := (h₂.others other hother).trans (h₁.others other hother)
  elsewhere d hd := (h₂.elsewhere d hd).trans (h₁.elsewhere d hd)
  hub := h₂.hub.trans h₁.hub

theorem SameContent.differsAt (h : SameContent s t) (c : Collection) (name : String) :
    DiffersAt c name s t where
  others other _ := by rw [h.stores]
  elsewhere d _ := h.stores d
  hub := h.hub

/-- An object elsewhere, or of another name, is the same. -/
theorem DiffersAt.object?_eq {d : Collection} {name other : String} (h : DiffersAt c name s t)
    (hne : ¬ (d = c ∧ other = name)) :
    (t.shelf d).store.object? other = (s.shelf d).store.object? other := by
  by_cases hd : d = c
  · subst hd
    exact h.others other fun hother => hne ⟨rfl, hother⟩
  · rw [h.elsewhere d hd]

/-! ## Calls -/

/-- A call that finds no fault leaves none, if its queue and its store leave none. -/
theorem Faultless.faulty {α : Type} (h : s.Faultless) {queue : FaultQueue} (hqueue : Clear queue)
    {setQueue : Faults → FaultQueue → Faults} {act : Store c → Except AccessError α × Store c}
    (hfiled : (s.faulty queue setQueue act).2.Filed)
    (hshelf : Shelf.Faultless { s.shelf c with
      store := (act (s.shelf c).store).2
      faults := setQueue (s.shelf c).faults queue.tail }) :
    (s.faulty queue setQueue act).2.Faultless := by
  refine ⟨hfiled, ?_⟩
  rw [faulty_of_clear hqueue]
  intro d
  by_cases hd : d = c
  · subst hd
    rw [shelf_setShelf_self]
    exact hshelf
  · rw [shelf_setShelf_ne _ hd]
    exact h.shelf d

/-- A call on one store leaves the others and the hub. -/
theorem differsAt_faulty {α : Type} {queue : FaultQueue} {setQueue : Faults → FaultQueue → Faults}
    {act : Store c → Except AccessError α × Store c} {name : String}
    (h : ∀ other, other ≠ name →
      ((s.faulty queue setQueue act).2.shelf c).store.object? other =
        (s.shelf c).store.object? other) :
    DiffersAt c name s (s.faulty queue setQueue act).2 where
  others := h
  elsewhere d hd := by rw [shelf_faulty_ne hd]
  hub := hub_faulty s queue setQueue act

/-- A write has stored an object under its name: what it answers, and what it leaves. -/
structure Stored (o : Object c) (s : Sandbox) (r : Except AccessError (Object c) × Sandbox) :
    Prop where
  answer : r.1 = .ok ((s.shelf c).store.stamped o)
  faultless : r.2.Faultless
  own : (r.2.shelf c).store.object? o.name = some ((s.shelf c).store.stamped o)
  frame : DiffersAt c o.name s r.2

/-- A write that its store lets through has stored the object. -/
theorem stored_faulty {o : Object c} {queue : FaultQueue} (hqueue : Clear queue)
    {setQueue : Faults → FaultQueue → Faults}
    {act : Store c → Except AccessError (Object c) × Store c}
    (hact : Store.Written (s.shelf c).store o (act (s.shelf c).store))
    (hok : (act (s.shelf c).store).1 = .ok ((s.shelf c).store.stamped o))
    (hfaultless : (s.faulty queue setQueue act).2.Faultless) :
    Stored o s (s.faulty queue setQueue act) := by
  have hanswer : (s.faulty queue setQueue act).1 = .ok ((s.shelf c).store.stamped o) := by
    rw [faulty_of_clear hqueue]
    exact hok
  have hwritten := written_faulty queue setQueue hact
  exact ⟨hanswer, hfaultless, hwritten.object?_self hanswer,
    differsAt_faulty fun other hother => hwritten.object?_ne hother⟩

namespace Faultless

/-- A read of an object gives what is there. -/
theorem answer_get (h : s.Faultless) (name : String) :
    (perform (.get c name) s).1 = (s.shelf c).store.lookUp name := by
  rw [perform, faulty_of_clear (h.shelf c).get, Store.get, Store.countRead_of_nil (h.shelf c).reads]

theorem get (h : s.Faultless) (name : String) : (perform (.get c name) s).2.Faultless := by
  have hshelf := h.shelf c
  -- the read is counted, and nothing is put in the way of the next one
  have hreads : ((s.shelf c).store.get name).2.readErrors = [] := by
    rw [Store.get, Store.countRead_of_nil hshelf.reads]
    exact hshelf.reads
  exact h.faulty hshelf.get (h.filed.perform (.get c name))
    { hshelf with get := hshelf.get.tail, reads := hreads }

theorem create (h : s.Faultless) (o : Object c) : (perform (.create c o) s).2.Faultless := by
  have hshelf := h.shelf c
  have hreads := (Store.readErrors_create o).trans hshelf.reads
  exact h.faulty hshelf.create (h.filed.perform (.create c o))
    { hshelf with create := hshelf.create.tail, reads := hreads }

theorem update (h : s.Faultless) (o : Object c) : (perform (.update c o) s).2.Faultless := by
  have hshelf := h.shelf c
  have hreads := (Store.readErrors_update o).trans hshelf.reads
  exact h.faulty hshelf.update (h.filed.perform (.update c o))
    { hshelf with update := hshelf.update.tail, reads := hreads }

/-- A creation under a name that is taken is refused and changes nothing. -/
theorem create_held (h : s.Faultless) {o held : Object c}
    (hheld : (s.shelf c).store.object? o.name = some held) :
    (perform (.create c o) s).1 = .error (.alreadyExists o.name) ∧
      SameContent s (perform (.create c o) s).2 := by
  have hcreate : (s.shelf c).store.create o =
      (.error (.alreadyExists o.name), (s.shelf c).store) := by
    rw [Store.create, hheld]
  -- the store gives itself back, so only the queue of faults has moved on
  refine ⟨?_, ?_, hub_faulty _ _ _ _⟩
  · rw [perform, faulty_of_clear (h.shelf c).create, hcreate]
  · intro d
    by_cases hd : d = c
    · subst hd
      rw [perform, faulty_of_clear (h.shelf d).create, shelf_setShelf_self, hcreate]
    · rw [perform, shelf_faulty_ne hd]

/-- A creation under a free name stores the object. -/
theorem create_free (h : s.Faultless) {o : Object c}
    (hfree : (s.shelf c).store.object? o.name = none) :
    Stored o s (perform (.create c o) s) := by
  refine stored_faulty (h.shelf c).create (Store.written_create _ o) ?_ (h.create o)
  rw [Store.create, hfree]

/-- An update at the version of the object that is there stores the new one. -/
theorem update_held (h : s.Faultless) {o held : Object c}
    (hheld : (s.shelf c).store.object? o.name = some held)
    (hversion : o.metadata.resourceVersion = held.metadata.resourceVersion) :
    Stored o s (perform (.update c o) s) := by
  refine stored_faulty (h.shelf c).update (Store.written_update _ o) ?_ (h.update o)
  rw [Store.update_of_fresh hheld (Store.staleness?_of_version_eq hversion)]

end Faultless

end Sandbox

end EcosystemSetup.Cluster

import EcosystemSetup.Cluster.Sandbox
import EcosystemSetup.Proofs.KeyOrder

/-!
# What a cluster in memory holds

A store is filed when its objects stand in name order, each under its own name; every operation keeps it
filed. Reading and watching leave the objects alone, and so does a write that fails, be it by a fault or
by the store itself. A write that succeeds changes the object of its name and no other.
-/

namespace EcosystemSetup.Cluster

/-! ## Versions -/

/-- Different numbers have different texts. -/
theorem eq_of_toString_eq {m n : Nat} (h : toString m = toString n) : m = n := by
  have hread : ∀ k : Nat, Nat.ofDigitChars 10 (toString k).toList 0 = k := by
    intro k
    rw [Nat.toString_eq_repr, Nat.toList_repr, Nat.ofDigitChars_ten_toDigits]
  rw [← hread m, h, hread n]

/-! ## Stores -/

namespace Store

variable {c : Collection} {s : Store c}

/-- The objects stand in name order, each under its own name. -/
structure Filed (s : Store c) : Prop where
  sorted : Assoc.Sorted s.objects
  named : ∀ p ∈ s.objects, p.2.name = p.1

theorem filed_empty : ({} : Store c).Filed where
  sorted := Assoc.sorted_nil
  named := by simp

/-- Filing an object under its name keeps a store filed. -/
theorem Filed.set (h : s.Filed) {t : Store c} {o : Object c} {name : String}
    (ht : t.objects = Assoc.set name o s.objects) (hname : o.name = name) : t.Filed where
  sorted := by
    rw [ht]
    exact h.sorted.set _ _
  named := by
    rw [ht]
    intro p hp
    -- the new entry, or one that was there
    rcases Assoc.mem_of_mem_set hp with rfl | hp
    · exact hname
    · exact h.named p hp

theorem Filed.of_objects (h : s.Filed) {t : Store c} (ht : t.objects = s.objects) : t.Filed where
  sorted := ht ▸ h.sorted
  named := ht ▸ h.named

theorem Filed.insert (h : s.Filed) (o : Object c) : (s.insert o).Filed :=
  h.set rfl rfl

/-- The object under a name bears that name. -/
theorem Filed.name_eq (h : s.Filed) {name : String} {o : Object c}
    (ho : s.object? name = some o) : o.name = name :=
  h.named (name, o) (Assoc.mem_of_get? ho)

theorem object?_congr {t : Store c} (h : t.objects = s.objects) (name : String) :
    t.object? name = s.object? name := by
  unfold object?
  rw [h]

/-! ### Reads -/

@[simp] theorem objects_countRead {α : Type} (answer : Except AccessError α) :
    (s.countRead answer).2.objects = s.objects := by
  unfold countRead
  dsimp only
  split <;> rfl

@[simp] theorem revision_countRead {α : Type} (answer : Except AccessError α) :
    (s.countRead answer).2.revision = s.revision := by
  unfold countRead
  dsimp only
  split <;> rfl

@[simp] theorem objects_get (name : String) : (s.get name).2.objects = s.objects :=
  objects_countRead _

@[simp] theorem objects_list (selector : String) : (s.list selector).2.objects = s.objects :=
  objects_countRead _

@[simp] theorem objects_watch (selector version : String) :
    (s.watch selector version).2.objects = s.objects := by
  unfold watch
  dsimp only
  split <;> rfl

@[simp] theorem revision_watch (selector version : String) :
    (s.watch selector version).2.revision = s.revision := by
  unfold watch
  dsimp only
  split <;> rfl

/-- A read gets its answer if no error waits for it. -/
theorem answer_countRead {α : Type} (answer : Except AccessError α) :
    (s.readErrors = [] ∧ (s.countRead answer).1 = answer) ∨
      ∃ e rest, s.readErrors = e :: rest ∧ (s.countRead answer).1 = .error e := by
  unfold countRead
  dsimp only
  cases hreads : s.readErrors with
  | nil => exact Or.inl ⟨rfl, rfl⟩
  | cons e rest => exact Or.inr ⟨e, rest, rfl, rfl⟩

/-- A read that succeeds gives the object of the name. -/
theorem object?_of_get {name : String} {o : Object c} (h : (s.get name).1 = .ok o) :
    s.object? name = some o := by
  unfold get at h
  rcases answer_countRead (s := s) (s.lookUp name) with ⟨_, hanswer⟩ | ⟨e, _, _, hanswer⟩
  · rw [hanswer] at h
    unfold lookUp at h
    split at h
    · rename_i hobject
      rw [Except.ok.injEq] at h
      rw [hobject, h]
    · simp at h
  · simp [hanswer] at h

/-! ### Writes -/

/-- A creation adds the object under its name, which must be free, or it changes nothing. -/
theorem create_cases (s : Store c) (o : Object c) :
    ((∃ held, s.object? o.name = some held) ∧
        s.create o = (.error (.alreadyExists o.name), s)) ∨
      (s.object? o.name = none ∧ s.create o =
        (.ok (s.stamped o), { s.write o with created := s.created ++ [s.stamped o] })) := by
  unfold create
  cases hobject : s.object? o.name with
  | some held => exact Or.inl ⟨⟨held, rfl⟩, rfl⟩
  | none => exact Or.inr ⟨rfl, rfl⟩

/-- An update replaces the object of its name, which must be there and not be stale, or it changes
nothing. -/
theorem update_cases (s : Store c) (o : Object c) :
    (s.object? o.name = none ∧ s.update o = (.error (.notFound o.name), s)) ∨
      (∃ held detail, s.object? o.name = some held ∧ staleness? o held = some detail ∧
        s.update o = (.error (.conflict o.name detail), s)) ∨
      ∃ held, s.object? o.name = some held ∧ staleness? o held = none ∧ s.update o =
        (.ok (s.stamped o), { s.write o with updated := s.updated ++ [s.stamped o] }) := by
  unfold update
  cases hobject : s.object? o.name with
  | none => exact Or.inl ⟨rfl, rfl⟩
  | some held =>
    dsimp only
    cases hstale : staleness? o held with
    | some detail => exact Or.inr (Or.inl ⟨held, detail, rfl, hstale, rfl⟩)
    | none => exact Or.inr (Or.inr ⟨held, rfl, hstale, rfl⟩)

/-- An object at the version of the one that is held is not stale. -/
theorem staleness?_of_version_eq {sent held : Object c}
    (h : sent.metadata.resourceVersion = held.metadata.resourceVersion) :
    staleness? sent held = none := by
  unfold staleness?
  rw [h]
  cases held.metadata.resourceVersion with
  | none => rfl
  | some version => simp

/-- An object at a version that is not the one that is held is stale. -/
theorem staleness?_of_version_ne {sent held : Object c} {v u : String}
    (hsent : sent.metadata.resourceVersion = some v)
    (hheld : held.metadata.resourceVersion = some u) (h : v ≠ u) :
    ∃ detail, staleness? sent held = some detail := by
  unfold staleness?
  rw [hsent, hheld]
  dsimp only
  rw [if_neg h]
  exact ⟨_, rfl⟩

/-- An update of an object that is there gets through if it is not stale. -/
theorem update_of_fresh {o held : Object c} (hheld : s.object? o.name = some held)
    (hfresh : staleness? o held = none) : s.update o =
      (.ok (s.stamped o), { s.write o with updated := s.updated ++ [s.stamped o] }) := by
  unfold update
  rw [hheld]
  dsimp only
  rw [hfresh]

/-- A stale update of an object that is there is in conflict with it. -/
theorem update_of_stale {o held : Object c} {detail : String}
    (hheld : s.object? o.name = some held) (hstale : staleness? o held = some detail) :
    s.update o = (.error (.conflict o.name detail), s) := by
  unfold update
  rw [hheld]
  dsimp only
  rw [hstale]

/-- What a write does to a store: nothing, with an error, or it files the stamped object. -/
inductive Written (s : Store c) (o : Object c) :
    Except AccessError (Object c) × Store c → Prop where
  | failed {e : AccessError} : Written s o (.error e, s)
  | filed {t : Store c} (objects : t.objects = (s.write o).objects)
      (revision : t.revision = s.revision + 1) : Written s o (.ok (s.stamped o), t)

theorem written_create (s : Store c) (o : Object c) : Written s o (s.create o) := by
  rcases s.create_cases o with ⟨_, h⟩ | ⟨_, h⟩
  · exact h ▸ .failed
  · exact h ▸ .filed rfl rfl

theorem written_update (s : Store c) (o : Object c) : Written s o (s.update o) := by
  rcases s.update_cases o with ⟨_, h⟩ | ⟨_, _, _, _, h⟩ | ⟨_, _, _, h⟩
  · exact h ▸ .failed
  · exact h ▸ .failed
  · exact h ▸ .filed rfl rfl

namespace Written

variable {o : Object c} {r : Except AccessError (Object c) × Store c}

theorem keeps_filed (h : Written s o r) (hs : s.Filed) : r.2.Filed := by
  cases h with
  | failed => exact hs
  | filed objects => exact hs.set objects rfl

/-- The objects of other names stay. -/
theorem object?_ne (h : Written s o r) {name : String} (hname : name ≠ o.name) :
    r.2.object? name = s.object? name := by
  cases h with
  | failed => rfl
  | filed objects =>
    have hwrite := object?_write_ne s o hname
    unfold object? at hwrite ⊢
    rw [objects]
    exact hwrite

theorem revision_le (h : Written s o r) : s.revision ≤ r.2.revision := by
  cases h with
  | failed => exact Nat.le_refl _
  | filed _ revision => simp [revision]

/-- A write that fails leaves the store as it is. -/
theorem eq_of_error (h : Written s o r) {e : AccessError} (he : r.1 = .error e) : r.2 = s := by
  cases h with
  | failed => rfl
  | filed => simp at he

/-- A write that succeeds leaves the stamped object under its name. -/
theorem object?_self (h : Written s o r) {q : Object c} (hq : r.1 = .ok q) :
    r.2.object? o.name = some (s.stamped o) := by
  cases h with
  | failed => simp at hq
  | filed objects =>
    have hwrite := object?_write_self s o
    unfold object? at hwrite ⊢
    rw [objects]
    exact hwrite

end Written

end Store

/-! ## Sandboxes -/

namespace Sandbox

variable {c : Collection} {s : Sandbox}

/-- Every store is filed. -/
def Filed (s : Sandbox) : Prop :=
  ∀ c, (s.shelf c).store.Filed

/-- A call on a store is answered by a fault, or by the store. -/
theorem faulty_cases {α : Type} (s : Sandbox) (queue : FaultQueue)
    (setQueue : Faults → FaultQueue → Faults)
    (act : Store c → Except AccessError α × Store c) :
    ((∃ e, (s.faulty queue setQueue act).1 = .error e) ∧
        ((s.faulty queue setQueue act).2.shelf c).store = (s.shelf c).store) ∨
      (s.faulty queue setQueue act).1 = (act (s.shelf c).store).1 ∧
        ((s.faulty queue setQueue act).2.shelf c).store = (act (s.shelf c).store).2 := by
  unfold faulty
  dsimp only
  split
  · exact Or.inl ⟨⟨_, rfl⟩, by simp⟩
  · exact Or.inr ⟨rfl, by simp⟩

/-- A call on one store leaves the others. -/
theorem shelf_faulty_ne {α : Type} {d : Collection} (h : d ≠ c) (s : Sandbox) (queue : FaultQueue)
    (setQueue : Faults → FaultQueue → Faults)
    (act : Store c → Except AccessError α × Store c) :
    (s.faulty queue setQueue act).2.shelf d = s.shelf d := by
  unfold faulty
  dsimp only
  split <;> simp [h]

theorem hub_faulty {α : Type} (s : Sandbox) (queue : FaultQueue)
    (setQueue : Faults → FaultQueue → Faults)
    (act : Store c → Except AccessError α × Store c) :
    (s.faulty queue setQueue act).2.hub = s.hub := by
  unfold faulty
  dsimp only
  split <;> simp

/-- Whatever one call does to its store, a property of stores that the store's own answer and a fault
keep holds of every store after it. -/
theorem forall_shelf_faulty {α : Type} {P : (d : Collection) → Store d → Store d → Prop}
    (hrefl : ∀ d x, P d x x) (s : Sandbox) (queue : FaultQueue)
    (setQueue : Faults → FaultQueue → Faults)
    (act : Store c → Except AccessError α × Store c)
    (hact : P c (s.shelf c).store (act (s.shelf c).store).2) (d : Collection) :
    P d (s.shelf d).store ((s.faulty queue setQueue act).2.shelf d).store := by
  by_cases hd : d = c
  · subst hd
    rcases s.faulty_cases queue setQueue act with ⟨_, h⟩ | ⟨_, h⟩
    · exact h ▸ hrefl _ _
    · exact h ▸ hact
  · rw [shelf_faulty_ne hd]
    exact hrefl _ _

/-- Every call keeps a sandbox filed. -/
theorem Filed.perform (h : s.Filed) (k : Call) : (perform k s).2.Filed := by
  -- every call on a store passes its faults, so one argument serves all of them
  have hkeep : ∀ {c : Collection} {α : Type} (queue : FaultQueue)
      (setQueue : Faults → FaultQueue → Faults)
      (act : Store c → Except AccessError α × Store c),
      ((s.shelf c).store.Filed → (act (s.shelf c).store).2.Filed) →
      (s.faulty queue setQueue act).2.Filed := by
    intro c α queue setQueue act hact d
    exact forall_shelf_faulty (P := fun _ x y => x.Filed → y.Filed) (fun _ _ hx => hx) s queue
      setQueue act hact d (h d)
  cases k with
  | get c name => exact hkeep _ _ _ fun hs => hs.of_objects (Store.objects_get name)
  | list c selector => exact hkeep _ _ _ fun hs => hs.of_objects (Store.objects_list selector)
  | watch c selector version =>
    exact hkeep _ _ _ fun hs => hs.of_objects (Store.objects_watch selector version)
  | create c o => exact hkeep _ _ _ fun hs => (Store.written_create _ o).keeps_filed hs
  | update c o => exact hkeep _ _ _ fun hs => (Store.written_update _ o).keeps_filed hs
  | resolve kind => exact h
  | patch kind ns name operations => exact h

/-- A read on a filed sandbox gives the object of the name that was asked for. -/
theorem Filed.name_of_get (h : s.Filed) {name : String} {o : Object c}
    (ho : (Sandbox.perform (.get c name) s).1 = .ok o) :
    (s.shelf c).store.object? name = some o ∧ o.name = name := by
  have hget : (s.shelf c).store.object? name = some o := by
    rcases faulty_cases (c := c) s (s.shelf c).faults.get (fun f q => { f with get := q })
        (fun x => x.get name) with ⟨⟨e, he⟩, _⟩ | ⟨hanswer, _⟩
    · rw [Sandbox.perform, he] at ho
      simp at ho
    · rw [Sandbox.perform, hanswer] at ho
      exact Store.object?_of_get ho
  exact ⟨hget, (h c).name_eq hget⟩

/-! ### Frames -/

/-- No object and no patch has changed. -/
structure Unchanged (s t : Sandbox) : Prop where
  objects : ∀ c, (t.shelf c).store.objects = (s.shelf c).store.objects
  patches : t.hub.patches = s.hub.patches

theorem Unchanged.trans {t u : Sandbox} (h₁ : Unchanged s t) (h₂ : Unchanged t u) :
    Unchanged s u :=
  ⟨fun c => (h₂.objects c).trans (h₁.objects c), h₂.patches.trans h₁.patches⟩

theorem Unchanged.object? {t : Sandbox} (h : Unchanged s t) (c : Collection) (name : String) :
    (t.shelf c).store.object? name = (s.shelf c).store.object? name :=
  Store.object?_congr (h.objects c) name

/-- A call that leaves the objects of its store leaves all. -/
theorem unchanged_faulty {α : Type} (queue : FaultQueue) (setQueue : Faults → FaultQueue → Faults)
    (act : Store c → Except AccessError α × Store c)
    (hact : (act (s.shelf c).store).2.objects = (s.shelf c).store.objects) :
    Unchanged s (s.faulty queue setQueue act).2 where
  objects := forall_shelf_faulty (P := fun _ x y => y.objects = x.objects) (fun _ _ => rfl) s queue
    setQueue act hact
  patches := by rw [hub_faulty]

theorem unchanged_get (name : String) : Unchanged s (perform (.get c name) s).2 :=
  unchanged_faulty _ _ _ (Store.objects_get name)

theorem unchanged_list (selector : String) : Unchanged s (perform (.list c selector) s).2 :=
  unchanged_faulty _ _ _ (Store.objects_list selector)

theorem unchanged_watch (selector version : String) :
    Unchanged s (perform (.watch c selector version) s).2 :=
  unchanged_faulty _ _ _ (Store.objects_watch selector version)

/-! ### Writes -/

/-- What a faulty write does to its store. -/
theorem written_faulty {o : Object c} (queue : FaultQueue)
    (setQueue : Faults → FaultQueue → Faults)
    {act : Store c → Except AccessError (Object c) × Store c}
    (hact : Store.Written (s.shelf c).store o (act (s.shelf c).store)) :
    Store.Written (s.shelf c).store o ((s.faulty queue setQueue act).1,
      ((s.faulty queue setQueue act).2.shelf c).store) := by
  rcases s.faulty_cases queue setQueue act with ⟨⟨e, he⟩, hstore⟩ | ⟨hanswer, hstore⟩
  · rw [he, hstore]
    exact .failed
  · rw [hanswer, hstore]
    exact hact

theorem written_create (s : Sandbox) (o : Object c) :
    Store.Written (s.shelf c).store o
      ((perform (.create c o) s).1, ((perform (.create c o) s).2.shelf c).store) :=
  written_faulty _ _ (Store.written_create _ o)

theorem written_update (s : Sandbox) (o : Object c) :
    Store.Written (s.shelf c).store o
      ((perform (.update c o) s).1, ((perform (.update c o) s).2.shelf c).store) :=
  written_faulty _ _ (Store.written_update _ o)

/-- A creation succeeds only under a free name. -/
theorem free_of_create {o q : Object c} (h : (perform (.create c o) s).1 = .ok q) :
    (s.shelf c).store.object? o.name = none := by
  rcases faulty_cases (c := c) s (s.shelf c).faults.create (fun f q => { f with create := q })
      (fun x => x.create o) with ⟨⟨e, he⟩, _⟩ | ⟨hanswer, _⟩
  · rw [perform, he] at h
    simp at h
  · rw [perform, hanswer] at h
    rcases (s.shelf c).store.create_cases o with ⟨_, hcreate⟩ | ⟨hfree, _⟩
    · simp [hcreate] at h
    · exact hfree

/-- A write that fails changes nothing. -/
theorem unchanged_of_error {o : Object c} {queue : FaultQueue}
    {setQueue : Faults → FaultQueue → Faults}
    {act : Store c → Except AccessError (Object c) × Store c} {e : AccessError}
    (hact : Store.Written (s.shelf c).store o (act (s.shelf c).store))
    (he : (s.faulty queue setQueue act).1 = .error e) :
    Unchanged s (s.faulty queue setQueue act).2 where
  objects := by
    intro d
    -- the store of the call gave an error, and the other stores were not asked
    by_cases hd : d = c
    · subst hd
      have hstore := (written_faulty queue setQueue hact).eq_of_error he
      exact congrArg Store.objects hstore
    · rw [shelf_faulty_ne hd]
  patches := by rw [hub_faulty]

theorem unchanged_of_create {o : Object c} {e : AccessError}
    (h : (perform (.create c o) s).1 = .error e) : Unchanged s (perform (.create c o) s).2 :=
  unchanged_of_error (Store.written_create _ o) h

theorem unchanged_of_update {o : Object c} {e : AccessError}
    (h : (perform (.update c o) s).1 = .error e) : Unchanged s (perform (.update c o) s).2 :=
  unchanged_of_error (Store.written_update _ o) h

end Sandbox

end EcosystemSetup.Cluster

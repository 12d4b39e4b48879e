import EcosystemSetup.Proofs.CalmClusters
import Mathlib.Data.List.Induction

/-!
# Optimistic locking

Clients read the objects of a store and write them back at the version that they have read. However
the accesses of any number of clients follow one another, on a store that has been empty: each write is
stamped with a number above all that were handed out before, so an update at the version of an object
that was handed out succeeds exactly while no other update of that object has come in between.

Objects are never removed, so an object that was handed out still has an entry under its name: itself,
or a later one with a greater number.
-/

namespace EcosystemSetup.Cluster

variable {c : Collection}

/-! ## Accesses -/

/-- What a client asks of a store. -/
inductive Action (c : Collection) where
  | get (name : String)
  | list (selector : String)
  | create (o : Object c)
  | update (o : Object c)

/-- What a client has asked of a store, with the answer. -/
inductive Access (c : Collection) where
  | got (name : String) (answer : Except AccessError (Object c))
  | listed (selector : String) (answer : Except AccessError (Snapshot c))
  | created (o : Object c) (answer : Except AccessError (Object c))
  | updated (o : Object c) (answer : Except AccessError (Object c))

namespace Access

/-- The objects that an answer hands out. -/
def objects : Access c → List (Object c)
  | got _ (.ok o) => [o]
  | listed _ (.ok snapshot) => snapshot.items
  | created _ (.ok o) => [o]
  | updated _ (.ok o) => [o]
  | _ => []

/-- The versions that an answer hands out: those of its objects, and that of a list. -/
def versions (x : Access c) : List String :=
  let own := x.objects.filterMap fun o => o.metadata.resourceVersion
  match x with
  | listed _ (.ok snapshot) => snapshot.version :: own
  | _ => own

/-- The object that a write has stored, if it has succeeded. -/
def written? : Access c → Option (Object c)
  | created _ (.ok o) => some o
  | updated _ (.ok o) => some o
  | _ => none

/-- An update of the object of a name, that has succeeded. -/
def Updates (name : String) (x : Access c) : Prop :=
  ∃ o q, x = .updated o (.ok q) ∧ o.name = name

/-- An access that has failed. -/
def Fails : Access c → Prop
  | got _ answer => ∃ e, answer = .error e
  | listed _ answer => ∃ e, answer = .error e
  | created _ answer => ∃ e, answer = .error e
  | updated _ answer => ∃ e, answer = .error e

section Objects

variable {p : Object c} {answer : Except AccessError (Object c)}

theorem mem_objects_got {name : String} : p ∈ (got name answer).objects ↔ answer = .ok p := by
  cases answer <;> simp [objects, eq_comm]

theorem mem_objects_created {o : Object c} : p ∈ (created o answer).objects ↔ answer = .ok p := by
  cases answer <;> simp [objects, eq_comm]

theorem mem_objects_updated {o : Object c} : p ∈ (updated o answer).objects ↔ answer = .ok p := by
  cases answer <;> simp [objects, eq_comm]

theorem mem_objects_listed {selector : String} {answer : Except AccessError (Snapshot c)} :
    p ∈ (listed selector answer).objects ↔ ∃ snapshot, answer = .ok snapshot ∧ p ∈ snapshot.items := by
  cases answer <;> simp [objects]

end Objects

end Access

/-- The last object that was stored under a name. -/
def lastWritten (log : List (Access c)) (name : String) : Option (Object c) :=
  ((log.filterMap Access.written?).filter fun o => o.name = name).getLast?

theorem lastWritten_snoc_none {log : List (Access c)} {x : Access c} (h : x.written? = none)
    (name : String) : lastWritten (log ++ [x]) name = lastWritten log name := by
  simp [lastWritten, List.filterMap_append, h]

theorem lastWritten_snoc_self {log : List (Access c)} {x : Access c} {o : Object c}
    (h : x.written? = some o) : lastWritten (log ++ [x]) o.name = some o := by
  simp [lastWritten, List.filterMap_append, h]

theorem lastWritten_snoc_ne {log : List (Access c)} {x : Access c} {o : Object c} {name : String}
    (h : x.written? = some o) (hname : name ≠ o.name) :
    lastWritten (log ++ [x]) name = lastWritten log name := by
  simp [lastWritten, List.filterMap_append, h, hname.symm]

namespace Store

variable {s t : Store c} {log : List (Access c)}

/-! ## One access -/

/-- Serves a client. -/
def serve (s : Store c) : Action c → Access c × Store c
  | .get name => (.got name (s.get name).1, (s.get name).2)
  | .list selector => (.listed selector (s.list selector).1, (s.list selector).2)
  | .create o => (.created o (s.create o).1, (s.create o).2)
  | .update o => (.updated o (s.update o).1, (s.update o).2)

/-- What an access does to a store: it keeps all that is stored and recorded, or it stores a stamped
object, under a free name or in place of another. -/
inductive Served (s : Store c) : Access c → Store c → Prop where
  | kept {x : Access c} {t : Store c} (unwritten : x.written? = none)
      (objects : t.objects = s.objects) (revision : t.revision = s.revision)
      (created : t.created = s.created) (updated : t.updated = s.updated) : Served s x t
  | created {o : Object c} {t : Store c} (free : s.object? o.name = none)
      (objects : t.objects = (s.write o).objects) (revision : t.revision = s.revision + 1) :
      Served s (.created o (.ok (s.stamped o))) t
  | updated {o held : Object c} {t : Store c} (found : s.object? o.name = some held)
      (objects : t.objects = (s.write o).objects) (revision : t.revision = s.revision + 1) :
      Served s (.updated o (.ok (s.stamped o))) t

theorem records_countRead {α : Type} (answer : Except AccessError α) :
    (s.countRead answer).2.created = s.created ∧ (s.countRead answer).2.updated = s.updated := by
  unfold countRead
  dsimp only
  split <;> exact ⟨rfl, rfl⟩

theorem served_serve (s : Store c) (a : Action c) : Served s (s.serve a).1 (s.serve a).2 := by
  cases a with
  | get name =>
    have hrecords := records_countRead (s := s) (s.lookUp name)
    exact .kept rfl (objects_get name) (revision_countRead _) hrecords.1 hrecords.2
  | list selector =>
    have hrecords := records_countRead (s := s) (.ok (s.snapshot selector))
    exact .kept rfl (objects_list selector) (revision_countRead _) hrecords.1 hrecords.2
  | create o =>
    rcases s.create_cases o with ⟨_, h⟩ | ⟨hfree, h⟩
    · rw [serve, h]
      exact .kept rfl rfl rfl rfl rfl
    · rw [serve, h]
      exact .created hfree rfl rfl
  | update o =>
    rcases s.update_cases o with ⟨_, h⟩ | ⟨_, _, _, _, h⟩ | ⟨held, hfound, _, h⟩
    · rw [serve, h]
      exact .kept rfl rfl rfl rfl rfl
    · rw [serve, h]
      exact .kept rfl rfl rfl rfl rfl
    · rw [serve, h]
      exact .updated hfound rfl rfl

/-! ### The objects after an access -/

theorem object?_of_objects_write {o : Object c} (h : t.objects = (s.write o).objects) :
    t.object? o.name = some (s.stamped o) := by
  rw [object?_congr h]
  exact object?_write_self s o

theorem object?_of_objects_write_ne {o : Object c} (h : t.objects = (s.write o).objects)
    {name : String} (hname : name ≠ o.name) : t.object? name = s.object? name := by
  rw [object?_congr h]
  exact object?_write_ne s o hname

namespace Served

variable {x : Access c}

/-- An access that stores an object files it under its name and leaves the others. -/
theorem of_written {q : Object c} (h : Served s x t) (hq : x.written? = some q) :
    ∃ o, q = s.stamped o ∧ t.objects = (s.write o).objects ∧ t.revision = s.revision + 1 := by
  cases h with
  | kept unwritten =>
    rw [unwritten] at hq
    cases hq
  | created free objects revision => exact ⟨_, (Option.some.inj hq).symm, objects, revision⟩
  | updated found objects revision => exact ⟨_, (Option.some.inj hq).symm, objects, revision⟩

theorem of_unwritten (h : Served s x t) (hx : x.written? = none) :
    t.objects = s.objects ∧ t.revision = s.revision := by
  cases h with
  | kept unwritten objects revision => exact ⟨objects, revision⟩
  | created => cases hx
  | updated => cases hx

theorem revision_le (h : Served s x t) : s.revision ≤ t.revision := by
  cases h with
  | kept _ _ revision => exact revision.ge
  | created _ _ revision => omega
  | updated _ _ revision => omega

theorem keeps_filed (h : Served s x t) (hs : s.Filed) : t.Filed := by
  cases h with
  | kept _ objects => exact hs.of_objects objects
  | created _ objects => exact hs.set objects rfl
  | updated _ objects => exact hs.set objects rfl

/-- Only an update of its name changes an object that is there. -/
theorem object?_of_some {name : String} {p : Object c} (h : Served s x t)
    (hp : s.object? name = some p) (hx : ¬ x.Updates name) : t.object? name = some p := by
  cases h with
  | kept _ objects => rw [object?_congr objects, hp]
  | @created o t free objects =>
    -- the name of a creation was free
    have hname : name ≠ o.name := by
      rintro rfl
      rw [free] at hp
      cases hp
    rw [object?_of_objects_write_ne objects hname, hp]
  | @updated o held t found objects =>
    have hname : name ≠ o.name := by
      rintro rfl
      exact hx ⟨o, _, rfl, rfl⟩
    rw [object?_of_objects_write_ne objects hname, hp]

/-- A failed access leaves what is stored and recorded. -/
theorem of_fails (h : Served s x t) (hx : x.Fails) :
    t.objects = s.objects ∧ t.revision = s.revision ∧ t.created = s.created ∧
      t.updated = s.updated := by
  cases h with
  | kept _ objects revision created updated => exact ⟨objects, revision, created, updated⟩
  | created =>
    obtain ⟨e, he⟩ := hx
    cases he
  | updated =>
    obtain ⟨e, he⟩ := hx
    cases he

end Served

/-! ### What is handed out -/

/-- A list that succeeds gives the snapshot of the store. -/
theorem snapshot_of_list {selector : String} {snapshot : Snapshot c}
    (h : (s.list selector).1 = .ok snapshot) : snapshot = s.snapshot selector := by
  unfold list at h
  rcases answer_countRead (s := s) (.ok (s.snapshot selector)) with ⟨-, hanswer⟩ | ⟨e, _, -, hanswer⟩
  · rw [hanswer] at h
    exact (Except.ok.inj h).symm
  · rw [hanswer] at h
    cases h

theorem ok_of_create {o q : Object c} (h : (s.create o).1 = .ok q) :
    q = s.stamped o ∧ (s.create o).2.objects = (s.write o).objects := by
  rcases s.create_cases o with ⟨-, hcreate⟩ | ⟨-, hcreate⟩
  · rw [hcreate] at h
    cases h
  · rw [hcreate] at h ⊢
    exact ⟨(Except.ok.inj h).symm, rfl⟩

theorem ok_of_update {o q : Object c} (h : (s.update o).1 = .ok q) :
    q = s.stamped o ∧ (s.update o).2.objects = (s.write o).objects := by
  rcases s.update_cases o with ⟨-, hupdate⟩ | ⟨_, _, -, -, hupdate⟩ | ⟨_, -, -, hupdate⟩
  · rw [hupdate] at h
    cases h
  · rw [hupdate] at h
    cases h
  · rw [hupdate] at h ⊢
    exact ⟨(Except.ok.inj h).symm, rfl⟩

/-- What is handed out is in the store then, under its name. -/
theorem object?_of_handed (hs : s.Filed) {a : Action c} {p : Object c}
    (hp : p ∈ (s.serve a).1.objects) : (s.serve a).2.object? p.name = some p := by
  cases a with
  | get name =>
    have hheld := object?_of_get (Access.mem_objects_got.mp hp)
    rw [serve, object?_congr (objects_get name), hs.name_eq hheld]
    exact hheld
  | list selector =>
    obtain ⟨snapshot, hanswer, hmem⟩ := Access.mem_objects_listed.mp hp
    rw [snapshot_of_list hanswer] at hmem
    rw [serve, object?_congr (objects_list selector)]
    exact ((mem_snapshot hs).mp hmem).1
  | create o =>
    obtain ⟨hp, hobjects⟩ := ok_of_create (Access.mem_objects_created.mp hp)
    rw [hp]
    exact object?_of_objects_write hobjects
  | update o =>
    obtain ⟨hp, hobjects⟩ := ok_of_update (Access.mem_objects_updated.mp hp)
    rw [hp]
    exact object?_of_objects_write hobjects

/-- A version that is handed out is that of an object that is in the store then, or that of the store. -/
theorem version_of_handed (hs : s.Filed) {a : Action c} {v : String}
    (hv : v ∈ (s.serve a).1.versions) :
    v = toString (s.serve a).2.revision ∨
      ∃ p, (s.serve a).2.object? p.name = some p ∧ p.metadata.resourceVersion = some v := by
  have hown : v ∈ (s.serve a).1.objects.filterMap (fun o => o.metadata.resourceVersion) →
      ∃ p, (s.serve a).2.object? p.name = some p ∧ p.metadata.resourceVersion = some v := by
    intro hmem
    obtain ⟨p, hp, hpv⟩ := List.mem_filterMap.mp hmem
    exact ⟨p, object?_of_handed hs hp, hpv⟩
  unfold Access.versions at hv
  dsimp only at hv
  split at hv
  · rename_i selector snapshot hlisted
    rcases List.mem_cons.mp hv with rfl | hv
    · -- only a list is answered with a list
      cases a with
      | list selector' =>
        rw [serve, Access.listed.injEq] at hlisted
        have hrevision : (s.list selector').2.revision = s.revision := revision_countRead _
        left
        rw [snapshot_of_list hlisted.2, serve, hrevision]
        rfl
      | get name => cases hlisted
      | create o => cases hlisted
      | update o => cases hlisted
    · exact Or.inr (hown hv)
  · exact Or.inr (hown hv)

/-! ## Many accesses -/

/-- Serves clients one access after another; gives the accesses with their answers. -/
def serveAll (s : Store c) (actions : List (Action c)) : List (Access c) × Store c :=
  actions.foldl (fun x a => (x.1 ++ [(x.2.serve a).1], (x.2.serve a).2)) ([], s)

/-- What is left of an object that was handed out before some accesses: it is still there, or an update
has put one with a greater number in its place. -/
inductive Aged (s : Store c) (between : List (Access c)) (p : Object c) : Prop where
  | current (found : s.object? p.name = some p) (still : ∀ x ∈ between, ¬ x.Updates p.name) :
      Aged s between p
  | replaced {held : Object c} {m n : Nat} (found : s.object? p.name = some held)
      (own : p.metadata.resourceVersion = some (toString m))
      (later : held.metadata.resourceVersion = some (toString n)) (lt : m < n)
      (moved : ∃ x ∈ between, x.Updates p.name) : Aged s between p

/-- A store and the accesses that have led to it. -/
structure Traces (log : List (Access c)) (s : Store c) : Prop where
  filed : s.Filed
  /-- What is stored has been written. -/
  written : ∀ name, s.object? name = lastWritten log name
  /-- What is stored has a number. -/
  numbered : ∀ name o, s.object? name = some o →
    ∃ m ≤ s.revision, o.metadata.resourceVersion = some (toString m)
  /-- No number beyond the revision has been handed out. -/
  versions : ∀ x ∈ log, ∀ v ∈ x.versions, ∃ m ≤ s.revision, v = toString m
  aged : ∀ before x between, log = before ++ x :: between → ∀ p ∈ x.objects, Aged s between p

theorem traces_empty (errors : List AccessError) :
    Traces [] ({ readErrors := errors } : Store c) where
  filed := filed_empty.of_objects rfl
  written _ := rfl
  numbered _ _ h := by cases h
  versions := by simp
  aged := by simp

namespace Served

variable {x : Access c}

/-- After an update an object with the next number stands under the name. -/
theorem of_updates {name : String} (h : Served s x t) (hx : x.Updates name) :
    ∃ q, t.object? name = some q ∧
      q.metadata.resourceVersion = some (toString (s.revision + 1)) := by
  obtain ⟨o, q, rfl, rfl⟩ := hx
  cases h with
  | kept unwritten => cases unwritten
  | updated found objects => exact ⟨_, object?_of_objects_write objects, rfl⟩

theorem numbered (h : Served s x t)
    (hs : ∀ name o, s.object? name = some o →
      ∃ m ≤ s.revision, o.metadata.resourceVersion = some (toString m)) :
    ∀ name o, t.object? name = some o →
      ∃ m ≤ t.revision, o.metadata.resourceVersion = some (toString m) := by
  intro name o ho
  have hle := h.revision_le
  cases hx : x.written? with
  | none =>
    rw [object?_congr (h.of_unwritten hx).1] at ho
    obtain ⟨m, hm, hversion⟩ := hs name o ho
    exact ⟨m, by omega, hversion⟩
  | some q =>
    obtain ⟨r, rfl, hobjects, hrevision⟩ := h.of_written hx
    by_cases hname : name = r.name
    · -- the object that was stored just now
      subst hname
      rw [object?_of_objects_write hobjects, Option.some.injEq] at ho
      subst ho
      exact ⟨s.revision + 1, hrevision.ge, rfl⟩
    · rw [object?_of_objects_write_ne hobjects hname] at ho
      obtain ⟨m, hm, hversion⟩ := hs name o ho
      exact ⟨m, by omega, hversion⟩

theorem written (h : Served s x t) (hs : ∀ name, s.object? name = lastWritten log name)
    (name : String) : t.object? name = lastWritten (log ++ [x]) name := by
  cases hx : x.written? with
  | none => rw [lastWritten_snoc_none hx, object?_congr (h.of_unwritten hx).1, hs]
  | some q =>
    obtain ⟨r, rfl, hobjects, -⟩ := h.of_written hx
    by_cases hname : name = r.name
    · subst hname
      rw [object?_of_objects_write hobjects]
      exact (lastWritten_snoc_self hx).symm
    · rw [lastWritten_snoc_ne hx hname, object?_of_objects_write_ne hobjects hname, hs]

/-- What was handed out ages by one access. -/
theorem aged {between : List (Access c)} {p : Object c} (h : Served s x t)
    (hs : ∀ name o, s.object? name = some o →
      ∃ m ≤ s.revision, o.metadata.resourceVersion = some (toString m))
    (hp : Aged s between p) : Aged t (between ++ [x]) p := by
  by_cases hx : x.Updates p.name
  · obtain ⟨q, hq, hnumber⟩ := h.of_updates hx
    have hmoved : ∃ y ∈ between ++ [x], y.Updates p.name := ⟨x, by simp, hx⟩
    -- the number of the object was at most the revision, and that of the new one is beyond it
    cases hp with
    | current found still =>
      obtain ⟨m, hm, hown⟩ := hs _ _ found
      exact .replaced hq hown hnumber (by omega) hmoved
    | @replaced held m n found own later lt moved =>
      obtain ⟨k, hk, hheld⟩ := hs _ _ found
      have hnk : n = k := by
        rw [later, Option.some.injEq] at hheld
        exact eq_of_toString_eq hheld
      exact .replaced hq own hnumber (by omega) hmoved
  · cases hp with
    | current found still =>
      refine .current (h.object?_of_some found hx) ?_
      intro y hy
      rcases List.mem_append.mp hy with hy | hy
      · exact still y hy
      · rw [List.mem_singleton.mp hy]
        exact hx
    | replaced found own later lt moved =>
      obtain ⟨y, hy, hupdates⟩ := moved
      exact .replaced (h.object?_of_some found hx) own later lt
        ⟨y, List.mem_append_left _ hy, hupdates⟩

end Served

/-- One more access, with its answer, leads on to the store after it. -/
theorem Traces.serve (h : Traces log s) (a : Action c) :
    Traces (log ++ [(s.serve a).1]) (s.serve a).2 := by
  have hserved := served_serve s a
  have hnumbered := hserved.numbered h.numbered
  have hle := hserved.revision_le
  refine ⟨hserved.keeps_filed h.filed, hserved.written h.written, hnumbered, ?_, ?_⟩
  · intro x hx v hv
    rcases List.mem_append.mp hx with hx | hx
    · obtain ⟨m, hm, rfl⟩ := h.versions x hx v hv
      exact ⟨m, by omega, rfl⟩
    · rw [List.mem_singleton.mp hx] at hv
      rcases version_of_handed h.filed hv with rfl | ⟨p, hp, hversion⟩
      · exact ⟨_, Nat.le_refl _, rfl⟩
      · obtain ⟨m, hm, hown⟩ := hnumbered _ p hp
        rw [hversion, Option.some.injEq] at hown
        exact ⟨m, hm, hown⟩
  · intro before x between hsplit p hp
    -- what was handed out earlier ages, and what is handed out now is there now
    rcases List.eq_nil_or_concat between with rfl | ⟨earlier, y, rfl⟩
    · obtain ⟨rfl, hlast⟩ := List.append_inj' hsplit rfl
      obtain rfl : (s.serve a).1 = x := by simpa using hlast
      exact .current (object?_of_handed h.filed hp) (by simp)
    · rw [List.concat_eq_append, ← List.cons_append, ← List.append_assoc] at hsplit
      obtain ⟨hlog, hlast⟩ := List.append_inj' hsplit rfl
      obtain rfl : (s.serve a).1 = y := by simpa using hlast
      rw [List.concat_eq_append]
      exact hserved.aged h.numbered (h.aged before x earlier hlog p hp)

/-- A property of logs and stores that every access keeps holds after all of them. -/
theorem serveAll_induction {P : List (Access c) → Store c → Prop}
    (hstep : ∀ log s a, P log s → P (log ++ [(s.serve a).1]) (s.serve a).2) (hs : P [] s)
    (actions : List (Action c)) : P (s.serveAll actions).1 (s.serveAll actions).2 := by
  induction actions using List.reverseRecOn with
  | nil => exact hs
  | append_singleton earlier a ih =>
    unfold serveAll at ih ⊢
    rw [List.foldl_append]
    exact hstep _ _ a ih

theorem readErrors_countRead_subset {α : Type} (answer : Except AccessError α) :
    (s.countRead answer).2.readErrors ⊆ s.readErrors := by
  unfold countRead
  dsimp only
  split
  · rename_i e rest heq
    rw [heq]
    exact List.subset_cons_of_subset e fun _ h => h
  · rename_i heq
    exact fun _ h => h

/-- No access adds to the errors that wait for reads. -/
theorem readErrors_serve_subset (s : Store c) (a : Action c) :
    (s.serve a).2.readErrors ⊆ s.readErrors := by
  cases a with
  | get name => exact readErrors_countRead_subset _
  | list selector => exact readErrors_countRead_subset _
  | create o => exact (readErrors_create (s := s) o) ▸ fun _ h => h
  | update o => exact (readErrors_update (s := s) o) ▸ fun _ h => h

/-! ## Optimistic locking -/

/-- A list of the objects that a selector matches: exactly these, in name order, at a version that is
not below any of theirs. -/
structure Lists (s : Store c) (selector : String) (snapshot : Snapshot c) : Prop where
  items : ∀ o, o ∈ snapshot.items ↔
    s.object? o.name = some o ∧ selects selector o.labels = true
  ordered : snapshot.items.Pairwise fun o q => o.name < q.name
  version : ∃ n : Nat, snapshot.version = toString n ∧ ∀ o ∈ snapshot.items,
    ∃ m ≤ n, o.metadata.resourceVersion = some (toString m)

/-- What holds of the next access to a store after those of a log. Some errors have been waiting for
reads from the start. -/
structure LocksOptimistically (errors : List AccessError) (log : List (Access c)) (s : Store c) :
    Prop where
  /-- A write that succeeds is stamped with a number above all that have been handed out. -/
  stamped : ∀ o q, (s.create o).1 = .ok q ∨ (s.update o).1 = .ok q →
    ∃ n : Nat, q = o.atVersion (toString n) ∧
      ∀ x ∈ log, ∀ v ∈ x.versions, ∃ m < n, v = toString m
  /-- An update at the version of an object that was handed out succeeds if and only if no update of
  that object has succeeded since, and it conflicts otherwise. -/
  conflicts : ∀ before x between, log = before ++ x :: between → ∀ p ∈ x.objects,
    ∀ o : Object c, o.name = p.name → o.metadata.resourceVersion = p.metadata.resourceVersion →
    ((∃ q, (s.update o).1 = .ok q) ↔ ∀ y ∈ between, ¬ y.Updates p.name) ∧
      ((∃ y ∈ between, y.Updates p.name) →
        ∃ detail, (s.update o).1 = .error (.conflict o.name detail))
  /-- An access that fails leaves what is stored and recorded as it is. -/
  failing : ∀ a, (s.serve a).1.Fails →
    (s.serve a).2.objects = s.objects ∧ (s.serve a).2.revision = s.revision ∧
      (s.serve a).2.created = s.created ∧ (s.serve a).2.updated = s.updated
  /-- Under each name stands what was written last. -/
  written : ∀ name, s.object? name = lastWritten log name
  /-- A list gives the objects that its selector matches, unless an error was waiting for it. -/
  listed : ∀ selector,
    (∃ snapshot, (s.list selector).1 = .ok snapshot ∧ Lists s selector snapshot) ∨
      ∃ e ∈ errors, (s.list selector).1 = .error e

/-- The number of an object in place of another makes an update at the other one's number stale. -/
theorem staleness?_of_lt {sent held : Object c} {m n : Nat}
    (hsent : sent.metadata.resourceVersion = some (toString m))
    (hheld : held.metadata.resourceVersion = some (toString n)) (h : m < n) :
    ∃ detail, staleness? sent held = some detail := by
  have hne : toString m ≠ toString n := by
    intro heq
    have hmn : m = n := eq_of_toString_eq heq
    omega
  exact staleness?_of_version_ne hsent hheld hne

/-- An update at the version of an object that was handed out. -/
theorem Aged.update {between : List (Access c)} {p o : Object c} (h : Aged s between p)
    (hname : o.name = p.name) (hversion : o.metadata.resourceVersion = p.metadata.resourceVersion) :
    ((∃ q, (s.update o).1 = .ok q) ↔ ∀ y ∈ between, ¬ y.Updates p.name) ∧
      ((∃ y ∈ between, y.Updates p.name) →
        ∃ detail, (s.update o).1 = .error (.conflict o.name detail)) := by
  cases h with
  | current found still =>
    have hok : (s.update o).1 = .ok (s.stamped o) := by
      rw [Store.update, hname, found]
      dsimp only
      rw [staleness?_of_version_eq hversion]
    refine ⟨iff_of_true ⟨_, hok⟩ still, ?_⟩
    rintro ⟨y, hy, hupdates⟩
    exact absurd hupdates (still y hy)
  | replaced found own later lt moved =>
    obtain ⟨detail, hstale⟩ := staleness?_of_lt (hversion.trans own) later lt
    have hconflict : (s.update o).1 = .error (.conflict o.name detail) := by
      rw [Store.update, hname, found]
      dsimp only
      rw [hstale]
    refine ⟨iff_of_false ?_ ?_, fun _ => ⟨detail, hconflict⟩⟩
    · rintro ⟨q, hq⟩
      rw [hconflict] at hq
      cases hq
    · intro hstill
      obtain ⟨y, hy, hupdates⟩ := moved
      exact hstill y hy hupdates

theorem Traces.lists (h : Traces log s) (selector : String) :
    Lists s selector (s.snapshot selector) where
  items _ := mem_snapshot h.filed
  ordered := by
    -- the objects stand in the order of their keys, which are their names
    have hnames : (s.objects.map Prod.snd).Pairwise fun o q => o.name < q.name := by
      rw [List.pairwise_map]
      refine List.Pairwise.imp_of_mem ?_ h.filed.sorted
      intro o q ho hq hlt
      rw [h.filed.named o ho, h.filed.named q hq]
      exact hlt
    exact hnames.filter _
  version := by
    refine ⟨s.revision, rfl, ?_⟩
    intro o ho
    exact h.numbered _ o ((mem_snapshot h.filed).mp ho).1

/-- Whatever accesses are made of a store that was empty, it locks optimistically. -/
theorem locksOptimistically_serveAll (errors : List AccessError) (actions : List (Action c)) :
    LocksOptimistically errors (serveAll { readErrors := errors } actions).1
      (serveAll { readErrors := errors } actions).2 := by
  have htraces := serveAll_induction (P := Traces) (fun log s a h => h.serve a)
    (traces_empty errors) actions
  have herrors := serveAll_induction (s := ({ readErrors := errors } : Store c))
    (P := fun _ s => s.readErrors ⊆ errors)
    (fun log s a h e he => h (readErrors_serve_subset s a he)) (fun _ h => h) actions
  revert htraces herrors
  generalize (serveAll ({ readErrors := errors } : Store c) actions).2 = s
  generalize (serveAll ({ readErrors := errors } : Store c) actions).1 = log
  intro htraces herrors
  refine ⟨?_, ?_, ?_, htraces.written, ?_⟩
  · intro o q hq
    have hstamped : q = s.stamped o := hq.elim (fun h => (ok_of_create h).1) fun h => (ok_of_update h).1
    refine ⟨s.revision + 1, hstamped, ?_⟩
    intro x hx v hv
    obtain ⟨m, hm, hversion⟩ := htraces.versions x hx v hv
    exact ⟨m, by omega, hversion⟩
  · intro before x between hsplit p hp o hname hversion
    exact (htraces.aged before x between hsplit p hp).update hname hversion
  · intro a ha
    exact (served_serve s a).of_fails ha
  · intro selector
    rcases answer_countRead (s := s) (.ok (s.snapshot selector)) with
      ⟨-, hanswer⟩ | ⟨e, rest, hreads, hanswer⟩
    · exact Or.inl ⟨_, hanswer, htraces.lists selector⟩
    · exact Or.inr ⟨e, herrors (by simp [hreads]), hanswer⟩

/-- Two clients read a map; the update of one makes that of the other stale. -/
example :
    let m : Object .configMaps := { metadata := { name := some "x" }, body := {} }
    let s : Store .configMaps :=
      (serveAll {} [.create m, .get "x", .get "x", .update (m.atVersion "1")]).2
    (s.update (m.atVersion "1")).1 =
      .error (.conflict "x" "resource version 1 is stale, current is 2") := by
  decide +kernel

end Store

end EcosystemSetup.Cluster

import EcosystemSetup.Proofs.Courses
import EcosystemSetup.Proofs.StoredObjects

/-!
# Programs that share the config maps

Any number of programs work on one store of config maps, in any order of their actions. A call on the
config maps is answered by the store or by a fault put in its way; whatever else a program does may come
out in any way, since each program may have a cluster of its own besides. A history is the log of what
the programs did, in order, where every entry tells whether an error was put in its way.
-/

namespace EcosystemSetup

open Cluster Program

/-- The collection that a call is made on, if it is made on one. -/
def Cluster.Call.collection? : Call → Option Collection
  | .get c _ => some c
  | .list c _ => some c
  | .watch c _ _ => some c
  | .create c _ => some c
  | .update c _ => some c
  | .resolve _ => none
  | .patch _ _ _ _ => none

/-! ## Answers -/

/-- How a store of config maps answers to an action: whether an error was put in its way, and the store
after it. -/
inductive Answered (s : Store .configMaps) : Action → Bool → Store .configMaps → Prop where
  | fault {k : Call} (own : k.collection? = some .configMaps) (e : AccessError) :
      Answered s (.called k (.error e)) true s
  | get (name : String) :
      Answered s (.called (.get .configMaps name) (s.get name).1) (!s.readErrors.isEmpty)
        (s.get name).2
  | list (selector : String) :
      Answered s (.called (.list .configMaps selector) (s.list selector).1) (!s.readErrors.isEmpty)
        (s.list selector).2
  | watch (selector version : String) :
      Answered s (.called (.watch .configMaps selector version) (.ok (s.watch selector version).1))
        false (s.watch selector version).2
  | create (o : Object .configMaps) :
      Answered s (.called (.create .configMaps o) (s.create o).1) false (s.create o).2
  | update (o : Object .configMaps) :
      Answered s (.called (.update .configMaps o) (s.update o).1) false (s.update o).2
  /-- A call on something else leaves the config maps. -/
  | elsewhere {k : Call} (other : k.collection? ≠ some .configMaps) (reply : k.Reply)
      (faulted : Bool) : Answered s (.called k reply) faulted s
  | awaited (goal : Wait.Goal) (outcome : Wait.Outcome) : Answered s (.awaited goal outcome) false s
  | looked (cancelled : Bool) : Answered s (.looked cancelled) false s
  | timed (text : String) : Answered s (.timed text) false s

namespace Answered

variable {s t : Store .configMaps} {action : Action} {faulted : Bool}

/-- A store has an answer to every call. -/
theorem exists_of_call (s : Store .configMaps) (k : Call) :
    ∃ reply faulted t, Answered s (.called k reply) faulted t := by
  by_cases hk : k.collection? = some .configMaps
  · exact ⟨_, _, _, .fault hk (.other "")⟩
  · exact ⟨.error (.other ""), false, s, .elsewhere hk _ _⟩

/-- Reading leaves the objects and the revision. Unless an error was put in its way, it gives what the
store holds; what it gives the store holds in any case. -/
theorem of_get {name : String} {reply : Except AccessError (Object .configMaps)}
    (h : Answered s (.called (.get .configMaps name) reply) faulted t) :
    t.objects = s.objects ∧ t.revision = s.revision ∧
      (faulted = false → reply = s.lookUp name) ∧ ∀ o, reply = .ok o → s.object? name = some o := by
  cases h with
  | fault own e => simp
  | elsewhere other => exact absurd rfl other
  | get =>
    refine ⟨Store.objects_get name, Store.revision_countRead _, ?_, fun o => Store.object?_of_get⟩
    intro hfaulted
    -- no error waited for the read, or the entry is marked
    rcases Store.answer_countRead (s := s) (s.lookUp name) with ⟨_, hanswer⟩ | ⟨e, rest, hreads, _⟩
    · exact hanswer
    · simp [hreads] at hfaulted

/-- A read that fails with no error put in its way has found nothing. -/
theorem of_get_error {name : String} {e : AccessError}
    (h : Answered s (.called (.get .configMaps name) (.error e)) faulted t)
    (hfaulted : faulted = false) : e = .notFound name ∧ s.object? name = none := by
  obtain ⟨_, _, hreply, _⟩ := h.of_get
  have hlook := hreply hfaulted
  unfold Store.lookUp at hlook
  split at hlook
  · cases hlook
  · rename_i hnone
    rw [Except.error.injEq] at hlook
    exact ⟨hlook, hnone⟩

/-- A creation is answered by an error put in its way, or by the store. -/
theorem of_create {o : Object .configMaps} {reply : Except AccessError (Object .configMaps)}
    (h : Answered s (.called (.create .configMaps o) reply) faulted t) :
    ((∃ e, reply = .error e) ∧ faulted = true ∧ t = s) ∨
      faulted = false ∧ s.create o = (reply, t) := by
  cases h with
  | fault own e => exact Or.inl ⟨⟨e, rfl⟩, rfl, rfl⟩
  | elsewhere other => exact absurd rfl other
  | create => exact Or.inr ⟨rfl, rfl⟩

/-- An update is answered by an error put in its way, or by the store. -/
theorem of_update {o : Object .configMaps} {reply : Except AccessError (Object .configMaps)}
    (h : Answered s (.called (.update .configMaps o) reply) faulted t) :
    ((∃ e, reply = .error e) ∧ faulted = true ∧ t = s) ∨
      faulted = false ∧ s.update o = (reply, t) := by
  cases h with
  | fault own e => exact Or.inl ⟨⟨e, rfl⟩, rfl, rfl⟩
  | elsewhere other => exact absurd rfl other
  | update => exact Or.inr ⟨rfl, rfl⟩

/-- What an action does to the config maps: nothing, or it writes one. -/
theorem cases_written (h : Answered s action faulted t) :
    (t.objects = s.objects ∧ t.revision = s.revision) ∨
      ∃ o reply, (action = .called (.create .configMaps o) reply ∨
        action = .called (.update .configMaps o) reply) ∧ Store.Written s o (reply, t) := by
  cases h with
  | get name => exact Or.inl ⟨Store.objects_get name, Store.revision_countRead _⟩
  | list selector => exact Or.inl ⟨Store.objects_list selector, Store.revision_countRead _⟩
  | watch selector version =>
    exact Or.inl ⟨Store.objects_watch selector version, Store.revision_watch selector version⟩
  | create o => exact Or.inr ⟨o, _, Or.inl rfl, Store.written_create s o⟩
  | update o => exact Or.inr ⟨o, _, Or.inr rfl, Store.written_update s o⟩
  | _ => exact Or.inl ⟨rfl, rfl⟩

end Answered

/-! ## Histories -/

/-- Programs under way, and the config maps that they share. -/
structure Joint (α : Type) where
  store : Store .configMaps
  runs : List (Program α)

/-- What a program did, and whether an error was put in its way. -/
structure Entry where
  action : Action
  faulted : Bool

/-- Entries, each with the place of the program that it is of. -/
abbrev Log := List (Nat × Entry)

variable {α : Type}

/-- One of the programs acts. -/
inductive Joint.Step (j : Joint α) : Nat × Entry → Joint α → Prop where
  | act {i : Nat} {t u : Program α} {action : Action} {faulted : Bool}
      {store : Store .configMaps} (run : j.runs[i]? = some t) (step : Program.Step t action u)
      (answered : Answered j.store action faulted store) :
      Step j (i, ⟨action, faulted⟩) ⟨store, j.runs.set i u⟩

/-- A program that has not finished can act. -/
theorem Joint.can_act {j : Joint α} {i : Nat} {t : Program α} (ht : j.runs[i]? = some t)
    (hdone : ∀ a, t ≠ .done a) : ∃ entry j', j.Step (i, entry) j' := by
  cases t with
  | done a => exact absurd rfl (hdone a)
  | call k next =>
    obtain ⟨reply, faulted, store, hanswered⟩ := Answered.exists_of_call j.store k
    exact ⟨_, _, .act ht (.call reply) hanswered⟩
  | await goal next =>
    exact ⟨_, _, .act ht (.await (.error (.cancelled ""))) (.awaited goal _)⟩
  | cancelled next => exact ⟨_, _, .act ht (.cancelled false) (.looked false)⟩
  | now next => exact ⟨_, _, .act ht (.now "") (.timed "")⟩

/-- A log leads from programs at their start to what is left of them. -/
inductive History (start : Joint α) : Log → Joint α → Prop where
  | nil : History start [] start
  | snoc {log : Log} {j j' : Joint α} {x : Nat × Entry} (before : History start log j)
      (step : j.Step x j') : History start (log ++ [x]) j'

/-- The entries of one program. -/
def Log.entriesOf (i : Nat) (log : Log) : List Entry :=
  log.filterMap fun x => if x.1 = i then some x.2 else none

@[simp] theorem Log.entriesOf_snoc_self (i : Nat) (log : Log) (entry : Entry) :
    Log.entriesOf i (log ++ [(i, entry)]) = log.entriesOf i ++ [entry] := by
  simp [Log.entriesOf]

@[simp] theorem Log.entriesOf_snoc_ne {i k : Nat} (h : k ≠ i) (log : Log) (entry : Entry) :
    Log.entriesOf i (log ++ [(k, entry)]) = log.entriesOf i := by
  simp [Log.entriesOf, h]

theorem Log.entriesOf_append (i : Nat) (first second : Log) :
    Log.entriesOf i (first ++ second) = first.entriesOf i ++ second.entriesOf i := by
  simp [Log.entriesOf]

theorem Log.entriesOf_cons_self (i : Nat) (entry : Entry) (rest : Log) :
    Log.entriesOf i ((i, entry) :: rest) = entry :: rest.entriesOf i := by
  simp [Log.entriesOf]

/-- What follows the last entry of a program is determined. -/
theorem Log.eq_of_last {i : Nat} {x y : Entry} {first second before since : Log}
    (h : first ++ (i, x) :: second = before ++ (i, y) :: since) (hsecond : second.entriesOf i = [])
    (hsince : since.entriesOf i = []) : second = since := by
  rcases List.append_eq_append_iff.mp h with ⟨skipped, _, hrest⟩ | ⟨skipped, _, hrest⟩
  · cases skipped with
    | nil => exact (List.cons.inj hrest).2
    | cons z skipped =>
      rw [List.cons_append, List.cons.injEq] at hrest
      rw [hrest.2, Log.entriesOf_append, Log.entriesOf_cons_self] at hsecond
      simp at hsecond
  · cases skipped with
    | nil => exact (List.cons.inj hrest).2.symm
    | cons z skipped =>
      rw [List.cons_append, List.cons.injEq] at hrest
      rw [hrest.2, Log.entriesOf_append, Log.entriesOf_cons_self] at hsince
      simp at hsince

namespace History

variable {start j : Joint α}

/-- A history may be cut anywhere. -/
theorem split {first second : Log} (h : History start (first ++ second) j) :
    ∃ middle, History start first middle ∧ History middle second j := by
  generalize hlog : first ++ second = log at h
  induction h generalizing second with
  | nil =>
    obtain ⟨rfl, rfl⟩ := List.append_eq_nil_iff.mp hlog
    exact ⟨start, .nil, .nil⟩
  | @snoc log j j' x before step ih =>
    rcases List.eq_nil_or_concat second with rfl | ⟨rest, y, rfl⟩
    · rw [List.append_nil] at hlog
      exact ⟨j', hlog ▸ .snoc before step, .nil⟩
    · rw [List.concat_eq_append, ← List.append_assoc] at hlog
      obtain ⟨hbefore, hlast⟩ := List.append_inj' hlog rfl
      obtain rfl : y = x := List.singleton_inj.mp hlast
      obtain ⟨middle, hfirst, hrest⟩ := ih hbefore
      exact ⟨middle, hfirst, List.concat_eq_append ▸ .snoc hrest step⟩

/-- A program that has finished stays finished, and has no more entries. -/
theorem of_done {log : Log} (h : History start log j) {i : Nat} {a : α}
    (hdone : start.runs[i]? = some (.done a)) :
    j.runs[i]? = some (.done a) ∧ log.entriesOf i = [] := by
  induction h with
  | nil => exact ⟨hdone, rfl⟩
  | snoc before step ih =>
    obtain ⟨hstays, hnone⟩ := ih
    cases step with
    | @act k t u action faulted store run step answered =>
      have hne : k ≠ i := by
        rintro rfl
        rw [hstays, Option.some.injEq] at run
        subst run
        exact not_step_done step
      rw [Log.entriesOf_snoc_ne hne]
      exact ⟨(List.getElem?_set_ne hne).trans hstays, hnone⟩

end History

/-- A history passes an entry: it leads up to it, the entry is made, and it goes on from there. -/
structure Passes (start : Joint α) (earlier : Log) (x : Nat × Entry) (later : Log) (j : Joint α)
    (before after : Joint α) : Prop where
  lead : History start earlier before
  step : before.Step x after
  rest : History after later j

/-- A history passes each of its entries. -/
theorem History.passes {start j : Joint α} {earlier later : Log} {x : Nat × Entry}
    (h : History start (earlier ++ x :: later) j) :
    ∃ before after, Passes start earlier x later j before after := by
  rw [List.append_cons] at h
  obtain ⟨after, hlead, hrest⟩ := h.split
  generalize hlog : earlier ++ [x] = log at hlead
  cases hlead with
  | nil => simp at hlog
  | @snoc log before _ y lead step =>
    obtain ⟨rfl, hlast⟩ := List.append_inj' hlog rfl
    obtain rfl : x = y := List.singleton_inj.mp hlast
    exact ⟨before, after, lead, step, hrest⟩

end EcosystemSetup

import EcosystemSetup.Proofs.Resumption
import EcosystemSetup.Proofs.Scripts

/-!
# Events about other objects

The watch of a named object may deliver events about other objects that share its label. A wait does
not notice them. Two clusters that a wait cannot tell apart, call by call, lead it through the same
course in time; and clusters that differ in nothing but such events are of this kind. Main statement:
however many of them are put into the sessions or taken out, and wherever, a wait for a named object
ends the same way, after the same calls at the same times.
-/

namespace EcosystemSetup.Cluster

variable {c : Collection}

/-- The shelf with other sessions for its watches. -/
def Shelf.withSessions (x : Shelf c) (sessions : List (Session c)) : Shelf c :=
  { x with store := { x.store with sessions } }

/-- The sandbox with other sessions for the watches of a collection. -/
def Sandbox.withSessions (s : Sandbox) (c : Collection) (sessions : List (Session c)) : Sandbox :=
  s.setShelf c ((s.shelf c).withSessions sessions)

end EcosystemSetup.Cluster

namespace EcosystemSetup.Wait

open Cluster

/-! ## Sessions without them -/

section Sessions

variable {c : Collection}

/-- Whether an item of a stream is an event about an object of another name. -/
def strange (name : String) (x : Except AccessError (Cluster.Event c)) : Bool :=
  ((event? x).bind changed?).any fun o => o.name != name

/-- What a session holds apart from events about objects of other names. Two sessions that hold the same
apart from them come from each other by putting such events in and taking some out. -/
def own (name : String) (items : Session c) : Session c :=
  items.filter fun x => !strange name x

theorem own_cons_of_strange {name : String} {x : Except AccessError (Cluster.Event c)}
    {rest : Session c} (h : strange name x = true) : own name (x :: rest) = own name rest := by
  simp [own, h]

theorem own_cons_of_not_strange {name : String} {x : Except AccessError (Cluster.Event c)}
    {rest : Session c} (h : strange name x = false) :
    own name (x :: rest) = x :: own name rest := by
  simp [own, h]

/-- A stream without the events about objects of other names. -/
def ownStream (name : String) (s : Cluster.Stream c) : Cluster.Stream c :=
  { s with items := own name s.items }

end Sessions

namespace Goal

variable {g : Goal} {name : String}

/-- To a wait for a name, events about objects of other names are foreign. -/
theorem foreign_of_strange (hname : g.target.name = some name)
    {e : Cluster.Event g.collection} (h : strange name (.ok e) = true) : g.Foreign e := by
  cases hchanged : changed? e with
  | none => simp [strange, event?, hchanged] at h
  | some o =>
    have hother : o.name ≠ name := by simpa [strange, event?, hchanged] using h
    refine ⟨o, hchanged, ?_⟩
    simpa [concerns, hname] using hother

/-- Listening passes over events about objects of other names. -/
theorem listen_own (hname : g.target.name = some name) (version : String)
    (items : Session g.collection) : g.listen version (own name items) = g.listen version items := by
  induction items generalizing version with
  | nil => rfl
  | cons x rest ih =>
    by_cases hstrange : strange name x = true
    · -- it decides nothing, and the version stays
      rw [own_cons_of_strange hstrange]
      cases x with
      | error e => simp [strange, event?] at hstrange
      | ok e =>
        have hforeign : g.Foreign e := foreign_of_strange hname hstrange
        have hbreaks : breaks (.ok e) = false := by
          obtain ⟨o, ho, _⟩ := hforeign
          cases e with
          | error s => simp [changed?] at ho
          | _ => rfl
        rw [listen_cons_of_verdict_none hbreaks hforeign.verdict?_eq, hforeign.resume_eq]
        exact ih version
    · rw [Bool.not_eq_true] at hstrange
      rw [own_cons_of_not_strange hstrange]
      cases x with
      | error e => rfl
      | ok e =>
        rw [listen, listen]
        split
        · exact ih _
        · rfl
        · rfl

/-- A wait for a name goes on after opening a watch as it does without the events about objects of
other names. -/
theorem afterOpen_own (hname : g.target.name = some name) (version : String)
    (reply : Except AccessError (Cluster.Stream g.collection)) :
    g.afterOpen version (reply.map (ownStream name)) = g.afterOpen version reply := by
  cases reply with
  | error e => rfl
  | ok stream =>
    have hlisten : g.listen version (ownStream name stream).items =
        g.listen version stream.items := listen_own hname version stream.items
    show g.afterOpen version (.ok (ownStream name stream)) = _
    unfold afterOpen
    dsimp only
    rw [hlisten]
    rfl

end Goal

/-! ## Clusters that a wait cannot tell apart -/

/-- The calls of a world and their times. -/
def timedCalls {σ : Type} (w : World σ) : List (Nat × Call) :=
  w.record.map fun x => (x.time, x.call)

/-- Worlds at the same time after the same calls, on related clusters. -/
structure Mirrored {σ : Type} (R : σ → σ → Prop) (w v : World σ) : Prop where
  related : R w.backend v.backend
  clock : v.clock = w.clock
  cancelAt : v.cancelAt = w.cancelAt
  interruptIn : v.interruptIn = w.interruptIn
  calls : timedCalls v = timedCalls w

theorem Mirrored.isCancelled {σ : Type} {R : σ → σ → Prop} {w v : World σ} (h : Mirrored R w v) :
    v.isCancelled = w.isCancelled := by
  unfold World.isCancelled
  rw [h.cancelAt, h.clock]

theorem Mirrored.looked {σ : Type} {R : σ → σ → Prop} {w v : World σ} (h : Mirrored R w v) :
    Mirrored R w.looked v.looked := by
  have hcancelAt : v.looked.cancelAt = w.looked.cancelAt ∧
      v.looked.interruptIn = w.looked.interruptIn := by
    unfold World.looked
    rw [h.isCancelled, h.interruptIn, h.clock]
    split
    · exact ⟨h.cancelAt, h.interruptIn⟩
    · split
      · exact ⟨h.cancelAt, h.interruptIn⟩
      · exact ⟨rfl, rfl⟩
      · exact ⟨h.cancelAt, rfl⟩
  exact
    { related := by simpa using h.related
      clock := by simpa using h.clock
      cancelAt := hcancelAt.1
      interruptIn := hcancelAt.2
      calls := by simpa [timedCalls] using h.calls }

theorem Mirrored.advanceTo {σ : Type} {R : σ → σ → Prop} {w v : World σ} (h : Mirrored R w v)
    (time : Nat) : Mirrored R (w.advanceTo time) (v.advanceTo time) where
  related := h.related
  clock := by
    unfold World.advanceTo
    rw [h.cancelAt, h.clock]
  cancelAt := h.cancelAt
  interruptIn := h.interruptIn
  calls := h.calls

section Blindness

variable {σ : Type} [Backend σ] {R : σ → σ → Prop} {g : Goal} {w v : World σ}

/-- A wait that is answered alike by related clusters, as far as it goes on, and leaves related ones. -/
structure Goal.Blind (g : Goal) (R : σ → σ → Prop) : Prop where
  scripted : ∀ {s t : σ}, R s t → Backend.scripted t = Backend.scripted s
  suspends : ∀ {s t : σ} (stage : Stage), R s t →
    Backend.suspends (g.move stage).call t = Backend.suspends (g.move stage).call s
  next : ∀ {s t : σ} (stage : Stage), R s t →
    (g.move stage).next (Backend.perform (g.move stage).call t).1 =
      (g.move stage).next (Backend.perform (g.move stage).call s).1
  kept : ∀ {s t : σ} (stage : Stage), R s t →
    R (Backend.perform (g.move stage).call s).2 (Backend.perform (g.move stage).call t).2

/-- One call keeps worlds mirrored, and the wait goes on alike. -/
theorem Goal.Blind.call (hg : g.Blind R) (h : Mirrored R w v) (stage : Stage) :
    (g.move stage).next (v.perform (g.move stage).call).1 =
        (g.move stage).next (w.perform (g.move stage).call).1 ∧
      Mirrored R (w.perform (g.move stage).call).2 (v.perform (g.move stage).call).2 := by
  refine ⟨hg.next stage h.related, hg.kept stage h.related, h.clock, h.cancelAt, h.interruptIn, ?_⟩
  have hcalls : v.record.map (fun x => (x.time, x.call)) =
      w.record.map fun x => (x.time, x.call) := h.calls
  simp [timedCalls, World.perform, hcalls, h.clock]

theorem Goal.Blind.drive (hg : g.Blind R) (fuel : Nat) {p : Position} (h : Mirrored R w v) :
    (drive g fuel p v).1 = (drive g fuel p w).1 ∧
      Mirrored R (drive g fuel p w).2 (drive g fuel p v).2 := by
  -- the fuel is the same on both sides, so both make the same number of calls
  induction fuel generalizing p w v with
  | zero => cases p <;> exact ⟨rfl, h⟩
  | succ fuel ih =>
    cases p with
    | ended outcome => exact ⟨rfl, h⟩
    | silent => exact ⟨rfl, h⟩
    | paused wake stage =>
      rw [Wait.drive, Wait.drive, h.clock]
      split
      · exact ih h
      · exact ⟨rfl, h⟩
    | ready stage =>
      obtain ⟨hnext, hafter⟩ := hg.call h stage
      rw [Wait.drive, Wait.drive, hnext, hafter.clock, hg.suspends stage h.related]
      split
      · exact ⟨rfl, hafter⟩
      · exact ih hafter

theorem Goal.Blind.turn (hg : g.Blind R) (p : Progress) (h : Mirrored R w v) :
    (turn g p v).1 = (turn g p w).1 ∧ Mirrored R (turn g p w).2 (turn g p v).2 := by
  have hbound : turnBound g v = turnBound g w := by
    unfold turnBound
    rw [hg.scripted h.related]
  obtain ⟨hsame, hafter⟩ := hg.drive (turnBound g w) (p := p.position) h.looked
  unfold Wait.turn
  rw [h.isCancelled, hbound]
  split
  · exact ⟨rfl, h⟩
  · -- only that both turns come to the same matters from here on
    generalize Wait.drive g (turnBound g w) p.position w.looked = x at *
    generalize Wait.drive g (turnBound g w) p.position v.looked = y at *
    obtain ⟨t, w'⟩ := x
    obtain ⟨t', v'⟩ := y
    obtain rfl : t' = t := hsame
    cases t' with
    | ended outcome => exact ⟨rfl, hafter⟩
    | again position wake =>
      dsimp only
      rw [hafter.clock]
      split
      · exact ⟨rfl, hafter⟩
      · exact ⟨rfl, hafter⟩

theorem Goal.Blind.takeTurns (hg : g.Blind R) (fuel : Nat) (p : Progress) (h : Mirrored R w v) :
    (takeTurns g fuel p v).1 = (takeTurns g fuel p w).1 ∧
      Mirrored R (takeTurns g fuel p w).2 (takeTurns g fuel p v).2 := by
  induction fuel generalizing p w v with
  | zero => exact ⟨rfl, h⟩
  | succ fuel ih =>
    obtain ⟨hsame, hafter⟩ := hg.turn p h
    rw [Wait.takeTurns, Wait.takeTurns]
    generalize Wait.turn g p w = x at *
    generalize Wait.turn g p v = y at *
    obtain ⟨t, w'⟩ := x
    obtain ⟨t', v'⟩ := y
    obtain rfl : t' = t := hsame
    cases t' with
    | ended outcome => exact ⟨rfl, hafter⟩
    | again position wake => exact ih _ (hafter.advanceTo _)

/-- A wait that cannot tell two clusters apart ends on them the same way, after the same calls at the
same times. -/
theorem Goal.Blind.run (hg : g.Blind R) (h : Mirrored R w v) :
    (run g v).1 = (run g w).1 ∧ Mirrored R (run g w).2 (run g v).2 := by
  have hstart : Progress.start g v = Progress.start g w := by
    unfold Progress.start
    rw [h.clock]
  unfold Wait.run
  rw [hstart]
  exact hg.takeTurns _ _ h

/-- Related clusters answer a read of the name the same, and open the same streams but for events about
objects of other names. -/
structure Likeness (c : Collection) (name : String) (R : σ → σ → Prop) : Prop where
  scripted : ∀ {s t : σ}, R s t → Backend.scripted t = Backend.scripted s
  suspends : ∀ {s t : σ} (k : Call), R s t → Backend.suspends k t = Backend.suspends k s
  get : ∀ {s t : σ}, R s t →
    (Backend.perform (.get c name) t).1 = (Backend.perform (.get c name) s).1 ∧
      R (Backend.perform (.get c name) s).2 (Backend.perform (.get c name) t).2
  watch : ∀ {s t : σ} (selector version : String), R s t →
    (Backend.perform (.watch c selector version) t).1.map (ownStream name) =
        (Backend.perform (.watch c selector version) s).1.map (ownStream name) ∧
      R (Backend.perform (.watch c selector version) s).2
        (Backend.perform (.watch c selector version) t).2

/-- A wait for the name cannot tell them apart. -/
theorem Likeness.blind {name : String} (hname : g.target.name = some name)
    (h : Likeness g.collection name R) : g.Blind R where
  scripted := h.scripted
  suspends := fun stage hR => h.suspends (g.move stage).call hR
  next := by
    intro s t stage hR
    cases stage with
    | reading attempt =>
      rw [Goal.move_reading_of_name hname]
      exact congrArg (g.afterGet attempt) (h.get hR).1
    | opening version =>
      obtain ⟨hreply, _⟩ := h.watch g.target.selector version hR
      have hnext := congrArg (g.afterOpen version) hreply
      rw [Goal.afterOpen_own hname, Goal.afterOpen_own hname] at hnext
      exact hnext
  kept := by
    intro s t stage hR
    cases stage with
    | reading attempt =>
      rw [Goal.move_reading_of_name hname]
      exact (h.get hR).2
    | opening version => exact (h.watch g.target.selector version hR).2

end Blindness

/-! ## Scripts -/

namespace Script

variable {c : Collection}

/-- The same script, but for events about objects of other names. -/
structure Alike (name : String) (s t : Script c) : Prop where
  gets : t.gets = s.gets
  opens : t.opens.map (Except.map (own name)) = s.opens.map (Except.map (own name))

variable {name : String} {s t : Script c}

theorem Alike.get (h : s.Alike name t) :
    (t.get name).1 = (s.get name).1 ∧ (s.get name).2.Alike name (t.get name).2 := by
  unfold Script.get
  rw [h.gets]
  split
  · exact ⟨rfl, h⟩
  · exact ⟨rfl, rfl, h.opens⟩

theorem Alike.watch (h : s.Alike name t) :
    t.watch.1.map (ownStream name) = s.watch.1.map (ownStream name) ∧
      s.watch.2.Alike name t.watch.2 := by
  have hopens := h.opens
  rcases s.watch_cases with ⟨hs, hwatch⟩ | ⟨opened, rest, hs, hwatch⟩
  · rw [hs, List.map_nil, List.map_eq_nil_iff] at hopens
    rcases t.watch_cases with ⟨_, hwatch'⟩ | ⟨opened', rest', ht, _⟩
    · rw [hwatch, hwatch']
      exact ⟨rfl, h⟩
    · rw [hopens] at ht
      cases ht
  · rw [hs, List.map_cons] at hopens
    rcases t.watch_cases with ⟨ht, _⟩ | ⟨opened', rest', ht, hwatch'⟩
    · rw [ht] at hopens
      cases hopens
    · rw [ht, List.map_cons, List.cons.injEq] at hopens
      obtain ⟨hfirst, hrest⟩ := hopens
      rw [hwatch, hwatch']
      refine ⟨?_, h.gets, hrest⟩
      have hstream : ∀ r : Except AccessError (Session c),
          (r.map fun items => (⟨items, true⟩ : Cluster.Stream c)).map (ownStream name) =
            (r.map (own name)).map fun items => ⟨items, true⟩ := by
        rintro (e | items)
        · rfl
        · rfl
      dsimp only
      rw [hstream, hstream, hfirst]

end Script

theorem likeness_script (c : Collection) (name : String) :
    Likeness c name fun s t : Script c => s.Alike name t where
  scripted := by
    intro s t h
    have hlength := congrArg List.length h.opens
    rw [List.length_map, List.length_map] at hlength
    exact hlength
  suspends := fun _ _ => rfl
  get := by
    intro s t h
    rw [Script.perform_get, Script.perform_get]
    exact h.get
  watch := by
    intro s t selector version h
    rw [Script.perform_watch, Script.perform_watch]
    exact h.watch

/-! ## Sandboxes -/

variable {c : Collection} {name : String}

/-- The same sessions, but for events about objects of other names. -/
def AlikeSessions (name : String) (sessions others : List (Session c)) : Prop :=
  others.map (own name) = sessions.map (own name)

/-- The same sandbox, but for events about objects of other names in the sessions of a collection. -/
structure AlikeSandbox (c : Collection) (name : String) (s t : Sandbox) : Prop where
  elsewhere : ∀ {d : Collection}, d ≠ c → t.shelf d = s.shelf d
  here : ∃ sessions, AlikeSessions name (s.shelf c).store.sessions sessions ∧
    t.shelf c = (s.shelf c).withSessions sessions

theorem AlikeSandbox.setShelf {s t : Sandbox} (h : AlikeSandbox c name s t) (x : Shelf c)
    {sessions : List (Session c)} (hsessions : AlikeSessions name x.store.sessions sessions) :
    AlikeSandbox c name (s.setShelf c x) (t.setShelf c (x.withSessions sessions)) where
  elsewhere := by
    intro d hd
    rw [Sandbox.shelf_setShelf_ne _ hd, Sandbox.shelf_setShelf_ne _ hd]
    exact h.elsewhere hd
  here := by
    refine ⟨sessions, ?_, ?_⟩
    · rw [Sandbox.shelf_setShelf_self]
      exact hsessions
    · rw [Sandbox.shelf_setShelf_self, Sandbox.shelf_setShelf_self]

/-- What a store answers that was seen alike is seen alike of the shelf, faults included. -/
theorem AlikeSandbox.faulty {s t : Sandbox} {α β : Type} (h : AlikeSandbox c name s t)
    (view : Except AccessError α → β) {queue : FaultQueue}
    {setQueue : Faults → FaultQueue → Faults} {act : Store c → Except AccessError α × Store c}
    (hact : ∀ (x : Store c) (sessions : List (Session c)), AlikeSessions name x.sessions sessions →
      view (act { x with sessions }).1 = view (act x).1 ∧
        ∃ later, AlikeSessions name (act x).2.sessions later ∧
          (act { x with sessions }).2 = { (act x).2 with sessions := later }) :
    view (t.faulty queue setQueue act).1 = view (s.faulty queue setQueue act).1 ∧
      AlikeSandbox c name (s.faulty queue setQueue act).2 (t.faulty queue setQueue act).2 := by
  obtain ⟨sessions, hsessions, hshelf⟩ := h.here
  unfold Sandbox.faulty
  -- both queues hold the same fault, and a fault does not touch the store
  cases hfault : Sandbox.nextFault queue with
  | some e =>
    refine ⟨rfl, ?_⟩
    dsimp only
    rw [hshelf]
    exact h.setShelf { s.shelf c with faults := setQueue (s.shelf c).faults queue.tail } hsessions
  | none =>
    obtain ⟨hreply, later, hlater, hstore⟩ := hact (s.shelf c).store sessions hsessions
    dsimp only
    rw [hshelf]
    refine ⟨hreply, ?_⟩
    show AlikeSandbox c name _ (t.setShelf c ⟨(act { (s.shelf c).store with sessions }).2, _, _⟩)
    rw [hstore]
    exact h.setShelf ⟨(act (s.shelf c).store).2, _, _⟩ hlater

theorem AlikeSandbox.faults {s t : Sandbox} (h : AlikeSandbox c name s t) :
    (t.shelf c).faults = (s.shelf c).faults := by
  obtain ⟨sessions, _, hshelf⟩ := h.here
  rw [hshelf]
  rfl

/-- Each shelf has as many sessions and faults for its watches. -/
theorem AlikeSandbox.scripted {s t : Sandbox} (h : AlikeSandbox c name s t) :
    t.scripted = s.scripted := by
  have hshelf : ∀ d, (t.shelf d).store.sessions.length + (t.shelf d).faults.watch.length =
      (s.shelf d).store.sessions.length + (s.shelf d).faults.watch.length := by
    intro d
    by_cases hd : d = c
    · subst hd
      obtain ⟨sessions, hsessions, hhere⟩ := h.here
      have hlength := congrArg List.length hsessions
      rw [List.length_map, List.length_map] at hlength
      rw [hhere]
      exact congrArg (· + (s.shelf d).faults.watch.length) hlength
    · rw [h.elsewhere hd]
  show (t.shelf .namespaces).store.sessions.length + (t.shelf .namespaces).faults.watch.length +
      ((t.shelf .configMaps).store.sessions.length + (t.shelf .configMaps).faults.watch.length) +
      ((t.shelf .services).store.sessions.length + (t.shelf .services).faults.watch.length) +
      ((t.shelf .pods).store.sessions.length + (t.shelf .pods).faults.watch.length) +
      ((t.shelf .dogus).store.sessions.length + (t.shelf .dogus).faults.watch.length) +
      ((t.shelf .components).store.sessions.length + (t.shelf .components).faults.watch.length) = _
  rw [hshelf, hshelf, hshelf, hshelf, hshelf, hshelf]
  rfl

theorem AlikeSandbox.suspends {s t : Sandbox} (h : AlikeSandbox c name s t) (k : Call) :
    t.suspends k = s.suspends k := by
  cases k with
  | get d n =>
    show (t.shelf d).yields = (s.shelf d).yields
    by_cases hd : d = c
    · subst hd
      obtain ⟨sessions, _, hhere⟩ := h.here
      rw [hhere]
      rfl
    · rw [h.elsewhere hd]
  | _ => rfl

/-- A read does not look at sessions. -/
theorem get_withSessions (x : Store c) (sessions : List (Session c)) (n : String) :
    (x.get n).2.sessions = x.sessions ∧
      Store.get { x with sessions } n = ((x.get n).1, { (x.get n).2 with sessions }) := by
  unfold Store.get Store.countRead
  cases x.readErrors with
  | nil => exact ⟨rfl, rfl⟩
  | cons e rest => exact ⟨rfl, rfl⟩

/-- A watch takes the next session, and that of alike sessions is alike. -/
theorem watch_withSessions (x : Store c) {sessions : List (Session c)} (selector version : String)
    (h : AlikeSessions name x.sessions sessions) :
    ownStream name (Store.watch { x with sessions } selector version).1 =
        ownStream name (x.watch selector version).1 ∧
      ∃ later, AlikeSessions name (x.watch selector version).2.sessions later ∧
        (Store.watch { x with sessions } selector version).2 =
          { (x.watch selector version).2 with sessions := later } := by
  obtain ⟨objects, readErrors, old, watches, reads, created, updated, revision⟩ := x
  unfold AlikeSessions at h
  cases old with
  | nil =>
    rw [List.map_nil, List.map_eq_nil_iff] at h
    subst h
    exact ⟨rfl, [], rfl, rfl⟩
  | cons session rest =>
    cases sessions with
    | nil => cases h
    | cons session' rest' =>
      rw [List.map_cons, List.map_cons, List.cons.injEq] at h
      obtain ⟨hfirst, hrest⟩ := h
      refine ⟨?_, rest', hrest, rfl⟩
      show (⟨own name session', true⟩ : Cluster.Stream c) = ⟨own name session, true⟩
      rw [hfirst]

/-- Sandboxes that differ in events about objects of other names are alike to whoever reads that one
name. -/
theorem likeness_sandbox (c : Collection) (name : String) :
    Likeness c name (AlikeSandbox c name) where
  scripted := fun h => h.scripted
  suspends := fun k h => h.suspends k
  get := by
    intro s t h
    show (t.faulty (t.shelf c).faults.get _ _).1 = (s.faulty (s.shelf c).faults.get _ _).1 ∧
      AlikeSandbox c name (s.faulty (s.shelf c).faults.get _ _).2
        (t.faulty (t.shelf c).faults.get _ _).2
    rw [h.faults]
    refine h.faulty id ?_
    intro x sessions hsessions
    obtain ⟨hsame, hget⟩ := get_withSessions x sessions name
    rw [hget, hsame]
    exact ⟨rfl, sessions, hsessions, rfl⟩
  watch := by
    intro s t selector version h
    show (t.faulty (t.shelf c).faults.watch _ _).1.map (ownStream name) =
        (s.faulty (s.shelf c).faults.watch _ _).1.map (ownStream name) ∧
      AlikeSandbox c name (s.faulty (s.shelf c).faults.watch _ _).2
        (t.faulty (t.shelf c).faults.watch _ _).2
    rw [h.faults]
    refine h.faulty (Except.map (ownStream name)) ?_
    intro x sessions hsessions
    obtain ⟨hstream, hlater⟩ := watch_withSessions x selector version hsessions
    exact ⟨congrArg Except.ok hstream, hlater⟩

/-! ## Whole waits -/

/-- Two worlds between which a wait sees no difference: it ends the same way, at the same time, after
the same calls at the same times. -/
def Goal.Indifferent {σ : Type} [Backend σ] (g : Goal) (w v : World σ) : Prop :=
  (run g v).1 = (run g w).1 ∧ (run g v).2.clock = (run g w).2.clock ∧
    timedCalls (run g v).2 = timedCalls (run g w).2

theorem Goal.Blind.indifferent {σ : Type} [Backend σ] {R : σ → σ → Prop} {g : Goal}
    (hg : g.Blind R) {w : World σ} {t : σ} (h : R w.backend t) :
    g.Indifferent w { w with backend := t } := by
  obtain ⟨houtcome, hmirrored⟩ := hg.run (v := { w with backend := t }) ⟨h, rfl, rfl, rfl, rfl⟩
  exact ⟨houtcome, hmirrored.clock, hmirrored.calls⟩

/-- A wait for a named object does not notice events about other objects in the sessions that it
watches, in a script or in a sandbox: how many there are, and where, changes neither how it ends nor its
calls and their times. -/
theorem foreign_events_unnoticed {g : Goal} {name : String} (hname : g.target.name = some name) :
    (∀ (w : World (Script g.collection)) (opens : List (Except AccessError (Session g.collection))),
      opens.map (Except.map (own name)) = w.backend.opens.map (Except.map (own name)) →
        g.Indifferent w { w with backend := { w.backend with opens } }) ∧
    ∀ (w : World Sandbox) (sessions : List (Session g.collection)),
      sessions.map (own name) = (w.backend.shelf g.collection).store.sessions.map (own name) →
        g.Indifferent w { w with backend := w.backend.withSessions g.collection sessions } := by
  constructor
  · intro w opens hopens
    exact ((likeness_script g.collection name).blind hname).indifferent ⟨rfl, hopens⟩
  · intro w sessions hsessions
    refine ((likeness_sandbox g.collection name).blind hname).indifferent ⟨?_, sessions, ?_, ?_⟩
    · intro d hd
      exact Sandbox.shelf_setShelf_ne _ hd _
    · exact hsessions
    · exact Sandbox.shelf_setShelf_self _ _ _

/-- Four of the twelve items of the sessions are events about another pod. The wait for the pod does not
notice if they are left out. -/
theorem foreign_events_unnoticed_ldap :
    ldapGoal.target.name = some "ldap-0" ∧
      ldapSessions.map List.length = [4, 3, 2, 3] ∧
      (ldapSessions.map (own "ldap-0")).map List.length = [3, 2, 1, 2] ∧
      ldapGoal.Indifferent ldapWorld { ldapWorld with
        backend := ldapWorld.backend.withSessions .pods (ldapSessions.map (own "ldap-0")) } :=
  ⟨rfl, rfl, rfl, (foreign_events_unnoticed (g := ldapGoal) rfl).2 ldapWorld _ rfl⟩

end EcosystemSetup.Wait

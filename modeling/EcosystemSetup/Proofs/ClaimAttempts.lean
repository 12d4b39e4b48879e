import EcosystemSetup.Proofs.Interleaving
import EcosystemSetup.Proofs.RecordedState

/-!
# Attempts to claim a shared setup

A claim reads the state map and then writes it, and other claims may come in between. What a claim has
read without a state is the map from the beginning, since every map that was written later has a state
and another version. So the first write that gets through takes the setup, and every later write loses:
it carries no version although a map is there, or a version that is no longer the current one.
-/

namespace EcosystemSetup.StateStore

open Cluster Program

/-! ## The stages of a claim -/

/-- The write of a claim: into the map that was read, or into a new one. -/
def claimCall (current : Option (Object .configMaps)) (text : String) : Call :=
  match current with
  | some m => .update .configMaps (withState m .installing text)
  | none => .create .configMaps (fresh .installing text)

/-- What the answer to the write means for the claim. -/
def claimResult {β : Type} : Except AccessError β → Except StateError Unit
  | .ok _ => .ok ()
  | .error e => .error (claimError e)

/-- A claim that has looked at the clock. -/
def claimAt (current : Option (Object .configMaps)) (text : String) :
    Program (Except StateError Unit) :=
  .call (claimCall current text) fun reply => .done (claimResult reply)

/-- A claim that has read the map. -/
def claimFrom : Except StateError (Option (Object .configMaps)) → Program (Except StateError Unit)
  | .error e => .done (.error e)
  | .ok current =>
    match stateOfCurrent current with
    | .error e => .done (.error e)
    | .ok (some found) => .done (.error (.taken (some found)))
    | .ok none => .now (claimAt current)

/-- Writing the state for a claim is a look at the clock and one call. -/
theorem writeMap_bind (current : Option (Object .configMaps)) :
    (writeMap current .installing >>= fun answer =>
      match answer with
      | .ok () => return .ok ()
      | .error e => return .error (claimError e)) = .now (claimAt current) := by
  cases current with
  | none =>
    change Program.now _ = _
    congr 1
    funext text
    change Program.call _ _ = Program.call _ _
    congr 1
    funext reply
    cases reply <;> rfl
  | some m =>
    change Program.now _ = _
    congr 1
    funext text
    change Program.call _ _ = Program.call _ _
    congr 1
    funext reply
    cases reply <;> rfl

/-- A claim reads the map first. -/
theorem claim_eq : claim =
    .call (.get .configMaps mapName) fun reply => claimFrom (mapOfAnswer reply) := by
  unfold claim
  rw [readMap_eq]
  change Program.call _ _ = _
  congr 1
  funext reply
  dsimp only
  generalize mapOfAnswer reply = answer
  unfold claimFrom
  cases answer with
  | error e => rfl
  | ok current =>
    simp only [Program.bind]
    cases hstate : stateOfCurrent current with
    | error e => rfl
    | ok found =>
      cases found with
      | some state => rfl
      | none => exact writeMap_bind current

/-! ## The state map of a shared store -/

/-- A map as a setup may find it before any claim: without a state, and with a version that no write
after the given revision hands out. -/
structure Original (bound : Nat) (m : Object .configMaps) : Prop where
  stateless : stateOf m = .ok none
  version : ∃ v, m.metadata.resourceVersion = some v ∧ ∀ n, bound < n → v ≠ toString n

/-- What a read of the state map tells. A map without a state is the one from the beginning; and unless an
error was put in its way the read tells whether there is a state. -/
structure Truthful (map : Option (Object .configMaps))
    (reply : Except AccessError (Object .configMaps)) (faulted : Bool) : Prop where
  stateless : ∀ m, reply = .ok m → stateOf m = .ok none → map = some m
  seen : faulted = false → ∃ current found, mapOfAnswer reply = .ok current ∧
    stateOfCurrent current = .ok found ∧ (found = none → current = map)

/-- How the state map stands: as at the beginning, or, once the setup is taken, with a state and a
version that was handed out since. -/
structure Custody (map : Option (Object .configMaps)) (bound : Nat) (taken : Prop)
    (s : Store .configMaps) : Prop where
  original : ∀ m, map = some m → m.name = mapName ∧ Original bound m
  filed : s.Filed
  bound_le : bound ≤ s.revision
  untouched : ¬ taken → s.object? mapName = map
  held : taken → ∃ m n state, s.object? mapName = some m ∧
    m.metadata.resourceVersion = some (toString n) ∧ bound < n ∧ stateOf m = .ok (some state)

namespace Custody

variable {map current : Option (Object .configMaps)} {bound : Nat} {taken : Prop}
  {s t : Store .configMaps} {faulted : Bool} {text : String}

theorem congr {taken' : Prop} (h : Custody map bound taken s) (hiff : taken ↔ taken') :
    Custody map bound taken' s :=
  propext hiff ▸ h

theorem of_objects (h : Custody map bound taken s) (hobjects : t.objects = s.objects)
    (hrevision : t.revision = s.revision) : Custody map bound taken t := by
  have hsame := Store.object?_congr hobjects mapName
  refine ⟨h.original, h.filed.of_objects hobjects, hrevision ▸ h.bound_le, ?_, ?_⟩
  · rw [hsame]
    exact h.untouched
  · rw [hsame]
    exact h.held

/-- A write under another name leaves the state map. -/
theorem of_other (h : Custody map bound taken s) {o : Object .configMaps}
    {reply : Except AccessError (Object .configMaps)} (hwritten : Store.Written s o (reply, t))
    (hname : mapName ≠ o.name) :
    Custody map bound taken t ∧ t.object? mapName = s.object? mapName := by
  have hsame : t.object? mapName = s.object? mapName := hwritten.object?_ne hname
  refine ⟨⟨h.original, hwritten.keeps_filed h.filed, ?_, ?_, ?_⟩, hsame⟩
  · exact Nat.le_trans h.bound_le hwritten.revision_le
  · rw [hsame]
    exact h.untouched
  · rw [hsame]
    exact h.held

/-- A write of a state takes the setup, or leaves it taken. -/
theorem of_state (h : Custody map bound taken s) {o q : Object .configMaps} {state : RunState}
    (hwritten : Store.Written s o (.ok q, t)) (hname : o.name = mapName)
    (hstate : stateOf o = .ok (some state)) :
    Custody map bound True t ∧ stateOfCurrent (t.object? mapName) = .ok (some state) := by
  have hself : t.object? mapName = some (s.stamped o) := hname ▸ hwritten.object?_self rfl
  have hbound : bound < s.revision + 1 := Nat.lt_succ_of_le h.bound_le
  refine ⟨⟨h.original, hwritten.keeps_filed h.filed, ?_, by simp, ?_⟩, ?_⟩
  · exact Nat.le_trans h.bound_le hwritten.revision_le
  · intro _
    exact ⟨_, s.revision + 1, state, hself, rfl, hbound, hstate⟩
  · rw [hself]
    exact hstate

/-- Every read of the state map is truthful. -/
theorem truthful (h : Custody map bound taken s)
    {reply : Except AccessError (Object .configMaps)}
    (hanswered : Answered s (.called (.get .configMaps mapName) reply) faulted t) :
    Truthful map reply faulted := by
  obtain ⟨_, _, hlook, hobject⟩ := hanswered.of_get
  constructor
  · intro m hm hnone
    -- once the setup is taken the map has a state
    by_cases htaken : taken
    · obtain ⟨q, n, state, hq, _, _, hstate⟩ := h.held htaken
      rw [hobject m hm, Option.some.injEq] at hq
      rw [← hq, hnone] at hstate
      simp at hstate
    · rw [← h.untouched htaken]
      exact hobject m hm
  · intro hfaulted
    have hreply := hlook hfaulted
    unfold Store.lookUp at hreply
    by_cases htaken : taken
    · obtain ⟨m, n, state, hm, _, _, hstate⟩ := h.held htaken
      rw [hm] at hreply
      subst hreply
      exact ⟨some m, some state, rfl, hstate, by simp⟩
    · rw [h.untouched htaken] at hreply
      cases hmap : map with
      | none =>
        rw [hmap] at hreply
        subst hreply
        exact ⟨none, none, rfl, rfl, fun _ => rfl⟩
      | some m =>
        rw [hmap] at hreply
        subst hreply
        exact ⟨some m, none, rfl, (h.original m hmap).2.stateless, fun _ => rfl⟩

/-! ### Writing -/

/-- The setup is taken if the state map does not stand as at the beginning. -/
theorem taken_of_ne (h : Custody map bound taken s) (hne : s.object? mapName ≠ map) : taken := by
  by_contra htaken
  exact hne (h.untouched htaken)

/-- A creation of the state map fails without a change. It has lost if no error was put in its way, and
there was a map at the beginning or the setup is taken. -/
theorem of_create_error (h : Custody map bound taken s) {e : AccessError}
    (hanswered : Answered s (.called (.create .configMaps (fresh .installing text)) (.error e))
      faulted t) :
    t = s ∧ (faulted = false → claimError e = .taken none) ∧
      (faulted = false → none = map → taken) := by
  rcases hanswered.of_create with ⟨_, hfaulted, rfl⟩ | ⟨_, hcreate⟩
  · simp [hfaulted]
  · rcases s.create_cases (fresh .installing text) with ⟨⟨held, hheld⟩, h'⟩ | ⟨_, h'⟩
    -- a map is there; if there was none at the beginning, another run has made it
    · rw [h', Prod.mk.injEq, Except.error.injEq] at hcreate
      obtain ⟨rfl, rfl⟩ := hcreate
      refine ⟨rfl, fun _ => rfl, fun _ hmap => h.taken_of_ne ?_⟩
      change s.object? mapName = some held at hheld
      rw [hheld, ← hmap]
      simp
    · rw [h', Prod.mk.injEq] at hcreate
      simp at hcreate

/-- An update of the map from the beginning fails without a change. If no error was put in its way it has
lost to another. -/
theorem of_update_error (h : Custody map bound taken s) {m : Object .configMaps}
    (hmap : map = some m) {e : AccessError}
    (hanswered : Answered s
      (.called (.update .configMaps (withState m .installing text)) (.error e)) faulted t) :
    t = s ∧ (faulted = false → claimError e = .taken none) ∧ (faulted = false → taken) := by
  obtain ⟨hname, horiginal⟩ := h.original m hmap
  have hsent : (withState m .installing text).name = mapName := hname
  rcases hanswered.of_update with ⟨_, hfaulted, rfl⟩ | ⟨_, hupdate⟩
  · simp [hfaulted]
  · rcases s.update_cases (withState m .installing text) with
      ⟨hnone, h'⟩ | ⟨held, detail, hheld, hstale, h'⟩ | ⟨held, _, _, h'⟩
    · -- no map ever goes away
      rw [hsent] at hnone
      have htaken : taken := h.taken_of_ne (by simp [hnone, hmap])
      obtain ⟨q, n, state, hq, _⟩ := h.held htaken
      simp [hnone] at hq
    -- the map that was read would not be stale if it were still the one that is held
    · rw [h', Prod.mk.injEq, Except.error.injEq] at hupdate
      obtain ⟨rfl, rfl⟩ := hupdate
      refine ⟨rfl, fun _ => rfl, fun _ => h.taken_of_ne ?_⟩
      rintro huntouched
      rw [hsent, huntouched, hmap, Option.some.injEq] at hheld
      subst hheld
      obtain ⟨v, hv, _⟩ := horiginal.version
      simp [Store.staleness?, withState, hv] at hstale
    · rw [h', Prod.mk.injEq] at hupdate
      simp at hupdate

/-- A creation of the state map gets through only if the setup is not taken, and takes it. -/
theorem of_create_ok (h : Custody map bound taken s) {q : Object .configMaps}
    (hanswered : Answered s (.called (.create .configMaps (fresh .installing text)) (.ok q))
      faulted t) :
    ¬ taken ∧ Custody map bound True t ∧
      stateOfCurrent (t.object? mapName) = .ok (some .installing) := by
  rcases hanswered.of_create with ⟨⟨e, he⟩, _⟩ | ⟨_, hcreate⟩
  · simp at he
  · rcases s.create_cases (fresh .installing text) with ⟨_, h'⟩ | ⟨hfree, _⟩
    · rw [h', Prod.mk.injEq] at hcreate
      simp at hcreate
    · refine ⟨?_, h.of_state (hcreate ▸ s.written_create _) rfl (stateOf_fresh _ _)⟩
      intro htaken
      obtain ⟨m, n, state, hm, _⟩ := h.held htaken
      change s.object? mapName = none at hfree
      simp [hfree] at hm

/-- An update of the map from the beginning gets through only if the setup is not taken, and takes
it. -/
theorem of_update_ok (h : Custody map bound taken s) {m q : Object .configMaps}
    (hmap : map = some m)
    (hanswered : Answered s
      (.called (.update .configMaps (withState m .installing text)) (.ok q)) faulted t) :
    ¬ taken ∧ Custody map bound True t ∧
      stateOfCurrent (t.object? mapName) = .ok (some .installing) := by
  obtain ⟨hname, horiginal⟩ := h.original m hmap
  have hsent : (withState m .installing text).name = mapName := hname
  rcases hanswered.of_update with ⟨⟨e, he⟩, _⟩ | ⟨_, hupdate⟩
  · simp at he
  · rcases s.update_cases (withState m .installing text) with
      ⟨_, h'⟩ | ⟨_, _, _, _, h'⟩ | ⟨held, hheld, hstale, _⟩
    · rw [h', Prod.mk.injEq] at hupdate
      simp at hupdate
    · rw [h', Prod.mk.injEq] at hupdate
      simp at hupdate
    · refine ⟨?_, h.of_state (hupdate ▸ s.written_update _) hsent (stateOf_withState _ _ _)⟩
      intro htaken
      -- the version that was read has been replaced
      obtain ⟨p, n, state, hp, hversion, hn, _⟩ := h.held htaken
      rw [hsent, hp, Option.some.injEq] at hheld
      subst hheld
      obtain ⟨v, hv, hfresh⟩ := horiginal.version
      have hsame : v = toString n := by
        simpa [Store.staleness?, withState, hv, hversion] using hstale
      exact hfresh n hn hsame

/-- A claim's write that fails changes nothing. Unless an error was put in its way it has lost to
another, and it has if it was to change the map from the beginning. -/
theorem of_claim_error (h : Custody map bound taken s)
    (hcurrent : ∀ m, current = some m → map = some m) {e : AccessError}
    (hanswered : Answered s (.called (claimCall current text) (.error e)) faulted t) :
    t = s ∧ (faulted = false → claimError e = .taken none) ∧
      (faulted = false → current = map → taken) := by
  cases current with
  | none => exact h.of_create_error hanswered
  | some m =>
    obtain ⟨hsame, hlost, htaken⟩ := h.of_update_error (hcurrent m rfl) hanswered
    exact ⟨hsame, hlost, fun hfaulted _ => htaken hfaulted⟩

/-- A claim's write that gets through is the first, and takes the setup. -/
theorem of_claim_ok (h : Custody map bound taken s)
    (hcurrent : ∀ m, current = some m → map = some m) {q : (claimCall current text).Answer}
    (hanswered : Answered s (.called (claimCall current text) (.ok q)) faulted t) :
    ¬ taken ∧ Custody map bound True t ∧
      stateOfCurrent (t.object? mapName) = .ok (some .installing) := by
  cases current with
  | none => exact h.of_create_ok hanswered
  | some m => exact h.of_update_ok (hcurrent m rfl) hanswered

end Custody

/-! ## Attempts -/

/-- What a program may do without a trace: it reads the state map, looks at the clock, or tries a write
that fails. -/
inductive Fruitless : Action → Prop where
  | read (reply : Except AccessError (Object .configMaps)) :
      Fruitless (.called (.get .configMaps mapName) reply)
  | timed (text : String) : Fruitless (.timed text)
  | create (o : Object .configMaps) (e : AccessError) :
      Fruitless (.called (.create .configMaps o) (.error e))
  | update (o : Object .configMaps) (e : AccessError) :
      Fruitless (.called (.update .configMaps o) (.error e))

/-- Whether an action is a write of an object. -/
def Writes : Action → Prop
  | .called (.create _ _) _ => True
  | .called (.update _ _) _ => True
  | _ => False

/-- The entries of a claim that has not succeeded so far, and what is left of it. -/
inductive Attempt (map : Option (Object .configMaps)) (taken : Prop) :
    List Entry → Program (Except StateError Unit) → Prop where
  | begun : Attempt map taken [] claim
  | read {reply : Except AccessError (Object .configMaps)} {f : Bool}
      (truthful : Truthful map reply f) :
      Attempt map taken [⟨.called (.get .configMaps mapName) reply, f⟩]
        (claimFrom (mapOfAnswer reply))
  | timed {reply : Except AccessError (Object .configMaps)} {f : Bool}
      {current : Option (Object .configMaps)} (truthful : Truthful map reply f)
      (read : mapOfAnswer reply = .ok current) (stateless : stateOfCurrent current = .ok none)
      (text : String) :
      Attempt map taken [⟨.called (.get .configMaps mapName) reply, f⟩, ⟨.timed text, false⟩]
        (claimAt current text)
  | lost {reply : Except AccessError (Object .configMaps)} {f g : Bool}
      {current : Option (Object .configMaps)} {text : String} {e : AccessError}
      (read : mapOfAnswer reply = .ok current) (stateless : stateOfCurrent current = .ok none)
      (overtaken : g = false → claimError e = .taken none)
      (beaten : f = false → g = false → taken) :
      Attempt map taken
        [⟨.called (.get .configMaps mapName) reply, f⟩, ⟨.timed text, false⟩,
          ⟨.called (claimCall current text) (.error e), g⟩]
        (.done (.error (claimError e)))

namespace Attempt

variable {map : Option (Object .configMaps)} {bound : Nat} {taken : Prop} {entries : List Entry}
  {c c' : Program (Except StateError Unit)} {s t : Store .configMaps} {action : Action}
  {faulted : Bool}

theorem claimFrom_eq_now {current : Option (Object .configMaps)}
    (hstate : stateOfCurrent current = .ok none) :
    claimFrom (.ok current) = .now (claimAt current) := by
  simp [claimFrom, hstate]

/-- After the read a claim has failed, or it has read a map without a state, or no map. -/
theorem claimFrom_cases (answer : Except StateError (Option (Object .configMaps))) :
    (∃ e, claimFrom answer = .done (.error e)) ∨
      ∃ current, answer = .ok current ∧ stateOfCurrent current = .ok none := by
  unfold claimFrom
  cases answer with
  | error e => exact Or.inl ⟨e, rfl⟩
  | ok current =>
    dsimp only
    cases hstate : stateOfCurrent current with
    | error e => exact Or.inl ⟨e, rfl⟩
    | ok found =>
      cases found with
      | some state => exact Or.inl ⟨_, rfl⟩
      | none => exact Or.inr ⟨current, rfl, hstate⟩

/-- A map that was read without a state is the one from the beginning. -/
theorem original_of_read {reply : Except AccessError (Object .configMaps)}
    {current : Option (Object .configMaps)} (h : Truthful map reply faulted)
    (hread : mapOfAnswer reply = .ok current) (hstate : stateOfCurrent current = .ok none) :
    ∀ m, current = some m → map = some m := by
  rintro m rfl
  refine h.stateless m ?_ hstate
  unfold mapOfAnswer at hread
  split at hread
  · simpa using hread
  · split at hread <;> simp at hread

/-- A read that no error was put in the way of, and that shows no state, shows the map from the
beginning. -/
theorem eq_of_read {reply : Except AccessError (Object .configMaps)}
    {current : Option (Object .configMaps)} (h : Truthful map reply false)
    (hread : mapOfAnswer reply = .ok current) (hstate : stateOfCurrent current = .ok none) :
    current = map := by
  obtain ⟨current', found, hread', hstate', hsame⟩ := h.seen rfl
  rw [hread, Except.ok.injEq] at hread'
  subst hread'
  rw [hstate, Except.ok.injEq] at hstate'
  exact hsame hstate'.symm

theorem mono {taken' : Prop} (h : Attempt map taken entries c) (hle : taken → taken') :
    Attempt map taken' entries c := by
  cases h with
  | begun => exact .begun
  | read truthful => exact .read truthful
  | timed truthful read stateless text => exact .timed truthful read stateless text
  | lost read stateless overtaken beaten =>
    exact .lost read stateless overtaken fun hf hg => hle (beaten hf hg)

/-- The entries of an attempt are a course of the claim. -/
theorem course (h : Attempt map taken entries c) :
    Course claim (entries.map Entry.action) c := by
  have hread : ∀ reply : Except AccessError (Object .configMaps),
      Program.Step claim (.called (.get .configMaps mapName) reply)
        (claimFrom (mapOfAnswer reply)) := by
    intro reply
    rw [claim_eq]
    exact Step.call (k := .get .configMaps mapName) reply
  have htimed : ∀ {current : Option (Object .configMaps)} (text : String),
      stateOfCurrent current = .ok none →
      Program.Step (claimFrom (.ok current)) (.timed text) (claimAt current text) := by
    intro current text hstate
    rw [claimFrom_eq_now hstate]
    exact .now text
  cases h with
  | begun => exact .nil _
  | read => exact .cons (hread _) (.nil _)
  | timed _ read stateless text =>
    exact .cons (read ▸ hread _) (.cons (htimed text stateless) (.nil _))
  | lost read stateless =>
    exact .cons (read ▸ hread _) (.cons (htimed _ stateless) (.cons (.call (.error _)) (.nil _)))

theorem ne_done_ok (h : Attempt map taken entries c) : c ≠ .done (.ok ()) := by
  cases h with
  | begun =>
    rw [claim_eq]
    simp
  | @read reply =>
    rcases claimFrom_cases (mapOfAnswer reply) with ⟨e, he⟩ | ⟨current, hread, hstate⟩
    · simp [he]
    · simp [hread, claimFrom_eq_now hstate]
  | timed => simp [claimAt]
  | lost => simp

theorem fruitless (h : Attempt map taken entries c) : ∀ x ∈ entries, Fruitless x.action := by
  have hwrite : ∀ (current : Option (Object .configMaps)) (text : String) (e : AccessError),
      Fruitless (.called (claimCall current text) (.error e)) := by
    intro current text e
    cases current with
    | none => exact .create _ e
    | some m => exact .update _ e
  cases h with
  | begun => simp
  | read => simp [Fruitless.read]
  | timed => simp [Fruitless.read, Fruitless.timed]
  | lost => simp [Fruitless.read, Fruitless.timed, hwrite]

theorem length_le (h : Attempt map taken entries c) : entries.length ≤ 3 := by
  cases h <;> simp

/-- If an attempt has come to its write, and no error was put in its way, then the setup is taken. -/
theorem taken_of_write {first rest : List Entry} (h : Attempt map taken (first ++ rest) c)
    (hwrite : ∃ x ∈ first, Writes x.action) (hclean : ∀ x ∈ first, x.faulted = false) : taken := by
  obtain ⟨x, hx, hwrite⟩ := hwrite
  generalize hentries : first ++ rest = entries at h
  have hmem : x ∈ entries := hentries ▸ List.mem_append_left rest hx
  cases h with
  | begun => simp at hmem
  | read =>
    rw [List.mem_singleton] at hmem
    subst hmem
    exact hwrite.elim
  | timed =>
    simp only [List.mem_cons, List.not_mem_nil, or_false] at hmem
    rcases hmem with rfl | rfl <;> exact hwrite.elim
  | lost _ _ _ beaten =>
    -- only the last entry is a write, so all of them are counted
    rcases first with _ | ⟨x₁, _ | ⟨x₂, _ | ⟨x₃, more⟩⟩⟩
    · simp at hx
    · simp only [List.cons_append, List.nil_append, List.cons.injEq] at hentries
      rw [List.mem_singleton, hentries.1] at hx
      subst hx
      exact hwrite.elim
    · simp only [List.cons_append, List.nil_append, List.cons.injEq] at hentries
      simp only [List.mem_cons, List.not_mem_nil, or_false, hentries.1, hentries.2.1] at hx
      rcases hx with rfl | rfl <;> exact hwrite.elim
    · simp only [List.cons_append, List.cons.injEq] at hentries
      obtain ⟨rfl, rfl, rfl, _⟩ := hentries
      simp only [List.forall_mem_cons] at hclean
      exact beaten hclean.1 hclean.2.2.1

/-- An attempt that has failed, and that no error was put in the way of, has found the setup taken. -/
theorem eq_taken (h : Attempt map taken entries (.done (.error e)))
    (hclean : ∀ x ∈ entries, x.faulted = false) : ∃ found, e = .taken found := by
  generalize hleft : Program.done (Except.error e) = c at h
  cases h with
  | begun =>
    rw [claim_eq] at hleft
    simp at hleft
  | @read reply f truthful =>
    rw [List.forall_mem_singleton] at hclean
    obtain ⟨current, found, hread, hstate, _⟩ := truthful.seen hclean
    cases found with
    | none => simp [hread, claimFrom_eq_now hstate] at hleft
    | some state =>
      simp only [hread, claimFrom, hstate, Program.done.injEq, Except.error.injEq] at hleft
      exact ⟨some state, hleft⟩
  | timed => simp [claimAt] at hleft
  | lost _ _ overtaken =>
    simp only [Program.done.injEq, Except.error.injEq] at hleft
    simp only [List.forall_mem_cons] at hclean
    exact ⟨none, hleft.trans (overtaken hclean.2.2.1)⟩

/-- One action of a claim: it goes on without a trace, or it takes the setup, which nobody held. -/
theorem step (h : Attempt map taken entries c) (hs : Custody map bound taken s)
    (hstep : Program.Step c action c') (hanswered : Answered s action faulted t) :
    (Attempt map taken (entries ++ [⟨action, faulted⟩]) c' ∧ Custody map bound taken t ∧
        t.object? mapName = s.object? mapName) ∨
      c' = .done (.ok ()) ∧ ¬ taken ∧ Custody map bound True t ∧
        stateOfCurrent (t.object? mapName) = .ok (some .installing) := by
  -- one case a stage; only the write can take the setup
  cases h with
  | begun =>
    rw [claim_eq] at hstep
    cases hstep with
    | call reply =>
      obtain ⟨hobjects, hrevision, _⟩ := hanswered.of_get
      exact Or.inl ⟨.read (hs.truthful hanswered), hs.of_objects hobjects hrevision,
        Store.object?_congr hobjects mapName⟩
  | @read reply f truthful =>
    rcases claimFrom_cases (mapOfAnswer reply) with ⟨e, he⟩ | ⟨current, hread, hstate⟩
    · rw [he] at hstep
      exact absurd hstep not_step_done
    · rw [hread, claimFrom_eq_now hstate] at hstep
      cases hstep with
      | now text =>
        cases hanswered with
        | timed => exact Or.inl ⟨.timed truthful hread hstate text, hs, rfl⟩
  | @timed reply f current truthful hread hstate text =>
    have hcurrent := original_of_read truthful hread hstate
    cases hstep with
    | call reply' =>
      cases reply' with
      | error e =>
        obtain ⟨rfl, hlost, hbeaten⟩ := hs.of_claim_error hcurrent hanswered
        refine Or.inl ⟨.lost hread hstate hlost ?_, hs, rfl⟩
        rintro rfl hfaulted
        exact hbeaten hfaulted (eq_of_read truthful hread hstate)
      | ok q =>
        obtain ⟨htaken, ht, hinstalling⟩ := hs.of_claim_ok hcurrent hanswered
        exact Or.inr ⟨rfl, htaken, ht, hinstalling⟩
  | lost => exact absurd hstep not_step_done

end Attempt

end EcosystemSetup.StateStore

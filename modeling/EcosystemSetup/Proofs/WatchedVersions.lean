import EcosystemSetup.Proofs.Resumption

/-!
# The versions that a wait watches from

A wait carries the version to watch from along: its first read that finds something sets it, and
bookmarks and changes of a target move it. Main statement: whoever answers, every call of a wait is
determined by the exchanges before it. As long as no read has found anything it is the read of the
target; from then on it opens a watch with the selector of the target, from the version carried last in
all streams so far, or from the version of the read if none was carried.
-/

namespace EcosystemSetup.Wait

open Cluster

namespace Goal

variable (g : Goal)

/-! ## Versions that exchanges carry -/

/-- The version that an event carries for a wait: bookmarks do, and changes of a target whose object has
one. -/
def stamp? : Cluster.Event g.collection → Option String
  | .added o => if g.concerns o then o.metadata.resourceVersion else none
  | .modified o => if g.concerns o then o.metadata.resourceVersion else none
  | .deleted _ => none
  | .bookmark v => some v
  | .error _ => none

/-- The version carried last in some events, or the given one if none is carried. -/
def latest (version : String) (events : List (Cluster.Event g.collection)) : String :=
  (events.filterMap g.stamp?).getLastD version

/-- The events that a wait hears in an exchange, if it opens a watch. -/
def heardIn : Exchange → List (Cluster.Event g.collection)
  | ⟨_, .watch c _ _, .ok stream⟩ => if h : c = g.collection then heard (h ▸ stream.items) else []
  | _ => []

/-- The version at which an exchange has found objects, if it reads the target: the object's own for a
target with a name, the version of the listing otherwise. -/
def foundVersion? : Exchange → Option String
  | ⟨_, .get c name, .ok o⟩ =>
    if c = g.collection ∧ g.target.name = some name then
      some (o.metadata.resourceVersion.getD "")
    else none
  | ⟨_, .list c selector, .ok s⟩ =>
    if c = g.collection ∧ g.target.name = none ∧ selector = g.target.selector then some s.version
    else none
  | _ => none

/-- The call that reads the target. -/
def readCall : Call :=
  match g.target.name with
  | some name => .get g.collection name
  | none => .list g.collection g.target.selector

/-- The call that opens a watch from a version. -/
@[reducible] def watchCall (version : String) : Call :=
  .watch g.collection g.target.selector version

/-- The call that follows some exchanges of a wait. -/
def callAfter (before : List Exchange) : Call :=
  match before.findSome? g.foundVersion? with
  | none => g.readCall
  | some first => g.watchCall (g.latest first (before.flatMap g.heardIn))

variable {g}

/-! ## One stream -/

/-- The version to resume at is the one that the event carries, if it carries one. -/
theorem resume_eq (version : String) (e : Cluster.Event g.collection) :
    g.resume version e = (g.stamp? e).getD version := by
  cases e with
  | added o =>
    unfold resume stamp?
    dsimp only
    split <;> rfl
  | modified o =>
    unfold resume stamp?
    dsimp only
    split <;> rfl
  | deleted o => rfl
  | bookmark v => rfl
  | error s => rfl

theorem latest_nil (version : String) : g.latest version [] = version := rfl

theorem latest_cons (version : String) (e : Cluster.Event g.collection)
    (rest : List (Cluster.Event g.collection)) :
    g.latest version (e :: rest) = g.latest (g.resume version e) rest := by
  unfold latest
  rw [resume_eq]
  cases hstamp : g.stamp? e with
  | none => rw [List.filterMap_cons_none hstamp, Option.getD_none]
  | some v => rw [List.filterMap_cons_some hstamp, List.getLastD_cons, Option.getD_some]

theorem latest_append (version : String) (first second : List (Cluster.Event g.collection)) :
    g.latest version (first ++ second) = g.latest (g.latest version first) second := by
  induction first generalizing version with
  | nil => rfl
  | cons e rest ih => rw [List.cons_append, latest_cons, latest_cons, ih]

/-- A stream that does not decide leaves the version carried last in what was heard of it. -/
theorem version_listen {version v : String} {items : Session g.collection}
    (h : (g.listen version items).version? = some v) : v = g.latest version (heard items) := by
  -- nothing behind an item that breaks the stream is heard, so nothing behind it counts
  induction items generalizing version with
  | nil => exact (Option.some.inj h).symm
  | cons x rest ih =>
    by_cases hbreaks : breaks x = true
    · rw [listen_cons_of_breaks hbreaks] at h
      rw [heard_cons_of_breaks hbreaks, latest_nil]
      exact (Option.some.inj h).symm
    · rw [Bool.not_eq_true] at hbreaks
      cases x with
      | error e => simp [breaks] at hbreaks
      | ok e =>
        rw [heard_cons_of_not_breaks hbreaks, latest_cons]
        cases hverdict : g.verdict? e with
        | some outcome => simp [listen_cons_of_verdict hverdict, Heard.version?] at h
        | none =>
          rw [listen_cons_of_verdict_none hbreaks hverdict] at h
          exact ih h

theorem heardIn_watch (time : Nat) (version : String) (stream : Stream g.collection) :
    g.heardIn ⟨time, g.watchCall version, .ok stream⟩ = heard stream.items := by
  simp [heardIn]

/-- A wait that goes on after opening a watch opens the next one, from the version carried last. -/
theorem stage_afterOpen (time : Nat) {version : String}
    {reply : Except AccessError (Stream g.collection)} {stage : Stage}
    (h : (g.afterOpen version reply).stage? = some stage) :
    stage = .opening (g.latest version (g.heardIn ⟨time, g.watchCall version, reply⟩)) := by
  cases reply with
  | error e => exact (Option.some.inj h).symm
  | ok stream =>
    rw [heardIn_watch]
    rcases afterOpen_cases version stream with
      ⟨outcome, _, hnext⟩ | ⟨v, _, hv, hnext | ⟨_, hnext⟩⟩
    · rw [hnext] at h
      cases h
    · rw [hnext] at h
      rw [← version_listen hv]
      exact (Option.some.inj h).symm
    · rw [hnext] at h
      cases h

/-! ## One read -/

theorem call_reading (attempt : Nat) : (g.move (.reading attempt)).call = g.readCall := by
  unfold readCall
  cases hname : g.target.name with
  | some name => rw [move_reading_of_name hname]
  | none => rw [move_reading_of_nameless hname]

/-- A wait that goes on after a read that found objects watches from the version that it found them
at. -/
theorem stage_afterFound {items : List (Object g.collection)} {version : String} {stage : Stage}
    (h : (g.afterFound items version).stage? = some stage) : stage = .opening version := by
  unfold afterFound at h
  split at h
  · cases h
  · cases h
  · exact (Option.some.inj h).symm

/-- A wait that goes on after a read that failed reads again. -/
theorem stage_afterReadError {attempt : Nat} {e : AccessError} {stage : Stage}
    (h : (g.afterReadError attempt e).stage? = some stage) : stage = .reading (attempt + 1) := by
  unfold afterReadError at h
  split at h
  · split at h
    · cases h
    · exact (Option.some.inj h).symm
  · cases h

/-- A wait that goes on after a read watches from the version at which the read found something, or
reads again if it found nothing. -/
theorem stage_afterRead {attempt : Nat} (time : Nat)
    {reply : (g.move (.reading attempt)).call.Reply} {stage : Stage} (h : ((g.move (.reading attempt)).next reply).stage? = some stage) :
    g.heardIn ⟨time, (g.move (.reading attempt)).call, reply⟩ = [] ∧
      ((∃ version, stage = .opening version ∧
          g.foundVersion? ⟨time, (g.move (.reading attempt)).call, reply⟩ = some version) ∨
        ∃ next, stage = .reading next ∧
          g.foundVersion? ⟨time, (g.move (.reading attempt)).call, reply⟩ = none) := by
  revert reply
  cases hname : g.target.name with
  | some name =>
    rw [move_reading_of_name hname]
    rintro (e | o) h
    · exact ⟨rfl, Or.inr ⟨_, stage_afterReadError h, rfl⟩⟩
    · exact ⟨rfl, Or.inl ⟨_, stage_afterFound h, by simp [foundVersion?, hname]⟩⟩
  | none =>
    rw [move_reading_of_nameless hname]
    rintro (e | found) h
    · exact ⟨rfl, Or.inr ⟨_, stage_afterReadError h, rfl⟩⟩
    · exact ⟨rfl, Or.inl ⟨_, stage_afterFound h, by simp [foundVersion?, hname]⟩⟩

/-! ## One call after the other -/

/-- Once a wait watches it only opens watches, each from the version carried last in the streams before
it. -/
theorem Course.call_of_opening {n last : Next} {before after : List Exchange} {x : Exchange}
    {version : String} (h : g.Course n (before ++ x :: after) last)
    (hstage : n.stage? = some (.opening version)) :
    x.call = g.watchCall (g.latest version (before.flatMap g.heardIn)) := by
  -- along the exchanges before, from the front: each moves the version that the rest starts from
  induction before generalizing n version with
  | nil =>
    obtain ⟨time, reply, rfl, _⟩ := h.of_opening hstage
    rfl
  | cons y rest ih =>
    obtain ⟨time, reply, rfl, hlater⟩ := h.of_opening hstage
    obtain ⟨stage, hnext⟩ := hlater.exists_stage
    have hopening := stage_afterOpen time hnext
    rw [List.flatMap_cons, latest_append]
    exact ih hlater (hopening ▸ hnext)

/-- From its reads on every call of a wait is determined by what came before it. -/
theorem Course.call_of_reading {n last : Next} {before after : List Exchange} {x : Exchange}
    {attempt : Nat} (h : g.Course n (before ++ x :: after) last)
    (hstage : n.stage? = some (.reading attempt)) : x.call = g.callAfter before := by
  induction before generalizing n attempt with
  | nil =>
    cases h with
    | @cons _ _ stage _ goesOn time reply later =>
      obtain rfl : stage = .reading attempt := by
        rw [goesOn] at hstage
        exact Option.some.inj hstage
      exact call_reading attempt
  | cons y rest ih =>
    generalize hxs : y :: rest ++ x :: after = xs at h
    cases h with
    | nil => cases hxs
    | @cons _ _ stage _ goesOn time reply later =>
      cases hxs
      obtain rfl : stage = .reading attempt := by
        rw [goesOn] at hstage
        exact Option.some.inj hstage
      obtain ⟨next, hnext⟩ := later.exists_stage
      obtain ⟨hheard, ⟨version, rfl, hfound⟩ | ⟨again, rfl, hnothing⟩⟩ :=
        stage_afterRead time hnext
      · -- the first read that found something
        rw [later.call_of_opening hnext, callAfter, List.findSome?_cons, hfound, List.flatMap_cons,
          hheard, List.nil_append]
      · rw [ih later hnext, callAfter, callAfter, List.findSome?_cons, hnothing, List.flatMap_cons,
          hheard, List.nil_append]

end Goal

/-! ## Whole waits -/

/-- Every call of a wait is determined by the exchanges before it. It reads the target until a read has
found something; after that it opens watches with the selector of the target, from the version that the
last bookmark or the last change of a target with a version carried in any stream so far, and from the
version of the read if there was none. -/
theorem calls_determined {σ : Type} [Backend σ] (g : Goal) (w : World σ) :
    ∃ news, World.Since w (run g w).2 news ∧
      ∀ before x after, news = before ++ x :: after → x.call = g.callAfter before := by
  obtain ⟨news, last, hnews, hcourse, _⟩ := course_of_run g w
  refine ⟨news, hnews, ?_⟩
  intro before x after hsplit
  subst hsplit
  exact hcourse.call_of_reading rfl

/-- A refused watch, foreign changes and errors leave the version; a bookmark moves it. -/
example : ldapGoal.callAfter
      (⟨0, .get .pods "ldap-0", .ok (ldapPod "ldap-0" "1" false)⟩ :: ldapWatches.take 3) =
    .watch .pods "dogu.name=ldap-0" "55" := rfl

end EcosystemSetup.Wait

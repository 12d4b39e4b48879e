import EcosystemSetup.Proofs.WatchedVersions

/-!
# Versions that are no longer kept

A cluster that no longer keeps the version a watch asks for says so: by an error event, by an error of
the stream, or by refusing the watch. The version can never work again. Main statement: an error event
ends the wait as expired. The two errors do not: the wait takes them for a stream that broke and opens
the watch again from the same version, until it is interrupted or the cluster answers otherwise. So a
wait ends at the first report exactly if none of them comes as an error.
-/

namespace EcosystemSetup

open Cluster

/-- The status with which the cluster says that a version is no longer kept, if an error is that. -/
def Cluster.AccessError.expiry? : AccessError → Option Status
  | .refused _ s => if s.isExpired then some s else none
  | _ => none

namespace Wait

namespace Goal

variable (g : Goal)

/-! ## Reports -/

/-- The exchange opens a watch whose stream says by an error event that the version is no longer kept,
and the wait hears of it. -/
inductive AnnouncesExpiry : Exchange → Status → Prop where
  | event {time : Nat} {version reached : String} {stream : Stream g.collection} {s : Status}
      {before after : Session g.collection} (items : stream.items = before ++ .ok (.error s) :: after)
      (undecided : g.listen version before = .drained reached) (expired : s.isExpired = true) :
      AnnouncesExpiry ⟨time, g.watchCall version, .ok stream⟩ s

/-- The exchange opens a watch that is refused because the version is no longer kept, or whose stream
fails with this error when the wait has come to a version. -/
inductive FailsByExpiry : Exchange → Status → String → Prop where
  | item {time : Nat} {version reached : String} {stream : Stream g.collection} {s : Status}
      {cause : AccessError} {before after : Session g.collection}
      (items : stream.items = before ++ .error cause :: after)
      (undecided : g.listen version before = .drained reached) (expired : cause.expiry? = some s) :
      FailsByExpiry ⟨time, g.watchCall version, .ok stream⟩ s reached
  | refused {time : Nat} {version : String} {s : Status} {cause : AccessError}
      (expired : cause.expiry? = some s) :
      FailsByExpiry ⟨time, g.watchCall version, .error cause⟩ s version

/-- The wait learns in the exchange that the version is no longer kept. -/
def ReportsExpiry (x : Exchange) (s : Status) : Prop :=
  g.AnnouncesExpiry x s ∨ ∃ version, g.FailsByExpiry x s version

/-- The wait ends as expired with the first report, and makes no call after it. -/
def EndsAtExpiry (news : List Exchange) (outcome : Outcome) : Prop :=
  ∀ (before : List Exchange) (x : Exchange) (after : List Exchange) (s : Status),
    news = before ++ x :: after → g.ReportsExpiry x s →
      after = [] ∧ outcome = .error (.expired g.targetText s.message)

variable {g}

/-! ## After a report -/

/-- What was listened to without a decision only moves the version. -/
theorem listen_append {version reached : String} {before : Session g.collection}
    (h : g.listen version before = .drained reached) (after : Session g.collection) :
    g.listen version (before ++ after) = g.listen reached after := by
  induction before generalizing version with
  | nil =>
    rw [listen, Heard.drained.injEq] at h
    exact h ▸ rfl
  | cons x rest ih =>
    cases x with
    | error e => cases h
    | ok e =>
      rw [List.cons_append, listen]
      rw [listen] at h
      split at h
      · exact ih h
      · cases h
      · cases h

/-- An error event that says so ends the wait as expired. -/
theorem afterOpen_of_announced {version reached : String} {stream : Stream g.collection} {s : Status}
    {before after : Session g.collection} (items : stream.items = before ++ .ok (.error s) :: after)
    (undecided : g.listen version before = .drained reached) (expired : s.isExpired = true) :
    g.afterOpen version (.ok stream) = .finish (.error (.expired g.targetText s.message)) := by
  have hlisten : g.listen version stream.items =
      .decided (.error (.expired g.targetText s.message)) := by
    rw [items, listen_append undecided]
    exact listen_cons_of_verdict (by simp [verdict?, expired])
  unfold afterOpen
  dsimp only
  rw [hlisten]

/-- An error of the stream makes the wait open the watch again, whatever the error is. -/
theorem afterOpen_of_failed {version reached : String} {stream : Stream g.collection}
    {cause : AccessError} {before after : Session g.collection}
    (items : stream.items = before ++ .error cause :: after)
    (undecided : g.listen version before = .drained reached) :
    g.afterOpen version (.ok stream) = g.reopen reached := by
  have hlisten : g.listen version stream.items = .broken reached := by
    rw [items, listen_append undecided]
    rfl
  unfold afterOpen
  dsimp only
  rw [hlisten]

/-- Where a course opens a watch it goes on as the answer to it says. -/
theorem Course.after_watch {n last : Next} {before after : List Exchange} {time : Nat}
    {version : String} {reply : Except AccessError (Stream g.collection)}
    (h : g.Course n (before ++ ⟨time, g.watchCall version, reply⟩ :: after) last) :
    g.Course (g.afterOpen version reply) after last := by
  obtain ⟨l, _, hrest⟩ := h.split
  have hwhole : g.Course l ([] ++ ⟨time, g.watchCall version, reply⟩ :: after) last := hrest
  obtain ⟨stage, hstage⟩ := hwhole.exists_stage
  -- the call is a watch, so the course has come to one
  cases stage with
  | reading attempt =>
    have hread : g.watchCall version = g.readCall := hwhole.call_of_reading hstage
    unfold readCall at hread
    split at hread <;> cases hread
  | opening opened =>
    obtain ⟨_, _, heq, hlater⟩ := hrest.of_opening hstage
    cases heq
    exact hlater

/-- Nothing follows an error event that says so, and the course has come to an end as expired. -/
theorem Course.after_announced {n last : Next} {before after : List Exchange} {x : Exchange}
    {s : Status} (h : g.Course n (before ++ x :: after) last) (hx : g.AnnouncesExpiry x s) :
    after = [] ∧ last = .finish (.error (.expired g.targetText s.message)) := by
  cases hx with
  | event items undecided expired =>
    have hlater := h.after_watch
    rw [afterOpen_of_announced items undecided expired] at hlater
    exact hlater.eq_nil rfl

/-- After an error that says so the course is to open the watch again from the same version. -/
theorem Course.after_failed {n last : Next} {before after : List Exchange} {x : Exchange}
    {s : Status} {version : String} (h : g.Course n (before ++ x :: after) last)
    (hx : g.FailsByExpiry x s version) : g.Course (g.reopen version) after last := by
  cases hx with
  | item items undecided expired =>
    have hlater := h.after_watch
    rwa [afterOpen_of_failed items undecided] at hlater
  | refused expired => exact h.after_watch

/-! ## Expiry at rest -/

/-- A read never ends a wait as expired. -/
theorem reading_ne_expired {attempt : Nat} {reply : (g.move (.reading attempt)).call.Reply}
    {text message : String} :
    (g.move (.reading attempt)).next reply ≠ .finish (.error (.expired text message)) := by
  have hfound : ∀ (items : List (Object g.collection)) (version : String),
      g.afterFound items version ≠ .finish (.error (.expired text message)) := by
    intro items version
    unfold afterFound
    split <;> simp
  have hfailed : ∀ e : AccessError,
      g.afterReadError attempt e ≠ .finish (.error (.expired text message)) := by
    intro e
    unfold afterReadError
    split
    · split <;> simp
    · simp
  revert reply
  cases hname : g.target.name with
  | some name =>
    rw [move_reading_of_name hname]
    rintro (e | o)
    · exact hfailed e
    · exact hfound _ _
  | none =>
    rw [move_reading_of_nameless hname]
    rintro (e | found)
    · exact hfailed e
    · exact hfound _ _

end Goal

theorem Position.eq_finish_of_ofNext {clock : Nat} {n : Next} {outcome : Outcome}
    (h : Position.ofNext clock n = .ended outcome) : n = .finish outcome := by
  cases n with
  | proceed stage => cases h
  | pause d stage =>
    unfold Position.ofNext at h
    dsimp only at h
    split at h <;> cases h
  | silence => cases h
  | finish outcome' =>
    rw [Position.ofNext, Position.ended.injEq] at h
    rw [h]

/-- A cluster whose answers to opened watches arrive before a wait can be interrupted. -/
def PromptWatches (σ : Type) [Backend σ] : Prop :=
  ∀ (c : Collection) (selector version : String) (b : σ),
    Backend.suspends (.watch c selector version) b = false

theorem promptWatches_sandbox : PromptWatches Sandbox :=
  fun _ _ _ _ => rfl

variable {σ : Type} [Backend σ] {g : Goal}

/-- On such a cluster a wait that has expired ends at once. -/
theorem drive_ne_expired (hprompt : PromptWatches σ) (fuel : Nat) (p : Position) (w : World σ)
    (text message : String) (wake : Option Nat) :
    (drive g fuel p w).1 ≠ .again (.ended (.error (.expired text message))) wake := by
  induction fuel generalizing p w with
  | zero => cases p <;> simp [drive]
  | succ fuel ih =>
    cases p with
    | ended outcome => simp [drive]
    | silent => simp [drive]
    | paused wake' stage =>
      rw [drive]
      split
      · exact ih _ _
      · simp
    | ready stage =>
      rw [drive]
      -- only a call whose answer others may come before leaves the wait at rest, and only reads are
      split
      · rename_i hsuspends
        cases stage with
        | reading attempt =>
          intro heq
          rw [Turn.again.injEq] at heq
          exact Goal.reading_ne_expired (Position.eq_finish_of_ofNext heq.1)
        | opening version =>
          have hnot := hprompt g.collection g.target.selector version w.backend
          exact absurd hsuspends (by rw [← Bool.not_eq_true] at hnot; exact hnot)
      · exact ih _ _

/-- A wait whose course has come to an end as expired is not interrupted any more. -/
theorem course_of_run_prompt (hprompt : PromptWatches σ) (g : Goal) (w : World σ) :
    ∃ news n, World.Since w (run g w).2 news ∧ g.Course (.proceed (.reading 1)) news n ∧
      (n = .finish (run g w).1 ∨ g.Interrupted (run g w).1 ∧
        ∀ text message, n ≠ .finish (.error (.expired text message))) := by
  have hstart : g.Reached w (.ready (.reading 1)) w := ⟨[], _, w.since_refl, .nil _, .ready rfl⟩
  have hrests : ∀ q, g.Rests σ q →
      ∀ text message, q ≠ .ended (.error (.expired text message)) := by
    rintro q ⟨fuel, p, v, wake, hdrive⟩ text message rfl
    exact drive_ne_expired hprompt fuel p v text message wake hdrive
  obtain ⟨q, ⟨news, n, hnews, hcourse, hfollows⟩, hend⟩ :=
    (g.keeps_reached w).run_rests hrests hstart (by simp)
  refine ⟨news, n, hnews, hcourse, ?_⟩
  rcases hend with rfl | ⟨hinterrupted, hq⟩
  · cases hfollows with
    | ended outcome => exact Or.inl rfl
  · refine Or.inr ⟨hinterrupted, ?_⟩
    rintro text message rfl
    cases hfollows with
    | ready goesOn => cases goesOn
    | paused goesOn => cases goesOn
    | ended => exact hq text message rfl

/-! ## Whole waits -/

/-- An error event that says that the version is no longer kept ends the wait as expired, without
another call. After an error that says so the watch is opened again from the same version, unless the
wait is interrupted before. So the wait ends at the first report exactly if none comes as an error. -/
theorem endsAtExpiry_iff (hprompt : PromptWatches σ) {w : World σ} {news : List Exchange}
    (hsince : World.Since w (run g w).2 news) :
    (∀ before x after s, news = before ++ x :: after → g.AnnouncesExpiry x s →
      after = [] ∧ (run g w).1 = .error (.expired g.targetText s.message)) ∧
    (∀ before x after s version, news = before ++ x :: after → g.FailsByExpiry x s version →
      (after = [] ∧ g.Interrupted (run g w).1) ∨
        ∃ next rest, after = next :: rest ∧ next.call = g.watchCall version) ∧
    (g.EndsAtExpiry news (run g w).1 ↔ ∀ x ∈ news, ∀ s version, ¬ g.FailsByExpiry x s version) := by
  obtain ⟨news', n, hnews, hcourse, hend⟩ := course_of_run_prompt hprompt g w
  obtain rfl : news' = news := hnews.unique hsince
  have hannounced : ∀ before x after s, news' = before ++ x :: after → g.AnnouncesExpiry x s →
      after = [] ∧ (run g w).1 = .error (.expired g.targetText s.message) := by
    rintro before x after s rfl hx
    obtain ⟨hnil, hlast⟩ := hcourse.after_announced hx
    refine ⟨hnil, ?_⟩
    rcases hend with hfinish | ⟨_, hnot⟩
    · rw [hlast, Next.finish.injEq] at hfinish
      exact hfinish.symm
    · exact absurd hlast (hnot _ _)
  have hfailed : ∀ before x after s version, news' = before ++ x :: after →
      g.FailsByExpiry x s version → (after = [] ∧ g.Interrupted (run g w).1) ∨
        ∃ next rest, after = next :: rest ∧ next.call = g.watchCall version := by
    rintro before x after s version rfl hx
    have hlater := hcourse.after_failed hx
    cases after with
    | nil =>
      refine Or.inl ⟨rfl, ?_⟩
      rcases hend with hfinish | ⟨hinterrupted, _⟩
      · rw [hfinish] at hlater
        cases hlater
      · exact hinterrupted
    | cons next rest =>
      obtain ⟨time, reply, rfl, _⟩ := hlater.of_opening rfl
      exact Or.inr ⟨_, rest, rfl, rfl⟩
  refine ⟨hannounced, hfailed, ?_⟩
  constructor
  · intro hends x hx s version hfails
    obtain ⟨before, after, hsplit⟩ := List.append_of_mem hx
    obtain ⟨hnil, hexpired⟩ := hends before x after s hsplit (Or.inr ⟨version, hfails⟩)
    -- an interruption is no expiry, and another watch is one call too many
    rcases hfailed before x after s version hsplit hfails with ⟨_, hinterrupted⟩ | ⟨_, _, hmore, _⟩
    · rw [hexpired] at hinterrupted
      rcases hinterrupted with h | h <;> simp at h
    · rw [hnil] at hmore
      cases hmore
  · rintro hnone before x after s hsplit (hannounces | ⟨version, hfails⟩)
    · exact hannounced before x after s hsplit hannounces
    · have hx : x ∈ news' := by simp [hsplit]
      exact absurd hfails (hnone x hx s version)

/-! ## A wait whose version is no longer kept -/

/-- What a watch from the first version of the pod is told. -/
def unkept : Status where
  code := 410
  reason := "Expired"
  message := "too old resource version: 1 (300)"

/-- A cluster that refuses the first watch for it, fails the second with it, and then delivers. -/
def unkeptWorld : World Sandbox where
  backend :=
    { pods :=
        { store :=
            { objects := [("ldap-0", ldapPod "ldap-0" "1" false)]
              sessions :=
                [[.error (.refused "Pod dogu.name=ldap-0" unkept)],
                  [.ok (.modified (ldapPod "ldap-0" "400" true))]] }
          faults := { watch := [some (.refused "Pod dogu.name=ldap-0" unkept)] } } }

/-- The first read of the wait for the pod. -/
def unkeptRead : Exchange :=
  ⟨0, .get .pods "ldap-0", .ok (ldapPod "ldap-0" "1" false)⟩

/-- The watches of the wait. -/
def unkeptWatches : List Exchange :=
  [⟨0, .watch .pods "dogu.name=ldap-0" "1", .error (.refused "Pod dogu.name=ldap-0" unkept)⟩,
    ⟨2000, .watch .pods "dogu.name=ldap-0" "1",
      .ok ⟨[.error (.refused "Pod dogu.name=ldap-0" unkept)], true⟩⟩,
    ⟨4000, .watch .pods "dogu.name=ldap-0" "1",
      .ok ⟨[.ok (.modified (ldapPod "ldap-0" "400" true))], true⟩⟩]

/-- Twice the wait is told by an error that the version is no longer kept, and watches from it again. -/
theorem endsAtExpiry_iff_unkept :
    PromptWatches Sandbox ∧
      World.Since unkeptWorld (run ldapGoal unkeptWorld).2 (unkeptRead :: unkeptWatches) ∧
      (∃ next rest, unkeptWatches.drop 1 = next :: rest ∧ next.call = ldapGoal.watchCall "1") ∧
      (∃ next rest, unkeptWatches.drop 2 = next :: rest ∧ next.call = ldapGoal.watchCall "1") ∧
      ¬ ldapGoal.EndsAtExpiry (unkeptRead :: unkeptWatches) (run ldapGoal unkeptWorld).1 := by
  have hsince : World.Since unkeptWorld (run ldapGoal unkeptWorld).2
      (unkeptRead :: unkeptWatches) := rfl
  have hrefused : ldapGoal.FailsByExpiry unkeptWatches[0] unkept "1" := .refused rfl
  have hitems : [Except.error (.refused "Pod dogu.name=ldap-0" unkept)] =
      ([] : Session .pods) ++ .error (.refused "Pod dogu.name=ldap-0" unkept) :: [] := rfl
  have hitem : ldapGoal.FailsByExpiry unkeptWatches[1] unkept "1" := .item hitems rfl rfl
  obtain ⟨_, hfailed, hiff⟩ := endsAtExpiry_iff promptWatches_sandbox hsince
  refine ⟨promptWatches_sandbox, hsince, ?_, ?_, ?_⟩
  · rcases hfailed [unkeptRead] _ _ _ _ rfl hrefused with ⟨hnil, _⟩ | hnext
    · cases hnil
    · exact hnext
  · rcases hfailed [unkeptRead, unkeptWatches[0]] _ _ _ _ rfl hitem with ⟨hnil, _⟩ | hnext
    · cases hnil
    · exact hnext
  · intro hends
    exact hiff.mp hends unkeptWatches[0] (by simp [unkeptWatches]) _ _ hrefused

/-- A wait that is told that its version is no longer kept need not end as expired. -/
theorem expiry_retried :
    ¬ ∀ news, World.Since unkeptWorld (run ldapGoal unkeptWorld).2 news →
      ldapGoal.EndsAtExpiry news (run ldapGoal unkeptWorld).1 := by
  intro h
  have hreported : ldapGoal.ReportsExpiry unkeptWatches[0] unkept := Or.inr ⟨"1", .refused rfl⟩
  obtain ⟨hnil, _⟩ := h (unkeptRead :: unkeptWatches) rfl [unkeptRead] unkeptWatches[0]
    (unkeptWatches.drop 1) unkept rfl hreported
  cases hnil

end Wait

end EcosystemSetup

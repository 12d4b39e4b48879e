import EcosystemSetup.Cluster.Sandbox
import EcosystemSetup.Proofs.EventLogs
import EcosystemSetup.Proofs.Judgements

/-!
# Resuming a broken watch

A wait opens its watch again from the last version it heard of, as often as the stream breaks. Against a
server that keeps a log this version stands behind every change of the target that was delivered, and
all that lies between it and the furthest entry delivered is foreign. Main statement: whatever the log,
and wherever streams break, the wait judges the announced targets behind the version of its first read
once each and in the order of the log, as far as they were delivered, until an entry decides.
-/

namespace EcosystemSetup.Wait

open Cluster

variable {g : Goal} {log : EventLog g.collection}

/-! ## Foreign entries -/

/-- An event about an object that is no target. -/
def Goal.Foreign (g : Goal) (e : Cluster.Event g.collection) : Prop :=
  ∃ o, changed? e = some o ∧ g.concerns o = false

theorem Goal.Foreign.verdict?_eq {e : Cluster.Event g.collection} (h : g.Foreign e) :
    g.verdict? e = none := by
  obtain ⟨o, ho, hforeign⟩ := h
  cases e <;> simp_all [changed?, Goal.verdict?]

theorem Goal.Foreign.target?_eq {e : Cluster.Event g.collection} (h : g.Foreign e) :
    g.target? e = none := by
  obtain ⟨o, ho, hforeign⟩ := h
  cases e <;> simp_all [changed?, Goal.target?, announced?]

theorem Goal.Foreign.resume_eq {e : Cluster.Event g.collection} (h : g.Foreign e)
    (version : String) : g.resume version e = version := by
  obtain ⟨o, ho, hforeign⟩ := h
  cases e <;> simp_all [changed?, Goal.resume]

/-! ## Versions to resume from -/

/-- A version that stands at or before a place of the log, with nothing but foreign entries between. -/
structure EventLog.Reaches (log : EventLog g.collection) (version : String) (n : Nat) : Prop where
  behind : log.place version ≤ n
  foreign : ∀ (i : Nat) (e : Cluster.Event g.collection), log.place version ≤ i → i < n →
    log.entries[i]? = some e → g.Foreign e

namespace EventLog

/-- A version reaches where it stands. -/
theorem reaches_of_place {version : String} {n : Nat} (h : log.place version = n) :
    log.Reaches version n where
  behind := Nat.le_of_eq h
  foreign := by
    intro i e hi hin _
    omega

/-- An entry that decides nothing is passed: the version moves behind it, or it is foreign. -/
theorem Reaches.next {version : String} {n : Nat} {e : Cluster.Event g.collection}
    (h : log.Reaches version n) (hentry : log.entries[n]? = some e) (hverdict : g.verdict? e = none) :
    log.Reaches (g.resume version e) (n + 1) := by
  obtain ⟨o, v, hchanged, hstamp, hplace⟩ := log.stamped n e hentry
  by_cases hconcerns : g.concerns o = true
  · -- a target that is pending; a deleted one would have decided
    have hresume : g.resume version e = v := by
      cases e <;> simp_all [changed?, Goal.resume, Goal.verdict?]
    rw [hresume]
    exact reaches_of_place hplace
  · have hforeign : g.Foreign e := ⟨o, hchanged, Bool.eq_false_iff.mpr hconcerns⟩
    rw [hforeign.resume_eq]
    refine ⟨Nat.le_succ_of_le h.behind, ?_⟩
    intro i e' hi hin he'
    by_cases hlast : i = n
    · subst hlast
      rw [hentry, Option.some.injEq] at he'
      exact he' ▸ hforeign
    · exact h.foreign i e' hi (by omega) he'

end EventLog

namespace EventLog

variable {n : Nat} {items : Session g.collection}

/-- A stream that did not decide leaves a version that reaches as far as it delivered. -/
theorem Delivers.reaches (h : log.Delivers n items) {version v : String}
    (hreaches : log.Reaches version n) (hv : (g.listen version items).version? = some v) :
    log.Reaches v (n + delivered items) := by
  induction h generalizing version with
  | stop n =>
    obtain rfl : version = v := Option.some.inj hv
    exact hreaches
  | @entry n e rest next later ih =>
    cases hverdict : g.verdict? e with
    | some outcome => simp [Goal.listen_cons_of_verdict hverdict, Goal.Heard.version?] at hv
    | none =>
      rw [Goal.listen_cons_of_verdict_none (breaks_entry next) hverdict] at hv
      rw [delivered_entry next, show n + (delivered rest + 1) = n + 1 + delivered rest by omega]
      exact ih (hreaches.next next hverdict) hv
  | bookmark here later ih => exact ih (reaches_of_place here) hv
  | broken breaks =>
    rw [Goal.listen_cons_of_breaks breaks] at hv
    obtain rfl : version = v := Option.some.inj hv
    rw [delivered_of_breaks breaks]
    exact hreaches

/-- What a stream decides is decided by the entries that it delivers. -/
theorem Delivers.verdict (h : log.Delivers n items) :
    (heard items).findSome? g.verdict? =
      (log.between n (n + delivered items)).findSome? g.verdict? := by
  induction h with
  | stop n => simp [heard_nil, between_eq_nil]
  | @entry n e rest next later ih =>
    rw [heard_cons_of_not_breaks (breaks_entry next), delivered_entry next,
      between_cons next (by omega), List.findSome?_cons, List.findSome?_cons, ih,
      show n + 1 + delivered rest = n + (delivered rest + 1) by omega]
  | @bookmark n version rest here later ih =>
    rw [heard_cons_of_not_breaks rfl]
    exact ih
  | @broken n item rest breaks =>
    rw [heard_cons_of_breaks breaks, delivered_of_breaks breaks, between_eq_nil (by omega)]

/-- What a stream has judged are the targets that its entries announce. -/
theorem Delivers.judged (h : log.Delivers n items) (version : String) :
    g.judged version items = g.candidates (log.between n (n + delivered items)) := by
  rw [Goal.judged_eq]
  induction h with
  | stop n => simp [heard_nil, between_eq_nil]
  | @entry n e rest next later ih =>
    rw [heard_cons_of_not_breaks (breaks_entry next), delivered_entry next,
      between_cons next (by omega)]
    cases hverdict : g.verdict? e with
    | some outcome =>
      rw [Goal.candidates_cons_of_verdict hverdict, Goal.candidates_cons_of_verdict hverdict]
    | none =>
      rw [Goal.candidates_cons_of_verdict_none hverdict,
        Goal.candidates_cons_of_verdict_none hverdict, ih,
        show n + 1 + delivered rest = n + (delivered rest + 1) by omega]
  | @bookmark n version rest here later ih =>
    rw [heard_cons_of_not_breaks rfl, Goal.candidates_cons_of_verdict_none rfl]
    exact ih
  | @broken n item rest breaks =>
    rw [heard_cons_of_breaks breaks, delivered_of_breaks breaks, between_eq_nil (by omega)]

/-! ## One watch after the other -/

/-- Entries that were passed, or come again, have nothing to say: only those count that are delivered
for the first time. -/
theorem Reaches.between_place {version : String} {far : Nat} (h : log.Reaches version far)
    (reach : Nat) :
    g.candidates (log.between (log.place version) reach) =
        g.candidates (log.between far (max far reach)) ∧
      (log.between (log.place version) reach).findSome? g.verdict? =
        (log.between far (max far reach)).findSome? g.verdict? := by
  have hforeign : ∀ e ∈ log.between (log.place version) (min far reach), g.Foreign e := by
    intro e he
    obtain ⟨i, hi, hin, hentry⟩ := exists_of_mem_between he
    exact h.foreign i e hi (by omega) hentry
  have hverdict : ∀ e ∈ log.between (log.place version) (min far reach), g.verdict? e = none :=
    fun e he => (hforeign e he).verdict?_eq
  have htarget : (log.between (log.place version) (min far reach)).filterMap g.target? = [] :=
    List.filterMap_eq_nil_iff.mpr fun e he => (hforeign e he).target?_eq
  have hnothing : (log.between (log.place version) (min far reach)).findSome? g.verdict? = none :=
    List.findSome?_eq_none_iff.mpr hverdict
  have hbehind := h.behind
  by_cases hnew : far ≤ reach
  · rw [Nat.min_eq_left hnew] at hverdict htarget hnothing
    rw [Nat.max_eq_right hnew, ← between_append hbehind hnew,
      Goal.candidates_append_of_verdict_none hverdict, htarget, List.findSome?_append, hnothing]
    exact ⟨rfl, rfl⟩
  · -- the stream broke before it came to anything new
    rw [Nat.min_eq_right (by omega)] at hverdict htarget hnothing
    rw [Nat.max_eq_left (by omega), between_eq_nil (Nat.le_refl far),
      Goal.candidates_of_verdict_none hverdict, htarget, hnothing]
    exact ⟨rfl, rfl⟩

/-- A version that a stream leaves behind reaches as far as any stream so far has delivered. -/
theorem Reaches.furthest {version v : String} {far reach : Nat} (h : log.Reaches version far)
    (hreach : log.place version ≤ reach) (hv : log.Reaches v reach) :
    log.Reaches v (max far reach) := by
  refine ⟨Nat.le_trans hv.behind (Nat.le_max_right _ _), ?_⟩
  intro i e hi hin hentry
  by_cases hold : i < reach
  · exact hv.foreign i e hi hold hentry
  · have hnew : log.place version ≤ i := Nat.le_trans hreach (Nat.le_of_not_lt hold)
    exact h.foreign i e hnew (by omega) hentry

end EventLog

/-- What an exchange has judged. -/
def Goal.judgedIn (g : Goal) : Exchange → List (Object g.collection)
  | ⟨_, .watch c _ version, .ok stream⟩ =>
    if h : c = g.collection then g.judged version (h ▸ stream.items) else []
  | _ => []

/-- The exchange delivers what the log holds, if it opens a watch of the goal. -/
def Goal.Served (g : Goal) (log : EventLog g.collection) (x : Exchange) : Prop :=
  ∀ (time : Nat) (version : String) (stream : Stream g.collection),
    x = ⟨time, .watch g.collection g.target.selector version, .ok stream⟩ →
    log.Delivers (log.place version) stream.items

namespace EventLog

/-- How many entries stand before the end of what an exchange has delivered. -/
def reached {c : Collection} (log : EventLog c) : Exchange → Nat
  | ⟨_, .watch _ _ version, .ok stream⟩ => log.place version + delivered stream.items
  | _ => 0

/-- The furthest that exchanges have delivered the log, from a place on. -/
def furthest {c : Collection} (log : EventLog c) (start : Nat) (xs : List Exchange) : Nat :=
  xs.foldl (fun n x => max n (log.reached x)) start

/-- The entries behind a version, as far as exchanges have delivered them. -/
def behind {c : Collection} (log : EventLog c) (version : String) (xs : List Exchange) :
    List (Cluster.Event c) :=
  log.between (log.place version) (log.furthest (log.place version) xs)

theorem le_furthest {c : Collection} (log : EventLog c) (start : Nat) (xs : List Exchange) :
    start ≤ log.furthest start xs := by
  induction xs generalizing start with
  | nil => exact Nat.le_refl _
  | cons x rest ih => exact Nat.le_trans (Nat.le_max_left _ _) (ih _)

theorem furthest_refused {c : Collection} (log : EventLog c) (far time : Nat)
    (selector version : String) (e : AccessError) (rest : List Exchange) :
    log.furthest far (⟨time, .watch c selector version, .error e⟩ :: rest) =
      log.furthest far rest := by
  show log.furthest (max far 0) rest = _
  rw [Nat.max_eq_left (Nat.zero_le far)]

theorem furthest_delivered {c : Collection} (log : EventLog c) (far time : Nat)
    (selector version : String) (stream : Stream c) (rest : List Exchange) :
    log.furthest far (⟨time, .watch c selector version, .ok stream⟩ :: rest) =
      log.furthest (max far (log.place version + delivered stream.items)) rest := rfl

/-- What is delivered later follows on what was delivered and did not decide. -/
theorem between_undecided {far reach last : Nat} (hfar : far ≤ reach) (hreach : reach ≤ last)
    (hnone : (log.between far reach).findSome? g.verdict? = none) :
    g.candidates (log.between far reach) ++ g.candidates (log.between reach last) =
        g.candidates (log.between far last) ∧
      (log.between reach last).findSome? g.verdict? =
        (log.between far last).findSome? g.verdict? := by
  have hverdict := List.findSome?_eq_none_iff.mp hnone
  rw [← between_append hfar hreach, Goal.candidates_append_of_verdict_none hverdict,
    Goal.candidates_of_verdict_none hverdict, List.findSome?_append, hnone]
  exact ⟨rfl, rfl⟩

end EventLog

theorem Goal.judgedIn_watch (g : Goal) (time : Nat) (selector version : String)
    (stream : Stream g.collection) :
    g.judgedIn ⟨time, .watch g.collection selector version, .ok stream⟩ =
      g.judged version stream.items := by
  simp [judgedIn]

/-- A served watch judges what it delivers for the first time, decides as that does, and otherwise leaves
a version that reaches as far. -/
theorem EventLog.Reaches.watch {version : String} {far : Nat} (h : log.Reaches version far)
    {stream : Stream g.collection} (hdelivers : log.Delivers (log.place version) stream.items) :
    ∃ reach, reach = max far (log.place version + delivered stream.items) ∧
      g.judged version stream.items = g.candidates (log.between far reach) ∧
      (g.listen version stream.items).outcome? = (log.between far reach).findSome? g.verdict? ∧
      ∀ v, (g.listen version stream.items).version? = some v → log.Reaches v reach := by
  obtain ⟨hcandidates, hverdict⟩ :=
    h.between_place (log.place version + delivered stream.items)
  refine ⟨_, rfl, ?_, ?_, ?_⟩
  · rw [hdelivers.judged, hcandidates]
  · rw [Goal.outcome_listen, hdelivers.verdict, hverdict]
  · intro v hv
    exact h.furthest (Nat.le_add_right _ _) (hdelivers.reaches (reaches_of_place rfl) hv)

/-- From a version that reaches as far as the log was delivered, a wait judges what it is delivered for
the first time, and ends as the first entry of that decides. -/
theorem Goal.Course.judged {n last : Next} {xs : List Exchange} (h : g.Course n xs last)
    {version : String} {far : Nat} (hstage : n.stage? = some (.opening version))
    (hreaches : log.Reaches version far) (hserved : ∀ x ∈ xs, g.Served log x) :
    xs.flatMap g.judgedIn = g.candidates (log.between far (log.furthest far xs)) ∧
      last.outcome? = (log.between far (log.furthest far xs)).findSome? g.verdict? := by
  induction xs generalizing n version far with
  | nil =>
    have hlast : last.outcome? = none := by
      cases h
      exact Next.outcome?_of_stage? hstage
    rw [EventLog.furthest, List.foldl_nil, EventLog.between_eq_nil (Nat.le_refl far)]
    exact ⟨rfl, hlast⟩
  | cons x rest ih =>
    have hrest : ∀ x ∈ rest, g.Served log x := fun x hx => hserved x (List.mem_cons_of_mem _ hx)
    obtain ⟨time, reply, rfl, hlater⟩ := h.of_opening hstage
    cases reply with
    | error e =>
      -- a watch that is refused is opened again from the same version
      rw [EventLog.furthest_refused]
      exact ih hlater rfl hreaches hrest
    | ok stream =>
      obtain ⟨reach, hreach, hjudged, houtcome, hleaves⟩ :=
        hreaches.watch (hserved _ List.mem_cons_self time version stream rfl)
      rw [EventLog.furthest_delivered, ← hreach, List.flatMap_cons, g.judgedIn_watch, hjudged]
      rcases afterOpen_cases version stream with
        ⟨outcome, hdecided, hnext⟩ | ⟨v, hundecided, hv, hnext | ⟨_, hnext⟩⟩
      · -- the wait ends here
        rw [hnext] at hlater
        obtain ⟨rfl, rfl⟩ := hlater.eq_nil rfl
        exact ⟨List.append_nil _, hdecided.symm.trans houtcome⟩
      · rw [hnext] at hlater
        obtain ⟨hlast, hend⟩ := ih hlater rfl (hleaves v hv) hrest
        have hfrom : far ≤ reach := hreach ▸ Nat.le_max_left _ _
        obtain ⟨hcandidates, hverdict⟩ := EventLog.between_undecided hfrom
          (log.le_furthest reach rest) (houtcome.symm.trans hundecided)
        rw [hlast, hend]
        exact ⟨hcandidates, hverdict⟩
      · rw [hnext] at hlater
        obtain ⟨rfl, rfl⟩ := hlater.eq_nil rfl
        exact ⟨List.append_nil _, hundecided.symm.trans houtcome⟩

theorem Goal.served_of_delivers {time : Nat} {version : String} {stream : Stream g.collection}
    (h : log.Delivers (log.place version) stream.items) :
    g.Served log ⟨time, .watch g.collection g.target.selector version, .ok stream⟩ := by
  intro time' version' stream' heq
  cases heq
  exact h

theorem Goal.served_of_refused {time : Nat} {version : String} {e : AccessError} :
    g.Served log ⟨time, .watch g.collection g.target.selector version, .error e⟩ := by
  intro time' version' stream' heq
  cases heq

/-! ## Whole waits -/

/-- Whatever a log holds, and wherever the watches of it break or are refused: behind the version that
its reads ended at, a wait judges the announced targets once each and in the order of the log, as far as
they were delivered, until an entry decides; and it ends as that entry decides, unless it is
interrupted. -/
theorem changes_judged_once {σ : Type} [Backend σ] {w : World σ} {reads watches : List Exchange}
    {version : String} (hsince : World.Since w (run g w).2 (reads ++ watches))
    (hreads : g.Course (.proceed (.reading 1)) reads (.proceed (.opening version)))
    (hserved : ∀ x ∈ watches, g.Served log x) :
    watches.flatMap g.judgedIn = g.candidates (log.behind version watches) ∧
      ((log.behind version watches).findSome? g.verdict? = some (run g w).1 ∨
        g.Interrupted (run g w).1) := by
  obtain ⟨news, n, hnews, hcourse, hend⟩ := course_of_run g w
  obtain rfl : news = reads ++ watches := hnews.unique hsince
  have hwatches : g.Course (.proceed (.opening version)) watches n := hreads.of_append hcourse
  obtain ⟨hjudged, hlast⟩ := hwatches.judged rfl (EventLog.reaches_of_place rfl) hserved
  refine ⟨hjudged, ?_⟩
  rcases hend with rfl | hinterrupted
  · exact Or.inl hlast.symm
  · exact Or.inr hinterrupted

/-! ## A wait whose watch breaks again and again -/

/-- A pod of the directory, ready or not. -/
def ldapPod (name version : String) (ready : Bool) : Object .pods where
  metadata :=
    { name := some name, labels := some [("dogu.name", "ldap")], resourceVersion := some version }
  body := { status := some { conditions := some [⟨"Ready", if ready then "True" else "False"⟩] } }

/-- Changes of the pod waited for and of another one. -/
def ldapLog : EventLog .pods where
  entries :=
    [.added (ldapPod "ldap-1" "2" true), .modified (ldapPod "ldap-0" "3" false),
      .modified (ldapPod "ldap-1" "5" true), .modified (ldapPod "ldap-0" "6" false),
      .deleted (ldapPod "ldap-1" "7" true), .modified (ldapPod "ldap-0" "8" true),
      .deleted (ldapPod "ldap-0" "9" true)]
  place version :=
    if version = "2" then 1 else if version = "3" then 2 else if version = "5" then 3
    else if version = "55" then 3 else if version = "6" then 4 else if version = "7" then 5
    else if version = "8" then 6 else if version = "9" then 7 else 0
  stamped := by
    rintro (_ | _ | _ | _ | _ | _ | _ | i) e h
    all_goals cases h
    all_goals exact ⟨_, _, rfl, rfl, rfl⟩

/-- A wait for the pod by its name. -/
def ldapGoal : Goal where
  collection := .pods
  target := .named "ldap-0" "dogu.name"
  predicate := podReady
  settings := .standard
  timeout := .ofSecs 900

/-- What the watches deliver: a stream that breaks, one that a bookmark precedes the break of, one that
ends, and one that goes on to the end of the log. -/
def ldapSessions : List (Session .pods) :=
  [[.ok (.added (ldapPod "ldap-1" "2" true)), .ok (.modified (ldapPod "ldap-0" "3" false)),
      .error (.other "connection reset"), .ok (.modified (ldapPod "ldap-0" "8" true))],
    [.ok (.modified (ldapPod "ldap-1" "5" true)), .ok (.bookmark "55"),
      .ok (.error { code := 500 })],
    [.ok (.modified (ldapPod "ldap-0" "6" false)), .ok (.deleted (ldapPod "ldap-1" "7" true))],
    [.ok (.deleted (ldapPod "ldap-1" "7" true)), .ok (.modified (ldapPod "ldap-0" "8" true)),
      .ok (.deleted (ldapPod "ldap-0" "9" true))]]

/-- A cluster that delivers this, and refuses the second watch. -/
def ldapWorld : World Sandbox where
  backend :=
    { pods :=
        { store := { objects := [("ldap-0", ldapPod "ldap-0" "1" false)], sessions := ldapSessions }
          faults := { watch := [none, some (.other "connection refused")] } } }

/-- The watches of the wait. -/
def ldapWatches : List Exchange :=
  [⟨0, .watch .pods "dogu.name=ldap-0" "1", .ok ⟨ldapSessions[0], true⟩⟩,
    ⟨2000, .watch .pods "dogu.name=ldap-0" "3", .error (.other "connection refused")⟩,
    ⟨4000, .watch .pods "dogu.name=ldap-0" "3", .ok ⟨ldapSessions[1], true⟩⟩,
    ⟨6000, .watch .pods "dogu.name=ldap-0" "55", .ok ⟨ldapSessions[2], true⟩⟩,
    ⟨8000, .watch .pods "dogu.name=ldap-0" "6", .ok ⟨ldapSessions[3], true⟩⟩]

theorem served_ldapWatches : ∀ x ∈ ldapWatches, ldapGoal.Served ldapLog x := by
  intro x hx
  simp only [ldapWatches, List.mem_cons, List.not_mem_nil, or_false] at hx
  rcases hx with rfl | rfl | rfl | rfl | rfl
  · exact Goal.served_of_delivers (.entry rfl (.entry rfl (.broken rfl)))
  · exact Goal.served_of_refused
  · exact Goal.served_of_delivers (.entry rfl (.bookmark rfl (.broken rfl)))
  · exact Goal.served_of_delivers (.entry rfl (.entry rfl (.stop _)))
  · exact Goal.served_of_delivers (.entry rfl (.entry rfl (.entry rfl (.stop _))))

/-- The pod is judged at each of its three changes, in order, and the wait ends with the last. -/
theorem changes_judged_once_ldap :
    World.Since ldapWorld (run ldapGoal ldapWorld).2
        ([⟨0, .get .pods "ldap-0", .ok (ldapPod "ldap-0" "1" false)⟩] ++ ldapWatches) ∧
      ldapWatches.flatMap ldapGoal.judgedIn =
        [ldapPod "ldap-0" "3" false, ldapPod "ldap-0" "6" false, ldapPod "ldap-0" "8" true] ∧
      (run ldapGoal ldapWorld).1 = .ok () := by
  have hsince : World.Since ldapWorld (run ldapGoal ldapWorld).2
      ([⟨0, .get .pods "ldap-0", .ok (ldapPod "ldap-0" "1" false)⟩] ++ ldapWatches) := rfl
  have hreads : ldapGoal.Course (.proceed (.reading 1))
      [⟨0, .get .pods "ldap-0", .ok (ldapPod "ldap-0" "1" false)⟩] (.proceed (.opening "1")) := by
    let found : (ldapGoal.move (.reading 1)).call.Reply := .ok (ldapPod "ldap-0" "1" false)
    exact (Goal.Course.nil (.proceed (.reading 1))).snoc rfl 0 found
  obtain ⟨hjudged, _⟩ := changes_judged_once hsince hreads served_ldapWatches
  exact ⟨hsince, hjudged.trans rfl, rfl⟩

end EcosystemSetup.Wait

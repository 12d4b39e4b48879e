import EcosystemSetup.Proofs.Observations
import EcosystemSetup.Proofs.WaitProgress
import EcosystemSetup.Proofs.WatchedVersions

/-!
# Repeated reads

A wait reads its target until it is found, a limited number of times, and before each further read it
pauses. Main statement: on any script of results it makes exactly the reads up to the first that does not
miss the target, or all that it is allowed, each as long after the one before as the pause between them.
What the last one finds decides, and no read follows it. Whoever answers, the count of the reads stays
within their limit, so it fits wherever the limit fits. The settings see to it that every pause has a
duration.
-/

namespace EcosystemSetup.Wait

open Cluster

variable {σ : Type}

/-- Some calls, each with its time. -/
def callLog (xs : List Exchange) : List (Nat × Call) :=
  xs.map fun x => (x.time, x.call)

namespace Goal

/-- When a wait reads that has missed its target so many times, by the pauses between its reads. -/
def readTime (g : Goal) (start : Nat) : Nat → Nat
  | 0 => start
  | missed + 1 => g.readTime start missed + (g.settings.backoff (missed + 1)).millisUp

/-- So many reads, each after the pause that follows the one before. -/
def readLog (g : Goal) (start count : Nat) : List (Nat × Call) :=
  (List.range count).map fun missed => (g.readTime start missed, g.readCall)

/-- What the result of a read decides that does not miss the target: objects by their readiness, and an
error always. -/
def decision (g : Goal) : Except AccessError (List (Object g.collection)) → Option Outcome
  | .ok items => g.decides (.found items)
  | .error e => some (.error (.read g.targetText e))

/-- The wait makes exactly so many reads if it has the time for them, and after them it only opens
watches. If its reads have decided, it opens none and ends at the time of the last one. -/
def Reads [Backend σ] (g : Goal) (w : World σ) (count : Nat) (decision : Option Outcome) : Prop :=
  ∀ timeout : Duration,
    (∀ missed < count, g.readTime w.clock missed < w.clock + timeout.millisUp) →
    ∃ news watches, World.Since w (run (g.within timeout) w).2 news ∧
      callLog news = g.readLog w.clock count ++ watches ∧
      (∀ x ∈ watches, ∃ version, x.2 = g.watchCall version) ∧
      ∀ outcome ∈ decision, watches = [] ∧ (run (g.within timeout) w).1 = outcome ∧
        ∀ missed, missed + 1 = count →
          (run (g.within timeout) w).2.clock = g.readTime w.clock missed

variable {g : Goal} {missed : Nat}

theorem readLog_succ (start : Nat) :
    g.readLog start (missed + 1) =
      g.readLog start missed ++ [(g.readTime start missed, g.readCall)] := by
  simp [readLog, List.range_succ]

/-! ## Reads that miss -/

/-- Where a wait stands that has missed its target so many times. -/
structure Missed (g : Goal) (w : World (Script g.collection)) (missed : Nat)
    (v : World (Script g.collection)) : Prop where
  gets : g.Gets (.ready (.reading 1)) w (.ready (.reading (missed + 1))) v
  clock : v.clock = g.readTime w.clock missed
  results : g.results v.backend = (g.results w.backend).drop missed
  since : ∃ news, World.Since w v news ∧ callLog news = g.readLog w.clock missed

variable {w v : World (Script g.collection)}

/-- One more read follows those that have missed. -/
theorem Missed.since_after (h : g.Missed w missed v) :
    ∃ news, World.Since w (g.after (.reading (missed + 1)) v).2 news ∧
      callLog news = g.readLog w.clock (missed + 1) := by
  obtain ⟨news, hnews, hlog⟩ := h.since
  have hread := v.since_perform (g.move (.reading (missed + 1))).call
  refine ⟨_, hnews.trans hread, ?_⟩
  rw [callLog, List.map_append, ← callLog, hlog, readLog_succ, ← h.clock,
    ← call_reading (missed + 1)]
  rfl

/-- The next read has the next result of the script, and misses the target where there is none. It
leaves the results after it. -/
theorem Missed.after (h : g.Missed w missed v) :
    ∃ version absence, absence.isNotFound = true ∧
      g.results (g.after (.reading (missed + 1)) v).2.backend =
        (g.results w.backend).drop (missed + 1) ∧
      (g.after (.reading (missed + 1)) v).1 = .ofNext v.clock
        (match ((g.results w.backend)[missed]?).getD (.error absence) with
          | .ok items => g.afterFound items version
          | .error e => g.afterReadError (missed + 1) e) := by
  obtain ⟨version, absence, habsence, -, htail, hposition⟩ := after_reading v (missed + 1)
  rw [h.results, List.head?_drop] at hposition
  rw [h.results, List.tail_drop] at htail
  exact ⟨version, absence, habsence, htail, hposition⟩

/-- A result that is there and misses, or none at all, is an error that says so. -/
theorem exists_absence {results : List (Except AccessError (List (Object g.collection)))}
    {absence : AccessError} (habsence : absence.isNotFound = true)
    (h : ∀ r ∈ results[missed]?, missing r = true) :
    ∃ e, results[missed]?.getD (.error absence) = .error e ∧ e.isNotFound = true := by
  cases hresult : results[missed]? with
  | none => exact ⟨absence, rfl, habsence⟩
  | some r =>
    have hr := h r hresult
    cases r with
    | ok items => cases hr
    | error e => exact ⟨e, rfl, hr⟩

/-- A wait that misses its target reads again after the pause, as long as it is allowed to. -/
theorem exists_missed (hw : w.Undisturbed) (hmore : missed < g.attempts)
    (hmissing : ∀ r ∈ (g.results w.backend).take missed, missing r = true) :
    ∃ v, g.Missed w missed v := by
  induction missed with
  | zero => exact ⟨w, .here _ _, rfl, rfl, [], w.since_refl, rfl⟩
  | succ missed ih =>
    have hbefore : ∀ r ∈ (g.results w.backend).take missed, missing r = true := by
      intro r hr
      exact hmissing r (List.take_subset_take_left _ (Nat.le_succ missed) hr)
    have hthis : ∀ r ∈ (g.results w.backend)[missed]?, missing r = true := by
      intro r hr
      refine hmissing r (List.mem_of_getElem? (i := missed) ?_)
      rw [List.getElem?_take, if_pos (Nat.lt_succ_self missed), hr]
    obtain ⟨v, hv⟩ := ih (Nat.lt_of_succ_lt hmore) hbefore
    obtain ⟨version, absence, habsence, hresults, hposition⟩ := hv.after
    obtain ⟨e, herror, he⟩ := exists_absence habsence hthis
    have hallowed : ¬ g.settings.maxReadAttempts ≤ missed + 1 := by
      have hmax : g.attempts = max 1 g.settings.maxReadAttempts := rfl
      omega
    rw [herror] at hposition
    dsimp only at hposition
    rw [afterReadError, if_pos he, if_neg hallowed] at hposition
    have hundisturbed : (g.after (.reading (missed + 1)) v).2.Undisturbed :=
      hv.gets.undisturbed hw
    have hslept : g.Gets (g.after (.reading (missed + 1)) v).1
        (g.after (.reading (missed + 1)) v).2 (.ready (.reading (missed + 1 + 1)))
        { (g.after (.reading (missed + 1)) v).2 with
          clock := v.clock + (g.settings.backoff (missed + 1)).millisUp } := by
      rw [hposition]
      exact .pause hundisturbed _ _
    refine ⟨_, hv.gets.trans (.call hslept), ?_, hresults, hv.since_after⟩
    dsimp only
    rw [hv.clock, readTime]

end Goal

/-! ## Watches -/

/-- A wait that reads no more. -/
inductive Position.Watching : Position → Prop where
  | ready (version : String) : Watching (.ready (.opening version))
  | paused (wake : Nat) (version : String) : Watching (.paused wake (.opening version))
  | silent : Watching .silent
  | ended (outcome : Outcome) : Watching (.ended outcome)

/-- A wait that goes on to open a watch, if it goes on, reads no more. -/
theorem Position.watching_ofNext (clock : Nat) {n : Next}
    (h : ∀ stage, n.stage? = some stage → ∃ version, stage = .opening version) :
    (Position.ofNext clock n).Watching := by
  cases n with
  | proceed stage =>
    obtain ⟨version, rfl⟩ := h stage rfl
    exact .ready version
  | pause d stage =>
    obtain ⟨version, rfl⟩ := h stage rfl
    unfold Position.ofNext
    dsimp only
    split
    · exact .ready version
    · exact .paused _ version
  | silence => exact .silent
  | finish outcome => exact .ended outcome

namespace Goal

variable {g : Goal}

/-- From there on a wait only opens watches. -/
theorem Gets.watches [Backend σ] {p q : Position} {w v : World σ} (h : g.Gets p w q v)
    (hp : p.Watching) :
    ∃ news, World.Since w v news ∧ ∀ x ∈ news, ∃ version, x.call = g.watchCall version := by
  induction h with
  | here p w => exact ⟨[], w.since_refl, by simp⟩
  | @call stage q w v later ih =>
    cases hp with
    | ready version =>
      have hafter : (g.after (.opening version) w).1.Watching := by
        apply Position.watching_ofNext
        intro stage hstage
        exact ⟨_, stage_afterOpen 0 hstage⟩
      obtain ⟨news, hnews, hwatches⟩ := ih hafter
      refine ⟨_, (w.since_perform (g.watchCall version)).trans hnews, ?_⟩
      intro x hx
      rcases List.mem_append.mp hx with hfirst | hlater
      · rw [List.mem_singleton.mp hfirst]
        exact ⟨version, rfl⟩
      · exact hwatches x hlater
  | wake later ih =>
    cases hp with
    | paused wake version => exact ih (.ready version)

/-! ## The last read -/

variable {w v : World (Script g.collection)} {missed : Nat}

/-- Where a read leaves a wait that is not to read again: at its end if it has decided, and otherwise it
watches. -/
inductive Settled : Option Outcome → Position → Prop where
  | decided (outcome : Outcome) : Settled (some outcome) (.ended outcome)
  | undecided (version : String) : Settled none (.ready (.opening version))

/-- A wait whose next read is its last makes that read and those before it. -/
theorem Missed.reads (hw : w.Undisturbed) (h : g.Missed w missed v) {decision : Option Outcome}
    (hlast : Settled decision (g.after (.reading (missed + 1)) v).1) :
    g.Reads w (missed + 1) decision := by
  intro timeout htime
  have hgets : g.Gets (.ready (.reading 1)) w (g.after (.reading (missed + 1)) v).1
      (g.after (.reading (missed + 1)) v).2 := h.gets.trans (.call (.here _ _))
  have hclock : (g.after (.reading (missed + 1)) v).2.clock = g.readTime w.clock missed := h.clock
  have hearly : (g.after (.reading (missed + 1)) v).2.clock < (g.within timeout).deadline w := by
    rw [hclock]
    exact htime missed (Nat.lt_succ_self missed)
  obtain ⟨q, u, hlater, hrecord, hend⟩ := (hgets.within timeout).run (Script.steady _) hw hearly
  obtain ⟨news, hnews, hlog⟩ := h.since_after
  generalize hposition : (g.after (.reading (missed + 1)) v).1 = p at *
  cases hlast with
  | decided outcome =>
    obtain ⟨rfl, rfl⟩ := hlater.of_ended
    refine ⟨news, [], hrecord.trans hnews, by rw [hlog, List.append_nil], by simp, ?_⟩
    rcases hend with ⟨hended, hworld⟩ | ⟨-, hheld⟩
    · intro other hother
      obtain rfl : outcome = other := Option.some.inj hother
      refine ⟨rfl, (Position.ended.inj hended).symm, ?_⟩
      intro before hbefore
      obtain rfl : before = missed := Nat.succ.inj hbefore
      rw [← hworld, hclock]
    · cases hheld
  | undecided version =>
    have hwatching : g.Gets (.ready (.opening version)) _ q u := hlater.within g.timeout
    obtain ⟨more, hmore, hwatches⟩ := hwatching.watches (.ready version)
    refine ⟨news ++ more, callLog more, hrecord.trans (hnews.trans hmore), ?_, ?_, by simp⟩
    · rw [callLog, List.map_append, ← callLog, ← callLog, hlog]
    · intro x hx
      obtain ⟨y, hy, rfl⟩ := List.mem_map.mp hx
      exact hwatches y hy

/-- What is found decides, or it is watched. -/
theorem settled_afterFound (clock : Nat) (items : List (Object g.collection)) (version : String) :
    Settled (g.decision (.ok items)) (.ofNext clock (g.afterFound items version)) := by
  rw [decision, decides_found]
  unfold afterFound
  cases judge g.predicate items with
  | ready => exact .decided _
  | failed reason => exact .decided _
  | pending => exact .undecided version

/-- A wait makes so many reads, which decide so, as the results of its reads say. -/
structure CountsReads (g : Goal) (w : World (Script g.collection)) : Prop where
  /-- The first result that does not miss the target is the last one that is asked for. -/
  found : ∀ misses result later, g.results w.backend = misses ++ result :: later →
    (∀ r ∈ misses, missing r = true) → missing result = false → misses.length < g.attempts →
    g.Reads w (misses.length + 1) (g.decision result)
  /-- A target that is missed as often as it may be read is given up. -/
  absent : (∀ r ∈ (g.results w.backend).take g.attempts, missing r = true) →
    g.Reads w g.attempts (some (.error (.notFound g.targetText g.attempts)))

theorem countsReads (hw : w.Undisturbed) : g.CountsReads w := by
  constructor
  · intro misses result later hresults hmisses hresult hcount
    have htake : (g.results w.backend).take misses.length = misses := by simp [hresults]
    obtain ⟨v, hv⟩ := exists_missed hw hcount (by rw [htake]; exact hmisses)
    obtain ⟨version, absence, -, -, hposition⟩ := hv.after
    have hthis : (g.results w.backend)[misses.length]?.getD (.error absence) = result := by
      simp [hresults]
    refine hv.reads hw ?_
    rw [hposition, hthis]
    cases result with
    | ok items => exact settled_afterFound _ items version
    | error e =>
      have he : ¬ e.isNotFound = true := by
        rw [Bool.not_eq_true]
        exact hresult
      dsimp only
      rw [afterReadError, if_neg he]
      exact .decided _
  · intro hmissing
    have hpositive : 0 < g.attempts := Nat.lt_of_lt_of_le Nat.one_pos (Nat.le_max_left _ _)
    obtain ⟨missed, hmissed⟩ := Nat.exists_eq_succ_of_ne_zero (Nat.ne_of_gt hpositive)
    have hbefore : ∀ r ∈ (g.results w.backend).take missed, missing r = true := by
      intro r hr
      exact hmissing r (List.take_subset_take_left _ (by omega) hr)
    have hthis : ∀ r ∈ (g.results w.backend)[missed]?, missing r = true := by
      intro r hr
      refine hmissing r (List.mem_of_getElem? (i := missed) ?_)
      rw [List.getElem?_take, if_pos (by omega), hr]
    obtain ⟨v, hv⟩ := exists_missed hw (by omega) hbefore
    obtain ⟨version, absence, habsence, -, hposition⟩ := hv.after
    obtain ⟨e, herror, he⟩ := exists_absence habsence hthis
    have hlast : g.settings.maxReadAttempts ≤ missed + 1 := by
      have hmax : g.attempts = max 1 g.settings.maxReadAttempts := rfl
      omega
    have hreads : g.Reads w (missed + 1) (some (.error (.notFound g.targetText (missed + 1)))) := by
      refine hv.reads hw ?_
      rw [hposition, herror]
      dsimp only
      rw [afterReadError, if_pos he, if_pos hlast]
      exact .decided _
    rw [hmissed]
    exact hreads

/-! ## The count of the reads -/

/-- Where exchanges lead a wait that begins them with a read of some count: it reads first and watches
then, and counts its reads without passing their limit. -/
structure Ordered (g : Goal) (attempt : Nat) (xs : List Exchange) (last : Next) : Prop where
  split : ∃ reads watches, xs = reads ++ watches ∧ attempt + reads.length ≤ g.attempts + 1 ∧
    (∀ x ∈ reads, x.call = g.readCall) ∧ ∀ x ∈ watches, ∃ version, x.call = g.watchCall version
  count : ∀ next, last.stage? = some (.reading next) →
    next = attempt + xs.length ∧ next ≤ g.attempts

/-- Exchanges that begin with a watch are watches, and no read follows them. -/
theorem Course.only_watches {n last : Next} {xs : List Exchange} (h : g.Course n xs last)
    (hn : ∀ stage, n.stage? = some stage → ∃ version, stage = .opening version) :
    (∀ x ∈ xs, ∃ version, x.call = g.watchCall version) ∧
      ∀ next, last.stage? ≠ some (.reading next) := by
  induction h with
  | nil n =>
    refine ⟨by simp, ?_⟩
    intro next hnext
    obtain ⟨version, hversion⟩ := hn _ hnext
    cases hversion
  | cons goesOn time reply later ih =>
    obtain ⟨version, rfl⟩ := hn _ goesOn
    obtain ⟨hrest, hlast⟩ := ih fun stage hstage => ⟨_, stage_afterOpen time hstage⟩
    refine ⟨?_, hlast⟩
    intro x hx
    rcases List.mem_cons.mp hx with rfl | hx
    · exact ⟨version, rfl⟩
    · exact hrest x hx

/-- From a read that is allowed on, a wait reads and then watches, and keeps to the limit of its reads. -/
theorem Course.ordered {n last : Next} {xs : List Exchange} {attempt : Nat}
    (h : g.Course n xs last) (hn : n.stage? = some (.reading attempt))
    (hattempt : attempt ≤ g.attempts) : g.Ordered attempt xs last := by
  induction h generalizing attempt with
  | nil n =>
    refine ⟨⟨[], [], rfl, by simpa using Nat.le_succ_of_le hattempt, by simp, by simp⟩, ?_⟩
    intro next hnext
    rw [hn] at hnext
    cases hnext
    exact ⟨rfl, hattempt⟩
  | @cons n last stage rest goesOn time reply later ih =>
    obtain rfl : stage = .reading attempt := by
      rw [goesOn] at hn
      exact Option.some.inj hn
    -- a read that leads on to another one is below the limit
    have hnext := g.next_reading attempt reply
    by_cases hmore : ∃ d, (g.move (.reading attempt)).next reply = .pause d (.reading (attempt + 1))
    · obtain ⟨d, hpause⟩ := hmore
      have hallowed : attempt + 1 ≤ g.attempts := by
        have hmax : g.settings.maxReadAttempts ≤ g.attempts := Nat.le_max_right _ _
        rcases hnext with ⟨outcome, hfinish⟩ | ⟨version, hopen⟩ | ⟨hbelow, -⟩
        · rw [hpause] at hfinish
          cases hfinish
        · rw [hpause] at hopen
          cases hopen
        · omega
      have hgoesOn : ((g.move (.reading attempt)).next reply).stage? =
          some (.reading (attempt + 1)) := by
        rw [hpause]
        rfl
      obtain ⟨⟨reads, watches, rfl, hlength, hreads, hwatches⟩, hcount⟩ := ih hgoesOn hallowed
      refine ⟨⟨_ :: reads, watches, rfl, ?_, ?_, hwatches⟩, ?_⟩
      · simp only [List.length_cons]
        omega
      · intro x hx
        rcases List.mem_cons.mp hx with rfl | hx
        · exact call_reading attempt
        · exact hreads x hx
      · intro next hlast
        obtain ⟨heq, hle⟩ := hcount next hlast
        simp only [List.length_cons]
        omega
    · have hopens : ∀ stage, ((g.move (.reading attempt)).next reply).stage? = some stage →
          ∃ version, stage = .opening version := by
        intro stage hstage
        rcases hnext with ⟨outcome, hfinish⟩ | ⟨version, hopen⟩ | ⟨-, d, hpause⟩
        · rw [hfinish] at hstage
          cases hstage
        · rw [hopen] at hstage
          exact ⟨version, (Option.some.inj hstage).symm⟩
        · exact absurd ⟨d, hpause⟩ hmore
      obtain ⟨hwatches, hlast⟩ := later.only_watches hopens
      refine ⟨⟨[_], rest, rfl, ?_, ?_, hwatches⟩, fun next hnext => absurd hnext (hlast next)⟩
      · simp only [List.length_singleton]
        omega
      · intro x hx
        rw [List.mem_singleton.mp hx]
        exact call_reading attempt

/-- A wait reads until a result does not miss its target, or as often as it may, with the pauses in
between; the last result decides, and no read follows. Whoever answers, it reads no more often than it
may, at least once, and its count of the reads fits in 32 bits if the limit does. -/
theorem reads_counted (g : Goal) :
    (∀ w : World (Script g.collection), w.Undisturbed → g.CountsReads w) ∧
      ∀ xs last, g.Course (.proceed (.reading 1)) xs last → g.Ordered 1 xs last ∧
        (g.settings.maxReadAttempts < Text.bound32 →
          ∀ next, last.stage? = some (.reading next) → next < Text.bound32) := by
  constructor
  · intro w hw
    exact countsReads hw
  · intro xs last hcourse
    have hordered := hcourse.ordered rfl (Nat.le_max_left _ _)
    refine ⟨hordered, ?_⟩
    intro hlimit next hnext
    obtain ⟨-, hle⟩ := hordered.count next hnext
    exact Nat.lt_of_le_of_lt hle (Nat.max_lt.mpr ⟨by decide, hlimit⟩)

end Goal

/-! ## A component that appears late -/

/-- A component of the cluster's directory, once it is available. -/
def lateComponent : Object .components where
  metadata := { name := some "k8s-ces-gateway", resourceVersion := some "7" }
  body :=
    { name := "k8s-ces-gateway", helmNamespace := "k8s", version := "1.0.0",
      status := some { health := "available" } }

/-- A wait for it that may read so often. -/
def lateGoal (maxReadAttempts : Nat) : Goal where
  collection := .components
  target := .named "k8s-ces-gateway" "k8s.cloudogu.com/component.name"
  predicate := componentHealthy
  settings := { Settings.standard with maxReadAttempts }
  timeout := .ofSecs 900

/-- A cluster in which it is there at the third read. -/
def lateWorld : World (Script .components) where
  backend :=
    { gets := [.error (.notFound "k8s-ces-gateway"), .error (.notFound "k8s-ces-gateway"),
        .ok lateComponent] }

/-- Three reads find it, two give up on it, and a limit of none allows one. Under the largest limit a
wait that has missed it once counts its second read within 32 bits. -/
theorem reads_counted_late :
    lateWorld.Undisturbed ∧
      (lateGoal 3).Reads lateWorld 3 (some (.ok ())) ∧
      (lateGoal 2).Reads lateWorld 2 (some (.error (.notFound (lateGoal 2).targetText 2))) ∧
      (lateGoal 0).Reads lateWorld 1 (some (.error (.notFound (lateGoal 0).targetText 1))) ∧
      2 < Text.bound32 := by
  have hundisturbed : lateWorld.Undisturbed := ⟨rfl, rfl⟩
  have hfound := ((lateGoal 3).reads_counted.1 lateWorld hundisturbed).found
    (lateWorld.backend.gets.take 2 |>.map fun r => r.map fun o => [o]) (.ok [lateComponent]) [] rfl
    (by decide) rfl (by decide)
  have hgiven := ((lateGoal 2).reads_counted.1 lateWorld hundisturbed).absent (by decide)
  have honce := ((lateGoal 0).reads_counted.1 lateWorld hundisturbed).absent (by decide)
  have hcourse : (lateGoal 4294967295).Course (.proceed (.reading 1))
      [⟨0, _, .error (.notFound "k8s-ces-gateway")⟩]
      (.pause ((lateGoal 4294967295).settings.backoff 1) (.reading 2)) :=
    .cons rfl 0 (.error (.notFound "k8s-ces-gateway")) (.nil _)
  have hcounted := ((lateGoal 4294967295).reads_counted.2 _ _ hcourse).2 (by decide) 2 rfl
  exact ⟨hundisturbed, hfound, hgiven, honce, hcounted⟩

end EcosystemSetup.Wait

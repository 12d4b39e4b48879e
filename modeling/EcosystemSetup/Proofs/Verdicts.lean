import EcosystemSetup.Proofs.Readiness

/-!
# What decides a wait

A wait looks at one thing after the other: what its first read found, then the events of the streams
that it listens to. Each of them decides the wait or says nothing, and a stream is listened to until it
breaks, by an error of the stream or by an error event that is no expiry. Main statement: listening to
a stream decides the wait as the first event does that decides at all.
-/

namespace EcosystemSetup.Wait

open Cluster

/-! ## Events -/

/-- The object that an event is about. -/
def changed? {c : Collection} : Cluster.Event c → Option (Object c)
  | .added o => some o
  | .modified o => some o
  | .deleted o => some o
  | _ => none

/-- Whether an item of a stream breaks it. -/
def breaks {c : Collection} : Except AccessError (Cluster.Event c) → Bool
  | .error _ => true
  | .ok (.error s) => !s.isExpired
  | .ok _ => false

/-- The event of an item. -/
def event? {c : Collection} : Except AccessError (Cluster.Event c) → Option (Cluster.Event c)
  | .ok e => some e
  | .error _ => none

/-- The events of a stream up to the item that breaks it. -/
def heard {c : Collection} (items : Session c) : List (Cluster.Event c) :=
  (items.takeWhile fun x => !breaks x).filterMap event?

theorem heard_nil {c : Collection} : heard ([] : Session c) = [] := rfl

theorem heard_cons_of_breaks {c : Collection} {x : Except AccessError (Cluster.Event c)}
    {rest : Session c} (h : breaks x = true) : heard (x :: rest) = [] := by
  simp [heard, h]

theorem heard_cons_of_not_breaks {c : Collection} {e : Cluster.Event c} {rest : Session c}
    (h : breaks (.ok e) = false) : heard (.ok e :: rest) = e :: heard rest := by
  simp [heard, h, event?]

namespace Goal

variable (g : Goal)

/-- What an object's readiness decides. -/
def settle : Readiness → Option Outcome
  | .ready => some (.ok ())
  | .failed reason => some (.error (.failed g.targetText reason))
  | .pending => none

/-- What an event decides: a target that has changed by its readiness, one that is gone and a version
that is no longer kept always, everything else nothing. -/
def verdict? : Cluster.Event g.collection → Option Outcome
  | .added o => if g.concerns o then g.settle (g.predicate o) else none
  | .modified o => if g.concerns o then g.settle (g.predicate o) else none
  | .deleted o => if g.concerns o then some (.error (.deleted g.targetText)) else none
  | .bookmark _ => none
  | .error s => if s.isExpired then some (.error (.expired g.targetText s.message)) else none

/-- The version to watch from after an event: bookmarks and changes of a target move it. -/
def resume (version : String) : Cluster.Event g.collection → String
  | .added o => if g.concerns o then o.metadata.resourceVersion.getD version else version
  | .modified o => if g.concerns o then o.metadata.resourceVersion.getD version else version
  | .deleted _ => version
  | .bookmark v => v
  | .error _ => version

variable {g : Goal}

/-! ## Reactions -/

theorem afterChange_of_settle {version : String} {o : Object g.collection} {outcome : Outcome}
    (hconcerns : g.concerns o = true) (h : g.settle (g.predicate o) = some outcome) :
    g.afterChange version o = .decide outcome := by
  unfold afterChange
  rw [if_pos hconcerns]
  cases hready : g.predicate o <;> simp_all [settle]

theorem afterChange_of_pending {version : String} {o : Object g.collection}
    (hconcerns : g.concerns o = true) (h : g.settle (g.predicate o) = none) :
    g.afterChange version o = .goOn (o.metadata.resourceVersion.getD version) := by
  unfold afterChange
  rw [if_pos hconcerns]
  cases hready : g.predicate o <;> simp_all [settle]

theorem afterChange_of_not_concerns {version : String} {o : Object g.collection}
    (h : g.concerns o = false) : g.afterChange version o = .goOn version := by
  simp [afterChange, h]

/-- An event with a verdict decides. -/
theorem react_of_verdict {version : String} {e : Cluster.Event g.collection} {outcome : Outcome}
    (h : g.verdict? e = some outcome) : g.react version e = .decide outcome := by
  cases e with
  | added o =>
    by_cases hconcerns : g.concerns o = true
    · exact afterChange_of_settle hconcerns (by simpa [verdict?, hconcerns] using h)
    · simp [verdict?, hconcerns] at h
  | modified o =>
    by_cases hconcerns : g.concerns o = true
    · exact afterChange_of_settle hconcerns (by simpa [verdict?, hconcerns] using h)
    · simp [verdict?, hconcerns] at h
  | deleted o =>
    by_cases hconcerns : g.concerns o = true
    · simp_all [verdict?, react]
    · simp [verdict?, hconcerns] at h
  | bookmark v => simp [verdict?] at h
  | error s =>
    by_cases hexpired : s.isExpired = true
    · simp_all [verdict?, react]
    · simp [verdict?, hexpired] at h

/-- An event that breaks the stream makes the wait open it again. -/
theorem react_of_breaks {version : String} {e : Cluster.Event g.collection}
    (h : breaks (.ok e) = true) : g.react version e = .reopen := by
  cases e with
  | error s =>
    have hexpired : s.isExpired = false := by simpa [breaks] using h
    simp [react, hexpired]
  | added o => simp [breaks] at h
  | modified o => simp [breaks] at h
  | deleted o => simp [breaks] at h
  | bookmark v => simp [breaks] at h

/-- After any other event the wait listens on, from the version to resume at. -/
theorem react_of_verdict_none {version : String} {e : Cluster.Event g.collection}
    (hbreaks : breaks (.ok e) = false) (h : g.verdict? e = none) :
    g.react version e = .goOn (g.resume version e) := by
  cases e with
  | added o =>
    by_cases hconcerns : g.concerns o = true
    · have hpending : g.settle (g.predicate o) = none := by simpa [verdict?, hconcerns] using h
      rw [react, afterChange_of_pending hconcerns hpending, resume, if_pos hconcerns]
    · have hforeign : g.concerns o = false := Bool.eq_false_iff.mpr hconcerns
      rw [react, afterChange_of_not_concerns hforeign, resume, if_neg hconcerns]
  | modified o =>
    by_cases hconcerns : g.concerns o = true
    · have hpending : g.settle (g.predicate o) = none := by simpa [verdict?, hconcerns] using h
      rw [react, afterChange_of_pending hconcerns hpending, resume, if_pos hconcerns]
    · have hforeign : g.concerns o = false := Bool.eq_false_iff.mpr hconcerns
      rw [react, afterChange_of_not_concerns hforeign, resume, if_neg hconcerns]
  | deleted o =>
    have hforeign : g.concerns o = false := by
      cases hconcerns : g.concerns o with
      | true => simp [verdict?, hconcerns] at h
      | false => rfl
    simp [react, resume, hforeign]
  | bookmark v => rfl
  | error s =>
    have hexpired : s.isExpired = true := by simpa [breaks] using hbreaks
    simp [verdict?, hexpired] at h

/-! ## Listening -/

theorem listen_cons_of_breaks {version : String}
    {x : Except AccessError (Cluster.Event g.collection)} {rest : Session g.collection}
    (h : breaks x = true) : g.listen version (x :: rest) = .broken version := by
  cases x with
  | error e => rfl
  | ok e => simp [listen, react_of_breaks h]

theorem listen_cons_of_verdict {version : String} {e : Cluster.Event g.collection}
    {rest : Session g.collection} {outcome : Outcome} (h : g.verdict? e = some outcome) :
    g.listen version (.ok e :: rest) = .decided outcome := by
  simp [listen, react_of_verdict h]

theorem listen_cons_of_verdict_none {version : String} {e : Cluster.Event g.collection}
    {rest : Session g.collection} (hbreaks : breaks (.ok e) = false) (h : g.verdict? e = none) :
    g.listen version (.ok e :: rest) = g.listen (g.resume version e) rest := by
  simp [listen, react_of_verdict_none hbreaks h]

/-- What listening has decided. -/
def Heard.outcome? : Heard → Option Outcome
  | .decided outcome => some outcome
  | .broken _ => none
  | .drained _ => none

/-- The last version heard of in a stream that did not decide. -/
def Heard.version? : Heard → Option String
  | .decided _ => none
  | .broken version => some version
  | .drained version => some version

/-- An opened watch ends the wait as listening has decided; otherwise it is opened again from the last
version heard of, or it stays open in silence. -/
theorem afterOpen_cases (version : String) (stream : Stream g.collection) :
    (∃ outcome, (g.listen version stream.items).outcome? = some outcome ∧
      g.afterOpen version (.ok stream) = .finish outcome) ∨
    (∃ v, (g.listen version stream.items).outcome? = none ∧
      (g.listen version stream.items).version? = some v ∧
      (g.afterOpen version (.ok stream) = g.reopen v ∨
        stream.ends = false ∧ g.afterOpen version (.ok stream) = .silence)) := by
  unfold afterOpen
  dsimp only
  cases g.listen version stream.items with
  | decided outcome => exact Or.inl ⟨outcome, rfl, rfl⟩
  | broken v => exact Or.inr ⟨v, rfl, rfl, Or.inl rfl⟩
  | drained v =>
    refine Or.inr ⟨v, rfl, rfl, ?_⟩
    cases stream.ends with
    | true => exact Or.inl rfl
    | false => exact Or.inr ⟨rfl, rfl⟩

/-- Listening decides as the first event that was heard and decides. -/
theorem outcome_listen (version : String) (items : Session g.collection) :
    (g.listen version items).outcome? = (heard items).findSome? g.verdict? := by
  induction items generalizing version with
  | nil => rfl
  | cons x rest ih =>
    by_cases hbreaks : breaks x = true
    · rw [listen_cons_of_breaks hbreaks, heard_cons_of_breaks hbreaks]
      rfl
    · rw [Bool.not_eq_true] at hbreaks
      cases x with
      | error e => simp [breaks] at hbreaks
      | ok e =>
        rw [heard_cons_of_not_breaks hbreaks, List.findSome?_cons]
        cases hverdict : g.verdict? e with
        | some outcome =>
          rw [listen_cons_of_verdict hverdict]
          rfl
        | none =>
          rw [listen_cons_of_verdict_none hbreaks hverdict]
          exact ih _

end Goal

end EcosystemSetup.Wait

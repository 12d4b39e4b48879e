import EcosystemSetup.Patch.Apply
import EcosystemSetup.Proofs.SideBySide

/-!
# Directives applied side by side

The directives of a phase are applied at the same time, in whatever order their calls are answered,
and whatever the answers are. Each one makes its own calls: none if it has a defect, a look-up of its
kind, and one patch if the kind is served. Their results are collected in the order of the directives,
so the phase succeeds exactly if all of them do, and otherwise fails with one failure for each of
those that do not.
-/

namespace EcosystemSetup.Patch

open Cluster Program

variable {ns : String} {phase : Phase} {d : Directive} {ds : List Directive}

/-! ## One directive -/

/-- What is left of a directive once its kind has been looked up. -/
def afterLookUp (ns : String) (resource : ResourceName) (operations : List Operation) :
    Except AccessError ServedKind → Program (Except Failure Unit)
  | .error e => .done (.error (e.toFailure.context ("resolving " ++ resource.kindName.key)))
  | .ok kind =>
    .call (.patch kind (scope ns kind) resource.name operations) fun reply =>
      .done (reply.mapError fun e => e.toFailure.context ("patching " ++ resource.describe))

theorem send_eq (resource : ResourceName) (operations : List Operation) :
    send ns resource operations =
      .call (.resolve resource.kindName) (afterLookUp ns resource operations) := by
  change Program.call _ _ = _
  congr 1
  funext reply
  cases reply with
  | error e => rfl
  | ok kind =>
    change Program.call _ _ = _
    congr 1
    funext answer
    cases answer <;> rfl

/-- A directive that passes its checks is sent. -/
theorem applyOne_of_encoded {operations : List Operation} (sound : d.defect? = none)
    (encoded : d.operations? = some operations) :
    applyOne ns d = .call (.resolve d.resource.kindName) (afterLookUp ns d.resource operations) := by
  unfold applyOne
  rw [sound]
  dsimp only
  rw [encoded]
  exact send_eq d.resource operations

/-- How far the attempt at a directive has come: what has been done for it, and what is left. -/
inductive Attempt (ns : String) (d : Directive) :
    List Action → Program (Except Failure Unit) → Prop where
  | defective {defect : Defect} (h : d.defect? = some defect) :
      Attempt ns d [] (.done (.error ⟨invalidMessage d.resource defect, []⟩))
  | unencoded (sound : d.defect? = none) (h : d.operations? = none) :
      Attempt ns d [] (.done (.error (unencodable d.resource)))
  | begun {operations : List Operation} (sound : d.defect? = none)
      (encoded : d.operations? = some operations) :
      Attempt ns d []
        (.call (.resolve d.resource.kindName) (afterLookUp ns d.resource operations))
  | lookedUp {operations : List Operation} (sound : d.defect? = none)
      (encoded : d.operations? = some operations) (found : Except AccessError ServedKind) :
      Attempt ns d [.called (.resolve d.resource.kindName) found]
        (afterLookUp ns d.resource operations found)
  | sent {operations : List Operation} (sound : d.defect? = none)
      (encoded : d.operations? = some operations) (kind : ServedKind)
      (reply : Except AccessError Unit) :
      Attempt ns d
        [.called (.resolve d.resource.kindName) (.ok kind),
          .called (.patch kind (scope ns kind) d.resource.name operations) reply]
        (.done (reply.mapError fun e => e.toFailure.context ("patching " ++ d.resource.describe)))

/-- Whatever the answers, the course of a directive is an attempt at it. -/
theorem attempt_of_course {actions : List Action} {t : Program (Except Failure Unit)}
    (h : Course (applyOne ns d) actions t) : Attempt ns d actions t := by
  -- the checks come first, and a directive that does not pass them makes no call
  cases hdefect : d.defect? with
  | some defect =>
    unfold applyOne at h
    rw [hdefect] at h
    obtain ⟨rfl, rfl⟩ := h.of_done
    exact .defective hdefect
  | none =>
  cases hoperations : d.operations? with
  | none =>
    unfold applyOne at h
    rw [hdefect, hoperations] at h
    obtain ⟨rfl, rfl⟩ := h.of_done
    exact .unencoded hdefect hoperations
  | some operations =>
    rw [applyOne_of_encoded hdefect hoperations] at h
    cases h with
    | nil => exact .begun hdefect hoperations
    | cons step later =>
      cases step with
      | call found =>
      cases found with
      | error e =>
        obtain ⟨rfl, rfl⟩ := later.of_done
        exact .lookedUp hdefect hoperations (.error e)
      | ok kind =>
      cases later with
      | nil => exact .lookedUp hdefect hoperations (.ok kind)
      | cons step later =>
        cases step with
        | call reply =>
          obtain ⟨rfl, rfl⟩ := later.of_done
          exact .sent hdefect hoperations kind reply

namespace Attempt

variable {actions : List Action} {t : Program (Except Failure Unit)} {result : Except Failure Unit}

theorem length_le (h : Attempt ns d actions t) : actions.length ≤ 2 := by
  cases h <;> simp

/-- An attempt that has not come to its end waits for the answer to a call, and goes on with any. -/
theorem done_or_call (h : Attempt ns d actions t) :
    (∃ result, t = .done result) ∨ ∃ k next, t = .call k next := by
  cases h with
  | defective => exact Or.inl ⟨_, rfl⟩
  | unencoded => exact Or.inl ⟨_, rfl⟩
  | begun => exact Or.inr ⟨_, _, rfl⟩
  | lookedUp _ _ found =>
    cases found with
    | error e => exact Or.inl ⟨_, rfl⟩
    | ok kind => exact Or.inr ⟨_, _, rfl⟩
  | sent => exact Or.inl ⟨_, rfl⟩

end Attempt

/-! ### What was sent -/

/-- A patch as it is sent. -/
structure SentPatch where
  kind : ServedKind
  namespaceName : Option String
  name : String
  operations : List Operation

/-- The patch that an action sends, if it sends one. -/
def sentPatch? : Action → Option SentPatch
  | .called (.patch kind namespaceName name operations) _ =>
    some ⟨kind, namespaceName, name, operations⟩
  | _ => none

/-- The patches that some actions send, in order. -/
def sentPatches (actions : List Action) : List SentPatch :=
  actions.filterMap sentPatch?

/-- A directive has no defect, can be encoded, and its kind was looked up and found. -/
structure Resolved (d : Directive) (actions : List Action) (operations : List Operation)
    (kind : ServedKind) : Prop where
  sound : d.defect? = none
  encoded : d.operations? = some operations
  found : .called (.resolve d.resource.kindName) (.ok kind) ∈ actions

namespace Attempt

variable {actions : List Action} {result : Except Failure Unit}

/-- For a directive that could be resolved, exactly one patch is sent, of its resource. -/
theorem sentPatches_of_resolved (h : Attempt ns d actions (.done result))
    {operations : List Operation} {kind : ServedKind} (hd : Resolved d actions operations kind) :
    sentPatches actions =
      [⟨kind, if kind.namespaced then some ns else none, d.resource.name, operations⟩] := by
  obtain ⟨hsound, hencoded, hfound⟩ := hd
  generalize hend : Program.done result = t at h
  cases h with
  | defective => simp at hfound
  | unencoded => simp at hfound
  | begun => simp at hfound
  | lookedUp _ _ found =>
    -- the patch is still to be sent, so this is not the end
    rw [List.mem_singleton] at hfound
    cases hfound
    nomatch hend
  | @sent ops _ hops other reply =>
    have hkind : kind = other := by
      rcases List.mem_cons.mp hfound with heq | hmem
      · cases heq
        rfl
      · simp at hmem
    have hoperations : operations = ops := Option.some.inj (hencoded.symm.trans hops)
    subst hkind hoperations
    rfl

/-- For any other directive no patch is sent. -/
theorem sentPatches_of_not_resolved (h : Attempt ns d actions (.done result))
    (hd : ∀ operations kind, ¬ Resolved d actions operations kind) : sentPatches actions = [] := by
  generalize Program.done result = t at h
  cases h with
  | sent sound encoded kind reply =>
    exact absurd ⟨sound, encoded, List.mem_cons_self⟩ (hd _ kind)
  | _ => rfl

/-- An attempt succeeds exactly if its patch was sent and accepted. -/
theorem ok_iff (h : Attempt ns d actions (.done result)) :
    result = .ok () ↔ ∃ operations kind, Resolved d actions operations kind ∧
      .called (.patch kind (scope ns kind) d.resource.name operations) (.ok ()) ∈ actions := by
  generalize hend : Program.done result = t at h
  cases h with
  | defective => cases hend; simp
  | unencoded => cases hend; simp
  | begun => nomatch hend
  | lookedUp _ _ found =>
    cases found with
    | error e => cases hend; simp
    | ok kind => nomatch hend
  | @sent operations sound encoded kind reply =>
    cases hend
    constructor
    · intro hok
      cases reply with
      | error e => simp [Except.mapError] at hok
      | ok u => exact ⟨operations, kind, ⟨sound, encoded, by simp⟩, by simp⟩
    · rintro ⟨_, _, _, hmem⟩
      rcases List.mem_cons.mp hmem with heq | hmem
      · nomatch heq
      · rw [List.mem_singleton] at hmem
        cases hmem
        rfl

end Attempt

/-! ## All directives -/

/-- The failure of a directive, if it failed. -/
def failure? : Except Failure Unit → Option Failure
  | .ok () => none
  | .error e => some e

/-- The outcome of a phase with the results of its directives. -/
def collected (phase : Phase) (results : List (Except Failure Unit)) : Except PhaseError Unit :=
  phaseOutcome phase (results.filterMap failure?)

/-- A phase succeeds exactly if all its directives do. -/
theorem collected_eq_ok {results : List (Except Failure Unit)} :
    collected phase results = .ok () ↔ ∀ result ∈ results, result = .ok () := by
  unfold collected
  have hnone : results.filterMap failure? = [] ↔ ∀ result ∈ results, result = .ok () := by
    rw [List.filterMap_eq_nil_iff]
    refine forall₂_congr fun result _ => ?_
    cases result with
    | ok u => simp [failure?]
    | error e => simp [failure?]
  rw [← hnone]
  cases results.filterMap failure? with
  | nil => simp [phaseOutcome]
  | cons e rest => simp [phaseOutcome]

/-- Otherwise it fails with the failures of its directives. -/
theorem of_collected_eq_error {results : List (Except Failure Unit)} {e : PhaseError}
    (h : collected phase results = .error e) :
    e = ⟨phase, results.filterMap failure?⟩ := by
  unfold collected at h
  cases hfailures : results.filterMap failure? with
  | nil => simp [hfailures, phaseOutcome] at h
  | cons f rest =>
    rw [hfailures] at h
    exact (Except.error.inj h).symm

/-- A directive is applied before the others, and its failure comes before theirs. -/
theorem applyEach_cons (ns : String) (d : Directive) (rest : List Directive) :
    applyEach ns (d :: rest) = (applyOne ns d).bind fun result =>
      (applyEach ns rest).bind fun failures => .done ((failure? result).toList ++ failures) := by
  change Program.bind _ _ = _
  congr 1
  funext result
  cases result with
  | error e => rfl
  | ok u => exact (bind_done _).symm

theorem run_applyEach_cons {σ : Type} [Backend σ] (ns : String) (d : Directive)
    (rest : List Directive) (w : World σ) :
    (applyEach ns (d :: rest)).run w =
      ((failure? ((applyOne ns d).run w).1).toList ++
          ((applyEach ns rest).run ((applyOne ns d).run w).2).1,
        ((applyEach ns rest).run ((applyOne ns d).run w).2).2) := by
  rw [applyEach_cons, run_bind, run_bind]
  rfl

theorem apply_eq (ns : String) (phase : Phase) (ds : List Directive) :
    apply ns phase ds =
      (applyEach ns (ofPhase phase ds)).bind fun failures => .done (phaseOutcome phase failures) :=
  rfl

theorem run_apply {σ : Type} [Backend σ] (ns : String) (phase : Phase) (ds : List Directive)
    (w : World σ) :
    (apply ns phase ds).run w =
      (phaseOutcome phase ((applyEach ns (ofPhase phase ds)).run w).1,
        ((applyEach ns (ofPhase phase ds)).run w).2) := by
  rw [apply_eq, run_bind]
  rfl

/-- The courses of the directives, one behind the other, are a course of all. -/
theorem course_applyEach {parts : Nat → List Action} {results : List (Except Failure Unit)}
    (hlength : results.length = ds.length)
    (h : ∀ i d, ds[i]? = some d →
      ∃ result, results[i]? = some result ∧ Course (applyOne ns d) (parts i) (.done result)) :
    Course (applyEach ns ds) ((List.range ds.length).flatMap parts)
      (.done (results.filterMap failure?)) := by
  induction ds generalizing parts results with
  | nil =>
    rw [List.length_nil, List.length_eq_zero_iff] at hlength
    subst hlength
    exact .nil _
  | cons d rest ih =>
    obtain ⟨result, hresult, hfirst⟩ := h 0 d rfl
    cases results with
    | nil => simp at hresult
    | cons first results =>
    rw [List.getElem?_cons_zero, Option.some.injEq] at hresult
    subst hresult
    have hrest : Course (applyEach ns rest) ((List.range rest.length).flatMap fun i => parts (i + 1))
        (.done (results.filterMap failure?)) := by
      apply ih (by simpa using hlength)
      intro i e he
      obtain ⟨other, hother, hcourse⟩ := h (i + 1) e (by simpa using he)
      exact ⟨other, by simpa using hother, hcourse⟩
    have hfailures : (first :: results).filterMap failure? =
        (failure? first).toList ++ results.filterMap failure? := by
      cases first <;> rfl
    rw [applyEach_cons, hfailures, List.length_cons, List.range_succ_eq_map, List.flatMap_cons,
      List.flatMap_map]
    exact hfirst.bind (hrest.map fun failures => (failure? first).toList ++ failures)

/-- A course of all directives is one in which they act side by side, each before the next. -/
theorem sideBySide_of_applyEach {actions : List Action} {failures : List Failure}
    (h : Course (applyEach ns ds) actions (.done failures)) :
    ∃ (journal : Journal) (results : List (Except Failure Unit)),
      SideBySide (ds.map (applyOne ns)) journal (results.map .done) ∧
        journal.map Prod.snd = actions ∧ failures = results.filterMap failure? := by
  induction ds generalizing actions failures with
  | nil =>
    obtain ⟨rfl, hdone⟩ := h.of_done
    cases hdone
    exact ⟨[], [], .nil, rfl, rfl⟩
  | cons d rest ih =>
    rw [applyEach_cons] at h
    obtain ⟨result, own, others, rfl, hown, hothers⟩ := h.of_bind
    obtain ⟨more, within, last, rfl, hwithin, hlast⟩ := hothers.of_bind
    obtain ⟨rfl, hdone⟩ := hlast.of_done
    cases hdone
    obtain ⟨journal, results, hjournal, rfl, rfl⟩ := ih hwithin
    refine ⟨_, result :: results,
      (SideBySide.of_course hown (rest.map (applyOne ns))).trans (hjournal.cons (.done result)),
      ?_, ?_⟩
    · simp [Function.comp_def]
    · cases result <;> rfl

/-! ## The conduct of a phase -/

/-- What holds of the directives of a phase while they are applied side by side. -/
structure Conducted (ns : String) (phase : Phase) (ds : List Directive) (journal : Journal)
    (ts : List (Program (Except Failure Unit))) : Prop where
  /-- Only the directives of the phase act, each of them at most twice. -/
  own : ∀ x ∈ journal, ∃ d, (ofPhase phase ds)[x.1]? = some d
  bounded : journal.length ≤ 2 * (ofPhase phase ds).length
  /-- Every one of them is attempted. -/
  attempted : ∀ i d, (ofPhase phase ds)[i]? = some d →
    ∃ t, ts[i]? = some t ∧ Attempt ns d (journal.actionsOf i) t
  /-- One that has not come to its end goes on with any answer, wherever the others are. -/
  goesOn : ∀ (i : Nat) (t : Program (Except Failure Unit)), ts[i]? = some t →
    (∃ result, t = .done result) ∨
      ∃ k : Call, ∀ reply : k.Reply, ∃ us, Acts ts (i, .called k reply) us
  /-- Once a directive has come to its end, one patch of its resource was sent if it could be
  resolved. -/
  patched : ∀ i d result operations kind, (ofPhase phase ds)[i]? = some d →
    ts[i]? = some (.done result) → Resolved d (journal.actionsOf i) operations kind →
    sentPatches (journal.actionsOf i) =
      [⟨kind, if kind.namespaced then some ns else none, d.resource.name, operations⟩]
  /-- No patch was sent for any other. -/
  unpatched : ∀ i d result, (ofPhase phase ds)[i]? = some d → ts[i]? = some (.done result) →
    (∀ operations kind, ¬ Resolved d (journal.actionsOf i) operations kind) →
    sentPatches (journal.actionsOf i) = []
  /-- A directive succeeds exactly if its patch was sent and accepted. -/
  accepted : ∀ i d result, (ofPhase phase ds)[i]? = some d → ts[i]? = some (.done result) →
    (result = .ok () ↔ ∃ operations kind, Resolved d (journal.actionsOf i) operations kind ∧
      .called (.patch kind (scope ns kind) d.resource.name operations) (.ok ()) ∈
        journal.actionsOf i)
  /-- Once all have come to their ends, the phase has the outcome that it has for the same answers in
  the order of the directives. -/
  sequential : ∀ results, ts = results.map .done →
    Course (apply ns phase ds) ((List.range (ofPhase phase ds).length).flatMap journal.actionsOf)
      (.done (collected phase results))
  /-- It succeeds if all of them do. -/
  succeeds : ∀ results, ts = results.map .done →
    (collected phase results = .ok () ↔ ∀ result ∈ results, result = .ok ())
  /-- Otherwise it fails with one failure for each that failed, in the order of the directives. -/
  fails : ∀ results e, ts = results.map .done → collected phase results = .error e →
    e.phase = phase ∧ e.failures = results.filterMap failure?

section

variable {journal : Journal} {ts : List (Program (Except Failure Unit))}

/-- Every directive goes its own course. -/
theorem course_of_sideBySide (h : SideBySide (ds.map (applyOne ns)) journal ts) {i : Nat}
    (hd : ds[i]? = some d) :
    ∃ t, ts[i]? = some t ∧ Course (applyOne ns d) (journal.actionsOf i) t :=
  h.course (by rw [List.getElem?_map, hd]; rfl)

theorem attempt_of_sideBySide (h : SideBySide (ds.map (applyOne ns)) journal ts) {i : Nat}
    (hd : ds[i]? = some d) :
    ∃ t, ts[i]? = some t ∧ Attempt ns d (journal.actionsOf i) t := by
  obtain ⟨t, ht, hcourse⟩ := course_of_sideBySide h hd
  exact ⟨t, ht, attempt_of_course hcourse⟩

/-- What is left of a directive is left of an attempt at it. -/
theorem attempt_of_left (h : SideBySide (ds.map (applyOne ns)) journal ts) {i : Nat}
    (hd : ds[i]? = some d) {t : Program (Except Failure Unit)} (ht : ts[i]? = some t) :
    Attempt ns d (journal.actionsOf i) t := by
  obtain ⟨u, hu, hattempt⟩ := attempt_of_sideBySide h hd
  rw [ht, Option.some.injEq] at hu
  exact hu ▸ hattempt

/-- Each directive acts at most twice. -/
theorem length_of_sideBySide (h : SideBySide (ds.map (applyOne ns)) journal ts) :
    journal.length ≤ 2 * ds.length := by
  have hplaces : ∀ x ∈ journal, x.1 < ds.length := by
    intro x hx
    simpa using h.lt_length x hx
  have htwo : ∀ i ∈ Finset.range ds.length, (journal.actionsOf i).length ≤ 2 := by
    intro i hi
    obtain ⟨t, _, hattempt⟩ :=
      attempt_of_sideBySide h (List.getElem?_eq_getElem (Finset.mem_range.mp hi))
    exact hattempt.length_le
  rw [Journal.length_eq_sum hplaces, Nat.mul_comm]
  simpa using Finset.sum_le_card_nsmul _ _ 2 htwo

/-- Once all directives have come to their ends, their courses make one in which they act in order. -/
theorem course_of_results {results : List (Except Failure Unit)}
    (h : SideBySide (ds.map (applyOne ns)) journal (results.map .done)) :
    Course (applyEach ns ds) ((List.range ds.length).flatMap journal.actionsOf)
      (.done (results.filterMap failure?)) := by
  have hlength : results.length = ds.length := by simpa using h.length_eq
  apply course_applyEach hlength
  intro i d hd
  obtain ⟨t, ht, hcourse⟩ := course_of_sideBySide h hd
  rw [List.getElem?_map, Option.map_eq_some_iff] at ht
  obtain ⟨result, hresult, rfl⟩ := ht
  exact ⟨result, hresult, hcourse⟩

/-- However the directives of a phase act side by side, whatever the answers. -/
theorem conducted_of_sideBySide
    (h : SideBySide ((ofPhase phase ds).map (applyOne ns)) journal ts) :
    Conducted ns phase ds journal ts where
  own := by
    intro x hx
    have hplace : x.1 < (ofPhase phase ds).length := by simpa using h.lt_length x hx
    exact ⟨_, List.getElem?_eq_getElem hplace⟩
  bounded := length_of_sideBySide h
  attempted _ _ hd := attempt_of_sideBySide h hd
  goesOn := by
    intro i t ht
    have hi : i < (ofPhase phase ds).length := by
      have hplace := (List.getElem?_eq_some_iff.mp ht).1
      rwa [h.length_eq, List.length_map] at hplace
    rcases (attempt_of_left h (List.getElem?_eq_getElem hi) ht).done_or_call with
      hdone | ⟨k, next, rfl⟩
    · exact Or.inl hdone
    · exact Or.inr ⟨k, fun reply => ⟨_, .act ht (.call reply)⟩⟩
  patched _ _ _ _ _ hd hresult hresolved :=
    (attempt_of_left h hd hresult).sentPatches_of_resolved hresolved
  unpatched _ _ _ hd hresult hresolved :=
    (attempt_of_left h hd hresult).sentPatches_of_not_resolved hresolved
  accepted _ _ _ hd hresult := (attempt_of_left h hd hresult).ok_iff
  sequential := by
    intro results hresults
    subst hresults
    exact (course_of_results h).map (phaseOutcome phase)
  succeeds _ _ := collected_eq_ok
  fails := by
    intro results e _ herror
    rw [of_collected_eq_error herror]
    exact ⟨rfl, rfl⟩

end

/-- The directives of a phase are all that its application sees of a list. Its courses are those in
which they act one after another, and however they act side by side, each of them is attempted,
patched at most once, and answered for in its place. -/
theorem directives_side_by_side (ns : String) (phase : Phase) (ds : List Directive) :
    apply ns phase (ofPhase phase ds) = apply ns phase ds ∧
      (∀ actions outcome, Course (apply ns phase ds) actions (.done outcome) →
        ∃ (journal : Journal) (results : List (Except Failure Unit)),
          SideBySide ((ofPhase phase ds).map (applyOne ns)) journal (results.map .done) ∧
            journal.map Prod.snd = actions ∧ outcome = collected phase results) ∧
      ∀ (journal : Journal) (ts : List (Program (Except Failure Unit))),
        SideBySide ((ofPhase phase ds).map (applyOne ns)) journal ts →
          Conducted ns phase ds journal ts := by
  refine ⟨?_, ?_, fun journal ts => conducted_of_sideBySide⟩
  · have hagain : ofPhase phase (ofPhase phase ds) = ofPhase phase ds := by
      simp [ofPhase, List.filter_filter]
    rw [apply_eq, hagain, ← apply_eq]
  · intro actions outcome h
    rw [apply_eq] at h
    obtain ⟨failures, own, rest, rfl, hown, hrest⟩ := h.of_bind
    obtain ⟨rfl, hdone⟩ := hrest.of_done
    cases hdone
    obtain ⟨journal, results, hjournal, rfl, rfl⟩ := sideBySide_of_applyEach hown
    exact ⟨journal, results, hjournal, by simp, rfl⟩

/-! ### Two directives at once -/

/-- Changes of a config map, of a role and of a component's deployment, the last in another phase. -/
def mixedDirectives : List Directive :=
  [{ phase := .dogu, resource := ⟨"v1", "ConfigMap", "ldap-config"⟩
     changes := [{ kind := .replace, path := "/data/mode", value := some (.text "strict") }] },
    { phase := .component, resource := ⟨"apps/v1", "Deployment", "k8s-dogu-operator"⟩ },
    { phase := .dogu, resource := ⟨"rbac.authorization.k8s.io/v1", "ClusterRole", "ces-reader"⟩
      changes := [{ kind := .remove, path := "/rules/0" }] }]

/-- The role has no namespace. -/
def clusterRole : ServedKind :=
  ⟨⟨"rbac.authorization.k8s.io", "v1", "ClusterRole"⟩, "rbac.authorization.k8s.io/v1", "clusterroles",
    false⟩

/-- The role is looked up first, then the config map, which is not found, and then the role is
patched. -/
def mixedJournal : Journal :=
  [(1, .called (.resolve (.ofApiVersion "rbac.authorization.k8s.io/v1" "ClusterRole"))
      (.ok clusterRole)),
    (0, .called (.resolve (.ofApiVersion "v1" "ConfigMap"))
      (.error (.notFound "resource type v1/ConfigMap"))),
    (1, .called (.patch clusterRole none "ces-reader" [.remove "/rules/0"]) (.ok ()))]

/-- The look-up of the config map, and what is left of its directive. -/
def configMapAttempt : Program (Except Failure Unit) :=
  .call (.resolve (.ofApiVersion "v1" "ConfigMap"))
    (afterLookUp "ecosystem" ⟨"v1", "ConfigMap", "ldap-config"⟩
      [.replace "/data/mode" (.text "strict")])

/-- What is left of the directive for the role once it has been looked up. -/
def rolePatch : Except AccessError ServedKind → Program (Except Failure Unit) :=
  afterLookUp "ecosystem" ⟨"rbac.authorization.k8s.io/v1", "ClusterRole", "ces-reader"⟩
    [.remove "/rules/0"]

/-- The look-up of the role, and what is left of its directive. -/
def roleAttempt : Program (Except Failure Unit) :=
  .call (.resolve (.ofApiVersion "rbac.authorization.k8s.io/v1" "ClusterRole")) rolePatch

/-- The failure of the directive for the config map. -/
def configMapFailure : Failure :=
  ⟨"resolving v1/ConfigMap", ["resource type v1/ConfigMap not found"]⟩

/-- The failed look-up of the first directive does not keep the other from being applied. -/
theorem directives_side_by_side_mixed :
    ∃ results : List (Except Failure Unit),
      SideBySide ((ofPhase .dogu mixedDirectives).map (applyOne "ecosystem")) mixedJournal
          (results.map .done) ∧
        collected .dogu results = .error ⟨.dogu, [configMapFailure]⟩ ∧
        Conducted "ecosystem" .dogu mixedDirectives mixedJournal (results.map .done) := by
  have hphase : (ofPhase .dogu mixedDirectives).map (applyOne "ecosystem") =
      [configMapAttempt, roleAttempt] := by
    have hconfigMap : applyOne "ecosystem" mixedDirectives[0] = configMapAttempt :=
      applyOne_of_encoded (by decide +kernel) rfl
    have hrole : applyOne "ecosystem" mixedDirectives[2] = roleAttempt :=
      applyOne_of_encoded (by decide +kernel) rfl
    exact congrArg₂ (fun t u => [t, u]) hconfigMap hrole
  have hjournal : SideBySide ((ofPhase .dogu mixedDirectives).map (applyOne "ecosystem"))
      mixedJournal (List.map .done [.error configMapFailure, .ok ()]) := by
    rw [hphase]
    have hlooked : Acts [configMapAttempt, roleAttempt] _
        [configMapAttempt, rolePatch (.ok clusterRole)] :=
      .act (i := 1) (t := roleAttempt) rfl (.call _)
    have hfailed : Acts [configMapAttempt, rolePatch (.ok clusterRole)] _
        [.done (.error configMapFailure), rolePatch (.ok clusterRole)] :=
      .act (i := 0) (t := configMapAttempt) rfl
        (.call (.error (.notFound "resource type v1/ConfigMap")))
    have hpatched : Acts [.done (.error configMapFailure), rolePatch (.ok clusterRole)] _
        [.done (.error configMapFailure), .done (.ok ())] :=
      .act (i := 1) (t := rolePatch (.ok clusterRole)) rfl
        (.call (k := .patch clusterRole none "ces-reader" [.remove "/rules/0"]) (.ok ()))
    exact .snoc (.snoc (.snoc .nil hlooked) hfailed) hpatched
  exact ⟨_, hjournal, rfl, (directives_side_by_side _ _ _).2.2 _ _ hjournal⟩

end EcosystemSetup.Patch

import EcosystemSetup.Proofs.Prerequisites
import EcosystemSetup.Proofs.Rounds
import EcosystemSetup.Proofs.SelectionAttempts

/-!
# A selection stored beside other clients

A setup stores its selection of dogus in a config map that any number of other programs write too, in
any order of all their actions. Main statement: if it succeeds, it has stored the map once, and what it
stored is the map that stood there right before, or a new one, but for the selection and the version. If
another program has stored the map after the setup read it, the setup's update fails, leaves the map
alone and is its last action; and unless an error is put in its way it fails for no other reason.
-/

namespace EcosystemSetup.Setup

open Cluster

/-! ## What is stored -/

/-- A new map, before the selection is put into it. -/
def blankConfigMap (c : Config) : Object .configMaps :=
  { freshConfigMap c with body := {} }

/-- A map that differs from another in its version and in the selection of dogus, which is that of the
configuration. -/
structure Selects (c : Config) (m q : Object .configMaps) : Prop where
  metadata : { q.metadata with resourceVersion := m.metadata.resourceVersion } = m.metadata
  defaultDogu : Assoc.get? "default_dogu" (q.body.data.getD []) = some (defaultDoguName c)
  dogus : Assoc.get? "dogus" (q.body.data.getD []) =
    some (String.intercalate "\n" c.dogus.install)
  others : ∀ key, key ≠ "default_dogu" → key ≠ "dogus" →
    Assoc.get? key (q.body.data.getD []) = Assoc.get? key (m.body.data.getD [])

/-- The map with the selection. -/
def selected (c : Config) (m : Object .configMaps) : Object .configMaps :=
  { m with body := { data := some (withSelection c (m.body.data.getD [])) } }

theorem get?_default_selected (c : Config) (m : Object .configMaps) :
    Assoc.get? "default_dogu" ((selected c m).body.data.getD []) = some (defaultDoguName c) := by
  show Assoc.get? "default_dogu" (withSelection c (m.body.data.getD [])) = _
  unfold withSelection
  rw [Assoc.get?_set_ne (by decide), Assoc.get?_set_self]

/-- Storing the map with the selection changes no more. -/
theorem selects_stamped (c : Config) (m : Object .configMaps) (s : Store .configMaps) :
    Selects c m (s.stamped (selected c m)) where
  metadata := rfl
  defaultDogu := get?_default_selected c m
  dogus := by
    show Assoc.get? "dogus" (withSelection c (m.body.data.getD [])) = _
    unfold withSelection
    rw [Assoc.get?_set_self]
  others := by
    intro key hdefault hdogus
    show Assoc.get? key (withSelection c (m.body.data.getD [])) = _
    unfold withSelection
    rw [Assoc.get?_set_ne hdogus, Assoc.get?_set_ne hdefault]

theorem selected_blank (c : Config) : selected c (blankConfigMap c) = freshConfigMap c := rfl

/-! ## The stages of the program -/

/-- How the program goes on after its first read. -/
def afterFirstRead (c : Config) :
    Except AccessError (Object .configMaps) → Program (Except Failure Unit)
  | .ok m => mergeSelection c m
  | .error e => if e.isNotFound then createConfigMap c else .done (.error (readingConfigMap e))

/-- How the program goes on after it has tried to create the map. -/
def afterCreation (c : Config) :
    Except AccessError (Object .configMaps) → Program (Except Failure Unit)
  | .ok _ => .done (.ok ())
  | .error e =>
    if e.isAlreadyExists then mergeConcurrent c
    else .done (.error (e.toFailure.context ("creating config map " ++ configMapName)))

/-- How the program goes on after it has read the map once more. -/
def afterSecondRead (c : Config) :
    Except AccessError (Object .configMaps) → Program (Except Failure Unit)
  | .ok m => mergeSelection c m
  | .error e => .done (.error (readingConfigMap e))

/-- What the answer to the update means. -/
def updateResult : Except AccessError (Object .configMaps) → Except Failure Unit
  | .ok _ => .ok ()
  | .error e => .error (e.toFailure.context ("updating config map " ++ configMapName))

theorem storeSelection_eq (c : Config) :
    storeSelection c = .call (.get .configMaps configMapName) (afterFirstRead c) := rfl

theorem createConfigMap_eq (c : Config) :
    createConfigMap c = .call (.create .configMaps (freshConfigMap c)) (afterCreation c) := by
  change Program.call _ _ = _
  congr 1
  funext reply
  cases reply <;> rfl

theorem mergeConcurrent_eq (c : Config) :
    mergeConcurrent c = .call (.get .configMaps configMapName) (afterSecondRead c) := rfl

theorem mergeSelection_eq (c : Config) (m : Object .configMaps) :
    mergeSelection c m =
      .call (.update .configMaps (selected c m)) fun reply => .done (updateResult reply) := by
  change Program.call _ _ = _
  congr 1
  funext reply
  cases reply <;> rfl

/-! ## Overtaking -/

/-- An entry of a program is an update of the map that it has read last, and another program has stored
the map since. -/
def Overtaken (i : Nat) (earlier : Log) (x : Entry) : Prop :=
  ∃ (before : Log) (m : Object .configMaps) (faulted : Bool) (since : Log)
    (o : Object .configMaps) (reply : Except AccessError (Object .configMaps)),
    earlier = before ++ (i, ⟨.called (.get .configMaps configMapName) (.ok m), faulted⟩) :: since ∧
      since.entriesOf i = [] ∧ (∃ y ∈ since, y.2.action.Stores configMapName) ∧
      x.action = .called (.update .configMaps o) reply

/-- The maps that a program has stored. -/
def storedBy (i : Nat) (log : Log) : List (Object .configMaps) :=
  (log.entriesOf i).filterMap fun x => x.action.stored?

/-- No error was put in the way of a program. -/
def Unhindered (i : Nat) (log : Log) : Prop :=
  ∀ x ∈ log.entriesOf i, x.faulted = false

/-- Where the program stands that has not stored its selection: what it knows of the map, and, once it has
failed, what it has failed for. -/
inductive Pending (c : Config) (i : Nat) (log : Log) (s : Store .configMaps) :
    Program (Except Failure Unit) → Prop where
  | begun : Pending c i log s (storeSelection c)
  | creating : Pending c i log s (createConfigMap c)
  | rereading (there : Unhindered i log → ∃ m, s.object? configMapName = some m) :
      Pending c i log s (mergeConcurrent c)
  | merging {before since : Log} {m : Object .configMaps} {faulted : Bool}
      (read : log =
        before ++ (i, ⟨.called (.get .configMaps configMapName) (.ok m), faulted⟩) :: since)
      (own : since.entriesOf i = []) (name : m.name = configMapName)
      (followed : Followed m since s) : Pending c i log s (mergeSelection c m)
  | failed {e : Failure}
      (cause : Unhindered i log →
        ∃ earlier x later, log = earlier ++ (i, x) :: later ∧ Overtaken i earlier x) :
      Pending c i log s (.done (.error e))

variable {c : Config} {i k : Nat} {log : Log} {s s' : Store .configMaps}
  {t u : Program (Except Failure Unit)} {action : Program.Action} {faulted : Bool}

theorem unhindered_snoc_self {entry : Entry} :
    Unhindered i (log ++ [(i, entry)]) ↔ Unhindered i log ∧ entry.faulted = false := by
  simp [Unhindered, or_imp, forall_and]

theorem unhindered_snoc_ne (h : k ≠ i) {entry : Entry} :
    Unhindered i (log ++ [(k, entry)]) ↔ Unhindered i log := by
  simp [Unhindered, h]

theorem storedBy_append_cons {entry : Entry} {later : Log} :
    storedBy i (log ++ (i, entry) :: later) =
      storedBy i log ++ entry.action.stored?.toList ++ storedBy i later := by
  cases hstored : entry.action.stored? <;>
    simp [storedBy, Log.entriesOf_append, Log.entriesOf_cons_self, hstored]

theorem storedBy_snoc_ne (h : k ≠ i) {entry : Entry} :
    storedBy i (log ++ [(k, entry)]) = storedBy i log := by
  simp [storedBy, h]

namespace Pending

/-- Another program acts. -/
theorem other (h : Pending c i log s t) (hs : Kept s) (hne : k ≠ i)
    (hanswered : Answered s action faulted s') :
    Pending c i (log ++ [(k, ⟨action, faulted⟩)]) s' t := by
  cases h with
  | begun => exact .begun
  | creating => exact .creating
  | rereading there =>
    refine .rereading ?_
    intro hclean
    exact hs.exists_map hanswered (there ((unhindered_snoc_ne hne).mp hclean))
  | @merging before since m read_faulted read own name followed =>
    have hread : log ++ [(k, ⟨action, faulted⟩)] = before ++
        (i, ⟨.called (.get .configMaps configMapName) (.ok m), read_faulted⟩) ::
          (since ++ [(k, ⟨action, faulted⟩)]) := by
      simp [read]
    have hown : Log.entriesOf i (since ++ [(k, ⟨action, faulted⟩)]) = [] := by
      rw [Log.entriesOf_snoc_ne hne]
      exact own
    exact .merging hread hown name (followed.answered hs k hanswered)
  | failed cause =>
    refine .failed ?_
    intro hclean
    obtain ⟨earlier, x, later, hlog, hovertaken⟩ := cause ((unhindered_snoc_ne hne).mp hclean)
    exact ⟨earlier, x, later ++ [(k, ⟨action, faulted⟩)], by simp [hlog], hovertaken⟩

/-- A read that shows the map leads to the update. -/
theorem of_read (hs : Kept s) {m : Object .configMaps}
    (hanswered : Answered s (.called (.get .configMaps configMapName) (.ok m)) faulted s') :
    Pending c i (log ++ [(i, ⟨.called (.get .configMaps configMapName) (.ok m), faulted⟩)]) s'
      (mergeSelection c m) := by
  obtain ⟨hobjects, _, _, hfound⟩ := hanswered.of_get
  obtain ⟨hkept, _⟩ := hs.answered hanswered
  have hm : s'.object? configMapName = some m :=
    (Store.object?_congr hobjects configMapName).trans (hfound m rfl)
  exact .merging rfl rfl (hkept.filed.name_eq hm) (followed_nil hkept hm)

/-- The first read leads to the update, to the creation, or to a failure if an error was put in its
way. -/
theorem of_firstRead (hs : Kept s) {reply : Except AccessError (Object .configMaps)}
    (hanswered : Answered s (.called (.get .configMaps configMapName) reply) faulted s') :
    Pending c i (log ++ [(i, ⟨.called (.get .configMaps configMapName) reply, faulted⟩)]) s'
      (afterFirstRead c reply) := by
  cases reply with
  | ok m => exact of_read hs hanswered
  | error e =>
    unfold afterFirstRead
    dsimp only
    split
    · exact .creating
    · rename_i hnot
      refine .failed ?_
      intro hclean
      obtain ⟨_, hfaulted⟩ := unhindered_snoc_self.mp hclean
      obtain ⟨rfl, _⟩ := hanswered.of_get_error hfaulted
      exact absurd rfl hnot

/-- A creation that fails leads to the second read, or to a failure if an error was put in its way. -/
theorem of_refused {e : AccessError}
    (hanswered : Answered s (.called (.create .configMaps (freshConfigMap c)) (.error e)) faulted s') :
    Pending c i
      (log ++ [(i, ⟨.called (.create .configMaps (freshConfigMap c)) (.error e), faulted⟩)]) s'
      (afterCreation c (.error e)) := by
  have hstore : faulted = false → e.isAlreadyExists = true ∧
      ∃ m, s'.object? configMapName = some m := by
    intro hfaulted
    rcases hanswered.of_create with ⟨_, hmarked, _⟩ | ⟨_, hcreate⟩
    · rw [hfaulted] at hmarked
      cases hmarked
    · rcases s.create_cases (freshConfigMap c) with ⟨hheld, h⟩ | ⟨_, h⟩
      · rw [h] at hcreate
        obtain ⟨he, rfl⟩ := Prod.mk.inj hcreate
        rw [Except.error.injEq] at he
        exact ⟨he ▸ rfl, hheld⟩
      · rw [h] at hcreate
        cases hcreate
  unfold afterCreation
  dsimp only
  split
  · refine .rereading ?_
    intro hclean
    exact (hstore (unhindered_snoc_self.mp hclean).2).2
  · rename_i hnot
    refine .failed ?_
    intro hclean
    exact absurd (hstore (unhindered_snoc_self.mp hclean).2).1 hnot

/-- The second read leads to the update, or to a failure if an error was put in some way. -/
theorem of_secondRead (hs : Kept s)
    (there : Unhindered i log → ∃ m, s.object? configMapName = some m)
    {reply : Except AccessError (Object .configMaps)}
    (hanswered : Answered s (.called (.get .configMaps configMapName) reply) faulted s') :
    Pending c i (log ++ [(i, ⟨.called (.get .configMaps configMapName) reply, faulted⟩)]) s'
      (afterSecondRead c reply) := by
  cases reply with
  | ok m => exact of_read hs hanswered
  | error e =>
    refine .failed ?_
    intro hclean
    obtain ⟨hbefore, hfaulted⟩ := unhindered_snoc_self.mp hclean
    obtain ⟨m, hm⟩ := there hbefore
    obtain ⟨_, hnone⟩ := hanswered.of_get_error hfaulted
    rw [hm] at hnone
    cases hnone

/-- A creation that gets through stores a new map with the selection. -/
theorem stored_of_creation {q : Object .configMaps}
    (hanswered : Answered s (.called (.create .configMaps (freshConfigMap c)) (.ok q)) faulted s') :
    s'.object? configMapName = some q ∧
      Selects c ((s.object? configMapName).getD (blankConfigMap c)) q := by
  rcases hanswered.of_create with ⟨⟨e, he⟩, _⟩ | ⟨_, hcreate⟩
  · cases he
  · have hwritten := s.written_create (freshConfigMap c)
    rcases s.create_cases (freshConfigMap c) with ⟨_, h⟩ | ⟨hfree, h⟩
    · rw [h] at hcreate
      cases hcreate
    · rw [hcreate] at hwritten h
      obtain ⟨hq, _⟩ := Prod.mk.inj h
      rw [Except.ok.injEq] at hq
      have hnone : s.object? configMapName = none := hfree
      rw [hnone, Option.getD_none, hq, ← selected_blank]
      exact ⟨hwritten.object?_self rfl, selects_stamped c _ s⟩

/-- The program itself acts: it stays without its selection stored, or it stores the selection and is
done. -/
theorem own (h : Pending c i log s t) (hs : Kept s) (hstep : Program.Step t action u)
    (hanswered : Answered s action faulted s') :
    (action.stored? = none ∧ Pending c i (log ++ [(i, ⟨action, faulted⟩)]) s' u) ∨
      u = .done (.ok ()) ∧ ∃ q, action.stored? = some q ∧ s'.object? configMapName = some q ∧
        Selects c ((s.object? configMapName).getD (blankConfigMap c)) q := by
  -- one case a stage; only the creation and the update can store anything
  cases h with
  | begun =>
    rw [storeSelection_eq] at hstep
    cases hstep with
    | call reply => exact Or.inl ⟨rfl, of_firstRead hs hanswered⟩
  | creating =>
    rw [createConfigMap_eq] at hstep
    cases hstep with
    | call reply =>
      cases reply with
      | error e => exact Or.inl ⟨rfl, of_refused hanswered⟩
      | ok q => exact Or.inr ⟨rfl, q, rfl, stored_of_creation hanswered⟩
  | rereading there =>
    rw [mergeConcurrent_eq] at hstep
    cases hstep with
    | call reply => exact Or.inl ⟨rfl, of_secondRead hs there hanswered⟩
  | @merging before since m read_faulted read own name followed =>
    rw [mergeSelection_eq] at hstep
    cases hstep with
    | call reply =>
      have hname : (selected c m).name = configMapName := name
      rcases followed.update hname rfl hanswered with
        ⟨⟨e, rfl⟩, _, hmoved⟩ | ⟨rfl, hheld, hcurrent, _⟩
      · refine Or.inl ⟨rfl, .failed ?_⟩
        intro hclean
        obtain ⟨_, hfaulted⟩ := unhindered_snoc_self.mp hclean
        exact ⟨log, _, [], rfl, before, m, read_faulted, since, _, _, read, own,
          hmoved hfaulted, rfl⟩
      · refine Or.inr ⟨rfl, _, rfl, hheld, ?_⟩
        rw [hcurrent, Option.getD_some]
        exact selects_stamped c m s
  | failed => exact absurd hstep Program.not_step_done

end Pending

/-! ## Histories -/

variable {start j j' : Joint (Except Failure Unit)}

/-- A program has stored its selection with the one write of it that got through: what was stored right
before, or a new map, has the selection now and is otherwise the same. -/
inductive Saves (c : Config) (i : Nat) (start : Joint (Except Failure Unit)) (log : Log)
    (j : Joint (Except Failure Unit)) : Prop where
  | once {earlier later : Log} {x : Entry} {before after : Joint (Except Failure Unit)}
      {q : Object .configMaps} (split : log = earlier ++ (i, x) :: later)
      (passes : Passes start earlier (i, x) later j before after)
      (written : x.action.stored? = some q)
      (held : after.store.object? configMapName = some q)
      (selects : Selects c ((before.store.object? configMapName).getD (blankConfigMap c)) q)
      (only : storedBy i log = [q]) : Saves c i start log j

/-- How the program stands in a history. -/
inductive SelectionStanding (c : Config) (i : Nat) (start : Joint (Except Failure Unit)) (log : Log)
    (j : Joint (Except Failure Unit)) : Prop where
  | pending {t : Program (Except Failure Unit)} (run : j.runs[i]? = some t)
      (stored : storedBy i log = []) (stage : Pending c i log j.store t) : SelectionStanding c i start log j
  | saved (run : j.runs[i]? = some (.done (.ok ()))) (saves : Saves c i start log j) :
      SelectionStanding c i start log j

theorem kept_of_history (h : History start log j) (hstart : Kept start.store) : Kept j.store := by
  induction h with
  | nil => exact hstart
  | snoc before step ih =>
    cases step with
    | act run step answered => exact (ih.answered answered).1

/-- What was saved stays so. -/
theorem Saves.snoc (h : Saves c i start log j) (hdone : j.runs[i]? = some (.done (.ok ())))
    {x : Nat × Entry} (hstep : j.Step x j') :
    Saves c i start (log ++ [x]) j' ∧ j'.runs[i]? = some (.done (.ok ())) := by
  cases hstep with
  | @act k t u action faulted store run step answered =>
    have hne : k ≠ i := by
      rintro rfl
      rw [hdone, Option.some.injEq] at run
      subst run
      exact Program.not_step_done step
    refine ⟨?_, (List.getElem?_set_ne hne).trans hdone⟩
    cases h with
    | @once earlier later y before after q split passes written held selects only =>
      have hsplit : log ++ [(k, ⟨action, faulted⟩)] =
          earlier ++ (i, y) :: (later ++ [(k, ⟨action, faulted⟩)]) := by
        simp [split]
      have hrest := passes.rest.snoc (.act run step answered)
      exact .once hsplit ⟨passes.lead, passes.step, hrest⟩ written held selects
        ((storedBy_snoc_ne hne).trans only)

/-- One more action of any program. -/
theorem SelectionStanding.snoc (h : SelectionStanding c i start log j) (hs : Kept j.store)
    (hhistory : History start log j) {x : Nat × Entry} (hstep : j.Step x j') :
    SelectionStanding c i start (log ++ [x]) j' := by
  cases h with
  | saved run saves =>
    obtain ⟨hsaves, hrun⟩ := saves.snoc run hstep
    exact .saved hrun hsaves
  | @pending t run stored stage =>
    cases hstep with
    | @act k t' u action faulted store run' step answered =>
      -- the program's own action, or that of another
      by_cases hk : k = i
      · subst hk
        rw [run, Option.some.injEq] at run'
        subst run'
        have hself : (j.runs.set k u)[k]? = some u :=
          List.getElem?_set_self (List.getElem?_eq_some_iff.mp run).1
        rcases stage.own hs step answered with
          ⟨hnone, hpending⟩ | ⟨rfl, q, hwritten, hheld, hselects⟩
        · refine .pending hself ?_ hpending
          rw [storedBy_append_cons, stored, hnone]
          rfl
        · refine .saved hself (.once rfl ⟨hhistory, .act run step answered, .nil⟩ hwritten hheld
            hselects ?_)
          rw [storedBy_append_cons, stored, hwritten]
          rfl
      · exact .pending ((List.getElem?_set_ne hk).trans run)
          ((storedBy_snoc_ne hk).trans stored) (stage.other hs hk answered)

theorem selectionStanding_of_history (hkept : Kept start.store)
    (hprogram : start.runs[i]? = some (storeSelection c)) (h : History start log j) :
    SelectionStanding c i start log j := by
  induction h with
  | nil => exact .pending hprogram rfl .begun
  | snoc before step ih => exact ih.snoc (kept_of_history before hkept) before step

/-! ## Main statement -/

/-- A program that is overtaken fails with its update, which leaves the store alone. -/
theorem Pending.overtaken {earlier : Log} {x : Entry} (h : Pending c i earlier s t)
    (hx : Overtaken i earlier x) (hstep : Program.Step t x.action u)
    (hanswered : Answered s x.action x.faulted s') :
    x.action.stored? = none ∧ s' = s ∧ ∃ e, u = .done (.error e) := by
  obtain ⟨before, m, read_faulted, since, o, reply, hearlier, hown, hmoved, haction⟩ := hx
  rw [haction] at hstep hanswered ⊢
  -- only a program that has read the map updates it, and it has read what was read last
  cases h with
  | begun =>
    rw [storeSelection_eq] at hstep
    cases hstep
  | creating =>
    rw [createConfigMap_eq] at hstep
    cases hstep
  | rereading =>
    rw [mergeConcurrent_eq] at hstep
    cases hstep
  | @merging before' since' m' faulted' read own name followed =>
    rw [mergeSelection_eq] at hstep
    cases hstep with
    | call reply =>
      have hname : (selected c m').name = configMapName := name
      have hsince : since = since' := Log.eq_of_last (hearlier.symm.trans read) hown own
      rcases followed.update hname rfl hanswered with ⟨⟨e, rfl⟩, hsame, _⟩ | ⟨_, _, _, hquiet⟩
      · exact ⟨rfl, hsame, _, rfl⟩
      · obtain ⟨y, hy, hstores⟩ := hmoved
        exact absurd hstores (hquiet y (hsince ▸ hy))
  | failed => exact absurd hstep Program.not_step_done

/-- What comes of storing a selection beside other programs. -/
structure StoresSelection (c : Config) (i : Nat) (start : Joint (Except Failure Unit)) (log : Log)
    (j : Joint (Except Failure Unit)) : Prop where
  /-- The program succeeds only by storing its selection, over what was stored right before. -/
  saves : j.runs[i]? = some (.done (.ok ())) → Saves c i start log j
  /-- If another program has stored the map since it was read last, the update leaves the store as it is
  and the program fails, having stored nothing. -/
  overtaken : ∀ earlier x later, log = earlier ++ (i, x) :: later → Overtaken i earlier x →
    (∃ e, j.runs[i]? = some (.done (.error e))) ∧ storedBy i log = [] ∧
      ∃ before after, Passes start earlier (i, x) later j before after ∧ after.store = before.store
  /-- Unless an error was put in its way it fails for no other reason. -/
  failed : ∀ e, j.runs[i]? = some (.done (.error e)) → Unhindered i log →
    ∃ earlier x later, log = earlier ++ (i, x) :: later ∧ Overtaken i earlier x

/-- However the actions of all programs come in order: a setup that stores its selection of dogus in a
config map overwrites nothing that another program has stored there. -/
theorem selection_beside_others {store : Store .configMaps} (hkept : Kept store)
    {programs : List (Program (Except Failure Unit))}
    (hprogram : programs[i]? = some (writeConfiguration c).perform)
    (h : History ⟨store, programs⟩ log j) : StoresSelection c i ⟨store, programs⟩ log j where
  saves := by
    intro hdone
    cases selectionStanding_of_history hkept hprogram h with
    | saved _ saves => exact saves
    | pending run _ stage =>
      rw [run, Option.some.injEq] at hdone
      subst hdone
      cases stage
  overtaken := by
    rintro earlier x later rfl hx
    obtain ⟨before, after, hpasses⟩ := h.passes
    have hstanding := selectionStanding_of_history hkept hprogram hpasses.lead
    have hstep := hpasses.step
    have hrest := hpasses.rest
    cases hstep with
    | @act _ t u action faulted store' run step answered =>
      cases hstanding with
      | saved run' _ =>
        rw [run', Option.some.injEq] at run
        subst run
        exact absurd step Program.not_step_done
      | pending run' stored stage =>
        rw [run, Option.some.injEq] at run'
        subst run'
        obtain ⟨hnone, hsame, e, rfl⟩ := stage.overtaken hx step answered
        -- it is finished then, so it has no entry after this one
        obtain ⟨hend, hnothing⟩ := hrest.of_done
          (List.getElem?_set_self (List.getElem?_eq_some_iff.mp run).1)
        refine ⟨⟨e, hend⟩, ?_, before, _, hpasses, hsame⟩
        have hlater : storedBy i later = [] := by
          rw [storedBy, hnothing]
          rfl
        rw [storedBy_append_cons, stored, hlater, hnone]
        rfl
  failed := by
    intro e hdone
    cases selectionStanding_of_history hkept hprogram h with
    | saved run _ =>
      rw [run] at hdone
      cases hdone
    | pending run _ stage =>
      rw [run, Option.some.injEq] at hdone
      subst hdone
      cases stage with
      | failed cause => exact cause

/-- A cluster whose config map has come with it, and that gives others their turn after every read of a
config map. -/
def sharedCluster : World Sandbox where
  backend :=
    { configMaps :=
        { store := Store.insert {}
            { metadata := { name := some configMapName, resourceVersion := some "1" }, body := {} }
          yields := true } }

/-- A client that puts the name of the host into the config map, whatever is there. -/
def hostWriter : Program (Except Failure Unit) := do
  let _ ← Program.ask (.update .configMaps
    { metadata := { name := some configMapName }, body := { data := some [("fqdn", "ces.local")] } })
  return .ok ()

/-- Two setups with this client between them. -/
def sharingPrograms (c : Config) : List (Program (Except Failure Unit)) :=
  [(writeConfiguration c).perform, hostWriter, (writeConfiguration c).perform]

theorem kept_sharedCluster : Kept sharedCluster.configMaps where
  filed := Store.filed_empty.insert _
  unrepeated := by
    intro m hm
    obtain rfl := Option.some.inj hm
    refine ⟨toString 1, rfl, ?_⟩
    intro n hn hsame
    have hone : 1 = n := eq_of_toString_eq hsame
    have hrevision : sharedCluster.configMaps.revision = 1 := rfl
    omega

/-- The first setup is overtaken by the client and fails; the second reads what the client has stored,
and keeps it. -/
theorem selection_beside_others_host :
    Kept sharedCluster.configMaps ∧
      (sharingPrograms casSetup.config)[0]? = some (writeConfiguration casSetup.config).perform ∧
      (sharingPrograms casSetup.config)[2]? = some (writeConfiguration casSetup.config).perform ∧
      ∃ log j, History ⟨sharedCluster.configMaps, sharingPrograms casSetup.config⟩ log j ∧
        (∃ e, j.runs = [.done (.error e), .done (.ok ()), .done (.ok ())]) ∧
        StoresSelection casSetup.config 0
          ⟨sharedCluster.configMaps, sharingPrograms casSetup.config⟩ log j ∧
        Saves casSetup.config 2
          ⟨sharedCluster.configMaps, sharingPrograms casSetup.config⟩ log j ∧
        (j.store.object? configMapName).map (fun m => m.body.data) =
          some (some [("default_dogu", "cas"), ("dogus", "official/cas\nofficial/ldap"),
            ("fqdn", "ces.local")]) := by
  have hresults : (Program.runAll 20 (sharingPrograms casSetup.config) sharedCluster).1 =
      some [.error ((AccessError.conflict configMapName
          "resource version 1 is stale, current is 2").toFailure.context
            ("updating config map " ++ configMapName)), .ok (), .ok ()] := by
    decide +kernel
  have hdata : ((Program.runAll 20 (sharingPrograms casSetup.config)
      sharedCluster).2.configMaps.object? configMapName).map (fun m => m.body.data) =
        some (some [("default_dogu", "cas"), ("dogus", "official/cas\nofficial/ldap"),
          ("fqdn", "ces.local")]) := by
    decide +kernel
  obtain ⟨log, j, hhistory, hstore, hruns⟩ :=
    exists_history_runAll 20 (sharingPrograms casSetup.config) sharedCluster
  have hends := hruns _ hresults
  have hsecond := selection_beside_others (i := 2) kept_sharedCluster rfl hhistory
  refine ⟨kept_sharedCluster, rfl, rfl, log, j, hhistory, ⟨_, hends⟩,
    selection_beside_others kept_sharedCluster rfl hhistory, hsecond.saves ?_, ?_⟩
  · rw [hends]
    rfl
  · rw [hstore, hdata]

end EcosystemSetup.Setup

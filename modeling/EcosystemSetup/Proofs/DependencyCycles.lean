import EcosystemSetup.Proofs.InstallOrder
import Mathlib.Data.Fintype.Card
import Mathlib.Data.Set.Finite.Basic
import Mathlib.Logic.Relation
import Mathlib.Order.WellFounded

/-!
# Cycles of dependencies

An order of installation is found exactly when the dependencies have no cycle, and otherwise the search
names the dogus from which some chain of dependencies leads into a cycle. Two facts carry this. Where
the simple names are distinct, whoever can be installed next is ready, so that the search ends only when
every dogu that is left needs another one that is left; and in a finite list such a chain of needs must
come back to a dogu that it has passed.
-/

namespace EcosystemSetup.Plan

open Dogu Relation

variable {dogus : List Descriptor}

/-! ## The graph of dependencies -/

/-- One dogu depends on another of the list: it names the other as a dogu dependency, required or
optional. -/
def DependsOn (dogus : List Descriptor) (d p : Descriptor) : Prop :=
  p ∈ dogus ∧ ∃ x ∈ d.dependencies ++ d.optionalDependencies, x.type = .dogu ∧ x.name = p.simpleName

/-- No dogu of the list depends on itself, be it through others. -/
def Acyclic (dogus : List Descriptor) : Prop :=
  ∀ d ∈ dogus, ¬ TransGen (DependsOn dogus) d d

/-- Some chain of dependencies, which may be empty, leads from a dogu to one on a cycle. -/
def LeadsIntoCycle (dogus : List Descriptor) (d : Descriptor) : Prop :=
  ∃ c, ReflTransGen (DependsOn dogus) d c ∧ TransGen (DependsOn dogus) c c

/-- In an order, every dogu stands after those of the list that it depends on. -/
def DependenciesFirst (dogus order : List Descriptor) : Prop :=
  ∀ before d after, order = before ++ d :: after → ∀ p, DependsOn dogus d p → p ∈ before

theorem dependsOn_iff {d p : Descriptor} :
    DependsOn dogus d p ↔ p ∈ dogus ∧ p.simpleName ∈ d.doguDependencies := by
  simp only [DependsOn, Descriptor.doguDependencies, List.mem_map, List.mem_filter,
    decide_eq_true_eq, and_assoc]

/-- Where the simple names are distinct, the needs of a dogu are the places of those it depends on. -/
theorem mem_needs_iff (hnames : (dogus.map Descriptor.simpleName).Nodup) {d : Descriptor} {k : Nat} :
    k ∈ needs dogus d ↔ ∃ p, dogus[k]? = some p ∧ DependsOn dogus d p := by
  rw [mem_needs]
  constructor
  · rintro ⟨simple, hdep, hk⟩
    obtain ⟨p, hp, hname⟩ := getElem?_of_lastIndex? hk
    exact ⟨p, hp, dependsOn_iff.mpr ⟨List.mem_of_getElem? hp, hname ▸ hdep⟩⟩
  · rintro ⟨p, hp, hdep⟩
    rw [dependsOn_iff] at hdep
    obtain ⟨j, hj, hpj⟩ := getElem?_lastIndex? hnames hdep.1
    -- a dogu stands at one place only
    have hdistinct : dogus.Nodup := List.Nodup.of_map _ hnames
    have hj' : j < dogus.length := (List.getElem?_eq_some_iff.mp hpj).1
    have hsame : j = k := (List.getElem?_inj hj' hdistinct).mp (by rw [hp, hpj])
    exact ⟨p.simpleName, hdep.2, hsame ▸ hj⟩

/-! ## Whoever can be installed is ready -/

theorem nodup_names (hnames : (dogus.map Descriptor.simpleName).Nodup) :
    (dogus.map Descriptor.name).Nodup := by
  have hmap : dogus.map Descriptor.simpleName = (dogus.map Descriptor.name).map simpleName := by
    simp [Descriptor.simpleName]
  rw [hmap] at hnames
  exact hnames.of_map _

theorem nameAt_of_getElem? {j : Nat} {d : Descriptor} (hd : dogus[j]? = some d) :
    nameAt dogus j = d.name := by
  simp [nameAt, hd]

/-- Different places have different names. -/
theorem nameAt_inj (hnames : (dogus.map Descriptor.name).Nodup) {i j : Nat} (hi : i < dogus.length)
    (hj : j < dogus.length) (h : nameAt dogus i = nameAt dogus j) : i = j := by
  have hget : (dogus.map Descriptor.name)[i]? = (dogus.map Descriptor.name)[j]? := by
    simpa [nameAt, List.getElem?_eq_getElem hi, List.getElem?_eq_getElem hj] using h
  exact (List.getElem?_inj (by simpa using hi) hnames).mp hget

/-- Whoever is ready stays ready while counts are lowered. -/
theorem ready_foldl_lower_of_ready (hnames : (dogus.map Descriptor.name).Nodup) {js : List Nat}
    {s : Stage} {i : Nat} (hjs : ∀ j ∈ js, j < dogus.length) (hi : i < dogus.length)
    (h : (nameAt dogus i, i) ∈ s.ready) :
    (nameAt dogus i, i) ∈ (js.foldl (Stage.lower dogus) s).ready := by
  induction js generalizing s with
  | nil => exact h
  | cons j js ih =>
    refine ih (fun k hk => hjs k (List.mem_cons_of_mem _ hk)) ?_
    unfold Stage.lower
    dsimp only
    split
    · -- only an entry of the same name is replaced, and that one is the same
      by_cases hj : i = j
      · exact hj ▸ Assoc.mem_set_self _ _ _
      · refine Assoc.mem_set_of_ne h ?_
        intro hname
        exact hj (nameAt_inj hnames hi (hjs j List.mem_cons_self) hname)
    · exact h

/-- Whoever loses its last need while counts are lowered becomes ready. -/
theorem ready_foldl_lower_of_zero (hnames : (dogus.map Descriptor.name).Nodup) {js : List Nat}
    {s : Stage} {i : Nat} (hnodup : js.Nodup) (hjs : ∀ j ∈ js, j < dogus.length) (hi : i ∈ js)
    (hzero : s.pending[i]?.getD 0 - 1 = 0) :
    (nameAt dogus i, i) ∈ (js.foldl (Stage.lower dogus) s).ready := by
  induction js generalizing s with
  | nil => simp at hi
  | cons j js ih =>
    rw [List.nodup_cons] at hnodup
    have hlater : ∀ k ∈ js, k < dogus.length := fun k hk => hjs k (List.mem_cons_of_mem _ hk)
    rw [List.foldl_cons]
    rcases List.mem_cons.mp hi with rfl | hi
    · refine ready_foldl_lower_of_ready hnames hlater (hjs i List.mem_cons_self) ?_
      unfold Stage.lower
      dsimp only
      rw [if_pos hzero]
      exact Assoc.mem_set_self _ _ _
    · refine ih hnodup.2 hlater hi ?_
      have hne : j ≠ i := by
        rintro rfl
        exact hnodup.1 hi
      simpa [Stage.lower, List.getElem?_set_ne hne] using hzero

/-- A stage that misses nobody: whoever needs nothing more and is not installed is ready. -/
def Stage.Complete (dogus : List Descriptor) (s : Stage) : Prop :=
  ∀ (j : Nat) (d : Descriptor), dogus[j]? = some d → unmet dogus s.installed d = 0 →
    j ∉ s.installed → (nameAt dogus j, j) ∈ s.ready

theorem complete_initial (hnames : (dogus.map Descriptor.name).Nodup) :
    (Stage.initial dogus).Complete dogus := by
  intro j d hd hzero _
  have hj : j < dogus.length := (List.getElem?_eq_some_iff.mp hd).1
  -- nothing is installed yet, so it has no needs at all
  have hlen : (needs dogus d).length = 0 := by
    rw [← unmet_nil]
    exact hzero
  refine Assoc.mem_ofList ?_ ?_
  · simp only [List.mem_map, List.mem_filter, List.mem_zipIdx_iff_getElem?]
    exact ⟨j, ⟨(0, j), ⟨by simp [hd, hlen], by simp⟩, rfl⟩, rfl⟩
  · intro q hq hname
    simp only [List.mem_map, List.mem_filter, List.mem_zipIdx_iff_getElem?] at hq
    obtain ⟨i, ⟨p, ⟨hp, _⟩, rfl⟩, rfl⟩ := hq
    have hi : p.2 < dogus.length := by simpa using (List.getElem?_eq_some_iff.mp hp).1
    rw [nameAt_inj hnames hi hj hname]

/-- A step misses nobody: whoever can be installed after it could be before, or has lost its last need
by it. -/
theorem Stage.Complete.next (hnames : (dogus.map Descriptor.name).Nodup) {s t : Stage}
    (hcomplete : s.Complete dogus) (hs : s.Sound dogus) (h : s.next dogus = some t) :
    t.Complete dogus := by
  obtain ⟨name, i, rest, hready, rfl⟩ := Stage.eq_of_next h
  intro j e he hzero hj
  have hlt : j < dogus.length := (List.getElem?_eq_some_iff.mp he).1
  have hdependents : ∀ k ∈ dependents dogus i, k < dogus.length := by
    intro k hk
    obtain ⟨d, hd, _⟩ := mem_dependents.mp hk
    exact (List.getElem?_eq_some_iff.mp hd).1
  rw [installed_foldl_lower] at hzero hj
  rw [List.mem_cons, not_or] at hj
  have hi : i ∉ s.installed := (hs.ready (by rw [hready]; exact List.mem_cons_self)).2.1
  by_cases hneed : i ∈ needs dogus e
  · rw [unmet_cons_of_mem hi hneed] at hzero
    refine ready_foldl_lower_of_zero hnames (nodup_dependents dogus i) hdependents
      (mem_dependents.mpr ⟨e, he, hneed⟩) ?_
    simpa [hs.counts he] using hzero
  · rw [unmet_cons_of_not_mem hneed] at hzero
    refine ready_foldl_lower_of_ready hnames hdependents hlt ?_
    have hbefore : (nameAt dogus j, j) ∈ s.ready := hcomplete j e he hzero hj.2
    rw [hready] at hbefore
    rcases List.mem_cons.mp hbefore with hfirst | hrest
    · exact absurd (congrArg Prod.snd hfirst) hj.1
    · exact hrest

/-! ## The last stage -/

/-- The search goes on until nobody is ready or its steps are used up. -/
theorem run_ready_or_length (fuel : Nat) (s : Stage) :
    (Stage.run dogus fuel s).ready = [] ∨
      (Stage.run dogus fuel s).installed.length = s.installed.length + fuel := by
  induction fuel generalizing s with
  | zero => exact Or.inr rfl
  | succ fuel ih =>
    rw [Stage.run]
    split
    · rename_i t ht
      have hlen : t.installed.length = s.installed.length + 1 := by
        obtain ⟨_, _, _, _, rfl⟩ := Stage.eq_of_next ht
        simp
      rcases ih t with hready | hinstalled
      · exact Or.inl hready
      · right
        omega
    · rename_i hnone
      left
      unfold Stage.next at hnone
      split at hnone
      · assumption
      · simp at hnone

theorem InOrder.mem_of_length {installed : List Nat} (h : InOrder dogus installed)
    (hlen : installed.length = dogus.length) {j : Nat} (hj : j < dogus.length) : j ∈ installed :=
  (h.perm_range hlen).mem_iff.mpr (List.mem_range.mpr hj)

/-- Nobody is ready when everybody is installed. -/
theorem Stage.Sound.ready_of_length {s : Stage} (hs : s.Sound dogus)
    (hall : s.installed.length = dogus.length) : s.ready = [] := by
  cases hready : s.ready with
  | nil => rfl
  | cons p rest =>
    -- whoever is ready is not installed, but everybody is
    have hmem : (p.1, p.2) ∈ s.ready := by simp [hready]
    obtain ⟨_, hout, d, hd, _⟩ := hs.ready hmem
    exact absurd (hs.order.mem_of_length hall (List.getElem?_eq_some_iff.mp hd).1) hout

/-- Nobody is ready at the end: there are as many steps as places. -/
theorem ready_lastStage (dogus : List Descriptor) : (lastStage dogus).ready = [] := by
  rcases run_ready_or_length dogus.length (Stage.initial dogus) with hready | hlen
  · exact hready
  · apply (sound_lastStage dogus).ready_of_length
    simpa [lastStage, Stage.initial] using hlen

/-- Where the names are distinct, the search misses nobody. -/
theorem complete_lastStage (hnames : (dogus.map Descriptor.name).Nodup) :
    (lastStage dogus).Complete dogus := by
  have hrun : ∀ (fuel : Nat) (s : Stage), s.Sound dogus → s.Complete dogus →
      (Stage.run dogus fuel s).Complete dogus := by
    intro fuel
    induction fuel with
    | zero => exact fun s _ hc => hc
    | succ fuel ih =>
      intro s hs hc
      rw [Stage.run]
      split
      · rename_i t ht
        exact ih t (hs.next ht) (hc.next hnames hs ht)
      · exact hc
  exact hrun _ _ (sound_initial dogus) (complete_initial hnames)

/-- Whoever needs nothing more at the end is installed, where the names are distinct. -/
theorem unmet_lastStage_of_names (hnames : (dogus.map Descriptor.name).Nodup) {j : Nat}
    {d : Descriptor} (hd : dogus[j]? = some d) :
    unmet dogus (lastStage dogus).installed d = 0 ↔ j ∈ (lastStage dogus).installed := by
  constructor
  · intro hzero
    by_contra hj
    have hready := complete_lastStage hnames j d hd hzero hj
    rw [ready_lastStage] at hready
    simp at hready
  · intro hj
    exact unmet_eq_zero.mpr ((sound_lastStage dogus).order.needs_mem hj hd)

/-- Whoever is left at the end has a need that is left. -/
theorem unmet_lastStage (hnames : (dogus.map Descriptor.simpleName).Nodup) {j : Nat} {d : Descriptor}
    (hd : dogus[j]? = some d) :
    unmet dogus (lastStage dogus).installed d = 0 ↔ j ∈ (lastStage dogus).installed :=
  unmet_lastStage_of_names (nodup_names hnames) hd

/-! ## Chains and cycles -/

/-- In a finite list in which everyone is related to someone, a chain leads from each into a cycle. -/
theorem exists_cycle {α : Type} {r : α → α → Prop} {l : List α} (hnext : ∀ a ∈ l, ∃ b ∈ l, r a b)
    {a : α} (ha : a ∈ l) : ∃ c, ReflTransGen r a c ∧ TransGen r c c := by
  by_contra hnone
  -- the elements that a chain from `a` reaches, each before those it is reached from
  let Reached := {b : α // b ∈ l ∧ ReflTransGen r a b}
  let after : Reached → Reached → Prop := fun b c => TransGen r c.1 b.1
  have hfinite : Finite Reached :=
    Set.Finite.subset l.finite_toSet fun b hb => hb.1
  have htrans : IsTrans Reached after := ⟨fun _ _ _ hab hbc => hbc.trans hab⟩
  have hirrefl : Std.Irrefl after := ⟨fun b hb => hnone ⟨b.1, b.2.2, hb⟩⟩
  have hwf : WellFounded after := Finite.wellFounded_of_trans_of_irrefl after
  obtain ⟨b, -, hlast⟩ := hwf.has_min Set.univ ⟨⟨a, ha, .refl⟩, trivial⟩
  -- the last one of them is related to another one
  obtain ⟨c, hc, hbc⟩ := hnext b.1 b.2.1
  exact hlast ⟨c, hc, b.2.2.tail hbc⟩ trivial (.single hbc)

/-- Whoever leads into a cycle depends on someone who does. -/
theorem LeadsIntoCycle.next {d : Descriptor} (h : LeadsIntoCycle dogus d) :
    ∃ p, DependsOn dogus d p ∧ LeadsIntoCycle dogus p := by
  obtain ⟨c, hchain, hcycle⟩ := h
  rcases hchain.cases_head with rfl | ⟨p, hdep, hrest⟩
  · -- on the cycle itself: one step along it
    obtain ⟨p, hdep, hback⟩ := TransGen.head'_iff.mp hcycle
    exact ⟨p, hdep, d, hback, hcycle⟩
  · exact ⟨p, hdep, c, hrest, hcycle⟩

/-- Whoever stands in an order does not lead into a cycle. -/
theorem InOrder.not_leadsIntoCycle (hnames : (dogus.map Descriptor.simpleName).Nodup)
    {installed : List Nat} (h : InOrder dogus installed) {i : Nat} {d : Descriptor}
    (hi : i ∈ installed) (hd : dogus[i]? = some d) : ¬ LeadsIntoCycle dogus d := by
  -- along the order: those a dogu depends on stand before it
  induction h generalizing i d with
  | nil => simp at hi
  | @cons j e installed here _ met _ ih =>
    rcases List.mem_cons.mp hi with rfl | hi
    · intro hleads
      obtain ⟨p, hdep, hleads⟩ := hleads.next
      obtain ⟨k, hk⟩ := List.mem_iff_getElem?.mp hdep.1
      have hneed : k ∈ needs dogus d := (mem_needs_iff hnames).mpr ⟨p, hk, hdep⟩
      have hsame : e = d := by simpa [here] using hd
      exact ih (met k (hsame ▸ hneed)) hk hleads
    · exact ih hi hd

/-- Whoever is left at the end leads into a cycle. -/
theorem leadsIntoCycle_of_left (hnames : (dogus.map Descriptor.simpleName).Nodup) {j : Nat}
    {d : Descriptor} (hd : dogus[j]? = some d) (hj : j ∉ (lastStage dogus).installed) :
    LeadsIntoCycle dogus d := by
  -- the dogus that are left; each of them depends on one of them
  let left := dogus.filter fun e => unmet dogus (lastStage dogus).installed e ≠ 0
  have hleft : ∀ {k : Nat} {e : Descriptor}, dogus[k]? = some e →
      k ∉ (lastStage dogus).installed → e ∈ left := by
    intro k e he hk
    have hunmet := mt (unmet_lastStage hnames he).mp hk
    simpa [left] using ⟨List.mem_of_getElem? he, hunmet⟩
  have hnext : ∀ e ∈ left, ∃ p ∈ left, DependsOn dogus e p := by
    intro e he
    simp only [left, List.mem_filter, decide_eq_true_eq] at he
    have hneed := he.2
    rw [ne_eq, unmet_eq_zero, not_forall] at hneed
    obtain ⟨k, hneed⟩ := hneed
    rw [not_forall] at hneed
    obtain ⟨hneed, hk⟩ := hneed
    obtain ⟨p, hp, hdep⟩ := (mem_needs_iff hnames).mp hneed
    exact ⟨p, hleft hp hk, hdep⟩
  exact exists_cycle hnext (hleft hd hj)

/-- At the end those are installed that do not lead into a cycle. -/
theorem mem_installed_lastStage (hnames : (dogus.map Descriptor.simpleName).Nodup) {j : Nat}
    {d : Descriptor} (hd : dogus[j]? = some d) :
    j ∈ (lastStage dogus).installed ↔ ¬ LeadsIntoCycle dogus d := by
  constructor
  · intro hj
    exact (sound_lastStage dogus).order.not_leadsIntoCycle hnames hj hd
  · intro hleads
    by_contra hj
    exact hleads (leadsIntoCycle_of_left hnames hd hj)

theorem acyclic_iff : Acyclic dogus ↔ ∀ d ∈ dogus, ¬ LeadsIntoCycle dogus d := by
  constructor
  · rintro hacyclic d - ⟨c, -, hcycle⟩
    -- whoever stands on a cycle is depended on, so it is listed
    obtain ⟨p, -, hdep⟩ := TransGen.tail'_iff.mp hcycle
    exact hacyclic c hdep.1 hcycle
  · intro h d hd hcycle
    exact h d hd ⟨d, .refl, hcycle⟩

/-! ## Stuck dogus -/

/-- Whoever is stuck at the end leads into a cycle, and nobody else. -/
theorem mem_stuck (hnames : (dogus.map Descriptor.simpleName).Nodup) {name : String} :
    name ∈ stuck dogus (lastStage dogus) ↔
      ∃ d ∈ dogus, d.name = name ∧ LeadsIntoCycle dogus d := by
  have hs : (lastStage dogus).Sound dogus := sound_lastStage dogus
  -- a count above zero stands at the place of a dogu that is left
  have hleads : ∀ {j : Nat} {d : Descriptor}, dogus[j]? = some d →
      (0 < unmet dogus (lastStage dogus).installed d ↔ LeadsIntoCycle dogus d) := by
    intro j d hd
    rw [Nat.pos_iff_ne_zero, ne_eq, unmet_lastStage hnames hd, mem_installed_lastStage hnames hd,
      not_not]
  simp only [stuck, List.mem_mergeSort, List.mem_map, List.mem_filter,
    List.mem_zipIdx_iff_getElem?, decide_eq_true_eq]
  constructor
  · rintro ⟨p, ⟨hp, hpos⟩, rfl⟩
    have hlt : p.2 < dogus.length := by
      rw [← hs.size]
      exact (List.getElem?_eq_some_iff.mp hp).1
    have hd : dogus[p.2]? = some dogus[p.2] := List.getElem?_eq_getElem hlt
    have hcount : p.1 = unmet dogus (lastStage dogus).installed dogus[p.2] := by
      simpa [hp] using hs.counts hd
    exact ⟨_, List.getElem_mem hlt, (nameAt_of_getElem? hd).symm, (hleads hd).mp (hcount ▸ hpos)⟩
  · rintro ⟨d, hd, rfl, hcycle⟩
    obtain ⟨j, hj⟩ := List.mem_iff_getElem?.mp hd
    exact ⟨(_, j), ⟨hs.counts hj, (hleads hj).mpr hcycle⟩, nameAt_of_getElem? hj⟩

/-- The stuck dogus are named in ascending order, each once. -/
theorem sorted_stuck (hnames : (dogus.map Descriptor.simpleName).Nodup) :
    (stuck dogus (lastStage dogus)).Pairwise (· < ·) := by
  let s := lastStage dogus
  have hs : s.Sound dogus := sound_lastStage dogus
  have hascending : (stuck dogus s).Pairwise (· ≤ ·) := by
    have hsort := @List.pairwise_mergeSort _ (fun a b : String => decide (a ≤ b))
      (fun a b c hab hbc => by simpa using le_trans (by simpa using hab) (by simpa using hbc))
      (fun a b => by simpa using le_total a b)
      ((s.pending.zipIdx.filter fun p => 0 < p.1).map fun p => nameAt dogus p.2)
    exact hsort.imp fun h => by simpa using h
  -- different places have different names, so none occurs twice
  have hplaces : (s.pending.zipIdx.filter fun p => 0 < p.1).Nodup := by
    have hnodup : (s.pending.zipIdx.map Prod.snd).Nodup := by
      rw [List.zipIdx_map_snd]
      exact List.nodup_range'
    exact (hnodup.of_map _).filter _
  have honce : (stuck dogus s).Nodup := by
    refine (List.mergeSort_perm _ _).nodup_iff.mpr ?_
    refine hplaces.map_on ?_
    intro p hp q hq hname
    simp only [List.mem_filter, List.mem_zipIdx_iff_getElem?] at hp hq
    have hlt : ∀ {r : Nat × Nat}, s.pending[r.2]? = some r.1 → r.2 < dogus.length := by
      intro r hr
      rw [← hs.size]
      exact (List.getElem?_eq_some_iff.mp hr).1
    have hplace : p.2 = q.2 := nameAt_inj (nodup_names hnames) (hlt hp.1) (hlt hq.1) hname
    have hcount : p.1 = q.1 := by
      have hpq : some p.1 = some q.1 := by rw [← hp.1, ← hq.1, hplace]
      simpa using hpq
    exact Prod.ext hcount hplace
  exact hascending.imp₂ (fun a b hle hne => lt_of_le_of_ne hle hne) honce

/-! ## When there is an order -/

/-- An order is found exactly if the search installs every dogu. -/
theorem exists_order_iff : (∃ sorted, sortByDependencies dogus = .ok sorted) ↔
    (lastStage dogus).installed.length = dogus.length := by
  unfold sortByDependencies
  dsimp only
  split
  · rename_i hlen
    exact ⟨fun _ => hlen, fun _ => ⟨_, rfl⟩⟩
  · rename_i hlen
    refine ⟨?_, fun h => absurd h hlen⟩
    rintro ⟨sorted, h⟩
    simp at h

theorem stuck_of_sortByDependencies {names : List String}
    (h : sortByDependencies dogus = .error names) : names = stuck dogus (lastStage dogus) := by
  unfold sortByDependencies at h
  dsimp only at h
  split at h
  · simp at h
  · rw [Except.error.injEq] at h
    exact h.symm

/-- The search installs every dogu exactly if the dependencies have no cycle. -/
theorem length_installed_iff (hnames : (dogus.map Descriptor.simpleName).Nodup) :
    (lastStage dogus).installed.length = dogus.length ↔ Acyclic dogus := by
  have horder : InOrder dogus (lastStage dogus).installed := (sound_lastStage dogus).order
  rw [acyclic_iff]
  constructor
  · intro hlen d hd
    obtain ⟨j, hj⟩ := List.mem_iff_getElem?.mp hd
    have hlt : j < dogus.length := (List.getElem?_eq_some_iff.mp hj).1
    exact (mem_installed_lastStage hnames hj).mp (horder.mem_of_length hlen hlt)
  · intro hleads
    have hall : List.range dogus.length ⊆ (lastStage dogus).installed := by
      intro j hj
      have hlt : j < dogus.length := List.mem_range.mp hj
      have hd : dogus[j]? = some dogus[j] := List.getElem?_eq_getElem hlt
      exact (mem_installed_lastStage hnames hd).mpr (hleads _ (List.getElem_mem _))
    have hle : dogus.length ≤ (lastStage dogus).installed.length := by
      simpa using (List.nodup_range.subperm hall).length_le
    have hge : (lastStage dogus).installed.length ≤ dogus.length := horder.length_le
    omega

theorem dependenciesFirst_of_sort (hnames : (dogus.map Descriptor.simpleName).Nodup)
    {sorted : List Descriptor} (h : sortByDependencies dogus = .ok sorted) :
    DependenciesFirst dogus sorted := by
  intro before d after hsplit p hdep
  rw [dependsOn_iff] at hdep
  exact dependency_before hnames h hsplit hdep.1 hdep.2

/-- Where the simple names are distinct, an order is found exactly if the dependencies have no cycle.
It holds every dogu once, each after those it depends on; and if there is none, the names of those that
lead into a cycle are given, in ascending order. -/
theorem order_or_cycle (hnames : (dogus.map Descriptor.simpleName).Nodup) :
    ((∃ sorted, sortByDependencies dogus = .ok sorted) ↔ Acyclic dogus) ∧
      (∀ sorted, sortByDependencies dogus = .ok sorted →
        sorted.Perm dogus ∧ DependenciesFirst dogus sorted) ∧
      ∀ names, sortByDependencies dogus = .error names →
        names.Pairwise (· < ·) ∧
          ∀ name, name ∈ names ↔ ∃ d ∈ dogus, d.name = name ∧ LeadsIntoCycle dogus d := by
  refine ⟨?_, ?_, ?_⟩
  · rw [exists_order_iff, length_installed_iff hnames]
  · intro sorted h
    exact ⟨perm_of_sortByDependencies h, dependenciesFirst_of_sort hnames h⟩
  · intro names h
    rw [stuck_of_sortByDependencies h]
    exact ⟨sorted_stuck hnames, fun name => mem_stuck hnames⟩

/-- Two dogus that depend on each other, one that hangs behind them, one that depends on itself and one
whose only dependency is not listed. -/
def entangled : List Descriptor :=
  [{ name := "official/e", version := "1", dependencies := [{ name := "e" }] },
    { name := "official/c", version := "1", optionalDependencies := [{ name := "a" }] },
    { name := "official/d", version := "1", dependencies := [{ name := "x" }] },
    { name := "official/b", version := "1", dependencies := [{ name := "a" }] },
    { name := "official/a", version := "1", dependencies := [{ name := "b" }, { name := "d" }]
      optionalDependencies := [{ name := "b" }] }]

/-- All of them but the one that depends on nothing listed are stuck. -/
theorem order_or_cycle_entangled :
    (entangled.map Descriptor.simpleName).Nodup ∧
      sortByDependencies entangled =
        .error ["official/a", "official/b", "official/c", "official/e"] ∧
      ¬ Acyclic entangled ∧
      ∀ name, name ∈ ["official/a", "official/b", "official/c", "official/e"] ↔
        ∃ d ∈ entangled, d.name = name ∧ LeadsIntoCycle entangled d := by
  have hnames : (entangled.map Descriptor.simpleName).Nodup := by decide +kernel
  have hleft : ((lastStage entangled).pending.zipIdx.filter fun p => 0 < p.1).map
      (fun p => nameAt entangled p.2) =
        ["official/e", "official/c", "official/b", "official/a"] := by decide +kernel
  have hperm : (stuck entangled (lastStage entangled)).Perm
      ["official/a", "official/b", "official/c", "official/e"] := by
    refine (List.mergeSort_perm _ _).trans ?_
    rw [hleft]
    decide
  -- there is one ascending list of these names
  have hstuck : stuck entangled (lastStage entangled) =
      ["official/a", "official/b", "official/c", "official/e"] :=
    hperm.eq_of_pairwise (fun _ _ _ _ hab hba => absurd hba (lt_asymm hab)) (sorted_stuck hnames)
      (by decide)
  have hlen : (lastStage entangled).installed.length ≠ entangled.length := by decide +kernel
  have herror : sortByDependencies entangled =
      .error ["official/a", "official/b", "official/c", "official/e"] := by
    rw [sortByDependencies, if_neg hlen, hstuck]
  obtain ⟨hacyclic, -, hnamed⟩ := order_or_cycle hnames
  refine ⟨hnames, herror, ?_, (hnamed _ herror).2⟩
  rw [← hacyclic, herror]
  rintro ⟨sorted, h⟩
  cases h

end EcosystemSetup.Plan

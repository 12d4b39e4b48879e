import EcosystemSetup.Plan.Order
import EcosystemSetup.Proofs.KeyOrder
import EcosystemSetup.Proofs.Lists
import Mathlib.Data.List.Nodup
import Mathlib.Data.List.Perm.Subperm

/-!
# The order of installation is a topological order

The search counts, for every place, the needs that are not installed yet. Its stages are sound: the
counts are right, whoever is ready needs nothing more and is not installed, and what is installed
stands after all its needs. From that one step keeps, the whole search follows: an order that is found
is a permutation of the descriptors, and every descriptor stands after those it depends on.

Places are indices into the list of descriptors; the list of installed places has the last one first.
-/

namespace EcosystemSetup.Plan

open Dogu

variable {dogus : List Descriptor}

/-! ## Needs and dependents -/

/-- The place found for a simple name holds a descriptor of that name. -/
theorem getElem?_of_lastIndex? {simple : String} {k : Nat} (h : lastIndex? dogus simple = some k) :
    ∃ d, dogus[k]? = some d ∧ d.simpleName = simple := by
  unfold lastIndex? at h
  rw [Option.map_eq_some_iff] at h
  obtain ⟨p, hfound, rfl⟩ := h
  have hmem : p ∈ dogus.zipIdx := by
    simpa using List.mem_of_find?_eq_some hfound
  have hname := List.find?_some hfound
  exact ⟨p.1, List.mem_zipIdx_iff_getElem?.mp hmem, by simpa using hname⟩

/-- A simple name that some descriptor has is found at some place. -/
theorem lastIndex?_isSome {simple : String} {d : Descriptor} (hd : d ∈ dogus)
    (hname : d.simpleName = simple) : ∃ k, lastIndex? dogus simple = some k := by
  obtain ⟨k, hk⟩ := List.mem_iff_getElem?.mp hd
  unfold lastIndex?
  cases hfound : dogus.zipIdx.reverse.find? fun p => p.1.simpleName = simple with
  | some p => exact ⟨p.2, rfl⟩
  | none =>
    -- the search looks at every place, that of the descriptor too
    rw [List.find?_eq_none] at hfound
    have hmem : (d, k) ∈ dogus.zipIdx.reverse := by
      simpa using List.mem_zipIdx_iff_getElem?.mpr hk
    exact absurd (by simpa using hname) (hfound _ hmem)

theorem nodup_needs (dogus : List Descriptor) (d : Descriptor) : (needs dogus d).Nodup :=
  Lists.nodup_eraseDups _

theorem mem_needs {d : Descriptor} {k : Nat} :
    k ∈ needs dogus d ↔ ∃ simple ∈ d.doguDependencies, lastIndex? dogus simple = some k := by
  simp [needs, List.mem_eraseDups, List.mem_filterMap]

theorem mem_dependents {i j : Nat} :
    j ∈ dependents dogus i ↔ ∃ d, dogus[j]? = some d ∧ i ∈ needs dogus d := by
  unfold dependents
  rw [List.mem_map]
  constructor
  · rintro ⟨p, hp, rfl⟩
    rw [List.mem_filter] at hp
    exact ⟨p.1, List.mem_zipIdx_iff_getElem?.mp hp.1, by simpa using hp.2⟩
  · rintro ⟨d, hd, hi⟩
    refine ⟨(d, j), ?_, rfl⟩
    rw [List.mem_filter]
    exact ⟨List.mem_zipIdx_iff_getElem?.mpr hd, by simpa using hi⟩

theorem nodup_dependents (dogus : List Descriptor) (i : Nat) : (dependents dogus i).Nodup := by
  unfold dependents
  have hplaces : (dogus.zipIdx.map Prod.snd).Nodup := by
    rw [List.zipIdx_map_snd]
    exact List.nodup_range'
  exact hplaces.sublist (List.filter_sublist.map Prod.snd)

/-! ## Counting -/

/-- How many needs of a descriptor are not installed yet. -/
def unmet (dogus : List Descriptor) (installed : List Nat) (d : Descriptor) : Nat :=
  ((needs dogus d).filter (· ∉ installed)).length

theorem unmet_nil (d : Descriptor) : unmet dogus [] d = (needs dogus d).length := by
  simp [unmet]

theorem unmet_eq_zero {installed : List Nat} {d : Descriptor} :
    unmet dogus installed d = 0 ↔ ∀ k ∈ needs dogus d, k ∈ installed := by
  simp [unmet]

/-- Installing a place lowers the counts of those that need it. -/
theorem unmet_cons_of_mem {installed : List Nat} {d : Descriptor} {i : Nat} (hi : i ∉ installed)
    (hneed : i ∈ needs dogus d) :
    unmet dogus (i :: installed) d = unmet dogus installed d - 1 := by
  unfold unmet
  have hnodup : ((needs dogus d).filter (· ∉ installed)).Nodup := (nodup_needs dogus d).filter _
  -- what is still unmet loses exactly this place
  have herase : (needs dogus d).filter (· ∉ i :: installed) =
      ((needs dogus d).filter (· ∉ installed)).erase i := by
    rw [hnodup.erase_eq_filter, List.filter_filter]
    refine List.filter_congr ?_
    intro k _
    by_cases hk : k = i <;> simp [hk]
  rw [herase, List.length_erase_of_mem]
  rw [List.mem_filter]
  exact ⟨hneed, by simpa using hi⟩

/-- Installing a place leaves the counts of all others. -/
theorem unmet_cons_of_not_mem {installed : List Nat} {d : Descriptor} {i : Nat}
    (hneed : i ∉ needs dogus d) : unmet dogus (i :: installed) d = unmet dogus installed d := by
  unfold unmet
  congr 1
  refine List.filter_congr ?_
  intro k hk
  have hne : k ≠ i := by
    rintro rfl
    exact hneed hk
  simp [hne]

/-! ## Orders -/

/-- Places in an order of installation, the last one first: each occurs once and stands after all its
needs. -/
inductive InOrder (dogus : List Descriptor) : List Nat → Prop where
  | nil : InOrder dogus []
  | cons {i : Nat} {d : Descriptor} {installed : List Nat} (here : dogus[i]? = some d)
      (first : i ∉ installed) (met : ∀ k ∈ needs dogus d, k ∈ installed)
      (before : InOrder dogus installed) : InOrder dogus (i :: installed)

namespace InOrder

theorem nodup {installed : List Nat} (h : InOrder dogus installed) : installed.Nodup := by
  induction h with
  | nil => exact List.nodup_nil
  | cons _ first _ _ ih => exact List.nodup_cons.mpr ⟨first, ih⟩

theorem lt_length {installed : List Nat} (h : InOrder dogus installed) :
    ∀ i ∈ installed, i < dogus.length := by
  induction h with
  | nil => simp
  | cons here _ _ _ ih =>
    intro j hj
    rcases List.mem_cons.mp hj with rfl | hj
    · exact (List.getElem?_eq_some_iff.mp here).1
    · exact ih j hj

theorem subset_range {installed : List Nat} (h : InOrder dogus installed) :
    installed ⊆ List.range dogus.length := by
  intro i hi
  exact List.mem_range.mpr (h.lt_length i hi)

theorem length_le {installed : List Nat} (h : InOrder dogus installed) :
    installed.length ≤ dogus.length := by
  have hsub := (h.nodup.subperm h.subset_range).length_le
  simpa using hsub

/-- Distinct places, as many as there are: all of them. -/
theorem perm_range {installed : List Nat} (h : InOrder dogus installed)
    (hlen : installed.length = dogus.length) : installed.Perm (List.range dogus.length) :=
  (h.nodup.subperm h.subset_range).perm_of_length_le (by simp [hlen])

/-- The needs of a place stand before it. -/
theorem needs_before {installed later earlier : List Nat} {i : Nat} {d : Descriptor}
    (h : InOrder dogus installed) (hsplit : installed = later ++ i :: earlier)
    (hd : dogus[i]? = some d) : ∀ k ∈ needs dogus d, k ∈ earlier := by
  -- along the order, as every place was once the last one
  induction h generalizing later with
  | nil => simp at hsplit
  | @cons j d' installed here _ met _ ih =>
    cases later with
    | nil =>
      rw [List.nil_append, List.cons.injEq] at hsplit
      obtain ⟨rfl, rfl⟩ := hsplit
      have hsame : d' = d := by simpa [here] using hd
      exact hsame ▸ met
    | cons l later =>
      rw [List.cons_append, List.cons.injEq] at hsplit
      exact ih hsplit.2

/-- The needs of an installed place are installed. -/
theorem needs_mem {installed : List Nat} {i : Nat} {d : Descriptor} (h : InOrder dogus installed)
    (hi : i ∈ installed) (hd : dogus[i]? = some d) : ∀ k ∈ needs dogus d, k ∈ installed := by
  intro k hk
  obtain ⟨later, earlier, hsplit⟩ := List.append_of_mem hi
  have hearlier : k ∈ earlier := h.needs_before hsplit hd k hk
  rw [hsplit]
  exact List.mem_append_right _ (List.mem_cons_of_mem _ hearlier)

end InOrder

/-! ## Lowering counts -/

@[simp] theorem installed_lower (s : Stage) (j : Nat) :
    (s.lower dogus j).installed = s.installed := rfl

@[simp] theorem installed_foldl_lower (js : List Nat) (s : Stage) :
    (js.foldl (Stage.lower dogus) s).installed = s.installed := by
  induction js generalizing s with
  | nil => rfl
  | cons j js ih => rw [List.foldl_cons, ih, installed_lower]

@[simp] theorem length_pending_foldl_lower (js : List Nat) (s : Stage) :
    (js.foldl (Stage.lower dogus) s).pending.length = s.pending.length := by
  induction js generalizing s with
  | nil => rfl
  | cons j js ih =>
    rw [List.foldl_cons, ih]
    simp [Stage.lower]

/-- The count of a place that is not lowered stays. -/
theorem pending_foldl_lower_of_not_mem {js : List Nat} {s : Stage} {j : Nat} (hj : j ∉ js) :
    (js.foldl (Stage.lower dogus) s).pending[j]? = s.pending[j]? := by
  induction js generalizing s with
  | nil => rfl
  | cons i js ih =>
    rw [List.mem_cons, not_or] at hj
    rw [List.foldl_cons, ih hj.2]
    simp [Stage.lower, List.getElem?_set_ne (Ne.symm hj.1)]

/-- The count of a place that is lowered once goes down by one. -/
theorem pending_foldl_lower_of_mem {js : List Nat} {s : Stage} {j n : Nat} (hjs : js.Nodup)
    (hj : j ∈ js) (hn : s.pending[j]? = some n) :
    (js.foldl (Stage.lower dogus) s).pending[j]? = some (n - 1) := by
  induction js generalizing s with
  | nil => simp at hj
  | cons i js ih =>
    rw [List.nodup_cons] at hjs
    rw [List.foldl_cons]
    rcases List.mem_cons.mp hj with rfl | hj
    -- the place is lowered here and not again, or later and not here
    · rw [pending_foldl_lower_of_not_mem hjs.1]
      have hlt : j < s.pending.length := (List.getElem?_eq_some_iff.mp hn).1
      simp [Stage.lower, hn, List.getElem?_set_self hlt]
    · refine ih hjs.2 hj ?_
      have hne : i ≠ j := by
        rintro rfl
        exact hjs.1 hj
      simp [Stage.lower, List.getElem?_set_ne hne, hn]

theorem sorted_ready_foldl_lower (js : List Nat) {s : Stage} (hs : Assoc.Sorted s.ready) :
    Assoc.Sorted (js.foldl (Stage.lower dogus) s).ready := by
  induction js generalizing s with
  | nil => exact hs
  | cons j js ih =>
    refine ih ?_
    unfold Stage.lower
    dsimp only
    split
    · exact hs.set _ _
    · exact hs

/-- Whoever is ready after the counts are lowered was ready before, or its count has become zero. -/
theorem mem_ready_foldl_lower {js : List Nat} {s : Stage} {p : String × Nat} (hjs : js.Nodup)
    (h : p ∈ (js.foldl (Stage.lower dogus) s).ready) :
    p ∈ s.ready ∨
      p.2 ∈ js ∧ p.1 = nameAt dogus p.2 ∧ s.pending[p.2]?.getD 0 - 1 = 0 := by
  induction js generalizing s with
  | nil => exact Or.inl h
  | cons j js ih =>
    rw [List.nodup_cons] at hjs
    rw [List.foldl_cons] at h
    rcases ih hjs.2 h with h | ⟨hmem, hname, hzero⟩
    · unfold Stage.lower at h
      dsimp only at h
      split at h
      · rename_i hcount
        rcases Assoc.mem_of_mem_set h with rfl | h
        · exact Or.inr ⟨List.mem_cons_self, rfl, hcount⟩
        · exact Or.inl h
      · exact Or.inl h
    · refine Or.inr ⟨List.mem_cons_of_mem _ hmem, hname, ?_⟩
      -- lowering another count first has not touched this one
      have hne : j ≠ p.2 := by
        intro heq
        exact hjs.1 (heq ▸ hmem)
      simpa [Stage.lower, List.getElem?_set_ne hne] using hzero

/-! ## Sound stages -/

/-- A stage that tells the truth. -/
structure Stage.Sound (dogus : List Descriptor) (s : Stage) : Prop where
  /-- There is a count for every place. -/
  size : s.pending.length = dogus.length
  /-- Every count is the number of needs that are not installed. -/
  counts : ∀ {j : Nat} {d : Descriptor}, dogus[j]? = some d →
    s.pending[j]? = some (unmet dogus s.installed d)
  sorted : Assoc.Sorted s.ready
  /-- Whoever is ready stands under its name, needs nothing more and is not installed. -/
  ready : ∀ {name : String} {i : Nat}, (name, i) ∈ s.ready → name = nameAt dogus i ∧
    i ∉ s.installed ∧ ∃ d, dogus[i]? = some d ∧ unmet dogus s.installed d = 0
  order : InOrder dogus s.installed

/-- A step installs the first of those that are ready and lowers the counts of its dependents. -/
theorem Stage.eq_of_next {s t : Stage} (h : s.next dogus = some t) :
    ∃ name i rest, s.ready = (name, i) :: rest ∧ t = (dependents dogus i).foldl (Stage.lower dogus)
      { s with ready := rest, installed := i :: s.installed } := by
  unfold Stage.next at h
  split at h
  · simp at h
  · rename_i name i rest hready
    exact ⟨name, i, rest, hready, (Option.some.inj h).symm⟩

theorem sound_initial (dogus : List Descriptor) : (Stage.initial dogus).Sound dogus := by
  refine ⟨?_, ?_, ?_, ?_, .nil⟩
  · simp [Stage.initial]
  · intro j d hd
    simp [Stage.initial, hd, unmet_nil]
  · exact Assoc.sorted_ofList _
  · intro name i h
    -- whoever is ready at the start has no needs at all
    have hfree := Assoc.mem_of_mem_ofList h
    simp only [List.mem_map, List.mem_filter, Prod.mk.injEq] at hfree
    obtain ⟨j, ⟨p, ⟨hp, hzero⟩, rfl⟩, rfl, rfl⟩ := hfree
    have hcount := List.mem_zipIdx_iff_getElem?.mp hp
    rw [List.getElem?_map, Option.map_eq_some_iff] at hcount
    obtain ⟨d, hd, hlen⟩ := hcount
    refine ⟨rfl, by simp [Stage.initial], d, hd, ?_⟩
    show unmet dogus [] d = 0
    rw [unmet_nil, hlen]
    simpa using hzero

/-- A step keeps a stage sound. -/
theorem Stage.Sound.next {s t : Stage} (hs : s.Sound dogus) (h : s.next dogus = some t) :
    t.Sound dogus := by
  obtain ⟨name, i, rest, hready, rfl⟩ := Stage.eq_of_next h
  have hfirst : (name, i) ∈ s.ready := by simp [hready]
  obtain ⟨hname, hi, d, hd, hzero⟩ := hs.ready hfirst
  have hsorted : Assoc.Sorted ((name, i) :: rest) := hready ▸ hs.sorted
  refine ⟨?_, ?_, ?_, ?_, ?_⟩
  · simpa using hs.size
  · intro j e he
    rw [installed_foldl_lower]
    -- a dependent loses one need, everyone else keeps theirs
    by_cases hneed : i ∈ needs dogus e
    · rw [unmet_cons_of_mem hi hneed]
      exact pending_foldl_lower_of_mem (nodup_dependents dogus i)
        (mem_dependents.mpr ⟨e, he, hneed⟩) (hs.counts he)
    · rw [unmet_cons_of_not_mem hneed]
      rw [pending_foldl_lower_of_not_mem]
      · exact hs.counts he
      · intro hmem
        obtain ⟨e', he', hneed'⟩ := mem_dependents.mp hmem
        rw [he, Option.some.injEq] at he'
        exact hneed (he' ▸ hneed')
  · exact sorted_ready_foldl_lower _ (List.Pairwise.of_cons hsorted)
  · intro other j hj
    rw [installed_foldl_lower]
    rcases mem_ready_foldl_lower (nodup_dependents dogus i) hj with hold | ⟨hdep, hnew, hcount⟩
    · -- a place that was ready already; the first entry has the least name
      have hmem : (other, j) ∈ s.ready := by
        rw [hready]
        exact List.mem_cons_of_mem _ hold
      obtain ⟨hother, hj, e, he, hzero'⟩ := hs.ready hmem
      have hne : j ≠ i := by
        rintro rfl
        have hlt : name < other := List.rel_of_pairwise_cons hsorted hold
        rw [hother, hname] at hlt
        exact lt_irrefl _ hlt
      refine ⟨hother, by simp [hne, hj], e, he, ?_⟩
      rw [unmet_eq_zero] at hzero' ⊢
      intro k hk
      exact List.mem_cons_of_mem _ (hzero' k hk)
    · -- a dependent of the installed place whose last need that was
      obtain ⟨e, he, hneed⟩ := mem_dependents.mp hdep
      have hcount' : unmet dogus (i :: s.installed) e = 0 := by
        rw [unmet_cons_of_mem hi hneed]
        simpa [hs.counts he] using hcount
      refine ⟨hnew, ?_, e, he, hcount'⟩
      have hne : j ≠ i := by
        rintro rfl
        rw [hd, Option.some.injEq] at he
        exact hi (unmet_eq_zero.mp hzero j (he ▸ hneed))
      have hj : j ∉ s.installed := by
        intro hmem
        exact hi (hs.order.needs_mem hmem he i hneed)
      simp [hne, hj]
  · rw [installed_foldl_lower]
    exact .cons hd hi (unmet_eq_zero.mp hzero) hs.order

theorem Stage.Sound.run {s : Stage} (hs : s.Sound dogus) (fuel : Nat) :
    (Stage.run dogus fuel s).Sound dogus := by
  induction fuel generalizing s with
  | zero => exact hs
  | succ fuel ih =>
    rw [Stage.run]
    split
    · rename_i t ht
      exact ih (hs.next ht)
    · exact hs

theorem sound_lastStage (dogus : List Descriptor) : (lastStage dogus).Sound dogus :=
  (sound_initial dogus).run _

/-! ## The order that is found -/

/-- What is found when all are installed. -/
theorem ordered_of_sortByDependencies {sorted : List Descriptor}
    (h : sortByDependencies dogus = .ok sorted) :
    ∃ installed, InOrder dogus installed ∧ installed.length = dogus.length ∧
      sorted = installed.reverse.filterMap (dogus[·]?) := by
  unfold sortByDependencies at h
  dsimp only at h
  split at h
  · rename_i hlen
    rw [Except.ok.injEq] at h
    exact ⟨_, (sound_lastStage dogus).order, hlen, h.symm⟩
  · simp at h

/-- An order that is found holds every descriptor once. -/
theorem perm_of_sortByDependencies {sorted : List Descriptor}
    (h : sortByDependencies dogus = .ok sorted) : sorted.Perm dogus := by
  obtain ⟨installed, horder, hlen, rfl⟩ := ordered_of_sortByDependencies h
  have hrev : installed.reverse.Perm (List.range dogus.length) :=
    installed.reverse_perm.trans (horder.perm_range hlen)
  have hmap := hrev.filterMap (dogus[·]?)
  rwa [Lists.filterMap_getElem?_range] at hmap

/-- Where the simple names are distinct, the place found for one is the place of its descriptor. -/
theorem getElem?_lastIndex? (hnames : (dogus.map Descriptor.simpleName).Nodup) {p : Descriptor}
    (hp : p ∈ dogus) : ∃ k, lastIndex? dogus p.simpleName = some k ∧ dogus[k]? = some p := by
  obtain ⟨k, hk⟩ := lastIndex?_isSome hp rfl
  obtain ⟨q, hq, hname⟩ := getElem?_of_lastIndex? hk
  have hsame : q = p := List.inj_on_of_nodup_map hnames (List.mem_of_getElem? hq) hp hname
  exact ⟨k, hk, hsame ▸ hq⟩

/-- Where the listed descriptors are split, their places are. -/
theorem places_of_split {installed : List Nat} {before after : List Descriptor} {d : Descriptor}
    (hsplit : installed.reverse.filterMap (dogus[·]?) = before ++ d :: after) :
    ∃ later i earlier, installed = later ++ i :: earlier ∧ dogus[i]? = some d ∧
      before = earlier.reverse.filterMap (dogus[·]?) := by
  rw [List.filterMap_eq_append_iff] at hsplit
  obtain ⟨first, rest, hplaces, rfl, hrest⟩ := hsplit
  rw [List.filterMap_eq_cons_iff] at hrest
  obtain ⟨skipped, i, rest, rfl, hskipped, hd, _⟩ := hrest
  -- the installed places are listed the other way round
  refine ⟨rest.reverse, i, skipped.reverse ++ first.reverse, ?_, hd, ?_⟩
  · rw [← List.reverse_reverse installed, hplaces]
    simp
  · have hnone : skipped.filterMap (dogus[·]?) = [] := List.filterMap_eq_nil_iff.mpr hskipped
    simp [List.filterMap_append, hnone]

/-- In an order that is found, every descriptor stands after the listed ones it depends on. -/
theorem dependency_before {sorted before after : List Descriptor} {d p : Descriptor}
    (hnames : (dogus.map Descriptor.simpleName).Nodup)
    (h : sortByDependencies dogus = .ok sorted) (hsplit : sorted = before ++ d :: after)
    (hp : p ∈ dogus) (hdep : p.simpleName ∈ d.doguDependencies) : p ∈ before := by
  obtain ⟨installed, horder, _, hsorted⟩ := ordered_of_sortByDependencies h
  obtain ⟨later, i, earlier, hinstalled, hd, rfl⟩ := places_of_split (hsorted ▸ hsplit)
  -- the place of the dependency is a need of the place of the descriptor
  obtain ⟨k, hk, hpk⟩ := getElem?_lastIndex? hnames hp
  have hneed : k ∈ needs dogus d := mem_needs.mpr ⟨_, hdep, hk⟩
  have hearlier : k ∈ earlier := horder.needs_before hinstalled hd k hneed
  exact List.mem_filterMap.mpr ⟨k, List.mem_reverse.mpr hearlier, hpk⟩

end EcosystemSetup.Plan

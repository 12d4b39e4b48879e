import EcosystemSetup.Proofs.DependencyCycles
import Mathlib.Data.Set.Card

/-!
# The search goes wrong nowhere

The search for an order of installation lowers counts and takes descriptors out of a list, and it does so
without looking: a count might be zero already, a dogu might be installed twice, or its descriptor might
be gone. The guarded search looks before each of these steps and gives up at the first that would go wrong.
Main statement: for any list of descriptors, also one in which names are repeated, the guarded search finds
what the search finds; at every stage the counts are those of the needs that are left; and no stuck dogu is
named only where two descriptors share their name.

A repeated name has two effects. Whoever depends on it needs the last descriptor that bears it, so that
every need is still one place; and of two places that are ready under one name the first is forgotten,
which leaves it out for good but never lets a place be ready twice.
-/

namespace EcosystemSetup.Plan

open Dogu

variable {dogus : List Descriptor}

/-! ## Guarded steps -/

/-- Lowers a count, if it is not zero. -/
def Stage.lower? (dogus : List Descriptor) (s : Stage) (j : Nat) : Option Stage :=
  match s.pending[j]? with
  | some (_ + 1) => some (s.lower dogus j)
  | _ => none

/-- Installs a place and lowers the counts of its dependents, if there is such a place and it is not
installed yet. -/
def Stage.install? (dogus : List Descriptor) (s : Stage) (i : Nat) (rest : List (String × Nat)) :
    Option Stage :=
  if i < dogus.length ∧ i ∉ s.installed then
    (dependents dogus i).foldlM (Stage.lower? dogus)
      { s with ready := rest, installed := i :: s.installed }
  else none

/-- Goes on until nobody is ready, for at most `fuel` steps. -/
def Stage.finish? (dogus : List Descriptor) : Nat → Stage → Option Stage
  | 0, s => if s.ready = [] then some s else none
  | fuel + 1, s =>
    match s.ready with
    | [] => some s
    | (_, i) :: rest => (s.install? dogus i rest).bind (Stage.finish? dogus fuel)

/-- Takes what is in the slots at some places; a slot that is empty has been taken before. -/
def takeSlots? {α : Type} : List (Option α) → List Nat → Option (List α)
  | _, [] => some []
  | slots, i :: rest =>
    match slots[i]? with
    | some (some x) => (takeSlots? (slots.set i none) rest).map (x :: ·)
    | _ => none

/-- The guarded search, with at most `fuel` steps. -/
def guardedSort? (fuel : Nat) (dogus : List Descriptor) :
    Option (Except (List String) (List Descriptor)) :=
  (Stage.finish? dogus fuel (.initial dogus)).bind fun s =>
    if s.installed.length = dogus.length then
      (takeSlots? (dogus.map some) s.installed.reverse).map .ok
    else some (.error (stuck dogus s))

/-! ## Lowering -/

/-- Counts that are not zero, each of a place of its own, may be lowered one after the other. -/
theorem foldlM_lower? {js : List Nat} {s : Stage} (hjs : js.Nodup)
    (hpos : ∀ j ∈ js, ∃ n, s.pending[j]? = some (n + 1)) :
    js.foldlM (Stage.lower? dogus) s = some (js.foldl (Stage.lower dogus) s) := by
  induction js generalizing s with
  | nil => rfl
  | cons j js ih =>
    obtain ⟨hj, hjs⟩ := List.nodup_cons.mp hjs
    obtain ⟨n, hn⟩ := hpos j List.mem_cons_self
    have hlower : s.lower? dogus j = some (s.lower dogus j) := by
      rw [Stage.lower?, hn]
    rw [List.foldlM_cons, hlower, List.foldl_cons]
    refine ih hjs ?_
    -- the counts that are still to be lowered are those of other places
    intro k hk
    have hne : j ≠ k := by
      rintro rfl
      exact hj hk
    obtain ⟨m, hm⟩ := hpos k (List.mem_cons_of_mem _ hk)
    exact ⟨m, by simp [Stage.lower, List.getElem?_set_ne hne, hm]⟩

theorem unmet_pos {installed : List Nat} {d : Descriptor} {i : Nat} (hneed : i ∈ needs dogus d)
    (hi : i ∉ installed) : 0 < unmet dogus installed d := by
  rw [Nat.pos_iff_ne_zero, ne_eq, unmet_eq_zero]
  intro hall
  exact hi (hall i hneed)

/-- A step from a sound stage goes wrong nowhere. -/
theorem Stage.Sound.install?_eq {s : Stage} (hs : s.Sound dogus) {name : String} {i : Nat}
    {rest : List (String × Nat)} (hready : s.ready = (name, i) :: rest) :
    s.install? dogus i rest = s.next dogus := by
  have hmem : (name, i) ∈ s.ready := by simp [hready]
  obtain ⟨-, hi, d, hd, -⟩ := hs.ready hmem
  have hlt : i < dogus.length := (List.getElem?_eq_some_iff.mp hd).1
  have hpos : ∀ j ∈ dependents dogus i, ∃ n, s.pending[j]? = some (n + 1) := by
    intro j hj
    obtain ⟨e, he, hneed⟩ := mem_dependents.mp hj
    -- the place that is installed is one of its needs, and it was not installed before
    have hunmet := unmet_pos hneed hi
    refine ⟨unmet dogus s.installed e - 1, ?_⟩
    rw [hs.counts he, Nat.sub_add_cancel hunmet]
  let begun : Stage := { s with ready := rest, installed := i :: s.installed }
  have hlower : (dependents dogus i).foldlM (Stage.lower? dogus) begun =
      some ((dependents dogus i).foldl (Stage.lower dogus) begun) :=
    foldlM_lower? (nodup_dependents dogus i) hpos
  rw [Stage.install?, if_pos ⟨hlt, hi⟩, hlower, Stage.next, hready]

/-! ## The whole search -/

theorem Stage.run_of_ready_nil {s : Stage} (h : s.ready = []) (fuel : Nat) :
    Stage.run dogus fuel s = s := by
  have hnext : s.next dogus = none := by
    rw [Stage.next, h]
  cases fuel with
  | zero => rfl
  | succ fuel => rw [Stage.run, hnext]

theorem Stage.run_add (m n : Nat) (s : Stage) :
    Stage.run dogus (m + n) s = Stage.run dogus n (Stage.run dogus m s) := by
  induction m generalizing s with
  | zero => rw [Nat.zero_add, Stage.run]
  | succ m ih =>
    rw [Nat.succ_add, Stage.run, Stage.run]
    cases hnext : s.next dogus with
    | some t => exact ih t
    | none =>
      cases n with
      | zero => rfl
      | succ n => rw [Stage.run, hnext]

/-- The search ends with as many steps as there are dogus, and more do not change its end. -/
theorem run_initial_eq_lastStage {fuel : Nat} (hfuel : dogus.length ≤ fuel) :
    Stage.run dogus fuel (.initial dogus) = lastStage dogus := by
  obtain ⟨more, rfl⟩ := Nat.exists_eq_add_of_le hfuel
  rw [Stage.run_add]
  exact Stage.run_of_ready_nil (ready_lastStage dogus) more

/-- With steps for all that are not installed yet, the guarded search ends as the search does. -/
theorem Stage.Sound.finish?_eq {s : Stage} (hs : s.Sound dogus) {fuel : Nat}
    (hfuel : dogus.length ≤ s.installed.length + fuel) :
    Stage.finish? dogus fuel s = some (Stage.run dogus fuel s) := by
  induction fuel generalizing s with
  | zero =>
    have hall : s.installed.length = dogus.length := le_antisymm hs.order.length_le hfuel
    rw [Stage.finish?, if_pos (hs.ready_of_length hall), Stage.run]
  | succ fuel ih =>
    rw [Stage.finish?]
    split
    · rename_i hnobody
      rw [Stage.run_of_ready_nil hnobody]
    · rename_i name i rest hready
      rw [hs.install?_eq hready, Stage.run]
      cases hnext : s.next dogus with
      | none =>
        rw [Stage.next, hready] at hnext
        cases hnext
      | some t =>
        have hlength : t.installed.length = s.installed.length + 1 := by
          obtain ⟨_, _, _, _, rfl⟩ := Stage.eq_of_next hnext
          rw [installed_foldl_lower, List.length_cons]
        exact ih (hs.next hnext) (by omega)

/-! ## Slots -/

/-- Slots that are full at distinct places give what they hold. -/
theorem takeSlots?_eq {α : Type} {xs : List α} {slots : List (Option α)} {order : List Nat}
    (horder : order.Nodup) (hfull : ∀ i ∈ order, ∃ x, xs[i]? = some x ∧ slots[i]? = some (some x)) :
    takeSlots? slots order = some (order.filterMap (xs[·]?)) := by
  induction order generalizing slots with
  | nil => rfl
  | cons i rest ih =>
    obtain ⟨hi, hrest⟩ := List.nodup_cons.mp horder
    obtain ⟨x, hx, hslot⟩ := hfull i List.mem_cons_self
    have hlater : ∀ j ∈ rest, ∃ y, xs[j]? = some y ∧ (slots.set i none)[j]? = some (some y) := by
      intro j hj
      have hne : i ≠ j := by
        rintro rfl
        exact hi hj
      rw [List.getElem?_set_ne hne]
      exact hfull j (List.mem_cons_of_mem _ hj)
    rw [takeSlots?, hslot]
    dsimp only
    rw [ih hrest hlater, List.filterMap_cons, hx, Option.map_some]

/-- Every installed place still has its descriptor. -/
theorem InOrder.takeSlots?_eq {installed : List Nat} (h : InOrder dogus installed) :
    takeSlots? (dogus.map some) installed.reverse =
      some (installed.reverse.filterMap (dogus[·]?)) := by
  apply Plan.takeSlots?_eq (List.nodup_reverse.mpr h.nodup)
  intro i hi
  have hlt : i < dogus.length := h.lt_length i (List.mem_reverse.mp hi)
  exact ⟨dogus[i], List.getElem?_eq_getElem hlt, by simp [hlt]⟩

/-- The guarded search finds what the search finds. -/
theorem guardedSort?_eq {fuel : Nat} (hfuel : dogus.length ≤ fuel) :
    guardedSort? fuel dogus = some (sortByDependencies dogus) := by
  have hstart : (Stage.initial dogus).installed.length = 0 := rfl
  have hfinish : Stage.finish? dogus fuel (Stage.initial dogus) = some (lastStage dogus) := by
    rw [(sound_initial dogus).finish?_eq (by omega), run_initial_eq_lastStage hfuel]
  unfold guardedSort? sortByDependencies
  rw [hfinish, Option.bind_some, (sound_lastStage dogus).order.takeSlots?_eq]
  dsimp only
  split <;> rfl

/-! ## Counts -/

/-- A descriptor depends on the dogu at a place: the last one with a name that it names as a dogu
dependency, required or optional. -/
def NeedsPlace (dogus : List Descriptor) (d : Descriptor) (k : Nat) : Prop :=
  ∃ x ∈ d.dependencies ++ d.optionalDependencies, x.type = .dogu ∧ lastIndex? dogus x.name = some k

theorem mem_needs_iff_needsPlace {d : Descriptor} {k : Nat} :
    k ∈ needs dogus d ↔ NeedsPlace dogus d k := by
  rw [mem_needs]
  unfold NeedsPlace Descriptor.doguDependencies
  constructor
  · rintro ⟨simple, hsimple, hk⟩
    obtain ⟨x, hx, rfl⟩ := List.mem_map.mp hsimple
    rw [List.mem_filter, decide_eq_true_eq] at hx
    exact ⟨x, hx.1, hx.2, hk⟩
  · rintro ⟨x, hx, htype, hk⟩
    refine ⟨x.name, List.mem_map.mpr ⟨x, ?_, rfl⟩, hk⟩
    rw [List.mem_filter, decide_eq_true_eq]
    exact ⟨hx, htype⟩

/-- What is counted are the needed places that are not installed, each once. -/
theorem unmet_eq_ncard (installed : List Nat) (d : Descriptor) :
    unmet dogus installed d = {k | NeedsPlace dogus d k ∧ k ∉ installed}.ncard := by
  have hset : {k | NeedsPlace dogus d k ∧ k ∉ installed} =
      (((needs dogus d).filter (· ∉ installed)).toFinset : Set Nat) := by
    ext k
    simp [mem_needs_iff_needsPlace]
  rw [hset, Set.ncard_coe_finset, List.toFinset_card_of_nodup ((nodup_needs dogus d).filter _), unmet]

/-! ## Nobody is stuck -/

/-- If nobody is stuck, every place is installed, unless two descriptors share their name. -/
theorem length_installed_of_stuck_nil (hnames : (dogus.map Descriptor.name).Nodup)
    (h : stuck dogus (lastStage dogus) = []) :
    (lastStage dogus).installed.length = dogus.length := by
  have hs : (lastStage dogus).Sound dogus := sound_lastStage dogus
  have hnone : ∀ {j : Nat} {d : Descriptor}, dogus[j]? = some d →
      unmet dogus (lastStage dogus).installed d = 0 := by
    intro j d hd
    by_contra hpos
    have hmem : nameAt dogus j ∈ stuck dogus (lastStage dogus) := by
      simp only [stuck, List.mem_mergeSort, List.mem_map, List.mem_filter,
        List.mem_zipIdx_iff_getElem?, decide_eq_true_eq]
      exact ⟨(_, j), ⟨hs.counts hd, Nat.pos_of_ne_zero hpos⟩, rfl⟩
    rw [h] at hmem
    cases hmem
  have hall : List.range dogus.length ⊆ (lastStage dogus).installed := by
    intro j hj
    have hlt : j < dogus.length := List.mem_range.mp hj
    have hd : dogus[j]? = some dogus[j] := List.getElem?_eq_getElem hlt
    exact (unmet_lastStage_of_names hnames hd).mp (hnone hd)
  have hle : dogus.length ≤ (lastStage dogus).installed.length := by
    simpa using (List.nodup_range.subperm hall).length_le
  exact le_antisymm hs.order.length_le hle

/-! ## Main statement -/

/-- What holds of the search for any list of descriptors. -/
structure SearchesExactly (dogus : List Descriptor) : Prop where
  /-- No count is lowered below zero, no place is installed twice, no descriptor is gone when it is taken,
  and there are no more steps than dogus. -/
  guarded : ∀ fuel, dogus.length ≤ fuel → guardedSort? fuel dogus = some (sortByDependencies dogus)
  /-- Before every step, every count is the number of needed places that are not installed. -/
  counts : ∀ (steps j : Nat) (d : Descriptor), dogus[j]? = some d →
    (Stage.run dogus steps (.initial dogus)).pending[j]? =
      some {k | NeedsPlace dogus d k ∧
        k ∉ (Stage.run dogus steps (.initial dogus)).installed}.ncard
  once : ∀ steps, (Stage.run dogus steps (.initial dogus)).installed.Nodup
  perm : ∀ sorted, sortByDependencies dogus = .ok sorted → sorted.Perm dogus
  unstuck : sortByDependencies dogus = .error [] → ¬ (dogus.map Descriptor.name).Nodup

theorem searches_exactly (dogus : List Descriptor) : SearchesExactly dogus where
  guarded _ hfuel := guardedSort?_eq hfuel
  counts steps j d hd := by
    rw [← unmet_eq_ncard]
    exact ((sound_initial dogus).run steps).counts hd
  once steps := ((sound_initial dogus).run steps).order.nodup
  perm _ := perm_of_sortByDependencies
  unstuck herror hnames := by
    have hstuck := (stuck_of_sortByDependencies herror).symm
    obtain ⟨sorted, hsorted⟩ :=
      exists_order_iff.mpr (length_installed_of_stuck_nil hnames hstuck)
    rw [herror] at hsorted
    cases hsorted

/-- Of two dogus with one name the first is never installed, and nobody is stuck. -/
example : sortByDependencies [{ name := "official/cas", version := "1" },
    { name := "official/cas", version := "2" }] = .error [] := by
  decide +kernel

end EcosystemSetup.Plan

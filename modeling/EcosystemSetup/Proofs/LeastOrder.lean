import EcosystemSetup.Proofs.ByteOrder
import EcosystemSetup.Proofs.DependencyCycles

/-!
# The order of installation is the least one

At every step the search installs, of all dogus that can be installed, the one with the least name. An
order in which every dogu is chosen like that is the least of all orders that put dependencies first:
where another order differs for the first time it installs a dogu that could be installed, so one with
a larger name. Orders are compared as sequences of names, and names by their bytes.
-/

namespace EcosystemSetup.Plan

open Dogu

variable {dogus : List Descriptor}

/-! ## The least name first -/

/-- Places in an order of installation, the last one first: each has the least name of those that could
be installed when it was. -/
inductive LeastFirst (dogus : List Descriptor) : List Nat → Prop where
  | nil : LeastFirst dogus []
  | cons {i : Nat} {d : Descriptor} {installed : List Nat} (here : dogus[i]? = some d)
      (least : ∀ (j : Nat) (e : Descriptor), dogus[j]? = some e → j ∉ installed →
        unmet dogus installed e = 0 → d.name ≤ e.name)
      (before : LeastFirst dogus installed) : LeastFirst dogus (i :: installed)

namespace LeastFirst

/-- A place has the least name of those that could be installed instead of it. -/
theorem least_at {installed later earlier : List Nat} {i j : Nat} {d e : Descriptor}
    (h : LeastFirst dogus installed) (hsplit : installed = later ++ i :: earlier)
    (hd : dogus[i]? = some d) (he : dogus[j]? = some e) (hj : j ∉ earlier)
    (hfree : unmet dogus earlier e = 0) : d.name ≤ e.name := by
  -- along the order, as every place was once the last one
  induction h generalizing later with
  | nil => simp at hsplit
  | @cons i' d' installed here least _ ih =>
    cases later with
    | nil =>
      rw [List.nil_append, List.cons.injEq] at hsplit
      obtain ⟨rfl, rfl⟩ := hsplit
      have hsame : d' = d := by simpa [here] using hd
      exact hsame ▸ least j e he hj hfree
    | cons l later =>
      rw [List.cons_append, List.cons.injEq] at hsplit
      exact ih hsplit.2

/-- A step installs the least of those that are ready, and everybody who can be installed is. -/
theorem next {s t : Stage} (hleast : LeastFirst dogus s.installed) (hs : s.Sound dogus)
    (hcomplete : s.Complete dogus) (h : s.next dogus = some t) : LeastFirst dogus t.installed := by
  obtain ⟨name, i, rest, hready, rfl⟩ := Stage.eq_of_next h
  rw [installed_foldl_lower]
  have hfirst : (name, i) ∈ s.ready := by simp [hready]
  obtain ⟨hname, _, d, hd, _⟩ := hs.ready hfirst
  refine .cons hd ?_ hleast
  intro j e he hj hfree
  have hmem : (nameAt dogus j, j) ∈ s.ready := hcomplete j e he hfree hj
  rw [hready] at hmem
  rw [← nameAt_of_getElem? hd, ← nameAt_of_getElem? he, ← hname]
  rcases List.mem_cons.mp hmem with hfirst | hlater
  · exact le_of_eq (congrArg Prod.fst hfirst).symm
  · have hsorted : Assoc.Sorted ((name, i) :: rest) := hready ▸ hs.sorted
    exact le_of_lt (List.rel_of_pairwise_cons hsorted hlater)

theorem run (hnames : (dogus.map Descriptor.name).Nodup) (fuel : Nat) {s : Stage}
    (hleast : LeastFirst dogus s.installed) (hs : s.Sound dogus) (hcomplete : s.Complete dogus) :
    LeastFirst dogus (Stage.run dogus fuel s).installed := by
  induction fuel generalizing s with
  | zero => exact hleast
  | succ fuel ih =>
    rw [Stage.run]
    split
    · rename_i t ht
      exact ih (hleast.next hs hcomplete ht) (hs.next ht) (hcomplete.next hnames hs ht)
    · exact hleast

end LeastFirst

theorem leastFirst_lastStage (hnames : (dogus.map Descriptor.name).Nodup) :
    LeastFirst dogus (lastStage dogus).installed :=
  LeastFirst.run hnames _ .nil (sound_initial dogus) (complete_initial hnames)

/-! ## The least order -/

/-- In an order, every dogu has the least name of those that could stand in its place: those that do
not stand before it and all of whose dependencies do. -/
def Greedy (dogus order : List Descriptor) : Prop :=
  ∀ before d after, order = before ++ d :: after → ∀ e ∈ dogus, e ∉ before →
    (∀ p, DependsOn dogus e p → p ∈ before) → d.name ≤ e.name

/-- The order that is found is greedy. -/
theorem greedy_of_sortByDependencies (hnames : (dogus.map Descriptor.simpleName).Nodup)
    {sorted : List Descriptor} (h : sortByDependencies dogus = .ok sorted) : Greedy dogus sorted := by
  have hsorted : sorted = (lastStage dogus).installed.reverse.filterMap (dogus[·]?) := by
    unfold sortByDependencies at h
    dsimp only at h
    split at h
    · rw [Except.ok.injEq] at h
      exact h.symm
    · simp at h
  intro before d after hsplit e he hbefore hdeps
  obtain ⟨later, i, earlier, hinstalled, hd, rfl⟩ := places_of_split (hsorted ▸ hsplit)
  obtain ⟨j, hj⟩ := List.mem_iff_getElem?.mp he
  have hout : j ∉ earlier := by
    intro hmem
    exact hbefore (List.mem_filterMap.mpr ⟨j, List.mem_reverse.mpr hmem, hj⟩)
  have hfree : unmet dogus earlier e = 0 := by
    rw [unmet_eq_zero]
    intro k hk
    obtain ⟨p, hp, hdep⟩ := (mem_needs_iff hnames).mp hk
    -- the dependency stands before, so its place is one of the earlier ones
    obtain ⟨k', hk', hp'⟩ := List.mem_filterMap.mp (hdeps p hdep)
    have hlt : k' < dogus.length := (List.getElem?_eq_some_iff.mp hp').1
    have hsame : k' = k :=
      (List.getElem?_inj hlt (List.Nodup.of_map _ hnames)).mp (by rw [hp, hp'])
    exact hsame ▸ List.mem_reverse.mp hk'
  exact (leastFirst_lastStage (nodup_names hnames)).least_at hinstalled hd hj hout hfree

/-- The names of an order, as bytes. -/
def nameBytes (order : List Descriptor) : List (List UInt8) :=
  order.map fun d => Text.bytes d.name

/-- After a common beginning, the rest of a greedy order is at most the rest of any order that puts
dependencies first. -/
theorem nameBytes_le_of_greedy (hnames : (dogus.map Descriptor.name).Nodup)
    {common rest other : List Descriptor} (hgreedy : Greedy dogus (common ++ rest))
    (hperm : (common ++ rest).Perm dogus) (hfirst : DependenciesFirst dogus (common ++ other))
    (hother : (common ++ other).Perm dogus) : nameBytes rest ≤ nameBytes other := by
  induction rest generalizing common other with
  | nil =>
    have hlen := hperm.length_eq.trans hother.length_eq.symm
    have hnil : other = [] := List.length_eq_zero_iff.mp (by simpa using hlen.symm)
    exact hnil ▸ List.le_refl _
  | cons d rest ih =>
    cases other with
    | nil =>
      have hlen := hperm.length_eq.trans hother.length_eq.symm
      simp at hlen
    | cons e other =>
      have hd : d ∈ dogus := hperm.subset (by simp)
      have he : e ∈ dogus := hother.subset (by simp)
      by_cases hname : d.name = e.name
      · -- the same dogu: the common beginning grows
        have hsame : d = e := List.inj_on_of_nodup_map hnames hd he hname
        subst hsame
        have hgreedy' : Greedy dogus ((common ++ [d]) ++ rest) := by simpa using hgreedy
        have hfirst' : DependenciesFirst dogus ((common ++ [d]) ++ other) := by simpa using hfirst
        have hrest : nameBytes rest ≤ nameBytes other :=
          ih hgreedy' (by simpa using hperm) hfirst' (by simpa using hother)
        exact List.cons_le_cons_iff.mpr (Or.inr ⟨rfl, hrest⟩)
      · -- the first difference: the other dogu could be installed here as well
        have hnodup : (common ++ e :: other).Nodup :=
          hother.nodup_iff.mpr (List.Nodup.of_map _ hnames)
        have hbefore : e ∉ common := by
          intro hmem
          exact List.disjoint_of_nodup_append hnodup hmem List.mem_cons_self
        have hle : d.name ≤ e.name :=
          hgreedy common d rest rfl e he hbefore (hfirst common e other rfl)
        have hlt : Text.bytes d.name < Text.bytes e.name :=
          Text.bytes_lt_bytes.mpr (lt_of_le_of_ne hle hname)
        exact List.cons_le_cons_iff.mpr (Or.inl hlt)

/-- Where the simple names are distinct and the dependencies have no cycle, the order that is found is
the least of all orders that put dependencies first. -/
theorem least_order (hnames : (dogus.map Descriptor.simpleName).Nodup) (hacyclic : Acyclic dogus) :
    ∃ sorted, sortByDependencies dogus = .ok sorted ∧ sorted.Perm dogus ∧
      DependenciesFirst dogus sorted ∧
      ∀ other : List Descriptor, other.Perm dogus → DependenciesFirst dogus other →
        nameBytes sorted ≤ nameBytes other := by
  obtain ⟨sorted, h⟩ := exists_order_iff.mpr ((length_installed_iff hnames).mpr hacyclic)
  refine ⟨sorted, h, perm_of_sortByDependencies h, dependenciesFirst_of_sort hnames h, ?_⟩
  intro other hother hfirst
  have hgreedy : Greedy dogus ([] ++ sorted) := greedy_of_sortByDependencies hnames h
  exact nameBytes_le_of_greedy (nodup_names hnames) hgreedy (perm_of_sortByDependencies h) hfirst
    hother

/-- A tracker that depends on a login, a directory behind that, and a database. -/
def tracker : List Descriptor :=
  [{ name := "official/redmine", version := "1"
     dependencies := [{ name := "postgresql" }, { name := "cas" }] },
    { name := "official/cas", version := "1", dependencies := [{ name := "ldap" }] },
    { name := "official/postgresql", version := "1" },
    { name := "official/ldap", version := "1" }]

/-- The login comes before the database: it has the smaller name once the directory is installed. -/
theorem least_order_tracker :
    (tracker.map Descriptor.simpleName).Nodup ∧ Acyclic tracker ∧
      ∃ sorted, sortByDependencies tracker = .ok sorted ∧
        sorted.map Descriptor.simpleName = ["ldap", "cas", "postgresql", "redmine"] ∧
        ∀ other : List Descriptor, other.Perm tracker → DependenciesFirst tracker other →
          nameBytes sorted ≤ nameBytes other := by
  have hnames : (tracker.map Descriptor.simpleName).Nodup := by decide +kernel
  have hacyclic : Acyclic tracker := (length_installed_iff hnames).mp (by decide +kernel)
  obtain ⟨sorted, h, _, _, hleast⟩ := least_order hnames hacyclic
  refine ⟨hnames, hacyclic, sorted, h, ?_, hleast⟩
  have hnamed : (sortByDependencies tracker).map (·.map Descriptor.simpleName) =
      .ok ["ldap", "cas", "postgresql", "redmine"] := by decide +kernel
  rw [h] at hnamed
  exact Except.ok.inj hnamed

end EcosystemSetup.Plan

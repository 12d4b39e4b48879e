import EcosystemSetup.Proofs.Barriers
import EcosystemSetup.Proofs.LeastOrder
import Mathlib.Data.List.Sort

/-!
# The order of requests does not matter

A plan depends on which dogus are requested, not on the order of the requests. Only one greedy order
puts the dependencies first, and the names of stuck dogus are in ascending order, so the two searches
meet again although their places, counts and tables differ.

Nor does it matter in which order sets are met. Components and awaited components are only asked for
membership; the needs of a dogu are counted and entered into the tables of those it needs, one in each,
so a table does not depend on the order in which a dogu's needs are met.
-/

namespace EcosystemSetup.Plan

open Dogu

variable {dogus : List Descriptor}

/-! ## Only one greedy order -/

/-- Dependencies are those of a set of dogus. -/
theorem dependsOn_congr {dogus' : List Descriptor} (h : ∀ d, d ∈ dogus ↔ d ∈ dogus') :
    DependsOn dogus = DependsOn dogus' := by
  funext d p
  unfold DependsOn
  rw [h p]

theorem greedy_congr {dogus' order : List Descriptor} (h : ∀ d, d ∈ dogus ↔ d ∈ dogus') :
    Greedy dogus order ↔ Greedy dogus' order := by
  unfold Greedy
  rw [dependsOn_congr h]
  simp only [h]

theorem dependenciesFirst_congr {dogus' order : List Descriptor}
    (h : ∀ d, d ∈ dogus ↔ d ∈ dogus') :
    DependenciesFirst dogus order ↔ DependenciesFirst dogus' order := by
  unfold DependenciesFirst
  rw [dependsOn_congr h]

theorem acyclic_congr {dogus' : List Descriptor} (h : ∀ d, d ∈ dogus ↔ d ∈ dogus') :
    Acyclic dogus ↔ Acyclic dogus' := by
  unfold Acyclic
  rw [dependsOn_congr h]
  simp only [h]

theorem leadsIntoCycle_congr {dogus' : List Descriptor} (h : ∀ d, d ∈ dogus ↔ d ∈ dogus')
    {d : Descriptor} : LeadsIntoCycle dogus d ↔ LeadsIntoCycle dogus' d := by
  unfold LeadsIntoCycle
  rw [dependsOn_congr h]

/-- Two greedy orders that put dependencies first go on in the same way after a common beginning. -/
theorem greedy_unique (hnames : (dogus.map Descriptor.name).Nodup)
    {common rest other : List Descriptor} (hgreedy : Greedy dogus (common ++ rest))
    (hfirst : DependenciesFirst dogus (common ++ rest)) (hperm : (common ++ rest).Perm dogus)
    (hgreedy' : Greedy dogus (common ++ other))
    (hfirst' : DependenciesFirst dogus (common ++ other)) (hother : (common ++ other).Perm dogus) :
    rest = other := by
  have hlen : rest.length = other.length := by
    have h := hperm.length_eq.trans hother.length_eq.symm
    rw [List.length_append, List.length_append] at h
    omega
  induction rest generalizing common other with
  | nil => exact (List.length_eq_zero_iff.mp hlen.symm).symm
  | cons d rest ih =>
    obtain ⟨e, other, rfl⟩ := List.exists_cons_of_length_eq_add_one hlen.symm
    have hd : d ∈ dogus := hperm.subset (by simp)
    have he : e ∈ dogus := hother.subset (by simp)
    have hfresh : ∀ {x : Descriptor} {l : List Descriptor}, (common ++ x :: l).Perm dogus →
        x ∉ common := by
      intro x l h hmem
      have hnodup : (common ++ x :: l).Nodup := h.nodup_iff.mpr (List.Nodup.of_map _ hnames)
      exact List.disjoint_of_nodup_append hnodup hmem List.mem_cons_self
    -- each of the two could stand in the place of the other
    have hle : d.name ≤ e.name :=
      hgreedy common d rest rfl e he (hfresh hother) (hfirst' common e other rfl)
    have hge : e.name ≤ d.name :=
      hgreedy' common e other rfl d hd (hfresh hperm) (hfirst common d rest rfl)
    have hsame : d = e := List.inj_on_of_nodup_map hnames hd he (le_antisymm hle hge)
    subst hsame
    have hshift : ∀ l : List Descriptor, common ++ d :: l = (common ++ [d]) ++ l := by
      intro l
      rw [List.append_assoc, List.singleton_append]
    rw [hshift] at hgreedy hfirst hperm hgreedy' hfirst' hother
    rw [ih hgreedy hfirst hperm hgreedy' hfirst' hother (by simpa using hlen)]

/-- Dogus in any order are sorted alike: into the same order, or with the same names stuck. -/
theorem sortByDependencies_of_perm {dogus' : List Descriptor}
    (hnames : (dogus.map Descriptor.simpleName).Nodup) (hperm : dogus.Perm dogus') :
    sortByDependencies dogus = sortByDependencies dogus' := by
  have hnames' : (dogus'.map Descriptor.simpleName).Nodup :=
    (hperm.map Descriptor.simpleName).nodup_iff.mp hnames
  have hmem : ∀ d, d ∈ dogus ↔ d ∈ dogus' := fun d => hperm.mem_iff
  have hsortable : (∃ sorted, sortByDependencies dogus = .ok sorted) ↔
      ∃ sorted, sortByDependencies dogus' = .ok sorted := by
    rw [exists_order_iff, exists_order_iff, length_installed_iff hnames,
      length_installed_iff hnames']
    exact acyclic_congr hmem
  cases h : sortByDependencies dogus with
  | ok sorted =>
    obtain ⟨sorted', h'⟩ := hsortable.mp ⟨sorted, h⟩
    rw [h', Except.ok.injEq]
    have hgreedy : Greedy dogus ([] ++ sorted) := greedy_of_sortByDependencies hnames h
    have hfirst : DependenciesFirst dogus ([] ++ sorted) := dependenciesFirst_of_sort hnames h
    have hgreedy' : Greedy dogus ([] ++ sorted') :=
      (greedy_congr hmem).mpr (greedy_of_sortByDependencies hnames' h')
    have hfirst' : DependenciesFirst dogus ([] ++ sorted') :=
      (dependenciesFirst_congr hmem).mpr (dependenciesFirst_of_sort hnames' h')
    exact greedy_unique (nodup_names hnames) hgreedy hfirst (perm_of_sortByDependencies h) hgreedy'
      hfirst' ((perm_of_sortByDependencies h').trans hperm.symm)
  | error names =>
    cases h' : sortByDependencies dogus' with
    | ok sorted' =>
      obtain ⟨sorted, hsorted⟩ := hsortable.mpr ⟨sorted', h'⟩
      rw [h] at hsorted
      cases hsorted
    | error names' =>
      rw [Except.error.injEq, stuck_of_sortByDependencies h, stuck_of_sortByDependencies h']
      apply List.Pairwise.eq_of_mem_iff (sorted_stuck hnames) (sorted_stuck hnames')
      intro name
      rw [mem_stuck hnames, mem_stuck hnames']
      simp only [hmem, leadsIntoCycle_congr hmem]

/-! ## Requests in any order -/

/-- There is no plan because the requests do not resolve: a simple name is requested twice, or the
registry does not find a dogu. -/
inductive PlanError.Unresolved : PlanError → Prop where
  | duplicate (simpleName : String) : Unresolved (.duplicate simpleName)
  | registry (request : String) (cause : RegistryError) : Unresolved (.registry request cause)

theorem unresolved_of_lookUp {registry : Registry} {r : Request} {e : PlanError}
    (h : lookUp registry r = .error e) : e.Unresolved := by
  unfold lookUp at h
  dsimp only at h
  split at h
  · cases h
  · rw [Except.error.injEq] at h
    rw [← h]
    exact .registry _ _

theorem unresolved_of_resolveFrom {registry : Registry} {seen : List String}
    {requests : List Request} {e : PlanError} (h : resolveFrom registry seen requests = .error e) :
    e.Unresolved := by
  induction requests generalizing seen with
  | nil => cases h
  | cons r rest ih =>
    rw [resolveFrom] at h
    split at h
    · rw [Except.error.injEq] at h
      rw [← h]
      exact .duplicate _
    · split at h
      · rename_i hlook
        rw [Except.error.injEq] at h
        exact h ▸ unresolved_of_lookUp hlook
      · split at h
        · rename_i hrest
          rw [h] at hrest
          exact ih hrest
        · cases h

/-- Requests that resolve do so in any order, to the same dogus. -/
theorem resolve_of_perm {registry : Registry} {requests requests' : List Request}
    {dogus : List Descriptor} (hperm : requests.Perm requests')
    (h : resolve registry requests = .ok dogus) :
    ∃ dogus', resolve registry requests' = .ok dogus' ∧ dogus.Perm dogus' := by
  obtain ⟨hfound, hnodup, _⟩ := resolveFrom_eq_ok.mp h
  obtain ⟨dogus', hfound', hdogus⟩ := List.perm_comp_forall₂ hperm.symm hfound
  have hnodup' : (requests'.map Request.simpleName).Nodup :=
    (hperm.map Request.simpleName).nodup_iff.mp hnodup
  exact ⟨dogus', resolveFrom_eq_ok.mpr ⟨hfound', hnodup', by simp⟩, hdogus.symm⟩

/-- Two answers that say the same: the same plan, the same stuck dogus, or that requests do not resolve,
be it for different reasons. -/
inductive SameAnswer :
    Except PlanError (List PlannedStep) → Except PlanError (List PlannedStep) → Prop where
  | plan (steps : List PlannedStep) : SameAnswer (.ok steps) (.ok steps)
  | cycle (stuck : List String) : SameAnswer (.error (.cycle stuck)) (.error (.cycle stuck))
  | unresolved {e e' : PlanError} (first : e.Unresolved) (second : e'.Unresolved) :
      SameAnswer (.error e) (.error e')

/-- The answer for what the search finds. -/
def answer (around : Surroundings) :
    Except (List String) (List Descriptor) → Except PlanError (List PlannedStep)
  | .ok sorted => .ok (interleaveBarriers around sorted)
  | .error stuck => .error (.cycle stuck)

theorem sameAnswer_answer (around : Surroundings) (found : Except (List String) (List Descriptor)) :
    SameAnswer (answer around found) (answer around found) := by
  cases found with
  | ok sorted => exact .plan _
  | error stuck => exact .cycle stuck

theorem generate_of_resolve {registry : Registry} {around : Surroundings} {requests : List Request}
    (h : resolve registry requests = .ok dogus) :
    generate registry around requests = answer around (sortByDependencies dogus) := by
  unfold generate
  rw [h]
  dsimp only
  cases sortByDependencies dogus with
  | ok sorted => rfl
  | error stuck => rfl

theorem generate_of_unresolved {registry : Registry} {around : Surroundings}
    {requests : List Request} {e : PlanError} (h : resolve registry requests = .error e) :
    generate registry around requests = .error e := by
  unfold generate
  rw [h]

theorem sameAnswer_of_perm {registry : Registry} (hr : registry.Faithful)
    {requests requests' : List Request} (hperm : requests.Perm requests') (around : Surroundings) :
    SameAnswer (generate registry around requests) (generate registry around requests') := by
  cases h : resolve registry requests with
  | ok dogus =>
    obtain ⟨dogus', h', hdogus⟩ := resolve_of_perm hperm h
    have hsort := sortByDependencies_of_perm (nodup_simpleName_of_resolve hr h) hdogus
    rw [generate_of_resolve h, generate_of_resolve h', hsort]
    exact sameAnswer_answer around _
  | error e =>
    cases h' : resolve registry requests' with
    | ok dogus' =>
      obtain ⟨dogus, hdogus, _⟩ := resolve_of_perm hperm.symm h'
      rw [h] at hdogus
      cases hdogus
    | error e' =>
      rw [generate_of_unresolved h, generate_of_unresolved h']
      exact .unresolved (unresolved_of_resolveFrom h) (unresolved_of_resolveFrom h')

/-! ## Components as sets -/

/-- The same components and the same awaited ones, in any order and any number of times. -/
structure Surroundings.SameMembers (around around' : Surroundings) : Prop where
  components : ∀ c, c ∈ around.components ↔ c ∈ around'.components
  awaited : ∀ c, c ∈ around.awaited ↔ c ∈ around'.awaited

/-- Of the barriers that stand only the members count. -/
theorem newBarriers_congr {standing standing' : List PlannedStep}
    (h : ∀ b, b ∈ standing ↔ b ∈ standing') (bs : List PlannedStep) :
    (newBarriers standing bs).1 = (newBarriers standing' bs).1 := by
  induction bs generalizing standing standing' with
  | nil => rfl
  | cons b rest ih =>
    have hcons : ∀ c, c ∈ b :: standing ↔ c ∈ b :: standing' := by
      intro c
      rw [List.mem_cons, List.mem_cons, h c]
    rw [newBarriers, newBarriers]
    by_cases hb : b ∈ standing
    · rw [if_pos hb, if_pos ((h b).mp hb)]
      exact ih h
    · rw [if_neg hb, if_neg (hb ∘ (h b).mpr)]
      show b :: _ = b :: _
      rw [ih hcons]

theorem withBarriers_congr {p p' : Providers} {standing standing' : List PlannedStep}
    (hp : ∀ d, demands p d = demands p' d) (h : ∀ b, b ∈ standing ↔ b ∈ standing')
    (ds : List Descriptor) : withBarriers p standing ds = withBarriers p' standing' ds := by
  induction ds generalizing standing standing' with
  | nil => rfl
  | cons d rest ih =>
    have hafter : ∀ b, b ∈ (newBarriers standing (demands p' d)).2 ↔
        b ∈ (newBarriers standing' (demands p' d)).2 := by
      intro b
      rw [mem_newBarriers_standing, mem_newBarriers_standing, h b]
    rw [withBarriers_cons, withBarriers_cons, hp d, newBarriers_congr h, ih hafter]

theorem interleaveBarriers_congr {around around' : Surroundings} (h : around.SameMembers around')
    (sorted : List Descriptor) :
    interleaveBarriers around sorted = interleaveBarriers around' sorted := by
  apply withBarriers_congr
  · intro d
    have hhas : ∀ a, Providers.has ⟨sorted.map Descriptor.simpleName, around.components⟩ a =
        Providers.has ⟨sorted.map Descriptor.simpleName, around'.components⟩ a := by
      intro a
      unfold Providers.has
      cases a.kind with
      | dogu => rfl
      | component =>
        show around.components.contains a.target = around'.components.contains a.target
        rw [Bool.eq_iff_iff, List.contains_iff_mem, List.contains_iff_mem]
        exact h.components a.target
      | unknown name => rfl
    unfold demands demanded?
    simp only [hhas]
  · intro b
    rw [List.mem_map, List.mem_map]
    simp only [h.awaited]

theorem generate_congr {around around' : Surroundings} (h : around.SameMembers around')
    (registry : Registry) (requests : List Request) :
    generate registry around requests = generate registry around' requests := by
  unfold generate
  simp only [interleaveBarriers_congr h]

/-! ## Dependencies as sets -/

/-- An order in which the members of sets are met: any arrangement, for every place its own. -/
structure Traversal where
  arrange : Nat → List Nat → List Nat
  perm : ∀ i l, (arrange i l).Perm l

/-- The tables of a search: how many needs each place has, and which places need it. -/
structure Tables where
  counts : List Nat
  users : List (List Nat)

namespace Tables

/-- Enters one need of a place. -/
def enter (i : Nat) (t : Tables) (k : Nat) : Tables :=
  { counts := t.counts.modify i (· + 1), users := t.users.modify k (· ++ [i]) }

/-- Enters the needs of the listed dogus, place by place. -/
def enterAll (o : Traversal) (dogus : List Descriptor) (t : Tables) (ps : List (Descriptor × Nat)) :
    Tables :=
  ps.foldl (fun t p => (o.arrange p.2 (needs dogus p.1)).foldl (enter p.2) t) t

/-- The tables of a list of dogus. -/
def fill (o : Traversal) (dogus : List Descriptor) : Tables :=
  enterAll o dogus ⟨.replicate dogus.length 0, .replicate dogus.length []⟩ dogus.zipIdx

end Tables

/-- Installs the first ready dogu and lowers the counts of those that need it by the table. -/
def Stage.advance (dogus : List Descriptor) (t : Tables) (s : Stage) : Option Stage :=
  match s.ready with
  | [] => none
  | (_, i) :: rest =>
    some ((t.users[i]?.getD []).foldl (Stage.lower dogus)
      { s with ready := rest, installed := i :: s.installed })

/-- Installs ready dogus while there are some, at most `fuel` of them. -/
def Stage.advances (dogus : List Descriptor) (t : Tables) : Nat → Stage → Stage
  | 0, s => s
  | fuel + 1, s =>
    match s.advance dogus t with
    | some s => Stage.advances dogus t fuel s
    | none => s

/-- The search by tables. -/
def sortByTables (dogus : List Descriptor) (t : Tables) : Except (List String) (List Descriptor) :=
  let free := (t.counts.zipIdx.filter fun p => p.1 = 0).map Prod.snd
  let first : Stage := ⟨t.counts, Assoc.ofList (free.map fun i => (nameAt dogus i, i)), []⟩
  let s := Stage.advances dogus t dogus.length first
  if s.installed.length = dogus.length then .ok (s.installed.reverse.filterMap (dogus[·]?))
  else .error (stuck dogus s)

/-- The plan for a list of requests, with the sets of dependencies met in some order. -/
def generateAlong (o : Traversal) (registry : Registry) (around : Surroundings)
    (requests : List Request) : Except PlanError (List PlannedStep) :=
  match resolve registry requests with
  | .error e => .error e
  | .ok dogus => answer around (sortByTables dogus (.fill o dogus))

namespace Tables

variable {o : Traversal} {t : Tables} {ps : List (Descriptor × Nat)}

/-- The entered needs of a place count for it. -/
theorem counts_foldl_enter (i : Nat) (l : List Nat) :
    (l.foldl (enter i) t).counts[i]? = t.counts[i]?.map (· + l.length) := by
  induction l generalizing t with
  | nil => simp
  | cons k l ih =>
    rw [List.foldl_cons, ih]
    show ((t.counts.modify i (· + 1))[i]?).map _ = _
    rw [List.getElem?_modify_eq, Option.map_eq_map, Option.map_map]
    congr 1
    funext n
    simp only [Function.comp_apply, List.length_cons]
    omega

/-- They do not count for other places. -/
theorem counts_foldl_enter_of_ne {i j : Nat} (h : i ≠ j) (l : List Nat) :
    (l.foldl (enter i) t).counts[j]? = t.counts[j]? := by
  induction l generalizing t with
  | nil => rfl
  | cons k l ih =>
    rw [List.foldl_cons, ih]
    show (t.counts.modify i (· + 1))[j]? = _
    simp [h]

/-- A place stands once in the table of each of its entered needs. -/
theorem users_foldl_enter (i : Nat) {l : List Nat} (hl : l.Nodup) (k : Nat) :
    (l.foldl (enter i) t).users[k]? = t.users[k]?.map (· ++ if k ∈ l then [i] else []) := by
  induction l generalizing t with
  | nil => simp
  | cons m l ih =>
    obtain ⟨hm, hl⟩ := List.nodup_cons.mp hl
    rw [List.foldl_cons, ih hl]
    show ((t.users.modify m (· ++ [i]))[k]?).map _ = _
    rw [List.getElem?_modify]
    -- the need that is entered here is not entered again
    by_cases hk : m = k
    · subst hk
      cases t.users[m]? with
      | none => rfl
      | some users => simp [hm]
    · simp [hk, Ne.symm hk]

/-- Places that are not entered keep their counts. -/
theorem counts_enterAll_of_not_mem {i : Nat} (hi : i ∉ ps.map Prod.snd) :
    (enterAll o dogus t ps).counts[i]? = t.counts[i]? := by
  induction ps generalizing t with
  | nil => rfl
  | cons p ps ih =>
    rw [List.map_cons, List.mem_cons, not_or] at hi
    show (enterAll o dogus _ ps).counts[i]? = _
    rw [ih hi.2, counts_foldl_enter_of_ne (Ne.symm hi.1)]

/-- A place that is entered once counts its needs, in whatever order they are met. -/
theorem counts_enterAll_of_mem {d : Descriptor} {i : Nat} (hps : (ps.map Prod.snd).Nodup)
    (hd : (d, i) ∈ ps) :
    (enterAll o dogus t ps).counts[i]? = t.counts[i]?.map (· + (needs dogus d).length) := by
  induction ps generalizing t with
  | nil => cases hd
  | cons p ps ih =>
    obtain ⟨hp, hps⟩ := List.nodup_cons.mp hps
    show (enterAll o dogus _ ps).counts[i]? = _
    rcases List.mem_cons.mp hd with rfl | hd
    · rw [counts_enterAll_of_not_mem hp, counts_foldl_enter, (o.perm _ _).length_eq]
    · have hne : p.2 ≠ i := by
        intro heq
        exact hp (heq ▸ List.mem_map_of_mem hd)
      rw [ih hps hd, counts_foldl_enter_of_ne hne]

/-- A place stands in the table of a need where it was entered, in whatever order its needs are met. -/
theorem users_enterAll (k : Nat) :
    (enterAll o dogus t ps).users[k]? =
      t.users[k]?.map (· ++ (ps.filter fun p => (needs dogus p.1).contains k).map Prod.snd) := by
  induction ps generalizing t with
  | nil => simp [enterAll]
  | cons p ps ih =>
    show (enterAll o dogus _ ps).users[k]? = _
    have hnodup : (o.arrange p.2 (needs dogus p.1)).Nodup :=
      (o.perm _ _).nodup_iff.mpr (nodup_needs dogus p.1)
    have hmem : k ∈ o.arrange p.2 (needs dogus p.1) ↔ k ∈ needs dogus p.1 :=
      (o.perm _ _).mem_iff
    rw [ih, users_foldl_enter _ hnodup, Option.map_map, List.filter_cons]
    congr 1
    funext users
    by_cases hk : k ∈ needs dogus p.1
    · simp [hmem, hk]
    · simp [hmem, hk]

/-- The filled tables hold the counts that the search starts from. -/
theorem counts_fill (o : Traversal) (dogus : List Descriptor) :
    (fill o dogus).counts = dogus.map fun d => (needs dogus d).length := by
  apply List.ext_getElem?
  intro i
  unfold fill
  cases hd : dogus[i]? with
  | none =>
    have hlen : dogus.length ≤ i := List.getElem?_eq_none_iff.mp hd
    have hi : i ∉ dogus.zipIdx.map Prod.snd := by
      rw [List.zipIdx_map_snd, List.mem_range'_1]
      omega
    rw [counts_enterAll_of_not_mem hi, List.getElem?_map, hd]
    exact List.getElem?_eq_none (by simpa using hlen)
  | some d =>
    have hplaces : (dogus.zipIdx.map Prod.snd).Nodup := by
      rw [List.zipIdx_map_snd]
      exact List.nodup_range'
    have hi : i < dogus.length := (List.getElem?_eq_some_iff.mp hd).1
    rw [counts_enterAll_of_mem hplaces (List.mem_zipIdx_iff_getElem?.mpr hd), List.getElem?_map, hd,
      List.getElem?_replicate_of_lt hi]
    simp

/-- The filled tables hold the dependents of every place. -/
theorem users_fill (o : Traversal) (dogus : List Descriptor) (i : Nat) :
    (fill o dogus).users[i]?.getD [] = dependents dogus i := by
  unfold fill
  rw [users_enterAll]
  by_cases hi : i < dogus.length
  · rw [List.getElem?_replicate_of_lt hi]
    rfl
  · have hnone : dependents dogus i = [] := by
      apply List.eq_nil_iff_forall_not_mem.mpr
      intro j hj
      obtain ⟨e, _, hneed⟩ := mem_dependents.mp hj
      obtain ⟨simple, _, hindex⟩ := mem_needs.mp hneed
      obtain ⟨p, hp, _⟩ := getElem?_of_lastIndex? hindex
      exact hi (List.getElem?_eq_some_iff.mp hp).1
    rw [List.getElem?_eq_none (by simpa using hi), hnone]
    rfl

end Tables

theorem advances_fill (o : Traversal) (dogus : List Descriptor) (fuel : Nat) (s : Stage) :
    Stage.advances dogus (.fill o dogus) fuel s = Stage.run dogus fuel s := by
  have hstep : ∀ s : Stage, s.advance dogus (.fill o dogus) = s.next dogus := by
    intro s
    unfold Stage.advance Stage.next
    cases s.ready with
    | nil => rfl
    | cons first rest =>
      dsimp only
      rw [Tables.users_fill]
  induction fuel generalizing s with
  | zero => rfl
  | succ fuel ih =>
    rw [Stage.advances, Stage.run, hstep]
    cases s.next dogus with
    | some s => exact ih s
    | none => rfl

/-- The search by tables finds what the search finds. -/
theorem sortByTables_fill (o : Traversal) (dogus : List Descriptor) :
    sortByTables dogus (.fill o dogus) = sortByDependencies dogus := by
  unfold sortByTables
  simp only [advances_fill, Tables.counts_fill]
  rfl

/-- The answer does not depend on the order in which the sets of dependencies are met. -/
theorem generateAlong_eq (o : Traversal) (registry : Registry) (around : Surroundings)
    (requests : List Request) :
    generateAlong o registry around requests = generate registry around requests := by
  unfold generateAlong
  cases h : resolve registry requests with
  | error e => exact (generate_of_unresolved h).symm
  | ok dogus =>
    dsimp only
    rw [sortByTables_fill, generate_of_resolve h]

/-! ## The same answer -/

/-- Requests in another order get the same answer, and so they do if sets of components or of
dependencies are met in another order; for the same requests it is then the very same answer, that of
`generate`. -/
theorem same_answer_of_perm {registry : Registry} (hr : registry.Standard)
    {requests requests' : List Request} (hperm : requests.Perm requests')
    {around around' : Surroundings} (hsame : around.SameMembers around') (o o' : Traversal) :
    SameAnswer (generateAlong o registry around requests)
        (generateAlong o' registry around' requests') ∧
      generateAlong o registry around requests = generateAlong o' registry around' requests ∧
      generateAlong o registry around requests = generate registry around requests := by
  have haround := generate_congr hsame registry
  refine ⟨?_, ?_, generateAlong_eq o registry around requests⟩
  · rw [generateAlong_eq, generateAlong_eq, ← haround requests']
    exact sameAnswer_of_perm hr.faithful hperm around
  · rw [generateAlong_eq, generateAlong_eq]
    exact haround requests

/-- The tracker and what it needs, requested in two orders. -/
theorem same_answer_of_perm_tracker :
    let requests : List Request := tracker.map fun d => ⟨d.name, none⟩
    let around : Surroundings := ⟨["k8s-loki", "k8s-minio"], ["k8s-loki"]⟩
    let around' : Surroundings := ⟨["k8s-minio", "k8s-loki"], ["k8s-loki", "k8s-loki"]⟩
    let forward : Traversal := ⟨fun _ l => l, fun _ l => .refl l⟩
    let backward : Traversal := ⟨fun _ l => l.reverse, fun _ l => l.reverse_perm⟩
    requests.Perm requests.reverse ∧ around.SameMembers around' ∧
      SameAnswer (generateAlong forward (.ofList tracker) around requests)
        (generateAlong backward (.ofList tracker) around' requests.reverse) ∧
      generate (.ofList tracker) around requests =
        .ok ([3, 1, 2, 0].filterMap fun i => tracker[i]?.map .installDogu) := by
  intro requests around around' forward backward
  have hperm : requests.Perm requests.reverse := requests.reverse_perm.symm
  have hsame : around.SameMembers around' := by
    refine ⟨?_, ?_⟩
    · intro c
      simp only [around, around', List.mem_cons]
      rw [or_left_comm]
    · intro c
      simp [around, around']
  refine ⟨hperm, hsame, ?_, by decide +kernel⟩
  exact (same_answer_of_perm (.ofList tracker) hperm hsame forward backward).1

end EcosystemSetup.Plan

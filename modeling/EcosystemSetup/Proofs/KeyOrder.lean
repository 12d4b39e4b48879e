import EcosystemSetup.Assoc
import Mathlib.Data.List.Induction
import Mathlib.Data.String.Basic

/-!
# Association lists that are in key order

An association list is sorted when its keys ascend strictly, so that no key occurs twice. Setting a
key keeps a list sorted, and of a sorted list the value of a key is what its entry says. Every map of
the model is built by `set` from the empty list.
-/

namespace EcosystemSetup.Assoc

variable {α : Type}

/-- The keys ascend strictly. -/
def Sorted (m : List (String × α)) : Prop :=
  m.Pairwise fun p q => p.1 < q.1

theorem sorted_nil : Sorted ([] : List (String × α)) :=
  List.Pairwise.nil

/-- An entry of a map after setting a key is the new one or an old one. -/
theorem mem_of_mem_set {key : String} {value : α} {m : List (String × α)} {p : String × α}
    (h : p ∈ set key value m) : p = (key, value) ∨ p ∈ m := by
  induction m with
  | nil =>
    simp only [set, List.mem_singleton] at h
    exact Or.inl h
  | cons q rest ih =>
    obtain ⟨k, v⟩ := q
    -- the key stands here, or before this entry, or further on
    by_cases h₁ : key = k
    · subst h₁
      simp only [set, if_true, List.mem_cons] at h
      rcases h with h | h
      · exact Or.inl h
      · exact Or.inr (List.mem_cons_of_mem _ h)
    · by_cases h₂ : key < k
      · simp only [set, h₁, h₂, if_false, if_true, List.mem_cons] at h
        simpa using h
      · simp only [set, h₁, h₂, if_false, List.mem_cons] at h
        rcases h with rfl | h
        · exact Or.inr List.mem_cons_self
        · rcases ih h with h | h
          · exact Or.inl h
          · exact Or.inr (List.mem_cons_of_mem _ h)

theorem mem_set_self (key : String) (value : α) (m : List (String × α)) :
    (key, value) ∈ set key value m := by
  induction m with
  | nil => simp [set]
  | cons q rest ih =>
    obtain ⟨k, v⟩ := q
    by_cases h₁ : key = k
    · subst h₁
      simp [set]
    · by_cases h₂ : key < k
      · simp [set, h₁, h₂]
      · simp [set, h₁, h₂, ih]

/-- Setting a key leaves the entries of all others. -/
theorem mem_set_of_ne {key : String} {value : α} {m : List (String × α)} {p : String × α}
    (h : p ∈ m) (hne : p.1 ≠ key) : p ∈ set key value m := by
  induction m with
  | nil => simp at h
  | cons q rest ih =>
    obtain ⟨k, v⟩ := q
    by_cases h₁ : key = k
    · -- the entry that is replaced is not this one
      subst h₁
      rcases List.mem_cons.mp h with rfl | h
      · exact absurd rfl hne
      · simp [set, h]
    · by_cases h₂ : key < k
      · simp only [set, h₁, h₂, if_false, if_true]
        exact List.mem_cons_of_mem _ h
      · simp only [set, h₁, h₂, if_false, List.mem_cons]
        rcases List.mem_cons.mp h with h | h
        · exact Or.inl h
        · exact Or.inr (ih h)

/-- Of two values that are set for one key, the second one counts. -/
theorem set_set (key : String) (value earlier : α) (m : List (String × α)) :
    set key value (set key earlier m) = set key value m := by
  induction m with
  | nil => simp [set]
  | cons q rest ih =>
    obtain ⟨k, v⟩ := q
    by_cases h₁ : key = k
    · simp [set, h₁]
    · by_cases h₂ : key < k
      · simp [set, h₁, h₂]
      · simp [set, h₁, h₂, ih]

/-- Setting the lower one of two keys commutes with setting the higher one. -/
theorem set_comm_of_lt {key higher : String} (h : key < higher) (value other : α)
    (m : List (String × α)) :
    set key value (set higher other m) = set higher other (set key value m) := by
  have hne : higher ≠ key := ne_of_gt h
  have hnot : ¬ higher < key := not_lt_of_gt h
  induction m with
  | nil => simp [set, h, ne_of_lt h, hne, hnot]
  | cons q rest ih =>
    obtain ⟨k, v⟩ := q
    -- the place of the lower key is before that of the higher one
    rcases lt_trichotomy higher k with hhigh | rfl | hhigh
    · have hlow : key < k := lt_trans h hhigh
      simp [set, h, hhigh, hlow, ne_of_lt h, ne_of_lt hhigh, ne_of_lt hlow, hne, hnot]
    · simp [set, h, ne_of_lt h, hne, hnot]
    · rcases lt_trichotomy key k with hlow | rfl | hlow
      · simp [set, hlow, ne_of_lt hlow, ne_of_gt hhigh, not_lt_of_gt hhigh, hne, hnot]
      · simp [set, hne, hnot]
      · simp [set, ne_of_gt hhigh, not_lt_of_gt hhigh, ne_of_gt hlow, not_lt_of_gt hlow, ih]

/-- Setting a key keeps a map sorted. -/
theorem Sorted.set {m : List (String × α)} (hm : Sorted m) (key : String) (value : α) :
    Sorted (set key value m) := by
  induction m with
  | nil => exact List.pairwise_singleton _ _
  | cons q rest ih =>
    obtain ⟨k, v⟩ := q
    have hlow : ∀ p ∈ rest, k < p.1 := fun p hp => List.rel_of_pairwise_cons hm hp
    have hrest : Sorted rest := List.Pairwise.of_cons hm
    -- the same three places; only the last one goes on with the induction
    by_cases h₁ : key = k
    · subst h₁
      simp only [Assoc.set, if_true]
      exact List.Pairwise.cons hlow hrest
    · by_cases h₂ : key < k
      · simp only [Assoc.set, h₁, h₂, if_false, if_true]
        refine List.Pairwise.cons ?_ hm
        intro p hp
        rcases List.mem_cons.mp hp with rfl | hp
        · exact h₂
        · exact lt_trans h₂ (hlow p hp)
      · simp only [Assoc.set, h₁, h₂, if_false]
        have hk : k < key := lt_of_le_of_ne (not_lt.mp h₂) (Ne.symm h₁)
        refine List.Pairwise.cons ?_ (ih hrest)
        intro p hp
        rcases mem_of_mem_set hp with rfl | hp
        · exact hk
        · exact hlow p hp

theorem foldl_set_sorted {pairs m : List (String × α)} (hm : Sorted m) :
    Sorted (pairs.foldl (fun m p => Assoc.set p.1 p.2 m) m) := by
  induction pairs generalizing m with
  | nil => exact hm
  | cons p rest ih => exact ih (hm.set p.1 p.2)

theorem foldl_set_mem {pairs m : List (String × α)} {p : String × α}
    (h : p ∈ pairs.foldl (fun m p => Assoc.set p.1 p.2 m) m) : p ∈ pairs ∨ p ∈ m := by
  -- the map grows along the list, so it is general in the induction
  induction pairs generalizing m with
  | nil => exact Or.inr h
  | cons q rest ih =>
    rcases ih h with h | h
    · exact Or.inl (List.mem_cons_of_mem _ h)
    · rcases mem_of_mem_set h with rfl | h
      · exact Or.inl List.mem_cons_self
      · exact Or.inr h

/-- An entry survives a list of pairs among which no other has its key. -/
theorem mem_foldl_set {pairs m : List (String × α)} {p : String × α} (h : p ∈ pairs ∨ p ∈ m)
    (honly : ∀ q ∈ pairs, q.1 = p.1 → q = p) :
    p ∈ pairs.foldl (fun m p => Assoc.set p.1 p.2 m) m := by
  induction pairs generalizing m with
  | nil => simpa using h
  | cons q rest ih =>
    have hrest : ∀ r ∈ rest, r.1 = p.1 → r = p := fun r hr => honly r (List.mem_cons_of_mem _ hr)
    refine ih ?_ hrest
    by_cases hq : q.1 = p.1
    · have hsame : q = p := honly q List.mem_cons_self hq
      exact Or.inr (hsame ▸ mem_set_self q.1 q.2 m)
    · rcases h with h | h
      · rcases List.mem_cons.mp h with rfl | h
        · exact absurd rfl hq
        · exact Or.inl h
      · exact Or.inr (mem_set_of_ne h (Ne.symm hq))

theorem sorted_ofList (pairs : List (String × α)) : Sorted (ofList pairs) :=
  foldl_set_sorted sorted_nil

theorem mem_of_mem_ofList {pairs : List (String × α)} {p : String × α} (h : p ∈ ofList pairs) :
    p ∈ pairs := by
  rcases foldl_set_mem h with h | h
  · exact h
  · simp at h

theorem mem_ofList {pairs : List (String × α)} {p : String × α} (h : p ∈ pairs)
    (honly : ∀ q ∈ pairs, q.1 = p.1 → q = p) : p ∈ ofList pairs :=
  mem_foldl_set (Or.inl h) honly

/-- What a map says of a key stands in one of its entries. -/
theorem mem_of_get? {key : String} {value : α} {m : List (String × α)}
    (h : get? key m = some value) : (key, value) ∈ m := by
  induction m with
  | nil => simp [get?] at h
  | cons q rest ih =>
    obtain ⟨k, v⟩ := q
    by_cases hk : k = key
    · subst hk
      simp only [get?, if_true, Option.some.injEq] at h
      simp [h]
    · simp only [get?, hk, if_false] at h
      exact List.mem_cons_of_mem _ (ih h)

/-- Of a sorted map, the value of a key is what its entry says. -/
theorem Sorted.get?_of_mem {m : List (String × α)} (hm : Sorted m) {p : String × α} (hp : p ∈ m) :
    get? p.1 m = some p.2 := by
  induction m with
  | nil => simp at hp
  | cons q rest ih =>
    obtain ⟨k, v⟩ := q
    rcases List.mem_cons.mp hp with rfl | hp
    · simp [get?]
    · -- the first key is lower than that of any later entry
      have hlow : k < p.1 := List.rel_of_pairwise_cons hm hp
      rw [get?, if_neg (ne_of_lt hlow)]
      exact ih (List.Pairwise.of_cons hm) hp

theorem set_eq_append {key : String} {value : α} {m : List (String × α)} (h : ∀ p ∈ m, p.1 < key) :
    set key value m = m ++ [(key, value)] := by
  induction m with
  | nil => rfl
  | cons q rest ih =>
    obtain ⟨k, v⟩ := q
    obtain ⟨hk, hrest⟩ := List.forall_mem_cons.mp h
    rw [set, if_neg (ne_of_gt hk), if_neg (not_lt_of_gt hk), ih hrest, List.cons_append]

/-- A sorted map is the map of its entries. -/
theorem Sorted.ofList_eq {m : List (String × α)} (h : Sorted m) : ofList m = m := by
  unfold ofList
  -- from the end: the last key is the highest
  induction m using List.reverseRecOn with
  | nil => rfl
  | append_singleton rest q ih =>
    obtain ⟨hrest, -, hlast⟩ := List.pairwise_append.mp h
    rw [List.foldl_concat, ih hrest]
    exact set_eq_append fun p hp => hlast p hp q (List.mem_singleton_self q)

/-- Of a sorted map, the entries after setting a key are the new one and those of other keys. -/
theorem Sorted.mem_set_iff {key : String} {value : α} {m : List (String × α)} {p : String × α}
    (hm : Sorted m) : p ∈ Assoc.set key value m ↔ p = (key, value) ∨ p ∈ m ∧ p.1 ≠ key := by
  constructor
  · intro h
    by_cases hp : p.1 = key
    · have hvalue := (hm.set key value).get?_of_mem h
      rw [hp, get?_set_self, Option.some.injEq] at hvalue
      exact Or.inl (Prod.ext hp hvalue.symm)
    · rcases mem_of_mem_set h with rfl | h
      · exact absurd rfl hp
      · exact Or.inr ⟨h, hp⟩
  · rintro (rfl | ⟨h, hp⟩)
    · exact mem_set_self _ _ _
    · exact mem_set_of_ne h hp

theorem foldl_set_mem_iff {pairs m : List (String × α)} {p : String × α} (hm : Sorted m) :
    p ∈ pairs.foldl (fun m p => Assoc.set p.1 p.2 m) m ↔
      (∃ before after, pairs = before ++ p :: after ∧ ∀ q ∈ after, q.1 ≠ p.1) ∨
        p ∈ m ∧ ∀ q ∈ pairs, q.1 ≠ p.1 := by
  induction pairs generalizing m with
  | nil => simp
  | cons x rest ih =>
    rw [List.foldl_cons, ih (hm.set x.1 x.2), hm.mem_set_iff]
    constructor
    · rintro (⟨before, after, rfl, hlast⟩ | ⟨rfl | ⟨hp, hx⟩, hrest⟩)
      · exact Or.inl ⟨x :: before, after, rfl, hlast⟩
      · exact Or.inl ⟨[], rest, rfl, hrest⟩
      · exact Or.inr ⟨hp, List.forall_mem_cons.mpr ⟨Ne.symm hx, hrest⟩⟩
    · rintro (⟨before, after, hsplit, hlast⟩ | ⟨hp, hall⟩)
      · cases before with
        | nil =>
          rw [List.nil_append, List.cons.injEq] at hsplit
          obtain ⟨rfl, rfl⟩ := hsplit
          exact Or.inr ⟨Or.inl rfl, hlast⟩
        | cons y before =>
          rw [List.cons_append, List.cons.injEq] at hsplit
          exact Or.inl ⟨before, after, hsplit.2, hlast⟩
      · obtain ⟨hx, hrest⟩ := List.forall_mem_cons.mp hall
        exact Or.inr ⟨Or.inr ⟨hp, Ne.symm hx⟩, hrest⟩

/-- The map of a list of pairs has the last pair of each key. -/
theorem mem_ofList_iff {pairs : List (String × α)} {p : String × α} :
    p ∈ ofList pairs ↔ ∃ before after, pairs = before ++ p :: after ∧ ∀ q ∈ after, q.1 ≠ p.1 := by
  unfold ofList
  rw [foldl_set_mem_iff sorted_nil]
  simp

end EcosystemSetup.Assoc

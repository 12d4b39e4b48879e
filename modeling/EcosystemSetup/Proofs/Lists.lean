import Mathlib.Data.List.Forall2

/-!
# Lists

What the theory needs to know about lists of any kind: lists without repetitions, lists from their
places, an element that stands in one of two consecutive lists, and lists whose elements are all read.
-/

namespace EcosystemSetup.Lists

variable {α β : Type}

/-- Removing repetitions leaves every element once. -/
theorem nodup_eraseDups [BEq α] [LawfulBEq α] (l : List α) : l.eraseDups.Nodup := by
  match l with
  | [] => simp
  | a :: rest =>
    rw [List.eraseDups_cons, List.nodup_cons]
    have hlen : (rest.filter fun b => !b == a).length ≤ rest.length := List.length_filter_le _ _
    refine ⟨?_, nodup_eraseDups _⟩
    simp [List.mem_eraseDups]
termination_by l.length
decreasing_by simp only [List.length_cons]; omega

/-- Looking up all places gives the list back. -/
theorem filterMap_getElem?_range (l : List α) :
    (List.range l.length).filterMap (l[·]?) = l := by
  have hall : (List.range l.length).map (l[·]?) = l.map some := by
    refine List.ext_getElem (by simp) ?_
    intro i h₁ h₂
    have hi : i < l.length := by simpa using h₁
    simp [hi]
  calc (List.range l.length).filterMap (l[·]?)
      = ((List.range l.length).map (l[·]?)).filterMap id := by rw [List.filterMap_map]; rfl
    _ = (l.map some).filterMap id := by rw [hall]
    _ = l := by simp

/-- An element of two consecutive lists stands in the first or in the second. -/
theorem split_of_append_eq {first second before after : List α} {x : α}
    (h : first ++ second = before ++ x :: after) :
    (∃ rest, first = before ++ x :: rest) ∨
      ∃ skipped, before = first ++ skipped ∧ second = skipped ++ x :: after := by
  rw [List.append_eq_append_iff] at h
  rcases h with ⟨skipped, hbefore, hsecond⟩ | ⟨rest, hfirst, hrest⟩
  · exact Or.inr ⟨skipped, hbefore, hsecond⟩
  · cases rest with
    | nil =>
      rw [List.append_nil] at hfirst
      rw [List.nil_append] at hrest
      exact Or.inr ⟨[], by simp [hfirst], by simp [hrest]⟩
    | cons y rest =>
      rw [List.cons_append, List.cons.injEq] at hrest
      exact Or.inl ⟨rest, hrest.1 ▸ hfirst⟩

/-- A function leaves a list as it is if it leaves every element as it is. -/
theorem map_eq_self_iff {f : α → α} {xs : List α} : xs.map f = xs ↔ ∀ x ∈ xs, f x = x := by
  rw [← List.map_inj_left, List.map_id']

/-! ## Reading all elements -/

variable {f : α → Option β} {xs : List α} {ys : List β}

theorem mapM_eq_some_iff :
    xs.mapM f = some ys ↔ List.Forall₂ (fun x y => f x = some y) xs ys := by
  induction xs generalizing ys with
  | nil => simp [eq_comm]
  | cons x rest ih =>
    rw [List.mapM_cons, List.forall₂_cons_left_iff]
    cases f x with
    | none => simp
    | some y => cases hrest : rest.mapM f <;> simp [← ih, hrest, eq_comm]

/-- Not all elements are read if one of them is not. -/
theorem mapM_eq_none_iff : xs.mapM f = none ↔ ∃ x ∈ xs, f x = none := by
  induction xs with
  | nil => simp
  | cons x rest ih =>
    rw [List.mapM_cons, List.exists_mem_cons_iff, ← ih]
    cases f x with
    | none => simp
    | some y => cases rest.mapM f <;> simp

/-- What holds of everything that is read holds of all that was read. -/
theorem forall_of_mapM {P : β → Prop} (h : xs.mapM f = some ys)
    (hP : ∀ x ∈ xs, ∀ y, f x = some y → P y) : ∀ y ∈ ys, P y := by
  have hread := mapM_eq_some_iff.mp h
  clear h
  induction hread with
  | nil => simp
  | cons hfirst _ ih =>
    obtain ⟨hx, hrest⟩ := List.forall_mem_cons.mp hP
    exact List.forall_mem_cons.mpr ⟨hx _ hfirst, ih hrest⟩

/-- Elements that are each read back are read back together. -/
theorem mapM_map_eq_some {g : β → α} (h : ∀ y ∈ ys, f (g y) = some y) :
    (ys.map g).mapM f = some ys := by
  rw [mapM_eq_some_iff, List.forall₂_map_left_iff, List.forall₂_same]
  exact h

end EcosystemSetup.Lists

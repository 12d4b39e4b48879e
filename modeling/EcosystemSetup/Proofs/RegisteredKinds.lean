import EcosystemSetup.Cluster.Hub
import EcosystemSetup.Proofs.KeyOrder

/-!
# Hubs with registered kinds

A hub in memory knows the kinds that were registered with it, and no others. It keeps them under the
text of their names, which tells two kinds apart if no part of their names has a slash.
-/

namespace EcosystemSetup.Cluster

/-! ## Names and their texts -/

namespace KindName

/-- No part of the name has a slash. -/
structure Plain (k : KindName) : Prop where
  group : '/' ∉ k.group.toList
  version : '/' ∉ k.version.toList
  kind : '/' ∉ k.kind.toList

/-- The text of a name by its characters. -/
theorem toList_key (k : KindName) :
    k.key.toList = (if k.group = "" then [] else k.group.toList ++ ['/']) ++
      k.version.toList ++ '/' :: k.kind.toList := by
  unfold key apiVersion
  split <;> simp

/-- What stands before and behind the first slash. -/
theorem cut_unique {a b x y : List Char} (ha : '/' ∉ a) (hb : '/' ∉ b)
    (h : a ++ '/' :: x = b ++ '/' :: y) : a = b ∧ x = y := by
  have hcut := Text.splitFirst_append x ha
  rw [h, Text.splitFirst_append y hb, Option.some.injEq, Prod.mk.injEq] at hcut
  exact ⟨hcut.1.symm, hcut.2.symm⟩

/-- The text of a plain name tells the name. -/
theorem Plain.eq_of_key {k l : KindName} (hk : k.Plain) (hl : l.Plain) (h : k.key = l.key) :
    k = l := by
  obtain ⟨group, version, kind⟩ := k
  obtain ⟨otherGroup, otherVersion, otherKind⟩ := l
  have htext := congrArg String.toList h
  simp only [toList_key] at htext
  by_cases hgroup : group = "" <;> by_cases hother : otherGroup = ""
  · subst hgroup hother
    simp only [if_true, List.nil_append] at htext
    obtain ⟨hversion, hkind⟩ := cut_unique hk.version hl.version htext
    rw [KindName.mk.injEq]
    exact ⟨rfl, String.toList_inj.mp hversion, String.toList_inj.mp hkind⟩
  · -- one name has two slashes, the other has one
    simp only [hgroup, hother, if_true, if_false, List.nil_append, List.append_assoc,
      List.cons_append] at htext
    obtain ⟨-, hkind⟩ := cut_unique hk.version hl.group htext
    exact absurd (hkind ▸ by simp : '/' ∈ kind.toList) hk.kind
  · simp only [hgroup, hother, if_true, if_false, List.nil_append, List.append_assoc,
      List.cons_append] at htext
    obtain ⟨-, hkind⟩ := cut_unique hk.group hl.version htext
    exact absurd (hkind ▸ by simp : '/' ∈ otherKind.toList) hl.kind
  · simp only [hgroup, hother, if_false, List.append_assoc, List.cons_append,
      List.nil_append] at htext
    obtain ⟨hgroups, hrest⟩ := cut_unique hk.group hl.group htext
    obtain ⟨hversion, hkind⟩ := cut_unique hk.version hl.version hrest
    rw [KindName.mk.injEq]
    exact ⟨String.toList_inj.mp hgroups, String.toList_inj.mp hversion, String.toList_inj.mp hkind⟩

end KindName

/-! ## Registered kinds -/

namespace Hub

/-- A hub with kinds that are registered one after another. -/
def ofKinds (served : List ServedKind) : Hub :=
  served.foldl (fun h t => h.register t.name t.namespaced) {}

theorem kinds_ofKinds (served : List ServedKind) :
    (ofKinds served).kinds = Assoc.ofList (served.map fun t => (t.name.key, t.namespaced)) := by
  unfold ofKinds Assoc.ofList
  rw [List.foldl_map]
  -- the hub grows along the list, so it is general in the induction
  suffices hfold : ∀ h : Hub,
      (served.foldl (fun h t => h.register t.name t.namespaced) h).kinds =
        served.foldl (fun m t => Assoc.set t.name.key t.namespaced m) h.kinds from hfold {}
  induction served with
  | nil => exact fun h => rfl
  | cons t rest ih => exact fun h => ih (h.register t.name t.namespaced)

/-- A registered kind is found with its scope, if no other scope was registered under its text. -/
theorem resolve_of_mem {served : List ServedKind} {t : ServedKind} (ht : t ∈ served)
    (hscope : ∀ u ∈ served, u.name.key = t.name.key → u.namespaced = t.namespaced) :
    (ofKinds served).resolve t.name =
      .ok ⟨t.name, t.name.apiVersion, pluralOf t.name.kind, t.namespaced⟩ := by
  have hmem : (t.name.key, t.namespaced) ∈ (ofKinds served).kinds := by
    rw [kinds_ofKinds]
    refine Assoc.mem_ofList (List.mem_map.mpr ⟨t, ht, rfl⟩) ?_
    intro q hq hkey
    obtain ⟨u, hu, rfl⟩ := List.mem_map.mp hq
    exact Prod.ext hkey (hscope u hu hkey)
  have hsorted : Assoc.Sorted (ofKinds served).kinds := by
    rw [kinds_ofKinds]
    exact Assoc.sorted_ofList _
  rw [resolve, hsorted.get?_of_mem hmem]

/-- A kind is not found if none was registered under its text. -/
theorem resolve_of_not_mem {served : List ServedKind} {k : KindName}
    (h : ∀ t ∈ served, t.name.key ≠ k.key) :
    (ofKinds served).resolve k = .error (.notFound ("resource type " ++ k.key)) := by
  unfold resolve
  cases hfound : Assoc.get? k.key (ofKinds served).kinds with
  | none => rfl
  | some namespaced =>
    have hmem := Assoc.mem_of_get? hfound
    rw [kinds_ofKinds] at hmem
    obtain ⟨t, ht, hpair⟩ := List.mem_map.mp (Assoc.mem_of_mem_ofList hmem)
    exact absurd (congrArg Prod.fst hpair) (h t ht)

end Hub

end EcosystemSetup.Cluster

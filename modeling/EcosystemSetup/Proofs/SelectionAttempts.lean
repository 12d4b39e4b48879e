import EcosystemSetup.Proofs.Interleaving
import EcosystemSetup.Setup.Step

/-!
# Attempts to store the selection of dogus

A setup reads the config map of the dogus and writes it back with its selection, or creates it; other
clients may store the map at any time in between. As long as every stored map has a version that is not
handed out again, the version of the map that was read tells whether somebody has: the write gets
through exactly if nobody has, and so it changes what is stored right before it.
-/

namespace EcosystemSetup

open Cluster

/-! ## Stored maps -/

/-- The config map that a successful write has stored. -/
def Program.Action.stored? : Program.Action → Option (Object .configMaps)
  | .called (.create .configMaps _) (.ok q) => some q
  | .called (.update .configMaps _) (.ok q) => some q
  | _ => none

/-- A successful write has stored a config map of a name. -/
def Program.Action.Stores (name : String) (action : Program.Action) : Prop :=
  ∃ q, action.stored? = some q ∧ q.name = name

theorem Program.Action.stored?_error (k : Call) (e : AccessError) :
    (Program.Action.called k (.error e)).stored? = none := by
  cases k with
  | create c o => cases c <;> rfl
  | update c o => cases c <;> rfl
  | _ => rfl

theorem Program.Action.stored?_elsewhere {k : Call} (h : k.collection? ≠ some .configMaps)
    (reply : k.Reply) : (Program.Action.called k reply).stored? = none := by
  cases k with
  | create c o =>
    cases c with
    | configMaps => exact absurd rfl h
    | _ => rfl
  | update c o =>
    cases c with
    | configMaps => exact absurd rfl h
    | _ => rfl
  | _ => rfl

/-- An action stores a stamped object, or it leaves all objects and the revision. -/
theorem Answered.stored_cases {s t : Store .configMaps} {action : Program.Action} {faulted : Bool}
    (h : Answered s action faulted t) :
    (action.stored? = none ∧ t.objects = s.objects ∧ t.revision = s.revision) ∨
      ∃ o, action.stored? = some (s.stamped o) ∧
        Store.Written s o (.ok (s.stamped o), t) ∧ t.revision = s.revision + 1 := by
  cases h with
  | fault own e => exact Or.inl ⟨Program.Action.stored?_error _ e, rfl, rfl⟩
  | elsewhere other reply => exact Or.inl ⟨Program.Action.stored?_elsewhere other reply, rfl, rfl⟩
  | get name => exact Or.inl ⟨rfl, Store.objects_get name, Store.revision_countRead _⟩
  | list selector => exact Or.inl ⟨rfl, Store.objects_list selector, Store.revision_countRead _⟩
  | watch selector version =>
    exact Or.inl ⟨rfl, Store.objects_watch selector version, Store.revision_watch selector version⟩
  | create o =>
    rcases s.create_cases o with ⟨_, hcreate⟩ | ⟨_, hcreate⟩
    · rw [hcreate]
      exact Or.inl ⟨rfl, rfl, rfl⟩
    · rw [hcreate]
      exact Or.inr ⟨o, rfl, .filed rfl rfl, rfl⟩
  | update o =>
    rcases s.update_cases o with ⟨_, hupdate⟩ | ⟨_, _, _, _, hupdate⟩ | ⟨_, _, _, hupdate⟩
    · rw [hupdate]
      exact Or.inl ⟨rfl, rfl, rfl⟩
    · rw [hupdate]
      exact Or.inl ⟨rfl, rfl, rfl⟩
    · rw [hupdate]
      exact Or.inr ⟨o, rfl, .filed rfl rfl, rfl⟩
  | awaited goal outcome => exact Or.inl ⟨rfl, rfl, rfl⟩
  | looked cancelled => exact Or.inl ⟨rfl, rfl, rfl⟩
  | timed text => exact Or.inl ⟨rfl, rfl, rfl⟩

namespace Setup

/-! ## Versions that are not handed out again -/

/-- A map with a version that no write after a revision hands out. -/
def Unrepeated (bound : Nat) (m : Object .configMaps) : Prop :=
  ∃ v, m.metadata.resourceVersion = some v ∧ ∀ n, bound < n → v ≠ toString n

theorem Unrepeated.mono {bound later : Nat} {m : Object .configMaps} (h : Unrepeated bound m)
    (hle : bound ≤ later) : Unrepeated later m := by
  obtain ⟨v, hv, hfresh⟩ := h
  exact ⟨v, hv, fun n hn => hfresh n (by omega)⟩

theorem unrepeated_stamped (s : Store .configMaps) (o : Object .configMaps) :
    Unrepeated (s.revision + 1) (s.stamped o) := by
  refine ⟨toString (s.revision + 1), rfl, ?_⟩
  intro n hn hsame
  have heq : s.revision + 1 = n := eq_of_toString_eq hsame
  omega

/-- A store whose map, if there is one, has a version that is not handed out again. -/
structure Kept (s : Store .configMaps) : Prop where
  filed : s.Filed
  unrepeated : ∀ m, s.object? configMapName = some m → Unrepeated s.revision m

variable {s t : Store .configMaps} {action : Program.Action} {faulted : Bool}

/-- Every action keeps a store so. It leaves the map, or it stores one with the next number. -/
theorem Kept.answered (h : Kept s) (hanswered : Answered s action faulted t) :
    Kept t ∧ s.revision ≤ t.revision ∧
      ((t.object? configMapName = s.object? configMapName ∧ ¬ action.Stores configMapName) ∨
        action.Stores configMapName ∧ ∃ p, t.object? configMapName = some p ∧
          p.metadata.resourceVersion = some (toString (s.revision + 1))) := by
  rcases hanswered.stored_cases with ⟨hnone, hobjects, hrevision⟩ | ⟨o, hstored, hwritten, hrevision⟩
  · have hsame := Store.object?_congr hobjects configMapName
    refine ⟨⟨h.filed.of_objects hobjects, ?_⟩, Nat.le_of_eq hrevision.symm, Or.inl ⟨hsame, ?_⟩⟩
    · rw [hsame, hrevision]
      exact h.unrepeated
    · rintro ⟨q, hq, _⟩
      rw [hnone] at hq
      cases hq
  · have hle : s.revision ≤ t.revision := by omega
    by_cases hname : configMapName = o.name
    · have hself : t.object? configMapName = some (s.stamped o) := hname ▸ hwritten.object?_self rfl
      refine ⟨⟨hwritten.keeps_filed h.filed, ?_⟩, hle,
        Or.inr ⟨⟨_, hstored, hname.symm⟩, _, hself, rfl⟩⟩
      intro m hm
      rw [hself, Option.some.injEq] at hm
      rw [← hm, hrevision]
      exact unrepeated_stamped s o
    · have hsame : t.object? configMapName = s.object? configMapName := hwritten.object?_ne hname
      refine ⟨⟨hwritten.keeps_filed h.filed, ?_⟩, hle, Or.inl ⟨hsame, ?_⟩⟩
      · intro m hm
        rw [hsame] at hm
        exact (h.unrepeated m hm).mono hle
      · rintro ⟨q, hq, hqname⟩
        rw [hstored, Option.some.injEq] at hq
        subst hq
        exact hname hqname.symm

/-- A map that is there stays there, if not as it is. -/
theorem Kept.exists_map (h : Kept s) (hanswered : Answered s action faulted t)
    (hmap : ∃ m, s.object? configMapName = some m) : ∃ m, t.object? configMapName = some m := by
  obtain ⟨_, _, ⟨hsame, _⟩ | ⟨_, p, hp, _⟩⟩ := h.answered hanswered
  · exact hsame ▸ hmap
  · exact ⟨p, hp⟩

/-! ## A map that was read -/

/-- How a map that was read stands: nobody has stored another since and it is still there, or somebody
has, and the one that is there now has another version. -/
structure Followed (m : Object .configMaps) (since : Log) (s : Store .configMaps) : Prop where
  unrepeated : Unrepeated s.revision m
  stands :
    (s.object? configMapName = some m ∧ ∀ x ∈ since, ¬ x.2.action.Stores configMapName) ∨
      (∃ p v, s.object? configMapName = some p ∧ p.metadata.resourceVersion = some v ∧
          m.metadata.resourceVersion ≠ some v) ∧
        ∃ x ∈ since, x.2.action.Stores configMapName

theorem followed_nil (h : Kept s) {m : Object .configMaps}
    (hm : s.object? configMapName = some m) : Followed m [] s where
  unrepeated := h.unrepeated m hm
  stands := Or.inl ⟨hm, by simp⟩

/-- One more action of whomever. -/
theorem Followed.answered {m : Object .configMaps} {since : Log} (h : Followed m since s)
    (hs : Kept s) (i : Nat) (hanswered : Answered s action faulted t) :
    Followed m (since ++ [(i, ⟨action, faulted⟩)]) t := by
  obtain ⟨_, hle, hmap⟩ := hs.answered hanswered
  refine ⟨h.unrepeated.mono hle, ?_⟩
  rcases hmap with ⟨hsame, hnot⟩ | ⟨hstores, p, hp, hversion⟩
  · rw [hsame]
    rcases h.stands with ⟨hm, hquiet⟩ | ⟨hother, x, hx, hmoved⟩
    · refine Or.inl ⟨hm, ?_⟩
      intro x hx
      rcases List.mem_append.mp hx with hx | hx
      · exact hquiet x hx
      · rw [List.mem_singleton.mp hx]
        exact hnot
    · exact Or.inr ⟨hother, x, List.mem_append_left _ hx, hmoved⟩
  · -- whatever stood there before, the version is a new one now
    refine Or.inr ⟨⟨p, _, hp, hversion, ?_⟩, _, List.mem_append_right _ List.mem_cons_self, hstores⟩
    intro hsame
    obtain ⟨v, hv, hfresh⟩ := h.unrepeated
    rw [hv, Option.some.injEq] at hsame
    exact hfresh _ (Nat.lt_succ_self _) hsame

/-- An update at the version that was read gets through if nobody has stored the map since. It fails and
changes nothing if somebody has, and, unless an error was put in its way, only then. -/
theorem Followed.update {m o : Object .configMaps} {since : Log} (h : Followed m since s)
    (hname : o.name = configMapName)
    (hversion : o.metadata.resourceVersion = m.metadata.resourceVersion)
    {reply : Except AccessError (Object .configMaps)}
    (hanswered : Answered s (.called (.update .configMaps o) reply) faulted t) :
    ((∃ e, reply = .error e) ∧ t = s ∧
        (faulted = false → ∃ x ∈ since, x.2.action.Stores configMapName)) ∨
      reply = .ok (s.stamped o) ∧ t.object? configMapName = some (s.stamped o) ∧
        s.object? configMapName = some m ∧ ∀ x ∈ since, ¬ x.2.action.Stores configMapName := by
  obtain ⟨v, hv, _⟩ := h.unrepeated
  rcases hanswered.of_update with ⟨he, hfaulted, rfl⟩ | ⟨_, hupdate⟩
  · refine Or.inl ⟨he, rfl, ?_⟩
    rw [hfaulted]
    nofun
  · rcases h.stands with ⟨hm, hquiet⟩ | ⟨⟨p, u, hp, hu, hne⟩, hmoved⟩
    · -- the version is still the current one
      have hwrite := Store.update_of_fresh (hname.symm ▸ hm) (Store.staleness?_of_version_eq hversion)
      have hwritten := s.written_update o
      rw [hupdate] at hwrite hwritten
      obtain ⟨rfl, _⟩ := Prod.mk.inj hwrite
      exact Or.inr ⟨rfl, hname ▸ hwritten.object?_self rfl, hm, hquiet⟩
    · have hvu : v ≠ u := by
        rintro rfl
        exact hne hv
      obtain ⟨detail, hstale⟩ := Store.staleness?_of_version_ne (hversion.trans hv) hu hvu
      have hwrite := Store.update_of_stale (hname.symm ▸ hp) hstale
      rw [hupdate] at hwrite
      obtain ⟨rfl, rfl⟩ := Prod.mk.inj hwrite
      exact Or.inl ⟨⟨_, rfl⟩, rfl, fun _ => hmoved⟩

end Setup

end EcosystemSetup

import EcosystemSetup.Proofs.Attempts
import EcosystemSetup.Proofs.KeyOrder
import EcosystemSetup.Proofs.Lists
import EcosystemSetup.Proofs.RegisteredKinds

/-!
# Discovery

What a server says of its kinds stands in documents: one that lists the groups and their versions, one
for the core group, and for each version of a group one that lists its resources. A client asks for
all of them, but of each group it keeps the kinds of one version only: the preferred one, or the most
mature one if none is preferred. So a kind that is listed in another version only is not found.
-/

namespace EcosystemSetup.Server

open Cluster Client

/-! ## Documents -/

/-- A document that lists the resources of a version, with their kinds; subresources have none. -/
structure Listing where
  document : Response
  kinds : List ServedKind
  lists : document.read discovery decodeKinds = .ok kinds

/-- A group whose versions are listed. -/
structure ListedGroup where
  name : String
  preferred : Option GroupVersion := none
  versions : List (GroupVersion × Listing)

namespace ListedGroup

/-- The group as the list of groups has it. -/
def group (g : ListedGroup) : Group :=
  ⟨g.name, g.versions.map Prod.fst, g.preferred⟩

def documents (g : ListedGroup) : List Response :=
  g.versions.map fun v => v.2.document

/-- All kinds of the group, in all its versions. -/
def listed (g : ListedGroup) : List ServedKind :=
  g.versions.flatMap fun v => v.2.kinds

/-- The kinds of the version that counts. -/
def counted (g : ListedGroup) : List ServedKind :=
  recommended (g.preferred.map GroupVersion.name) (g.versions.map fun v => (v.1.name, v.2.kinds))

end ListedGroup

/-- All documents of a server. -/
structure Catalogue where
  index : Response
  groups : List ListedGroup
  coreIndex : Response
  core : List (String × Listing)
  lists : index.read discovery decodeGroups = .ok (groups.map ListedGroup.group)
  listsCore : coreIndex.read discovery decodeCoreVersions = .ok (core.map Prod.fst)

namespace Catalogue

/-- The documents in the order in which they are asked for. -/
def documents (cat : Catalogue) : List Response :=
  cat.index :: (cat.groups.flatMap ListedGroup.documents ++
    cat.coreIndex :: cat.core.map fun v => v.2.document)

/-- All kinds that are listed in any document. -/
def listed (cat : Catalogue) : List ServedKind :=
  cat.groups.flatMap ListedGroup.listed ++ cat.core.flatMap fun v => v.2.kinds

/-- Every group has a version, the core group too. -/
structure Versioned (cat : Catalogue) : Prop where
  groups : ∀ g ∈ cat.groups, g.versions ≠ []
  core : cat.core ≠ []

/-- A group of the name has no version. -/
inductive Lacks (cat : Catalogue) : String → Prop where
  | group {g : ListedGroup} (mem : g ∈ cat.groups) (empty : g.versions = []) : Lacks cat g.name
  | core (empty : cat.core = []) : Lacks cat ""

/-- The kinds of the core group that count: those of its first version. -/
def coreCounted (cat : Catalogue) : List ServedKind :=
  recommended (some "v1") (cat.core.map fun v => (v.1, v.2.kinds))

/-- A kind that counts: it is one of the last group of its name, in the version that counts, or one of
the core group. -/
inductive Counts (cat : Catalogue) (t : ServedKind) : Prop where
  | group {before after : List ListedGroup} {g : ListedGroup}
      (split : cat.groups = before ++ g :: after) (last : ∀ h ∈ after, h.name ≠ g.name)
      (named : g.name ≠ "") (counted : t ∈ g.counted)
  | core (counted : t ∈ cat.coreCounted)

/-- What a client keeps of the documents. -/
def kept (cat : Catalogue) : Kinds :=
  Assoc.ofList (cat.groups.map (fun g => (g.name, g.counted)) ++ [("", cat.coreCounted)])

theorem counts_of_mem_kept {cat : Catalogue} {p : String × List ServedKind} {t : ServedKind}
    (hp : p ∈ cat.kept) (ht : t ∈ p.2) : cat.Counts t := by
  obtain ⟨before, after, hsplit, hlast⟩ := Assoc.mem_ofList_iff.mp hp
  rcases Lists.split_of_append_eq hsplit with ⟨rest, hgroups⟩ | ⟨skipped, -, hcore⟩
  · -- the pair of a group, behind which stands that of the core group
    rw [hgroups, List.append_assoc, List.append_cancel_left_eq, List.cons_append,
      List.cons.injEq] at hsplit
    obtain ⟨-, rfl⟩ := hsplit
    rw [List.map_eq_append_iff] at hgroups
    obtain ⟨first, others, hfirst, -, hothers⟩ := hgroups
    rw [List.map_eq_cons_iff] at hothers
    obtain ⟨g, others, rfl, rfl, rfl⟩ := hothers
    refine .group hfirst ?_ ?_ ht
    · intro h hh
      exact hlast (h.name, h.counted)
        (List.mem_append_left _ (List.mem_map_of_mem (f := fun g => (g.name, g.counted)) hh))
    · exact Ne.symm (hlast ("", cat.coreCounted) (by simp))
  · cases skipped with
    | nil =>
      rw [List.nil_append, List.cons.injEq] at hcore
      obtain ⟨rfl, -⟩ := hcore
      exact .core ht
    | cons x skipped => simp at hcore

theorem Counts.mem_kept {cat : Catalogue} {t : ServedKind} (h : cat.Counts t) :
    ∃ p ∈ cat.kept, t ∈ p.2 := by
  cases h with
  | @group before after g split last named counted =>
    refine ⟨(g.name, g.counted), Assoc.mem_ofList_iff.mpr ?_, counted⟩
    refine ⟨before.map fun g => (g.name, g.counted),
      after.map (fun g => (g.name, g.counted)) ++ [("", cat.coreCounted)], by simp [split], ?_⟩
    intro q hq
    rcases List.mem_append.mp hq with hq | hq
    · obtain ⟨h, hh, rfl⟩ := List.mem_map.mp hq
      exact last h hh
    · rw [List.mem_singleton] at hq
      exact hq ▸ Ne.symm named
  | core counted =>
    exact ⟨("", cat.coreCounted), Assoc.mem_ofList_iff.mpr ⟨_, [], rfl, by simp⟩, counted⟩

/-- It keeps the kinds that count. -/
theorem mem_kept_iff {cat : Catalogue} {t : ServedKind} :
    t ∈ cat.kept.flatMap Prod.snd ↔ cat.Counts t := by
  rw [List.mem_flatMap]
  exact ⟨fun ⟨_, hp, ht⟩ => counts_of_mem_kept hp ht, Counts.mem_kept⟩

end Catalogue

/-! ### The version that counts -/

theorem mem_of_mostMature? {versions : VersionedKinds} {kinds : List ServedKind}
    (h : mostMature? versions = some kinds) : ∃ v ∈ versions, v.2 = kinds := by
  cases versions with
  | nil => simp [mostMature?] at h
  | cons first rest =>
    rw [mostMature?, Option.some.injEq] at h
    -- the best so far is always one of the versions
    have hbest : ∀ (versions : VersionedKinds) (best : String × List ServedKind),
        versions.foldl (fun best v =>
          if (Maturity.ofName v.1).exceeds (Maturity.ofName best.1) then v else best) best ∈
            best :: versions := by
      intro versions
      induction versions with
      | nil => simp
      | cons v rest ih =>
        intro best
        rw [List.foldl_cons]
        split
        · exact List.mem_cons_of_mem _ (ih v)
        · rcases List.mem_cons.mp (ih best) with hsame | hmem
          · rw [hsame]
            exact List.mem_cons_self
          · exact List.mem_cons_of_mem _ (List.mem_cons_of_mem _ hmem)
    exact ⟨_, hbest rest first, h⟩

theorem mem_of_recommended {preferred : Option String} {versions : VersionedKinds} {t : ServedKind}
    (h : t ∈ recommended preferred versions) : ∃ v ∈ versions, t ∈ v.2 := by
  cases preferred with
  | some name =>
    cases hkinds : versions.lookup name with
    | none => simp [recommended, hkinds] at h
    | some kinds =>
      obtain ⟨before, after, rfl, -⟩ := List.lookup_eq_some_iff.mp hkinds
      simp only [recommended, hkinds, Option.getD_some] at h
      exact ⟨(name, kinds), by simp, h⟩
  | none =>
    cases hkinds : mostMature? versions with
    | none => simp [recommended, hkinds] at h
    | some kinds =>
      obtain ⟨v, hv, rfl⟩ := mem_of_mostMature? hkinds
      simp only [recommended, hkinds, Option.getD_some] at h
      exact ⟨v, hv, h⟩

/-- What counts is listed. -/
theorem Catalogue.Counts.mem_listed {cat : Catalogue} {t : ServedKind} (h : cat.Counts t) :
    t ∈ cat.listed := by
  cases h with
  | @group before after g split _ _ counted =>
    obtain ⟨v, hv, ht⟩ := mem_of_recommended counted
    obtain ⟨w, hw, rfl⟩ := List.mem_map.mp hv
    have hlisted : t ∈ g.listed := List.mem_flatMap.mpr ⟨w, hw, ht⟩
    exact List.mem_append_left _ (List.mem_flatMap.mpr ⟨g, by simp [split], hlisted⟩)
  | core counted =>
    obtain ⟨v, hv, ht⟩ := mem_of_recommended counted
    obtain ⟨w, hw, rfl⟩ := List.mem_map.mp hv
    exact List.mem_append_right _ (List.mem_flatMap.mpr ⟨w, hw, ht⟩)

/-! ## What a client finds -/

namespace Client.Ends

/-- Asking for the versions of a group gives the kinds of each. -/
theorem fetchVersions {α : Type} (name : String) (label : α → String) (request : α → Request)
    {versions : List (α × Listing)} (hversions : versions ≠ []) :
    Ends (Client.fetchVersions name ((versions.map Prod.fst).map fun v => (label v, request v)))
      (versions.map fun v => v.2.document)
      (.ok (versions.map fun v => (label v.1, v.2.kinds))) := by
  unfold Client.fetchVersions
  rw [if_neg (by simpa using hversions), List.map_map,
    List.map_eq_flatMap (f := fun v : α × Listing => v.2.document)]
  apply mapM
  intro v _
  exact (fetch v.2.lists).map fun kinds => (label v.1, kinds)

/-- A group without a version is refused before anything is asked. -/
theorem fetchVersions_nil (name : String) :
    Ends (Client.fetchVersions name []) [] (.error (.transport discovery (.emptyGroup name))) :=
  throw _

theorem fetchGroup {g : ListedGroup} (hg : g.versions ≠ []) :
    Ends (Client.fetchGroup g.group) g.documents (.ok g.counted) :=
  (fetchVersions g.name GroupVersion.name (fun v => .look ("/apis/" ++ v.served)) hg).map _

theorem fetchGroup_nil {g : ListedGroup} (hg : g.versions = []) :
    Ends (Client.fetchGroup g.group) [] (.error (.transport discovery (.emptyGroup g.name))) := by
  unfold Client.fetchGroup ListedGroup.group
  rw [hg]
  exact (fetchVersions_nil g.name).bind_error _

variable {cat : Catalogue}

theorem fetchCore (hcore : cat.core ≠ []) :
    Ends Client.fetchCore (cat.coreIndex :: cat.core.map fun v => v.2.document)
      (.ok cat.coreCounted) :=
  (fetch cat.listsCore).bind
    ((fetchVersions "" id (fun v => .look ("/api/" ++ v)) hcore).map _)

theorem fetchCore_nil (hcore : cat.core = []) :
    Ends Client.fetchCore [cat.coreIndex] (.error (.transport discovery (.emptyGroup ""))) := by
  have hnames := cat.listsCore
  rw [hcore] at hnames
  exact (fetch hnames).bind ((fetchVersions_nil "").bind_error _)

/-- Asking for a group with its name. -/
theorem fetchNamedGroup {g : ListedGroup} (hg : g.versions ≠ []) :
    Ends (do return (g.group.name, ← Client.fetchGroup g.group)) g.documents
      (.ok (g.name, g.counted)) :=
  (fetchGroup hg).map fun kinds => (g.name, kinds)

/-- Asking for groups that all have versions. -/
theorem fetchGroups {groups : List ListedGroup} (h : ∀ g ∈ groups, g.versions ≠ []) :
    Ends ((groups.map ListedGroup.group).mapM fun g => do return (g.name, ← Client.fetchGroup g))
      (groups.flatMap ListedGroup.documents) (.ok (groups.map fun g => (g.name, g.counted))) :=
  mapM fun g hg => fetchNamedGroup (h g hg)

/-- The first group without a version ends it. -/
theorem fetchGroups_error {before after : List ListedGroup} {g : ListedGroup}
    (hbefore : ∀ x ∈ before, x.versions ≠ []) (hg : g.versions = []) :
    Ends (((before ++ g :: after).map ListedGroup.group).mapM
        fun g => do return (g.name, ← Client.fetchGroup g))
      (before.flatMap ListedGroup.documents ++ [])
      (.error (.transport discovery (.emptyGroup g.name))) :=
  mapM_error (fun x hx => fetchNamedGroup (hbefore x hx)) ((fetchGroup_nil hg).bind_error _)

/-- Asking for all kinds takes all documents, and gives what is kept of them. -/
theorem fetchKinds (h : cat.Versioned) : Ends Client.fetchKinds cat.documents (.ok cat.kept) :=
  (fetch cat.lists).bind ((fetchGroups h.groups).bind ((fetchCore h.core).map _))

/-- A group without a version ends the discovery. -/
theorem fetchKinds_error (h : ¬ cat.Versioned) :
    ∃ first name, first <+: cat.documents ∧ cat.Lacks name ∧
      Ends Client.fetchKinds first (.error (.transport discovery (.emptyGroup name))) := by
  cases hfind : cat.groups.find? fun g => g.versions.isEmpty with
  | some g =>
    obtain ⟨hg, before, after, hsplit, hbefore⟩ := List.find?_eq_some_iff_append.mp hfind
    have hall : ∀ x ∈ before, x.versions ≠ [] := by simpa using hbefore
    have hempty : g.versions = [] := by simpa using hg
    have hlists := cat.lists
    rw [hsplit] at hlists
    refine ⟨_, g.name, ?_, .group (by simp [hsplit]) hempty,
      (fetch hlists).bind ((fetchGroups_error hall hempty).bind_error _)⟩
    refine ⟨(g :: after).flatMap ListedGroup.documents ++
      cat.coreIndex :: cat.core.map fun v => v.2.document, ?_⟩
    simp [Catalogue.documents, hsplit]
  | none =>
    -- then it is the core group
    have hall : ∀ g ∈ cat.groups, g.versions ≠ [] := by simpa using hfind
    have hcore : cat.core = [] := by
      by_contra hcore
      exact h ⟨hall, hcore⟩
    refine ⟨_, "", List.prefix_rfl, .core hcore, ?_⟩
    unfold Catalogue.documents
    rw [hcore]
    exact (fetch cat.lists).bind ((fetchGroups hall).bind ((fetchCore_nil hcore).bind_error _))

end Client.Ends

/-! ## Looking up kinds -/

/-- What is found of a kind among those that were kept. -/
def find (kinds : Kinds) (k : KindName) : Except AccessError ServedKind :=
  match (kinds.flatMap Prod.snd).find? fun s => s.name = k with
  | some s => .ok s
  | none => .error (.notFound ("resource type " ++ k.key))

theorem name_of_find {kinds : Kinds} {k : KindName} {t : ServedKind} (h : find kinds k = .ok t) :
    t ∈ kinds.flatMap Prod.snd ∧ t.name = k := by
  unfold find at h
  split at h
  · rename_i s hfound
    rw [Except.ok.injEq] at h
    subst h
    exact ⟨List.mem_of_find?_eq_some hfound, by simpa using List.find?_some hfound⟩
  · simp at h

theorem exists_of_find {kinds : Kinds} {t : ServedKind} {k : KindName}
    (ht : t ∈ kinds.flatMap Prod.snd) (hname : t.name = k) : ∃ u, find kinds k = .ok u := by
  unfold find
  cases hfound : (kinds.flatMap Prod.snd).find? fun s => s.name = k with
  | some u => exact ⟨u, rfl⟩
  | none => exact absurd hname (by simpa using List.find?_eq_none.mp hfound t ht)

theorem find_eq_notFound {kinds : Kinds} {k : KindName} :
    find kinds k = .error (.notFound ("resource type " ++ k.key)) ↔
      ∀ t ∈ kinds.flatMap Prod.snd, t.name ≠ k := by
  unfold find
  cases hfound : (kinds.flatMap Prod.snd).find? fun s => s.name = k with
  | none => simpa using List.find?_eq_none.mp hfound
  | some s =>
    have hname : s.name = k := by simpa using List.find?_some hfound
    simp only [reduceCtorEq, false_iff]
    exact fun h => h s (List.mem_of_find?_eq_some hfound) hname

namespace Client

theorem perform_resolve (k : KindName) (c : Client) :
    perform (.resolve k) c = match allKinds.run c with
      | (.ok kinds, d) => (find kinds k, d)
      | (.error e, d) => (.error e, d) := by
  change (resolve k).run c = _
  unfold resolve
  rw [run_bind]
  rcases allKinds.run c with ⟨answer, d⟩
  cases answer with
  | error e => rfl
  | ok kinds =>
    unfold find
    dsimp only
    cases (kinds.flatMap Prod.snd).find? fun s => s.name = k <;> rfl

theorem run_get (c : Client) : (get : Attempt Client).run c = (.ok c, c) :=
  rfl

/-- Kinds that are known are not asked for again. -/
theorem perform_resolve_of_kinds {c : Client} {kinds : Kinds} (h : c.kinds = some kinds)
    (k : KindName) : perform (.resolve k) c = (find kinds k, c) := by
  have hall : allKinds.run c = (.ok kinds, c) := by
    unfold allKinds
    rw [run_bind, run_get]
    dsimp only
    rw [h]
    rfl
  rw [perform_resolve, hall]

theorem run_allKinds_of_fresh {c : Client} (h : c.kinds = none) :
    allKinds.run c = match fetchKinds.run c with
      | (.ok kinds, d) => (.ok kinds, { d with kinds := some kinds })
      | (.error e, d) => (.error e, d) := by
  unfold allKinds
  rw [run_bind, run_get]
  dsimp only
  rw [h]
  dsimp only
  rw [run_bind]
  rcases fetchKinds.run c with ⟨answer, d⟩
  cases answer <;> rfl

/-- A client at its start, which the documents of a server answer. -/
structure Starts (c : Client) (cat : Catalogue) : Prop where
  fresh : c.kinds = none
  reachable : c.reachable = true
  documents : cat.documents <+: c.responses

variable {c : Client} {cat : Catalogue}

theorem Starts.run_allKinds (h : c.Starts cat) (hall : cat.Versioned) :
    ∃ d, allKinds.run c = (.ok cat.kept, d) ∧ d.kinds = some cat.kept := by
  obtain ⟨later, hlater⟩ := h.documents
  obtain ⟨d, hd, -⟩ := Ends.fetchKinds hall c later ⟨h.reachable, hlater.symm⟩
  exact ⟨{ d with kinds := some cat.kept }, by rw [run_allKinds_of_fresh h.fresh, hd], rfl⟩

theorem Starts.run_allKinds_error (h : c.Starts cat) (hall : ¬ cat.Versioned) :
    ∃ name d, cat.Lacks name ∧
      allKinds.run c = (.error (.transport discovery (.emptyGroup name)), d) := by
  obtain ⟨first, name, ⟨rest, hrest⟩, hlacks, hends⟩ := Ends.fetchKinds_error hall
  obtain ⟨later, hlater⟩ := h.documents
  have hanswered : Answered c first (rest ++ later) :=
    ⟨h.reachable, by rw [← hlater, ← hrest, List.append_assoc]⟩
  obtain ⟨d, hd, -⟩ := hends c _ hanswered
  exact ⟨name, d, hlacks, by rw [run_allKinds_of_fresh h.fresh, hd]⟩

/-- What a client answers when it is asked for a kind. -/
def answer (c : Client) (k : KindName) : Except AccessError ServedKind :=
  (perform (.resolve k) c).1

/-- The client that has been asked for a kind. -/
def asked (c : Client) (k : KindName) : Client :=
  (perform (.resolve k) c).2

theorem Starts.answer (h : c.Starts cat) (hall : cat.Versioned) (k : KindName) :
    c.answer k = find cat.kept k := by
  obtain ⟨d, hd, -⟩ := h.run_allKinds hall
  rw [Client.answer, perform_resolve, hd]

theorem Starts.asked_kinds (h : c.Starts cat) (hall : cat.Versioned) (k : KindName) :
    (c.asked k).kinds = some cat.kept := by
  obtain ⟨d, hd, hkinds⟩ := h.run_allKinds hall
  rw [asked, perform_resolve, hd]
  exact hkinds

theorem Starts.answer_error (h : c.Starts cat) (hall : ¬ cat.Versioned) (k : KindName) :
    ∃ name, cat.Lacks name ∧ c.answer k = .error (.transport discovery (.emptyGroup name)) := by
  obtain ⟨name, d, hlacks, hd⟩ := h.run_allKinds_error hall
  exact ⟨name, hlacks, by rw [Client.answer, perform_resolve, hd]⟩

/-- A kind that counts is found, or another one of its name that counts. -/
theorem Starts.answer_of_counts (h : c.Starts cat) (hall : cat.Versioned) {t : ServedKind}
    (ht : cat.Counts t) : ∃ u, cat.Counts u ∧ u.name = t.name ∧ c.answer t.name = .ok u := by
  rw [h.answer hall]
  obtain ⟨u, hu⟩ := exists_of_find (Catalogue.mem_kept_iff.mpr ht) rfl
  obtain ⟨hmem, hname⟩ := name_of_find hu
  exact ⟨u, Catalogue.mem_kept_iff.mp hmem, hname, hu⟩

theorem Starts.answer_of_not_counts (h : c.Starts cat) (hall : cat.Versioned) {k : KindName}
    (hk : ∀ t, cat.Counts t → t.name ≠ k) :
    c.answer k = .error (.notFound ("resource type " ++ k.key)) := by
  rw [h.answer hall]
  exact find_eq_notFound.mpr fun t ht => hk t (Catalogue.mem_kept_iff.mp ht)

/-- The kinds that are listed are found, and no others. -/
structure FindsListed (c : Client) (cat : Catalogue) : Prop where
  listed : ∀ t ∈ cat.listed, ∃ u ∈ cat.listed, u.name = t.name ∧ c.answer t.name = .ok u
  unlisted : ∀ k, (∀ t ∈ cat.listed, t.name ≠ k) →
    c.answer k = .error (.notFound ("resource type " ++ k.key))

/-- Every kind that is listed is found only if each one counts, or another one of its name. -/
theorem Starts.findsListed_iff (h : c.Starts cat) :
    c.FindsListed cat ↔
      cat.Versioned ∧ ∀ t ∈ cat.listed, ∃ u, cat.Counts u ∧ u.name = t.name := by
  constructor
  · intro hfinds
    have hall : cat.Versioned := by
      by_contra hall
      -- there is some kind to ask for, listed or not
      cases hlisted : cat.listed with
      | nil =>
        obtain ⟨name, -, herror⟩ := h.answer_error hall default
        have hmissing := hfinds.unlisted default (by simp [hlisted])
        simp [hmissing] at herror
      | cons t rest =>
        obtain ⟨name, -, herror⟩ := h.answer_error hall t.name
        obtain ⟨u, -, -, hfound⟩ := hfinds.listed t (by simp [hlisted])
        simp [hfound] at herror
    refine ⟨hall, fun t ht => ?_⟩
    obtain ⟨u, -, hname, hfound⟩ := hfinds.listed t ht
    rw [h.answer hall] at hfound
    exact ⟨u, Catalogue.mem_kept_iff.mp (name_of_find hfound).1, hname⟩
  · rintro ⟨hall, hcounts⟩
    constructor
    · intro t ht
      obtain ⟨u, hu, hname⟩ := hcounts t ht
      obtain ⟨v, hv, hsame, hfound⟩ := h.answer_of_counts hall hu
      rw [hname] at hsame hfound
      exact ⟨v, hv.mem_listed, hsame, hfound⟩
    · intro k hk
      exact h.answer_of_not_counts hall fun t ht => hk t ht.mem_listed

end Client

/-! ### Beside a hub in memory -/

/-- Two answers tell the same: the same kind with the same scope, or the same error. The plural does not
count, which a hub in memory makes up. -/
def SameAnswer : Except AccessError ServedKind → Except AccessError ServedKind → Prop
  | .ok t, .ok u => t.name = u.name ∧ t.namespaced = u.namespaced
  | .error e, .error f => e = f
  | _, _ => False

namespace Catalogue

/-- All names are plain, and none is listed with two scopes. -/
structure Plain (cat : Catalogue) : Prop where
  names : ∀ t ∈ cat.listed, t.name.Plain
  scopes : ∀ t ∈ cat.listed, ∀ u ∈ cat.listed, u.name = t.name → u.namespaced = t.namespaced

variable {cat : Catalogue}

theorem Plain.resolve_of_listed (hplain : cat.Plain) {t : ServedKind} (ht : t ∈ cat.listed) :
    (Hub.ofKinds cat.listed).resolve t.name =
      .ok ⟨t.name, t.name.apiVersion, Hub.pluralOf t.name.kind, t.namespaced⟩ := by
  apply Hub.resolve_of_mem ht
  intro u hu hkey
  exact hplain.scopes t ht u hu ((hplain.names u hu).eq_of_key (hplain.names t ht) hkey)

theorem Plain.resolve_of_unlisted (hplain : cat.Plain) {k : KindName} (hk : k.Plain)
    (hunlisted : ∀ t ∈ cat.listed, t.name ≠ k) :
    (Hub.ofKinds cat.listed).resolve k = .error (.notFound ("resource type " ++ k.key)) := by
  apply Hub.resolve_of_not_mem
  intro t ht hkey
  exact hunlisted t ht ((hplain.names t ht).eq_of_key hk hkey)

end Catalogue

namespace Client

variable {c : Client} {cat : Catalogue}

/-- A client answers like a hub with the listed kinds, but for those that do not count. -/
theorem Starts.sameAnswer_iff (h : c.Starts cat) (hall : cat.Versioned) (hplain : cat.Plain)
    {k : KindName} (hk : k.Plain) :
    SameAnswer (c.answer k) ((Hub.ofKinds cat.listed).resolve k) ↔
      ((∃ t ∈ cat.listed, t.name = k) → ∃ u, cat.Counts u ∧ u.name = k) := by
  by_cases hlisted : ∃ t ∈ cat.listed, t.name = k
  · obtain ⟨t, ht, rfl⟩ := hlisted
    rw [hplain.resolve_of_listed ht]
    by_cases hcounts : ∃ u, cat.Counts u ∧ u.name = t.name
    · obtain ⟨u, hu, hname⟩ := hcounts
      obtain ⟨v, hv, hsame, hfound⟩ := h.answer_of_counts hall hu
      rw [hname] at hsame hfound
      rw [hfound]
      exact iff_of_true ⟨hsame, hplain.scopes t ht v hv.mem_listed hsame⟩ fun _ => ⟨u, hu, hname⟩
    · rw [h.answer_of_not_counts hall fun u hu hname => hcounts ⟨u, hu, hname⟩]
      exact iff_of_false id fun hall => hcounts (hall ⟨t, ht, rfl⟩)
  · have hunlisted : ∀ t ∈ cat.listed, t.name ≠ k := fun t ht hname => hlisted ⟨t, ht, hname⟩
    rw [hplain.resolve_of_unlisted hk hunlisted,
      h.answer_of_not_counts hall fun t ht => hunlisted t ht.mem_listed]
    exact iff_of_true rfl fun hsome => absurd hsome hlisted

/-! ### All that a client finds -/

/-- What a client finds by the documents of a server. -/
structure Discovers (c : Client) (cat : Catalogue) : Prop where
  /-- A kind that counts is found, with what its document says of it. -/
  found : cat.Versioned → ∀ t, cat.Counts t →
    ∃ u, cat.Counts u ∧ u.name = t.name ∧ c.answer t.name = .ok u
  /-- No other kind is found. -/
  missing : cat.Versioned → ∀ k, (∀ t, cat.Counts t → t.name ≠ k) →
    c.answer k = .error (.notFound ("resource type " ++ k.key))
  /-- With a group that has no version there is only an error. -/
  unversioned : ¬ cat.Versioned → ∀ k,
    ∃ name, cat.Lacks name ∧ c.answer k = .error (.transport discovery (.emptyGroup name))
  /-- Later answers are those of the start, and nothing is asked for them. -/
  remembered : cat.Versioned → ∀ first k,
    perform (.resolve k) (c.asked first) = (c.answer k, c.asked first)
  /-- All that is listed is found only if nothing is listed beside what counts. -/
  listed : c.FindsListed cat ↔
    cat.Versioned ∧ ∀ t ∈ cat.listed, ∃ u, cat.Counts u ∧ u.name = t.name
  /-- The answers are those of a hub with the listed kinds, but for those that do not count. -/
  besideHub : cat.Versioned → cat.Plain → ∀ k : KindName, k.Plain →
    (SameAnswer (c.answer k) ((Hub.ofKinds cat.listed).resolve k) ↔
      ((∃ t ∈ cat.listed, t.name = k) → ∃ u, cat.Counts u ∧ u.name = k))

/-- A client finds the kinds of one version of each group. -/
theorem discovers_of_starts (h : c.Starts cat) : c.Discovers cat where
  found hall _ ht := h.answer_of_counts hall ht
  missing hall _ hk := h.answer_of_not_counts hall hk
  unversioned hall k := h.answer_error hall k
  remembered hall first k := by
    rw [perform_resolve_of_kinds (h.asked_kinds hall first), h.answer hall]
  listed := h.findsListed_iff
  besideHub hall hplain _ hk := h.sameAnswer_iff hall hplain hk

/-! ### A group with two versions -/

def dogus : Listing where
  document := ⟨200, "\x7b\"groupVersion\":\"k8s.cloudogu.com/v2\",\"resources\":[" ++
    "\x7b\"kind\":\"Dogu\",\"name\":\"dogus\",\"namespaced\":true\x7d]\x7d"⟩
  kinds := [⟨⟨"k8s.cloudogu.com", "v2", "Dogu"⟩, "k8s.cloudogu.com/v2", "dogus", true⟩]
  lists := by decide +kernel

def components : Listing where
  document := ⟨200, "\x7b\"groupVersion\":\"k8s.cloudogu.com/v1\",\"resources\":[" ++
    "\x7b\"kind\":\"Component\",\"name\":\"components\",\"namespaced\":true\x7d]\x7d"⟩
  kinds := [⟨⟨"k8s.cloudogu.com", "v1", "Component"⟩, "k8s.cloudogu.com/v1", "components", true⟩]
  lists := by decide +kernel

def pods : Listing where
  document := ⟨200, "\x7b\"groupVersion\":\"v1\",\"resources\":[" ++
    "\x7b\"kind\":\"Pod\",\"name\":\"pods\",\"namespaced\":true\x7d]\x7d"⟩
  kinds := [⟨⟨"", "v1", "Pod"⟩, "v1", "pods", true⟩]
  lists := by decide +kernel

/-- The group of dogus and components, which are served in different versions. -/
def cloudogu : ListedGroup where
  name := "k8s.cloudogu.com"
  preferred := some ⟨"k8s.cloudogu.com/v2", "v2"⟩
  versions := [(⟨"k8s.cloudogu.com/v2", "v2"⟩, dogus), (⟨"k8s.cloudogu.com/v1", "v1"⟩, components)]

def cloudoguCatalogue : Catalogue where
  index := ⟨200, "\x7b\"groups\":[\x7b\"name\":\"k8s.cloudogu.com\",\"versions\":[" ++
    "\x7b\"groupVersion\":\"k8s.cloudogu.com/v2\",\"version\":\"v2\"\x7d," ++
    "\x7b\"groupVersion\":\"k8s.cloudogu.com/v1\",\"version\":\"v1\"\x7d]," ++
    "\"preferredVersion\":\x7b\"groupVersion\":\"k8s.cloudogu.com/v2\",\"version\":\"v2\"\x7d\x7d]\x7d"⟩
  groups := [cloudogu]
  coreIndex := ⟨200, "\x7b\"versions\":[\"v1\"]\x7d"⟩
  core := [("v1", pods)]
  lists := by decide +kernel
  listsCore := by decide +kernel

/-- A client whose server has these documents. -/
def cloudoguClient : Client where
  namespaceName := "ecosystem"
  responses := cloudoguCatalogue.documents

theorem starts_cloudoguClient : cloudoguClient.Starts cloudoguCatalogue where
  fresh := rfl
  reachable := rfl
  documents := List.prefix_rfl

theorem versioned_cloudoguCatalogue : cloudoguCatalogue.Versioned where
  groups := by simp [cloudoguCatalogue, cloudogu]
  core := by simp [cloudoguCatalogue]

theorem listed_cloudoguCatalogue :
    cloudoguCatalogue.listed = dogus.kinds ++ components.kinds ++ pods.kinds :=
  rfl

theorem plain_cloudoguCatalogue : cloudoguCatalogue.Plain where
  names t ht := by
    simp only [listed_cloudoguCatalogue, dogus, components, pods, List.cons_append, List.nil_append,
      List.mem_cons, List.not_mem_nil, or_false] at ht
    rcases ht with rfl | rfl | rfl <;> exact ⟨by decide +kernel, by decide +kernel, by decide +kernel⟩
  scopes := by
    rw [listed_cloudoguCatalogue]
    decide +kernel

/-- It discovers dogus, of the later version. -/
theorem discovers_cloudoguClient :
    cloudoguCatalogue.Versioned ∧ cloudoguCatalogue.Plain ∧
      cloudoguClient.Discovers cloudoguCatalogue :=
  ⟨versioned_cloudoguCatalogue, plain_cloudoguCatalogue, discovers_of_starts starts_cloudoguClient⟩

/-- It does not find components, which are listed in the other version. -/
theorem not_findsListed_cloudoguClient :
    cloudoguClient.Starts cloudoguCatalogue ∧ ¬ cloudoguClient.FindsListed cloudoguCatalogue := by
  refine ⟨starts_cloudoguClient, fun h => ?_⟩
  obtain ⟨u, -, -, hfound⟩ := h.listed
    ⟨⟨"k8s.cloudogu.com", "v1", "Component"⟩, "k8s.cloudogu.com/v1", "components", true⟩
    (by simp [listed_cloudoguCatalogue, components])
  have hanswer : cloudoguClient.answer ⟨"k8s.cloudogu.com", "v1", "Component"⟩ =
      .error (.notFound "resource type k8s.cloudogu.com/v1/Component") := by
    rw [starts_cloudoguClient.answer versioned_cloudoguCatalogue]
    decide +kernel
  simp [hanswer] at hfound

end Client

end EcosystemSetup.Server

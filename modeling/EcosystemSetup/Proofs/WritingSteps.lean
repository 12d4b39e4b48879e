import EcosystemSetup.Proofs.FaultlessClusters
import EcosystemSetup.Proofs.SharedSelection

/-!
# Steps that write

What the writing steps of a setup do on a cluster in memory without faults, whatever it holds. A creation
succeeds, and it keeps the object of its name if there is one; the selection of dogus is put into the map
that is there, or into a new one. In either case no other object changes.
-/

namespace EcosystemSetup.Setup

open Cluster

variable {w : World Sandbox}

/-! ## Steps that create an object -/

/-- A program succeeds, and at most the object of one name differs afterwards. -/
structure Writes (t : Program (Except Failure Unit)) (c : Collection) (name : String)
    (w : World Sandbox) : Prop where
  succeeds : (t.run w).1 = .ok ()
  frame : Sandbox.DiffersAt c name w.backend (t.run w).2.backend
  faultless : (t.run w).2.backend.Faultless
  /-- No time has passed, so it is cancelled now if it was before. -/
  isCancelled : (t.run w).2.isCancelled = w.isCancelled
  /-- And it has not looked whether it is, so an interrupt is as near as before. -/
  interruptIn : (t.run w).2.interruptIn = w.interruptIn

section Creations

variable {c : Collection}

/-- Where there is an object of the name, the creation succeeds and changes nothing. -/
theorem createOnce_held (h : w.backend.Faultless) {o held : Object c}
    (hheld : (w.backend.shelf c).store.object? o.name = some held) (what : String) :
    ((createOnce o what).run w).1 = .ok () ∧
      Sandbox.SameContent w.backend ((createOnce o what).run w).2.backend := by
  obtain ⟨hanswer, hsame⟩ := h.create_held hheld
  have hreply : (w.perform (.create c o)).1 = .error (.alreadyExists o.name) := hanswer
  -- what is there already counts as created
  rw [run_createOnce, hreply]
  exact ⟨rfl, hsame⟩

/-- Where there is none, the object is put there. -/
theorem createOnce_free (h : w.backend.Faultless) {o : Object c}
    (hfree : (w.backend.shelf c).store.object? o.name = none) (what : String) :
    ((createOnce o what).run w).1 = .ok () ∧
      (((createOnce o what).run w).2.backend.shelf c).store.object? o.name =
        some ((w.backend.shelf c).store.stamped o) ∧
      Sandbox.DiffersAt c o.name w.backend ((createOnce o what).run w).2.backend := by
  have hstored := h.create_free hfree
  have hreply : (w.perform (.create c o)).1 = .ok ((w.backend.shelf c).store.stamped o) :=
    hstored.answer
  rw [run_createOnce, hreply]
  exact ⟨rfl, hstored.own, hstored.frame⟩

theorem writes_createOnce (h : w.backend.Faultless) (o : Object c) (what : String) :
    Writes (createOnce o what) c o.name w := by
  have hfaultless : ((createOnce o what).run w).2.backend.Faultless := h.create o
  cases hown : (w.backend.shelf c).store.object? o.name with
  | some held =>
    obtain ⟨hok, hsame⟩ := createOnce_held h hown what
    exact ⟨hok, hsame.differsAt c o.name, hfaultless, rfl, rfl⟩
  | none =>
    obtain ⟨hok, -, hframe⟩ := createOnce_free h hown what
    exact ⟨hok, hframe, hfaultless, rfl, rfl⟩

/-- A creation keeps the object of its name, or puts the new one there. -/
theorem object?_createOnce (h : w.backend.Faultless) (o : Object c) (what : String) :
    (((createOnce o what).run w).2.backend.shelf c).store.object? o.name =
      some (((w.backend.shelf c).store.object? o.name).getD
        ((w.backend.shelf c).store.stamped o)) := by
  cases hown : (w.backend.shelf c).store.object? o.name with
  | some held => rw [(createOnce_held h hown what).2.stores c, hown, Option.getD_some]
  | none => rw [(createOnce_free h hown what).2.1, Option.getD_none]

end Creations

/-! ## The step that writes the selection -/

/-- The selection, put into a map that has it, changes nothing. -/
theorem withSelection_withSelection (c : Config) (data : TextMap) :
    withSelection c (withSelection c data) = withSelection c data := by
  have hlt : "default_dogu" < "dogus" := by decide +kernel
  -- the inner keys move outwards until both keys are set twice in a row
  unfold withSelection
  rw [Assoc.set_comm_of_lt hlt, Assoc.set_set, Assoc.set_set]

theorem selected_selected (c : Config) (m : Object .configMaps) (version : String) :
    selected c ((selected c m).atVersion version) = (selected c m).atVersion version := by
  have hdata := withSelection_withSelection c (m.body.data.getD [])
  unfold selected Object.atVersion
  dsimp only [Option.getD_some]
  rw [hdata]

/-- What the map of a cluster becomes: it gets the selection, or a new one with the selection is made. -/
def selectionMap (c : Config) (s : Sandbox) : Object .configMaps :=
  selected c (((s.shelf .configMaps).store.object? configMapName).getD (blankConfigMap c))

/-- A program puts a map under the name of the dogus' one. -/
structure Puts (t : Program (Except Failure Unit)) (m : Object .configMaps) (w : World Sandbox) :
    Prop extends Writes t .configMaps configMapName w where
  map : ∃ version, ((t.run w).2.backend.shelf .configMaps).store.object? configMapName =
    some (m.atVersion version)

/-- A program that succeeds with the write of a map puts it there. -/
theorem puts_of_stored {t : Program (Except Failure Unit)} {m : Object .configMaps}
    {r : Except AccessError (Object .configMaps) × Sandbox} {v : World Sandbox}
    (hname : m.name = configMapName) (h : Sandbox.Stored m w.backend r)
    (hrun : t.run w = (.ok (), v)) (hbackend : v.backend = r.2)
    (hcancelled : v.isCancelled = w.isCancelled) (hinterrupt : v.interruptIn = w.interruptIn) :
    Puts t m w := by
  have hown := h.own
  have hframe := h.frame
  rw [hname] at hown hframe
  refine ⟨⟨?_, ?_, ?_, ?_, ?_⟩, toString ((w.backend.shelf .configMaps).store.revision + 1), ?_⟩
  · rw [hrun]
  · rw [hrun, hbackend]
    exact hframe
  · rw [hrun, hbackend]
    exact h.faultless
  · rw [hrun]
    exact hcancelled
  · rw [hrun]
    exact hinterrupt
  · rw [hrun, hbackend]
    exact hown

/-- A read comes first, and then a map is put there. -/
theorem Puts.of_read {next : Except AccessError (Object .configMaps) → Program (Except Failure Unit)}
    {m : Object .configMaps}
    (h : Puts (next (w.perform (.get .configMaps configMapName)).1) m
      (w.perform (.get .configMaps configMapName)).2) :
    Puts (.call (.get .configMaps configMapName) next) m w := by
  have hread : Sandbox.DiffersAt .configMaps configMapName w.backend
      (w.perform (.get .configMaps configMapName)).2.backend :=
    Sandbox.differsAt_faulty fun other _ =>
      (Sandbox.unchanged_get configMapName).object? .configMaps other
  exact ⟨⟨h.succeeds, hread.trans h.frame, h.faultless, h.isCancelled, h.interruptIn⟩, h.map⟩

theorem puts_mergeSelection (h : w.backend.Faultless) (c : Config) {m : Object .configMaps}
    (hm : (w.backend.shelf .configMaps).store.object? configMapName = some m) :
    Puts (mergeSelection c m) (selected c m) w := by
  -- the map keeps its name and the version at which it was read
  have hname : m.name = configMapName := (h.filed .configMaps).name_eq hm
  have hheld : (w.backend.shelf .configMaps).store.object? (selected c m).name = some m := by
    rw [← hname] at hm
    exact hm
  have hstored := h.update_held hheld rfl
  have hreply : (w.perform (.update .configMaps (selected c m))).1 = .ok _ := hstored.answer
  have hrun : (mergeSelection c m).run w =
      (.ok (), (w.perform (.update .configMaps (selected c m))).2) := by
    unfold mergeSelection
    exact Program.run_ask_bind hreply
  exact puts_of_stored hname hstored hrun rfl rfl rfl

theorem puts_createConfigMap (h : w.backend.Faultless) (c : Config)
    (hfree : (w.backend.shelf .configMaps).store.object? configMapName = none) :
    Puts (createConfigMap c) (freshConfigMap c) w := by
  have hstored := h.create_free (o := freshConfigMap c) hfree
  have hreply : (w.perform (.create .configMaps (freshConfigMap c))).1 = .ok _ := hstored.answer
  have hrun : (createConfigMap c).run w =
      (.ok (), (w.perform (.create .configMaps (freshConfigMap c))).2) := by
    unfold createConfigMap
    exact Program.run_ask_bind hreply
  exact puts_of_stored rfl hstored hrun rfl rfl rfl

/-- The selection is stored, and the map is what becomes of it. -/
theorem puts_storeSelection (h : w.backend.Faultless) (c : Config) :
    Puts (storeSelection c) (selectionMap c w.backend) w := by
  have hread := h.get (c := .configMaps) configMapName
  have hreply : (w.perform (.get .configMaps configMapName)).1 = _ :=
    h.answer_get (c := .configMaps) configMapName
  have hsame := (Sandbox.unchanged_get (c := .configMaps) (s := w.backend) configMapName).object?
    .configMaps configMapName
  unfold Store.lookUp at hreply
  unfold selectionMap
  rw [storeSelection_eq]
  apply Puts.of_read
  -- a map that is there gets the selection, and otherwise a new one is created
  cases hmap : (w.backend.shelf .configMaps).store.object? configMapName with
  | some m =>
    rw [hmap] at hreply hsame
    rw [hreply]
    exact puts_mergeSelection hread c hsame
  | none =>
    rw [hmap] at hreply hsame
    rw [hreply]
    exact puts_createConfigMap hread c hsame

/-- The map has the selection afterwards. -/
theorem exists_selected (h : w.backend.Faultless) (c : Config) :
    ∃ m, (((storeSelection c).run w).2.backend.shelf .configMaps).store.object? configMapName =
      some m ∧ selected c m = m := by
  obtain ⟨version, hmap⟩ := (puts_storeSelection h c).map
  exact ⟨_, hmap, selected_selected c _ version⟩

end EcosystemSetup.Setup

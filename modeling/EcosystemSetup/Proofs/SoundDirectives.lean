import EcosystemSetup.Patch.Directive
import EcosystemSetup.Proofs.EncodedRecords
import EcosystemSetup.Proofs.Lists

/-!
# Sound directives

A directive is checked and encoded by functions that look at the values of its changes each in a way of
its own: the check wants a value that is not null where one belongs, and none at all for a removal; the
encoding only wants one to be there. Main statement: the check accepts exactly the sound directives, and
otherwise points to the first change that is not sound; every sound directive can be encoded, and its
changes are read back from the document, all of them and in their order.
-/

namespace EcosystemSetup.Patch

variable {c : Change} {changes : List Change} {index : Nat}

/-! ## Sound changes -/

/-- A change with an absolute path, and with a value exactly where one belongs. -/
structure Change.Sound (c : Change) : Prop where
  absolute : c.path.toList.head? = some '/'
  /-- An addition or a replacement has a value that is not null. -/
  valued : c.kind ≠ .remove → ∃ v, c.value = some v ∧ v ≠ .null
  /-- A removal has no value, not even null. -/
  bare : c.kind = .remove → c.value = none

theorem hasValue_iff {value : Option Json} :
    hasValue value = true ↔ ∃ v, value = some v ∧ v ≠ .null := by
  cases value with
  | none => simp [hasValue]
  | some v => cases v <;> simp [hasValue]

theorem Change.defect?_eq_none : c.defect? index = none ↔ c.Sound := by
  unfold Change.defect?
  by_cases hpath : c.path.toList.head? = some '/'
  · rw [if_neg (by simp [hpath])]
    -- what is wanted of the value depends on the kind
    have hsound : c.Sound ↔ (c.kind ≠ .remove → hasValue c.value = true) ∧
        (c.kind = .remove → c.value = none) := by
      rw [hasValue_iff]
      exact ⟨fun h => ⟨h.valued, h.bare⟩, fun h => ⟨hpath, h.1, h.2⟩⟩
    rw [hsound]
    cases hkind : c.kind with
    | remove => cases c.value <;> simp
    | add => cases hasValue c.value <;> simp
    | replace => cases hasValue c.value <;> simp
  · rw [if_pos hpath]
    refine iff_of_false (by simp) ?_
    intro h
    exact hpath h.absolute

/-- Every defect of a change is told by its index. -/
theorem Change.reason_of_defect? {defect : Defect} (h : c.defect? index = some defect) :
    ∃ rest, defect.reason = "patch #" ++ toString index ++ ": " ++ rest := by
  have hpath : ": path " = ": " ++ "path " := by decide
  have hremove : ": remove on " = ": " ++ "remove on " := by decide
  unfold Change.defect? at h
  split at h
  · cases h
    refine ⟨"path " ++ Text.quote c.path ++ " must start with '/'", ?_⟩
    simp only [Defect.reason, hpath, String.append_assoc]
  · split at h
    · split at h
      · cases h
        refine ⟨"remove on " ++ c.path ++ " must not carry a value", ?_⟩
        simp only [Defect.reason, hremove, String.append_assoc]
      · cases h
    · split at h
      · cases h
      · cases h
        refine ⟨c.kind.name ++ " on " ++ c.path ++ " needs a value", ?_⟩
        simp only [Defect.reason, String.append_assoc]

/-! ## The first defect -/

/-- Changes up to one that is not sound, the first such. -/
structure FirstUnsound (changes before : List Change) (c : Change) (after : List Change) : Prop where
  split : changes = before ++ c :: after
  sound : ∀ b ∈ before, b.Sound
  unsound : ¬ c.Sound

/-- All changes are sound, or the first one that is not has the defect that is found. -/
theorem firstDefect?_cases (index : Nat) (changes : List Change) :
    (firstDefect? index changes = none ∧ ∀ c ∈ changes, c.Sound) ∨
      ∃ before c after defect, FirstUnsound changes before c after ∧
        c.defect? (index + before.length) = some defect ∧
        firstDefect? index changes = some defect := by
  -- the index moves on with the changes
  induction changes generalizing index with
  | nil => exact Or.inl ⟨rfl, by simp⟩
  | cons c rest ih =>
    rw [firstDefect?]
    cases hdefect : c.defect? index with
    | some defect =>
      have hunsound : ¬ c.Sound := by
        intro hsound
        rw [Change.defect?_eq_none.mpr hsound] at hdefect
        cases hdefect
      exact Or.inr ⟨[], c, rest, defect, ⟨rfl, by simp, hunsound⟩, hdefect, rfl⟩
    | none =>
      have hsound : c.Sound := Change.defect?_eq_none.mp hdefect
      rcases ih (index + 1) with ⟨hnone, hrest⟩ | ⟨before, b, after, defect, hfirst, hb, hsome⟩
      · exact Or.inl ⟨hnone, List.forall_mem_cons.mpr ⟨hsound, hrest⟩⟩
      · refine Or.inr ⟨c :: before, b, after, defect, ⟨?_, ?_, hfirst.unsound⟩, ?_, hsome⟩
        · rw [hfirst.split, List.cons_append]
        · exact List.forall_mem_cons.mpr ⟨hsound, hfirst.sound⟩
        · rw [List.length_cons, Nat.add_comm before.length 1, ← Nat.add_assoc]
          exact hb

/-- A removal has a defect if its value is null. -/
example : firstDefect? 0 [⟨.add, "/data/fqdn", some (.text "")⟩, ⟨.remove, "/data/mail", some .null⟩] =
    some (.surplusValue 1 "/data/mail") := by
  decide +kernel

theorem firstDefect?_eq_none : firstDefect? index changes = none ↔ ∀ c ∈ changes, c.Sound := by
  rcases firstDefect?_cases index changes with
    ⟨hnone, hsound⟩ | ⟨before, c, after, defect, hfirst, -, hsome⟩
  · exact iff_of_true hnone hsound
  · rw [hsome]
    refine iff_of_false (by simp) ?_
    intro hsound
    exact hfirst.unsound (hsound c (by simp [hfirst.split]))

/-! ## Directives -/

/-- The parts of a resource's name with what they are called. -/
def ResourceName.parts (r : ResourceName) : List (String × String) :=
  [("apiVersion", r.apiVersion), ("kind", r.kind), ("name", r.name)]

/-- No part of the name is empty. -/
def ResourceName.Complete (r : ResourceName) : Prop :=
  ∀ part ∈ r.parts, part.2 ≠ ""

theorem ResourceName.complete_iff {r : ResourceName} :
    r.Complete ↔ ¬ (r.apiVersion = "" ∨ r.kind = "" ∨ r.name = "") := by
  simp [ResourceName.Complete, ResourceName.parts]

/-- The error for a name that is not complete names every part. -/
theorem named_in_reason : ∀ key ∈ ["apiVersion", "kind", "name"],
    key.toList <:+: (Defect.reason .unnamedResource).toList := by
  decide +kernel

/-- A directive for a resource whose name is complete, all of whose changes are sound. -/
structure Directive.Sound (d : Directive) : Prop where
  resource : d.resource.Complete
  changes : ∀ c ∈ d.changes, c.Sound

variable {d : Directive}

theorem Directive.defect?_of_complete (h : d.resource.Complete) :
    d.defect? = firstDefect? 0 d.changes := by
  rw [Directive.defect?, if_neg (ResourceName.complete_iff.mp h)]

theorem Directive.defect?_of_not_complete (h : ¬ d.resource.Complete) :
    d.defect? = some .unnamedResource := by
  rw [ResourceName.complete_iff, not_not] at h
  rw [Directive.defect?, if_pos h]

theorem Directive.defect?_eq_none : d.defect? = none ↔ d.Sound := by
  by_cases hresource : d.resource.Complete
  · rw [Directive.defect?_of_complete hresource, firstDefect?_eq_none]
    exact ⟨fun h => ⟨hresource, h⟩, Directive.Sound.changes⟩
  · rw [Directive.defect?_of_not_complete hresource]
    exact iff_of_false (by simp) fun h => hresource h.resource

/-! ## Operations -/

/-- Only an addition and a replacement have no operation, and only without a value. -/
theorem Change.operation?_eq_none : c.operation? = none ↔ c.kind ≠ .remove ∧ c.value = none := by
  obtain ⟨kind, path, value⟩ := c
  cases kind <;> cases value <;> simp [Change.operation?]

/-- The operation of a change is encoded like the change, unless it is a removal with a value. -/
theorem Change.encode_operation {o : Operation} (h : c.operation? = some o)
    (hbare : c.kind = .remove → c.value = none) : o.encode = c.encode := by
  obtain ⟨kind, path, value⟩ := c
  cases kind with
  | remove =>
    have hvalue : value = none := hbare rfl
    subst hvalue
    cases h
    rfl
  | add =>
    cases value with
    | none => cases h
    | some v =>
      cases h
      rfl
  | replace =>
    cases value with
    | none => cases h
    | some v =>
      cases h
      rfl

theorem Directive.operations?_eq_none :
    d.operations? = none ↔ ∃ c ∈ d.changes, c.kind ≠ .remove ∧ c.value = none := by
  unfold Directive.operations?
  simp only [Lists.mapM_eq_none_iff, Change.operation?_eq_none]

/-- Sound changes are encoded as they are. -/
theorem exists_operations (h : ∀ c ∈ changes, c.Sound) :
    ∃ operations, changes.mapM Change.operation? = some operations ∧
      operations.map Operation.encode = changes.map Change.encode := by
  induction changes with
  | nil => exact ⟨[], rfl, rfl⟩
  | cons c rest ih =>
    obtain ⟨hc, hrest⟩ := List.forall_mem_cons.mp h
    obtain ⟨operations, hoperations, hencoded⟩ := ih hrest
    cases ho : c.operation? with
    | none =>
      -- the value that the encoding misses is one that the check wants
      obtain ⟨hkind, hvalue⟩ := Change.operation?_eq_none.mp ho
      obtain ⟨v, hv, -⟩ := hc.valued hkind
      rw [hvalue] at hv
      cases hv
    | some o =>
      refine ⟨o :: operations, ?_, ?_⟩
      · rw [List.mapM_cons, ho, hoperations]
        rfl
      · rw [List.map_cons, List.map_cons, Change.encode_operation ho hc.bare, hencoded]

/-- A directive without a defect can be encoded. -/
theorem Directive.exists_operations (h : d.defect? = none) :
    ∃ operations, d.operations? = some operations := by
  obtain ⟨operations, hoperations, -⟩ := Patch.exists_operations (defect?_eq_none.mp h).changes
  exact ⟨operations, hoperations⟩

/-! ## Reading a document back -/

theorem ChangeKind.ofName?_name (kind : ChangeKind) : ofName? kind.name = some kind := by
  cases kind <;> rfl

/-- The change that an operation of a document stands for. -/
def changeOf? (operation : Json) : Option Change :=
  match operation.field? "op", operation.field? "path" with
  | some (.text op), some (.text path) =>
    (ChangeKind.ofName? op).map fun kind => { kind, path, value := operation.field? "value" }
  | _, _ => none

theorem changeOf?_encode (c : Change) : changeOf? c.encode = some c := by
  have hop : c.encode.field? "op" = some (.text c.kind.name) := rfl
  have hpath : c.encode.field? "path" = some (.text c.path) := rfl
  have hvalue : c.encode.field? "value" = c.value := by
    obtain ⟨kind, path, value⟩ := c
    cases value <;> rfl
  unfold changeOf?
  rw [hop, hpath, hvalue]
  dsimp only
  rw [ChangeKind.ofName?_name]
  rfl

/-! ## Encoded changes as operations -/

/-- The fields that a change is encoded as. -/
def Change.fields (c : Change) : List (String × Json) :=
  [("op", .text c.kind.name), ("path", .text c.path)] ++
    (c.value.map fun v => ("value", v)).toList

theorem Change.sorted_fields (c : Change) : Assoc.Sorted c.fields := by
  have hall : ["op", "path", "value"].Pairwise (· < ·) := by decide +kernel
  have hsub : (c.fields.map Prod.fst).Sublist ["op", "path", "value"] := by
    cases hvalue : c.value <;> simp [fields, hvalue]
  exact List.pairwise_map.mp (hall.sublist hsub)

theorem Change.encode_eq (c : Change) : c.encode = Json.ofFields c.fields := by
  rw [c.sorted_fields.ofFields_eq]
  obtain ⟨kind, path, value⟩ := c
  cases value <;> rfl

open Document in
/-- The operation of a change is what an encoded change is decoded as, if it is taken for an operation. -/
theorem Operation.decode_change (h : ∀ v, c.value = some v → v.Ordered) :
    Operation.decode (ofJson c.encode) = c.operation? := by
  have hpath : (encodedFields c.fields).required "path" text? = some c.path :=
    required_text (c.sorted_fields.get?_ofList (by simp [Change.fields]))
  have hop : (encodedFields c.fields).required "op" variant? = some c.kind.name := by
    apply @required_of_get? _ _ _ (.text c.kind.name)
    · exact c.sorted_fields.get?_ofList (by simp [Change.fields])
    · rfl
  have hvalue : (encodedFields c.fields).required "value" value? = c.value := by
    cases hvalue : c.value with
    | none =>
      apply required_of_get?_none
      simp [Change.fields, hvalue, Assoc.ofList, Assoc.get?]
    | some v =>
      refine required_of_get? ?_ (h v hvalue).value?_ofJson
      simp [Change.fields, hvalue, Assoc.ofList]
  unfold Operation.decode
  rw [Change.encode_eq, fields?_ofFields, Option.bind_eq_bind, Option.bind_some, hpath,
    Option.bind_eq_bind, Option.bind_some, hop, hvalue]
  obtain ⟨kind, path, value⟩ := c
  cases kind <;> cases value <;> rfl

/-! ## Checking and encoding -/

/-- What checking and encoding a directive comes to. -/
structure Examined (d : Directive) : Prop where
  accepted : d.defect? = none ↔ d.Sound
  /-- A part of the resource's name that is empty is named by the error. -/
  unnamed : ¬ d.resource.Complete → d.defect? = some .unnamedResource ∧
    ∀ part ∈ d.resource.parts, part.2 = "" →
      part.1.toList <:+: (Defect.reason .unnamedResource).toList
  /-- The first change that is not sound is named by its index. -/
  offending : d.resource.Complete → ¬ d.Sound →
    ∃ before c after defect rest, FirstUnsound d.changes before c after ∧
      c.defect? before.length = some defect ∧ d.defect? = some defect ∧
      defect.reason = "patch #" ++ toString before.length ++ ": " ++ rest
  /-- Encoding a directive is decoding its changes as operations. -/
  encoded : (∀ c ∈ d.changes, ∀ v, c.value = some v → v.Ordered) →
    d.operations? =
      Document.list? Operation.decode (.ofJson (.list (d.changes.map Change.encode)))
  unencodable : d.operations? = none ↔ ∃ c ∈ d.changes, c.kind ≠ .remove ∧ c.value = none
  /-- A directive that passes the check is encoded, and read back as it was. -/
  readBack : d.defect? = none → ∃ operations, d.operations? = some operations ∧
    (operations.map Operation.encode).mapM changeOf? = some d.changes

/-- Exactly the sound directives pass the check, and nothing of them is lost. -/
theorem examined (d : Directive) : Examined d where
  accepted := Directive.defect?_eq_none
  unnamed := by
    intro hresource
    refine ⟨Directive.defect?_of_not_complete hresource, ?_⟩
    intro part hpart _
    have hkey : part.1 ∈ d.resource.parts.map Prod.fst := List.mem_map_of_mem hpart
    exact named_in_reason part.1 hkey
  offending := by
    intro hresource hunsound
    rw [Directive.defect?_of_complete hresource]
    rcases firstDefect?_cases 0 d.changes with
      ⟨-, hsound⟩ | ⟨before, c, after, defect, hfirst, hc, hsome⟩
    · exact absurd ⟨hresource, hsound⟩ hunsound
    · rw [Nat.zero_add] at hc
      obtain ⟨rest, hrest⟩ := Change.reason_of_defect? hc
      exact ⟨before, c, after, defect, rest, hfirst, hc, hsome, hrest⟩
  encoded := by
    intro hordered
    exact (Document.list?_ofJson fun c hc => Operation.decode_change (hordered c hc)).symm
  unencodable := Directive.operations?_eq_none
  readBack := by
    intro hnone
    obtain ⟨operations, hoperations, hencoded⟩ :=
      exists_operations (Directive.defect?_eq_none.mp hnone).changes
    refine ⟨operations, hoperations, ?_⟩
    rw [hencoded]
    exact Lists.mapM_map_eq_some fun c _ => changeOf?_encode c

end EcosystemSetup.Patch

import EcosystemSetup.Config.File
import EcosystemSetup.Proofs.EncodedConfigurations
import EcosystemSetup.Proofs.JsonTexts
import EcosystemSetup.Proofs.OrderlyDocuments
import EcosystemSetup.Proofs.ValidConfigurations
import EcosystemSetup.Setup.Pipeline

/-!
# Decoded configurations

What becomes of a configuration that was read from YAML or JSON when it is encoded and decoded again. The
readers make only numbers that have the width of their fields and values that are in key order, so all of
it is found again, whatever sections and options it has or lacks; only a value of a change that is there
and null is lost. A configuration that passes the check has no such value.
-/

namespace EcosystemSetup

open Document

/-! ## What a decoder guarantees -/

namespace Patch

variable {doc : Document}

theorem Change.ordered_of_decode {c : Change} (hdoc : doc.Orderly) (h : Change.decode doc = some c) :
    ∀ v, c.value = some v → v.Ordered := by
  simp only [Change.decode, Option.bind_eq_bind, Option.bind_eq_some_iff, Option.pure_def,
    Option.some.injEq] at h
  obtain ⟨fs, hfields, kind, -, path, -, value, hvalue, rfl⟩ := h
  rintro v rfl
  obtain ⟨d, hd, hv⟩ := (hdoc.fields hfields).of_optional hvalue
  exact hd.ordered hv

theorem Directive.ordered_of_decode {d : Directive} (hdoc : doc.Orderly)
    (h : Directive.decode doc = some d) :
    ∀ c ∈ d.changes, ∀ v, c.value = some v → v.Ordered := by
  simp only [Directive.decode, Option.bind_eq_bind, Option.bind_eq_some_iff, Option.pure_def,
    Option.some.injEq] at h
  obtain ⟨fs, hfields, phase, -, resource, -, changes, hchanges, rfl⟩ := h
  exact (hdoc.fields hfields).forall_of_defaulted hchanges (by simp)
    fun _ _ => Change.ordered_of_decode

end Patch

/-! ## Plans -/

namespace Setup

/-- What is printed of the steps of a component. -/
def componentDescriptions (e : Config.ComponentEntry) : List String :=
  ["install component " ++ e.name ++ " (" ++ e.version ++ ")",
    (Plan.PlannedStep.awaitComponent e.name).description]

/-- The descriptions of all steps, which hold nothing of the patches. -/
theorem plan_eq (s : Setup) :
    s.plan = s.plannedSteps.map fun dogus =>
      ["validate setup configuration", "create namespace " ++ s.config.namespaceName] ++
        s.config.components.flatMap componentDescriptions ++
        ["apply resource patches for phase component",
          "write setup configuration to k8s-ces-config"] ++
        dogus.map Plan.PlannedStep.description ++
        ["apply resource patches for phase dogu"] ++
        (if s.config.loadbalancer.enabled then
          ["create loadbalancer service ces-loadbalancer"] else []) ++
        ["apply resource patches for phase loadbalancer"] := by
  have hcomponents (es : List Config.ComponentEntry) :
      (es.flatMap s.componentSteps).map Step.description = es.flatMap componentDescriptions := by
    rw [List.map_flatMap]
    rfl
  have hloadbalancer : s.loadbalancerSteps.map Step.description =
      if s.config.loadbalancer.enabled then ["create loadbalancer service ces-loadbalancer"]
      else [] := by
    unfold loadbalancerSteps
    split <;> rfl
  unfold Setup.plan Setup.pipeline
  cases s.plannedSteps with
  | error e => rfl
  | ok dogus =>
    show Except.ok ((s.steps dogus).map Step.description) = _
    rw [steps]
    simp only [List.map_append, hcomponents, hloadbalancer, List.map_map]
    rfl

end Setup

namespace Config

variable {doc : Document} {c : Config}

theorem Loadbalancer.fits_of_decode {l : Loadbalancer} (hdoc : doc.Orderly)
    (h : Loadbalancer.decode doc = some l) : ∀ p ∈ l.ports, Text.fitsSigned 32 p = true := by
  simp only [Loadbalancer.decode, Option.bind_eq_bind, Option.bind_eq_some_iff, Option.pure_def,
    Option.some.injEq] at h
  obtain ⟨fs, hfields, enabled, -, ports, hports, target, -, rfl⟩ := h
  exact (hdoc.fields hfields).forall_of_defaulted hports (by decide)
    fun _ _ _ => fitsSigned_of_signed32?

theorem lt_of_decodeWait {o : Wait.Overrides} (hdoc : doc.Orderly) (h : decodeWait doc = some o) :
    (∀ n, o.timeoutSecs = some n → n < Text.bound64) ∧
      ∀ n, o.maxReadAttempts = some n → n < Text.bound32 := by
  simp only [decodeWait, Option.bind_eq_bind, Option.bind_eq_some_iff, Option.pure_def,
    Option.some.injEq] at h
  obtain ⟨fs, hfields, timeout, htimeout, attempts, hattempts, rfl⟩ := h
  have hfs : fs.Orderly := hdoc.fields hfields
  constructor
  · rintro n rfl
    obtain ⟨d, -, hd⟩ := hfs.of_optional htimeout
    exact lt_of_unsigned? hd
  · rintro n rfl
    obtain ⟨d, -, hd⟩ := hfs.of_optional hattempts
    exact lt_of_unsigned? hd

/-- The numbers of a configuration that was decoded have the width of their fields, and its values are in
key order. -/
theorem encodable_of_decode (hdoc : doc.Orderly) (h : decode doc = some c) : c.Encodable := by
  simp only [decode, Option.bind_eq_bind, Option.bind_eq_some_iff, Option.pure_def,
    Option.some.injEq] at h
  obtain ⟨fs, hfields, namespaceName, -, dogus, -, components, -, loadbalancer, hloadbalancer, patches,
    hpatches, registryDir, -, wait, hwait, rfl⟩ := h
  have hfs : fs.Orderly := hdoc.fields hfields
  have hports : ∀ p ∈ loadbalancer.ports, Text.fitsSigned 32 p = true := by
    rcases hfs.of_defaulted hloadbalancer with rfl | ⟨d, hd, hdecode⟩
    · decide
    · exact Loadbalancer.fits_of_decode hd hdecode
  have hbounds : (∀ n, wait.timeoutSecs = some n → n < Text.bound64) ∧
      ∀ n, wait.maxReadAttempts = some n → n < Text.bound32 := by
    rcases hfs.of_defaulted hwait with rfl | ⟨d, hd, hdecode⟩
    · simp
    · exact lt_of_decodeWait hd hdecode
  refine ⟨hports, hbounds.1, hbounds.2, ?_⟩
  exact hfs.forall_of_defaulted hpatches (by simp) fun _ _ => Patch.Directive.ordered_of_decode

/-- A configuration that was read, from the text of a file or from JSON. -/
inductive Given (c : Config) : Prop where
  | yaml {s : String} (read : ofYamlText s = some c)
  | json {s : String} (read : (ofJsonText s).bind decode = some c)
  | value {v : Json} (decoded : decode (ofJson v) = some c)

theorem Given.encodable (h : c.Given) : c.Encodable := by
  cases h with
  | yaml read =>
    obtain ⟨doc, hdoc, hdecode⟩ := Option.bind_eq_some_iff.mp read
    exact encodable_of_decode (orderly_ofYamlText hdoc) hdecode
  | json read =>
    obtain ⟨doc, hdoc, hdecode⟩ := Option.bind_eq_some_iff.mp read
    exact encodable_of_decode (orderly_ofJsonText hdoc) hdecode
  | value decoded => exact encodable_of_decode (orderly_ofJson _) decoded

/-! ## Null values -/

/-- No change has a value that is there and null. -/
def NullFree (c : Config) : Prop :=
  ∀ d ∈ c.patches, ∀ change ∈ d.changes, change.value ≠ some .null

theorem settled_eq_self : c.settled = c ↔ c.NullFree := by
  have hpatches : c.settled = c ↔ c.patches.map Patch.Directive.settled = c.patches := by
    cases c
    simp [settled]
  rw [hpatches, Lists.map_eq_self_iff]
  exact forall₂_congr fun d _ => Patch.Directive.settled_eq_self

theorem nullFree_settled (c : Config) : c.settled.NullFree := by
  intro d hd change hchange
  obtain ⟨d, -, rfl⟩ := List.mem_map.mp hd
  obtain ⟨change, -, rfl⟩ := List.mem_map.mp hchange
  exact change.settled_value_ne

/-- A configuration that passes the check has no null values. -/
theorem nullFree_of_validate (h : c.validate = .ok ()) : c.NullFree := by
  obtain ⟨requests, hvalid⟩ := validate_eq_ok.mp h
  intro d hd change hchange hnull
  have hsound : change.Sound :=
    (Patch.Directive.defect?_eq_none.mp (hvalid.patches d hd)).changes change hchange
  by_cases hkind : change.kind = .remove
  · rw [hsound.bare hkind] at hnull
    cases hnull
  · obtain ⟨v, hv, hne⟩ := hsound.valued hkind
    rw [hv] at hnull
    exact hne (Option.some.inj hnull)

/-- A plan does not depend on the values of changes. -/
theorem plan_settled (registry : Registry) (settings : Wait.Settings) :
    Setup.plan ⟨c.settled, registry, settings⟩ = Setup.plan ⟨c, registry, settings⟩ := by
  have hplanned : Setup.plannedSteps ⟨c.settled, registry, settings⟩ =
      Setup.plannedSteps ⟨c, registry, settings⟩ := rfl
  rw [Setup.plan_eq, Setup.plan_eq, hplanned, settled]

/-! ## Texts -/

theorem readable_ofInt {depth : Nat} {n : Int} (h : Text.fitsSigned 32 n = true) :
    Readable depth (Json.ofInt n) := by
  have hbounds : -2147483648 ≤ n ∧ n < 2147483648 := by
    simpa [Text.fitsSigned, and_comm] using h
  unfold Json.ofInt
  by_cases hn : 0 ≤ n
  · obtain ⟨m, rfl⟩ := Int.eq_ofNat_of_zero_le hn
    refine .natural ?_
    unfold Text.bound64
    omega
  · obtain ⟨m, hm⟩ := Int.eq_ofNat_of_zero_le (by omega : 0 ≤ -n)
    obtain rfl : n = -(m : Int) := by omega
    exact .negative (by omega) (by omega)

theorem readable_optionField {α : Type} {depth : Nat} {key : String} {encode : α → Json}
    {x : Option α} (h : ∀ a, x = some a → Readable depth (encode a)) :
    ∀ f ∈ optionField key (x.map encode), Readable depth f.2 := by
  cases x with
  | none => simp [optionField]
  | some a => simpa [optionField] using h a rfl

section Records

variable {depth : Nat}

theorem readable_change {change : Patch.Change} (h : ∀ v, change.value = some v → Readable depth v) :
    Readable (depth + 1) change.encode := by
  rw [change.encode_eq]
  refine readable_ofFields (List.forall_mem_append.mpr ⟨?_, ?_⟩)
  · simp [Readable.text]
  · cases hv : change.value with
    | none => simp
    | some v => simpa using h v hv

theorem readable_directive {d : Patch.Directive}
    (h : ∀ change ∈ d.changes, ∀ v, change.value = some v → Readable depth v) :
    Readable (depth + 3) d.encode := by
  rw [d.encode_eq]
  have hchanges := readable_items fun change hchange => readable_change (h change hchange)
  have hresource : Readable (depth + 2) d.resource.encode := by
    rw [d.resource.encode_eq]
    refine readable_ofFields ?_
    simp [Patch.ResourceName.fields, Readable.text]
  refine readable_ofFields ?_
  simp [Patch.Directive.fields, hchanges, hresource, Readable.text]

theorem readable_component (e : ComponentEntry) : Readable (depth + 1) e.encode := by
  rw [e.encode_eq]
  refine readable_ofFields (List.forall_mem_append.mpr ⟨?_, ?_⟩)
  · exact readable_optionField fun s _ => .text s
  · simp [Readable.text]

theorem readable_dogus (s : DoguSelection) : Readable (depth + 2) s.encode := by
  rw [s.encode_eq]
  have hinstall : Readable (depth + 1) (Json.ofTexts s.install) := readable_items fun s _ => .text s
  refine readable_ofFields ?_
  simp [DoguSelection.fields, hinstall, Readable.text]

theorem readable_loadbalancer {l : Loadbalancer} (h : ∀ p ∈ l.ports, Text.fitsSigned 32 p = true) :
    Readable (depth + 2) l.encode := by
  rw [l.encode_eq]
  have hports : Readable (depth + 1) (.list (l.ports.map Json.ofInt)) :=
    readable_items fun p hp => readable_ofInt (h p hp)
  refine readable_ofFields ?_
  simp [Loadbalancer.fields, hports, Readable.text, Readable.bool]

theorem readable_wait {o : Wait.Overrides}
    (htimeout : ∀ n, o.timeoutSecs = some n → n < Text.bound64)
    (hattempts : ∀ n, o.maxReadAttempts = some n → n < Text.bound32) :
    Readable (depth + 1) (encodeWait o) := by
  rw [encodeWait_eq]
  refine readable_ofFields (List.forall_mem_append.mpr ⟨?_, ?_⟩)
  · exact readable_optionField fun n hn => .natural (lt_trans (hattempts n hn) (by decide))
  · exact readable_optionField fun n hn => .natural (htimeout n hn)

/-- An encoded configuration is read back from its text if the values of its changes are. -/
theorem readable_encode (hc : c.Encodable)
    (h : ∀ d ∈ c.patches, ∀ change ∈ d.changes, ∀ v, change.value = some v → Readable depth v) :
    Readable (depth + 5) c.encode := by
  rw [c.encode_eq]
  have hcomponents : Readable (depth + 4) (.list (c.components.map ComponentEntry.encode)) :=
    readable_items fun e _ => readable_component e
  have hpatches : Readable (depth + 4) (.list (c.patches.map Patch.Directive.encode)) :=
    readable_items fun d hd => readable_directive (h d hd)
  have hloadbalancer : Readable (depth + 4) c.loadbalancer.encode := readable_loadbalancer hc.ports
  have hwait : Readable (depth + 4) (encodeWait c.wait) :=
    readable_wait hc.timeoutSecs hc.maxReadAttempts
  have hdir : ∀ f ∈ optionField "registryDir" (c.registryDir.map .text),
      Readable (depth + 4) f.2 :=
    readable_optionField fun s _ => .text s
  refine readable_ofFields ?_
  refine List.forall_mem_append.mpr ⟨List.forall_mem_append.mpr ⟨?_, hdir⟩, ?_⟩
  · simp [hcomponents, hloadbalancer, readable_dogus, Readable.text]
  · simp [hpatches, hwait]

end Records

/-! ## Configurations -/

/-- A configuration, and another one that is decoded from what it is encoded as. -/
structure Agrees (c e : Config) : Prop where
  encoded : e.encode = c.encode
  checked : e.validate = c.validate
  planned : ∀ registry settings,
    Setup.plan ⟨e, registry, settings⟩ = Setup.plan ⟨c, registry, settings⟩

/-- What becomes of a configuration that is encoded and decoded again. -/
structure RoundTrips (c : Config) : Prop where
  /-- Values of changes that are null are left out. -/
  decoded : decode (ofJson c.encode) = some c.settled
  /-- It is the same configuration exactly if there are none of these. -/
  same : decode (ofJson c.encode) = some c ↔ c.NullFree
  agrees : c.NullFree → ∀ e, decode (ofJson c.encode) = some e → c.Agrees e
  /-- The JSON text of the encoded configuration can be decoded as well, unless there are doubles in it or
  values that are too deep. Doubles are left out because readers of JSON convert them inexactly unless they
  are told otherwise, so that a neighbour of the double that was written may come back. Texts in YAML are
  only read here and never written. -/
  text : (∀ d ∈ c.patches, ∀ change ∈ d.changes, ∀ v, change.value = some v → Readable 122 v) →
    (ofJsonText c.encode.render).bind decode = some c.settled
  /-- There are no null values in a configuration that passes the check. -/
  checked : c.validate = .ok () → decode (ofJson c.encode) = some c
  planned : ∀ registry settings,
    Setup.plan ⟨c.settled, registry, settings⟩ = Setup.plan ⟨c, registry, settings⟩
  /-- Nothing more is left out the next time. -/
  fixed : decode (ofJson c.settled.encode) = some c.settled

/-- A configuration that was read is decoded from what it is encoded as: the same one, if no value of a
change is null. -/
theorem configuration_round_trips {c : Config} (h : c.Given) : c.RoundTrips := by
  -- the readers make only values in key order, and numbers that fit their fields
  have hencodable : c.Encodable := h.encodable
  have hdecoded : decode (ofJson c.encode) = some c.settled := decode_encode hencodable
  have hsame : decode (ofJson c.encode) = some c ↔ c.NullFree := by
    rw [hdecoded, Option.some.injEq, settled_eq_self]
  have hchecked : c.validate = .ok () → decode (ofJson c.encode) = some c := by
    intro hvalid
    exact hsame.mpr (nullFree_of_validate hvalid)
  refine ⟨hdecoded, hsame, ?_, ?_, hchecked, plan_settled, ?_⟩
  · intro hnull e he
    obtain rfl : e = c := Option.some.inj (he.symm.trans (hsame.mpr hnull))
    exact ⟨rfl, rfl, fun _ _ => rfl⟩
  · intro hreadable
    rw [ofJsonText_render (readable_encode hencodable hreadable), Option.bind_some, hdecoded]
  · -- what was decoded is itself a configuration that was read
    have hsettled : c.settled.Given := .value hdecoded
    rw [decode_encode hsettled.encodable, settled_eq_self.mpr c.nullFree_settled]

/-- The fields of a configuration that lacks most sections and has a patch with a nested value. -/
def annotatingFields : Json :=
  .record
    [("components", .list [.record [("name", .text "k8s-dogu-operator"), ("version", .text "3.1.0")]]),
      ("namespace", .text "ecosystem"),
      ("resourcePatches",
        .list
          [.record
            [("patches",
                .list
                  [.record
                    [("op", .text "add"), ("path", .text "/metadata/annotations"),
                      ("value",
                        .record [("owner", .null), ("ports", .list [Json.ofInt 80, .bool true])])],
                    .record
                      [("op", .text "remove"), ("path", .text "/spec/selector"), ("value", .null)]]),
              ("phase", .text "loadbalancer"),
              ("resource", .list [.text "v1", .text "Service", .text "ces-loadbalancer"])]])]

/-- The configuration that is written there. -/
def annotating : Config where
  namespaceName := "ecosystem"
  components := [{ name := "k8s-dogu-operator", version := "3.1.0" }]
  patches :=
    [{ phase := .loadbalancer, resource := ⟨"v1", "Service", "ces-loadbalancer"⟩
       changes :=
        [⟨.add, "/metadata/annotations",
            some (.record [("owner", .null), ("ports", .list [Json.ofInt 80, .bool true])])⟩,
          ⟨.remove, "/spec/selector", none⟩] }]

/-- It was read, and so was a configuration from YAML. -/
theorem configuration_round_trips_annotating :
    (decode (ofJson annotatingFields) = some annotating ∧ annotating.RoundTrips) ∧
      ∃ c, ofYamlText "namespace: ecosystem\nwait:\n  timeoutSecs: 60\n" = some c ∧
        c.loadbalancer = {} ∧ c.wait = { timeoutSecs := some 60 } ∧ c.RoundTrips := by
  have hvalue : decode (ofJson annotatingFields) = some annotating := rfl
  have hyaml : (ofYamlText "namespace: ecosystem\nwait:\n  timeoutSecs: 60\n").map
      (fun c => (c.loadbalancer, c.wait)) = some ({}, { timeoutSecs := some 60 }) := by
    decide +kernel
  obtain ⟨c, hc, hparts⟩ := Option.map_eq_some_iff.mp hyaml
  obtain ⟨hloadbalancer, hwait⟩ := Prod.mk.inj hparts
  exact ⟨⟨hvalue, configuration_round_trips (.value hvalue)⟩, c, hc, hloadbalancer, hwait,
    configuration_round_trips (.yaml hc)⟩

end Config

end EcosystemSetup

import EcosystemSetup.Config.Basic
import EcosystemSetup.Proofs.SoundDirectives

/-!
# Encoded configurations

Every record of a configuration is encoded with its fields in key order, so its decoder finds each field
under its key; what was left out is an absent option, and what has a default is always written. Only a
value of a change is not always found again: one that is null counts as absent. Main statement: an encoded
configuration is decoded as the configuration without such values, if its numbers have the width of their
fields and its values are in key order.
-/

namespace EcosystemSetup

/-! ## Numbers and names -/

namespace Document

theorem signed32?_ofJson {n : Int} (h : Text.fitsSigned 32 n = true) :
    signed32? (ofJson (Json.ofInt n)) = some n := by
  simp [Json.ofInt, ofJson, scalarOfJson, signed32?, h]

theorem texts?_ofJson (ss : List String) : list? text? (ofJson (Json.ofTexts ss)) = some ss :=
  list?_ofItems fun _ _ => rfl

theorem unsigned?_ofJson {bound n : Nat} (h : n < bound) :
    unsigned? bound (ofJson (Json.ofNat n)) = some n := by
  simp [Json.ofNat, ofJson, scalarOfJson, unsigned?, h]

theorem fitsSigned_of_signed32? {d : Document} {n : Int} (h : d.signed32? = some n) :
    Text.fitsSigned 32 n = true := by
  induction d using signed32?.induct with
  | case1 s => exact (Option.filter_eq_some_iff.mp h).2
  | case2 tag body ih => exact ih h
  | case3 d _ _ => cases d <;> simp_all [signed32?]

theorem lt_of_unsigned? {bound : Nat} {d : Document} {n : Nat} (h : d.unsigned? bound = some n) :
    n < bound := by
  induction d using unsigned?.induct with
  | case1 s => exact of_decide_eq_true (Option.filter_eq_some_iff.mp h).2
  | case2 tag body ih => exact ih h
  | case3 d _ _ => cases d <;> simp_all [unsigned?]

end Document

theorem Phase.decode_name (phase : Phase) : decode (.ofJson (.text phase.name)) = some phase := by
  cases phase <;> rfl

/-! ## Patches -/

namespace Patch

open Document

/-- A value that is encoded as it is, or left out, is decoded as it is, unless it is null. -/
theorem optional_of_value {fields : List (String × Json)} {name : String} {value : Option Json}
    (hget : Assoc.get? name (Assoc.ofList fields) = value)
    (h : ∀ v, value = some v → v.Ordered) :
    (encodedFields fields).optional name value? =
      some (if hasValue value then value else none) := by
  cases value with
  | none => exact defaulted_of_get?_none hget
  | some v =>
    by_cases hnull : v = .null
    · subst hnull
      exact optional_of_null hget
    · have hvalue : hasValue (some v) = true := hasValue_iff.mpr ⟨v, rfl, hnull⟩
      rw [if_pos hvalue]
      refine defaulted_of_get? hget ?_
      rw [optional?_ofJson hnull, (h v rfl).value?_ofJson, Option.map_some]

theorem ChangeKind.decode_name (kind : ChangeKind) : decode (ofJson (.text kind.name)) = some kind :=
  ofName?_name kind

namespace ResourceName

/-- The fields that a resource name is encoded as. -/
def fields (r : ResourceName) : List (String × Json) :=
  [("apiVersion", .text r.apiVersion), ("kind", .text r.kind), ("name", .text r.name)]

theorem sorted_fields (r : ResourceName) : Assoc.Sorted r.fields :=
  List.pairwise_map.mp (by decide +kernel : ["apiVersion", "kind", "name"].Pairwise (· < ·))

theorem encode_eq (r : ResourceName) : r.encode = Json.ofFields r.fields :=
  Eq.symm r.sorted_fields.ofFields_eq

theorem decode_encode (r : ResourceName) : decode (ofJson r.encode) = some r := by
  have hversion : (encodedFields r.fields).required "apiVersion" text? = some r.apiVersion :=
    required_text (r.sorted_fields.get?_ofList (by simp [fields]))
  have hkind : (encodedFields r.fields).required "kind" text? = some r.kind :=
    required_text (r.sorted_fields.get?_ofList (by simp [fields]))
  have hname : (encodedFields r.fields).required "name" text? = some r.name :=
    required_text (r.sorted_fields.get?_ofList (by simp [fields]))
  rw [encode_eq, decode, fields?_ofFields]
  simp [hversion, hkind, hname]

end ResourceName

namespace Change

/-- What becomes of a change that is encoded and decoded: a value that is null counts as absent. -/
def settled (c : Change) : Change :=
  { c with value := if hasValue c.value then c.value else none }

theorem settled_eq_self {c : Change} : c.settled = c ↔ c.value ≠ some .null := by
  obtain ⟨kind, path, value⟩ := c
  cases value with
  | none => simp [settled, hasValue]
  | some v => cases v <;> simp [settled, hasValue]

/-- A removal that is refused for its null value is a sound one once it has been encoded and decoded. -/
example : settled ⟨.remove, "/data/mail", some .null⟩ = ⟨.remove, "/data/mail", none⟩ := rfl

theorem settled_value_ne (c : Change) : c.settled.value ≠ some .null := by
  obtain ⟨kind, path, value⟩ := c
  cases value with
  | none => simp [settled]
  | some v => cases v <;> simp [settled, hasValue]

theorem decode_encode {c : Change} (h : ∀ v, c.value = some v → v.Ordered) :
    decode (ofJson c.encode) = some c.settled := by
  have hop : Assoc.get? "op" (Assoc.ofList c.fields) = some (.text c.kind.name) :=
    c.sorted_fields.get?_ofList (by simp [fields])
  have hpath : Assoc.get? "path" (Assoc.ofList c.fields) = some (.text c.path) :=
    c.sorted_fields.get?_ofList (by simp [fields])
  have hvalue : Assoc.get? "value" (Assoc.ofList c.fields) = c.value := by
    cases hvalue : c.value <;> simp [fields, hvalue, Assoc.ofList, Assoc.get?]
  have hop' := required_of_get? hop (ChangeKind.decode_name c.kind)
  have hpath' := required_text hpath
  have hvalue' := optional_of_value hvalue h
  rw [encode_eq, decode, fields?_ofFields]
  simp [hop', hpath', hvalue', settled]

end Change

namespace Directive

/-- The fields that a directive is encoded as. -/
def fields (d : Directive) : List (String × Json) :=
  [("patches", .list (d.changes.map Change.encode)), ("phase", .text d.phase.name),
    ("resource", d.resource.encode)]

theorem sorted_fields (d : Directive) : Assoc.Sorted d.fields :=
  List.pairwise_map.mp (by decide +kernel : ["patches", "phase", "resource"].Pairwise (· < ·))

theorem encode_eq (d : Directive) : d.encode = Json.ofFields d.fields :=
  Eq.symm d.sorted_fields.ofFields_eq

/-- What becomes of a directive that is encoded and decoded. -/
def settled (d : Directive) : Directive :=
  { d with changes := d.changes.map Change.settled }

theorem settled_eq_self {d : Directive} :
    d.settled = d ↔ ∀ c ∈ d.changes, c.value ≠ some .null := by
  have hchanges : d.settled = d ↔ d.changes.map Change.settled = d.changes := by
    cases d
    simp [settled]
  rw [hchanges, Lists.map_eq_self_iff]
  exact forall₂_congr fun c _ => Change.settled_eq_self

theorem decode_encode {d : Directive} (h : ∀ c ∈ d.changes, ∀ v, c.value = some v → v.Ordered) :
    decode (ofJson d.encode) = some d.settled := by
  have hphase : (encodedFields d.fields).required "phase" Phase.decode = some d.phase :=
    required_of_get? (d.sorted_fields.get?_ofList (by simp [fields])) d.phase.decode_name
  have hresource : (encodedFields d.fields).required "resource" ResourceName.decode =
      some d.resource :=
    required_of_get? (d.sorted_fields.get?_ofList (by simp [fields])) d.resource.decode_encode
  have hchanges : (encodedFields d.fields).defaulted "patches" [] (list? Change.decode) =
      some (d.changes.map Change.settled) :=
    defaulted_of_get? (d.sorted_fields.get?_ofList (by simp [fields]))
      (list?_ofMapped fun c hc => Change.decode_encode (h c hc))
  rw [encode_eq, decode, fields?_ofFields]
  simp [hphase, hresource, hchanges, settled]

end Directive

end Patch

/-! ## Sections -/

namespace Config

open Document

namespace DoguSelection

/-- The fields that a selection of dogus is encoded as. -/
def fields (s : DoguSelection) : List (String × Json) :=
  [("defaultDogu", .text s.defaultDogu), ("install", Json.ofTexts s.install)]

theorem sorted_fields (s : DoguSelection) : Assoc.Sorted s.fields :=
  List.pairwise_map.mp (by decide +kernel : ["defaultDogu", "install"].Pairwise (· < ·))

theorem encode_eq (s : DoguSelection) : s.encode = Json.ofFields s.fields :=
  Eq.symm s.sorted_fields.ofFields_eq

theorem decode_encode (s : DoguSelection) : decode (ofJson s.encode) = some s := by
  have hdefault : (encodedFields s.fields).defaulted "defaultDogu" "" text? = some s.defaultDogu :=
    defaulted_text (s.sorted_fields.get?_ofList (by simp [fields]))
  have hinstall : (encodedFields s.fields).defaulted "install" [] (list? text?) = some s.install :=
    defaulted_of_get? (s.sorted_fields.get?_ofList (by simp [fields])) (texts?_ofJson s.install)
  rw [encode_eq, decode, fields?_ofFields]
  simp [hdefault, hinstall]

end DoguSelection

namespace ComponentEntry

/-- The fields that a component is encoded as. -/
def fields (c : ComponentEntry) : List (String × Json) :=
  optionField "deployNamespace" (c.deployNamespace.map .text) ++
    [("helmNamespace", .text c.helmNamespace), ("name", .text c.name), ("version", .text c.version)]

theorem sorted_fields (c : ComponentEntry) : Assoc.Sorted c.fields := by
  have hall : ["deployNamespace", "helmNamespace", "name", "version"].Pairwise (· < ·) := by
    decide +kernel
  have hsub : (c.fields.map Prod.fst).Sublist
      ["deployNamespace", "helmNamespace", "name", "version"] := by
    cases hdeploy : c.deployNamespace <;> simp [fields, hdeploy, optionField]
  exact List.pairwise_map.mp (hall.sublist hsub)

theorem encode_eq (c : ComponentEntry) : c.encode = Json.ofFields c.fields :=
  Eq.symm c.sorted_fields.ofFields_eq

theorem decode_encode (c : ComponentEntry) : decode (ofJson c.encode) = some c := by
  have hname : (encodedFields c.fields).required "name" text? = some c.name :=
    required_text (c.sorted_fields.get?_ofList (by simp [fields]))
  have hversion : (encodedFields c.fields).required "version" text? = some c.version :=
    required_text (c.sorted_fields.get?_ofList (by simp [fields]))
  have hhelm : (encodedFields c.fields).defaulted "helmNamespace" "k8s" text? =
      some c.helmNamespace :=
    defaulted_text (c.sorted_fields.get?_ofList (by simp [fields]))
  have hdeploy : (encodedFields c.fields).optional "deployNamespace" text? =
      some c.deployNamespace := by
    apply optional_text
    cases hdeploy : c.deployNamespace <;>
      simp [fields, hdeploy, optionField, Assoc.ofList, Assoc.get?]
  rw [encode_eq, decode, fields?_ofFields]
  simp [hname, hversion, hhelm, hdeploy]

end ComponentEntry

namespace Loadbalancer

/-- The fields that a load balancer is encoded as. -/
def fields (l : Loadbalancer) : List (String × Json) :=
  [("enabled", .bool l.enabled), ("ports", .list (l.ports.map Json.ofInt)),
    ("targetDogu", .text l.targetDogu)]

theorem sorted_fields (l : Loadbalancer) : Assoc.Sorted l.fields :=
  List.pairwise_map.mp (by decide +kernel : ["enabled", "ports", "targetDogu"].Pairwise (· < ·))

theorem encode_eq (l : Loadbalancer) : l.encode = Json.ofFields l.fields :=
  Eq.symm l.sorted_fields.ofFields_eq

theorem decode_encode {l : Loadbalancer} (h : ∀ p ∈ l.ports, Text.fitsSigned 32 p = true) :
    decode (ofJson l.encode) = some l := by
  have henabled : Assoc.get? "enabled" (Assoc.ofList l.fields) = some (.bool l.enabled) :=
    l.sorted_fields.get?_ofList (by simp [fields])
  have henabled' : (encodedFields l.fields).defaulted "enabled" false flag? = some l.enabled :=
    defaulted_of_get? henabled rfl
  have hports : (encodedFields l.fields).defaulted "ports" [80, 443] (list? signed32?) =
      some l.ports :=
    defaulted_of_get? (l.sorted_fields.get?_ofList (by simp [fields]))
      (list?_ofItems fun p hp => signed32?_ofJson (h p hp))
  have htarget : (encodedFields l.fields).defaulted "targetDogu" "nginx-ingress" text? =
      some l.targetDogu :=
    defaulted_text (l.sorted_fields.get?_ofList (by simp [fields]))
  rw [encode_eq, decode, fields?_ofFields]
  simp [henabled', hports, htarget]

end Loadbalancer

/-- The fields that overrides of the timing are encoded as. -/
def waitFields (o : Wait.Overrides) : List (String × Json) :=
  optionField "maxReadAttempts" (o.maxReadAttempts.map Json.ofNat) ++
    optionField "timeoutSecs" (o.timeoutSecs.map Json.ofNat)

theorem sorted_waitFields (o : Wait.Overrides) : Assoc.Sorted (waitFields o) := by
  have hall : ["maxReadAttempts", "timeoutSecs"].Pairwise (· < ·) := by decide +kernel
  have hsub : ((waitFields o).map Prod.fst).Sublist ["maxReadAttempts", "timeoutSecs"] := by
    obtain ⟨timeout, attempts⟩ := o
    cases timeout <;> cases attempts <;> simp [waitFields, optionField]
  exact List.pairwise_map.mp (hall.sublist hsub)

theorem encodeWait_eq (o : Wait.Overrides) : encodeWait o = Json.ofFields (waitFields o) :=
  Eq.symm (sorted_waitFields o).ofFields_eq

theorem decodeWait_encodeWait {o : Wait.Overrides}
    (htimeout : ∀ n, o.timeoutSecs = some n → n < Text.bound64)
    (hattempts : ∀ n, o.maxReadAttempts = some n → n < Text.bound32) :
    decodeWait (ofJson (encodeWait o)) = some o := by
  have htimeout' : (encodedFields (waitFields o)).optional "timeoutSecs"
      (unsigned? Text.bound64) = some o.timeoutSecs := by
    refine @optional_of_get? _ _ _ _ Json.ofNat _ ?_
      fun n hn => ⟨Json.noConfusion, unsigned?_ofJson (htimeout n hn)⟩
    obtain ⟨timeout, attempts⟩ := o
    cases timeout <;> cases attempts <;> simp [waitFields, optionField, Assoc.ofList, Assoc.get?]
  have hattempts' : (encodedFields (waitFields o)).optional "maxReadAttempts"
      (unsigned? Text.bound32) = some o.maxReadAttempts := by
    refine @optional_of_get? _ _ _ _ Json.ofNat _ ?_
      fun n hn => ⟨Json.noConfusion, unsigned?_ofJson (hattempts n hn)⟩
    obtain ⟨timeout, attempts⟩ := o
    cases timeout <;> cases attempts <;> simp [waitFields, optionField, Assoc.ofList, Assoc.get?]
  rw [encodeWait_eq, decodeWait, fields?_ofFields]
  simp [htimeout', hattempts']

/-! ## Configurations -/

variable {c : Config}

/-- The fields that a configuration is encoded as. -/
def fields (c : Config) : List (String × Json) :=
  [("components", .list (c.components.map ComponentEntry.encode)), ("dogus", c.dogus.encode),
    ("loadbalancer", c.loadbalancer.encode), ("namespace", .text c.namespaceName)] ++
    optionField "registryDir" (c.registryDir.map .text) ++
    [("resourcePatches", .list (c.patches.map Patch.Directive.encode)), ("wait", encodeWait c.wait)]

theorem sorted_fields (c : Config) : Assoc.Sorted c.fields := by
  have hall : ["components", "dogus", "loadbalancer", "namespace", "registryDir", "resourcePatches",
      "wait"].Pairwise (· < ·) := by decide +kernel
  have hsub : (c.fields.map Prod.fst).Sublist ["components", "dogus", "loadbalancer", "namespace",
      "registryDir", "resourcePatches", "wait"] := by
    cases hdir : c.registryDir <;> simp [fields, hdir, optionField]
  exact List.pairwise_map.mp (hall.sublist hsub)

theorem encode_eq (c : Config) : c.encode = Json.ofFields c.fields := by
  rw [c.sorted_fields.ofFields_eq]
  rfl

/-- What becomes of a configuration that is encoded and decoded. -/
def settled (c : Config) : Config :=
  { c with patches := c.patches.map Patch.Directive.settled }

/-- A configuration whose numbers have the width of their fields, and whose values are in key order. -/
structure Encodable (c : Config) : Prop where
  ports : ∀ p ∈ c.loadbalancer.ports, Text.fitsSigned 32 p = true
  timeoutSecs : ∀ n, c.wait.timeoutSecs = some n → n < Text.bound64
  maxReadAttempts : ∀ n, c.wait.maxReadAttempts = some n → n < Text.bound32
  values : ∀ d ∈ c.patches, ∀ change ∈ d.changes, ∀ v, change.value = some v → v.Ordered

/-- An encoded configuration is decoded as what it was, apart from null values. -/
theorem decode_encode (h : c.Encodable) : decode (ofJson c.encode) = some c.settled := by
  have hget {name : String} {value : Json} (hmem : (name, value) ∈ c.fields) :
      Assoc.get? name (Assoc.ofList c.fields) = some value :=
    c.sorted_fields.get?_ofList hmem
  have hnamespace : (encodedFields c.fields).required "namespace" text? = some c.namespaceName :=
    required_text (hget (by simp [fields]))
  have hdogus : (encodedFields c.fields).defaulted "dogus" {} DoguSelection.decode = some c.dogus :=
    defaulted_of_get? (hget (by simp [fields])) c.dogus.decode_encode
  have hcomponents : (encodedFields c.fields).defaulted "components" []
      (list? ComponentEntry.decode) = some c.components :=
    defaulted_of_get? (hget (by simp [fields])) (list?_ofItems fun e _ => e.decode_encode)
  have hloadbalancer : (encodedFields c.fields).defaulted "loadbalancer" {} Loadbalancer.decode =
      some c.loadbalancer :=
    defaulted_of_get? (hget (by simp [fields])) (Loadbalancer.decode_encode h.ports)
  have hpatches : (encodedFields c.fields).defaulted "resourcePatches" []
      (list? Patch.Directive.decode) = some (c.patches.map Patch.Directive.settled) :=
    defaulted_of_get? (hget (by simp [fields]))
      (list?_ofMapped fun d hd => Patch.Directive.decode_encode (h.values d hd))
  have hdir : (encodedFields c.fields).optional "registryDir" text? = some c.registryDir := by
    apply optional_text
    cases hdir : c.registryDir <;> simp [fields, hdir, optionField, Assoc.ofList, Assoc.get?]
  have hwait : (encodedFields c.fields).defaulted "wait" {} decodeWait = some c.wait :=
    defaulted_of_get? (hget (by simp [fields])) (decodeWait_encodeWait h.timeoutSecs h.maxReadAttempts)
  rw [encode_eq, decode, fields?_ofFields]
  simp [hnamespace, hdogus, hcomponents, hloadbalancer, hpatches, hdir, hwait, settled]

end Config

end EcosystemSetup

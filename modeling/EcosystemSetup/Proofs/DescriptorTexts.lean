import EcosystemSetup.Proofs.EncodedRecords
import EcosystemSetup.Proofs.JsonTexts
import EcosystemSetup.Registry.Directory

/-!
# Descriptors as texts

A descriptor is decoded from what it is encoded as, and from the text of that. A field that is left out
because it has its default value is decoded as that value. Only an account kind can be lost: one that
counts as unknown but bears the name of a known one, which nothing is decoded to.
-/

namespace EcosystemSetup

open Dogu

/-! ## Encoded records -/

namespace Document

section Fields

variable {α : Type} {fields : List (String × Json)} {skip : Bool} {name other : String} {value : Json}
  {x fallback : α} {decode : Document → Option α}

/-- A field that may be left out does not hide others. -/
theorem get?_append_fieldUnless_ne (h : other ≠ name) :
    Assoc.get? other (Assoc.ofList (fields ++ fieldUnless skip name value)) =
      Assoc.get? other (Assoc.ofList fields) := by
  cases skip with
  | true => simp [fieldUnless]
  | false => simp [fieldUnless, Assoc.ofList, h]

theorem required_append_fieldUnless_ne (h : other ≠ name) :
    (encodedFields (fields ++ fieldUnless skip name value)).required other decode =
      (encodedFields fields).required other decode := by
  unfold Fields.required encodedFields
  dsimp only
  rw [get?_append_fieldUnless_ne h]

theorem defaulted_append_fieldUnless_ne (h : other ≠ name) :
    (encodedFields (fields ++ fieldUnless skip name value)).defaulted other fallback decode =
      (encodedFields fields).defaulted other fallback decode := by
  unfold Fields.defaulted encodedFields
  dsimp only
  rw [get?_append_fieldUnless_ne h]

/-- A field that is left out exactly if it has its default value is decoded as its value. -/
theorem defaulted_append_fieldUnless (hnone : Assoc.get? name (Assoc.ofList fields) = none)
    (hskip : skip = true → x = fallback) (hdecode : decode (ofJson value) = some x) :
    (encodedFields (fields ++ fieldUnless skip name value)).defaulted name fallback decode =
      some x := by
  cases skip with
  | true =>
    rw [hskip rfl, fieldUnless, if_pos rfl, List.append_nil]
    exact defaulted_of_get?_none hnone
  | false =>
    have hget : Assoc.get? name (Assoc.ofList (fields ++ fieldUnless false name value)) =
        some value := by
      simp [fieldUnless, Assoc.ofList]
    exact defaulted_of_get? hget hdecode

theorem readable_fieldUnless {depth : Nat} (h : Readable depth value) :
    ∀ f ∈ fieldUnless skip name value, Readable depth f.2 := by
  intro f hf
  cases skip with
  | true => cases hf
  | false =>
    rw [List.mem_singleton.mp hf]
    exact h

end Fields

end Document

namespace Dogu

open Document

/-! ## The parts of a descriptor -/

theorem DependencyType.ofName?_name (t : DependencyType) : ofName? t.name = some t := by
  cases t <;> rfl

namespace Dependency

/-- The fields that a dependency is encoded as. -/
def fields (d : Dependency) : List (String × Json) :=
  [("Type", .text d.type.name), ("Name", .text d.name)] ++
    fieldUnless (d.version == "") "Version" (.text d.version)

theorem encode_eq (d : Dependency) : d.encode = Json.ofFields d.fields := rfl

theorem decode_encode (d : Dependency) : decode (ofJson d.encode) = some d := by
  have htype : (encodedFields d.fields).defaulted "Type" .dogu DependencyType.decode =
      some d.type := by
    rw [fields, defaulted_append_fieldUnless_ne (by decide)]
    apply @defaulted_of_get? _ _ _ (.text d.type.name)
    · simp [Assoc.ofList]
    · exact DependencyType.ofName?_name d.type
  have hname : (encodedFields d.fields).required "Name" text? = some d.name := by
    rw [fields, required_append_fieldUnless_ne (by decide)]
    exact required_text (by simp [Assoc.ofList])
  have hversion : (encodedFields d.fields).defaulted "Version" "" text? = some d.version := by
    apply defaulted_append_fieldUnless
    · simp [Assoc.ofList, Assoc.get?]
    · simp
    · rfl
  rw [encode_eq, decode, fields?_ofFields]
  simp [htype, hname, hversion]

theorem readable_encode (d : Dependency) (depth : Nat) : Readable (depth + 1) d.encode := by
  apply readable_ofFields
  simp only [List.forall_mem_append, List.forall_mem_cons]
  exact ⟨⟨.text _, .text _, by simp⟩, readable_fieldUnless (.text _)⟩

end Dependency

/-- An account kind that its name stands for. -/
def AccountKind.Named (k : AccountKind) : Prop :=
  ofName k.name = k

instance (k : AccountKind) : Decidable k.Named :=
  inferInstanceAs (Decidable (AccountKind.ofName k.name = k))

namespace ServiceAccount

/-- The fields that a service account is encoded as. -/
def fields (a : ServiceAccount) : List (String × Json) :=
  [("Type", .text a.target), ("Kind", .text a.kind.name)] ++
    fieldUnless (!a.optional) "Optional" (.bool a.optional)

theorem encode_eq (a : ServiceAccount) : a.encode = Json.ofFields a.fields := rfl

theorem decode_encode {a : ServiceAccount} (h : a.kind.Named) : decode (ofJson a.encode) = some a := by
  have htarget : (encodedFields a.fields).required "Type" text? = some a.target := by
    rw [fields, required_append_fieldUnless_ne (by decide)]
    exact required_text (by simp [Assoc.ofList])
  have hkind : (encodedFields a.fields).defaulted "Kind" .dogu AccountKind.decode = some a.kind := by
    rw [fields, defaulted_append_fieldUnless_ne (by decide)]
    apply @defaulted_of_get? _ _ _ (.text a.kind.name)
    · simp [Assoc.ofList]
    · exact congrArg some h
  have hoptional : (encodedFields a.fields).defaulted "Optional" false flag? = some a.optional := by
    apply defaulted_append_fieldUnless
    · simp [Assoc.ofList, Assoc.get?]
    · simp
    · rfl
  rw [encode_eq, decode, fields?_ofFields]
  simp [htarget, hkind, hoptional]

theorem readable_encode (a : ServiceAccount) (depth : Nat) : Readable (depth + 1) a.encode := by
  apply readable_ofFields
  simp only [List.forall_mem_append, List.forall_mem_cons]
  exact ⟨⟨.text _, .text _, by simp⟩, readable_fieldUnless (.bool _)⟩

end ServiceAccount

/-! ## Descriptors -/

namespace Descriptor

/-- The fields that a descriptor is encoded as. -/
def fields (d : Descriptor) : List (String × Json) :=
  [("Name", .text d.name), ("Version", .text d.version)] ++
    fieldUnless d.dependencies.isEmpty "Dependencies"
      (.list (d.dependencies.map Dependency.encode)) ++
    fieldUnless d.optionalDependencies.isEmpty "OptionalDependencies"
      (.list (d.optionalDependencies.map Dependency.encode)) ++
    fieldUnless d.serviceAccounts.isEmpty "ServiceAccounts"
      (.list (d.serviceAccounts.map ServiceAccount.encode))

theorem encode_eq (d : Descriptor) : d.encode = Json.ofFields d.fields := rfl

/-- A descriptor of which nothing is lost when it is encoded. -/
def Lossless (d : Descriptor) : Prop :=
  ∀ a ∈ d.serviceAccounts, a.kind.Named

instance (d : Descriptor) : Decidable d.Lossless :=
  inferInstanceAs (Decidable (∀ a ∈ d.serviceAccounts, a.kind.Named))

theorem decode_encode {d : Descriptor} (h : d.Lossless) : decode (ofJson d.encode) = some d := by
  have hname : (encodedFields d.fields).required "Name" text? = some d.name := by
    rw [fields, required_append_fieldUnless_ne (by decide), required_append_fieldUnless_ne (by decide),
      required_append_fieldUnless_ne (by decide)]
    exact required_text (by simp [Assoc.ofList])
  have hversion : (encodedFields d.fields).required "Version" text? = some d.version := by
    rw [fields, required_append_fieldUnless_ne (by decide), required_append_fieldUnless_ne (by decide),
      required_append_fieldUnless_ne (by decide)]
    exact required_text (by simp [Assoc.ofList])
  have hdependencies : (encodedFields d.fields).defaulted "Dependencies" [] (list? Dependency.decode) =
      some d.dependencies := by
    rw [fields, defaulted_append_fieldUnless_ne (by decide),
      defaulted_append_fieldUnless_ne (by decide)]
    apply defaulted_append_fieldUnless
    · simp [Assoc.ofList, Assoc.get?]
    · exact List.isEmpty_iff.mp
    · exact list?_ofItems fun x _ => x.decode_encode
  have hoptional : (encodedFields d.fields).defaulted "OptionalDependencies" []
      (list? Dependency.decode) = some d.optionalDependencies := by
    rw [fields, defaulted_append_fieldUnless_ne (by decide)]
    apply defaulted_append_fieldUnless
    · rw [get?_append_fieldUnless_ne (by decide)]
      simp [Assoc.ofList, Assoc.get?]
    · exact List.isEmpty_iff.mp
    · exact list?_ofItems fun x _ => x.decode_encode
  have haccounts : (encodedFields d.fields).defaulted "ServiceAccounts" []
      (list? ServiceAccount.decode) = some d.serviceAccounts := by
    apply defaulted_append_fieldUnless
    · rw [get?_append_fieldUnless_ne (by decide), get?_append_fieldUnless_ne (by decide)]
      simp [Assoc.ofList, Assoc.get?]
    · exact List.isEmpty_iff.mp
    · exact list?_ofItems fun a ha => ServiceAccount.decode_encode (h a ha)
  rw [encode_eq, decode, fields?_ofFields]
  simp [hname, hversion, hdependencies, hoptional, haccounts]

theorem readable_encode (d : Descriptor) (depth : Nat) : Readable (depth + 3) d.encode := by
  apply readable_ofFields
  simp only [List.forall_mem_append, List.forall_mem_cons]
  refine ⟨⟨⟨⟨.text _, .text _, by simp⟩, ?_⟩, ?_⟩, ?_⟩
  · exact readable_fieldUnless (readable_items fun x _ => x.readable_encode depth)
  · exact readable_fieldUnless (readable_items fun x _ => x.readable_encode depth)
  · exact readable_fieldUnless (readable_items fun a _ => a.readable_encode depth)

end Descriptor

/-- A descriptor is decoded from the text of what it is encoded as. -/
theorem decodeDescriptor_render {d : Descriptor} (h : d.Lossless) :
    Registry.decodeDescriptor d.encode.render = some d := by
  unfold Registry.decodeDescriptor
  rw [ofJsonText_render (d.readable_encode 124)]
  exact Descriptor.decode_encode h

end Dogu

end EcosystemSetup

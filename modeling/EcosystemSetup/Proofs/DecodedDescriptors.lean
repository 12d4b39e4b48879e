import EcosystemSetup.Proofs.DescriptorTexts
import EcosystemSetup.Proofs.Lists

/-!
# Descriptors that were decoded

A descriptor may be written with keys or as a list of its fields, with fields left out and with names that
have several spellings. Main statement: whatever a descriptor is decoded from, it is decoded from what it is
encoded as, too, and encoding that again changes nothing. Every dependency and every account that is written
is decoded, in its place, and encoded, in its place; and an account kind that is unknown stays the one that
was written.
-/

namespace EcosystemSetup

open Dogu

/-! ## Written fields -/

namespace Json

/-- What stands at a field of a record, which may be written with keys or as a list of its fields. -/
def at? (place : Nat) (name : String) : Json → Option Json
  | .record fields => Assoc.get? name fields
  | .list items => items[place]?
  | _ => none

/-- The items of the list at a field; there are none where the field is left out. -/
def itemsAt (v : Json) (place : Nat) (name : String) : List Json :=
  match v.at? place name with
  | some (.list items) => items
  | _ => []

end Json

namespace Document

theorem ofItems_eq_map (items : List Json) : ofItems items = items.map ofJson := by
  induction items with
  | nil => rfl
  | cons v rest ih => rw [ofItems, ih, List.map_cons]

/-- The field of a name is found at its place in a list of fields. -/
theorem lookup_zip {names : List String} (hnames : names.Nodup) {docs : List Document} {place : Nat}
    {name : String} (h : names[place]? = some name) :
    (names.zip docs).lookup name = docs[place]? := by
  induction names generalizing docs place with
  | nil => simp at h
  | cons n rest ih =>
    obtain ⟨hn, hrest⟩ := List.nodup_cons.mp hnames
    cases docs with
    | nil => rfl
    | cons d docs =>
      cases place with
      | zero =>
        obtain rfl : n = name := by simpa using h
        simp
      | succ place =>
        rw [List.getElem?_cons_succ] at h
        have hne : name ≠ n := by
          rintro rfl
          exact hn (List.mem_of_getElem? h)
        rw [List.zip_cons_cons, List.lookup_cons, beq_false_of_ne hne]
        exact ih hrest h

/-- The fields of a value are what stands at their places. -/
theorem find_of_fields? {v : Json} {names : List String} {fs : Fields}
    (h : (ofJson v).fields? names = some fs) (hnames : names.Nodup) {place : Nat} {name : String}
    (hplace : names[place]? = some name) : fs.find name = (v.at? place name).map ofJson := by
  cases v with
  | record fields =>
    rw [ofJson, fields?] at h
    split at h
    · rw [← Option.some.inj h]
      exact entry?_ofFields name fields
    · cases h
  | list items =>
    rw [ofJson, fields?] at h
    split at h
    · rw [← Option.some.inj h, Json.at?, ← List.getElem?_map, ← ofItems_eq_map]
      exact lookup_zip hnames hplace
    · cases h
  | null => cases h
  | bool _ => cases h
  | number n => cases n <;> cases h
  | text _ => cases h

theorem text?_ofJson {v : Json} {s : String} : (ofJson v).text? = some s ↔ v = .text s := by
  cases v with
  | text t => simp [ofJson, text?, scalarOfJson]
  | number n => cases n <;> simp [ofJson, text?, scalarOfJson]
  | _ => simp [ofJson, text?, scalarOfJson]

theorem items?_ofJson {v : Json} {docs : List Document} (h : (ofJson v).items? = some docs) :
    ∃ items, v = .list items ∧ docs = items.map ofJson := by
  cases v with
  | list items =>
    rw [ofJson, items?, ofItems_eq_map] at h
    exact ⟨items, rfl, (Option.some.inj h).symm⟩
  | number n => cases n <;> cases h
  | null => cases h
  | bool _ => cases h
  | text _ => cases h
  | record _ => cases h

section Fields

variable {α : Type} {v : Json} {fs : Fields} {place : Nat} {name : String}
  {decode : Document → Option α}

/-- A text that must be there stands at its field. -/
theorem at?_of_required (hfind : fs.find name = (v.at? place name).map ofJson) {s : String}
    (h : fs.required name text? = some s) : v.at? place name = some (.text s) := by
  rw [Fields.required, hfind] at h
  cases hat : v.at? place name with
  | none =>
    rw [hat] at h
    cases h
  | some u =>
    rw [hat] at h
    rw [text?_ofJson.mp h]

/-- A list that may be left out is decoded item by item. -/
theorem forall₂_itemsAt (hfind : fs.find name = (v.at? place name).map ofJson) {xs : List α}
    (h : fs.defaulted name [] (list? decode) = some xs) :
    List.Forall₂ (fun item x => decode (ofJson item) = some x) (v.itemsAt place name) xs := by
  rw [Fields.defaulted, hfind] at h
  unfold Json.itemsAt
  cases hat : v.at? place name with
  | none =>
    rw [hat] at h
    rw [← Option.some.inj h]
    exact .nil
  | some u =>
    rw [hat] at h
    obtain ⟨docs, hdocs, hall⟩ := Option.bind_eq_some_iff.mp h
    obtain ⟨items, rfl, rfl⟩ := items?_ofJson hdocs
    rw [Lists.mapM_eq_some_iff, List.forall₂_map_left_iff] at hall
    exact hall

end Fields

end Document

/-! ## Encoded lists -/

namespace Json

variable {fields : List (String × Json)} {skip : Bool} {name other : String} {value : Json}

theorem at?_ofFields (place : Nat) :
    (Json.ofFields fields).at? place name = Assoc.get? name (Assoc.ofList fields) := rfl

theorem itemsAt_append_fieldUnless_ne (place : Nat) (h : other ≠ name) :
    (Json.ofFields (fields ++ fieldUnless skip name value)).itemsAt place other =
      (Json.ofFields fields).itemsAt place other := by
  unfold itemsAt
  rw [at?_ofFields, at?_ofFields, Document.get?_append_fieldUnless_ne h]

/-- A list that is left out where it is empty is encoded item by item. -/
theorem itemsAt_append_fieldUnless {α : Type} {encode : α → Json} {xs : List α} (place : Nat)
    (hnone : Assoc.get? name (Assoc.ofList fields) = none) :
    (Json.ofFields (fields ++ fieldUnless xs.isEmpty name (.list (xs.map encode)))).itemsAt place
      name = xs.map encode := by
  unfold itemsAt
  rw [at?_ofFields]
  cases xs with
  | nil =>
    rw [List.isEmpty_nil, fieldUnless, if_pos rfl, List.append_nil, hnone]
    rfl
  | cons x rest =>
    have hget : Assoc.get? name (Assoc.ofList (fields ++ fieldUnless (x :: rest).isEmpty name
        (.list ((x :: rest).map encode)))) = some (.list ((x :: rest).map encode)) := by
      simp [fieldUnless, Assoc.ofList]
    rw [hget]

end Json

namespace Dogu

open Document

/-! ## Account kinds -/

namespace AccountKind

/-- The names of the kinds that are known. -/
def knownNames : List String :=
  ["", "dogu", "component", "k8s"]

theorem ofName_eq_unknown_iff {s k : String} : ofName s = .unknown k ↔ s = k ∧ k ∉ knownNames := by
  unfold ofName knownNames
  split
  · rename_i h
    rcases h with rfl | rfl <;> simp_all
  · split
    · rename_i h
      rcases h with rfl | rfl <;> simp_all
    · rename_i hdogu hcomponent
      rw [AccountKind.unknown.injEq]
      constructor
      · rintro rfl
        exact ⟨rfl, by simp_all⟩
      · exact And.left

/-- Every kind that a name stands for has a name that stands for it. -/
theorem named_ofName (s : String) : (ofName s).Named := by
  unfold Named
  cases h : ofName s with
  | dogu => rfl
  | component => rfl
  | unknown k =>
    obtain ⟨rfl, -⟩ := ofName_eq_unknown_iff.mp h
    exact h

end AccountKind

/-! ## Accounts -/

namespace ServiceAccount

theorem decode_eq_some_iff {doc : Document} {a : ServiceAccount} :
    decode doc = some a ↔ ∃ fs, doc.fields? ["Type", "Kind", "Optional"] = some fs ∧
      fs.required "Type" text? = some a.target ∧
      fs.defaulted "Kind" .dogu AccountKind.decode = some a.kind ∧
      fs.defaulted "Optional" false flag? = some a.optional := by
  constructor
  · intro h
    simp only [decode, Option.bind_eq_bind, Option.bind_eq_some_iff, Option.pure_def,
      Option.some.injEq] at h
    obtain ⟨fs, hfields, target, htarget, kind, hkind, optional, hoptional, rfl⟩ := h
    exact ⟨fs, hfields, htarget, hkind, hoptional⟩
  · rintro ⟨fs, hfields, htarget, hkind, hoptional⟩
    simp [decode, hfields, htarget, hkind, hoptional]

theorem named_of_decode {doc : Document} {a : ServiceAccount} (h : decode doc = some a) :
    a.kind.Named := by
  obtain ⟨fs, -, -, hkind, -⟩ := decode_eq_some_iff.mp h
  unfold Fields.defaulted at hkind
  split at hkind
  · obtain ⟨s, -, hname⟩ := Option.map_eq_some_iff.mp hkind
    rw [← hname]
    exact AccountKind.named_ofName s
  · rw [← Option.some.inj hkind]
    rfl

/-- An account that was decoded, and its kind in particular: it is unknown exactly if the name of a kind is
written that is none of the known ones, and then it has that name and is encoded with it. -/
structure Kept (item : Json) (a : ServiceAccount) : Prop where
  decoded : decode (ofJson item) = some a
  unknown : ∀ k, a.kind = .unknown k ↔
    item.at? 1 "Kind" = some (.text k) ∧ k ∉ AccountKind.knownNames
  encoded : ∀ k, a.kind = .unknown k → a.encode.at? 1 "Kind" = some (.text k)

theorem kept_of_decode {item : Json} {a : ServiceAccount} (h : decode (ofJson item) = some a) :
    Kept item a := by
  refine ⟨h, ?_, ?_⟩
  · intro k
    obtain ⟨fs, hfields, -, hkind, -⟩ := decode_eq_some_iff.mp h
    have hfind : fs.find "Kind" = (item.at? 1 "Kind").map ofJson :=
      find_of_fields? hfields (by decide) rfl
    rw [Fields.defaulted, hfind] at hkind
    cases hat : item.at? 1 "Kind" with
    | none =>
      rw [hat] at hkind
      rw [← Option.some.inj hkind]
      simp
    | some u =>
      rw [hat] at hkind
      obtain ⟨s, hs, hname⟩ := Option.map_eq_some_iff.mp hkind
      rw [text?_ofJson.mp hs, ← hname, AccountKind.ofName_eq_unknown_iff, Option.some.injEq,
        Json.text.injEq]
  · intro k hk
    rw [encode_eq, fields, Json.at?_ofFields, get?_append_fieldUnless_ne (by decide), hk]
    simp [Assoc.ofList, AccountKind.name]

end ServiceAccount

/-! ## Descriptors -/

namespace Descriptor

theorem decode_eq_some_iff {doc : Document} {d : Descriptor} :
    decode doc = some d ↔ ∃ fs, doc.fields?
        ["Name", "Version", "Dependencies", "OptionalDependencies", "ServiceAccounts"] = some fs ∧
      fs.required "Name" text? = some d.name ∧ fs.required "Version" text? = some d.version ∧
      fs.defaulted "Dependencies" [] (list? Dependency.decode) = some d.dependencies ∧
      fs.defaulted "OptionalDependencies" [] (list? Dependency.decode) =
        some d.optionalDependencies ∧
      fs.defaulted "ServiceAccounts" [] (list? ServiceAccount.decode) = some d.serviceAccounts := by
  cases d
  simp [decode, Option.bind_eq_some_iff]

/-- What is written of a descriptor, and what is decoded of it. -/
structure Written (v : Json) (d : Descriptor) : Prop where
  name : v.at? 0 "Name" = some (.text d.name)
  version : v.at? 1 "Version" = some (.text d.version)
  dependencies : List.Forall₂ (fun item x => Dependency.decode (ofJson item) = some x)
    (v.itemsAt 2 "Dependencies") d.dependencies
  optionalDependencies : List.Forall₂ (fun item x => Dependency.decode (ofJson item) = some x)
    (v.itemsAt 3 "OptionalDependencies") d.optionalDependencies
  serviceAccounts : List.Forall₂ ServiceAccount.Kept (v.itemsAt 4 "ServiceAccounts")
    d.serviceAccounts

theorem written_of_decode {v : Json} {d : Descriptor} (h : decode (ofJson v) = some d) :
    Written v d := by
  obtain ⟨fs, hfields, hname, hversion, hdependencies, hoptional, haccounts⟩ :=
    decode_eq_some_iff.mp h
  have hfind {place : Nat} {name : String} (hplace : ["Name", "Version", "Dependencies",
      "OptionalDependencies", "ServiceAccounts"][place]? = some name) :
      fs.find name = (v.at? place name).map ofJson :=
    find_of_fields? hfields (by decide) hplace
  refine ⟨at?_of_required (hfind rfl) hname, at?_of_required (hfind rfl) hversion,
    forall₂_itemsAt (hfind rfl) hdependencies, forall₂_itemsAt (hfind rfl) hoptional, ?_⟩
  have hall : List.Forall₂ (fun item a => ServiceAccount.decode (ofJson item) = some a)
      (v.itemsAt 4 "ServiceAccounts") d.serviceAccounts :=
    forall₂_itemsAt (hfind rfl) haccounts
  exact hall.imp fun _ _ => ServiceAccount.kept_of_decode

/-- Nothing is lost of a descriptor that was decoded. -/
theorem lossless_of_decode {doc : Document} {d : Descriptor} (h : decode doc = some d) :
    d.Lossless := by
  obtain ⟨fs, -, -, -, -, -, haccounts⟩ := decode_eq_some_iff.mp h
  unfold Fields.defaulted at haccounts
  split at haccounts
  · obtain ⟨items, -, hall⟩ := Option.bind_eq_some_iff.mp haccounts
    exact Lists.forall_of_mapM hall fun _ _ _ => ServiceAccount.named_of_decode
  · unfold Lossless
    rw [← Option.some.inj haccounts]
    simp

/-- What a descriptor is encoded as: its lists item by item. -/
structure Listed (d : Descriptor) : Prop where
  dependencies : d.encode.itemsAt 2 "Dependencies" = d.dependencies.map Dependency.encode
  optionalDependencies :
    d.encode.itemsAt 3 "OptionalDependencies" = d.optionalDependencies.map Dependency.encode
  serviceAccounts :
    d.encode.itemsAt 4 "ServiceAccounts" = d.serviceAccounts.map ServiceAccount.encode

theorem listed (d : Descriptor) : d.Listed where
  dependencies := by
    rw [encode_eq, fields, Json.itemsAt_append_fieldUnless_ne _ (by decide),
      Json.itemsAt_append_fieldUnless_ne _ (by decide)]
    apply Json.itemsAt_append_fieldUnless
    simp [Assoc.ofList, Assoc.get?]
  optionalDependencies := by
    rw [encode_eq, fields, Json.itemsAt_append_fieldUnless_ne _ (by decide)]
    apply Json.itemsAt_append_fieldUnless
    rw [get?_append_fieldUnless_ne (by decide)]
    simp [Assoc.ofList, Assoc.get?]
  serviceAccounts := by
    rw [encode_eq, fields]
    apply Json.itemsAt_append_fieldUnless
    rw [get?_append_fieldUnless_ne (by decide), get?_append_fieldUnless_ne (by decide)]
    simp [Assoc.ofList, Assoc.get?]

/-- A descriptor that was decoded from a value, and what becomes of it when it is encoded. -/
structure RoundTrips (v : Json) (d : Descriptor) : Prop where
  decoded : decode (ofJson d.encode) = some d
  /-- Encoding what was decoded from the encoded form gives that form. -/
  fixed : ∀ e, decode (ofJson d.encode) = some e → e.encode = d.encode
  text : Registry.decodeDescriptor d.encode.render = some d
  written : Written v d
  listed : d.Listed

/-- A descriptor that was decoded is decoded from what it is encoded as, with all that was written. -/
theorem round_trips {v : Json} {d : Descriptor} (h : decode (ofJson v) = some d) :
    RoundTrips v d := by
  -- what was decoded has only kinds that some name stands for, so no kind changes when it is encoded
  have hlossless := lossless_of_decode h
  have hdecoded := decode_encode hlossless
  refine ⟨hdecoded, ?_, decodeDescriptor_render hlossless, written_of_decode h, d.listed⟩
  intro e he
  rw [Option.some.inj (he.symm.trans hdecoded)]

/-- A descriptor as a list of its fields, with kinds and types in several spellings. -/
def redmineFields : Json :=
  .list
    [.text "official/redmine", .text "5.1.0-1",
      .list
        [.record [("Name", .text "postgresql"), ("Type", .text "")],
          .list [.text "client", .text "cesapp", .text ">=6.0.0"]],
      .list [],
      .list
        [.record [("Type", .text "postgresql")], .list [.text "k8s-prometheus", .text "k8s"],
          .record [("Kind", .text "cloud"), ("Optional", .bool true), ("Type", .text "mail")]]]

/-- The descriptor that is written there. -/
def redmine : Descriptor where
  name := "official/redmine"
  version := "5.1.0-1"
  dependencies := [{ name := "postgresql" }, { type := .client, name := "cesapp", version := ">=6.0.0" }]
  serviceAccounts :=
    [{ target := "postgresql" }, { target := "k8s-prometheus", kind := .component },
      { target := "mail", kind := .unknown "cloud", optional := true }]

theorem round_trips_redmine :
    decode (ofJson redmineFields) = some redmine ∧ RoundTrips redmineFields redmine := by
  have h : decode (ofJson redmineFields) = some redmine := by decide +kernel
  exact ⟨h, round_trips h⟩

end Descriptor

end Dogu

end EcosystemSetup

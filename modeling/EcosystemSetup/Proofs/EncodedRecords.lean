import EcosystemSetup.Document.Decode
import EcosystemSetup.Proofs.KeyOrder
import Mathlib.Data.List.Nodup

/-!
# Encoded records

What decoders find in the document of a JSON value. The fields of a record are found by their keys, as
a map has no key twice, and a list is decoded item by item. A value whose maps are all in key order is
its own free-form value.
-/

namespace EcosystemSetup

namespace Assoc.Sorted

variable {fields : List (String × Json)}

/-- Fields in key order are encoded as they stand. -/
theorem ofFields_eq (h : Sorted fields) : Json.ofFields fields = .record fields := by
  rw [Json.ofFields, h.ofList_eq]

/-- Each of them is found by its key. -/
theorem get?_ofList (h : Sorted fields) {name : String} {value : Json}
    (hmem : (name, value) ∈ fields) : get? name (ofList fields) = some value := by
  rw [h.ofList_eq]
  exact h.get?_of_mem hmem

end Assoc.Sorted

namespace Document

/-! ## Fields and items -/

theorem keys_ofFields (fields : List (String × Json)) :
    (ofFields fields).map Prod.fst = fields.map fun f => some f.1 := by
  induction fields with
  | nil => rfl
  | cons f rest ih =>
    obtain ⟨k, v⟩ := f
    rw [ofFields, List.map_cons, List.map_cons, ih]

theorem entry?_ofFields (key : String) (fields : List (String × Json)) :
    entry? key (ofFields fields) = (Assoc.get? key fields).map ofJson := by
  induction fields with
  | nil => rfl
  | cons f rest ih =>
    obtain ⟨k, v⟩ := f
    unfold entry? at ih ⊢
    rw [ofFields, List.find?_cons, Assoc.get?]
    by_cases hk : k = key
    · simp [hk]
    · have hne : (some k == some key) = false := by simpa using hk
      rw [if_neg hk, ← ih]
      dsimp only
      rw [hne]

/-- A map has no key twice. -/
theorem keysFit_ofFields {fields : List (String × Json)} (h : Assoc.Sorted fields)
    (names : List String) : keysFit names (ofFields fields) = true := by
  have hnodup : ((ofFields fields).map Prod.fst).Nodup := by
    rw [keys_ofFields, List.Nodup, List.pairwise_map]
    refine List.Pairwise.imp ?_ h
    intro f g hlt heq
    rw [Option.some.inj heq] at hlt
    exact String.lt_irrefl _ hlt
  unfold keysFit
  rw [Bool.and_eq_true, List.all_eq_true, List.all_eq_true]
  constructor
  · intro e he
    have hkey : e.1 ∈ (ofFields fields).map Prod.fst := List.mem_map_of_mem he
    rw [keys_ofFields] at hkey
    obtain ⟨f, -, hf⟩ := List.mem_map.mp hkey
    rw [← hf]
    rfl
  · intro n _
    have hcount := List.nodup_iff_count_le_one.mp hnodup (some n)
    rw [List.count, List.countP_map, List.countP_eq_length_filter] at hcount
    exact decide_eq_true hcount

/-- The fields of a record that was encoded. -/
def encodedFields (fields : List (String × Json)) : Fields :=
  ⟨fun n => (Assoc.get? n (Assoc.ofList fields)).map ofJson, false⟩

theorem fields?_ofFields (names : List String) (fields : List (String × Json)) :
    (ofJson (Json.ofFields fields)).fields? names = some (encodedFields fields) := by
  have hfind : (fun n => entry? n (ofFields (Assoc.ofList fields))) =
      fun n => (Assoc.get? n (Assoc.ofList fields)).map ofJson := by
    funext n
    exact entry?_ofFields n _
  rw [Json.ofFields, ofJson, fields?, if_pos (keysFit_ofFields (Assoc.sorted_ofList fields) names),
    hfind, encodedFields]

section Fields

variable {α : Type} {fields : List (String × Json)} {name : String} {value : Json} {x fallback : α}
  {decode : Document → Option α}

theorem required_of_get? (hget : Assoc.get? name (Assoc.ofList fields) = some value)
    (hdecode : decode (ofJson value) = some x) :
    (encodedFields fields).required name decode = some x := by
  unfold Fields.required encodedFields
  dsimp only
  rw [hget]
  exact hdecode

theorem defaulted_of_get? (hget : Assoc.get? name (Assoc.ofList fields) = some value)
    (hdecode : decode (ofJson value) = some x) :
    (encodedFields fields).defaulted name fallback decode = some x := by
  unfold Fields.defaulted encodedFields
  dsimp only
  rw [hget]
  exact hdecode

/-- A field that must be there is not found if it is left out. -/
theorem required_of_get?_none (hget : Assoc.get? name (Assoc.ofList fields) = none) :
    (encodedFields fields).required name decode = none := by
  unfold Fields.required encodedFields
  dsimp only
  rw [hget]
  rfl

/-- A field that is left out has its default value. -/
theorem defaulted_of_get?_none (hget : Assoc.get? name (Assoc.ofList fields) = none) :
    (encodedFields fields).defaulted name fallback decode = some fallback := by
  unfold Fields.defaulted encodedFields
  dsimp only
  rw [hget]
  rfl

/-! ### Texts and options -/

theorem required_text {s : String} (hget : Assoc.get? name (Assoc.ofList fields) = some (.text s)) :
    (encodedFields fields).required name text? = some s :=
  required_of_get? hget rfl

theorem defaulted_text {s fallback : String}
    (hget : Assoc.get? name (Assoc.ofList fields) = some (.text s)) :
    (encodedFields fields).defaulted name fallback text? = some s :=
  defaulted_of_get? hget rfl

theorem optional?_ofJson {v : Json} (hv : v ≠ .null) :
    optional? decode (ofJson v) = (decode (ofJson v)).map some := by
  cases v with
  | null => exact absurd rfl hv
  | number n => cases n <;> rfl
  | _ => rfl

/-- A null counts as absent. -/
theorem optional_of_null (hget : Assoc.get? name (Assoc.ofList fields) = some .null) :
    (encodedFields fields).optional name decode = some none :=
  defaulted_of_get? hget rfl

/-- An option that is left out where it is absent is decoded as it is. -/
theorem optional_of_get? {encode : α → Json} {x : Option α}
    (hget : Assoc.get? name (Assoc.ofList fields) = x.map encode)
    (hdecode : ∀ a, x = some a → encode a ≠ .null ∧ decode (ofJson (encode a)) = some a) :
    (encodedFields fields).optional name decode = some x := by
  cases x with
  | none => exact defaulted_of_get?_none hget
  | some a =>
    obtain ⟨hne, ha⟩ := hdecode a rfl
    refine defaulted_of_get? hget ?_
    rw [optional?_ofJson hne, ha, Option.map_some]

theorem optional_text {x : Option String} (hget : Assoc.get? name (Assoc.ofList fields) = x.map .text) :
    (encodedFields fields).optional name text? = some x :=
  optional_of_get? hget fun _ _ => ⟨Json.noConfusion, rfl⟩

end Fields

/-- A list of encoded items is decoded item by item. -/
theorem list?_ofJson {α β : Type} {encode : α → Json} {decode : Document → Option β}
    {f : α → Option β} {xs : List α} (h : ∀ x ∈ xs, decode (ofJson (encode x)) = f x) :
    list? decode (ofJson (.list (xs.map encode))) = xs.mapM f := by
  rw [ofJson]
  show (ofItems (xs.map encode)).mapM decode = _
  induction xs with
  | nil => rfl
  | cons x rest ih =>
    have hrest := ih fun y hy => h y (List.mem_cons_of_mem _ hy)
    rw [List.map_cons, ofItems, List.mapM_cons, List.mapM_cons, h x List.mem_cons_self, hrest]

/-- A list of encoded items is decoded as what its items are decoded as. -/
theorem list?_ofMapped {α β : Type} {encode : α → Json} {decode : Document → Option β} {f : α → β}
    {xs : List α} (h : ∀ x ∈ xs, decode (ofJson (encode x)) = some (f x)) :
    list? decode (ofJson (.list (xs.map encode))) = some (xs.map f) := by
  rw [list?_ofJson h]
  exact List.mapM_pure

/-- A list of encoded items is decoded if each of them is. -/
theorem list?_ofItems {α : Type} {encode : α → Json} {decode : Document → Option α} {xs : List α}
    (h : ∀ x ∈ xs, decode (ofJson (encode x)) = some x) :
    list? decode (ofJson (.list (xs.map encode))) = some xs := by
  rw [list?_ofMapped h, List.map_id']

/-! ## Free-form values -/

theorem fieldValues?_ofFields {fields : List (String × Json)}
    (h : ∀ f ∈ fields, value? (ofJson f.2) = some f.2) :
    fieldValues? (ofFields fields) = some fields := by
  induction fields with
  | nil => rfl
  | cons f rest ih =>
    obtain ⟨k, v⟩ := f
    obtain ⟨hv, hrest⟩ := List.forall_mem_cons.mp h
    rw [ofFields, fieldValues?, hv, ih hrest]

theorem itemValues?_ofItems {items : List Json} (h : ∀ v ∈ items, value? (ofJson v) = some v) :
    itemValues? (ofItems items) = some items := by
  induction items with
  | nil => rfl
  | cons v rest ih =>
    obtain ⟨hv, hrest⟩ := List.forall_mem_cons.mp h
    rw [ofItems, itemValues?, hv, ih hrest]

end Document

/-- All records in a value, at any depth, are in key order. -/
inductive Json.Ordered : Json → Prop where
  | null : Ordered .null
  | bool (b : Bool) : Ordered (.bool b)
  | number (n : Number) : Ordered (.number n)
  | text (s : String) : Ordered (.text s)
  | list {items : List Json} (all : ∀ v ∈ items, Ordered v) : Ordered (.list items)
  | record {fields : List (String × Json)} (sorted : Assoc.Sorted fields)
      (all : ∀ f ∈ fields, Ordered f.2) : Ordered (.record fields)

/-- The document of such a value has this value. -/
theorem Json.Ordered.value?_ofJson {v : Json} (h : v.Ordered) :
    (Document.ofJson v).value? = some v := by
  induction h with
  | null => rfl
  | bool b => rfl
  | number n => cases n <;> rfl
  | text s => rfl
  | list all ih =>
    rw [Document.ofJson, Document.value?, Document.itemValues?_ofItems ih, Option.map_some]
  | record sorted all ih =>
    rw [Document.ofJson, Document.value?, Document.fieldValues?_ofFields ih, Option.map_some,
      sorted.ofFields_eq]

end EcosystemSetup

import EcosystemSetup.Document.Decode
import EcosystemSetup.Document.JsonText
import EcosystemSetup.Document.YamlText
import EcosystemSetup.Proofs.EncodedRecords
import EcosystemSetup.Proofs.Lists

/-!
# Values of documents

A free-form value keeps its maps in key order, so that nothing of it changes when it is encoded and decoded
again. Every document that is read from a text or made of a value has such values only, and so has every
part of it that a decoder looks at.
-/

namespace EcosystemSetup

namespace Document

/-- A document all of whose values, at any depth, are in key order. -/
inductive Orderly : Document → Prop where
  | scalar {s : Scalar} (value : ∀ v, s.value = some v → v.Ordered) : Orderly (.scalar s)
  | list {items : List Document} (all : ∀ d ∈ items, Orderly d) : Orderly (.list items)
  | record {entries : List (Option String × Document)} {variant : Option String}
      (all : ∀ e ∈ entries, Orderly e.2) : Orderly (.record entries variant)
  | marked {tag : String} {body : Document} (inner : Orderly body) : Orderly (.marked tag body)
  | unreadable : Orderly .unreadable

/-! ## Values -/

theorem forall_of_itemValues? {P : Json → Prop} {items : List Document} {vs : List Json}
    (h : itemValues? items = some vs) (hP : ∀ d ∈ items, ∀ v, d.value? = some v → P v) :
    ∀ v ∈ vs, P v := by
  induction items generalizing vs with
  | nil =>
    rw [itemValues?, Option.some.injEq] at h
    simp [← h]
  | cons d rest ih =>
    obtain ⟨hd, hrest⟩ := List.forall_mem_cons.mp hP
    rw [itemValues?] at h
    split at h
    · rename_i v ws hv hws
      rw [← Option.some.inj h]
      exact List.forall_mem_cons.mpr ⟨hd v hv, ih hws hrest⟩
    · cases h

theorem forall_of_fieldValues? {P : Json → Prop} {entries : List (Option String × Document)}
    {fields : List (String × Json)} (h : fieldValues? entries = some fields)
    (hP : ∀ e ∈ entries, ∀ v, e.2.value? = some v → P v) : ∀ f ∈ fields, P f.2 := by
  induction entries generalizing fields with
  | nil =>
    rw [fieldValues?, Option.some.injEq] at h
    simp [← h]
  | cons e rest ih =>
    obtain ⟨he, hrest⟩ := List.forall_mem_cons.mp hP
    obtain ⟨key, d⟩ := e
    cases key with
    | none =>
      rw [fieldValues?] at h
      cases h
    | some k =>
      rw [fieldValues?] at h
      split at h
      · rename_i v ws hv hws
        rw [← Option.some.inj h]
        exact List.forall_mem_cons.mpr ⟨he v hv, ih hws hrest⟩
      · cases h

/-- The value of an orderly document is in key order: a record is made a map when its value is taken. -/
theorem Orderly.ordered {d : Document} (h : d.Orderly) {v : Json} (hv : d.value? = some v) :
    v.Ordered := by
  induction h generalizing v with
  | scalar value => exact value v hv
  | list all ih =>
    obtain ⟨vs, hvs, rfl⟩ := Option.map_eq_some_iff.mp hv
    exact .list (forall_of_itemValues? hvs fun d hd _ => ih d hd)
  | record all ih =>
    obtain ⟨fields, hfields, rfl⟩ := Option.map_eq_some_iff.mp hv
    have hall : ∀ f ∈ fields, f.2.Ordered := forall_of_fieldValues? hfields fun e he _ => ih e he
    exact .record (Assoc.sorted_ofList fields) fun f hf => hall f (Assoc.mem_of_mem_ofList hf)
  | marked inner ih => cases hv
  | unreadable => cases hv

end Document

/-! ## Parts of a document -/

/-- Every field that is found is orderly. -/
def Fields.Orderly (fs : Fields) : Prop :=
  ∀ name d, fs.find name = some d → d.Orderly

namespace Document

variable {d : Document}

/-- The items of an orderly list are orderly. -/
theorem Orderly.items (h : d.Orderly) {items : List Document} (hitems : d.items? = some items) :
    ∀ i ∈ items, i.Orderly := by
  induction h with
  | scalar value =>
    rw [items?] at hitems
    split at hitems
    · rw [← Option.some.inj hitems]
      simp
    · cases hitems
  | list all _ =>
    rw [items?, Option.some.injEq] at hitems
    exact hitems ▸ all
  | record all _ => cases hitems
  | marked inner ih => exact ih hitems
  | unreadable => cases hitems

theorem mem_of_lookup_zip {names : List String} {items : List Document} {name : String}
    (h : (names.zip items).lookup name = some d) : d ∈ items := by
  obtain ⟨before, after, hsplit, -⟩ := List.lookup_eq_some_iff.mp h
  have hmem : (name, d) ∈ names.zip items := by
    rw [hsplit]
    simp
  exact (List.of_mem_zip hmem).2

/-- The fields of an orderly record are orderly, whichever way it is written. -/
theorem Orderly.fields (h : d.Orderly) {names : List String} {fs : Fields}
    (hfields : d.fields? names = some fs) : fs.Orderly := by
  induction h with
  | scalar value =>
    rw [fields?] at hfields
    split at hfields
    · rw [← Option.some.inj hfields]
      intro name d hfind
      cases hfind
    · cases hfields
  | list all _ =>
    rw [fields?] at hfields
    split at hfields
    · rw [← Option.some.inj hfields]
      intro name d hfind
      exact all d (mem_of_lookup_zip hfind)
    · cases hfields
  | record all _ =>
    rw [fields?] at hfields
    split at hfields
    · rw [← Option.some.inj hfields]
      intro name d hfind
      obtain ⟨e, he, rfl⟩ := Option.map_eq_some_iff.mp hfind
      exact all e (List.mem_of_find?_eq_some he)
    · cases hfields
  | marked inner ih => exact ih hfields
  | unreadable => cases hfields

end Document

namespace Fields.Orderly

variable {α : Type} {fs : Fields} {name : String} {fallback x : α} {decode : Document → Option α}

/-- A field with a default is decoded from an orderly document, or it has the default. -/
theorem of_defaulted (hfs : fs.Orderly) (h : fs.defaulted name fallback decode = some x) :
    x = fallback ∨ ∃ d : Document, d.Orderly ∧ decode d = some x := by
  unfold Fields.defaulted at h
  split at h
  · rename_i d hd
    exact Or.inr ⟨d, hfs name d hd, h⟩
  · exact Or.inl (Option.some.inj h).symm

/-- An optional field that is not absent is decoded from an orderly document. -/
theorem of_optional (hfs : fs.Orderly) (h : fs.optional name decode = some (some x)) :
    ∃ d : Document, d.Orderly ∧ decode d = some x := by
  rcases hfs.of_defaulted h with hnone | ⟨d, hd, hdecode⟩
  · cases hnone
  · refine ⟨d, hd, ?_⟩
    unfold Document.optional? at hdecode
    split at hdecode
    · split at hdecode
      · cases hdecode
      · simpa using hdecode
    · simpa using hdecode

/-- What holds of everything that is decoded from an orderly document holds of the elements of a list with
a default. -/
theorem forall_of_defaulted {P : α → Prop} {fallback xs : List α} (hfs : fs.Orderly)
    (h : fs.defaulted name fallback (Document.list? decode) = some xs) (hfallback : ∀ x ∈ fallback, P x)
    (hP : ∀ (d : Document) x, d.Orderly → decode d = some x → P x) : ∀ x ∈ xs, P x := by
  rcases hfs.of_defaulted h with rfl | ⟨d, hd, hlist⟩
  · exact hfallback
  · obtain ⟨items, hitems, hall⟩ := Option.bind_eq_some_iff.mp hlist
    have horderly := hd.items hitems
    exact Lists.forall_of_mapM hall fun i hi x => hP i x (horderly i hi)

end Fields.Orderly

namespace Document

/-! ## Documents of values -/

mutual

theorem orderly_ofJson : ∀ v : Json, (ofJson v).Orderly
  | .null => .scalar fun _ hv => Option.some.inj hv ▸ .null
  | .bool b => .scalar fun _ hv => Option.some.inj hv ▸ .bool b
  | .number (.integer n) => .scalar fun _ hv => Option.some.inj hv ▸ .number (.integer n)
  | .number (.double bits) => .scalar fun _ hv => Option.some.inj hv ▸ .number (.double bits)
  | .text s => .scalar fun _ hv => Option.some.inj hv ▸ .text s
  | .list items => .list (orderly_ofItems items)
  | .record fields => .record (orderly_ofFields fields)

theorem orderly_ofItems : ∀ items : List Json, ∀ d ∈ ofItems items, d.Orderly
  | [] => by simp [ofItems]
  | v :: rest => List.forall_mem_cons.mpr ⟨orderly_ofJson v, orderly_ofItems rest⟩

theorem orderly_ofFields : ∀ fields : List (String × Json), ∀ e ∈ ofFields fields, e.2.Orderly
  | [] => by simp [ofFields]
  | (_, v) :: rest => List.forall_mem_cons.mpr ⟨orderly_ofJson v, orderly_ofFields rest⟩

end

/-! ## Documents of YAML texts -/

section Yaml

variable {s : String} {v : Json}

theorem ordered_integerOf? (h : integerOf? s = some (some v)) : v.Ordered := by
  obtain ⟨n, -, hn⟩ := Option.bind_eq_some_iff.mp h
  unfold integerValue? at hn
  split at hn
  · rw [← Option.some.inj (Option.some.inj hn)]
    exact .number _
  · split at hn <;> cases hn

theorem ordered_doubleOf? (h : doubleOf? s = some v) : v.Ordered := by
  unfold doubleOf? at h
  split at h
  · exact Option.some.inj h ▸ .null
  · obtain ⟨f, -, rfl⟩ := Option.map_eq_some_iff.mp h
    exact .number _

theorem ordered_plainValue? (h : plainValue? s = some v) : v.Ordered := by
  unfold plainValue? at h
  split at h
  · exact Option.some.inj h ▸ .null
  · split at h
    · exact Option.some.inj h ▸ .bool _
    · split at h
      · rename_i hinteger
        exact ordered_integerOf? (hinteger.trans (congrArg some h))
      · split at h
        · exact Option.some.inj h ▸ .text s
        · rcases Option.or_eq_some_iff.mp h with hdouble | ⟨-, htext⟩
          · exact ordered_doubleOf? hdouble
          · exact Option.some.inj htext ▸ .text s

/-- No scalar is a list or a map, whatever tag it bears. -/
theorem ordered_scalarValue? {tag : Option String} {style : Yaml.Style}
    (h : scalarValue? tag style s = some v) : v.Ordered := by
  unfold scalarValue? at h
  split at h
  · split at h
    · obtain ⟨b, -, rfl⟩ := Option.map_eq_some_iff.mp h
      exact .bool b
    · split at h
      · exact ordered_integerOf? (Option.join_eq_some_iff.mp h)
      · split at h
        · exact ordered_doubleOf? h
        · split at h
          · split at h
            · exact Option.some.inj h ▸ .null
            · cases h
          · exact Option.some.inj h ▸ .text s
  · split at h
    · exact ordered_plainValue? h
    · exact Option.some.inj h ▸ .text s

theorem Orderly.markedBy {d : Document} (h : d.Orderly) (tag : Option String) :
    (markedBy tag d).Orderly := by
  unfold Document.markedBy
  split
  · exact .marked h
  · exact h

end Yaml

mutual

theorem orderly_ofNode : ∀ (node : Yaml.Node) (depth : Nat), (ofNode depth node).Orderly
  | .scalar tag style s, depth => by
    rw [ofNode]
    split
    · exact .marked (.scalar fun v hv => @ordered_scalarValue? s v none style hv)
    · exact .scalar fun v hv => @ordered_scalarValue? s v tag style hv
  | .sequence tag items, depth => by
    rw [ofNode]
    split
    · exact .unreadable
    · exact Orderly.markedBy (.list (orderly_ofNodes items (depth - 1))) tag
  | .mapping tag entries, depth => by
    rw [ofNode]
    split
    · exact .unreadable
    · exact Orderly.markedBy (.record (orderly_ofEntries entries (depth - 1))) tag
  | .unfinished, _ => by
    rw [ofNode]
    exact .unreadable

theorem orderly_ofNodes : ∀ (nodes : List Yaml.Node) (depth : Nat), ∀ d ∈ ofNodes depth nodes, d.Orderly
  | [], _ => by simp [ofNodes]
  | n :: rest, depth => by
    rw [ofNodes]
    exact List.forall_mem_cons.mpr ⟨orderly_ofNode n depth, orderly_ofNodes rest depth⟩

theorem orderly_ofEntries : ∀ (entries : List (Yaml.Node × Yaml.Node)) (depth : Nat),
    ∀ e ∈ ofEntries depth entries, e.2.Orderly
  | [], _ => by simp [ofEntries]
  | (_, v) :: rest, depth => by
    unfold ofEntries
    exact List.forall_mem_cons.mpr ⟨orderly_ofNode v depth, orderly_ofEntries rest depth⟩

end

theorem orderly_ofYamlText {s : String} {d : Document} (h : ofYamlText s = some d) : d.Orderly := by
  obtain ⟨node, -, rfl⟩ := Option.map_eq_some_iff.mp h
  split
  · exact orderly_ofNode _ _
  · exact .scalar fun _ hv => nomatch hv

/-! ## Documents of JSON texts -/

section Json

variable {d : Document} {rest : List Char}

theorem orderly_doubleNode (negative : Bool) (s : Nat) (exponent : Int) :
    (doubleNode negative s exponent).Orderly := by
  unfold doubleNode
  dsimp only
  split
  · exact .scalar fun _ hv => Option.some.inj hv ▸ .number _
  · exact .unreadable

theorem orderly_integerNode (negative : Bool) (n : Nat) : (integerNode negative n).Orderly := by
  unfold integerNode
  split
  · exact .scalar fun _ hv => Option.some.inj hv ▸ .number _
  · split
    · exact .scalar fun _ hv => Option.some.inj hv ▸ .number _
    · exact orderly_doubleNode _ _ _

/-- What is read, if anything is. -/
def Gives {α : Type} (P : α → Prop) (r : JsonPart α) : Prop :=
  ∀ p, r = .ok p → P p.1

section Gives

variable {α β : Type} {P : α → Prop} {Q : β → Prop}

theorem gives_error (e : JsonDefect) : Gives P (.error e) := by
  intro p h
  cases h

theorem gives_ok {a : α} (h : P a) (rest : List Char) : Gives P (.ok (a, rest)) := by
  intro p hp
  exact Except.ok.inj hp ▸ h

theorem Gives.map {r : JsonPart α} {f : α × List Char → β × List Char} (h : Gives P r)
    (hf : ∀ p, P p.1 → Q (f p).1) : Gives Q (r.map f) := by
  intro q hq
  cases r with
  | error e => cases hq
  | ok p => exact Except.ok.inj hq ▸ hf p (h p rfl)

end Gives

theorem gives_number (negative : Bool) (cs : List Char) : Gives Orderly (number negative cs) := by
  unfold number
  dsimp only
  split
  · exact gives_error _
  · split
    · exact gives_error _
    · split
      · exact gives_error _
      · split
        · split
          · exact Gives.map (P := fun _ => True) (fun _ _ => trivial) fun _ _ => orderly_doubleNode _ _ _
          · split
            · exact gives_ok (orderly_integerNode _ _) _
            · exact gives_ok (orderly_doubleNode _ _ _) _
        · split
          · exact gives_ok (orderly_integerNode _ _) _
          · exact gives_ok (orderly_doubleNode _ _ _) _

theorem gives_wordPart (word : String) (v : Json) (cs : List Char)
    (h : (Document.scalar (scalarOfJson v)).Orderly) :
    Gives Orderly (wordPart word (.scalar (scalarOfJson v)) cs) := by
  unfold wordPart
  split
  · exact gives_ok h _
  · exact gives_error _

/-- What a reader of values gives with some fuel, and what the readers of items and entries give. -/
structure GivesOrderly (fuel : Nat) : Prop where
  value : ∀ depth cs, Gives Orderly (jsonValue depth fuel cs)
  items : ∀ depth first cs, Gives (fun ds => ∀ d ∈ ds, d.Orderly) (jsonItems depth fuel first cs)
  entries : ∀ depth first cs,
    Gives (fun es => ∀ e ∈ es, e.2.Orderly) (jsonEntries depth fuel first cs)

theorem givesOrderly (fuel : Nat) : GivesOrderly fuel := by
  induction fuel with
  | zero =>
    constructor
    · intro depth cs
      exact gives_error _
    · intro depth first cs
      exact gives_error _
    · intro depth first cs
      exact gives_error _
  | succ fuel ih =>
    constructor
    · intro depth cs
      unfold jsonValue
      split
      · refine (ih.entries _ true _).map fun p hp => ?_
        dsimp only
        split
        · exact .unreadable
        · exact .record hp
      · refine (ih.items _ true _).map fun p hp => ?_
        dsimp only
        split
        · exact .unreadable
        · exact .list hp
      · refine Gives.map (P := fun _ => True) (fun _ _ => trivial) fun p _ => ?_
        dsimp only
        split
        · exact orderly_ofJson (.text _)
        · exact .unreadable
      · exact gives_wordPart _ _ _ (orderly_ofJson (.bool true))
      · exact gives_wordPart _ _ _ (orderly_ofJson (.bool false))
      · exact gives_wordPart _ _ _ (orderly_ofJson .null)
      · exact gives_number _ _
      · exact gives_number _ _
    · intro depth first cs
      unfold jsonItems
      split
      · exact gives_ok (by simp) _
      · split
        · exact gives_error _
        · rename_i d rest hd
          have hfirst : d.Orderly := ih.value depth _ _ hd
          split
          · exact gives_ok (by simpa using hfirst) _
          · exact (ih.items depth false _).map fun p hp => List.forall_mem_cons.mpr ⟨hfirst, hp⟩
          · exact gives_error _
    · intro depth first cs
      unfold jsonEntries
      split
      · exact gives_ok (by simp) _
      · split
        · exact gives_error _
        · split
          · split
            · exact gives_error _
            · rename_i d rest hd
              have hfirst : d.Orderly := ih.value depth _ _ hd
              dsimp only
              split
              · exact gives_ok (by simpa using hfirst) _
              · exact (ih.entries depth false _).map fun p hp =>
                  List.forall_mem_cons.mpr ⟨hfirst, hp⟩
              · exact gives_error _
          · exact gives_error _
      · exact gives_error _

theorem orderly_ofJsonText {s : String} (h : ofJsonText s = some d) : d.Orderly := by
  unfold ofJsonText readJsonText at h
  dsimp only at h
  split at h
  · cases h
  · rename_i e rest hvalue
    have horderly : e.Orderly := (givesOrderly _).value _ _ _ hvalue
    split at h
    · exact Option.some.inj h ▸ horderly
    · cases h

end Json

end Document

end EcosystemSetup

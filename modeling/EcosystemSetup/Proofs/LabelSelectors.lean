import EcosystemSetup.Proofs.ByteOrder
import EcosystemSetup.Proofs.CalmClusters
import EcosystemSetup.Proofs.Trimming
import EcosystemSetup.Wait.Target

/-!
# Label selectors

A selector is the conjunction of its terms, however it is put together: two selectors with a comma between
them match what both match, and only the terms count that are not blank, whatever their order. Main
statement: the selector of a label with a value matches exactly the labels in which the key has that value,
although the value may hold equals signs and blanks; so a store lists the objects with that label, in name
order, and no others.
-/

namespace EcosystemSetup

/-! ## Unpadded texts -/

namespace Text

/-- A text that neither starts nor ends with a blank. -/
def Unpadded (s : String) : Prop :=
  trim s = s

instance (s : String) : Decidable (Unpadded s) :=
  inferInstanceAs (Decidable (trim s = s))

variable {s t : String}

theorem Unpadded.trims (h : Unpadded s) : Trims s.toList s.toList := by
  have htrims := trims_trimChars s.toList
  have hchars : trimChars s.toList = s.toList := by
    have hlist := congrArg String.toList h
    rwa [trim, String.toList_ofList] at hlist
  rwa [hchars] at htrims

/-- Unpadded texts around a character that is no blank are unpadded. -/
theorem Unpadded.append (hs : Unpadded s) (ht : Unpadded t) {sep : String} {c : Char}
    (hsep : sep.toList = [c]) (hc : isBlank c = false) : Unpadded (s ++ sep ++ t) := by
  have hlist : (s ++ sep ++ t).toList = s.toList ++ c :: t.toList := by
    simp [hsep]
  have hfirst : ∀ d rest, s.toList ++ c :: t.toList = d :: rest → isBlank d = false := by
    intro d rest heq
    cases hhead : s.toList with
    | nil =>
      rw [hhead, List.nil_append] at heq
      exact (List.cons.inj heq).1 ▸ hc
    | cons b more =>
      rw [hhead, List.cons_append] at heq
      exact (List.cons.inj heq).1 ▸ hs.trims.first b more hhead
  have hlast : ∀ d rest, s.toList ++ c :: t.toList = rest ++ [d] → isBlank d = false := by
    intro d rest heq
    rcases List.eq_nil_or_concat t.toList with hend | ⟨more, b, hend⟩
    · rw [hend] at heq
      have hdc : c = d := List.singleton_inj.mp (List.append_inj_right' heq rfl)
      exact hdc ▸ hc
    · rw [hend, List.concat_eq_append, ← List.cons_append, ← List.append_assoc] at heq
      have hdb : b = d := List.singleton_inj.mp (List.append_inj_right' heq rfl)
      exact hdb ▸ ht.trims.last b more (by rw [hend, List.concat_eq_append])
  rw [Unpadded, trim, hlist, trimChars_of_ends hfirst hlast, ← hlist, String.ofList_toList]

end Text

namespace Cluster

open Text

variable {labels : TextMap}

/-! ## Selectors of several parts -/

theorem selectorTerms_append (first second : String) :
    selectorTerms (first ++ "," ++ second) = selectorTerms first ++ selectorTerms second := by
  have hlist : (first ++ "," ++ second).toList = first.toList ++ ',' :: second.toList := by
    simp
  unfold selectorTerms segmentsOf
  rw [hlist, segments_append]
  simp only [List.map_append, List.filter_append]

/-- A blank text has no terms. -/
theorem selectorTerms_of_blank {s : String} (h : isBlankText s = true) : selectorTerms s = [] := by
  have hcomma : ',' ∉ s.toList := by
    intro hmem
    have hblank : isBlank ',' = true := List.all_eq_true.mp h ',' hmem
    revert hblank
    decide
  have htrim : trim s = "" := (trim_eq_empty_iff s).mpr h
  unfold selectorTerms segmentsOf
  rw [segments_of_not_mem hcomma]
  simp [htrim]

theorem selects_append (first second : String) :
    selects (first ++ "," ++ second) labels = (selects first labels && selects second labels) := by
  unfold selects
  rw [selectorTerms_append, List.all_append]

theorem selects_of_blank {s : String} (h : isBlankText s = true) : selects s labels = true := by
  unfold selects
  rw [selectorTerms_of_blank h, List.all_nil]

/-- Parts with commas between them match what each of them matches. -/
theorem selects_intercalate (parts : List String) :
    selects (",".intercalate parts) labels = parts.all fun part => selects part labels := by
  induction parts with
  | nil => exact selects_of_blank rfl
  | cons first rest ih =>
    cases rest with
    | nil => simp
    | cons second more =>
      rw [String.intercalate_cons_cons, selects_append, ih]
      rfl

/-- How a selector of several parts relates to its parts. -/
structure Conjoins (labels : TextMap) : Prop where
  joined : ∀ first second, selects (first ++ "," ++ second) labels = true ↔
    selects first labels = true ∧ selects second labels = true
  blank : ∀ s, isBlankText s = true → selects s labels = true
  /-- Only which parts there are counts, and of those only the ones that are not blank. -/
  parts : ∀ parts others : List String,
    (∀ part, isBlankText part = false → (part ∈ parts ↔ part ∈ others)) →
      selects (",".intercalate parts) labels = selects (",".intercalate others) labels

theorem conjoins (labels : TextMap) : Conjoins labels where
  joined first second := by rw [selects_append, Bool.and_eq_true]
  blank _ := selects_of_blank
  parts parts others hsame := by
    -- blank parts match anyway, so each list matches if its other parts do
    have hsub : ∀ {ps qs : List String}, (∀ p, isBlankText p = false → p ∈ qs → p ∈ ps) →
        (ps.all fun p => selects p labels) = true → (qs.all fun q => selects q labels) = true := by
      intro ps qs hmem hall
      rw [List.all_eq_true] at hall ⊢
      intro q hq
      cases hblank : isBlankText q with
      | true => exact selects_of_blank hblank
      | false => exact hall q (hmem q hblank hq)
    rw [selects_intercalate, selects_intercalate, Bool.eq_iff_iff]
    exact ⟨hsub fun p hp => (hsame p hp).mpr, hsub fun p hp => (hsame p hp).mp⟩

/-! ## The selector of a label -/

/-- A text without commas and without blanks at its ends is one term. -/
theorem selectorTerms_of_unpadded {s : String} (hcomma : ',' ∉ s.toList) (htrim : Unpadded s)
    (hne : s ≠ "") : selectorTerms s = [.ofText s] := by
  unfold selectorTerms segmentsOf
  rw [segments_of_not_mem hcomma, List.map_singleton, List.map_singleton, String.ofList_toList,
    htrim, List.filter_singleton]
  simp [hne]

/-- A label that a selector can ask for as it is. -/
structure Selectable (key value : String) : Prop where
  key_whole : ',' ∉ key.toList ∧ '=' ∉ key.toList
  key_unpadded : Unpadded key
  value_whole : ',' ∉ value.toList
  value_unpadded : Unpadded value

variable {key value : String}

/-- The selector of a label is one term, which ends the key at the first equals sign. -/
theorem selectorTerms_labelled (h : Selectable key value) :
    selectorTerms (Wait.Target.labelled key value).selector = [.equals key value] := by
  have hlist : (key ++ "=" ++ value).toList = key.toList ++ '=' :: value.toList := by
    simp
  have hcomma : ',' ∉ (key ++ "=" ++ value).toList := by
    rw [hlist]
    simp [h.key_whole.1, h.value_whole]
  have hunpadded : Unpadded (key ++ "=" ++ value) :=
    h.key_unpadded.append h.value_unpadded (c := '=') (by simp) (by decide)
  have hne : key ++ "=" ++ value ≠ "" := by
    intro hempty
    rw [hempty] at hlist
    simp at hlist
  have hterm : SelectorTerm.ofText (key ++ "=" ++ value) = .equals key value := by
    unfold SelectorTerm.ofText cutFirst
    rw [hlist, splitFirst_append _ h.key_whole.2]
    simp
  show selectorTerms (key ++ "=" ++ value) = _
  rw [selectorTerms_of_unpadded hcomma hunpadded hne, hterm]

/-- The selector of a label matches exactly the labels in which the key has the value. -/
theorem selects_labelled (h : Selectable key value) :
    selects (Wait.Target.labelled key value).selector labels = true ↔
      Assoc.get? key labels = some value := by
  unfold selects
  rw [selectorTerms_labelled h, List.all_cons, List.all_nil, Bool.and_true, SelectorTerm.holds,
    beq_iff_eq]

/-! ## Lists of a store -/

namespace Store

variable {c : Collection} {s : Store c}

/-- The stores that operations lead to from an empty one. -/
inductive Built : Store c → Prop where
  | empty : Built {}
  | insert {s : Store c} (h : Built s) (o : Object c) : Built (s.insert o)
  | failNextRead {s : Store c} (h : Built s) (e : AccessError) : Built (s.failNextRead e)
  | pushSession {s : Store c} (h : Built s) (session : Session c) : Built (s.pushSession session)
  | get {s : Store c} (h : Built s) (name : String) : Built (s.get name).2
  | list {s : Store c} (h : Built s) (selector : String) : Built (s.list selector).2
  | watch {s : Store c} (h : Built s) (selector version : String) :
      Built (s.watch selector version).2
  | create {s : Store c} (h : Built s) (o : Object c) : Built (s.create o).2
  | update {s : Store c} (h : Built s) (o : Object c) : Built (s.update o).2

/-- Whatever is done to a store, its objects stand in name order. -/
theorem Built.filed (h : Built s) : s.Filed := by
  induction h with
  | empty => exact filed_empty
  | insert _ o ih => exact ih.insert o
  | failNextRead _ e ih => exact ih.of_objects rfl
  | pushSession _ session ih => exact ih.of_objects rfl
  | get _ name ih => exact ih.of_objects (objects_get name)
  | list _ selector ih => exact ih.of_objects (objects_list selector)
  | watch _ selector version ih => exact ih.of_objects (objects_watch selector version)
  | create _ o ih => exact (written_create _ o).keeps_filed ih
  | update _ o ih => exact (written_update _ o).keeps_filed ih

/-- The objects of a snapshot stand in the order of their names' bytes. -/
theorem Filed.sorted_snapshot (h : s.Filed) (selector : String) :
    (s.snapshot selector).items.Pairwise fun a b => Text.bytes a.name < Text.bytes b.name := by
  show (List.filter _ (List.map Prod.snd s.objects)).Pairwise _
  refine List.Pairwise.filter _ ?_
  rw [List.pairwise_map]
  refine List.Pairwise.imp_of_mem ?_ h.sorted
  intro p q hp hq hlt
  rw [h.named p hp, h.named q hq]
  exact bytes_lt_of_lt hlt

/-- What the list for a label gives: an error that waits for a read, or exactly the objects with that
label, in name order. -/
structure ListsLabelled (s : Store c) (key value : String) : Prop where
  fails : ∀ e rest, s.readErrors = e :: rest →
    (s.list (Wait.Target.labelled key value).selector).1 = .error e
  lists : s.readErrors = [] → ∃ snapshot,
    (s.list (Wait.Target.labelled key value).selector).1 = .ok snapshot ∧
      snapshot.version = toString s.revision ∧
      (∀ o, o ∈ snapshot.items ↔ s.object? o.name = some o ∧ Assoc.get? key o.labels = some value) ∧
      snapshot.items.Pairwise fun a b => Text.bytes a.name < Text.bytes b.name

theorem Built.listsLabelled (hs : s.Built) (h : Selectable key value) : s.ListsLabelled key value where
  fails e rest herrors := by
    unfold Store.list countRead
    dsimp only
    rw [herrors]
  lists hnone := by
    refine ⟨s.snapshot (Wait.Target.labelled key value).selector, ?_, rfl, ?_, hs.filed.sorted_snapshot _⟩
    · rw [Store.list, countRead_of_nil hnone]
    · intro o
      rw [mem_snapshot hs.filed, selects_labelled h]

end Store

/-! ## Main statement -/

/-- What the selector of a label is good for. -/
structure SelectsLabel (key value : String) : Prop where
  matched : ∀ labels, selects (Wait.Target.labelled key value).selector labels = true ↔
    Assoc.get? key labels = some value
  listed : ∀ {c : Collection} (s : Store c), s.Built → s.ListsLabelled key value

/-- Selectors are conjunctions of their terms, and that of a label matches this label only. -/
theorem selectors_exact : (∀ labels, Conjoins labels) ∧
    ∀ key value, Selectable key value → SelectsLabel key value := by
  refine ⟨conjoins, ?_⟩
  intro key value h
  exact ⟨fun _ => selects_labelled h, fun _ hs => hs.listsLabelled h⟩

/-- A pod with a label. -/
def labelledPod (name value : String) : Object .pods :=
  ⟨{ name := some name, labels := some [("dogu.name", value)] }, {}⟩

/-- Pods of which two have a label with an equals sign and a blank, and one has a part of it. -/
def labelledPods : Store .pods :=
  ((({} : Store .pods).insert (labelledPod "b" "ldap=test run")).insert
    (labelledPod "c" "ldap")).insert (labelledPod "a" "ldap=test run")

theorem selectors_exact_labelledPods :
    Selectable "dogu.name" "ldap=test run" ∧ SelectsLabel "dogu.name" "ldap=test run" ∧
      labelledPods.Built ∧ (labelledPods.list "dogu.name=ldap=test run").1 =
        .ok ⟨[labelledPod "a" "ldap=test run", labelledPod "b" "ldap=test run"], "3"⟩ := by
  have h : Selectable "dogu.name" "ldap=test run" :=
    ⟨by decide, by decide +kernel, by decide, by decide +kernel⟩
  exact ⟨h, selectors_exact.2 _ _ h, ((Store.Built.empty.insert _).insert _).insert _,
    by decide +kernel⟩

end Cluster

end EcosystemSetup

import EcosystemSetup.FileTree
import Mathlib.Data.List.Basic

/-!
# Paths in file trees

A path given as a text is followed component by component. A relative path that is joined to a base is
followed from where the base leads, and a plain file name leads from a directory to its entry of that
name. Without a plain name that need not hold: `.` and `..` are followed, and a name that is too long or
holds a NUL is refused.
-/

namespace EcosystemSetup

/-! ## Segments -/

namespace Text

theorem splitLast_append {sep : Char} {b : List Char} (a : List Char) (h : sep ∉ b) :
    splitLast sep (a ++ sep :: b) = some (a, b) := by
  induction a with
  | nil => simp [splitLast, splitLast_eq_none_iff.mpr h]
  | cons c rest ih => simp [splitLast, ih]

theorem segmentsOf_append (a b : String) :
    segmentsOf (a ++ "/" ++ b) '/' = segmentsOf a '/' ++ segmentsOf b '/' := by
  simp [segmentsOf, segments_append]

theorem segmentsOf_of_not_mem {s : String} (h : '/' ∉ s.toList) : segmentsOf s '/' = [s] := by
  simp [segmentsOf, segments_of_not_mem h]

end Text

/-! ## Joined paths -/

namespace FileTree

variable {t : FileTree}

/-- Follows a path that is well formed. -/
def follow (t : FileTree) (path : String) : Except FileError Place :=
  (Text.segmentsOf path '/').foldlM t.descend (t.start path)

theorem locate_eq_follow {path : String} (hnul : '\x00' ∉ path.toList) (hpath : path ≠ "") :
    t.locate path = t.follow path := by
  have hcontains : path.toList.contains '\x00' = false := by simpa using hnul
  unfold locate
  rw [hcontains, if_neg Bool.false_ne_true, if_neg hpath]
  rfl

theorem foldlM_descend_singleton (p : Place) (part : String) :
    [part].foldlM t.descend p = t.descend p part := by
  simp

/-- An empty component before others leads nowhere else; where there is no directory they fail as it
does. -/
theorem descend_empty_bind (p : Place) (part : String) (rest : List String) :
    (t.descend p "" >>= fun q => (part :: rest).foldlM t.descend q) =
      (part :: rest).foldlM t.descend p := by
  have hstep : t.descend p "" = .ok p ∨
      ∃ e, t.descend p "" = .error e ∧ ∀ next, t.descend p next = .error e := by
    cases p with
    | outside => exact Or.inl (by simp [descend])
    | inside path =>
      cases hfolder : t.isFolder path with
      | true => exact Or.inl (by simp [descend, hfolder])
      | false =>
        refine Or.inr ⟨.notDirectory, ?_, fun next => ?_⟩ <;> simp [descend, hfolder]
  rcases hstep with hok | ⟨e, herror, hall⟩
  · rw [hok]
    rfl
  · rw [herror, List.foldlM_cons, hall part]
    rfl

/-- What follows the first character of a path does not change where it starts. -/
theorem start_append {base : String} (hbase : base ≠ "") (rest : String) :
    t.start (base ++ rest) = t.start base := by
  have hfirst : (base ++ rest).startsWith "/" = base.startsWith "/" := by
    rw [Bool.eq_iff_iff, String.startsWith_string_iff, String.startsWith_string_iff,
      String.toList_append]
    have hne : base.toList ≠ [] := by simpa using hbase
    cases hchars : base.toList with
    | nil => exact absurd hchars hne
    | cons c cs => simp
  unfold start
  rw [hfirst]

theorem endsWith_slash_iff {base : String} :
    base.endsWith "/" = true ↔ ∃ first, base = first ++ "/" := by
  rw [String.endsWith_eq_endsWith_toSlice, String.Slice.endsWith_string_iff]
  constructor
  · rintro ⟨first, hfirst⟩
    refine ⟨String.ofList first, ?_⟩
    apply String.toList_injective
    simpa using hfirst.symm
  · rintro ⟨first, rfl⟩
    exact ⟨first.toList, by simp⟩

theorem exists_segmentsOf_eq_cons (path : String) :
    ∃ first rest, Text.segmentsOf path '/' = first :: rest := by
  have hne : Text.segmentsOf path '/' ≠ [] := by
    simp [Text.segmentsOf, Text.segments_ne_nil]
  exact List.exists_cons_of_ne_nil hne

/-- A relative path below a base is followed from where the base leads. -/
theorem follow_join {path : String} (hpath : path.startsWith "/" = false) (base : String) :
    t.follow (join base path) =
      (t.follow base >>= fun place => (Text.segmentsOf path '/').foldlM t.descend place) := by
  obtain ⟨first, rest, hsegments⟩ := exists_segmentsOf_eq_cons path
  unfold join
  rw [hpath, if_neg Bool.false_ne_true]
  by_cases hempty : base = ""
  · -- an empty base leads to where relative paths start
    subst hempty
    have hstart : t.start path = t.start "" := by
      unfold start
      rw [hpath]
      rfl
    have hbase : t.follow "" = t.descend (t.start "") "" := foldlM_descend_singleton _ _
    rw [if_pos (Or.inl rfl), String.empty_append, follow, hstart, hbase, hsegments,
      descend_empty_bind]
  by_cases hslash : base.endsWith "/" = true
  · -- the last component of the base is empty
    rw [if_pos (Or.inr hslash)]
    obtain ⟨before, rfl⟩ := endsWith_slash_iff.mp hslash
    have hbase : Text.segmentsOf (before ++ "/") '/' = Text.segmentsOf before '/' ++ [""] := by
      have happend := Text.segmentsOf_append before ""
      rwa [String.append_empty] at happend
    unfold follow
    rw [hbase, start_append hempty, Text.segmentsOf_append, List.foldlM_append, List.foldlM_append,
      bind_assoc]
    congr 1
    funext p
    rw [foldlM_descend_singleton, hsegments, descend_empty_bind]
  · rw [if_neg (by simp [hempty, hslash])]
    unfold follow
    rw [String.append_assoc, start_append hempty, ← String.append_assoc, Text.segmentsOf_append,
      List.foldlM_append]

theorem mem_join {base path : String} {c : Char} (h : c ∈ (join base path).toList) :
    c ∈ base.toList ∨ c = '/' ∨ c ∈ path.toList := by
  unfold join at h
  split at h
  · exact Or.inr (Or.inr h)
  · split at h
    · rw [String.toList_append, List.mem_append] at h
      exact h.imp_right Or.inr
    · simpa [or_assoc] using h

theorem join_ne_empty {base path : String} (h : path ≠ "") : join base path ≠ "" := by
  unfold join
  split
  · exact h
  · split <;> simp [h]

/-! ## Plain names -/

/-- A name that a file in a directory may have. -/
structure Plain (name : String) : Prop where
  nonempty : name ≠ ""
  ne_dot : name ≠ "."
  ne_dots : name ≠ ".."
  slashless : '/' ∉ name.toList
  nulless : '\x00' ∉ name.toList
  short : name.utf8ByteSize ≤ 255

instance (name : String) : Decidable (Plain name) :=
  decidable_of_iff (name ≠ "" ∧ name ≠ "." ∧ name ≠ ".." ∧ '/' ∉ name.toList ∧
      '\x00' ∉ name.toList ∧ name.utf8ByteSize ≤ 255)
    ⟨fun ⟨h₁, h₂, h₃, h₄, h₅, h₆⟩ => ⟨h₁, h₂, h₃, h₄, h₅, h₆⟩,
      fun h => ⟨h.1, h.2, h.3, h.4, h.5, h.6⟩⟩

theorem Plain.segmentsOf {name : String} (h : Plain name) : Text.segmentsOf name '/' = [name] :=
  Text.segmentsOf_of_not_mem h.slashless

/-- A path that begins with a plain name is relative. -/
theorem Plain.startsWith_append {name : String} (h : Plain name) (rest : String) :
    (name ++ rest).startsWith "/" = false := by
  rw [Bool.eq_false_iff, ne_eq, String.startsWith_string_iff, String.toList_append]
  have hne : name.toList ≠ [] := by simpa using h.nonempty
  cases hchars : name.toList with
  | nil => exact absurd hchars hne
  | cons c cs =>
    have hc : '/' ≠ c := by
      rintro rfl
      exact h.slashless (by simp [hchars])
    simp [hc]

theorem Plain.startsWith {name : String} (h : Plain name) : name.startsWith "/" = false := by
  have happend := h.startsWith_append ""
  rwa [String.append_empty] at happend

/-- A plain name leads from a directory to its entry. -/
theorem descend_plain {path : List String} {name : String} (h : Plain name)
    (hpath : t.isFolder path = true) :
    t.descend (.inside path) name =
      if t.isFolder (path ++ [name]) = true ∨ (t.file? (path ++ [name])).isSome = true then
        .ok (.inside (path ++ [name])) else .error .missing := by
  have hshort := h.short
  unfold descend
  simp [hpath, h.nonempty, h.ne_dot, h.ne_dots, Nat.not_lt.mpr hshort]

/-! ## Directories -/

/-- What lies on the way to a directory is a directory. -/
theorem isFolder_of_append {path rest : List String} (h : t.isFolder (path ++ rest) = true) :
    t.isFolder path = true := by
  unfold isFolder at h ⊢
  simp only [Bool.or_eq_true, List.any_eq_true, Bool.and_eq_true, decide_eq_true_eq,
    List.isPrefixOf_iff_prefix, List.isEmpty_iff] at h ⊢
  have hprefix : path <+: path ++ rest := List.prefix_append path rest
  rcases h with (hempty | ⟨folder, hfolder, hbelow⟩) | ⟨file, hfile, hbelow, hlength⟩
  · exact Or.inl (Or.inl (List.append_eq_nil_iff.mp hempty).1)
  · exact Or.inl (Or.inr ⟨folder, hfolder, hprefix.trans hbelow⟩)
  · rw [List.length_append] at hlength
    exact Or.inr ⟨file, hfile, hprefix.trans hbelow, by omega⟩

/-- What lies above a file is a directory. -/
theorem isFolder_of_file {path rest : List String} {text : String} (hrest : rest ≠ [])
    (h : (path ++ rest, text) ∈ t.files) : t.isFolder path = true := by
  unfold isFolder
  simp only [Bool.or_eq_true, List.any_eq_true, Bool.and_eq_true, decide_eq_true_eq,
    List.isPrefixOf_iff_prefix]
  refine Or.inr ⟨_, h, List.prefix_append path rest, ?_⟩
  have hpos := List.length_pos_of_ne_nil hrest
  simp only [List.length_append]
  omega

/-- The entries of a directory are the components that the paths below it begin with. -/
theorem mem_children {path : List String} {name : String} :
    name ∈ t.children path ↔ ∃ rest, path ++ name :: rest ∈ t.files.map Prod.fst ++ t.folders := by
  unfold children
  simp only [List.mem_eraseDups, List.mem_filterMap, List.mem_filter, Bool.and_eq_true,
    decide_eq_true_eq, List.isPrefixOf_iff_prefix]
  constructor
  · rintro ⟨p, ⟨hp, ⟨tail, rfl⟩, -⟩, hhead⟩
    rw [List.drop_left] at hhead
    cases tail with
    | nil => cases hhead
    | cons first rest =>
      rw [List.head?_cons, Option.some.injEq] at hhead
      subst hhead
      exact ⟨rest, hp⟩
  · rintro ⟨rest, hrest⟩
    refine ⟨_, ⟨hrest, List.prefix_append _ _, ?_⟩, ?_⟩
    · simp
    · rw [List.drop_left, List.head?_cons]

theorem mem_of_file? {path : List String} {text : String} (h : t.file? path = some text) :
    (path, text) ∈ t.files := by
  unfold file? at h
  generalize t.files = files at h
  induction files with
  | nil => cases h
  | cons entry rest ih =>
    obtain ⟨p, other⟩ := entry
    rw [List.lookup_cons] at h
    split at h
    · rename_i heq
      have hp : path = p := by simpa using heq
      rw [Option.some.injEq] at h
      rw [hp, h]
      exact List.mem_cons_self
    · exact List.mem_cons_of_mem _ (ih h)

theorem read_of_locate_error {path : String} {e : FileError} (h : t.locate path = .error e) :
    t.read path = .error e := by
  unfold read
  rw [h]

theorem read_of_file? {path text : String} {place : List String}
    (hlocate : t.locate path = .ok (.inside place)) (hfile : t.file? place = some text) :
    t.read path = .ok text := by
  unfold read
  rw [hlocate]
  dsimp only
  rw [hfile]

theorem exists_file?_of_mem {path : List String} {text : String} (h : (path, text) ∈ t.files) :
    ∃ found, t.file? path = some found := by
  unfold file?
  generalize t.files = files at h
  induction files with
  | nil => cases h
  | cons entry rest ih =>
    obtain ⟨p, other⟩ := entry
    rw [List.lookup_cons]
    split
    · exact ⟨other, rfl⟩
    · rename_i hne
      rcases List.mem_cons.mp h with heq | hrest
      · rw [Prod.mk.injEq] at heq
        simp [heq.1] at hne
      · exact ih hrest

end FileTree

end EcosystemSetup

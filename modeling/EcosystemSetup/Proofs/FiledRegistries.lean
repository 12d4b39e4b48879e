import EcosystemSetup.Proofs.DescriptorTexts
import EcosystemSetup.Proofs.FilePaths
import EcosystemSetup.Proofs.RequestTexts
import EcosystemSetup.Proofs.Resolution
import Mathlib.Data.List.Pairwise

/-!
# Registries on disk and in memory

A directory that holds some descriptors, each in the file of its name and version, answers a request
like the list of these descriptors, with the same descriptor or the same error. Both look for the name
as it is written. For a pinned version the list compares what the texts denote, while the directory
looks for a file of that very text; so they part on a version with blanks around it, and nowhere else.
-/

namespace EcosystemSetup.Registry

open Dogu FileTree

/-! ## Descriptors and their places -/

/-- A name that is made of a namespace and a simple name, which may be names of directories. -/
structure Qualified (name ns simple : String) : Prop where
  eq : name = ns ++ "/" ++ simple
  ns : Plain ns
  simple : Plain simple

theorem Qualified.segmentsOf {name ns simple : String} (h : Qualified name ns simple) :
    Text.segmentsOf name '/' = [ns, simple] := by
  rw [h.eq, Text.segmentsOf_append, h.ns.segmentsOf, h.simple.segmentsOf]
  rfl

/-- A qualified name is a relative path. -/
theorem Qualified.startsWith {name ns simple : String} (h : Qualified name ns simple) :
    name.startsWith "/" = false := by
  rw [h.eq, String.append_assoc]
  exact h.ns.startsWith_append _

theorem Qualified.ne_empty {name ns simple : String} (h : Qualified name ns simple) : name ≠ "" := by
  rw [h.eq]
  simp

theorem Qualified.nulless {name ns simple : String} (h : Qualified name ns simple) :
    '\x00' ∉ name.toList := by
  rw [h.eq]
  simp [h.ns.nulless, h.simple.nulless]

/-- Where the descriptor of a name and a version is filed in a registry. -/
def placeOf (name version : String) : List String :=
  Text.segmentsOf name '/' ++ [version ++ ".json"]

theorem Qualified.placeOf {name ns simple : String} (h : Qualified name ns simple)
    (version : String) : placeOf name version = [ns, simple, version ++ ".json"] := by
  rw [Registry.placeOf, h.segmentsOf]
  rfl

/-- Names and versions of different descriptors have different places. -/
theorem eq_of_placeOf_eq {name other ns simple ns' simple' version version' : String}
    (h : Qualified name ns simple) (h' : Qualified other ns' simple')
    (heq : Registry.placeOf name version = Registry.placeOf other version') :
    name = other ∧ version = version' := by
  rw [h.placeOf, h'.placeOf] at heq
  simp only [List.cons.injEq, and_true] at heq
  obtain ⟨rfl, rfl, hfile⟩ := heq
  have hversion : version = version' := by
    apply String.toList_injective
    have hchars := congrArg String.toList hfile
    rw [String.toList_append, String.toList_append] at hchars
    exact List.append_cancel_right hchars
  exact ⟨h.eq.trans h'.eq.symm, hversion⟩

/-- Descriptors of one dogu have different version texts. -/
def DifferentTexts (d e : Descriptor) : Prop :=
  d.name = e.name → d.version ≠ e.version

/-- Descriptors of one dogu have versions of different ranks, where they denote versions. -/
def DifferentRanks (d e : Descriptor) : Prop :=
  d.name = e.name → ∀ v w, Version.read? d.version = some v → Version.read? e.version = some w →
    v.compare w ≠ .eq

instance : Std.Symm DifferentTexts where
  symm _ _ h hname hversion := h hname.symm hversion.symm

instance : Std.Symm DifferentRanks where
  symm _ _ h hname v w hv hw heq := h hname.symm w v hw hv (Std.OrientedCmp.eq_comm.mp heq)

/-- Descriptors that can be filed: their names and the names of their files are plain, no version has
blanks around it, and no two versions of a dogu have one text or one rank. -/
structure Catalogued (ds : List Descriptor) : Prop where
  qualified : ∀ d ∈ ds, ∃ ns simple, Qualified d.name ns simple
  filed : ∀ d ∈ ds, Plain (d.version ++ ".json")
  trimmed : ∀ d ∈ ds, Text.trim d.version = d.version
  texts : ds.Pairwise DifferentTexts
  ranks : ds.Pairwise DifferentRanks

namespace Catalogued

variable {ds : List Descriptor}

/-- A name and a version determine a descriptor. -/
theorem eq_of_version (h : Catalogued ds) {d e : Descriptor} (hd : d ∈ ds) (he : e ∈ ds)
    (hname : d.name = e.name) (hversion : d.version = e.version) : d = e := by
  by_contra hne
  exact h.texts.forall hd he hne hname hversion

/-- Versions of a dogu of one rank are the same. -/
theorem distinctRanks (h : Catalogued ds) (name : String) :
    DistinctRanks ((versionsOf ds name).map Descriptor.version) := by
  intro t ht u hu v w hv hw hvw
  obtain ⟨d, hd, hdname, rfl⟩ := mem_versions_iff.mp ht
  obtain ⟨e, he, hename, rfl⟩ := mem_versions_iff.mp hu
  by_contra hne
  have hde : d ≠ e := by
    rintro rfl
    exact hne rfl
  exact h.ranks.forall hd he hde (hdname.trans hename.symm) v w hv hw hvw

end Catalogued

/-! ## The list -/

section Listed

variable {ds : List Descriptor} {name version : String} {v : Version}

/-- The list finds the descriptor of the version that a text denotes. -/
theorem getListed_eq_ok (h : Catalogued ds) {d : Descriptor} (hd : d ∈ ds) (hname : d.name = name)
    (hread : Version.read? version = some v) (hversion : d.version = Text.trim version) :
    getListed ds name version = .ok d := by
  have hsame : sameVersion d.version version = true :=
    (sameVersion_iff (h.trimmed d hd) hread).mpr hversion
  rcases getListed_cases ds name version with ⟨e, he, hename, hesame, hfound⟩ | ⟨hnone, -⟩
  · -- only one descriptor has that name and that version
    have heq := (sameVersion_iff (h.trimmed e he) hread).mp hesame
    rw [hfound, h.eq_of_version he hd (hename.trans hname.symm) (heq.trans hversion.symm)]
  · exact absurd hsame (hnone d hd hname)

theorem getListed_eq_error (h : Catalogued ds) (hread : Version.read? version = some v)
    (hnone : ∀ d ∈ ds, d.name = name → d.version ≠ Text.trim version) :
    getListed ds name version = .error (.versionNotFound name version) := by
  rcases getListed_cases ds name version with ⟨e, he, hename, hesame, -⟩ | ⟨-, hmissing⟩
  · have heq := (sameVersion_iff (h.trimmed e he) hread).mp hesame
    exact absurd heq (hnone e he hename)
  · exact hmissing

end Listed

/-! ## The directory -/

/-- A directory that holds descriptors and nothing else: each in the file of its name and version. There
may be empty directories where names could be filed. -/
structure Holds (files : FileTree) (root : String) (top : List String) (ds : List Descriptor) :
    Prop where
  nulless : '\x00' ∉ root.toList
  leads : files.follow root = .ok (.inside top)
  folder : files.isFolder top = true
  only : ∀ path text, (top ++ path, text) ∈ files.files → path ≠ [] →
    ∃ d ∈ ds, path = placeOf d.name d.version ∧ decodeDescriptor text = some d
  all : ∀ d ∈ ds, ∃ text, (top ++ placeOf d.name d.version, text) ∈ files.files
  shallow : ∀ path, top ++ path ∈ files.folders → path.length ≤ 2

namespace Holds

variable {files : FileTree} {root : String} {top : List String} {ds : List Descriptor}

/-- All files are at the depth of versions. -/
theorem length_of_file (h : Holds files root top ds) (hds : Catalogued ds) {path : List String}
    {text : String} (hfile : (top ++ path, text) ∈ files.files) (hpath : path ≠ []) :
    path.length = 3 := by
  obtain ⟨d, hd, rfl, -⟩ := h.only path text hfile hpath
  obtain ⟨ns, simple, hname⟩ := hds.qualified d hd
  rw [hname.placeOf]
  rfl

theorem file?_eq_none (h : Holds files root top ds) (hds : Catalogued ds) {path : List String}
    (hpath : path ≠ []) (hlength : path.length ≤ 2) : files.file? (top ++ path) = none := by
  cases hfile : files.file? (top ++ path) with
  | none => rfl
  | some text =>
    have hthree := h.length_of_file hds (mem_of_file? hfile) hpath
    omega

theorem isFolder_eq_false (h : Holds files root top ds) (hds : Catalogued ds) {path : List String}
    (hlength : path.length = 3) : files.isFolder (top ++ path) = false := by
  rw [Bool.eq_false_iff]
  intro hfolder
  unfold isFolder at hfolder
  simp only [Bool.or_eq_true, List.any_eq_true, Bool.and_eq_true, decide_eq_true_eq,
    List.isPrefixOf_iff_prefix, List.isEmpty_iff] at hfolder
  -- below such a place there is no directory and no file
  rcases hfolder with (hempty | ⟨folder, hmem, rest, rfl⟩) | ⟨⟨file, text⟩, hmem, ⟨rest, hrest⟩, hlt⟩
  · rw [(List.append_eq_nil_iff.mp hempty).2] at hlength
    cases hlength
  · rw [List.append_assoc] at hmem
    have htwo := h.shallow _ hmem
    rw [List.length_append] at htwo
    omega
  · dsimp only at hrest hlt
    subst hrest
    rw [List.append_assoc] at hmem
    have hne : path ++ rest ≠ [] := by
      intro hnil
      rw [(List.append_eq_nil_iff.mp hnil).1] at hlength
      cases hlength
    have hthree := h.length_of_file hds hmem hne
    simp only [List.length_append] at hthree hlt
    omega

/-- Names of directories lead to directories. -/
theorem descend_folder (h : Holds files root top ds) (hds : Catalogued ds) {path : List String}
    {name : String} (hpath : files.isFolder (top ++ path) = true) (hlength : path.length ≤ 1)
    (hname : Plain name) :
    files.descend (.inside (top ++ path)) name =
      if files.isFolder (top ++ (path ++ [name])) = true then .ok (.inside (top ++ (path ++ [name])))
      else .error .missing := by
  have hnone : files.file? (top ++ (path ++ [name])) = none := by
    apply h.file?_eq_none hds (by simp)
    rw [List.length_append, List.length_singleton]
    omega
  rw [descend_plain hname hpath, List.append_assoc, hnone]
  simp

/-- Following a qualified name leads to its directory, if there is one. -/
theorem follow_name (h : Holds files root top ds) (hds : Catalogued ds) {name ns simple : String}
    (hname : Qualified name ns simple) :
    files.follow (join root name) =
      if files.isFolder (top ++ [ns, simple]) = true then .ok (.inside (top ++ [ns, simple]))
      else .error .missing := by
  have htop : files.isFolder (top ++ []) = true := by
    rw [List.append_nil]
    exact h.folder
  have hns := h.descend_folder hds htop (by simp) hname.ns
  rw [List.append_nil, List.nil_append] at hns
  rw [follow_join hname.startsWith, h.leads, hname.segmentsOf]
  show ([ns, simple].foldlM files.descend (Place.inside top)) = _
  rw [List.foldlM_cons, hns]
  by_cases hfolder : files.isFolder (top ++ [ns]) = true
  · have hsimple := h.descend_folder hds hfolder (by simp) hname.simple
    rw [if_pos hfolder]
    show [simple].foldlM files.descend _ = _
    rw [foldlM_descend_singleton, hsimple]
    rfl
  · -- a directory below it would make it one
    have hbelow : ¬ files.isFolder (top ++ [ns, simple]) = true := by
      intro hdeep
      have hsplit : top ++ [ns, simple] = (top ++ [ns]) ++ [simple] := by simp
      rw [hsplit] at hdeep
      exact hfolder (isFolder_of_append hdeep)
    rw [if_neg hfolder, if_neg hbelow]
    rfl

theorem nul_not_mem (h : Holds files root top ds) {name ns simple : String}
    (hname : Qualified name ns simple) : '\x00' ∉ (join root name).toList := by
  intro hmem
  rcases mem_join hmem with hroot | hslash | hname'
  · exact h.nulless hroot
  · cases hslash
  · exact hname.nulless hname'

/-- Listing a qualified name. -/
theorem list_eq (h : Holds files root top ds) (hds : Catalogued ds) {name ns simple : String}
    (hname : Qualified name ns simple) :
    files.list (join root name) =
      if files.isFolder (top ++ [ns, simple]) = true then
        .ok (files.children (top ++ [ns, simple])) else .error .missing := by
  unfold FileTree.list
  rw [locate_eq_follow (h.nul_not_mem hname) (join_ne_empty hname.ne_empty),
    h.follow_name hds hname]
  by_cases hfolder : files.isFolder (top ++ [ns, simple]) = true
  · rw [if_pos hfolder, if_pos hfolder]
    dsimp only
    rw [if_pos hfolder]
  · rw [if_neg hfolder, if_neg hfolder]

/-- Where the path of a file in the directory of a name leads: there are only files. -/
theorem locate_eq (h : Holds files root top ds) (hds : Catalogued ds) {name ns simple file : String}
    (hname : Qualified name ns simple) (hfile : Plain file) :
    files.locate (join (join root name) file) =
      if (files.file? (top ++ [ns, simple, file])).isSome = true then
        .ok (.inside (top ++ [ns, simple, file])) else .error .missing := by
  have hnul : '\x00' ∉ (join (join root name) file).toList := by
    intro hmem
    rcases mem_join hmem with hbase | hslash | hfile'
    · exact h.nul_not_mem hname hbase
    · cases hslash
    · exact hfile.nulless hfile'
  have hplace : top ++ [ns, simple, file] = (top ++ [ns, simple]) ++ [file] := by simp
  rw [locate_eq_follow hnul (join_ne_empty hfile.nonempty), follow_join hfile.startsWith,
    h.follow_name hds hname, hfile.segmentsOf]
  by_cases hfolder : files.isFolder (top ++ [ns, simple]) = true
  · have hdepth : files.isFolder (top ++ [ns, simple] ++ [file]) = false := by
      rw [← hplace]
      exact h.isFolder_eq_false hds rfl
    rw [if_pos hfolder]
    show [file].foldlM files.descend (.inside (top ++ [ns, simple])) = _
    rw [foldlM_descend_singleton, descend_plain hfile hfolder, hdepth, hplace]
    simp
  · -- without the directory there is no file in it
    have hnone : files.file? (top ++ [ns, simple, file]) = none := by
      cases hlookup : files.file? (top ++ [ns, simple, file]) with
      | none => rfl
      | some text =>
        have hmem := mem_of_file? hlookup
        rw [hplace] at hmem
        exact absurd (isFolder_of_file (by simp) hmem) hfolder
    rw [if_neg hfolder, hnone]
    rfl

/-- Reading a file in the directory of a name. -/
theorem read_eq_ok (h : Holds files root top ds) (hds : Catalogued ds)
    {name ns simple file text : String} (hname : Qualified name ns simple) (hfile : Plain file)
    (hlookup : files.file? (top ++ [ns, simple, file]) = some text) :
    files.read (join (join root name) file) = .ok text := by
  have hlocate := h.locate_eq hds hname hfile
  rw [hlookup, if_pos Option.isSome_some] at hlocate
  exact read_of_file? hlocate hlookup

theorem read_eq_error (h : Holds files root top ds) (hds : Catalogued ds)
    {name ns simple file : String} (hname : Qualified name ns simple) (hfile : Plain file)
    (hlookup : files.file? (top ++ [ns, simple, file]) = none) :
    files.read (join (join root name) file) = .error .missing := by
  have hlocate := h.locate_eq hds hname hfile
  rw [hlookup, if_neg (by simp)] at hlocate
  exact read_of_locate_error hlocate

/-- The directory finds the descriptor of the very text of a version. -/
theorem getFiled_eq_ok (h : Holds files root top ds) (hds : Catalogued ds) {d : Descriptor}
    (hd : d ∈ ds) : getFiled files root d.name d.version = .ok d := by
  obtain ⟨ns, simple, hname⟩ := hds.qualified d hd
  have hplace := hname.placeOf d.version
  obtain ⟨text, hmem⟩ := h.all d hd
  obtain ⟨found, hfound⟩ := exists_file?_of_mem hmem
  -- whatever is found in its place is its own file
  obtain ⟨e, he, heplace, hdecode⟩ := h.only _ _ (mem_of_file? hfound) (by simp [hplace])
  obtain ⟨ns', simple', hname'⟩ := hds.qualified e he
  obtain ⟨hsame, hversion⟩ := eq_of_placeOf_eq hname hname' heplace
  obtain rfl : d = e := hds.eq_of_version hd he hsame hversion
  rw [hplace] at hfound
  unfold getFiled
  dsimp only
  rw [h.read_eq_ok hds hname (hds.filed d hd) hfound]
  dsimp only
  rw [hdecode]
  dsimp only
  rw [if_pos rfl]

theorem getFiled_eq_error (h : Holds files root top ds) (hds : Catalogued ds)
    {name ns simple version : String} (hname : Qualified name ns simple)
    (hfile : Plain (version ++ ".json")) (hnone : ∀ d ∈ ds, d.name = name → d.version ≠ version) :
    getFiled files root name version = .error (.versionNotFound name version) := by
  have hlookup : files.file? (top ++ [ns, simple, version ++ ".json"]) = none := by
    cases hlookup : files.file? (top ++ [ns, simple, version ++ ".json"]) with
    | none => rfl
    | some text =>
      obtain ⟨d, hd, hplace, -⟩ := h.only _ _ (mem_of_file? hlookup) (by simp)
      obtain ⟨ns', simple', hname'⟩ := hds.qualified d hd
      rw [← hname.placeOf version] at hplace
      obtain ⟨hsame, hversion⟩ := eq_of_placeOf_eq hname hname' hplace
      exact absurd hversion.symm (hnone d hd hsame.symm)
  unfold getFiled
  dsimp only
  rw [h.read_eq_error hds hname hfile hlookup]

/-! ### Latest versions -/

/-- The entries of the directory of a name are the files of its descriptors. -/
theorem mem_children_iff (h : Holds files root top ds) (hds : Catalogued ds)
    {name ns simple : String} (hname : Qualified name ns simple) {file : String} :
    file ∈ files.children (top ++ [ns, simple]) ↔
      ∃ d ∈ ds, d.name = name ∧ file = d.version ++ ".json" := by
  rw [mem_children]
  constructor
  · rintro ⟨rest, hrest⟩
    have hsplit : top ++ [ns, simple] ++ file :: rest = top ++ ([ns, simple] ++ file :: rest) := by
      simp
    rw [hsplit, List.mem_append, List.mem_map] at hrest
    rcases hrest with ⟨⟨path, text⟩, hmem, hpath⟩ | hfolder
    · dsimp only at hpath
      subst hpath
      obtain ⟨d, hd, hplace, -⟩ := h.only _ _ hmem (by simp)
      obtain ⟨ns', simple', hname'⟩ := hds.qualified d hd
      rw [hname'.placeOf] at hplace
      simp only [List.cons_append, List.nil_append, List.cons.injEq] at hplace
      obtain ⟨rfl, rfl, hfile, -⟩ := hplace
      exact ⟨d, hd, hname'.eq.trans hname.eq.symm, hfile⟩
    · -- no directory is that deep
      have hdepth := h.shallow _ hfolder
      simp at hdepth
  · rintro ⟨d, hd, rfl, rfl⟩
    obtain ⟨text, hmem⟩ := h.all d hd
    rw [hname.placeOf] at hmem
    refine ⟨[], List.mem_append_left _ (List.mem_map.mpr ⟨_, hmem, ?_⟩)⟩
    simp

/-- A file name that ends in `.json` stands for the version before it, unless that is empty. -/
theorem fileVersion?_append (version : String) :
    fileVersion? (version ++ ".json") = if version = "" then none else some version := by
  have hcut : Text.cutLast (version ++ ".json") '.' = some (version, "json") := by
    have hsplit : Text.splitLast '.' (version.toList ++ '.' :: "json".toList) =
        some (version.toList, "json".toList) := Text.splitLast_append _ (by decide)
    have hchars : (version ++ ".json").toList = version.toList ++ '.' :: "json".toList := by simp
    unfold Text.cutLast
    rw [hchars, hsplit]
    simp
  unfold fileVersion?
  rw [hcut]
  rfl

/-- The versions that the files of a name stand for, as far as they denote versions. -/
theorem mem_fileVersions_iff (h : Holds files root top ds) (hds : Catalogued ds)
    {name ns simple : String} (hname : Qualified name ns simple) {t : String} {v : Version}
    (hread : Version.read? t = some v) :
    t ∈ (files.children (top ++ [ns, simple])).filterMap fileVersion? ↔
      t ∈ (versionsOf ds name).map Descriptor.version := by
  rw [mem_versions_iff]
  simp only [List.mem_filterMap, h.mem_children_iff hds hname]
  constructor
  · rintro ⟨file, ⟨d, hd, hdname, rfl⟩, hversion⟩
    rw [fileVersion?_append] at hversion
    split at hversion
    · cases hversion
    · exact ⟨d, hd, hdname, Option.some.inj hversion⟩
  · rintro ⟨d, hd, hdname, rfl⟩
    have hne : d.version ≠ "" := by
      intro hempty
      rw [hempty] at hread
      cases hread
    refine ⟨_, ⟨d, hd, hdname, rfl⟩, ?_⟩
    rw [fileVersion?_append, if_neg hne]

/-- The directory and the list agree on the latest version of a dogu. -/
theorem latestFiled_eq (h : Holds files root top ds) (hds : Catalogued ds) {name ns simple : String}
    (hname : Qualified name ns simple) : latestFiled files root name = latestListed ds name := by
  unfold latestFiled latestListed
  dsimp only
  rw [h.list_eq hds hname]
  by_cases hfolder : files.isFolder (top ++ [ns, simple]) = true
  · have hlatest := latestText_congr (hds.distinctRanks name)
      fun t v hread => h.mem_fileVersions_iff hds hname hread
    rw [if_pos hfolder]
    dsimp only
    rw [hlatest]
    rcases latestText_cases ((versionsOf ds name).map Descriptor.version) with
      ⟨hnone, -⟩ | ⟨t, hsome, hmem, v, hread, -⟩
    · rw [hnone]
    · rw [hsome]
      obtain ⟨d, hd, rfl, rfl⟩ := mem_versions_iff.mp hmem
      dsimp only
      rw [h.getFiled_eq_ok hds hd, getListed_eq_ok hds hd rfl hread (hds.trimmed d hd).symm]
  · -- without a directory there is no descriptor of that name
    have hnone : (versionsOf ds name).map Descriptor.version = [] := by
      rw [List.map_eq_nil_iff, versionsOf, List.filter_eq_nil_iff]
      intro d hd hdname
      obtain ⟨text, hmem⟩ := h.all d hd
      rw [of_decide_eq_true hdname, hname.placeOf] at hmem
      have hsplit : top ++ [ns, simple, d.version ++ ".json"] =
          (top ++ [ns, simple]) ++ [d.version ++ ".json"] := by simp
      rw [hsplit] at hmem
      exact hfolder (isFolder_of_file (by simp) hmem)
    rw [if_neg hfolder, hnone]
    rfl

end Holds

/-! ## Requests -/

/-- A request whose parts may be names of directories and files. -/
structure PlainRequest (r : Request) : Prop where
  name : ∀ part ∈ Text.segmentsOf r.name '/', Plain part
  version : ∀ v, r.version = some v → Plain (v ++ ".json")

/-- A namespace and a simple name are the two segments of a name. -/
theorem segmentsOf_of_parts {ns simple : String} (hns : Request.NamePart ns)
    (hsimple : Request.NamePart simple) :
    Text.segmentsOf (ns ++ "/" ++ simple) '/' = [ns, simple] := by
  rw [Text.segmentsOf_append, Text.segmentsOf_of_not_mem hns.slash,
    Text.segmentsOf_of_not_mem hsimple.slash]
  rfl

/-- An accepted request names a dogu by namespace and simple name, and pins what denotes a version. -/
theorem accepted_of_read {text : String} {r : Request} (h : Request.read text = .ok r) :
    (∃ ns simple, r.name = ns ++ "/" ++ simple ∧ Text.segmentsOf r.name '/' = [ns, simple]) ∧
      ∀ v, r.version = some v → ∃ w, Version.read? v = some w := by
  have hdenotes := Request.read_eq_ok_iff.mp h
  generalize Text.trim text = core at hdenotes
  cases hdenotes with
  | latest hns hsimple => exact ⟨⟨_, _, rfl, segmentsOf_of_parts hns hsimple⟩, by simp⟩
  | pinned hns hsimple _ haccepted =>
    refine ⟨⟨_, _, rfl, segmentsOf_of_parts hns hsimple⟩, ?_⟩
    intro v hv
    rw [← Option.some.inj hv]
    exact Option.isSome_iff_exists.mp (Request.isSome_read?_iff.mpr haccepted)

/-- How the answers of a directory and of a list of descriptors compare: they are the same, unless the
request pins a version with blanks around it that is filed without them. That one the list finds and the
directory does not. -/
structure AnswersAlike (files : FileTree) (root : String) (ds : List Descriptor) (r : Request) :
    Prop where
  same : (∀ v, r.version = some v →
      Text.trim v = v ∨ ∀ d ∈ ds, d.name = r.name → d.version ≠ Text.trim v) →
    Plan.lookUp (.ofDirectory files root) r = Plan.lookUp (.ofList ds) r
  padded : ∀ v, r.version = some v → Text.trim v ≠ v →
    ∀ d ∈ ds, d.name = r.name → d.version = Text.trim v →
      Plan.lookUp (.ofList ds) r = .ok d ∧
      Plan.lookUp (.ofDirectory files root) r =
        .error (.registry r.toText (.versionNotFound r.name v))

/-- A directory of descriptors answers accepted requests like the list of them, but for blanks around a
pinned version. -/
theorem answersAlike_of_holds {files : FileTree} {root : String} {top : List String}
    {ds : List Descriptor} {text : String} {r : Request} (hds : Catalogued ds)
    (hfiles : Holds files root top ds) (hread : Request.read text = .ok r) (hr : PlainRequest r) :
    AnswersAlike files root ds r := by
  obtain ⟨⟨ns, simple, hname, hsegments⟩, hversions⟩ := accepted_of_read hread
  have hqualified : Qualified r.name ns simple :=
    ⟨hname, hr.name ns (by simp [hsegments]), hr.name simple (by simp [hsegments])⟩
  -- a version is found on disk only under its own text, which has no blanks around it
  have hunfiled : ∀ v, r.version = some v → (∀ d ∈ ds, d.name = r.name → d.version ≠ v) →
      Registry.getFiled files root r.name v = .error (.versionNotFound r.name v) := fun v hv hnone =>
    hfiles.getFiled_eq_error hds hqualified (hr.version v hv) hnone
  constructor
  · intro hunpadded
    unfold Plan.lookUp
    cases hv : r.version with
    | none =>
      have hlatest : (Registry.ofDirectory files root).latest r.name =
          (Registry.ofList ds).latest r.name := hfiles.latestFiled_eq hds hqualified
      dsimp only
      rw [hlatest]
    | some v =>
      obtain ⟨w, hw⟩ := hversions v hv
      have hget : Registry.getFiled files root r.name v = Registry.getListed ds r.name v := by
        by_cases hfound : ∃ d ∈ ds, d.name = r.name ∧ d.version = Text.trim v
        · obtain ⟨d, hd, hdname, hdversion⟩ := hfound
          have htrim : Text.trim v = v :=
            (hunpadded v hv).resolve_right fun hnone => hnone d hd hdname hdversion
          rw [getListed_eq_ok hds hd hdname hw hdversion, ← hdname, ← htrim, ← hdversion]
          exact hfiles.getFiled_eq_ok hds hd
        · have hnone : ∀ d ∈ ds, d.name = r.name → d.version ≠ Text.trim v :=
            fun d hd hdname hdversion => hfound ⟨d, hd, hdname, hdversion⟩
          rw [getListed_eq_error hds hw hnone, hunfiled v hv]
          rintro d hd hdname rfl
          exact hnone d hd hdname (hds.trimmed d hd).symm
      have hanswer : (Registry.ofDirectory files root).get r.name v =
          (Registry.ofList ds).get r.name v := hget
      dsimp only
      rw [hanswer]
  · intro v hv hpadded d hd hdname hdversion
    obtain ⟨w, hw⟩ := hversions v hv
    have hlisted : (Registry.ofList ds).get r.name v = .ok d :=
      getListed_eq_ok hds hd hdname hw hdversion
    have hmissed : (Registry.ofDirectory files root).get r.name v =
        .error (.versionNotFound r.name v) := by
      refine hunfiled v hv ?_
      rintro e he - rfl
      exact hpadded (hds.trimmed e he)
    unfold Plan.lookUp
    rw [hv]
    dsimp only
    rw [hlisted, hmissed]
    exact ⟨rfl, rfl⟩

/-! ## Directories of any descriptors -/

/-- A tree with the texts of descriptors in their places below a directory. -/
def shelve (top : List String) (ds : List Descriptor) : FileTree where
  files := ds.map fun d => (top ++ placeOf d.name d.version, d.encode.render)
  folders := [top]

/-- It holds the descriptors that are decoded from their own texts. -/
theorem holds_shelve {root : String} {ds : List Descriptor} (hroot : Plain root)
    (hds : ∀ d ∈ ds, d.Lossless) :
    Holds (shelve [root] ds) root [root] ds := by
  have hfolder : (shelve [root] ds).isFolder [root] = true := by simp [isFolder, shelve]
  refine ⟨hroot.nulless, ?_, hfolder, ?_, ?_, ?_⟩
  · have hstart : (shelve [root] ds).start root = .inside [] := by
      unfold start
      rw [hroot.startsWith]
      rfl
    unfold follow
    rw [hroot.segmentsOf, foldlM_descend_singleton, hstart, descend_plain hroot rfl,
      List.nil_append, hfolder]
    simp
  · intro path text hmem hpath
    obtain ⟨d, hd, heq⟩ := List.mem_map.mp hmem
    rw [Prod.mk.injEq] at heq
    refine ⟨d, hd, (List.append_cancel_left heq.1).symm, ?_⟩
    rw [← heq.2]
    exact decodeDescriptor_render (hds d hd)
  · intro d hd
    exact ⟨d.encode.render, List.mem_map.mpr ⟨d, hd, rfl⟩⟩
  · intro path hmem
    have hpath : path = [] := by simpa [shelve] using hmem
    simp [hpath]

/-- Two versions of a dogu, and another dogu. -/
def filedDogus : List Descriptor :=
  [{ name := "official/ldap", version := "2.6.2-1" },
    { name := "official/ldap", version := "2.10.0-1" },
    { name := "official/cas", version := "7.0.5-1", dependencies := [{ name := "ldap" }]
      serviceAccounts := [⟨"ldap", .dogu, false⟩, ⟨"k8s-loki", .component, true⟩] }]

theorem catalogued_filedDogus : Catalogued filedDogus where
  qualified := by
    have hldap : Qualified "official/ldap" "official" "ldap" :=
      ⟨by decide, by decide, by decide⟩
    have hcas : Qualified "official/cas" "official" "cas" := ⟨by decide, by decide, by decide⟩
    simp only [filedDogus, List.forall_mem_cons]
    exact ⟨⟨_, _, hldap⟩, ⟨_, _, hldap⟩, ⟨_, _, hcas⟩, by simp⟩
  filed := by decide +kernel
  trimmed := by decide +kernel
  texts := by
    simp [filedDogus, DifferentTexts]
  ranks := by
    have hranks : DifferentRanks { name := "official/ldap", version := "2.6.2-1" }
        { name := "official/ldap", version := "2.10.0-1" } := by
      have hold : Version.read? "2.6.2-1" = some ⟨"2.6.2-1", ⟨2, 6, 2, 0, 1⟩⟩ := by decide +kernel
      have hnew : Version.read? "2.10.0-1" = some ⟨"2.10.0-1", ⟨2, 10, 0, 0, 1⟩⟩ := by decide +kernel
      intro _ v w hv hw
      obtain rfl := Option.some.inj (hold.symm.trans hv)
      obtain rfl := Option.some.inj (hnew.symm.trans hw)
      decide
    have hcas : ∀ (version : String) (e : Descriptor), e.name = "official/cas" →
        DifferentRanks { name := "official/ldap", version } e := by
      intro version e he hname
      have hsame : "official/ldap" = "official/cas" := hname.trans he
      exact absurd hsame (by decide)
    simp [filedDogus, hranks, hcas]

theorem holds_filedDogus : Holds (shelve ["dogus"] filedDogus) "dogus" ["dogus"] filedDogus :=
  holds_shelve (by decide) (by decide)

/-- On disk and in memory the latest version of a dogu is the same. -/
theorem answersAlike_filedDogus :
    Catalogued filedDogus ∧
      Holds (shelve ["dogus"] filedDogus) "dogus" ["dogus"] filedDogus ∧
      Request.read " official/ldap" = .ok ⟨"official/ldap", none⟩ ∧
      PlainRequest ⟨"official/ldap", none⟩ ∧
      Plan.lookUp (.ofDirectory (shelve ["dogus"] filedDogus) "dogus") ⟨"official/ldap", none⟩ =
        .ok { name := "official/ldap", version := "2.10.0-1" } ∧
      AnswersAlike (shelve ["dogus"] filedDogus) "dogus" filedDogus ⟨"official/ldap", none⟩ := by
  have hread : Request.read " official/ldap" = .ok ⟨"official/ldap", none⟩ := by decide +kernel
  have hplain : PlainRequest ⟨"official/ldap", none⟩ := ⟨by decide +kernel, by simp⟩
  exact ⟨catalogued_filedDogus, holds_filedDogus, hread, hplain, by decide +kernel,
    answersAlike_of_holds catalogued_filedDogus holds_filedDogus hread hplain⟩

/-- A version that is pinned with a blank before it is found in memory and not on disk. -/
theorem padded_version_not_on_disk :
    Catalogued filedDogus ∧
      Holds (shelve ["dogus"] filedDogus) "dogus" ["dogus"] filedDogus ∧
      Request.read "official/ldap: 2.6.2-1" = .ok ⟨"official/ldap", some " 2.6.2-1"⟩ ∧
      Plan.lookUp (.ofList filedDogus) ⟨"official/ldap", some " 2.6.2-1"⟩ =
        .ok { name := "official/ldap", version := "2.6.2-1" } ∧
      Plan.lookUp (.ofDirectory (shelve ["dogus"] filedDogus) "dogus")
          ⟨"official/ldap", some " 2.6.2-1"⟩ =
        .error (.registry "official/ldap: 2.6.2-1"
          (.versionNotFound "official/ldap" " 2.6.2-1")) :=
  ⟨catalogued_filedDogus, holds_filedDogus, by decide +kernel, by decide +kernel, by decide +kernel⟩

end EcosystemSetup.Registry

import EcosystemSetup.Dogu.Request
import EcosystemSetup.Proofs.VersionTexts

/-!
# Texts that denote requests

The grammar of requests, and the request that a text of it denotes. Main statement: a text is read exactly
if what is left of it without the blanks around it is `namespace/simple` or `namespace/simple:version`,
where neither name is empty or holds a slash or a colon, and the version denotes one. A request is printed
as the trimmed text that it was read from, and from there it is read again; so two texts give one request
exactly if they agree up to the blanks around them. Blanks inside a text count.
-/

namespace EcosystemSetup.Dogu.Request

open Text

/-! ## The grammar -/

/-- A namespace or a simple name. -/
structure NamePart (part : String) : Prop where
  nonempty : part ≠ ""
  slash : '/' ∉ part.toList
  colon : ':' ∉ part.toList

/-- What a text of the grammar asks for: the latest version of a dogu, or a version that is pinned. -/
inductive Denotes : String → Request → Prop where
  | latest {ns simple : String} (namespacePart : NamePart ns) (simplePart : NamePart simple) :
      Denotes (ns ++ "/" ++ simple) ⟨ns ++ "/" ++ simple, none⟩
  | pinned {ns simple version : String} (namespacePart : NamePart ns) (simplePart : NamePart simple)
      (nonempty : version ≠ "") (accepted : ∃ v, Version.read version = .ok v) :
      Denotes (ns ++ "/" ++ simple ++ ":" ++ version) ⟨ns ++ "/" ++ simple, some version⟩

/-- A request is printed as the text that denotes it. -/
theorem Denotes.toText_eq {text : String} {r : Request} (h : Denotes text r) : r.toText = text := by
  cases h with
  | latest _ _ => rfl
  | pinned _ _ _ _ => rfl

/-- A name without a colon is qualified exactly if it is made of a namespace and a simple name. -/
theorem isQualified_iff {cs : List Char} (hcolon : ':' ∉ cs) :
    isQualified cs = true ↔ ∃ ns simple, String.ofList cs = ns ++ "/" ++ simple ∧
      NamePart ns ∧ NamePart simple := by
  constructor
  · intro h
    unfold isQualified at h
    split at h
    · rename_i ns simple hsplit
      obtain ⟨rfl, hslash⟩ := splitFirst_eq_some hsplit
      simp only [Bool.and_eq_true, Bool.not_eq_true', List.contains_eq_mem,
        decide_eq_false_iff_not, List.isEmpty_eq_false_iff] at h
      obtain ⟨⟨hns, hsimple⟩, hslash'⟩ := h
      simp only [List.mem_append, List.mem_cons, not_or] at hcolon
      refine ⟨String.ofList ns, String.ofList simple, ?_, ⟨?_, ?_, ?_⟩, ⟨?_, ?_, ?_⟩⟩
      · apply String.toList_injective
        simp
      all_goals simp_all
    · cases h
  · rintro ⟨ns, simple, heq, hns, hsimple⟩
    have hcs : cs = ns.toList ++ '/' :: simple.toList := by
      have hlist := congrArg String.toList heq
      simpa using hlist
    rw [hcs, isQualified, splitFirst_append _ hns.slash]
    simp [hns.nonempty, hsimple.nonempty, hsimple.slash]

theorem NamePart.qualified {ns simple : String} (hns : NamePart ns) (hsimple : NamePart simple) :
    ':' ∉ (ns ++ "/" ++ simple).toList ∧ isQualified (ns ++ "/" ++ simple).toList = true := by
  have hcolon : ':' ∉ (ns ++ "/" ++ simple).toList := by
    simp [hns.colon, hsimple.colon]
  exact ⟨hcolon, (isQualified_iff hcolon).mpr ⟨ns, simple, String.ofList_toList, hns, hsimple⟩⟩

theorem isSome_read?_iff {text : String} :
    (Version.read? text).isSome = true ↔ ∃ v, Version.read text = .ok v := by
  unfold Version.read?
  cases Version.read text <;> simp [Except.toOption]

/-- Characters denote the request that their text denotes. -/
theorem ofChars?_eq_some_iff {text : String} {r : Request} :
    ofChars? text.toList = some r ↔ Denotes text r := by
  constructor
  · intro h
    unfold ofChars? at h
    split at h
    · -- a version stands behind the first colon
      rename_i name version hsplit
      obtain ⟨htext, hcolon⟩ := splitFirst_eq_some hsplit
      split at h
      · rename_i hcond
        simp only [Bool.and_eq_true, Bool.not_eq_true', List.isEmpty_eq_false_iff] at hcond
        obtain ⟨⟨hversion, hname⟩, haccepted⟩ := hcond
        obtain ⟨ns, simple, heq, hns, hsimple⟩ := (isQualified_iff hcolon).mp hname
        have hfull : text = ns ++ "/" ++ simple ++ ":" ++ String.ofList version := by
          rw [← heq]
          apply String.toList_injective
          simp [htext]
        rw [← Option.some.inj h, hfull, heq]
        exact .pinned hns hsimple (by simpa using hversion) (isSome_read?_iff.mp haccepted)
      · cases h
    · rename_i hnone
      split at h
      · rename_i hname
        have hcolon : ':' ∉ text.toList := splitFirst_eq_none_iff.mp hnone
        obtain ⟨ns, simple, heq, hns, hsimple⟩ := (isQualified_iff hcolon).mp hname
        rw [String.ofList_toList] at heq
        rw [← Option.some.inj h, String.ofList_toList, heq]
        exact .latest hns hsimple
      · cases h
  · intro h
    cases h with
    | latest hns hsimple =>
      -- without a version there is no colon to split at
      obtain ⟨hcolon, hname⟩ := hns.qualified hsimple
      rw [ofChars?, splitFirst_eq_none_iff.mpr hcolon]
      dsimp only
      rw [if_pos hname, String.ofList_toList]
    | @pinned ns simple version hns hsimple hversion haccepted =>
      obtain ⟨hcolon, hname⟩ := hns.qualified hsimple
      have hchars : (ns ++ "/" ++ simple ++ ":" ++ version).toList =
          (ns ++ "/" ++ simple).toList ++ ':' :: version.toList := by
        simp
      have hsome : (Version.read? version).isSome = true := isSome_read?_iff.mpr haccepted
      rw [hchars, ofChars?, splitFirst_append _ hcolon]
      dsimp only
      rw [String.ofList_toList, String.ofList_toList, hname, hsome]
      simp [hversion]

/-! ## Reading and printing -/

theorem read_eq_ok_iff {s : String} {r : Request} : read s = .ok r ↔ Denotes (trim s) r := by
  have htrim : (trim s).toList = trimChars s.toList := String.toList_ofList
  rw [← ofChars?_eq_some_iff, htrim, read]
  cases ofChars? (trimChars s.toList) <;> simp

/-- A request is printed as the trimmed text that it is read from. -/
theorem toText_of_read {s : String} {r : Request} (h : read s = .ok r) : r.toText = trim s :=
  (read_eq_ok_iff.mp h).toText_eq

/-- Reading a text as a request, and printing it. -/
structure ReadsRequest (s : String) : Prop where
  /-- The blanks around the text do not count. -/
  trimmed : Trims s.toList (trim s).toList
  accepted : (∃ r, read s = .ok r) ↔ ∃ r, Denotes (trim s) r
  given : ∀ r, read s = .ok r ↔ Denotes (trim s) r
  printed : ∀ r, read s = .ok r → r.toText = trim s
  again : ∀ r, read s = .ok r → read r.toText = .ok r
  /-- Texts of one request are the same but for the blanks around them. -/
  same : ∀ r other q, read s = .ok r → read other = .ok q → (r = q ↔ trim s = trim other)
  refused : ∀ e, read s = .error e → e = .request (trim s)

/-- A text is read exactly if it is in the grammar of requests, and then printing undoes the reading. -/
theorem reads_request (s : String) : ReadsRequest s where
  trimmed := by
    rw [trim, String.toList_ofList]
    exact trims_trimChars s.toList
  accepted := by
    constructor
    · rintro ⟨r, hr⟩
      exact ⟨r, read_eq_ok_iff.mp hr⟩
    · rintro ⟨r, hr⟩
      exact ⟨r, read_eq_ok_iff.mpr hr⟩
  given _ := read_eq_ok_iff
  printed _ hr := toText_of_read hr
  again := by
    intro r hr
    rw [toText_of_read hr, read_eq_ok_iff, trim_trim]
    exact read_eq_ok_iff.mp hr
  same := by
    intro r other q hr hq
    constructor
    · rintro rfl
      rw [← toText_of_read hr, ← toText_of_read hq]
    · intro htrim
      rw [read_eq_ok_iff, htrim, ← read_eq_ok_iff] at hr
      exact Except.ok.inj (hr.symm.trans hq)
  refused := by
    intro e he
    unfold read at he
    split at he
    · cases he
    · exact (Except.error.inj he).symm

example : read "\tofficial/open ldap: 2.6 " = .ok ⟨"official/open ldap", some " 2.6"⟩ := by
  decide +kernel

end EcosystemSetup.Dogu.Request

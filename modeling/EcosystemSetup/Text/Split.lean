/-!
# Splitting a text at a character

Splitting at the first, the last or every occurrence of a separator, each beside its inverse. Main
statements: the two halves of a split with the separator between them give the text back, joining
the segments of a full split gives the text back, and splitting joined segments gives them back.
-/

namespace EcosystemSetup.Text

/-- The parts before and after the first `sep`, if there is one. -/
def splitFirst (sep : Char) : List Char → Option (List Char × List Char)
  | [] => none
  | c :: r =>
    if c = sep then some ([], r) else (splitFirst sep r).map fun p => (c :: p.1, p.2)

/-- The parts before and after the last `sep`, if there is one. -/
def splitLast (sep : Char) : List Char → Option (List Char × List Char)
  | [] => none
  | c :: r =>
    match splitLast sep r with
    | some p => some (c :: p.1, p.2)
    | none => if c = sep then some ([], r) else none

/-- The segments between the occurrences of `sep`: one more than there are occurrences. -/
def segments (sep : Char) : List Char → List (List Char)
  | [] => [[]]
  | c :: r =>
    if c = sep then [] :: segments sep r
    else
      match segments sep r with
      | [] => [[c]]
      | s :: ss => (c :: s) :: ss

/-- Segments with `sep` between neighbours. -/
def joinSegments (sep : Char) : List (List Char) → List Char
  | [] => []
  | [s] => s
  | s :: t :: ss => s ++ sep :: joinSegments sep (t :: ss)

theorem splitFirst_eq_some {sep : Char} {cs a b : List Char} (h : splitFirst sep cs = some (a, b)) :
    cs = a ++ sep :: b ∧ sep ∉ a := by
  induction cs generalizing a with
  | nil => simp [splitFirst] at h
  | cons c r ih =>
    by_cases hc : c = sep
    · simp only [splitFirst, hc, if_true, Option.some.injEq, Prod.mk.injEq] at h
      simp [← h.1, h.2, hc]
    · simp only [splitFirst, hc, if_false, Option.map_eq_some_iff, Prod.mk.injEq, Prod.exists] at h
      obtain ⟨a', b', h', rfl, rfl⟩ := h
      obtain ⟨rfl, hn⟩ := ih h'
      exact ⟨rfl, by simp [Ne.symm hc, hn]⟩

theorem splitFirst_eq_none_iff {sep : Char} {cs : List Char} :
    splitFirst sep cs = none ↔ sep ∉ cs := by
  induction cs with
  | nil => simp [splitFirst]
  | cons c r ih =>
    by_cases hc : c = sep
    · simp [splitFirst, hc]
    · simp [splitFirst, hc, ih, Ne.symm hc]

theorem splitFirst_append {sep : Char} {a : List Char} (b : List Char) (h : sep ∉ a) :
    splitFirst sep (a ++ sep :: b) = some (a, b) := by
  induction a with
  | nil => simp [splitFirst]
  | cons c r ih =>
    simp only [List.mem_cons, not_or] at h
    simp [splitFirst, Ne.symm h.1, ih h.2]

theorem splitLast_eq_none_iff {sep : Char} {cs : List Char} :
    splitLast sep cs = none ↔ sep ∉ cs := by
  induction cs with
  | nil => simp [splitLast]
  | cons c r ih =>
    cases hr : splitLast sep r with
    | some p =>
      have : sep ∈ r := by
        by_cases hm : sep ∈ r
        · exact hm
        · rw [ih.2 hm] at hr; cases hr
      simp [splitLast, hr, this]
    | none =>
      by_cases hc : c = sep
      · simp [splitLast, hr, hc]
      · simp [splitLast, hr, hc, Ne.symm hc, ih.1 hr]

theorem segments_ne_nil (sep : Char) (cs : List Char) : segments sep cs ≠ [] := by
  cases cs with
  | nil => simp [segments]
  | cons c r =>
    by_cases hc : c = sep
    · simp [segments, hc]
    · simp only [segments, hc, if_false]
      split <;> simp

/-- Joining the segments of a text gives the text back. -/
theorem joinSegments_segments (sep : Char) (cs : List Char) :
    joinSegments sep (segments sep cs) = cs := by
  induction cs with
  | nil => rfl
  | cons c r ih =>
    have hne := segments_ne_nil sep r
    by_cases hc : c = sep
    · simp only [segments, hc, if_true]
      cases hs : segments sep r with
      | nil => exact absurd hs hne
      | cons s ss => rw [hs] at ih; simp [joinSegments, ih]
    · simp only [segments, hc, if_false]
      cases hs : segments sep r with
      | nil => exact absurd hs hne
      | cons s ss =>
        rw [hs] at ih
        cases ss with
        | nil => simpa [joinSegments] using ih
        | cons t ts => simpa [joinSegments] using ih

/-- No segment holds the separator. -/
theorem not_mem_of_mem_segments {sep : Char} {cs s : List Char} (h : s ∈ segments sep cs) :
    sep ∉ s := by
  induction cs generalizing s with
  | nil => simp only [segments, List.mem_singleton] at h; simp [h]
  | cons c r ih =>
    by_cases hc : c = sep
    · simp only [segments, hc, if_true, List.mem_cons] at h
      rcases h with rfl | h
      · simp
      · exact ih h
    · simp only [segments, hc, if_false] at h
      cases hs : segments sep r with
      | nil => exact absurd hs (segments_ne_nil sep r)
      | cons t ts =>
        rw [hs] at h
        simp only [List.mem_cons] at h
        rcases h with rfl | h
        · simpa [Ne.symm hc] using ih (s := t) (by simp [hs])
        · exact ih (by simp [hs, h])

theorem segments_of_not_mem {sep : Char} {cs : List Char} (h : sep ∉ cs) :
    segments sep cs = [cs] := by
  induction cs with
  | nil => rfl
  | cons c rest ih =>
    rw [List.mem_cons, not_or] at h
    simp [segments, Ne.symm h.1, ih h.2]

/-- The segments of two texts with a separator between them. -/
theorem segments_append (sep : Char) (a b : List Char) :
    segments sep (a ++ sep :: b) = segments sep a ++ segments sep b := by
  induction a with
  | nil => simp [segments]
  | cons c rest ih =>
    by_cases hc : c = sep
    · simp [segments, hc, ih]
    · rw [List.cons_append, segments, if_neg hc, ih, segments, if_neg hc]
      cases hrest : segments sep rest with
      | nil => exact absurd hrest (segments_ne_nil sep rest)
      | cons s ss => rfl

/-- The segments between separators are what was joined by them. -/
theorem segments_joinSegments {sep : Char} {ss : List (List Char)} (hne : ss ≠ [])
    (h : ∀ s ∈ ss, sep ∉ s) : segments sep (joinSegments sep ss) = ss := by
  induction ss with
  | nil => exact absurd rfl hne
  | cons s rest ih =>
    obtain ⟨hs, hrest⟩ := List.forall_mem_cons.mp h
    cases rest with
    | nil => exact segments_of_not_mem hs
    | cons t ts =>
      rw [joinSegments, segments_append, segments_of_not_mem hs, ih (by simp) hrest]
      rfl

theorem mem_joinSegments {sep c : Char} {ss : List (List Char)} (h : c ∈ joinSegments sep ss) :
    c = sep ∨ ∃ s ∈ ss, c ∈ s := by
  induction ss with
  | nil => cases h
  | cons s rest ih =>
    cases rest with
    | nil => exact Or.inr ⟨s, List.mem_singleton_self s, h⟩
    | cons t ts =>
      rw [joinSegments, List.mem_append, List.mem_cons] at h
      rcases h with hs | hsep | hrest
      · exact Or.inr ⟨s, List.mem_cons_self, hs⟩
      · exact Or.inl hsep
      · rcases ih hrest with hsep | ⟨u, hu, hc⟩
        · exact Or.inl hsep
        · exact Or.inr ⟨u, List.mem_cons_of_mem _ hu, hc⟩

/-- The text before and after the first `sep`. -/
def cutFirst (s : String) (sep : Char) : Option (String × String) :=
  (splitFirst sep s.toList).map fun p => (String.ofList p.1, String.ofList p.2)

/-- The text before and after the last `sep`. -/
def cutLast (s : String) (sep : Char) : Option (String × String) :=
  (splitLast sep s.toList).map fun p => (String.ofList p.1, String.ofList p.2)

/-- The segments of a text between the occurrences of `sep`. -/
def segmentsOf (s : String) (sep : Char) : List String :=
  (segments sep s.toList).map String.ofList

end EcosystemSetup.Text

import EcosystemSetup.Text.Blank
import Mathlib.Data.List.TakeWhile

/-!
# Trimming

What trimming leaves of a text: what stands between the blanks at its ends, and neither starts nor ends with
a blank. There is only one such part, so trimming it again leaves it as it is.
-/

namespace EcosystemSetup.Text

/-- What is left of characters without the blanks around it. -/
structure Trims (cs core : List Char) : Prop where
  around : ∃ before after, cs = before ++ (core ++ after) ∧
    (∀ c ∈ before, isBlank c = true) ∧ ∀ c ∈ after, isBlank c = true
  first : ∀ c rest, core = c :: rest → isBlank c = false
  last : ∀ c rest, core = rest ++ [c] → isBlank c = false

theorem dropWhile_isBlank_of_first {cs : List Char}
    (h : ∀ c rest, cs = c :: rest → isBlank c = false) : cs.dropWhile isBlank = cs := by
  cases cs with
  | nil => rfl
  | cons c rest => rw [List.dropWhile_cons_of_neg (by simp [h c rest rfl])]

/-- Trimming leaves what stands between the blanks. -/
theorem Trims.trimChars_eq {cs core : List Char} (h : Trims cs core) : trimChars cs = core := by
  obtain ⟨before, after, rfl, hbefore, hafter⟩ := h.around
  rw [trimChars, List.dropWhile_append_of_pos hbefore]
  cases core with
  | nil =>
    -- there is nothing but blanks
    have hnone : after.dropWhile isBlank = [] := List.dropWhile_eq_nil_iff.mpr hafter
    rw [List.nil_append, hnone]
    rfl
  | cons c rest =>
    have hfirst : (c :: rest ++ after).dropWhile isBlank = c :: rest ++ after := by
      apply dropWhile_isBlank_of_first
      intro d more heq
      obtain ⟨rfl, -⟩ := List.cons.inj heq
      exact h.first _ rest rfl
    have hlast : (c :: rest).reverse.dropWhile isBlank = (c :: rest).reverse := by
      apply dropWhile_isBlank_of_first
      intro d more heq
      apply h.last d more.reverse
      rw [← List.reverse_reverse (c :: rest), heq, List.reverse_cons]
    have hblank : ∀ d ∈ after.reverse, isBlank d = true := by
      intro d hd
      exact hafter d (List.mem_reverse.mp hd)
    rw [hfirst, List.reverse_append, List.dropWhile_append_of_pos hblank, hlast,
      List.reverse_reverse]

theorem trims_trimChars (cs : List Char) : Trims cs (trimChars cs) := by
  -- blanks are dropped from the front, and then from the end of what is left
  generalize hrest : cs.dropWhile isBlank = rest
  have hcore : trimChars cs = (rest.reverse.dropWhile isBlank).reverse := by
    rw [← hrest]
    rfl
  have hsplit : trimChars cs ++ (rest.reverse.takeWhile isBlank).reverse = rest := by
    rw [hcore, ← List.reverse_append, List.takeWhile_append_dropWhile, List.reverse_reverse]
  refine ⟨⟨cs.takeWhile isBlank, (rest.reverse.takeWhile isBlank).reverse, ?_, ?_, ?_⟩, ?_, ?_⟩
  · rw [hsplit, ← hrest, List.takeWhile_append_dropWhile]
  · intro c hc
    exact List.mem_takeWhile_imp hc
  · intro c hc
    exact List.mem_takeWhile_imp (List.mem_reverse.mp hc)
  · intro c more heq
    rw [heq] at hsplit
    exact head_dropWhile_isBlank cs (hrest.trans hsplit.symm)
  · intro c more heq
    rw [hcore, List.reverse_eq_iff, List.reverse_concat] at heq
    exact head_dropWhile_isBlank _ heq

/-- What has no blanks at its ends is not trimmed. -/
theorem trimChars_of_ends {cs : List Char} (hfirst : ∀ c rest, cs = c :: rest → isBlank c = false)
    (hlast : ∀ c rest, cs = rest ++ [c] → isBlank c = false) : trimChars cs = cs :=
  Trims.trimChars_eq ⟨⟨[], [], by simp, by simp, by simp⟩, hfirst, hlast⟩

theorem trimChars_of_unblank {cs : List Char} (h : ∀ c ∈ cs, isBlank c = false) :
    trimChars cs = cs := by
  apply trimChars_of_ends
  · rintro c rest rfl
    exact h c List.mem_cons_self
  · rintro c rest rfl
    exact h c (by simp)

/-- Trimming twice is trimming once. -/
theorem trimChars_trimChars (cs : List Char) : trimChars (trimChars cs) = trimChars cs :=
  trimChars_of_ends (trims_trimChars cs).first (trims_trimChars cs).last

theorem trim_trim (s : String) : trim (trim s) = trim s := by
  simp [trim, trimChars_trimChars]

end EcosystemSetup.Text

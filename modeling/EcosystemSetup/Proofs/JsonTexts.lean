import EcosystemSetup.Document.JsonText
import EcosystemSetup.Json.Printer
import EcosystemSetup.Proofs.KeyOrder
import EcosystemSetup.Proofs.Lists

/-!
# Reading rendered values

The text of a value is read back as that value, with nothing left over: its texts with whatever needs an
escape, its integers, and its lists and records, as deep as they may nest. Doubles are left out.

A reader does not know where a value ends before it has seen what comes behind it, so the lemmas hold in
front of any characters that may follow a value.
-/

namespace EcosystemSetup

open Text

/-! ## The characters of a value -/

namespace Json

/-- The characters of the text of a value. -/
def chars (j : Json) : List Char :=
  j.render.toList

/-- The characters of items with commas between them. -/
def itemChars (items : List Json) : List Char :=
  (renderItems items).toList

/-- The characters of fields with commas between them. -/
def fieldChars (fields : List (String × Json)) : List Char :=
  (renderFields fields).toList

theorem renderText_toList (s : String) :
    (renderText s).toList = '"' :: (s.toList.flatMap escapeChar ++ ['"']) := by
  rw [renderText, String.toList_ofList]

theorem chars_natural (n : Nat) : chars (.number (.integer n)) = Nat.toDigits 10 n := by
  show (Nat.repr n).toList = _
  rw [Nat.toList_repr]

theorem chars_negative {n : Nat} (hn : 0 < n) :
    chars (.number (.integer (-(n : Int)))) = '-' :: Nat.toDigits 10 n := by
  cases n with
  | zero => cases hn
  | succ m =>
    show ("-" ++ Nat.repr (m + 1)).toList = _
    rw [String.toList_append, Nat.toList_repr]
    rfl

theorem chars_text (s : String) :
    chars (.text s) = '"' :: (s.toList.flatMap escapeChar ++ ['"']) := by
  rw [chars, render, renderText_toList]

theorem chars_list (items : List Json) : chars (.list items) = '[' :: (itemChars items ++ [']']) := by
  simp [chars, itemChars, render]

theorem chars_record (fields : List (String × Json)) :
    chars (.record fields) = '\x7b' :: (fieldChars fields ++ ['\x7d']) := by
  simp [chars, fieldChars, render]

theorem itemChars_singleton (v : Json) : itemChars [v] = chars v := by
  simp [chars, itemChars, renderItems]

theorem itemChars_cons (v w : Json) (rest : List Json) :
    itemChars (v :: w :: rest) = chars v ++ ',' :: itemChars (w :: rest) := by
  simp [chars, itemChars, renderItems]

theorem fieldChars_singleton (k : String) (v : Json) :
    fieldChars [(k, v)] = (renderText k).toList ++ ':' :: chars v := by
  simp [chars, fieldChars, renderFields]

theorem fieldChars_cons (k : String) (v : Json) (f : String × Json) (rest : List (String × Json)) :
    fieldChars ((k, v) :: f :: rest) =
      (renderText k).toList ++ ':' :: (chars v ++ ',' :: fieldChars (f :: rest)) := by
  simp [chars, fieldChars, renderFields]

/-- How a character is escaped: by a letter, by its number, or not at all. -/
theorem escapeChar_cases (c : Char) :
    (∃ e, escapeChar c = ['\\', e] ∧ Document.shortEscape? e = some c) ∨
      (c.toNat < 0x20 ∧ escapeChar c = '\\' :: 'u' :: hex4 c.toNat) ∨
      (c ≠ '"' ∧ c ≠ '\\' ∧ ¬ c.toNat < 0x20 ∧ escapeChar c = [c]) := by
  by_cases hmem : c ∈ ['"', '\\', '\n', '\r', '\t', '\x08', '\x0c']
  · simp only [List.mem_cons, List.not_mem_nil, or_false] at hmem
    left
    rcases hmem with rfl | rfl | rfl | rfl | rfl | rfl | rfl
    · exact ⟨'"', rfl, rfl⟩
    · exact ⟨'\\', rfl, rfl⟩
    · exact ⟨'n', rfl, rfl⟩
    · exact ⟨'r', rfl, rfl⟩
    · exact ⟨'t', rfl, rfl⟩
    · exact ⟨'b', rfl, rfl⟩
    · exact ⟨'f', rfl, rfl⟩
  · simp only [List.mem_cons, List.not_mem_nil, or_false, not_or] at hmem
    obtain ⟨hquote, hslash, hn, hr, ht, hb, hf⟩ := hmem
    right
    by_cases hc : c.toNat < 0x20
    · left
      refine ⟨hc, ?_⟩
      rw [escapeChar, if_neg hquote, if_neg hslash, if_neg hn, if_neg hr, if_neg ht, if_neg hb,
        if_neg hf, if_pos hc]
    · right
      refine ⟨hquote, hslash, hc, ?_⟩
      rw [escapeChar, if_neg hquote, if_neg hslash, if_neg hn, if_neg hr, if_neg ht, if_neg hb,
        if_neg hf, if_neg hc]

end Json

namespace Document

open Json

/-! ## Texts -/

/-- The digits of a control character are its number. -/
theorem exists_hex4 (n : Fin 32) :
    ∃ a b c d, hex4 n = [a, b, c, d] ∧ hex4? a b c d = some n.val := by
  have hdigits : ∀ n : Fin 32, hex4 n = ['0', '0', (hex4 n).getD 2 '0', (hex4 n).getD 3 '0'] ∧
      hex4? '0' '0' ((hex4 n).getD 2 '0') ((hex4 n).getD 3 '0') = some n.val := by
    decide +kernel
  exact ⟨_, _, _, _, hdigits n⟩

section Units

variable {tail rest : List Char} {units : List TextUnit}

/-- The digits behind `\u` in a text that is read are a number. -/
theorem exists_hex4?_of_textUnits {a b c d : Char} {p : List TextUnit × List Char}
    (h : textUnits ('\\' :: 'u' :: a :: b :: c :: d :: tail) = .ok p) :
    ∃ n, hex4? a b c d = some n := by
  cases hn : hex4? a b c d with
  | some n => exact ⟨n, rfl⟩
  | none =>
    have hrefused : textUnits ('\\' :: 'u' :: a :: b :: c :: d :: tail) = .error .malformed := by
      by_cases hnext : ∃ e f g h rest, tail = '\\' :: 'u' :: e :: f :: g :: h :: rest
      · obtain ⟨e, f, g, h, rest, rfl⟩ := hnext
        rw [textUnits, hn]
      · rw [textUnits, hn]
        intro e f g h rest htail
        exact hnext ⟨e, f, g, h, rest, htail⟩
    rw [hrefused] at h
    cases h

/-- A character below the surrogates may be escaped by its number. -/
theorem textUnits_unicode {a b c d : Char} {n : Nat} (hn : hex4? a b c d = some n)
    (hlow : n < 0xD800) (htail : textUnits tail = .ok (units, rest)) :
    textUnits ('\\' :: 'u' :: a :: b :: c :: d :: tail) =
      .ok (.char (Char.ofNat n) :: units, rest) := by
  have hhigh : ¬ 0xD800 ≤ n := by omega
  by_cases hnext : ∃ e f g h rest', tail = '\\' :: 'u' :: e :: f :: g :: h :: rest'
  · -- another such escape behind it might be the second half of a pair, but there is no first half
    obtain ⟨e, f, g, h, rest', rfl⟩ := hnext
    obtain ⟨m, hm⟩ := exists_hex4?_of_textUnits htail
    rw [textUnits, hn]
    dsimp only
    rw [hm]
    dsimp only
    rw [htail]
    simp [hhigh, Except.map]
  · rw [textUnits, hn]
    · dsimp only
      rw [htail]
      simp [hhigh, Except.map]
    · intro e f g h rest' htail
      exact hnext ⟨e, f, g, h, rest', htail⟩

theorem textUnits_short {c e : Char} (he : shortEscape? c = some e)
    (htail : textUnits tail = .ok (units, rest)) :
    textUnits ('\\' :: c :: tail) = .ok (.char e :: units, rest) := by
  have hc : c ≠ 'u' := by
    rintro rfl
    cases he
  rw [textUnits, he]
  · dsimp only
    rw [htail]
    rfl
  · intro _ _ _ _ _ _ _ _ _ hu
    exact absurd hu hc
  · intro _ _ _ _ _ hu
    exact absurd hu hc

theorem textUnits_plain {c : Char} (hquote : c ≠ '"') (hslash : c ≠ '\\') (hc : ¬ c.toNat < 0x20)
    (htail : textUnits tail = .ok (units, rest)) :
    textUnits (c :: tail) = .ok (.char c :: units, rest) := by
  rw [textUnits, if_neg hslash, if_neg hc, htail]
  · rfl
  · exact hquote
  · intro _ _ _ _ _ _ _ _ _ h
    exact absurd h hslash
  · intro _ _ _ _ _ h
    exact absurd h hslash
  · intro _ _ h
    exact absurd h hslash

/-- An escaped character is read back. -/
theorem textUnits_escapeChar (c : Char) (htail : textUnits tail = .ok (units, rest)) :
    textUnits (escapeChar c ++ tail) = .ok (.char c :: units, rest) := by
  rcases escapeChar_cases c with ⟨e, hescape, he⟩ | ⟨hc, hescape⟩ | ⟨hquote, hslash, hc, hescape⟩
  · rw [hescape]
    exact textUnits_short he htail
  · obtain ⟨a, b, d, e, hdigits, hn⟩ := exists_hex4 ⟨c.toNat, hc⟩
    have hlow : c.toNat < 0xD800 := by omega
    have hback := textUnits_unicode hn hlow htail
    dsimp only at hdigits hback
    rw [Char.ofNat_toNat] at hback
    rw [hescape, hdigits]
    exact hback
  · rw [hescape]
    exact textUnits_plain hquote hslash hc htail

end Units

/-- An escaped text is read back up to its closing quote. -/
theorem textUnits_escaped (cs rest : List Char) :
    textUnits (cs.flatMap escapeChar ++ '"' :: rest) = .ok (cs.map .char, rest) := by
  induction cs with
  | nil => rw [List.flatMap_nil, List.nil_append, textUnits, List.map_nil]
  | cons c cs ih =>
    rw [List.flatMap_cons, List.append_assoc, List.map_cons]
    exact textUnits_escapeChar c ih

theorem unitsText?_char (cs : List Char) :
    unitsText? (cs.map .char) = some (String.ofList cs) := by
  have hchars : (cs.map TextUnit.char).mapM TextUnit.char? = some cs :=
    Lists.mapM_map_eq_some fun _ _ => rfl
  rw [unitsText?, hchars]
  rfl

/-! ## Integers -/

/-- What may follow a value: nothing, or what goes on with or ends a list or a record. -/
def Ends (rest : List Char) : Prop :=
  ∀ c r, rest = c :: r → c = ',' ∨ c = ']' ∨ c = '}'

theorem ends_nil : Ends [] := by
  intro c r h
  cases h

theorem ends_cons {c : Char} (h : c = ',' ∨ c = ']' ∨ c = '}') (rest : List Char) :
    Ends (c :: rest) := by
  intro c' r heq
  rw [← (List.cons.inj heq).1]
  exact h

theorem exists_toDigits_eq_cons (n : Nat) :
    ∃ c cs, Nat.toDigits 10 n = c :: cs ∧ isDigit c = true := by
  obtain ⟨c, cs, hdigits⟩ := List.exists_cons_of_ne_nil (@Nat.toDigits_ne_nil n 10)
  have hmem : c ∈ Nat.toDigits 10 n := by
    rw [hdigits]
    exact List.mem_cons_self
  exact ⟨c, cs, hdigits, isDigit_of_mem_toDigits hmem⟩

/-- There are no leading zeros. -/
theorem head?_toDigits {n : Nat} (hn : 0 < n) : (Nat.toDigits 10 n).head? ≠ some '0' := by
  induction n using Nat.strongRecOn with
  | ind n ih =>
    by_cases hlt : n < 10
    · have hall : ∀ k : Fin 10, 0 < k.val → [Nat.digitChar k].head? ≠ some '0' := by decide
      rw [Nat.toDigits_of_lt_base hlt]
      exact hall ⟨n, hlt⟩ hn
    · have hge : 10 ≤ n := by omega
      have hfirst := ih (n / 10) (by omega) (by omega)
      -- the first digit is that of the number without its last one
      obtain ⟨d, ds, hdigits, -⟩ := exists_toDigits_eq_cons (n / 10)
      rw [hdigits] at hfirst
      rw [Nat.toDigits_of_base_le (by decide) hge, hdigits]
      exact hfirst

theorem le_ofDigitChars (ds : List Char) (start : Nat) : start ≤ Nat.ofDigitChars 10 ds start := by
  rw [Nat.ofDigitChars_eq_ofDigitChars_zero]
  have hpos : 0 < 10 ^ ds.length := Nat.pow_pos (by decide)
  have hle : start ≤ 10 ^ ds.length * start := Nat.le_mul_of_pos_left _ hpos
  omega

/-- Digits with a value of 64 bits are all taken. -/
theorem significand_eq {ds : List Char} {start : Nat}
    (h : Nat.ofDigitChars 10 ds start < bound64) :
    significand start ds = (Nat.ofDigitChars 10 ds start, ds.length) := by
  induction ds generalizing start with
  | nil => rfl
  | cons d ds ih =>
    rw [Nat.ofDigitChars_cons] at h ⊢
    have hnext : start * 10 + digitValue d = 10 * start + (d.toNat - '0'.toNat) := by
      rw [digitValue, Nat.mul_comm]
    have hle := le_ofDigitChars ds (10 * start + (d.toNat - '0'.toNat))
    rw [significand]
    dsimp only
    rw [hnext, if_pos (by omega), ih h]
    rfl

/-- The digits of a number of 64 bits are read back. -/
theorem number_toDigits {n : Nat} (hn : n < bound64) (negative : Bool) {rest : List Char}
    (hrest : Ends rest) :
    number negative (Nat.toDigits 10 n ++ rest) = .ok (integerNode negative n, rest) := by
  have hstop : ∀ c r, rest = c :: r → isDigit c = false ∧ c ≠ '.' ∧ c ≠ 'e' ∧ c ≠ 'E' := by
    intro c r h
    rcases hrest c r h with rfl | rfl | rfl <;> decide
  have htake : rest.takeWhile isDigit = [] := by
    cases rest with
    | nil => rfl
    | cons c r => simp [(hstop c r rfl).1]
  have hdrop : rest.dropWhile isDigit = rest := by
    cases rest with
    | nil => rfl
    | cons c r => simp [(hstop c r rfl).1]
  have hwhole : (Nat.toDigits 10 n ++ rest).takeWhile isDigit = Nat.toDigits 10 n := by
    rw [List.takeWhile_append_of_pos fun c hc => isDigit_of_mem_toDigits hc, htake, List.append_nil]
  have hafter : (Nat.toDigits 10 n ++ rest).dropWhile isDigit = rest := by
    rw [List.dropWhile_append_of_pos fun c hc => isDigit_of_mem_toDigits hc, hdrop]
  have hlead : ¬ ((Nat.toDigits 10 n).head? = some '0' ∧ (Nat.toDigits 10 n).length ≠ 1) := by
    rintro ⟨hzero, hlength⟩
    cases n with
    | zero => exact hlength (by simp)
    | succ n => exact head?_toDigits (Nat.succ_pos n) hzero
  have hvalue : Nat.ofDigitChars 10 (Nat.toDigits 10 n) 0 = n := Nat.ofDigitChars_ten_toDigits
  have hsignificand : significand 0 (Nat.toDigits 10 n) = (n, (Nat.toDigits 10 n).length) := by
    rw [significand_eq (by rw [hvalue]; exact hn), hvalue]
  have hfraction : fractionPart rest = .ok (none, rest) := by
    cases rest with
    | nil => rfl
    | cons c r =>
      rw [fractionPart]
      intro r' h
      exact (hstop c r rfl).2.1 (List.cons.inj h).1
  unfold number
  dsimp only
  rw [hwhole, hafter, if_neg Nat.toDigits_ne_nil, if_neg (by simpa using hlead), hsignificand,
    hfraction]
  dsimp only
  cases rest with
  | nil => simp
  | cons c r =>
    have hc := hstop c r rfl
    simp [hc.2.2.1, hc.2.2.2]

/-! ## Values -/

/-- What is read back: integers of 64 bits, any text, and lists and records of such values that nest no
deeper than `depth`. -/
inductive Readable : Nat → Json → Prop where
  | null {depth : Nat} : Readable depth .null
  | bool {depth : Nat} (b : Bool) : Readable depth (.bool b)
  | natural {depth n : Nat} (fits : n < bound64) : Readable depth (.number (.integer n))
  | negative {depth n : Nat} (positive : 0 < n) (fits : n ≤ 9223372036854775808) :
      Readable depth (.number (.integer (-(n : Int))))
  | text {depth : Nat} (s : String) : Readable depth (.text s)
  | list {depth : Nat} {items : List Json} (all : ∀ v ∈ items, Readable depth v) :
      Readable (depth + 1) (.list items)
  | record {depth : Nat} {fields : List (String × Json)} (all : ∀ f ∈ fields, Readable depth f.2) :
      Readable (depth + 1) (.record fields)

theorem readable_items {α : Type} {depth : Nat} {encode : α → Json} {xs : List α}
    (h : ∀ x ∈ xs, Readable depth (encode x)) : Readable (depth + 1) (.list (xs.map encode)) :=
  .list (List.forall_mem_map.mpr h)

/-- A record is readable if its fields are. -/
theorem readable_ofFields {depth : Nat} {fields : List (String × Json)}
    (h : ∀ f ∈ fields, Readable depth f.2) : Readable (depth + 1) (Json.ofFields fields) :=
  .record fun f hf => h f (Assoc.mem_of_mem_ofList hf)

/-! ### How values begin -/

/-- A character that is no white space. -/
def Visible (c : Char) : Prop :=
  c ≠ ' ' ∧ c ≠ '\n' ∧ c ≠ '\t' ∧ c ≠ '\r'

instance (c : Char) : Decidable (Visible c) :=
  inferInstanceAs (Decidable (_ ∧ _))

theorem skipSpace_cons {c : Char} (h : Visible c) (rest : List Char) :
    skipSpace (c :: rest) = c :: rest := by
  obtain ⟨hspace, hn, ht, hr⟩ := h
  unfold skipSpace
  rw [List.dropWhile_cons_of_neg (by simp [hspace, hn, ht, hr])]

theorem visible_of_isDigit {c : Char} (h : isDigit c = true) : Visible c ∧ c ≠ ']' := by
  have hne : ∀ d, isDigit d = false → c ≠ d := by
    rintro d hd rfl
    rw [hd] at h
    cases h
  exact ⟨⟨hne _ (by decide), hne _ (by decide), hne _ (by decide), hne _ (by decide)⟩,
    hne _ (by decide)⟩

/-- Characters that may begin a value, and do not end a list. -/
def Opens (cs : List Char) : Prop :=
  ∃ c rest, cs = c :: rest ∧ Visible c ∧ c ≠ ']'

namespace Opens

variable {cs : List Char}

theorem append (h : Opens cs) (rest : List Char) : Opens (cs ++ rest) := by
  obtain ⟨c, cs, rfl, hc⟩ := h
  exact ⟨c, cs ++ rest, rfl, hc⟩

theorem length_pos (h : Opens cs) : 0 < cs.length := by
  obtain ⟨c, cs, rfl, -⟩ := h
  exact Nat.succ_pos _

theorem skipSpace (h : Opens cs) : Document.skipSpace cs = cs := by
  obtain ⟨c, rest, rfl, hc, -⟩ := h
  exact skipSpace_cons hc rest

theorem skipSpace_ne (h : Opens cs) (rest : List Char) : Document.skipSpace cs ≠ ']' :: rest := by
  rw [h.skipSpace]
  obtain ⟨c, tail, rfl, -, hc⟩ := h
  intro heq
  exact hc (List.cons.inj heq).1

end Opens

theorem opens_chars {depth : Nat} {j : Json} (h : Readable depth j) : Opens j.chars := by
  cases h with
  | null => exact ⟨'n', "ull".toList, rfl, by decide⟩
  | bool b =>
    cases b with
    | true => exact ⟨'t', "rue".toList, rfl, by decide⟩
    | false => exact ⟨'f', "alse".toList, rfl, by decide⟩
  | @natural _ n fits =>
    obtain ⟨c, cs, hdigits, hc⟩ := exists_toDigits_eq_cons n
    exact ⟨c, cs, (chars_natural n).trans hdigits, visible_of_isDigit hc⟩
  | negative positive fits => exact ⟨'-', _, chars_negative positive, by decide⟩
  | text s => exact ⟨'"', _, chars_text s, by decide⟩
  | list all => exact ⟨'[', _, chars_list _, by decide⟩
  | record all => exact ⟨'\x7b', _, chars_record _, by decide⟩

/-! ### Items and entries -/

section Parts

variable {depth fuel : Nat} {d : Document} {cs more rest : List Char}

/-- The last item of a list. -/
theorem jsonItems_last (hopens : Opens cs) (hvalue : jsonValue depth fuel cs = .ok (d, ']' :: rest))
    (first : Bool) : jsonItems depth (fuel + 1) first cs = .ok ([d], rest) := by
  rw [jsonItems, hopens.skipSpace, hvalue]
  · dsimp only
    rw [skipSpace_cons (by decide)]
    rfl
  · intro r _
    exact hopens.skipSpace_ne r

/-- An item of a list before others. -/
theorem jsonItems_more (hopens : Opens cs) (hvalue : jsonValue depth fuel cs = .ok (d, ',' :: more))
    {ds : List Document} (hmore : jsonItems depth fuel false more = .ok (ds, rest)) (first : Bool) :
    jsonItems depth (fuel + 1) first cs = .ok (d :: ds, rest) := by
  rw [jsonItems, hopens.skipSpace, hvalue]
  · dsimp only
    rw [skipSpace_cons (by decide)]
    show (jsonItems depth fuel false more).map _ = _
    rw [hmore]
    rfl
  · intro r _
    exact hopens.skipSpace_ne r

/-- The last entry of a record. -/
theorem jsonEntries_last {k : String} (hvalue : jsonValue depth fuel cs = .ok (d, '\x7d' :: rest))
    (first : Bool) :
    jsonEntries depth (fuel + 1) first ((renderText k).toList ++ ':' :: cs) =
      .ok ([(some k, d)], rest) := by
  rw [renderText_toList, List.cons_append, List.append_assoc, List.singleton_append, jsonEntries]
  case heq => exact skipSpace_cons (by decide) _
  rw [textUnits_escaped]
  simp only [skipSpace_cons (show Visible ':' by decide), hvalue]
  rw [skipSpace_cons (by decide), unitsText?_char, String.ofList_toList]
  rfl

/-- An entry of a record before others. -/
theorem jsonEntries_more {k : String} (hvalue : jsonValue depth fuel cs = .ok (d, ',' :: more))
    {es : List (Option String × Document)} (hmore : jsonEntries depth fuel false more = .ok (es, rest))
    (first : Bool) :
    jsonEntries depth (fuel + 1) first ((renderText k).toList ++ ':' :: cs) =
      .ok ((some k, d) :: es, rest) := by
  rw [renderText_toList, List.cons_append, List.append_assoc, List.singleton_append, jsonEntries]
  case heq => exact skipSpace_cons (by decide) _
  rw [textUnits_escaped]
  simp only [skipSpace_cons (show Visible ':' by decide), hvalue]
  rw [skipSpace_cons (by decide), unitsText?_char, String.ofList_toList]
  show (jsonEntries depth fuel false more).map _ = _
  rw [hmore]
  rfl

end Parts

/-- Reading the characters of a value gives it back, whatever comes behind its end. A reader that may
take one step for each of its characters does not give up. -/
def Reads (depth : Nat) (j : Json) : Prop :=
  ∀ fuel rest, Ends rest → j.chars.length ≤ fuel + 1 →
    jsonValue depth (fuel + 1) (j.chars ++ rest) = .ok (ofJson j, rest)

/-- The items of a list that is not empty are read back if each of them is. -/
theorem jsonItems_itemChars {depth fuel : Nat} {v : Json} {items : List Json}
    (hopens : ∀ w ∈ v :: items, Opens w.chars) (hreads : ∀ w ∈ v :: items, Reads depth w)
    (hfuel : (itemChars (v :: items)).length + 1 ≤ fuel) (first : Bool) (rest : List Char) :
    jsonItems depth fuel first (itemChars (v :: items) ++ ']' :: rest) =
      .ok (ofItems (v :: items), rest) := by
  induction items generalizing v fuel first with
  | nil =>
    have hv := hopens v List.mem_cons_self
    have hpos := hv.length_pos
    rw [itemChars_singleton] at hfuel ⊢
    obtain ⟨fuel, rfl⟩ : ∃ n, fuel = n + 2 := ⟨fuel - 2, by omega⟩
    have hvalue := hreads v List.mem_cons_self fuel (']' :: rest) (ends_cons (by simp) rest) (by omega)
    exact jsonItems_last (hv.append _) hvalue first
  | cons w items ih =>
    have hv := hopens v List.mem_cons_self
    rw [itemChars_cons, List.length_append, List.length_cons] at hfuel
    obtain ⟨fuel, rfl⟩ : ∃ n, fuel = n + 2 := ⟨fuel - 2, by omega⟩
    have hvalue := hreads v List.mem_cons_self fuel (',' :: (itemChars (w :: items) ++ ']' :: rest))
      (ends_cons (by simp) _) (by omega)
    have hmore : jsonItems depth (fuel + 1) false (itemChars (w :: items) ++ ']' :: rest) =
        .ok (ofItems (w :: items), rest) := by
      apply ih
      · exact fun u hu => hopens u (List.mem_cons_of_mem _ hu)
      · exact fun u hu => hreads u (List.mem_cons_of_mem _ hu)
      · omega
    rw [itemChars_cons, List.append_assoc, List.cons_append]
    exact jsonItems_more (hv.append _) hvalue hmore first

/-- The entries of a record that is not empty are read back if their values are. -/
theorem jsonEntries_fieldChars {depth fuel : Nat} {f : String × Json} {fields : List (String × Json)}
    (hreads : ∀ g ∈ f :: fields, Reads depth g.2)
    (hfuel : (fieldChars (f :: fields)).length + 1 ≤ fuel) (first : Bool) (rest : List Char) :
    jsonEntries depth fuel first (fieldChars (f :: fields) ++ '\x7d' :: rest) =
      .ok (ofFields (f :: fields), rest) := by
  obtain ⟨k, v⟩ := f
  induction fields generalizing k v fuel first with
  | nil =>
    rw [fieldChars_singleton, List.length_append, List.length_cons] at hfuel
    obtain ⟨fuel, rfl⟩ : ∃ n, fuel = n + 2 := ⟨fuel - 2, by omega⟩
    have hvalue := hreads (k, v) List.mem_cons_self fuel ('\x7d' :: rest) (ends_cons (by simp) rest)
      (by dsimp only; omega)
    rw [fieldChars_singleton, List.append_assoc, List.cons_append]
    exact jsonEntries_last hvalue first
  | cons f fields ih =>
    obtain ⟨l, w⟩ := f
    rw [fieldChars_cons, List.length_append, List.length_cons, List.length_append,
      List.length_cons] at hfuel
    obtain ⟨fuel, rfl⟩ : ∃ n, fuel = n + 2 := ⟨fuel - 2, by omega⟩
    have hvalue := hreads (k, v) List.mem_cons_self fuel
      (',' :: (fieldChars ((l, w) :: fields) ++ '\x7d' :: rest)) (ends_cons (by simp) _)
      (by dsimp only; omega)
    have hmore : jsonEntries depth (fuel + 1) false (fieldChars ((l, w) :: fields) ++ '\x7d' :: rest) =
        .ok (ofFields ((l, w) :: fields), rest) := by
      apply ih
      · exact fun g hg => hreads g (List.mem_cons_of_mem _ hg)
      · omega
    rw [fieldChars_cons, List.append_assoc, List.cons_append, List.append_assoc, List.cons_append]
    exact jsonEntries_more hvalue hmore first

/-! ### Whole values -/

/-- A value that begins with a digit is a number. -/
theorem jsonValue_digit {depth fuel : Nat} {c : Char} (hc : isDigit c = true) (cs : List Char) :
    jsonValue depth (fuel + 1) (c :: cs) = number false (c :: cs) := by
  have hne : ∀ d, isDigit d = false → ∀ rest, c :: cs ≠ d :: rest := by
    intro d hd rest heq
    rw [(List.cons.inj heq).1, hd] at hc
    cases hc
  rw [jsonValue, skipSpace_cons (visible_of_isDigit hc).1]
  split
  case h_8 => rfl
  all_goals
    rename_i heq
    exact absurd heq (hne _ (by decide) _)

/-- A record stands for an enumeration's name in the text as in the value. -/
theorem variantOfEntries_ofFields (fields : List (String × Json)) :
    variantOfEntries (ofFields fields) = variantOfFields fields := by
  match fields with
  | [] => rfl
  | [(k, .null)] => rfl
  | [(k, .bool b)] => rfl
  | [(k, .number (.integer n))] => rfl
  | [(k, .number (.double b))] => rfl
  | [(k, .text s)] => rfl
  | [(k, .list items)] => rfl
  | [(k, .record fields)] => rfl
  | (k, v) :: (l, w) :: rest => simp [ofFields, variantOfEntries, variantOfFields]

theorem reads_of_readable {depth : Nat} {j : Json} (h : Readable depth j) : Reads depth j := by
  induction h with
  | null =>
    intro fuel rest hrest hfuel
    show jsonValue _ _ ('n' :: ("ull".toList ++ rest)) = _
    rw [jsonValue, skipSpace_cons (by decide)]
    rfl
  | bool b =>
    intro fuel rest hrest hfuel
    cases b with
    | true =>
      show jsonValue _ _ ('t' :: ("rue".toList ++ rest)) = _
      rw [jsonValue, skipSpace_cons (by decide)]
      rfl
    | false =>
      show jsonValue _ _ ('f' :: ("alse".toList ++ rest)) = _
      rw [jsonValue, skipSpace_cons (by decide)]
      rfl
  | @natural depth n fits =>
    intro fuel rest hrest hfuel
    obtain ⟨c, cs, hdigits, hc⟩ := exists_toDigits_eq_cons n
    have hnumber := number_toDigits fits false hrest
    rw [hdigits, List.cons_append] at hnumber
    rw [chars_natural, hdigits, List.cons_append, jsonValue_digit hc]
    exact hnumber
  | @negative depth n positive fits =>
    intro fuel rest hrest hfuel
    have hbound : n < bound64 := by
      unfold bound64
      omega
    rw [chars_negative positive, List.cons_append, jsonValue, skipSpace_cons (by decide)]
    show number true (Nat.toDigits 10 n ++ rest) = _
    rw [number_toDigits hbound true hrest]
    simp [integerNode, positive, fits, ofJson]
  | text s =>
    intro fuel rest hrest hfuel
    rw [chars_text, List.cons_append, List.append_assoc, jsonValue, skipSpace_cons (by decide)]
    show (textUnits (s.toList.flatMap escapeChar ++ '"' :: rest)).map _ = _
    rw [textUnits_escaped]
    simp only [Except.map, unitsText?_char, String.ofList_toList]
    rfl
  | @list depth items all ih =>
    intro fuel rest hrest hfuel
    rw [chars_list, List.length_cons, List.length_append, List.length_singleton] at hfuel
    have hitems : jsonItems depth fuel true (itemChars items ++ ']' :: rest) =
        .ok (ofItems items, rest) := by
      cases items with
      | nil =>
        obtain ⟨fuel, rfl⟩ : ∃ n, fuel = n + 1 := ⟨fuel - 1, by omega⟩
        show jsonItems depth (fuel + 1) true (']' :: rest) = _
        rw [jsonItems]
        case heq => exact skipSpace_cons (by decide) rest
        rfl
      | cons v items =>
        exact jsonItems_itemChars (fun w hw => opens_chars (all w hw)) ih (by omega) true rest
    rw [chars_list, List.cons_append, List.append_assoc, jsonValue, skipSpace_cons (by decide)]
    show (jsonItems depth fuel true (itemChars items ++ ']' :: rest)).map _ = _
    rw [hitems]
    rfl
  | @record depth fields all ih =>
    intro fuel rest hrest hfuel
    rw [chars_record, List.length_cons, List.length_append, List.length_singleton] at hfuel
    have hentries : jsonEntries depth fuel true (fieldChars fields ++ '\x7d' :: rest) =
        .ok (ofFields fields, rest) := by
      cases fields with
      | nil =>
        obtain ⟨fuel, rfl⟩ : ∃ n, fuel = n + 1 := ⟨fuel - 1, by omega⟩
        show jsonEntries depth (fuel + 1) true ('\x7d' :: rest) = _
        rw [jsonEntries]
        case heq => exact skipSpace_cons (by decide) rest
        rfl
      | cons f fields => exact jsonEntries_fieldChars ih (by omega) true rest
    rw [chars_record, List.cons_append, List.append_assoc, jsonValue, skipSpace_cons (by decide)]
    show (jsonEntries depth fuel true (fieldChars fields ++ '\x7d' :: rest)).map _ = _
    rw [hentries]
    show Except.ok (Document.record (ofFields fields) (variantOfEntries (ofFields fields)), rest) = _
    rw [variantOfEntries_ofFields, ofJson]

/-- The text of a value is read back as that value. -/
theorem ofJsonText_render {j : Json} (h : Readable jsonDepth j) :
    ofJsonText j.render = some (ofJson j) := by
  have hread : jsonValue jsonDepth (2 * j.render.toList.length + 2) j.render.toList =
      .ok (ofJson j, []) := by
    have hlength : j.chars.length ≤ 2 * j.chars.length + 1 + 1 := by omega
    have hvalue := reads_of_readable h (2 * j.chars.length + 1) [] ends_nil hlength
    rw [List.append_nil] at hvalue
    exact hvalue
  unfold ofJsonText readJsonText
  dsimp only
  rw [hread]
  rfl

end Document

end EcosystemSetup

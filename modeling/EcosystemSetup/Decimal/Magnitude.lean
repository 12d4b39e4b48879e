/-!
# Magnitudes of doubles

How large the results of double arithmetic can be. A finite double is a mantissa of at most 53 bits
times a power of two, so the exponent of this power bounds it. An operation rounds the mantissa and the
exponent of its exact result, and then the exponent is at most one higher than that result needs. Main
statement: fewer than `2 ^ 55` whole seconds and some billionths of a second stay far below `2 ^ 64`
seconds.
-/

namespace EcosystemSetup.Decimal

open Float.Model Float.Model.UnpackedFloat

/-! ## Bits

A number has at most `n` bits if it lies below `1 <<< n`. -/

theorem lt_shift_of_le {m n k : Nat} (h : m < 1 <<< n) (hle : n ≤ k) : m < 1 <<< k := by
  rw [Nat.one_shiftLeft] at *
  exact Nat.lt_of_lt_of_le h (Nat.pow_le_pow_right (by decide) hle)

theorem shiftLeft_lt {m n : Nat} (h : m < 1 <<< n) (k : Nat) : m <<< k < 1 <<< (n + k) := by
  rw [Nat.one_shiftLeft] at *
  rw [Nat.shiftLeft_eq, Nat.pow_add]
  exact Nat.mul_lt_mul_of_pos_right h (Nat.two_pow_pos k)

theorem shiftRight_lt {m n : Nat} (h : m < 1 <<< n) (k : Nat) : m >>> k < 1 <<< (n - k) := by
  rw [Nat.one_shiftLeft] at *
  rw [Nat.shiftRight_eq_div_pow]
  refine Nat.div_lt_of_lt_mul (Nat.lt_of_lt_of_le h ?_)
  rw [← Nat.pow_add]
  exact Nat.pow_le_pow_right (by decide) (by omega)

theorem mul_lt_shift {m₁ m₂ n₁ n₂ : Nat} (h₁ : m₁ < 1 <<< n₁) (h₂ : m₂ < 1 <<< n₂) :
    m₁ * m₂ < 1 <<< (n₁ + n₂) := by
  rw [Nat.one_shiftLeft] at *
  rw [Nat.pow_add]
  exact Nat.mul_lt_mul_of_lt_of_lt h₁ h₂

theorem log2_lt_of_lt {m n : Nat} (hm : m < 1 <<< n) (hn : 1 ≤ n) : m.log2 < n := by
  by_cases hzero : m = 0
  · simp [hzero]
    omega
  · rw [Nat.one_shiftLeft] at hm
    exact (Nat.log2_lt hzero).mpr hm

/-! ## Rounding -/

/-- A result that has not been packed: zero, or with an exponent of at most `c`. -/
inductive ExponentLe (c : Int) : UnpackedFloat → Prop where
  | zero (s : Sign) : ExponentLe c (.zero s)
  | finite {s : Sign} {m : Nat} {e : Int} {hm : 0 < m} (exponent : e ≤ c) :
      ExponentLe c (.finite s m e hm)

/-- The mantissa of a result may vanish. -/
theorem exponentLe_parts (s : Sign) (m : Nat) {e c : Int} (he : e ≤ c) :
    ExponentLe c (if h : m = 0 then .zero s else .finite s m e (Nat.pos_of_ne_zero h)) := by
  cases m with
  | zero => exact .zero s
  | succ m => exact .finite he

theorem mantissa_shiftRight (em : ExtendedMantissa) (n : Nat) :
    (em >>> n).mantissa = em.mantissa >>> n := by
  induction n with
  | zero => rfl
  | succ n ih =>
    change (em >>> n).mantissa / 2 = _
    rw [ih, Nat.shiftRight_succ]

theorem roundedMantissa_le (em : ExtendedMantissa) : em.roundedMantissa ≤ em.mantissa + 1 := by
  obtain ⟨m, roundBit, stickyBit⟩ := em
  cases roundBit <;> cases stickyBit <;>
    simp only [ExtendedMantissa.roundedMantissa, ExtendedMantissa.accuracy,
      Accuracy.roundToNearestEven] <;> omega

theorem mantissa_ofMantissaAndAccuracy (m : Nat) (a : Accuracy) :
    (ExtendedMantissa.ofMantissaAndAccuracy m a).mantissa = m := by
  cases a with
  | exact => rfl
  | inexact order => cases order <;> rfl

/-- Rounding aims at an exponent that leaves the mantissa 53 bits. -/
theorem targetExponent_le {m n : Nat} {e c : Int} (hm : m < 1 <<< n) (hn : 1 ≤ n)
    (hvalue : n + e ≤ c + 53) (hc : -1074 ≤ c) :
    Format.binary64.targetExponent (totalExponent m e) ≤ c := by
  have hlog := log2_lt_of_lt hm hn
  have hmin : Format.binary64.minExponent = -1074 := rfl
  have hbits : (Format.binary64.mantissaBits : Int) = 53 := rfl
  simp only [Format.targetExponent, totalExponent, hmin, hbits]
  omega

/-- The rounded mantissa may have a bit more than was aimed at. Then the exponent is raised by one. -/
theorem exponentLe_roundWithAccuracy (s : Sign) {m n : Nat} {e c : Int} (a : Accuracy)
    (hm : m < 1 <<< n) (hn : 1 ≤ n) (hvalue : n + e ≤ c + 52) (he : e ≤ c) (hc : -1074 ≤ c) :
    ExponentLe c (roundWithAccuracy Format.binary64 s m e a) := by
  have htarget := targetExponent_le (c := c) (e := e) hm hn (by omega) hc
  -- the mantissa loses so many bits
  obtain ⟨lost, hlost⟩ : ∃ lost : Nat,
      (Format.binary64.targetExponent (totalExponent m e) - e).toNat = lost := ⟨_, rfl⟩
  have hshift : e + lost ≤ c := by omega
  have hmantissa : (ExtendedMantissa.ofMantissaAndAccuracy m a >>> lost).roundedMantissa ≤
      m >>> lost + 1 := by
    have hown := roundedMantissa_le (ExtendedMantissa.ofMantissaAndAccuracy m a >>> lost)
    rwa [mantissa_shiftRight, mantissa_ofMantissaAndAccuracy] at hown
  have hrounded : m >>> lost + 1 < 1 <<< (n - lost + 1) := by
    have hquotient := shiftRight_lt hm lost
    have hpos := Nat.zero_lt_of_lt hquotient
    rw [Nat.shiftLeft_succ]
    omega
  have hcarry := targetExponent_le (c := c) (e := e + lost) (Nat.lt_of_le_of_lt hmantissa hrounded)
    (by omega) (by omega) hc
  unfold roundWithAccuracy shiftToTargetExponent shiftToExponent
  dsimp only
  rw [hlost]
  exact exponentLe_parts s _ (by omega)

/-- The same for a mantissa that may first be filled up with zeros. -/
theorem exponentLe_round (s : Sign) {m n : Nat} {e c : Int} (hm : m < 1 <<< n) (hn : 1 ≤ n)
    (hvalue : n + e ≤ c + 52) (hc : -1074 ≤ c) :
    ExponentLe c (UnpackedFloat.round Format.binary64 s m e) := by
  have htarget := targetExponent_le (c := c) (e := e) hm hn (by omega) hc
  obtain ⟨added, hadded⟩ : ∃ added : Nat,
      (e - Format.binary64.targetExponent (totalExponent m e)).toNat = added := ⟨_, rfl⟩
  unfold UnpackedFloat.round decreaseExponent
  simp only [hadded]
  exact exponentLe_roundWithAccuracy s _ (shiftLeft_lt hm added) (by omega) (by omega) (by omega) hc

theorem exponentLe_normalize (s : Sign) {m : Int} {n : Nat} {e c : Int} (hm : m.natAbs < 1 <<< n)
    (hn : 1 ≤ n) (hvalue : n + e ≤ c + 52) (hc : -1074 ≤ c) :
    ExponentLe c (UnpackedFloat.normalize Format.binary64 m e s) := by
  unfold UnpackedFloat.normalize
  split
  · exact exponentLe_round _ (by omega) hn hvalue hc
  · exact .zero s
  · exact exponentLe_round _ (by omega) hn hvalue hc

/-! ## Doubles -/

/-- What a finite double is unpacked into: zero, or a mantissa of 53 bits with an exponent of at most
`c`. -/
inductive Unpacked (c : Int) : UnpackedFloat → Prop where
  | zero (s : Sign) : Unpacked c (.zero s)
  | finite {s : Sign} {m : Nat} {e : Int} {hm : 0 < m} (mantissa : m < 1 <<< 53) (exponent : e ≤ c) :
      Unpacked c (.finite s m e hm)

theorem Unpacked.mono {c d : Int} {u : UnpackedFloat} (h : Unpacked c u) (hcd : c ≤ d) :
    Unpacked d u := by
  cases h with
  | zero s => exact .zero s
  | finite mantissa exponent => exact .finite mantissa (Int.le_trans exponent hcd)

/-- The double is finite, with an exponent of at most `c`. -/
def UpTo (c : Int) (x : Float) : Prop :=
  Unpacked c x.toModel.unpack

/-- Bits with a small exponent are those of a finite double. -/
theorem unpacked_packComponents (s : Sign) {exponent : BitVec 11} (mantissa : BitVec 52) {c : Int}
    (hfinite : exponent.toNat < 2047) (hexponent : (exponent.toNat : Int) ≤ c + 1075)
    (hc : -1074 ≤ c) :
    Unpacked c (UnpackedFloat.unpack Format.binary64
      (packComponents Format.binary64 s exponent mantissa)) := by
  have hnone : exponent ≠ -1#_ := by
    rintro rfl
    exact absurd hfinite (by decide)
  unfold UnpackedFloat.unpack
  extract_lets mantissaVec exponentVec unbiased signVec sign
  have hsame : exponentVec = exponent := unpackExponent_packComponents
  have hunbiased : unbiased = (exponent.toNat : Int) - 1075 := by
    rw [← hsame]
    rfl
  rw [if_neg (hsame ▸ hnone)]
  by_cases hleast : exponentVec = 0#_
  · rw [if_pos hleast]
    rw [hsame] at hleast
    by_cases hzero : mantissaVec = 0#_
    · rw [dif_pos hzero]
      exact .zero _
    · rw [dif_neg hzero]
      refine .finite (Nat.lt_trans mantissaVec.isLt (by decide)) ?_
      rw [hunbiased, hleast]
      simp
      omega
  · rw [if_neg hleast]
    refine .finite (1#1 ++ mantissaVec).isLt ?_
    omega

/-- A result that is not too large is packed into a finite double. -/
theorem upTo_pack {u : UnpackedFloat} {c : Int} (h : ExponentLe c u) (hc : -1074 ≤ c)
    (hmax : c ≤ 970) : UpTo c (.ofModel (.pack u)) := by
  show Unpacked c (UnpackedFloat.unpack Format.binary64 (UnpackedFloat.pack Format.binary64 u))
  cases h with
  | zero s => exact unpacked_packComponents s _ (by decide) (by simp; omega) hc
  | @finite s m e hm hexponent =>
    have hbias : e + Format.binary64.exponentBias + Format.binary64.mantissaBitsWithoutImplicit =
        e + 1075 := by
      show e + 1023 + 52 = _
      omega
    have hfinite : ¬ 2 ^ Format.binary64.exponentBits ≤ (e + 1075).toNat + 1 := by
      show ¬ 2 ^ 11 ≤ _
      omega
    unfold UnpackedFloat.pack
    simp only [hbias, if_neg hfinite]
    split
    · have hkept : (BitVec.ofNat 11 (e + 1075).toNat).toNat = (e + 1075).toNat := by
        rw [BitVec.toNat_ofNat, Nat.mod_eq_of_lt (by omega)]
      refine unpacked_packComponents s _ ?_ ?_ hc
      · rw [hkept]
        omega
      · rw [hkept]
        omega
    · exact unpacked_packComponents s _ (by decide) (by simp; omega) hc

/-! ## Operations -/

theorem exponentLe_mul {m₁ m₂ n : Nat} {e₁ e₂ c : Int} (s t : Sign) (hm₁ : 0 < m₁) (hm₂ : 0 < m₂)
    (hm : m₁ * m₂ < 1 <<< n) (hn : 1 ≤ n) (hvalue : n + (e₁ + e₂) ≤ c + 52) (he : e₁ + e₂ ≤ c)
    (hc : -1074 ≤ c) :
    ExponentLe c (UnpackedFloat.mul Format.binary64 (.finite s m₁ e₁ hm₁) (.finite t m₂ e₂ hm₂)) :=
  exponentLe_roundWithAccuracy _ _ hm hn hvalue he hc

theorem UpTo.mul {c d : Int} {x y : Float} (hx : UpTo c x) (hy : UpTo d y) (hmin : -1128 ≤ c + d)
    (hmax : c + d ≤ 916) : UpTo (c + d + 54) (x * y) := by
  refine upTo_pack ?_ (by omega) (by omega)
  unfold UpTo at hx hy
  generalize x.toModel.unpack = u at hx
  generalize y.toModel.unpack = v at hy
  cases hx with
  | zero s =>
    cases hy with
    | zero => exact .zero _
    | finite => exact .zero _
  | @finite s m₁ e₁ hm₁ mantissa₁ exponent₁ =>
    cases hy with
    | zero => exact .zero _
    | @finite t m₂ e₂ hm₂ mantissa₂ exponent₂ =>
      have hproduct := mul_lt_shift mantissa₁ mantissa₂
      exact exponentLe_mul s t hm₁ hm₂ hproduct (by decide) (by omega) (by omega) (by omega)

theorem UpTo.add {c : Int} {x y : Float} (hx : UpTo c x) (hy : UpTo c y) (hmin : -1076 ≤ c)
    (hmax : c ≤ 968) : UpTo (c + 2) (x + y) := by
  refine upTo_pack ?_ (by omega) (by omega)
  unfold UpTo at hx hy
  generalize x.toModel.unpack = u at hx
  generalize y.toModel.unpack = v at hy
  cases hx with
  | zero s =>
    cases hy with
    | zero t =>
      change ExponentLe _ (if s == t then .zero s else .zero .positive)
      split
      · exact .zero s
      · exact .zero .positive
    | finite mantissa exponent => exact .finite (by omega)
  | @finite s m₁ e₁ hm₁ mantissa₁ exponent₁ =>
    cases hy with
    | zero => exact .finite (by omega)
    | @finite t m₂ e₂ hm₂ mantissa₂ exponent₂ =>
      -- both mantissas are filled up to the smaller exponent
      obtain ⟨common, hcommon⟩ : ∃ common, min e₁ e₂ = common := ⟨_, rfl⟩
      obtain ⟨filled, hfilled⟩ : ∃ filled : Nat, (c - common).toNat = filled := ⟨_, rfl⟩
      have hfill : ∀ {m : Nat} {e : Int}, m < 1 <<< 53 → e ≤ c →
          m <<< (e - common).toNat < 1 <<< (53 + filled) :=
        fun hm he => lt_shift_of_le (shiftLeft_lt hm _) (by omega)
      have h₁ := hfill mantissa₁ exponent₁
      have h₂ := hfill mantissa₂ exponent₂
      unfold UnpackedFloat.add decreaseExponent
      simp only [hcommon]
      generalize m₁ <<< (e₁ - common).toNat = a at h₁
      generalize m₂ <<< (e₂ - common).toNat = b at h₂
      have hsum : (s.apply (a : Int) + t.apply (b : Int)).natAbs < 1 <<< (53 + filled + 1) := by
        rw [Nat.shiftLeft_succ]
        cases s <;> cases t <;> simp only [Sign.apply] <;> omega
      exact exponentLe_normalize _ hsum (by omega) (by omega) (by omega)

/-- A quotient is at most as large as what is divided, apart from the zeros that its mantissa is filled
up with. -/
theorem UpTo.div_giga {c : Int} {x : Float} (hx : UpTo c x) (hmin : -1098 ≤ c) (hmax : c ≤ 946) :
    UpTo (c + 24) (x / 1.0e9) := by
  refine upTo_pack ?_ (by omega) (by omega)
  have hgiga : (1.0e9 : Float).toModel.unpack =
      .finite .positive (1000000000 * 2 ^ 23) (-23) (by decide) := rfl
  unfold UpTo at hx
  change ExponentLe _
    (UnpackedFloat.div Format.binary64 x.toModel.unpack (1.0e9 : Float).toModel.unpack)
  rw [hgiga]
  generalize x.toModel.unpack = u at hx
  cases hx with
  | zero s => exact .zero _
  | @finite s m e hm mantissa exponent =>
    unfold UnpackedFloat.div divCore
    dsimp only
    obtain ⟨target, htarget⟩ : ∃ target, min (e - -23) (Format.binary64.targetExponent
      (totalExponent m e - totalExponent (1000000000 * 2 ^ 23) (-23))) = target := ⟨_, rfl⟩
    obtain ⟨filled, hfilled⟩ : ∃ filled : Nat, (e - -23 - target).toNat = filled := ⟨_, rfl⟩
    simp only [htarget, hfilled]
    have hquotient : m <<< filled / (1000000000 * 2 ^ 23) < 1 <<< (53 + filled) :=
      Nat.lt_of_le_of_lt (Nat.div_le_self _ _) (shiftLeft_lt mantissa filled)
    exact exponentLe_roundWithAccuracy _ _ hquotient (by omega) (by omega) (by omega) (by omega)

theorem upTo_toFloat {n : UInt64} {bits : Nat} (hn : n.toNat < 1 <<< bits) (hbits : 1 ≤ bits)
    (hmax : bits ≤ 64) : UpTo (bits - 52) n.toFloat := by
  have hmantissa : (n.toNat : Int).natAbs < 1 <<< bits := by simpa using hn
  refine upTo_pack ?_ (by omega) (by omega)
  exact exponentLe_normalize _ hmantissa hbits (by omega) (by omega)

theorem exponentLe_ofScientific {n bits : Nat} {c : Int} (hn : n < 1 <<< bits) (hbits : 1 ≤ bits)
    (hc : bits - 52 ≤ c) :
    ExponentLe c (UnpackedFloat.ofScientific Format.binary64 n (Int.ofNat 0)) := by
  unfold UnpackedFloat.ofScientific
  by_cases hzero : n = 0
  · rw [dif_pos hzero]
    exact .zero _
  · have hsmall : ¬ Int.ofNat 0 < -(2 ^ Format.binary64.exponentBits + (n.log2 : Int)) := by
      show ¬ (0 : Int) < -(2048 + n.log2)
      omega
    rw [dif_neg hzero, if_neg (by decide), if_neg hsmall, if_pos (by decide)]
    -- the mantissa is filled up to its full length, and the power of ten is one
    have hfilled : n <<< Format.binary64.mantissaBits * 10 ^ (Int.ofNat 0).toNat <
        1 <<< (bits + 53) := by
      show n <<< 53 * 1 < _
      rw [Nat.mul_one]
      exact shiftLeft_lt hn 53
    have hmin : -(Format.binary64.mantissaBits : Int) = -53 := rfl
    refine exponentLe_mul _ _ _ _ hfilled ?_ ?_ ?_ ?_
    all_goals omega

/-- A natural number of so many bits. -/
theorem upTo_ofNat {n bits : Nat} (hn : n < 1 <<< bits) (hbits : 1 ≤ bits) (hmax : bits ≤ 64) :
    UpTo (bits - 50) (Float.ofNat n) := by
  show UpTo _ (Float.ofScientific n false 0)
  unfold Float.ofScientific
  split
  · rename_i hsmall
    have hone : UpTo (-52) (Float.ofBits 0x3FF0000000000000) := .finite (by decide) (by decide)
    have hfast : UpTo (bits - 52) n.toUInt64.toFloat := by
      apply upTo_toFloat _ hbits hmax
      rw [Nat.toUInt64, UInt64.toNat_ofNat', Nat.mod_eq_of_lt (by omega)]
      exact hn
    exact (hfast.mul hone (by omega) (by omega)).mono (by omega)
  · refine upTo_pack ?_ (by omega) (by omega)
    exact exponentLe_ofScientific hn hbits (by omega)

/-- Fewer than `2 ^ 55` whole seconds, and some billionths of a second. -/
theorem upTo_seconds {whole billionths : Nat} (hwhole : whole < 1 <<< 55)
    (hbillionths : billionths < 1 <<< 30) :
    UpTo 7 (Float.ofNat whole + Float.ofNat billionths / 1.0e9) := by
  have hfraction : UpTo 4 (Float.ofNat billionths / 1.0e9) :=
    (upTo_ofNat hbillionths (by decide) (by decide)).div_giga (by decide) (by decide)
  exact (upTo_ofNat hwhole (by decide) (by decide)).add (hfraction.mono (by decide)) (by decide)
    (by decide)

/-! ## Order -/

/-- A double whose exponent is smaller lies below a positive one. -/
theorem Unpacked.lt_finite {c e : Int} {m : Nat} {hm : 0 < m} {u : UnpackedFloat} (h : Unpacked c u)
    (hc : c < e) : u.lt (.finite .positive m e hm) = true := by
  cases h with
  | zero s => rfl
  | @finite s n d hn mantissa exponent =>
    cases s with
    | negative => rfl
    | positive =>
      have hless : compare d e = .lt := Int.compare_eq_lt.mpr (by omega)
      show (some ((compare d e).then (compare n m)) == some .lt) = true
      rw [hless]
      rfl

/-- Exponents are compared before mantissas. -/
theorem then_compare_lt {d e f : Int} {m n k : Nat}
    (h₁ : ((compare d e).then (compare m n)).isLE = true)
    (h₂ : (compare e f).then (compare n k) = .lt) : (compare d f).then (compare m k) = .lt := by
  rw [Ordering.isLE_then_iff_or] at h₁
  rw [Ordering.then_eq_lt] at h₂ ⊢
  simp only [Int.compare_eq_lt, Nat.compare_eq_lt, Int.compare_eq_eq, Nat.isLE_compare] at *
  omega

/-- What is not larger than something below a positive double lies below it too. -/
theorem lt_finite_of_le {e : Int} {m : Nat} {hm : 0 < m} {u v : UnpackedFloat} (huv : u.le v = true)
    (hv : v.lt (.finite .positive m e hm) = true) : u.lt (.finite .positive m e hm) = true := by
  -- only two positive doubles are compared by their parts
  cases u with
  | notANumber => exact absurd huv Bool.false_ne_true
  | zero s => rfl
  | infinity s =>
    cases s with
    | negative => rfl
    | positive =>
      cases v with
      | notANumber => exact absurd huv Bool.false_ne_true
      | zero t => exact absurd huv Bool.false_ne_true
      | infinity t =>
        cases t with
        | negative => exact absurd huv Bool.false_ne_true
        | positive => exact absurd hv Bool.false_ne_true
      | finite t k f hk => exact absurd huv Bool.false_ne_true
  | finite s n d hn =>
    cases s with
    | negative => rfl
    | positive =>
      cases v with
      | notANumber => exact absurd huv Bool.false_ne_true
      | zero t => exact absurd huv Bool.false_ne_true
      | infinity t =>
        cases t with
        | negative => exact absurd huv Bool.false_ne_true
        | positive => exact absurd hv Bool.false_ne_true
      | finite t k f hk =>
        cases t with
        | negative => exact absurd huv Bool.false_ne_true
        | positive =>
          have hless : some ((compare f e).then (compare k m)) = some .lt := eq_of_beq hv
          have htrans := then_compare_lt huv (Option.some.inj hless)
          exact beq_iff_eq.mpr (congrArg some htrans)

theorem double_le_iff {x y : Float} : x ≤ y ↔ x.toModel.unpack.le y.toModel.unpack = true := by
  show decide (x.toModel.unpack.le y.toModel.unpack = true) = true ↔ _
  exact decide_eq_true_iff

theorem double_lt_iff {x y : Float} : x < y ↔ x.toModel.unpack.lt y.toModel.unpack = true := by
  show decide (x.toModel.unpack.lt y.toModel.unpack = true) = true ↔ _
  exact decide_eq_true_iff

theorem double_lt_of_le_of_lt {x y z : Float} {e : Int} {m : Nat} {hm : 0 < m}
    (hz : z.toModel.unpack = .finite .positive m e hm) (hxy : x ≤ y) (hyz : y < z) : x < z := by
  rw [double_le_iff] at hxy
  rw [double_lt_iff, hz] at *
  exact lt_finite_of_le hxy hyz

theorem UpTo.lt {c e : Int} {x z : Float} {m : Nat} {hm : 0 < m} (hx : UpTo c x) (hc : c < e)
    (hz : z.toModel.unpack = .finite .positive m e hm) : x < z := by
  rw [double_lt_iff, hz]
  exact hx.lt_finite hc

end EcosystemSetup.Decimal

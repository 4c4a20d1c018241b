import UsageRules.Proofs.Decimal.Rounding
import UsageRules.Rule.Generation

/-! Quotients of counts, as doubles. Doubles of larger counts are no smaller (`ofNat_eq`,
`roundedTo_scaled_le`), so a quotient of counts is a number that is not negative
(`Generation.zero_le_quotient`), and one at most if the numerator is no larger than the denominator
(`Generation.quotient_le_one`). Counts of more than 64 bits are cut off, and even then a quotient
that is a number is not negative (`Generation.zero_le_quotient_of_isNumber`). -/

namespace UsageRules

namespace Double

open Float.Model Float.Model.UnpackedFloat

/-! ## Counts as doubles -/

/-- A count with zeros behind it, up to 53 bits. -/
def scaled (n : Nat) : Nat := n <<< (52 - n.log2)

theorem log2_shiftLeft {n : Nat} (hn : 0 < n) (k : Nat) : (n <<< k).log2 = n.log2 + k := by
  induction k with
  | zero => rfl
  | succ k ih =>
    have hne : n <<< k ≠ 0 := by
      rw [Nat.shiftLeft_eq]
      exact Nat.ne_of_gt (Nat.mul_pos hn (Nat.two_pow_pos k))
    rw [Nat.shiftLeft_succ, Nat.log2_two_mul hne, ih, Nat.add_assoc]

theorem log2_scaled {n : Nat} (hn : 0 < n) : (scaled n).log2 = n.log2 + (52 - n.log2) :=
  log2_shiftLeft hn _

theorem le_scaled {n : Nat} (hn : 0 < n) : 2 ^ 52 ≤ scaled n := by
  have hlog := log2_scaled hn
  have hne : scaled n ≠ 0 := by
    intro h
    rw [h, Nat.log2_zero] at hlog
    omega
  exact (Nat.le_log2 hne).mp (by omega)

theorem ofNat_eq {n : Nat} (hn : 0 < n) :
    UnpackedFloat.ofNat Format.binary64 n =
      normal (roundedTo (scaled n) .exact) (n.log2 - 52) := by
  have htarget : Format.binary64.targetExponent (totalExponent n 0) = n.log2 - 52 := by
    change max ((n.log2 : Int) + 1 + 0 - 53) (-1074) = _
    omega
  have hshift : ((0 : Int) - (n.log2 - 52)).toNat = 52 - n.log2 := by omega
  have hgt : compare (n : Int) 0 = .gt := Int.compare_eq_gt.mpr (by omega)
  have hlog := log2_scaled hn
  rw [UnpackedFloat.ofNat, UnpackedFloat.ofInt, UnpackedFloat.normalize, hgt]
  simp only [UnpackedFloat.round, Int.toNat_natCast, htarget, decreaseExponent, hshift]
  rw [← scaled, roundWithAccuracy_eq .exact (le_scaled hn) (by omega), hlog]
  congr 1
  omega

/-- Of two counts of as many bits, the larger one is rounded to the larger mantissa. -/
theorem roundedTo_scaled_le {a b : Nat} (ha : 0 < a) (hab : a ≤ b) (hlog : a.log2 = b.log2) :
    roundedTo (scaled a) .exact ≤ roundedTo (scaled b) .exact := by
  have hscaled : scaled a ≤ scaled b := by
    rw [scaled, scaled, hlog, Nat.shiftLeft_eq, Nat.shiftLeft_eq]
    exact Nat.mul_le_mul_right _ hab
  rw [roundedTo, roundedTo, log2_scaled ha, log2_scaled (by omega), hlog]
  refine roundedMantissa_le (quarters_shiftRight_le ?_ _)
  simp [quarters, ExtendedMantissa.ofMantissaAndAccuracy]
  omega

theorem unpack_toFloat {n : Nat} (hn : 0 < n) (hmax : n < 2 ^ 64) :
    n.toUInt64.toFloat.toModel.unpack = normal (roundedTo (scaled n) .exact) (n.log2 - 52) := by
  have hlog : n.log2 < 64 := (Nat.log2_lt (Nat.ne_of_gt hn)).mpr hmax
  have htoNat : n.toUInt64.toNat = n := UInt64.toNat_ofNat_of_lt hmax
  have hlo := le_roundedTo .exact (le_scaled hn)
  have hhi := roundedTo_le .exact (le_scaled hn)
  change (Float.Model.pack (UnpackedFloat.ofNat Format.binary64 n.toUInt64.toNat)).unpack = _
  rw [htoNat, ofNat_eq hn, unpack_pack_normal hlo hhi (by omega) (by omega)]

theorem place_toFloat_le {a b : Nat} (ha : 0 < a) (hab : a ≤ b) (hmax : b < 2 ^ 64) :
    place a.toUInt64.toFloat ≤ place b.toUInt64.toFloat := by
  have hb : 0 < b := by omega
  rw [place, place, unpack_toFloat ha (by omega), unpack_toFloat hb hmax]
  refine placeOf_normal_le (le_roundedTo _ (le_scaled ha)) (roundedTo_le _ (le_scaled ha))
    (le_roundedTo _ (le_scaled hb)) (roundedTo_le _ (le_scaled hb)) ?_
  have hlog : a.log2 ≤ b.log2 :=
    (Nat.le_log2 (by omega)).mpr ((Nat.log2_self_le (by omega)).trans hab)
  rcases Nat.lt_or_eq_of_le hlog with hlt | heq
  · exact .inl (by omega)
  · exact .inr ⟨by omega, roundedTo_scaled_le ha hab heq⟩

/-! ## Division -/

section Division

variable {m n : Nat} {e f : Int}

/-- The first mantissa gets 53 zeros behind it before it is divided. -/
theorem divCore_eq (hm1 : 2 ^ 52 ≤ m) (hm2 : m < 2 ^ 53) (hn1 : 2 ^ 52 ≤ n) (hn2 : n < 2 ^ 53)
    (hfar : -200 ≤ e - f) :
    divCore Format.binary64 m e n f =
      (m * 2 ^ 53 / n, e - f - 53, accuracyOfFraction (m * 2 ^ 53 % n) n) := by
  have hlogm : m.log2 = 52 := (Nat.log2_eq_iff (by omega)).mpr ⟨hm1, hm2⟩
  have hlogn : n.log2 = 52 := (Nat.log2_eq_iff (by omega)).mpr ⟨hn1, hn2⟩
  have htarget : min (e - f) (Format.binary64.targetExponent
      (totalExponent m e - totalExponent n f)) = e - f - 53 := by
    change min (e - f) (max (((m.log2 : Int) + 1 + e) - ((n.log2 : Int) + 1 + f) - 53) (-1074)) = _
    omega
  have hshift : (e - f - (e - f - 53)).toNat = 53 := by omega
  rw [divCore, htarget, hshift, Nat.shiftLeft_eq]

/-- A quotient of 54 bits of mantissas of which the first is no larger is that of equal mantissas,
and exact. -/
theorem divided_eq_of_le (hn : 0 < n) (hmn : m ≤ n) (hlog : 53 ≤ (m * 2 ^ 53 / n).log2)
    (hq : m * 2 ^ 53 / n ≠ 0) :
    m * 2 ^ 53 / n = 2 ^ 53 ∧ accuracyOfFraction (m * 2 ^ 53 % n) n = .exact := by
  have hmul : 2 ^ 53 * n ≤ m * 2 ^ 53 := (Nat.le_div_iff_mul_le hn).mp ((Nat.le_log2 hq).mp hlog)
  obtain rfl : m = n := by omega
  refine ⟨Nat.mul_div_cancel_left _ hn, ?_⟩
  rw [Nat.mul_mod_right]
  rfl

/-- The quotient of two normal doubles whose exponents are not far apart is a normal double, and
one at most if the first is no greater than the second. -/
theorem div_normal (hm : 0 < m) (hn : 0 < n) (hm1 : 2 ^ 52 ≤ m) (hm2 : m < 2 ^ 53)
    (hn1 : 2 ^ 52 ≤ n) (hn2 : n < 2 ^ 53) (hfar : -200 ≤ e - f ∧ e - f ≤ 200) :
    ∃ r g, UnpackedFloat.div Format.binary64 (.finite .positive m e hm) (.finite .positive n f hn) =
        normal r g ∧
      2 ^ 52 ≤ r ∧ r ≤ 2 ^ 53 ∧ -300 ≤ g ∧ g ≤ 300 ∧
      (e < f ∨ e = f ∧ m ≤ n → g < -52 ∨ g = -52 ∧ r = 2 ^ 52) := by
  have hcore := divCore_eq hm1 hm2 hn1 hn2 hfar.1
  have hq1 : 2 ^ 52 ≤ m * 2 ^ 53 / n := (Nat.le_div_iff_mul_le hn).mpr (by omega)
  have hq2 : m * 2 ^ 53 / n < 2 ^ 54 := (Nat.div_lt_iff_lt_mul hn).mpr (by omega)
  have hexact := fun (hmn : m ≤ n) hlog => divided_eq_of_le hn hmn hlog (by omega)
  obtain ⟨q, hq⟩ : ∃ q, m * 2 ^ 53 / n = q := ⟨_, rfl⟩
  obtain ⟨accuracy, haccuracy⟩ : ∃ a, accuracyOfFraction (m * 2 ^ 53 % n) n = a := ⟨_, rfl⟩
  rw [hq] at hcore hq1 hq2 hexact
  rw [haccuracy] at hcore hexact
  have hlog1 : 52 ≤ q.log2 := (Nat.le_log2 (by omega)).mpr hq1
  have hlog2 : q.log2 < 54 := (Nat.log2_lt (by omega)).mpr hq2
  refine ⟨roundedTo q accuracy, e - f - 53 + (q.log2 - 52 : Nat), ?_,
    le_roundedTo accuracy hq1, roundedTo_le accuracy hq1, by omega, by omega, fun hle => ?_⟩
  · change (match divCore Format.binary64 m e n f with
      | (m, e, acc) => roundWithAccuracy Format.binary64 .positive m e acc) = _
    rw [hcore]
    exact roundWithAccuracy_eq accuracy hq1 (by omega)
  · by_cases hlog : q.log2 = 52
    · exact .inl (by omega)
    rcases hle with hlt | ⟨heq, hmn⟩
    · exact .inl (by omega)
    · obtain ⟨rfl, rfl⟩ := hexact hmn (by omega)
      have : (2 ^ 53 : Nat).log2 = 53 := by decide
      exact .inr ⟨by omega, by decide⟩

end Division

end Double

/-! ## Quotients -/

namespace Generation

open Double Float.Model Float.Model.UnpackedFloat

variable {a b : Nat}

theorem quotient_zero (hb : 0 < b) (hmax : b < 2 ^ 64) :
    (quotient 0 b).toModel.unpack = .zero .positive := by
  obtain ⟨n, f, hn, heq, -⟩ := exists_normal (le_roundedTo .exact (le_scaled hb))
    (roundedTo_le .exact (le_scaled hb)) (b.log2 - 52)
  have hzero : (0 : Nat).toUInt64.toFloat.toModel.unpack = .zero .positive := rfl
  change (Float.Model.pack (UnpackedFloat.div Format.binary64
    (0 : Nat).toUInt64.toFloat.toModel.unpack b.toUInt64.toFloat.toModel.unpack)).unpack = _
  rw [unpack_toFloat hb hmax, hzero, heq]
  have hdiv : UnpackedFloat.div Format.binary64 (.zero .positive) (.finite .positive n f hn) =
    .zero .positive := rfl
  rw [hdiv]
  rfl

theorem quotient_pos (ha : 0 < a) (hamax : a < 2 ^ 64) (hb : 0 < b) (hbmax : b < 2 ^ 64) :
    ∃ r g, (quotient a b).toModel.unpack = normal r g ∧ 2 ^ 52 ≤ r ∧ r ≤ 2 ^ 53 ∧
      (a ≤ b → g < -52 ∨ g = -52 ∧ r = 2 ^ 52) := by
  obtain ⟨m, e, hm, heqa, hm1, hm2, hcasesa⟩ := exists_normal (le_roundedTo .exact (le_scaled ha))
    (roundedTo_le .exact (le_scaled ha)) (a.log2 - 52)
  obtain ⟨n, f, hn, heqb, hn1, hn2, hcasesb⟩ := exists_normal (le_roundedTo .exact (le_scaled hb))
    (roundedTo_le .exact (le_scaled hb)) (b.log2 - 52)
  have hloga : a.log2 < 64 := (Nat.log2_lt (Nat.ne_of_gt ha)).mpr hamax
  have hlogb : b.log2 < 64 := (Nat.log2_lt (Nat.ne_of_gt hb)).mpr hbmax
  have hfar : -200 ≤ e - f ∧ e - f ≤ 200 := by omega
  obtain ⟨r, g, hdiv, hr1, hr2, hg1, hg2, hle⟩ := div_normal hm hn hm1 hm2 hn1 hn2 hfar
  refine ⟨r, g, ?_, hr1, hr2, fun hab => hle ?_⟩
  · change (Float.Model.pack (UnpackedFloat.div Format.binary64
      a.toUInt64.toFloat.toModel.unpack b.toUInt64.toFloat.toModel.unpack)).unpack = _
    rw [unpack_toFloat ha hamax, unpack_toFloat hb hbmax, heqa, heqb, hdiv,
      unpack_pack_normal hr1 hr2 (by omega) (by omega)]
  · have hplace := place_toFloat_le ha hab hbmax
    rwa [place, place, unpack_toFloat ha hamax, unpack_toFloat hb hbmax, heqa, heqb,
      placeOf_positive_le] at hplace

theorem zero_le_quotient (ha : a < 2 ^ 64) (hb : 0 < b) (hbmax : b < 2 ^ 64) :
    (0.0 : Float) ≤ quotient a b := by
  have hzero : (0.0 : Float).toModel.unpack = .zero .positive := rfl
  rw [le_iff_place, place, place, hzero]
  refine ⟨rfl, ?_⟩
  rcases Nat.eq_zero_or_pos a with rfl | hpos
  · have hquotient := quotient_zero hb hbmax
    refine ⟨?_, by rw [hquotient]⟩
    change (quotient 0 b).toModel.unpack.isNaN = false
    rw [hquotient]
    rfl
  · obtain ⟨r, g, hquotient, hr1, hr2, -⟩ := quotient_pos hpos ha hb hbmax
    obtain ⟨m, g', hm, hnormal, -⟩ := exists_normal hr1 hr2 g
    rw [hnormal] at hquotient
    refine ⟨?_, ?_⟩
    · change (quotient a b).toModel.unpack.isNaN = false
      rw [hquotient]
      rfl
    · rw [hquotient]
      simp [placeOf, Prod.Lex.toLex_le_toLex]

theorem quotient_mod (a b : Nat) : quotient (a % 2 ^ 64) (b % 2 ^ 64) = quotient a b := by
  have hmod (n : Nat) : (n % 2 ^ 64).toUInt64 = n.toUInt64 := UInt64.ofNat_mod_size
  rw [quotient, quotient, hmod, hmod]

theorem quotient_by_zero (ha : 0 < a) (hmax : a < 2 ^ 64) :
    (quotient a 0).toModel.unpack = .infinity .positive := by
  obtain ⟨m, e, hm, heq, -⟩ := exists_normal (le_roundedTo .exact (le_scaled ha))
    (roundedTo_le .exact (le_scaled ha)) (a.log2 - 52)
  have hzero : (0 : Nat).toUInt64.toFloat.toModel.unpack = .zero .positive := rfl
  change (Float.Model.pack (UnpackedFloat.div Format.binary64
    a.toUInt64.toFloat.toModel.unpack (0 : Nat).toUInt64.toFloat.toModel.unpack)).unpack = _
  rw [unpack_toFloat ha hmax, hzero, heq]
  have hdiv : UnpackedFloat.div Format.binary64 (.finite .positive m e hm) (.zero .positive) =
    .infinity .positive := rfl
  rw [hdiv]
  rfl

theorem zero_le_quotient_of_isNumber (h : IsNumber (quotient a b)) :
    (0.0 : Float) ≤ quotient a b := by
  rw [← quotient_mod a b] at h ⊢
  have hamax : a % 2 ^ 64 < 2 ^ 64 := Nat.mod_lt a (by decide)
  have hbmax : b % 2 ^ 64 < 2 ^ 64 := Nat.mod_lt b (by decide)
  rcases Nat.eq_zero_or_pos (b % 2 ^ 64) with hb | hb
  · rw [hb] at h ⊢
    rcases Nat.eq_zero_or_pos (a % 2 ^ 64) with ha | ha
    · -- Zero divided by zero is not a number.
      have hnan : (quotient 0 0).isNaN = true := by decide +kernel
      rw [ha] at h
      exact absurd (Eq.trans (Eq.symm h) hnan) Bool.false_ne_true
    · have hzero : (0.0 : Float).toModel.unpack = .zero .positive := rfl
      refine le_iff_place.mpr ⟨rfl, h, ?_⟩
      rw [place, place, hzero, quotient_by_zero ha hamax]
      decide
  · exact zero_le_quotient hamax hb hbmax

theorem quotient_le_one (hb : 0 < b) (hmax : b < 2 ^ 64) (hab : a ≤ b) :
    quotient a b ≤ (1.0 : Float) := by
  have hone : (1.0 : Float).toModel.unpack = normal (2 ^ 52) (-52) := rfl
  have hnumber := (le_iff_place.mp (zero_le_quotient (Nat.lt_of_le_of_lt hab hmax) hb hmax)).2.1
  refine le_iff_place.mpr ⟨hnumber, rfl, ?_⟩
  rw [place, place, hone]
  rcases Nat.eq_zero_or_pos a with rfl | hpos
  · rw [quotient_zero hb hmax]
    decide
  · obtain ⟨r, g, hquotient, hr1, hr2, hle⟩ :=
      quotient_pos hpos (Nat.lt_of_le_of_lt hab hmax) hb hmax
    rw [hquotient]
    refine placeOf_normal_le hr1 hr2 (by decide) (by decide) ?_
    rcases hle hab with hlt | ⟨heq, hr⟩
    · exact .inl hlt
    · exact .inr ⟨heq, Nat.le_of_eq hr⟩

end Generation

end UsageRules

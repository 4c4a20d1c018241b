import UsageRules.Proofs.Decimal.Comparison

/-! Rounding to doubles. Rounding a mantissa is monotone (`roundedMantissa_le`), and what is large
enough for a normal double rounds to one of a mantissa of 53 bits (`roundWithAccuracy_eq`), which
survives packing (`unpack_pack_normal`). -/

namespace UsageRules

namespace Double

open Float.Model Float.Model.UnpackedFloat

/-! ## Mantissas with residual bits -/

/-- A mantissa with its two residual bits, as one number. -/
def quarters (em : ExtendedMantissa) : Nat :=
  4 * em.mantissa + 2 * em.roundBit.toNat + em.stickyBit.toNat

theorem quarters_shiftRightOne_le {em em' : ExtendedMantissa} (h : quarters em ≤ quarters em') :
    quarters em.shiftRightOne ≤ quarters em'.shiftRightOne := by
  have hquarters : ∀ em : ExtendedMantissa, quarters em.shiftRightOne =
      2 * em.mantissa + (em.roundBit || em.stickyBit).toNat := by
    rintro ⟨m, r, s⟩
    have hmod : m % 2 = 0 ∨ m % 2 = 1 := by omega
    rcases hmod with hmod | hmod <;>
      simp [quarters, ExtendedMantissa.shiftRightOne, hmod] <;> omega
  rw [hquarters, hquarters]
  obtain ⟨m, r, s⟩ := em
  obtain ⟨m', r', s'⟩ := em'
  simp only [quarters] at h ⊢
  cases r <;> cases s <;> cases r' <;> cases s' <;> simp at h ⊢ <;> omega

theorem quarters_shiftRight_le {em em' : ExtendedMantissa} (h : quarters em ≤ quarters em')
    (n : Nat) : quarters (em >>> n) ≤ quarters (em' >>> n) := by
  induction n with
  | zero => exact h
  | succ n ih => exact quarters_shiftRightOne_le ih

theorem mantissa_shiftRight (em : ExtendedMantissa) (n : Nat) :
    (em >>> n).mantissa = em.mantissa / 2 ^ n := by
  induction n with
  | zero => exact (Nat.div_one _).symm
  | succ n ih =>
    change (em >>> n).mantissa / 2 = em.mantissa / 2 ^ (n + 1)
    rw [ih, Nat.div_div_eq_div_mul, Nat.pow_succ]

theorem mantissa_le_roundedMantissa (em : ExtendedMantissa) :
    em.mantissa ≤ em.roundedMantissa := by
  obtain ⟨m, r, s⟩ := em
  cases r <;> cases s <;>
    simp [ExtendedMantissa.roundedMantissa, ExtendedMantissa.accuracy,
      Accuracy.roundToNearestEven]

theorem roundedMantissa_le_succ (em : ExtendedMantissa) :
    em.roundedMantissa ≤ em.mantissa + 1 := by
  obtain ⟨m, r, s⟩ := em
  cases r <;> cases s <;>
    simp [ExtendedMantissa.roundedMantissa, ExtendedMantissa.accuracy,
      Accuracy.roundToNearestEven]
  omega

theorem roundedMantissa_le {em em' : ExtendedMantissa} (h : quarters em ≤ quarters em') :
    em.roundedMantissa ≤ em'.roundedMantissa := by
  by_cases hlt : em.mantissa < em'.mantissa
  · exact (roundedMantissa_le_succ em).trans
      (Nat.le_trans hlt (mantissa_le_roundedMantissa em'))
  · obtain ⟨m, r, s⟩ := em
    obtain ⟨m', r', s'⟩ := em'
    simp only [quarters] at h hlt
    have heq : m = m' := by
      cases r <;> cases s <;> cases r' <;> cases s' <;> simp at h <;> omega
    subst heq
    cases r <;> cases s <;> cases r' <;> cases s' <;>
      simp [ExtendedMantissa.roundedMantissa, ExtendedMantissa.accuracy,
        Accuracy.roundToNearestEven] at h ⊢
    all_goals omega

theorem mantissa_ofMantissaAndAccuracy (m : Nat) (accuracy : Accuracy) :
    (ExtendedMantissa.ofMantissaAndAccuracy m accuracy).mantissa = m := by
  cases accuracy with
  | exact => rfl
  | inexact o => cases o <;> rfl

/-! ## Normal doubles -/

/-- The positive double `r * 2 ^ e` for a mantissa `r` of 53 bits, or for `2 ^ 53`, to which a
mantissa of 53 bits can be rounded. -/
def normal (r : Nat) (e : Int) : UnpackedFloat :=
  if r = 2 ^ 53 then .finite .positive (2 ^ 52) (e + 1) (by decide)
  else if h : 0 < r then .finite .positive r e h
  else .zero .positive

theorem exists_normal {r : Nat} (hlo : 2 ^ 52 ≤ r) (hhi : r ≤ 2 ^ 53) (e : Int) :
    ∃ m e' hm, normal r e = .finite .positive m e' hm ∧ 2 ^ 52 ≤ m ∧ m < 2 ^ 53 ∧
      (e' = e ∧ m = r ∨ e' = e + 1 ∧ m = 2 ^ 52 ∧ r = 2 ^ 53) := by
  unfold normal
  split
  · rename_i hr
    exact ⟨2 ^ 52, e + 1, by decide, rfl, Nat.le_refl _, by decide, .inr ⟨rfl, rfl, hr⟩⟩
  · rename_i hr
    have hpos : 0 < r := by omega
    rw [dif_pos hpos]
    exact ⟨r, e, hpos, rfl, hlo, by omega, .inl ⟨rfl, rfl⟩⟩

theorem placeOf_normal_le {r r' : Nat} {e e' : Int} (hlo : 2 ^ 52 ≤ r) (hhi : r ≤ 2 ^ 53)
    (hlo' : 2 ^ 52 ≤ r') (hhi' : r' ≤ 2 ^ 53) (h : e < e' ∨ e = e' ∧ r ≤ r') :
    placeOf (normal r e) ≤ placeOf (normal r' e') := by
  obtain ⟨m, f, hm, heq, -, hlt, hcases⟩ := exists_normal hlo hhi e
  obtain ⟨m', f', hm', heq', -, hlt', hcases'⟩ := exists_normal hlo' hhi' e'
  rw [heq, heq', placeOf_positive_le]
  omega

/-! ## Packing -/

theorem toNat_leadingBit {n : Nat} (v : BitVec n) : (1#1 ++ v).toNat = 2 ^ n + v.toNat := by
  rw [BitVec.toNat_append, ← Nat.shiftLeft_add_eq_or_of_lt v.isLt]
  simp [Nat.shiftLeft_eq]

theorem unpack_pack_finite {m : Nat} {e : Int} {hm : 0 < m} (hlo : 2 ^ 52 ≤ m)
    (hhi : m < 2 ^ 53) (hmin : -1074 ≤ e) (hmax : e ≤ 971) :
    (Float.Model.pack (.finite .positive m e hm)).unpack = .finite .positive m e hm := by
  have hlog : m.log2 + 1 = Format.binary64.mantissaBits := by
    rw [(Nat.log2_eq_iff (by omega)).mpr ⟨hlo, hhi⟩]
    rfl
  obtain ⟨b, hb⟩ : ∃ b : Nat, (e + Format.binary64.exponentBias +
      Format.binary64.mantissaBitsWithoutImplicit).toNat = b := ⟨_, rfl⟩
  have hbias : e + Format.binary64.exponentBias +
      Format.binary64.mantissaBitsWithoutImplicit = e + 1075 := by
    change e + 1023 + 52 = _
    omega
  have hexponent : (BitVec.ofNat 11 b).toNat = b := Nat.mod_eq_of_lt (by omega)
  have hfraction : (1#1 ++ BitVec.ofNat 52 m).toNat = m := by
    rw [toNat_leadingBit, BitVec.toNat_ofNat]
    omega
  have hne : ¬BitVec.ofNat 11 b = -1#11 := by
    intro h
    have := congrArg BitVec.toNat h
    rw [hexponent] at this
    simp at this
    omega
  have hne' : ¬BitVec.ofNat 11 b = 0#11 := by
    intro h
    have := congrArg BitVec.toNat h
    rw [hexponent] at this
    simp at this
    omega
  have hfits : ¬2 ^ Format.binary64.exponentBits ≤ b + 1 := by
    change ¬2048 ≤ b + 1
    omega
  change UnpackedFloat.unpack Format.binary64 (UnpackedFloat.pack Format.binary64 _) = _
  simp only [UnpackedFloat.pack, hb, hfits, hlog, if_true, if_false]
  simp only [UnpackedFloat.unpack, unpackSign_packComponents, unpackExponent_packComponents,
    unpackMantissa_packComponents, hne, hne', hfraction, hexponent, if_false]
  have hexp : (b : Int) - (Format.binary64.exponentBias +
      Format.binary64.mantissaBitsWithoutImplicit) = e := by
    change (b : Int) - (1023 + 52) = e
    omega
  simp only [hexp]
  rfl

theorem unpack_pack_normal {r : Nat} {e : Int} (hlo : 2 ^ 52 ≤ r) (hhi : r ≤ 2 ^ 53)
    (hmin : -1074 ≤ e) (hmax : e ≤ 970) :
    (Float.Model.pack (normal r e)).unpack = normal r e := by
  obtain ⟨m, e', hm, heq, hlo', hhi', hcases⟩ := exists_normal hlo hhi e
  rw [heq]
  exact unpack_pack_finite hlo' hhi' (by omega) (by omega)

/-! ## Rounding to a normal double -/

theorem shiftToTargetExponent_eq {m : Nat} {e : Int} (accuracy : Accuracy) (hm : 2 ^ 52 ≤ m)
    (hmin : -1074 ≤ e + (m.log2 - 52 : Nat)) :
    shiftToTargetExponent Format.binary64 m e accuracy =
      (ExtendedMantissa.ofMantissaAndAccuracy m accuracy >>> (m.log2 - 52),
        e + (m.log2 - 52 : Nat)) := by
  have hlog : 52 ≤ m.log2 := (Nat.le_log2 (by omega)).mpr hm
  have htarget : Format.binary64.targetExponent (totalExponent m e) = e + (m.log2 - 52 : Nat) := by
    change max ((m.log2 : Int) + 1 + e - 53) (-1074) = _
    omega
  have hshift : (e + (m.log2 - 52 : Nat) - e).toNat = m.log2 - 52 := by omega
  rw [shiftToTargetExponent, htarget, shiftToExponent, hshift]

/-- The mantissa to which a large one is rounded. -/
def roundedTo (m : Nat) (accuracy : Accuracy) : Nat :=
  (ExtendedMantissa.ofMantissaAndAccuracy m accuracy >>> (m.log2 - 52)).roundedMantissa

theorem le_roundedTo {m : Nat} (accuracy : Accuracy) (hm : 2 ^ 52 ≤ m) :
    2 ^ 52 ≤ roundedTo m accuracy := by
  have hlog : 52 ≤ m.log2 := (Nat.le_log2 (by omega)).mpr hm
  refine Nat.le_trans ?_ (mantissa_le_roundedMantissa _)
  rw [mantissa_shiftRight, mantissa_ofMantissaAndAccuracy,
    Nat.le_div_iff_mul_le (Nat.two_pow_pos _), ← Nat.pow_add]
  calc 2 ^ (52 + (m.log2 - 52)) = 2 ^ m.log2 := by congr 1; omega
    _ ≤ m := Nat.log2_self_le (by omega)

theorem roundedTo_le {m : Nat} (accuracy : Accuracy) (hm : 2 ^ 52 ≤ m) :
    roundedTo m accuracy ≤ 2 ^ 53 := by
  have hlog : 52 ≤ m.log2 := (Nat.le_log2 (by omega)).mpr hm
  refine Nat.le_trans (roundedMantissa_le_succ _) ?_
  rw [mantissa_shiftRight, mantissa_ofMantissaAndAccuracy, Nat.add_one_le_iff,
    Nat.div_lt_iff_lt_mul (Nat.two_pow_pos _), ← Nat.pow_add]
  calc m < 2 ^ (m.log2 + 1) := Nat.lt_log2_self
    _ = 2 ^ (53 + (m.log2 - 52)) := by congr 1; omega

/-- Only a mantissa that rounding carried over is shifted once more. -/
theorem shift_rounded {r : Nat} {e : Int} (hlo : 2 ^ 52 ≤ r) (hhi : r ≤ 2 ^ 53)
    (hmin : -1074 ≤ e) :
    (let p := shiftToTargetExponent Format.binary64 r e .exact
    if h : p.1.mantissa = 0 then .zero .positive
    else .finite .positive p.1.mantissa p.2 (Nat.pos_of_ne_zero h)) = normal r e := by
  simp only [shiftToTargetExponent_eq .exact hlo (by omega : -1074 ≤ e + (r.log2 - 52 : Nat)),
    mantissa_shiftRight, mantissa_ofMantissaAndAccuracy]
  by_cases hr : r = 2 ^ 53
  · subst hr
    rfl
  · have hlog : r.log2 = 52 := (Nat.log2_eq_iff (by omega)).mpr ⟨hlo, by omega⟩
    have hpos : 0 < r := by omega
    rw [normal, if_neg hr, dif_pos hpos]
    simp [hlog, Nat.ne_of_gt hpos]

theorem roundWithAccuracy_eq {m : Nat} {e : Int} (accuracy : Accuracy) (hm : 2 ^ 52 ≤ m)
    (hmin : -1074 ≤ e + (m.log2 - 52 : Nat)) :
    roundWithAccuracy Format.binary64 .positive m e accuracy =
      normal (roundedTo m accuracy) (e + (m.log2 - 52 : Nat)) := by
  rw [roundWithAccuracy, shiftToTargetExponent_eq accuracy hm hmin,
    ← shift_rounded (le_roundedTo accuracy hm) (roundedTo_le accuracy hm) hmin]
  rfl

end Double

end UsageRules

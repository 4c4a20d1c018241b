import Mathlib

/-! Comparing doubles. Doubles that are numbers are linearly ordered: by sign, then by exponent,
then by mantissa (`lt_iff_place`, `le_iff_place`, `beq_iff_place`). -/

namespace UsageRules

namespace Double

open Float.Model (UnpackedFloat)

/-! ## The place of a double -/

/-- Where a double stands among the others. Both zeros have the same place. -/
def placeOf : UnpackedFloat → ℤ ×ₗ ℤ ×ₗ ℤ
  | .infinity .negative => toLex (-2, toLex (0, 0))
  | .finite .negative m e _ => toLex (-1, toLex (-e, -m))
  | .zero _ | .notANumber => toLex (0, toLex (0, 0))
  | .finite .positive m e _ => toLex (1, toLex (e, m))
  | .infinity .positive => toLex (2, toLex (0, 0))

def place (x : Float) : ℤ ×ₗ ℤ ×ₗ ℤ := placeOf x.toModel.unpack

/-- The double is a number or an infinity. -/
def IsNumber (x : Float) : Prop := x.isNaN = false

theorem then_compare_eq_lt {e f : Int} {m n : Nat} :
    (compare e f).then (compare m n) = .lt ↔ e < f ∨ e = f ∧ m < n := by
  rw [Ordering.then_eq_lt, Int.compare_eq_lt, Int.compare_eq_eq, Nat.compare_eq_lt]

theorem then_compare_eq_eq {e f : Int} {m n : Nat} :
    (compare e f).then (compare m n) = .eq ↔ e = f ∧ m = n := by
  rw [Ordering.then_eq_eq, Int.compare_eq_eq, Nat.compare_eq_eq]

theorem then_compare_eq_gt {e f : Int} {m n : Nat} :
    (compare e f).then (compare m n) = .gt ↔ f < e ∨ e = f ∧ n < m := by
  rw [Ordering.then_eq_gt, Int.compare_eq_gt, Int.compare_eq_eq, Nat.compare_eq_gt]

theorem compares_positive {m n : Nat} {e f : Int} {hm : 0 < m} {hn : 0 < n} :
    ((compare e f).then (compare m n)).Compares (placeOf (.finite .positive m e hm))
      (placeOf (.finite .positive n f hn)) := by
  cases ho : (compare e f).then (compare m n) with
  | lt => simpa [placeOf, Prod.Lex.toLex_lt_toLex] using then_compare_eq_lt.mp ho
  | eq =>
    obtain ⟨rfl, rfl⟩ := then_compare_eq_eq.mp ho
    rfl
  | gt => simpa [placeOf, Prod.Lex.toLex_lt_toLex, eq_comm] using then_compare_eq_gt.mp ho

theorem compares_negative {m n : Nat} {e f : Int} {hm : 0 < m} {hn : 0 < n} :
    ((compare e f).then (compare m n)).swap.Compares (placeOf (.finite .negative m e hm))
      (placeOf (.finite .negative n f hn)) := by
  rw [Ordering.compares_swap]
  cases ho : (compare e f).then (compare m n) with
  | lt => simpa [placeOf, Prod.Lex.toLex_lt_toLex, eq_comm] using then_compare_eq_lt.mp ho
  | eq =>
    obtain ⟨rfl, rfl⟩ := then_compare_eq_eq.mp ho
    rfl
  | gt => simpa [placeOf, Prod.Lex.toLex_lt_toLex] using then_compare_eq_gt.mp ho

theorem placeOf_positive_le {m n : Nat} {e f : Int} {hm : 0 < m} {hn : 0 < n} :
    placeOf (.finite .positive m e hm) ≤ placeOf (.finite .positive n f hn) ↔
      e < f ∨ e = f ∧ m ≤ n := by
  simp [placeOf, Prod.Lex.toLex_le_toLex]

/-- Doubles that are numbers compare as their places do. -/
theorem compares_placeOf {x y : UnpackedFloat} (hx : x.isNaN = false) (hy : y.isNaN = false) :
    ∃ o, x.compare y = some o ∧ o.Compares (placeOf x) (placeOf y) := by
  cases x with
  | notANumber => cases hx
  | infinity s =>
    cases y with
    | notANumber => cases hy
    | infinity t =>
      cases s with
      | negative => cases t with
        | negative => exact ⟨.eq, rfl, rfl⟩
        | positive => exact ⟨.lt, rfl, by simp [placeOf, Prod.Lex.toLex_lt_toLex]⟩
      | positive => cases t with
        | negative => exact ⟨.gt, rfl, by simp [placeOf, Prod.Lex.toLex_lt_toLex]⟩
        | positive => exact ⟨.eq, rfl, rfl⟩
    | zero t => cases s <;> exact ⟨_, rfl, by simp [placeOf, Prod.Lex.toLex_lt_toLex]⟩
    | finite t n f hn =>
      cases s <;> cases t <;> exact ⟨_, rfl, by simp [placeOf, Prod.Lex.toLex_lt_toLex]⟩
  | zero s =>
    cases y with
    | notANumber => cases hy
    | infinity t => cases t <;> exact ⟨_, rfl, by simp [placeOf, Prod.Lex.toLex_lt_toLex]⟩
    | zero t => exact ⟨.eq, rfl, rfl⟩
    | finite t n f hn =>
      cases t <;> exact ⟨_, rfl, by simp [placeOf, Prod.Lex.toLex_lt_toLex]⟩
  | finite s m e hm =>
    cases y with
    | notANumber => cases hy
    | infinity t =>
      cases s <;> cases t <;> exact ⟨_, rfl, by simp [placeOf, Prod.Lex.toLex_lt_toLex]⟩
    | zero t => cases s <;> exact ⟨_, rfl, by simp [placeOf, Prod.Lex.toLex_lt_toLex]⟩
    | finite t n f hn =>
      cases s with
      | negative => cases t with
        | positive => exact ⟨.lt, rfl, by simp [placeOf, Prod.Lex.toLex_lt_toLex]⟩
        | negative => exact ⟨_, rfl, compares_negative⟩
      | positive => cases t with
        | positive => exact ⟨_, rfl, compares_positive⟩
        | negative => exact ⟨.gt, rfl, by simp [placeOf, Prod.Lex.toLex_lt_toLex]⟩

theorem isNaN_of_compare_eq_some {x y : UnpackedFloat} {o : Ordering}
    (h : x.compare y = some o) : x.isNaN = false ∧ y.isNaN = false := by
  cases x with
  | notANumber => cases h
  | infinity s => cases y with
    | notANumber => cases s <;> cases h
    | _ => exact ⟨rfl, rfl⟩
  | zero s => cases y with
    | notANumber => cases h
    | _ => exact ⟨rfl, rfl⟩
  | finite s m e hm => cases y with
    | notANumber => cases s <;> cases h
    | _ => exact ⟨rfl, rfl⟩

/-! ## Comparisons -/

section Comparisons

variable {x y z : Float}

theorem compare_eq_some_iff {o : Ordering} :
    x.toModel.unpack.compare y.toModel.unpack = some o ↔
      IsNumber x ∧ IsNumber y ∧ o.Compares (place x) (place y) := by
  constructor
  · intro h
    obtain ⟨hx, hy⟩ := isNaN_of_compare_eq_some h
    obtain ⟨o', ho', hcompares⟩ := compares_placeOf hx hy
    rw [h] at ho'
    cases ho'
    exact ⟨hx, hy, hcompares⟩
  · rintro ⟨hx, hy, hcompares⟩
    obtain ⟨o', ho', hcompares'⟩ := compares_placeOf hx hy
    rw [ho', hcompares'.inj hcompares]

theorem lt_iff_place : x < y ↔ IsNumber x ∧ IsNumber y ∧ place x < place y := by
  change x.lt y = true ↔ _
  rw [Float.lt, decide_eq_true_eq]
  change (x.toModel.unpack.compare y.toModel.unpack == some .lt) = true ↔ _
  rw [beq_iff_eq, compare_eq_some_iff]
  rfl

theorem le_iff_place : x ≤ y ↔ IsNumber x ∧ IsNumber y ∧ place x ≤ place y := by
  change x.le y = true ↔ _
  rw [Float.le, decide_eq_true_eq]
  change (x.toModel.unpack.compare y.toModel.unpack).any (·.isLE) = true ↔ _
  simp only [Option.any_eq_true, compare_eq_some_iff]
  constructor
  · rintro ⟨o, ⟨hx, hy, hcompares⟩, ho⟩
    exact ⟨hx, hy, hcompares.ne_gt.mp (by rintro rfl; cases ho)⟩
  · rintro ⟨hx, hy, hle⟩
    refine ⟨cmp (place x) (place y), ⟨hx, hy, cmp_compares ..⟩, ?_⟩
    rw [Ordering.isLE_iff_ne_gt]
    exact (cmp_compares ..).ne_gt.mpr hle

theorem beq_iff_place : (x == y) = true ↔ IsNumber x ∧ IsNumber y ∧ place x = place y := by
  change (x.toModel.unpack.compare y.toModel.unpack == some .eq) = true ↔ _
  rw [beq_iff_eq, compare_eq_some_iff]
  rfl

theorem le_trans (hxy : x ≤ y) (hyz : y ≤ z) : x ≤ z := by
  rw [le_iff_place] at *
  exact ⟨hxy.1, hyz.2.1, hxy.2.2.trans hyz.2.2⟩

theorem lt_of_le_of_lt (hxy : x ≤ y) (hyz : y < z) : x < z := by
  rw [le_iff_place] at hxy
  rw [lt_iff_place] at *
  exact ⟨hxy.1, hyz.2.1, hxy.2.2.trans_lt hyz.2.2⟩

theorem le_of_lt (h : x < y) : x ≤ y := by
  rw [lt_iff_place] at h
  exact le_iff_place.mpr ⟨h.1, h.2.1, h.2.2.le⟩

theorem lt_trans (hxy : x < y) (hyz : y < z) : x < z := lt_of_le_of_lt (le_of_lt hxy) hyz

theorem le_of_not_lt (hx : IsNumber x) (hy : IsNumber y) (h : ¬x < y) : y ≤ x := by
  rw [lt_iff_place] at h
  exact le_iff_place.mpr ⟨hy, hx, le_of_not_gt fun hlt => h ⟨hx, hy, hlt⟩⟩

theorem not_lt_of_le (h : x ≤ y) : ¬y < x := by
  rw [le_iff_place] at h
  rw [lt_iff_place]
  exact fun hlt => absurd hlt.2.2 (not_lt_of_ge h.2.2)

/-- A double that is no greater than another is equal to it or less. -/
theorem lt_or_beq_of_le (h : x ≤ y) : x < y ∨ (x == y) = true := by
  obtain ⟨hx, hy, hle⟩ := le_iff_place.mp h
  rcases lt_or_eq_of_le hle with hlt | heq
  · exact .inl (lt_iff_place.mpr ⟨hx, hy, hlt⟩)
  · exact .inr (beq_iff_place.mpr ⟨hx, hy, heq⟩)

end Comparisons

end Double

end UsageRules

import UsageRules.Proofs.Version

/-! Tags of decimal numerals with points between them. The numbers of such a tag are those that its
numerals stand for, as long as they are below `2 ^ 64` (`Version.HasNumerals.sortKey_eq`), so of two
such tags the one with the earlier sequence of numbers comes first
(`Version.HasNumerals.before_iff`). -/

namespace UsageRules

namespace Text

theorem splitAll_eq_splitOn (sep : Char) (s : List Char) : splitAll sep s = List.splitOn sep s := by
  induction s with
  | nil => rfl
  | cons c s ih =>
    rw [splitAll, ih, List.splitOn_cons_eq_if_modifyHead]
    by_cases hc : c = sep
    · simp [hc]
    · obtain ⟨part, parts, hparts⟩ := List.exists_cons_of_ne_nil (List.splitOn_ne_nil sep s)
      simp [hc, hparts]

end Text

namespace Version

/-- A decimal numeral: one digit or more. Zeros may stand at its beginning. -/
structure IsNumeral (numeral : List Char) : Prop where
  ne_nil : numeral ≠ []
  digits : numeral.all isAsciiDigit = true

/-- The number that a numeral stands for. -/
def number (numeral : List Char) : Nat := Nat.ofDigitChars 10 numeral 0

/-- The tag is a small v before numerals of numbers below `2 ^ 64`, with points between them. -/
structure HasNumerals (tag : String) (numerals : List (List Char)) : Prop where
  ne_nil : numerals ≠ []
  isNumeral : ∀ numeral ∈ numerals, IsNumeral numeral
  lt : ∀ numeral ∈ numerals, number numeral < UInt64.size
  toList_eq : tag.toList = 'v' :: ['.'].intercalate numerals

instance (numeral : List Char) : Decidable (IsNumeral numeral) :=
  decidable_of_iff (numeral ≠ [] ∧ numeral.all isAsciiDigit = true)
    ⟨fun h => ⟨h.1, h.2⟩, fun h => ⟨h.1, h.2⟩⟩

instance (tag : String) (numerals : List (List Char)) : Decidable (HasNumerals tag numerals) :=
  decidable_of_iff (numerals ≠ [] ∧ (∀ numeral ∈ numerals, IsNumeral numeral) ∧
      (∀ numeral ∈ numerals, number numeral < UInt64.size) ∧
      tag.toList = 'v' :: ['.'].intercalate numerals)
    ⟨fun h => ⟨h.1, h.2.1, h.2.2.1, h.2.2.2⟩, fun h => ⟨h.1, h.2, h.3, h.4⟩⟩

/-! ## Numerals -/

theorem le_ofDigitChars (n : Nat) (ds : List Char) : n ≤ Nat.ofDigitChars 10 ds n := by
  induction ds generalizing n with
  | nil => exact Nat.le_of_eq Nat.ofDigitChars_nil.symm
  | cons d ds ih =>
    rw [Nat.ofDigitChars_cons]
    exact Nat.le_trans (by omega) (ih _)

/-- Digits are taken one by one until a number does not fit into 64 bits, and if the last one fits
so do those before it. -/
theorem foldl_addDigit {n : Nat} {ds : List Char} (h : Nat.ofDigitChars 10 ds n < UInt64.size) :
    ds.foldl addDigit n = Nat.ofDigitChars 10 ds n := by
  induction ds generalizing n with
  | nil => rfl
  | cons d ds ih =>
    have hn : n < UInt64.size := Nat.lt_of_le_of_lt (le_ofDigitChars n (d :: ds)) h
    have hd : addDigit n d = 10 * n + (d.toNat - '0'.toNat) := if_pos hn
    rw [Nat.ofDigitChars_cons] at h ⊢
    rw [List.foldl_cons, hd]
    exact ih h

section
variable {numeral : List Char}

theorem IsNumeral.not_mem (h : IsNumeral numeral) {c : Char} (hc : isAsciiDigit c = false) :
    c ∉ numeral := by
  intro hmem
  rw [List.all_eq_true.mp h.digits c hmem] at hc
  cases hc

theorem IsNumeral.partNumber_eq (h : IsNumeral numeral) (hlt : number numeral < UInt64.size) :
    partNumber numeral = number numeral := by
  have hplus : '+' ∉ numeral := h.not_mem (by decide)
  unfold partNumber
  split
  · exact absurd List.mem_cons_self hplus
  · dsimp only
    rw [if_pos h.digits, foldl_addDigit hlt]
    exact if_pos hlt

end

/-! ## Tags -/

section
variable {tag tag' : String} {numerals numerals' : List (List Char)}

/-- The text after the v does not begin with another one. -/
theorem HasNumerals.dropWhile_eq (h : HasNumerals tag numerals) :
    tag.toList.dropWhile (· = 'v') = ['.'].intercalate numerals := by
  obtain ⟨numeral, rest, rfl⟩ := List.exists_cons_of_ne_nil h.ne_nil
  have hnumeral := h.isNumeral numeral List.mem_cons_self
  obtain ⟨d, ds, rfl⟩ := List.exists_cons_of_ne_nil hnumeral.ne_nil
  have hd : d ≠ 'v' := fun heq =>
    hnumeral.not_mem (c := 'v') (by decide) (heq ▸ List.mem_cons_self)
  rw [h.toList_eq]
  cases rest <;> simp [List.intercalate, hd]

theorem HasNumerals.sortKey_eq (h : HasNumerals tag numerals) :
    sortKey tag = numerals.map number := by
  have hpoint : ∀ numeral ∈ numerals, '.' ∉ numeral := fun numeral hmem =>
    (h.isNumeral numeral hmem).not_mem (by decide)
  rw [sortKey, h.dropWhile_eq, Text.splitAll_eq_splitOn,
    List.splitOn_intercalate '.' hpoint h.ne_nil]
  exact List.map_congr_left fun numeral hmem =>
    (h.isNumeral numeral hmem).partNumber_eq (h.lt numeral hmem)

theorem HasNumerals.before_iff (h : HasNumerals tag numerals) (h' : HasNumerals tag' numerals')
    (hne : numerals.map number ≠ numerals'.map number) :
    Before tag tag' ↔ numerals.map number < numerals'.map number := by
  rw [Before, h.sortKey_eq, h'.sortKey_eq]
  exact or_iff_left fun heq => hne heq.1

end

end Version

end UsageRules

import UsageRules.Json.Parser
import UsageRules.Text.CharClass

/-! A text of white space only is no document (`Json.parse?_of_isBlankText`). -/

namespace UsageRules.Json

theorem ne_of_isBlank {c d : Char} (hc : Text.isBlank c = true) (hd : Text.isBlank d = false) :
    c ≠ d := by
  rintro rfl
  rw [hc] at hd
  cases hd

theorem isBlank_of_isDigit {c : Char} (h : isDigit c = true) : Text.isBlank c = false := by
  obtain ⟨hzero, hnine⟩ := Bool.and_eq_true_iff.mp h
  have hlow : '0'.toNat ≤ c.toNat := UInt32.le_iff_toNat_le.mp (of_decide_eq_true hzero)
  have hhigh : c.toNat ≤ '9'.toNat := UInt32.le_iff_toNat_le.mp (of_decide_eq_true hnine)
  simp only [Text.isBlank, Text.blankRanges, Text.Ranges.has, Text.Ranges.hasCode]
  grind

theorem number?_of_isBlank {c : Char} (s : List Char) (hc : Text.isBlank c = true) :
    number? (c :: s) = none := by
  have hdigit : isDigit c = false := by
    cases h : isDigit c with
    | false => rfl
    | true =>
      rw [isBlank_of_isDigit h] at hc
      cases hc
  have hminus : c ≠ '-' := ne_of_isBlank hc (by decide)
  simp [number?, hminus, unsignedNumber?, whole?, digits, hdigit]

theorem value?_of_isBlank (fuel : Nat) {c : Char} (s : List Char) (hc : Text.isBlank c = true) :
    value? fuel (c :: s) = none := by
  cases fuel with
  | zero => rfl
  | succ fuel =>
    rw [value?.eq_def]
    dsimp only
    split
    case h_7 => exact number?_of_isBlank s hc
    all_goals
      rename_i heq
      exact absurd (List.cons.inj heq).1 (ne_of_isBlank hc (by decide))

theorem parse?_of_isBlankText {text : String} (h : Text.isBlankText text = true) :
    parse? text = none := by
  have hvalue : value? (text.toList.length + 1) (skipSpace text.toList) = none := by
    cases hskip : skipSpace text.toList with
    | nil => rfl
    | cons c s =>
      have hc : c ∈ text.toList := (List.dropWhile_subset _) (hskip ▸ List.mem_cons_self)
      exact value?_of_isBlank _ s (List.all_eq_true.mp h c hc)
  rw [parse?]
  simp [hvalue]

end UsageRules.Json

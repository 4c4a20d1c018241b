import UsageRules.Json.Parser
import UsageRules.Json.Printer

/-! A string literal is read back as it was written, whatever characters its text has. -/

namespace UsageRules.Json

/-! ## Hexadecimal digits -/

theorem hexDigit?_hexChar : ∀ {n : Nat}, n < 16 → hexDigit? (hexChar n) = some n := by decide

/-- The four digits of a character below 256 are read as that character. -/
theorem hexPiece?_hexChar {c : Char} (h : c.toNat < 256) :
    hexPiece? '0' '0' (hexChar (c.toNat / 16)) (hexChar (c.toNat % 16)) = some (.char c) := by
  have hzero : hexDigit? '0' = some 0 := rfl
  have hhigh : c.toNat / 16 < 16 := by omega
  have hlow : c.toNat % 16 < 16 := Nat.mod_lt _ (by decide)
  have hvalue : ((0 * 16 + 0) * 16 + c.toNat / 16) * 16 + c.toNat % 16 = c.toNat := by omega
  have hsmall : ¬(0xD800 ≤ c.toNat ∧ c.toNat ≤ 0xDFFF) := by omega
  simp only [hexPiece?, hzero, hexDigit?_hexChar hhigh, hexDigit?_hexChar hlow,
    Option.bind_eq_bind, Option.bind_some, hvalue, if_neg hsmall, Char.ofNat_toNat]

/-! ## Characters -/

/-- A character that stands for itself. -/
theorem pieces?_plain {c : Char} (s : List Char) (hquote : c ≠ '"') (hslash : c ≠ '\\')
    (hcontrol : ¬c < ' ') :
    pieces? (c :: s) = (pieces? s).map fun p => (.char c :: p.1, p.2) := by
  rw [pieces?.eq_def]
  split
  case h_5 heq =>
    obtain ⟨rfl, rfl⟩ := List.cons.inj heq
    rw [if_neg hcontrol]
    cases pieces? s <;> rfl
  all_goals simp_all

/-- A character after a backslash that is not the start of four digits. -/
theorem pieces?_escaped {c d : Char} (s : List Char) (h : escaped? c = some d) :
    pieces? ('\\' :: c :: s) = (pieces? s).map fun p => (.char d :: p.1, p.2) := by
  have hdigits : c ≠ 'u' := by
    rintro rfl
    cases h
  rw [pieces?.eq_def]
  split
  case h_4 heq =>
    obtain ⟨rfl, rfl⟩ := List.cons.inj (List.cons.inj heq).2
    simp only [h, Option.bind_eq_bind, Option.bind_some]
    cases pieces? s <;> rfl
  case h_5 hother heq =>
    exact absurd (List.cons.inj heq).2.symm (hother _ _ (List.cons.inj heq).1.symm)
  all_goals simp_all

theorem pieces?_escapeChar (c : Char) (s : List Char) :
    pieces? (escapeChar c ++ s) = (pieces? s).map fun p => (.char c :: p.1, p.2) := by
  unfold escapeChar
  split
  case h_8 =>
    split
    · rename_i hcontrol
      have hsmall : c.toNat < 256 := Nat.lt_trans hcontrol (by decide)
      simp only [List.cons_append, List.nil_append, pieces?, hexPiece?_hexChar hsmall]
      cases pieces? s <;> rfl
    · exact pieces?_plain s ‹_› ‹_› ‹_›
  all_goals exact pieces?_escaped s rfl

/-! ## Literals -/

theorem pieces?_flatMap_escapeChar (s rest : List Char) :
    pieces? (s.flatMap escapeChar ++ '"' :: rest) = some (s.map .char, rest) := by
  induction s with
  | nil => rfl
  | cons c s ih => simp [pieces?_escapeChar, ih]

theorem join?_map_char (s : List Char) : join? (s.map .char) = some s := by
  induction s with
  | nil => rfl
  | cons c s ih => simp [join?, ih]

/-- A written literal is a quote and what is read as the literal, up to its end. -/
theorem exists_writeLiteral_eq_cons (l : Literal) :
    ∃ body, writeLiteral l = '"' :: body ∧ ∀ rest, literal? (body ++ rest) = some (l, rest) := by
  cases l with
  | text s =>
    refine ⟨s.toList.flatMap escapeChar ++ ['"'], rfl, fun rest => ?_⟩
    simp [literal?, pieces?_flatMap_escapeChar, join?_map_char]
  | unpaired => exact ⟨['\\', 'u', 'd', '8', '0', '0', '"'], rfl, fun rest => rfl⟩

end UsageRules.Json

import UsageRules.Json.Parser

/-! A numeral is read back as it is rendered: sign, whole part without leading zeros, fraction and
exponent. What follows it must not go on with the number. -/

namespace UsageRules.Json

/-- No digit stands at the head of a text. -/
def NoDigit (s : List Char) : Prop := ∀ c ∈ s.head?, isDigit c = false

/-- A number that stands before the text ends there. -/
def EndsNumber (s : List Char) : Prop :=
  ∀ c ∈ s.head?, isDigit c = false ∧ c ≠ '.' ∧ c ≠ 'e' ∧ c ≠ 'E'

theorem EndsNumber.noDigit {s : List Char} (h : EndsNumber s) : NoDigit s := fun c hc => (h c hc).1

/-! ## Digits -/

theorem digits_append {l s : List Char} (hl : ∀ c ∈ l, isDigit c = true) (hs : NoDigit s) :
    digits (l ++ s) = (l.map digit, s) := by
  have hnone : s.takeWhile isDigit = [] ∧ s.dropWhile isDigit = s := by
    cases s with
    | nil => exact ⟨rfl, rfl⟩
    | cons c s => simp [hs c rfl]
  simp [digits, List.takeWhile_append_of_pos hl, List.dropWhile_append_of_pos hl, hnone]

theorem isDigit_digitChar : ∀ d : Fin 10, isDigit (Numeral.digitChar d) = true := by decide

theorem digit_digitChar : ∀ d : Fin 10, digit (Numeral.digitChar d) = d := by decide

theorem digits_map_digitChar (ds : List (Fin 10)) {s : List Char} (hs : NoDigit s) :
    digits (ds.map Numeral.digitChar ++ s) = (ds, s) := by
  rw [digits_append (by simp [isDigit_digitChar]) hs]
  simp [Function.comp_def, digit_digitChar]

theorem isDigit_of_mem_natural {n : Nat} {c : Char} (h : c ∈ Numeral.natural n) :
    isDigit c = true := by
  have := Nat.isDigit_of_mem_toDigits (by decide) (by decide) h
  simpa [isDigit, Char.isDigit, Char.le_def] using this

/-! ## Whole parts -/

theorem digit_digitChar_nat : ∀ {n : Nat}, n < 10 → digit n.digitChar = Numeral.lastDigit n := by
  decide

/-- The digits of a number are those of its tenth, and its last digit. -/
theorem map_digit_natural (n : Nat) :
    (Numeral.natural n).map digit =
      if n < 10 then [Numeral.lastDigit n]
      else (Numeral.natural (n / 10)).map digit ++ [Numeral.lastDigit n] := by
  have hlast : digit (n % 10).digitChar = Numeral.lastDigit n := by
    rw [digit_digitChar_nat (Nat.mod_lt n (by decide))]
    simp [Numeral.lastDigit]
  rw [Numeral.natural, Nat.toDigits_eq_if (by decide)]
  split
  · rename_i h
    simp [digit_digitChar_nat h]
  · simp [Numeral.natural, hlast]

theorem digitsValue_map_digit_natural (n : Nat) :
    digitsValue ((Numeral.natural n).map digit) = n := by
  induction n using Nat.strongRecOn with
  | ind n ih =>
    rw [map_digit_natural]
    split
    · rename_i h
      simp [digitsValue, Numeral.lastDigit, Nat.mod_eq_of_lt h]
    · have hrest := ih (n / 10) (by omega)
      simp only [digitsValue] at hrest
      simp only [digitsValue, List.foldl_append, hrest, List.foldl_cons, List.foldl_nil,
        Numeral.lastDigit]
      omega

/-- A number other than zero does not begin with a zero. -/
theorem exists_map_digit_natural_eq_cons {n : Nat} (h : 0 < n) :
    ∃ d ds, (Numeral.natural n).map digit = d :: ds ∧ d.val ≠ 0 := by
  induction n using Nat.strongRecOn with
  | ind n ih =>
    rw [map_digit_natural]
    split
    · exact ⟨_, [], rfl, by simp only [Numeral.lastDigit]; omega⟩
    · obtain ⟨d, ds, heq, hd⟩ := ih (n / 10) (by omega) (by omega)
      exact ⟨d, ds ++ [Numeral.lastDigit n], by rw [heq, List.cons_append], hd⟩

theorem digits_natural (n : Nat) {s : List Char} (hs : NoDigit s) :
    digits (Numeral.natural n ++ s) = ((Numeral.natural n).map digit, s) :=
  digits_append (fun _ hc => isDigit_of_mem_natural hc) hs

theorem whole?_natural (n : Nat) {s : List Char} (hs : NoDigit s) :
    whole? (Numeral.natural n ++ s) = some (n, s) := by
  have hvalue := digitsValue_map_digit_natural n
  rw [whole?, digits_natural n hs]
  rcases Nat.eq_zero_or_pos n with rfl | hpos
  · rfl
  · obtain ⟨d, ds, heq, hd⟩ := exists_map_digit_natural_eq_cons hpos
    rw [heq] at hvalue ⊢
    simp [hd, hvalue]

/-! ## Fractions and exponents -/

/-- The point and the digits after it, as they are rendered. -/
def fractionText (ds : List (Fin 10)) : List Char :=
  if ds.isEmpty then [] else '.' :: ds.map Numeral.digitChar

/-- The exponent after its mark, as it is rendered. -/
def exponentText : Option Int → List Char
  | none => []
  | some e => 'e' :: Numeral.integral e

theorem fraction?_fractionText (ds : List (Fin 10)) {s : List Char} (hs : NoDigit s)
    (hpoint : ∀ c ∈ s.head?, c ≠ '.') : fraction? (fractionText ds ++ s) = some (ds, s) := by
  cases ds with
  | nil =>
    rw [fractionText, List.isEmpty_nil, if_pos rfl, List.nil_append, fraction?.eq_def]
    split
    · exact absurd rfl (hpoint '.' rfl)
    · rfl
  | cons d ds =>
    have := digits_map_digitChar (d :: ds) hs
    simp_all [fractionText, fraction?]

theorem unsignedExponent?_natural (negative : Bool) (n : Nat) {s : List Char} (hs : NoDigit s) :
    unsignedExponent? negative (Numeral.natural n ++ s) =
      some (some (if negative then -(n : Int) else n), s) := by
  rw [unsignedExponent?, digits_natural n hs]
  split
  · rename_i heq
    simp [Numeral.natural, Nat.toDigits_ne_nil] at heq
  · rename_i ds rest _ heq
    obtain ⟨rfl, rfl⟩ := Prod.mk.inj heq
    rw [digitsValue_map_digit_natural]

/-- A number begins with a digit. -/
theorem exists_natural_eq_cons (n : Nat) :
    ∃ c s, Numeral.natural n = c :: s ∧ isDigit c = true := by
  obtain ⟨c, s, heq⟩ := List.exists_cons_of_ne_nil (Nat.toDigits_ne_nil (n := n) (b := 10))
  exact ⟨c, s, heq, isDigit_of_mem_natural (heq ▸ List.mem_cons_self)⟩

theorem exponent?_exponentText (e : Option Int) {s : List Char} (hs : EndsNumber s) :
    exponent? (exponentText e ++ s) = some (e, s) := by
  cases e with
  | none =>
    cases s with
    | nil => rfl
    | cons c s =>
      obtain ⟨-, -, hsmall, hcapital⟩ := hs c rfl
      simp [exponentText, exponent?, hsmall, hcapital]
  | some e =>
    cases e with
    | ofNat n =>
      have hread := unsignedExponent?_natural false n hs.noDigit
      obtain ⟨c, l, heq, hc⟩ := exists_natural_eq_cons n
      have hplus : c ≠ '+' := by rintro rfl; cases hc
      have hminus : c ≠ '-' := by rintro rfl; cases hc
      simp_all [exponentText, Numeral.integral, exponent?]
    | negSucc n =>
      have hread := unsignedExponent?_natural true (n + 1) hs.noDigit
      simp_all [exponentText, Numeral.integral, exponent?, Int.negSucc_eq]

/-! ## Numerals -/

/-- A numeral without its sign, as it is rendered. -/
def magnitudeText (n : Numeral) : List Char :=
  Numeral.natural n.whole ++ (fractionText n.fraction ++ exponentText n.exponent)

theorem render_eq (n : Numeral) :
    n.render = (if n.negative then ['-'] else []) ++ magnitudeText n := by
  obtain ⟨negative, whole, fraction, exponent⟩ := n
  cases exponent <;> simp [Numeral.render, magnitudeText, fractionText, exponentText]

theorem unsignedNumber?_magnitudeText (n : Numeral) {s : List Char} (hs : EndsNumber s) :
    unsignedNumber? n.negative (magnitudeText n ++ s) = some (.number n, s) := by
  have hexponent : NoDigit (exponentText n.exponent ++ s) ∧
      ∀ c ∈ (exponentText n.exponent ++ s).head?, c ≠ '.' := by
    cases n.exponent with
    | none => exact ⟨hs.noDigit, fun c hc => (hs c hc).2.1⟩
    | some e => simp [exponentText, NoDigit, isDigit]
  have hfraction : NoDigit (fractionText n.fraction ++ (exponentText n.exponent ++ s)) := by
    unfold fractionText
    split
    · exact hexponent.1
    · simp [NoDigit, isDigit]
  simp only [unsignedNumber?, magnitudeText, List.append_assoc, whole?_natural n.whole hfraction,
    fraction?_fractionText n.fraction hexponent.1 hexponent.2,
    exponent?_exponentText n.exponent hs, Option.bind_eq_bind, Option.bind_some]

/-- A numeral is read back as it is rendered. -/
theorem number?_render (n : Numeral) {s : List Char} (hs : EndsNumber s) :
    number? (n.render ++ s) = some (.number n, s) := by
  have hread := unsignedNumber?_magnitudeText n hs
  rw [render_eq]
  cases hsign : n.negative with
  | true => simpa [number?, hsign] using hread
  | false =>
    obtain ⟨c, l, heq, hc⟩ := exists_natural_eq_cons n.whole
    have hminus : c ≠ '-' := by rintro rfl; cases hc
    simp_all [magnitudeText, number?]

/-- A numeral begins with a digit or a minus sign. -/
theorem exists_render_eq_cons (n : Numeral) :
    ∃ c s, n.render = c :: s ∧ (c = '-' ∨ isDigit c = true) := by
  rw [render_eq]
  cases n.negative with
  | true => exact ⟨'-', magnitudeText n, rfl, .inl rfl⟩
  | false =>
    obtain ⟨c, l, heq, hc⟩ := exists_natural_eq_cons n.whole
    exact ⟨c, l ++ (fractionText n.fraction ++ exponentText n.exponent),
      by simp [magnitudeText, heq], .inr hc⟩

end UsageRules.Json

import UsageRules.Config
import UsageRules.Pattern.Search

/-! Which configurations are accepted, in any language of patterns (`Config.validate_eq_ok_iff`). -/

namespace UsageRules

/-- A check that is followed by more succeeds with what follows, if nothing is wrong. -/
theorem check_eq_ok_iff {ε α : Type} {wrong : Prop} [Decidable wrong] {e : ε}
    {next : Unit → Except ε α} {rest : Except ε α} {a : α} :
    (if wrong then (throw e : Except ε Unit) >>= next else rest) = .ok a ↔
      ¬wrong ∧ rest = .ok a := by
  by_cases h : wrong
  · rw [if_pos h]
    exact ⟨fun h' => (by cases h'), fun h' => absurd h h'.1⟩
  · rw [if_neg h]
    exact ⟨fun h' => ⟨h, h'⟩, And.right⟩

namespace Config

section
variable [PatternLanguage] {c : Config}

theorem validate_eq_ok_iff :
    c.validate = .ok () ↔ c.minSupport ≠ 0 ∧
      ((0.0 : Float) ≤ c.minConfidence ∧ c.minConfidence ≤ 1.0) ∧
      c.targetPrefixes.isEmpty = false ∧ (∃ matcher, c.matcher = .ok matcher) ∧
      isVersionTag c.version = true := by
  have hmatcher : (c.matcher >>= fun _ =>
      if (!isVersionTag c.version) = true then throw (.badVersionTag c.version) else pure ()) =
        .ok () ↔ (∃ matcher, c.matcher = .ok matcher) ∧ isVersionTag c.version = true := by
    cases c.matcher with
    | error e => simp [bind, Except.bind]
    | ok matcher =>
      cases isVersionTag c.version with
      | false => exact ⟨fun h => (by cases h), fun h => (by cases h.2)⟩
      | true => exact ⟨fun _ => ⟨⟨matcher, rfl⟩, rfl⟩, fun _ => rfl⟩
  rw [validate, check_eq_ok_iff, check_eq_ok_iff, check_eq_ok_iff, hmatcher]
  simp

theorem minSupport_pos_of_validate (h : c.validate = .ok ()) : 0 < c.minSupport :=
  Nat.pos_of_ne_zero (validate_eq_ok_iff.mp h).1

end

theorem validate_default : ({} : Config).validate = .ok () := by
  have hmatcher : ({} : Config).matcher.toOption.isSome = true := by decide +kernel
  refine validate_eq_ok_iff.mpr ⟨by decide, by decide +kernel, rfl, ?_, by decide⟩
  cases h : ({} : Config).matcher with
  | error e => simp [h, Except.toOption] at hmatcher
  | ok matcher => exact ⟨matcher, rfl⟩

end Config

end UsageRules

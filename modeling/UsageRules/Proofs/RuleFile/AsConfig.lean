import UsageRules.Config
import UsageRules.Proofs.RuleFile

/-! A text can be a rule file and a configuration at once: an empty list is both, a rule file
without rules and a configuration with nothing set. No other text is (`eq_nil_of_ofJson`). -/

namespace UsageRules

/-- An array that is a configuration begins with a number, if it has any elements. -/
theorem Config.exists_asNat_of_ofJson {v : Json} {l : List Json} {c : Config}
    (h : ofJson (.array (v :: l)) = some c) : ∃ n, v.asNat = some n := by
  have hrecord : (Json.array (v :: l)).asRecord fieldNames =
      if fieldNames.length < (v :: l).length then none else
        some ((List.range fieldNames.length).map ((v :: l)[·]?)) := rfl
  rw [ofJson, hrecord] at h
  split at h
  · cases h
  · cases hread : v.asNat with
    | some n => exact ⟨n, rfl⟩
    | none =>
      simp [List.range, List.range.loop, fieldNames, Json.orDefault, hread] at h

theorem Record.ofJson_of_asNat {v : Json} {n : Nat} (h : v.asNat = some n) : ofJson v = none := by
  cases v with
  | number m => rfl
  | _ => cases h

namespace RuleFile

/-- Where a text holds records and is a configuration, it is an empty list. -/
theorem eq_nil_of_ofJson {text : String} {records : List Record} {c : Config}
    (hrecords : recordsOf? text = some records)
    (hconfig : (Json.parse? text).bind Config.ofJson = some c) : records = [] ∧ c = {} := by
  obtain ⟨v, hparse, hc⟩ := Option.bind_eq_some_iff.mp hconfig
  rw [recordsOf?_of_parse hparse] at hrecords
  cases v with
  | array l =>
    cases l with
    | nil =>
      cases hrecords
      exact ⟨rfl, (Option.some.inj hc).symm⟩
    | cons v l =>
      obtain ⟨n, hn⟩ := Config.exists_asNat_of_ofJson hc
      simp [Json.asOptional, Json.asList, Record.ofJson_of_asNat hn] at hrecords
  | null => cases hc
  | _ => cases hrecords

end RuleFile

end UsageRules

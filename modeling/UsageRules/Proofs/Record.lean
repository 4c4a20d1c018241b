import UsageRules.Proofs.Json.Reader
import UsageRules.Record

/-! Records and their ids. A record is what its document is read as (`Record.ofJson_toJson`), and of
records with one id the first counts, which is the one that is kept among the distinct ones
(`Record.find?_distinctIds`). -/

namespace UsageRules

theorem Label.ofJson_toJson (l : Label) : Label.ofJson l.toJson = some l := Label.ofText?_text l

namespace Record

/-- Every field of a document is found, but for the decision that a record need not have. -/
theorem asRecord_toJson (r : Record) :
    r.toJson.asRecord ["id", "antecedent", "consequent", "label", "sameAs"] =
      some [some (.ofInt r.id.toInt), some (.ofStrings r.antecedent.toList),
        some (.ofStrings r.consequent.toList), some r.label.toJson,
        r.sameAs.map fun id => .ofInt id.toInt] := by
  obtain ⟨id, antecedent, consequent, label, sameAs⟩ := r
  cases sameAs <;> rw [toJson, Json.asRecord_ofFields (by simp)] <;> simp [List.lookup_cons]

theorem ofJson_toJson (r : Record) : ofJson r.toJson = some r := by
  have hsameAs : Json.orDefault (Json.asOptional Json.asInt64) none
      (r.sameAs.map fun id => .ofInt id.toInt) = some r.sameAs := by
    cases r.sameAs with
    | none => rfl
    | some id => exact congrArg (Option.map some) (Json.asInt64_ofInt id)
  have hlabel : Json.orDefault Label.ofJson .unknown (some r.label.toJson) = some r.label :=
    Label.ofJson_toJson r.label
  simp [ofJson, asRecord_toJson, Json.asInt64_ofInt, Json.asStringSet_ofStrings, hlabel, hsameAs]

/-! ## Ids -/

variable {records : List Record} {id : RuleId}

theorem mem_ids : id ∈ ids records ↔ ∃ r ∈ records, r.id = id := by
  rw [ids, SortedSet.mem_ofList, List.mem_map]

theorem mem_ids_iff_isSome_find? :
    id ∈ ids records ↔ (records.find? (·.id = id)).isSome = true := by
  simp [mem_ids]

theorem nodup_map_id_distinctIds (records : List Record) :
    ((distinctIds records).map (·.id)).Nodup := by
  induction records with
  | nil => exact .nil
  | cons r records ih =>
    rw [distinctIds, List.map_cons, List.nodup_cons]
    constructor
    · intro h
      obtain ⟨s, hs, heq⟩ := List.mem_map.mp h
      exact of_decide_eq_true (List.mem_filter.mp hs).2 heq
    · exact ih.sublist (List.filter_sublist.map _)

theorem find?_distinctIds (records : List Record) (id : RuleId) :
    (distinctIds records).find? (·.id = id) = records.find? (·.id = id) := by
  induction records with
  | nil => rfl
  | cons r records ih =>
    rw [distinctIds]
    by_cases h : r.id = id
    · rw [List.find?_cons_of_pos (by simpa using h), List.find?_cons_of_pos (by simpa using h)]
    · rw [List.find?_cons_of_neg (by simpa using h), List.find?_cons_of_neg (by simpa using h),
        List.find?_filter, ← ih]
      congr 1
      funext s
      by_cases hs : s.id = id
      · simp [hs, Ne.symm h]
      · simp [hs]

theorem map_id_distinctIds_perm (records : List Record) :
    ((distinctIds records).map (·.id)).Perm (ids records).toList := by
  refine (List.perm_ext_iff_of_nodup (nodup_map_id_distinctIds records)
    (SortedSet.nodup_toList _)).mpr fun id => ?_
  rw [SortedSet.mem_toList, mem_ids_iff_isSome_find?, ← find?_distinctIds, List.mem_map]
  simp

end Record

end UsageRules

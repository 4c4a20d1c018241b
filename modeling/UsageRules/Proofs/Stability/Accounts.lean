import UsageRules.Proofs.History.Sightings
import UsageRules.Proofs.SetSize
import UsageRules.Stability

/-! The accounts of a stability report. A delta divides the current ids into hits and new ones and
counts each miss once (`Delta.accounts_compute`), and the delta against all earlier versions
together agrees with the deltas against each of them (`StabilityReport.accountsFor_compute`). -/

namespace UsageRules

theorem total_countLabels (labels : List Label) :
    total (countLabels labels).values = labels.length := by
  have hfold : ∀ m : SortedMap Label Nat,
      total (labels.foldl (fun m l => m.update l fun n => n.getD 0 + 1) m).values =
        total m.values + labels.length := by
    induction labels with
    | nil => exact fun m => rfl
    | cons l labels ih =>
      intro m
      have hupdate := m.total_values_update l fun n => n.getD 0 + 1
      rw [List.foldl_cons, ih, List.length_cons]
      omega
  have htotal := hfold ∅
  rwa [show total (∅ : SortedMap Label Nat).values = 0 from rfl, Nat.zero_add] at htotal

/-! ## Deltas -/

namespace Delta

/-- What a delta says of the current and the earlier ids. -/
structure Accounts (d : Delta) (current earlier : SortedSet RuleId) : Prop where
  mem_hits : ∀ id, id ∈ d.hits ↔ id ∈ current ∧ id ∈ earlier
  mem_new : ∀ id, id ∈ d.new ↔ id ∈ current ∧ id ∉ earlier
  not_mem_new_of_mem_hits : ∀ id ∈ d.hits, id ∉ d.new
  hits_union_new : d.hits ∪ d.new = current
  size_hits_add_size_new : d.hits.size + d.new.size = current.size
  mem_misses : ∀ id, id ∈ d.misses ↔ id ∈ earlier ∧ id ∉ current
  total_missesByLabel : total d.missesByLabel.values = d.misses.size

section
variable {current prior : List Record} {id : RuleId}

@[simp] theorem mem_hits_compute : id ∈ (compute current prior).hits ↔
    id ∈ Record.ids current ∧ id ∈ Record.ids prior := by simp [compute]

@[simp] theorem mem_misses_compute : id ∈ (compute current prior).misses ↔
    id ∈ Record.ids prior ∧ id ∉ Record.ids current := by simp [compute]

@[simp] theorem mem_new_compute : id ∈ (compute current prior).new ↔
    id ∈ Record.ids current ∧ id ∉ Record.ids prior := by simp [compute]

end

/-- The first earlier records of the misses are those that are counted. -/
theorem map_id_missed_perm (current prior : List Record) :
    (((Record.distinctIds prior).filter (¬·.id ∈ Record.ids current)).map (·.id)).Perm
      (compute current prior).misses.toList := by
  have hperm := (Record.map_id_distinctIds_perm prior).filter (¬· ∈ Record.ids current)
  rwa [List.filter_map] at hperm

theorem total_missesByLabel_compute (current prior : List Record) :
    total (compute current prior).missesByLabel.values = (compute current prior).misses.size := by
  have hlength := (map_id_missed_perm current prior).length_eq
  rw [List.length_map] at hlength
  rw [compute, total_countLabels, List.length_map]
  exact hlength

theorem accounts_compute (current prior : List Record) :
    (compute current prior).Accounts (Record.ids current) (Record.ids prior) where
  mem_hits _ := mem_hits_compute
  mem_new _ := mem_new_compute
  not_mem_new_of_mem_hits id hhit hnew :=
    (mem_new_compute.mp hnew).2 (mem_hits_compute.mp hhit).2
  hits_union_new := by
    ext id
    by_cases hid : id ∈ Record.ids prior <;> simp [hid]
  size_hits_add_size_new := by
    rw [← SortedSet.size_filter_add_size_filter_not (· ∈ Record.ids prior) (Record.ids current)]
    simp [compute]
  mem_misses _ := mem_misses_compute
  total_missesByLabel := total_missesByLabel_compute current prior

end Delta

/-! ## Baselines -/

namespace Baseline

variable {h : History} {version : String} {b : Baseline}

/-- The baseline of a fully labelled version: its records, and all other versions in their order. -/
theorem ofHistory_eq_ok_iff :
    ofHistory h version = .ok b ↔ ∃ current, h.records? version = some current ∧
      (∀ r ∈ current, r.label ≠ .unknown) ∧
      b = ⟨version, current, h.ordered.filter (·.1 ≠ version)⟩ := by
  rw [ofHistory]
  cases hcurrent : h.records? version with
  | none => simp
  | some current =>
    have hlabelled :
        current.countP (·.label.isUnknown) = 0 ↔ ∀ r ∈ current, r.label ≠ .unknown := by
      simp [List.countP_eq_zero, Label.isUnknown]
    simp only [Option.some.injEq, exists_eq_left', ← hlabelled]
    by_cases hcount : current.countP (·.label.isUnknown) = 0 <;> simp [hcount, eq_comm]

theorem exists_ofHistory_iff :
    (∃ b, ofHistory h version = .ok b) ↔ ∃ current, h.records? version = some current ∧
      ∀ r ∈ current, r.label ≠ .unknown := by
  simp only [ofHistory_eq_ok_iff]
  constructor
  · rintro ⟨b, current, hcurrent, hlabelled, -⟩
    exact ⟨current, hcurrent, hlabelled⟩
  · rintro ⟨current, hcurrent, hlabelled⟩
    exact ⟨_, current, hcurrent, hlabelled, rfl⟩

theorem mem_prior_iff (hb : ofHistory h version = .ok b) {e : String × List Record} :
    e ∈ b.prior ↔ h.records? e.1 = some e.2 ∧ e.1 ≠ version := by
  obtain ⟨current, -, -, rfl⟩ := ofHistory_eq_ok_iff.mp hb
  rw [List.mem_filter, History.mem_ordered_iff, decide_eq_true_eq]

theorem map_fst_prior (hb : ofHistory h version = .ok b) :
    b.prior.map Prod.fst = h.tags.filter (· ≠ version) := by
  obtain ⟨current, -, -, rfl⟩ := ofHistory_eq_ok_iff.mp hb
  rw [← h.map_fst_ordered, List.filter_map]
  rfl

end Baseline

/-! ## Reports -/

namespace StabilityReport

variable {h : History} {version : String} {b : Baseline}

/-- The records of all earlier versions have the ids of these versions, and no others. -/
theorem mem_ids_priorUnion {id : RuleId} :
    id ∈ Record.ids (priorUnion b) ↔ ∃ e ∈ b.prior, id ∈ Record.ids e.2 := by
  rw [Record.mem_ids_iff_isSome_find?, priorUnion, SortedMap.find?_values_ofList_keyed,
    List.find?_isSome]
  simp only [List.mem_reverse, List.mem_flatMap, decide_eq_true_eq, Record.mem_ids]
  constructor
  · rintro ⟨r, ⟨e, he, hr⟩, hid⟩
    exact ⟨e, he, r, hr, hid⟩
  · rintro ⟨e, he, r, hr, hid⟩
    exact ⟨r, ⟨e, he, hr⟩, hid⟩

/-- What a report says of the current ids and of the other versions of a history. -/
structure AccountsFor (report : StabilityReport) (h : History) (version : String)
    (current : SortedSet RuleId) : Prop where
  totalRules_eq : report.totalRules = current.size
  versions_eq : report.perVersion.map Prod.fst = h.tags.filter (· ≠ version)
  perVersion_accounts : ∀ e ∈ report.perVersion, ∃ records, h.records? e.1 = some records ∧
    e.2.Accounts current (Record.ids records)
  overall_accounts : ∃ earlier : SortedSet RuleId, report.overall.Accounts current earlier ∧
    ∀ id, id ∈ earlier ↔ ∃ tag records, tag ≠ version ∧ h.records? tag = some records ∧
      id ∈ Record.ids records
  mem_overall_hits : ∀ id, id ∈ report.overall.hits ↔ ∃ e ∈ report.perVersion, id ∈ e.2.hits
  mem_overall_misses : ∀ id,
    id ∈ report.overall.misses ↔ ∃ e ∈ report.perVersion, id ∈ e.2.misses
  /-- Without other versions all current ids are new. -/
  mem_overall_new : ∀ id, id ∈ report.overall.new ↔
    id ∈ current ∧ ∀ e ∈ report.perVersion, id ∈ e.2.new

theorem accountsFor_compute_of_ofHistory (hb : Baseline.ofHistory h version = .ok b)
    (benchmark : Option (List Record)) :
    (compute b benchmark).AccountsFor h version (Record.ids b.current) where
  totalRules_eq := rfl
  versions_eq := by
    rw [← Baseline.map_fst_prior hb, compute, List.map_map]
    rfl
  perVersion_accounts e he := by
    obtain ⟨⟨tag, records⟩, hmem, rfl⟩ := List.mem_map.mp he
    exact ⟨records, ((Baseline.mem_prior_iff hb).mp hmem).1, Delta.accounts_compute ..⟩
  overall_accounts := by
    refine ⟨_, Delta.accounts_compute b.current (priorUnion b), fun id => ?_⟩
    simp only [mem_ids_priorUnion, Baseline.mem_prior_iff hb, Prod.exists, and_assoc, and_left_comm]
  mem_overall_hits id := by
    simp only [compute, Delta.mem_hits_compute, mem_ids_priorUnion, List.mem_map,
      exists_exists_and_eq_and]
    exact ⟨fun ⟨hid, e, he, hearlier⟩ => ⟨e, he, hid, hearlier⟩,
      fun ⟨e, he, hid, hearlier⟩ => ⟨hid, e, he, hearlier⟩⟩
  mem_overall_misses id := by
    simp only [compute, Delta.mem_misses_compute, mem_ids_priorUnion, List.mem_map,
      exists_exists_and_eq_and]
    exact ⟨fun ⟨⟨e, he, hearlier⟩, hid⟩ => ⟨e, he, hearlier, hid⟩,
      fun ⟨e, he, hearlier, hid⟩ => ⟨⟨e, he, hearlier⟩, hid⟩⟩
  mem_overall_new id := by
    simp only [compute, Delta.mem_new_compute, mem_ids_priorUnion, List.forall_mem_map]
    exact ⟨fun ⟨hid, hnone⟩ => ⟨hid, fun e he => ⟨hid, fun hearlier => hnone ⟨e, he, hearlier⟩⟩⟩,
      fun ⟨hid, hnew⟩ => ⟨hid, fun ⟨e, he, hearlier⟩ => (hnew e he).2 hearlier⟩⟩

/-- A version has a baseline if it is there and fully labelled. Then the report has one delta for
every other version in their order; each delta and the overall one account for the current ids and
for the ids they are taken against; and the overall one is made up of the others. -/
theorem accountsFor_compute (h : History) (version : String) :
    ((∃ b, Baseline.ofHistory h version = .ok b) ↔
      ∃ current, h.records? version = some current ∧ ∀ r ∈ current, r.label ≠ .unknown) ∧
    ∀ b, Baseline.ofHistory h version = .ok b → ∃ current, h.records? version = some current ∧
      ∀ benchmark, (compute b benchmark).AccountsFor h version (Record.ids current) := by
  refine ⟨Baseline.exists_ofHistory_iff, fun b hb => ?_⟩
  obtain ⟨current, hcurrent, -, heq⟩ := Baseline.ofHistory_eq_ok_iff.mp hb
  have haccounts := accountsFor_compute_of_ofHistory hb
  rw [heq] at haccounts ⊢
  exact ⟨current, hcurrent, haccounts⟩

/-- A rule is repeated with another label in the first version and gone in the last, where one rule
is old and one is new. -/
def threeVersions : History :=
  let record (id : RuleId) (label : Label) : Record :=
    { id, antecedent := ∅, consequent := ∅, label }
  ⟨.ofList [
    ("v0.0.9", [record 1 .unknown, record 1 .correct, record 2 .correct]),
    ("v0.0.10", [record 1 .notARule]),
    ("v0.0.11", [record 2 .correct, record 3 .bestPractice])]⟩

theorem accountsFor_threeVersions :
    ∃ b, Baseline.ofHistory threeVersions "v0.0.11" = .ok b ∧
      ∃ current, threeVersions.records? "v0.0.11" = some current ∧
        (compute b none).AccountsFor threeVersions "v0.0.11" (Record.ids current) := by
  obtain ⟨hexists, haccounts⟩ := accountsFor_compute threeVersions "v0.0.11"
  obtain ⟨b, hb⟩ := hexists.mpr ⟨_, by rfl, by decide⟩
  obtain ⟨current, hcurrent, hall⟩ := haccounts b hb
  exact ⟨b, hb, current, hcurrent, hall none⟩

end StabilityReport

end UsageRules

import UsageRules.Proofs.Decimal.Quotient
import UsageRules.Proofs.Frequent.Exactness
import UsageRules.Proofs.Rule.Basic
import UsageRules.Proofs.Traversal

/-! Rules from item sets. Generation never fails (`Generation.exists_generateRules`). As every part
of a frequent set is frequent, mining gives the frequency of every antecedent
(`Generation.frequencies_erase`), so there is exactly one rule for each frequent set and each of its
items that is confident enough (`Generation.generateRules_exact`). -/

namespace UsageRules

namespace Generation

/-! ## Confidences -/

/-- The share of the transactions with all other items that have the consequent too. -/
def share (transactions : List ItemSet) (items : ItemSet) (consequent : String) : Float :=
  quotient (supportIn transactions items) (supportIn transactions (items.erase consequent))

/-- The quotient, or one if it is larger. -/
def capped (x : Float) : Float := if 1.0 < x then 1.0 else x

theorem isConfidence_capped {x : Float} (h : (0.0 : Float) ≤ x) :
    isConfidence (capped x) = true := by
  rw [isConfidence, capped]
  split
  · decide
  · rename_i hnot
    have hnumber := (Double.le_iff_place.mp h).2.1
    have hle : x ≤ 1.0 := Double.le_of_not_lt rfl hnumber hnot
    simp [h, hle]

theorem capped_eq_self {x : Float} (h : x ≤ (1.0 : Float)) : capped x = x :=
  if_neg (Double.not_lt_of_le h)

section Share

variable {transactions : List ItemSet} {items : ItemSet} {consequent : String}

theorem supportIn_le_supportIn_erase (transactions : List ItemSet) (items : ItemSet)
    (consequent : String) :
    supportIn transactions items ≤ supportIn transactions (items.erase consequent) :=
  supportIn_anti (fun _ ha => (SortedSet.mem_erase.mp ha).1) transactions

theorem zero_le_share (hlength : transactions.length < 2 ^ 64)
    (hpos : 0 < supportIn transactions items) :
    (0.0 : Float) ≤ share transactions items consequent :=
  zero_le_quotient (Nat.lt_of_le_of_lt (supportIn_le_length ..) hlength)
    (Nat.lt_of_lt_of_le hpos (supportIn_le_supportIn_erase ..))
    (Nat.lt_of_le_of_lt (supportIn_le_length ..) hlength)

theorem share_le_one (hlength : transactions.length < 2 ^ 64)
    (hpos : 0 < supportIn transactions items) :
    share transactions items consequent ≤ (1.0 : Float) :=
  quotient_le_one (Nat.lt_of_lt_of_le hpos (supportIn_le_supportIn_erase ..))
    (Nat.lt_of_le_of_lt (supportIn_le_length ..) hlength) (supportIn_le_supportIn_erase ..)

end Share

/-! ## Known frequencies -/

open Mining (threshold)

section Counted

variable {minSupport : Nat} {minConfidence : Float} {transactions : List ItemSet}

theorem frequencies_mineFrequent {items : ItemSet} (hne : items.isEmpty = false)
    (hle : threshold minSupport ≤ supportIn transactions items) :
    (frequencies (mineFrequent minSupport transactions))[items]? =
      some (supportIn transactions items) := by
  rw [frequencies_get?]
  cases hfind : (mineFrequent minSupport transactions).reverse.find? (·.items = items) with
  | some f =>
    have hf := mem_mineFrequent.mp (List.mem_reverse.mp (List.mem_of_find?_eq_some hfind))
    have hitems : f.items = items := by simpa using List.find?_some hfind
    rw [Option.map_some, hf.2.2, ← hitems]
  | none =>
    have hmem : ({ items, frequency := supportIn transactions items } : FrequentSet) ∈
        mineFrequent minSupport transactions := mem_mineFrequent.mpr ⟨hne, hle, rfl⟩
    have hnot := List.find?_eq_none.mp hfind _ (List.mem_reverse.mpr hmem)
    exact absurd (decide_eq_true rfl) hnot

/-! ## The counted rules -/

/-- The item sets and consequents that are counted among the transactions, in the order of the sets
and then of the consequents. -/
def countedPairs (minSupport : Nat) (minConfidence : Float) (transactions : List ItemSet) :
    List (ItemSet × String) :=
  ((mineFrequent minSupport transactions).filter (2 ≤ ·.size)).flatMap fun f =>
    (f.items.toList.filter fun consequent =>
      decide (minConfidence ≤ share transactions f.items consequent)).map (f.items, ·)

theorem mem_countedPairs {items : ItemSet} {consequent : String} :
    (items, consequent) ∈ countedPairs minSupport minConfidence transactions ↔
      2 ≤ items.size ∧ threshold minSupport ≤ supportIn transactions items ∧
        consequent ∈ items ∧ minConfidence ≤ share transactions items consequent := by
  simp only [countedPairs, List.mem_flatMap, List.mem_filter, List.mem_map, decide_eq_true_eq,
    mem_mineFrequent]
  constructor
  · rintro ⟨f, ⟨⟨-, hle, -⟩, hsize⟩, consequent', ⟨hmem, hconfident⟩, heq⟩
    cases heq
    exact ⟨hsize, hle, hmem, hconfident⟩
  · rintro ⟨hsize, hle, hmem, hconfident⟩
    have hne : items.isEmpty = false := List.isEmpty_eq_false_iff_exists_mem.mpr ⟨_, hmem⟩
    exact ⟨⟨items, supportIn transactions items, .unknown, ""⟩, ⟨⟨hne, hle, rfl⟩, hsize⟩,
      consequent, ⟨hmem, hconfident⟩, rfl⟩

/-- Items with a consequent come by the size of the set, then by the items, then by the
consequent. -/
def Precedes (x y : ItemSet × String) : Prop :=
  x.1.size < y.1.size ∨ x.1.size = y.1.size ∧
    (x.1.toList < y.1.toList ∨ x.1 = y.1 ∧ x.2 < y.2)

theorem ascending_countedPairs :
    (countedPairs minSupport minConfidence transactions).Pairwise Precedes := by
  refine List.pairwise_flatMap.mpr ⟨fun f _ => ?_, ?_⟩
  · refine List.pairwise_map.mpr ((f.items.ascending.filter _).imp fun {a b} hlt => ?_)
    exact .inr ⟨rfl, .inr ⟨rfl, hlt⟩⟩
  · refine (ascending_mineFrequent.filter _).imp fun {f g} h x hx y hy => ?_
    obtain ⟨_, -, rfl⟩ := List.mem_map.mp hx
    obtain ⟨_, -, rfl⟩ := List.mem_map.mp hy
    exact h.imp_right fun ⟨hsize, hlt⟩ => ⟨hsize, .inl hlt⟩

/-- Consequents of one set are counted in ascending order. -/
theorem pairwise_countedPairs :
    (countedPairs minSupport minConfidence transactions).Pairwise fun x y =>
      x.1 = y.1 → x.2 < y.2 := by
  refine ascending_countedPairs.imp fun {x y} h heq => ?_
  rw [Precedes, heq] at h
  rcases h with hsize | ⟨-, hitems | ⟨-, hlt⟩⟩
  · exact absurd hsize (Nat.lt_irrefl _)
  · exact absurd hitems (List.lt_irrefl _)
  · exact hlt

/-- The rule was counted among the transactions. -/
structure CountedRule (transactions : List ItemSet) (pair : ItemSet × String) (r : Rule) :
    Prop where
  mem : pair.2 ∈ pair.1
  antecedent_eq : r.antecedent = pair.1.erase pair.2
  consequent_eq : r.consequent = pair.2
  confidence_eq : r.confidence = capped (share transactions pair.1 pair.2)
  version_eq : r.version = ""
  label_eq : r.label = .unknown

namespace CountedRule

variable {pair : ItemSet × String} {r : Rule}

theorem allItems_eq (h : CountedRule transactions pair r) : r.allItems = pair.1 :=
  Rule.allItems_of_antecedent_eq (h.consequent_eq ▸ h.mem) (h.consequent_eq ▸ h.antecedent_eq)

/-- A counted rule is determined by its items and its consequent. -/
theorem rightUnique (transactions : List ItemSet) :
    Relator.RightUnique (CountedRule transactions) := by
  intro pair r r' h h'
  have hantecedent := h.antecedent_eq.trans h'.antecedent_eq.symm
  have hconsequent := h.consequent_eq.trans h'.consequent_eq.symm
  have hconfidence := h.confidence_eq.trans h'.confidence_eq.symm
  have hversion := h.version_eq.trans h'.version_eq.symm
  have hlabel := h.label_eq.trans h'.label_eq.symm
  cases r
  cases r'
  cases hantecedent
  cases hconsequent
  cases hconfidence
  cases hversion
  cases hlabel
  rfl

end CountedRule

end Counted

/-! ## Generation -/

section RuleFor

variable {f : FrequentSet} {consequent : String}

/-- Whatever was counted, to single out an item does not fail. It gives a rule if the other items
were counted and the quotient is large enough. -/
theorem exists_ruleFor (counts : Std.HashMap ItemSet Nat) (minConfidence : Float)
    (hsize : 2 ≤ f.size) (hmem : consequent ∈ f.items) :
    ∃ o, ruleFor counts minConfidence f consequent = .ok o ∧
      ∀ n, counts[f.items.erase consequent]? = some (n + 1) →
        if minConfidence ≤ quotient f.frequency (n + 1) then
          ∃ r : Rule, o = some r ∧ r.antecedent = f.items.erase consequent ∧
            r.consequent = consequent ∧ r.confidence = capped (quotient f.frequency (n + 1)) ∧
            r.version = "" ∧ r.label = .unknown
        else o = none := by
  rw [ruleFor]
  cases hcount : counts[f.items.erase consequent]? with
  | none => exact ⟨none, rfl, nofun⟩
  | some count =>
    cases count with
    | zero => exact ⟨none, rfl, nofun⟩
    | succ n =>
      simp only [Option.some.injEq, Nat.add_right_cancel_iff, forall_eq']
      split
      · rename_i hconfident
        have hnumber := (Double.le_iff_place.mp hconfident).2.1
        have hfresh : ¬consequent ∈ f.items.erase consequent := by simp
        obtain ⟨r, hr, hrest⟩ := Rule.exists_make
          ((SortedSet.isEmpty_erase_eq_false_iff hmem).mpr hsize) hfresh
          (isConfidence_capped (zero_le_quotient_of_isNumber hnumber))
        rw [← capped, hr]
        exact ⟨some r, rfl, r, rfl, hrest⟩
      · exact ⟨none, rfl, rfl⟩

theorem exists_rulesOf (counts : Std.HashMap ItemSet Nat) (minConfidence : Float)
    (hsize : 2 ≤ f.size) : ∃ rules, rulesOf counts minConfidence f = .ok rules := by
  obtain ⟨results, hresults, -⟩ := exists_mapM_eq_ok
    fun consequent (hmem : consequent ∈ f.items.toList) =>
      exists_ruleFor counts minConfidence hsize hmem
  exact ⟨results.filterMap fun r => r, by rw [rulesOf, hresults]; rfl⟩

/-- Generation does not fail, whatever sets and frequencies are given. -/
theorem exists_generateRules (frequent : List FrequentSet) (minConfidence : Float) :
    ∃ rules, generateRules frequent minConfidence = .ok rules := by
  obtain ⟨results, hresults, -⟩ := exists_mapM_eq_ok (P := fun _ _ => True)
    fun f (hf : f ∈ frequent.filter (2 ≤ ·.size)) =>
      (exists_rulesOf (frequencies frequent) minConfidence
        (of_decide_eq_true (List.mem_filter.mp hf).2)).imp fun _ h => ⟨h, trivial⟩
  exact ⟨results.flatten, by rw [generateRules, hresults]; rfl⟩

/-! ## Rules from mined sets -/

variable {minSupport : Nat} {minConfidence : Float} {transactions : List ItemSet}

/-- The antecedent has been counted too, as it is part of a mined set. -/
theorem frequencies_erase (hf : f ∈ mineFrequent minSupport transactions) (hsize : 2 ≤ f.size)
    (hmem : consequent ∈ f.items) :
    (frequencies (mineFrequent minSupport transactions))[f.items.erase consequent]? =
      some (supportIn transactions (f.items.erase consequent)) :=
  frequencies_mineFrequent ((SortedSet.isEmpty_erase_eq_false_iff hmem).mpr hsize)
    (Nat.le_trans (mem_mineFrequent.mp hf).2.1 (supportIn_le_supportIn_erase ..))

theorem exists_ruleFor_mineFrequent (minConfidence : Float)
    (hf : f ∈ mineFrequent minSupport transactions) (hsize : 2 ≤ f.size)
    (hmem : consequent ∈ f.items) :
    ∃ o, ruleFor (frequencies (mineFrequent minSupport transactions)) minConfidence f consequent =
        .ok o ∧
      if decide (minConfidence ≤ share transactions f.items consequent) = true then
        ∃ r, o = some r ∧ CountedRule transactions (f.items, consequent) r
      else o = none := by
  obtain ⟨-, hle, heq⟩ := mem_mineFrequent.mp hf
  have hpos := Nat.lt_of_lt_of_le (threshold_pos minSupport) hle
  have hle' := supportIn_le_supportIn_erase transactions f.items consequent
  obtain ⟨n, hn⟩ : ∃ n, supportIn transactions (f.items.erase consequent) = n + 1 :=
    Nat.exists_eq_add_one_of_ne_zero (by omega)
  have hfrequency : f.frequency = supportIn transactions f.items := by rw [heq]
  have hcount := frequencies_erase hf hsize hmem
  rw [hn] at hcount
  obtain ⟨o, ho, hrule⟩ := exists_ruleFor _ minConfidence hsize hmem
  have hrule := hrule n hcount
  rw [hfrequency, ← hn, ← share] at hrule
  refine ⟨o, ho, ?_⟩
  simp only [decide_eq_true_eq]
  split
  · rename_i hconfident
    rw [if_pos hconfident] at hrule
    obtain ⟨r, hr, hantecedent, hconsequent, hconfidence, hversion, hlabel⟩ := hrule
    exact ⟨r, hr, hmem, hantecedent, hconsequent, hconfidence, hversion, hlabel⟩
  · rename_i hnot
    rwa [if_neg hnot] at hrule

theorem exists_rulesOf_mineFrequent (minConfidence : Float)
    (hf : f ∈ (mineFrequent minSupport transactions).filter (2 ≤ ·.size)) :
    ∃ rules, rulesOf (frequencies (mineFrequent minSupport transactions)) minConfidence f =
        .ok rules ∧
      List.Forall₂ (CountedRule transactions) ((f.items.toList.filter fun consequent =>
        decide (minConfidence ≤ share transactions f.items consequent)).map (f.items, ·))
        rules := by
  obtain ⟨hmined, hsize⟩ := List.mem_filter.mp hf
  obtain ⟨results, hresults, hall⟩ := exists_mapM_eq_ok
    fun consequent (hmem : consequent ∈ f.items.toList) =>
      exists_ruleFor_mineFrequent minConfidence hmined (of_decide_eq_true hsize) hmem
  refine ⟨results.filterMap fun r => r, ?_,
    List.forall₂_map_left_iff.mpr (forall₂_filter_filterMap hall)⟩
  rw [rulesOf, hresults]
  rfl

end RuleFor

/-- Each pair of a mined set and a consequent is counted once. -/
theorem exists_generateRules_mineFrequent (minSupport : Nat) (minConfidence : Float)
    (transactions : List ItemSet) :
    ∃ rules, generateRules (mineFrequent minSupport transactions) minConfidence = .ok rules ∧
      List.Forall₂ (CountedRule transactions)
        (countedPairs minSupport minConfidence transactions) rules := by
  obtain ⟨results, hresults, hall⟩ := exists_mapM_eq_ok
    fun f (hf : f ∈ (mineFrequent minSupport transactions).filter (2 ≤ ·.size)) =>
      exists_rulesOf_mineFrequent minConfidence hf
  refine ⟨results.flatten, ?_, forall₂_flatMap_flatten hall⟩
  rw [generateRules, hresults]
  rfl

/-! ## The generated rules -/

/-- The items of a rule and which of them it singles out. -/
def pairOf (r : Rule) : ItemSet × String := (r.allItems, r.consequent)

section Generated

variable {minSupport : Nat} {minConfidence : Float} {transactions : List ItemSet}
  {rules : List Rule}

theorem map_pairOf_eq_countedPairs
    (h : List.Forall₂ (CountedRule transactions)
      (countedPairs minSupport minConfidence transactions) rules) :
    rules.map pairOf = countedPairs minSupport minConfidence transactions := by
  have heq : List.Forall₂ (· = ·) (countedPairs minSupport minConfidence transactions)
      (rules.map pairOf) :=
    List.forall₂_map_right_iff.mpr (h.imp fun pair r hr =>
      Prod.ext hr.allItems_eq.symm hr.consequent_eq.symm)
  rw [List.forall₂_eq_eq_eq] at heq
  exact heq.symm

/-- The share is no larger than one, so it is the confidence as it is. -/
theorem CountedRule.confidence_eq_share (hlength : transactions.length < 2 ^ 64)
    {pair : ItemSet × String} {r : Rule} (h : CountedRule transactions pair r)
    (hpair : pair ∈ countedPairs minSupport minConfidence transactions) :
    r.confidence = share transactions r.allItems r.consequent := by
  obtain ⟨-, hfrequent, -, -⟩ := mem_countedPairs.mp hpair
  have hpos := Nat.lt_of_lt_of_le (threshold_pos minSupport) hfrequent
  rw [h.confidence_eq, capped_eq_self (share_le_one hlength hpos), h.allItems_eq, h.consequent_eq]

end Generated

/-- From the mined sets of transactions comes exactly one rule for each frequent set of two items or
more and each of its items whose share is large enough, with this share as the confidence, in the
order of the sets and then of the consequents; the frequency of every antecedent is known. Counts
have 64 bits, which no list of transactions exceeds. Whatever sets and frequencies are given
otherwise, generation does not fail. -/
theorem generateRules_exact (minConfidence : Float) :
    (∀ (minSupport : Nat) (transactions : List ItemSet), transactions.length < 2 ^ 64 →
      ∃ rules, generateRules (mineFrequent minSupport transactions) minConfidence = .ok rules ∧
        (∀ items consequent, (items, consequent) ∈ rules.map pairOf ↔
          2 ≤ items.size ∧ max minSupport 1 ≤ supportIn transactions items ∧
            consequent ∈ items ∧ minConfidence ≤ share transactions items consequent) ∧
        (rules.map pairOf).Pairwise Precedes ∧
        (∀ r ∈ rules, r.antecedent = r.allItems.erase r.consequent ∧
          r.confidence = share transactions r.allItems r.consequent ∧
          r.version = "" ∧ r.label = .unknown) ∧
        ∀ f ∈ mineFrequent minSupport transactions, 2 ≤ f.size → ∀ consequent ∈ f.items,
          (frequencies (mineFrequent minSupport transactions))[f.items.erase consequent]? =
            some (supportIn transactions (f.items.erase consequent))) ∧
      ∀ frequent : List FrequentSet, ∃ rules, generateRules frequent minConfidence = .ok rules := by
  refine ⟨fun minSupport transactions hlength => ?_,
    fun frequent => exists_generateRules frequent minConfidence⟩
  obtain ⟨rules, hok, hrules⟩ :=
    exists_generateRules_mineFrequent minSupport minConfidence transactions
  refine ⟨rules, hok, ?_, ?_, fun r hr => ?_, fun f hf hsize consequent hmem =>
    frequencies_erase hf hsize hmem⟩
  · rw [map_pairOf_eq_countedPairs hrules]
    exact fun items consequent => mem_countedPairs
  · rw [map_pairOf_eq_countedPairs hrules]
    exact ascending_countedPairs
  · obtain ⟨pair, hpair, hcounted⟩ := exists_mem_left hrules hr
    exact ⟨r.erase_allItems.symm, hcounted.confidence_eq_share hlength hpair,
      hcounted.version_eq, hcounted.label_eq⟩

theorem rules_of_scopedClasses :
    scopedClasses.length < 2 ^ 64 ∧
      ∃ rules, generateRules (mineFrequent 2 scopedClasses) 0.5 = .ok rules ∧
        ∃ r ∈ rules, r.consequent = Fact.text "Class" "implements" "Class_HealthCheck" ∧
          r.confidence = quotient 2 3 := by
  have hlength : scopedClasses.length < 2 ^ 64 := by decide
  obtain ⟨rules, hok, hmem, -, hrules, -⟩ := (generateRules_exact 0.5).1 2 scopedClasses hlength
  have hpair : (scopedHealthCheck, Fact.text "Class" "implements" "Class_HealthCheck") ∈
      rules.map pairOf := by
    refine (hmem _ _).mpr ⟨?_, ?_, ?_, ?_⟩
    all_goals decide +kernel
  obtain ⟨r, hr, heq⟩ := List.mem_map.mp hpair
  obtain ⟨hitems, hconsequent⟩ : r.allItems = _ ∧ r.consequent = _ := Prod.ext_iff.mp heq
  obtain ⟨-, hconfidence, -⟩ := hrules r hr
  refine ⟨hlength, rules, hok, r, hr, hconsequent, ?_⟩
  rw [hconfidence, hitems, hconsequent]
  decide +kernel

end Generation

end UsageRules

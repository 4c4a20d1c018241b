import UsageRules.Proofs.Json.Literal
import UsageRules.Proofs.Json.Number

/-! A written value is read back as it was, on one line and with one element a line.

The reading of a value stops where its text stops (`ReadsBack`), whatever follows, except that a
number must not go on. Each kind of value passes this on from its parts. -/

namespace UsageRules.Json

/-! ## White space -/

theorem skipSpace_cons {c : Char} (s : List Char) (h : isSpace c = false) :
    skipSpace (c :: s) = c :: s := by
  simp [skipSpace, h]

theorem skipSpace_lineBreak (depth : Option Nat) (s : List Char) :
    skipSpace (lineBreak depth ++ s) = skipSpace s := by
  cases depth with
  | none => rfl
  | some depth =>
    have hspaces : ∀ c ∈ '\n' :: List.replicate (2 * depth) ' ', isSpace c = true := by
      simp [isSpace]
    exact List.dropWhile_append_of_pos hspaces

theorem skipSpace_lineBreak_cons (depth : Option Nat) {c : Char} (s : List Char)
    (h : isSpace c = false) : skipSpace (lineBreak depth ++ c :: s) = c :: s := by
  rw [skipSpace_lineBreak, skipSpace_cons s h]

/-- Neither a line break nor a character that ends a number goes on with the number. -/
theorem endsNumber_lineBreak (depth : Option Nat) {c : Char} (s : List Char)
    (h : EndsNumber (c :: s)) : EndsNumber (lineBreak depth ++ c :: s) := by
  cases depth with
  | none => exact h
  | some depth => simp [lineBreak, EndsNumber, isDigit]

/-! ## Values -/

/-- At the head of any text the value is read as it was written, if there is fuel for each of its
characters. -/
def ReadsBack (v : Json) : Prop :=
  ∀ (depth : Option Nat) (fuel : Nat) {s : List Char}, (write depth v).length ≤ fuel →
    EndsNumber s → value? fuel (write depth v ++ s) = some (v, s)

theorem ne_of_startsNumber {c d : Char} (h : c = '-' ∨ isDigit c = true) (hd : d ≠ '-')
    (hdigit : isDigit d = false) : c ≠ d := by
  rintro rfl
  rcases h with h | h
  · exact hd h
  · cases hdigit.symm.trans h

/-- A value begins with a character that is neither white space nor the end of an array. -/
theorem exists_write_eq_cons (depth : Option Nat) (v : Json) :
    ∃ c s, write depth v = c :: s ∧ isSpace c = false ∧ c ≠ ']' := by
  cases v with
  | null => exact ⟨_, _, by rw [write], rfl, by decide⟩
  | bool b => cases b <;> exact ⟨_, _, by rw [write], rfl, by decide⟩
  | number n =>
    obtain ⟨c, s, heq, hc⟩ := exists_render_eq_cons n
    refine ⟨c, s, by rw [write, heq], ?_, ne_of_startsNumber hc (by decide) rfl⟩
    have hspace := ne_of_startsNumber (d := ' ') hc (by decide) rfl
    have htab := ne_of_startsNumber (d := '\t') hc (by decide) rfl
    have hline := ne_of_startsNumber (d := '\n') hc (by decide) rfl
    have hreturn := ne_of_startsNumber (d := '\r') hc (by decide) rfl
    simp [isSpace, hspace, htab, hline, hreturn]
  | string l =>
    obtain ⟨body, heq, -⟩ := exists_writeLiteral_eq_cons l
    exact ⟨'"', body, by rw [write, heq], rfl, by decide⟩
  | array l =>
    cases l <;> exact ⟨'[', _, by simp only [write, List.cons_append]; rfl, rfl, by decide⟩
  | object l =>
    cases l <;> exact ⟨'{', _, by simp only [write, List.cons_append]; rfl, rfl, by decide⟩

theorem skipSpace_write (depth : Option Nat) (v : Json) (s : List Char) :
    skipSpace (write depth v ++ s) = write depth v ++ s := by
  obtain ⟨c, l, heq, hspace, -⟩ := exists_write_eq_cons depth v
  rw [heq, List.cons_append, skipSpace_cons _ hspace]

theorem value?_number (fuel : Nat) {c : Char} (s : List Char) (h : c = '-' ∨ isDigit c = true) :
    value? (fuel + 1) (c :: s) = number? (c :: s) := by
  rw [value?.eq_def]
  split
  case h_1 heq => cases heq
  case h_2 heq =>
    obtain ⟨rfl, rfl⟩ := heq
    split
    case h_7 => rfl
    all_goals
      rename_i heq
      exact absurd (List.cons.inj heq).1 (ne_of_startsNumber h (by decide) rfl)

/-- A value takes some fuel, so the first step of its reading can be made. -/
theorem exists_fuel {depth : Option Nat} {v : Json} {fuel : Nat}
    (h : (write depth v).length ≤ fuel) : ∃ k, fuel = k + 1 := by
  obtain ⟨c, s, heq, -⟩ := exists_write_eq_cons depth v
  rw [heq] at h
  exact Nat.exists_eq_add_one.mpr (Nat.lt_of_lt_of_le (Nat.zero_lt_succ s.length) h)

/-! ## Scalars -/

theorem readsBack_null : ReadsBack .null := by
  intro depth fuel s hfuel _
  obtain ⟨fuel, rfl⟩ := exists_fuel hfuel
  simp [write, value?]

theorem readsBack_bool (b : Bool) : ReadsBack (.bool b) := by
  intro depth fuel s hfuel _
  obtain ⟨fuel, rfl⟩ := exists_fuel hfuel
  cases b <;> simp [write, value?]

theorem readsBack_number (n : Numeral) : ReadsBack (.number n) := by
  intro depth fuel s hfuel hs
  obtain ⟨fuel, rfl⟩ := exists_fuel hfuel
  obtain ⟨c, l, heq, hc⟩ := exists_render_eq_cons n
  have hread := number?_render n hs
  rw [write, heq, List.cons_append, value?_number fuel _ hc]
  rwa [heq, List.cons_append] at hread

theorem readsBack_string (l : Literal) : ReadsBack (.string l) := by
  intro depth fuel s hfuel _
  obtain ⟨fuel, rfl⟩ := exists_fuel hfuel
  obtain ⟨body, heq, hread⟩ := exists_writeLiteral_eq_cons l
  simp [write, heq, value?, hread]

/-! ## Arrays -/

theorem elements?_last {fuel : Nat} {s t rest : List Char} {v : Json}
    (hv : value? fuel s = some (v, t)) (ht : skipSpace t = ']' :: rest) :
    elements? (fuel + 1) s = some ([v], rest) := by
  simp [elements?, hv, ht]

theorem elements?_more {fuel : Nat} {s t u rest : List Char} {v : Json} {l : List Json}
    (hv : value? fuel s = some (v, t)) (ht : skipSpace t = ',' :: u)
    (hl : elements? fuel (skipSpace u) = some (l, rest)) :
    elements? (fuel + 1) s = some (v :: l, rest) := by
  simp [elements?, hv, ht, hl]

theorem value?_array {fuel : Nat} {s rest : List Char} {l : List Json}
    (hs : ∀ t, skipSpace s ≠ ']' :: t) (hl : elements? fuel (skipSpace s) = some (l, rest)) :
    value? (fuel + 1) ('[' :: s) = some (.array l, rest) := by
  simp only [value?, hl, Option.map_some]

theorem endsNumber_writeElements (depth outer : Option Nat) (l : List Json) (s : List Char) :
    EndsNumber (writeElements depth l ++ (lineBreak outer ++ ']' :: s)) := by
  cases l with
  | nil => exact endsNumber_lineBreak outer s (by simp [EndsNumber, isDigit])
  | cons v l => simp [writeElements, EndsNumber, isDigit]

/-- Elements are read up to the end of their array. -/
theorem elements?_write {v : Json} {l : List Json} (hl : ∀ w ∈ v :: l, ReadsBack w)
    (depth outer : Option Nat) (fuel : Nat)
    (hfuel : (write depth v).length + (writeElements depth l).length < fuel) (s : List Char) :
    elements? fuel (write depth v ++ (writeElements depth l ++ (lineBreak outer ++ ']' :: s))) =
      some (v :: l, s) := by
  induction l generalizing v fuel with
  | nil =>
    obtain ⟨fuel, rfl⟩ := Nat.exists_eq_add_one.mpr (Nat.zero_lt_of_lt hfuel)
    have hv := hl v List.mem_cons_self depth fuel (by omega)
      (endsNumber_writeElements depth outer [] s)
    exact elements?_last hv (skipSpace_lineBreak_cons outer s rfl)
  | cons w l ih =>
    obtain ⟨fuel, rfl⟩ := Nat.exists_eq_add_one.mpr (Nat.zero_lt_of_lt hfuel)
    have hv := hl v List.mem_cons_self depth fuel (by omega)
      (endsNumber_writeElements depth outer (w :: l) s)
    have hrest := ih (fun u hu => hl u (List.mem_cons_of_mem v hu)) fuel
      (by simp [writeElements] at hfuel; omega)
    refine elements?_more hv (skipSpace_cons _ rfl) ?_
    simpa [skipSpace_lineBreak, skipSpace_write] using hrest

theorem readsBack_array {l : List Json} (hl : ∀ v ∈ l, ReadsBack v) : ReadsBack (.array l) := by
  intro depth fuel s hfuel _
  obtain ⟨fuel, rfl⟩ := exists_fuel hfuel
  cases l with
  | nil => simp [write, value?, skipSpace, isSpace]
  | cons v l =>
    have hread := elements?_write hl (deeper depth) depth fuel
      (by simp [write] at hfuel; omega) s
    obtain ⟨c, t, heq, -, hc⟩ := exists_write_eq_cons (deeper depth) v
    simp only [write, List.cons_append, List.append_assoc, List.nil_append]
    refine value?_array (fun t => ?_) ?_
    · rw [skipSpace_lineBreak, skipSpace_write, heq]
      exact fun h => hc (List.cons.inj h).1
    · rw [skipSpace_lineBreak, skipSpace_write, hread]

/-! ## Objects -/

/-- At the head of a text a name, a colon and a value can be read. -/
def MemberAt (fuel : Nat) (s : List Char) (m : Literal × Json) (rest : List Char) : Prop :=
  ∃ body t u, s = '"' :: body ∧ literal? body = some (m.1, t) ∧ skipSpace t = ':' :: u ∧
    value? fuel (skipSpace u) = some (m.2, rest)

theorem members?_last {fuel : Nat} {s t rest : List Char} {m : Literal × Json}
    (hm : MemberAt fuel s m t) (ht : skipSpace t = '}' :: rest) :
    members? (fuel + 1) s = some ([m], rest) := by
  obtain ⟨body, u, w, rfl, hname, hcolon, hvalue⟩ := hm
  simp [members?, hname, hcolon, hvalue, ht]

theorem members?_more {fuel : Nat} {s t u rest : List Char} {m : Literal × Json}
    {l : List (Literal × Json)} (hm : MemberAt fuel s m t) (ht : skipSpace t = ',' :: u)
    (hl : members? fuel (skipSpace u) = some (l, rest)) :
    members? (fuel + 1) s = some (m :: l, rest) := by
  obtain ⟨body, t', u', rfl, hname, hcolon, hvalue⟩ := hm
  simp [members?, hname, hcolon, hvalue, ht, hl]

theorem value?_object {fuel : Nat} {s rest : List Char} {l : List (Literal × Json)}
    (hs : ∀ t, skipSpace s ≠ '}' :: t) (hl : members? fuel (skipSpace s) = some (l, rest)) :
    value? (fuel + 1) ('{' :: s) = some (.object l, rest) := by
  simp only [value?, hl, Option.map_some]

/-- A member as it is written in an object, without what separates it from others. -/
def memberText (depth : Option Nat) (m : Literal × Json) : List Char :=
  writeLiteral m.1 ++ (colon depth ++ write depth m.2)

theorem colon_deeper (depth : Option Nat) : colon (deeper depth) = colon depth := by
  cases depth <;> rfl

theorem exists_colon_eq_cons (depth : Option Nat) :
    ∃ t, colon depth = ':' :: t ∧ ∀ s, skipSpace (t ++ s) = skipSpace s := by
  cases depth with
  | none => exact ⟨[], rfl, fun _ => rfl⟩
  | some depth => exact ⟨[' '], rfl, fun _ => rfl⟩

theorem memberAt_memberText {m : Literal × Json} (hm : ReadsBack m.2) (depth : Option Nat)
    (fuel : Nat) (hfuel : (memberText depth m).length ≤ fuel) {s : List Char}
    (hs : EndsNumber s) : MemberAt fuel (memberText depth m ++ s) m s := by
  obtain ⟨body, heq, hname⟩ := exists_writeLiteral_eq_cons m.1
  obtain ⟨t, hcolon, ht⟩ := exists_colon_eq_cons depth
  have hvalue := hm depth fuel (by simp [memberText] at hfuel; omega) hs
  refine ⟨_, _, t ++ (write depth m.2 ++ s), ?_, hname (colon depth ++ (write depth m.2 ++ s)),
    ?_, ?_⟩
  · simp [memberText, heq]
  · rw [hcolon]
    exact skipSpace_cons _ rfl
  · rw [ht, skipSpace_write, hvalue]

theorem skipSpace_memberText (depth : Option Nat) (m : Literal × Json) (s : List Char) :
    skipSpace (memberText depth m ++ s) = memberText depth m ++ s := by
  obtain ⟨body, heq, -⟩ := exists_writeLiteral_eq_cons m.1
  rw [memberText, heq]
  exact skipSpace_cons _ rfl

theorem writeMembers_cons (depth : Option Nat) (m : Literal × Json)
    (l : List (Literal × Json)) :
    writeMembers depth (m :: l) =
      ',' :: (lineBreak depth ++ (memberText depth m ++ writeMembers depth l)) := by
  simp [writeMembers, memberText]

theorem write_object_cons (depth : Option Nat) (m : Literal × Json)
    (l : List (Literal × Json)) :
    write depth (.object (m :: l)) =
      '{' :: (lineBreak (deeper depth) ++ (memberText (deeper depth) m ++
        (writeMembers (deeper depth) l ++ (lineBreak depth ++ ['}'])))) := by
  simp [write, memberText, colon_deeper]

theorem endsNumber_writeMembers (depth outer : Option Nat) (l : List (Literal × Json))
    (s : List Char) : EndsNumber (writeMembers depth l ++ (lineBreak outer ++ '}' :: s)) := by
  cases l with
  | nil => exact endsNumber_lineBreak outer s (by simp [EndsNumber, isDigit])
  | cons m l => simp [writeMembers, EndsNumber, isDigit]

/-- Members are read up to the end of their object. -/
theorem members?_write {m : Literal × Json} {l : List (Literal × Json)}
    (hl : ∀ m' ∈ m :: l, ReadsBack m'.2) (depth outer : Option Nat) (fuel : Nat)
    (hfuel : (memberText depth m).length + (writeMembers depth l).length < fuel)
    (s : List Char) :
    members? fuel (memberText depth m ++ (writeMembers depth l ++ (lineBreak outer ++ '}' :: s))) =
      some (m :: l, s) := by
  induction l generalizing m fuel with
  | nil =>
    obtain ⟨fuel, rfl⟩ := Nat.exists_eq_add_one.mpr (Nat.zero_lt_of_lt hfuel)
    have hm := memberAt_memberText (hl m List.mem_cons_self) depth fuel (by omega)
      (endsNumber_writeMembers depth outer [] s)
    exact members?_last hm (skipSpace_lineBreak_cons outer s rfl)
  | cons m' l ih =>
    obtain ⟨fuel, rfl⟩ := Nat.exists_eq_add_one.mpr (Nat.zero_lt_of_lt hfuel)
    have hm := memberAt_memberText (hl m List.mem_cons_self) depth fuel (by omega)
      (endsNumber_writeMembers depth outer (m' :: l) s)
    have hrest := ih (fun m'' hm'' => hl m'' (List.mem_cons_of_mem m hm'')) fuel
      (by simp [writeMembers_cons] at hfuel; omega)
    rw [writeMembers_cons] at hm ⊢
    refine members?_more hm (skipSpace_cons _ rfl) ?_
    simpa [skipSpace_lineBreak, skipSpace_memberText] using hrest

theorem readsBack_object {l : List (Literal × Json)} (hl : ∀ m ∈ l, ReadsBack m.2) :
    ReadsBack (.object l) := by
  intro depth fuel s hfuel _
  obtain ⟨fuel, rfl⟩ := exists_fuel hfuel
  cases l with
  | nil => simp [write, value?, skipSpace, isSpace]
  | cons m l =>
    rw [write_object_cons] at hfuel ⊢
    have hread := members?_write hl (deeper depth) depth fuel
      (by simp at hfuel; omega) s
    obtain ⟨body, heq, -⟩ := exists_writeLiteral_eq_cons m.1
    simp only [List.cons_append, List.append_assoc, List.nil_append]
    refine value?_object (fun t => ?_) ?_
    · rw [skipSpace_lineBreak, skipSpace_memberText, memberText, heq]
      simp
    · rw [skipSpace_lineBreak, skipSpace_memberText, hread]

/-! ## Texts -/

theorem sizeOf_lt_sizeOf_object {m : Literal × Json} {l : List (Literal × Json)} (h : m ∈ l) :
    sizeOf m.2 < sizeOf (object l) := by
  have hmember := List.sizeOf_lt_of_mem h
  have hpair : sizeOf m.2 < sizeOf m := by
    rw [Prod.mk.sizeOf_spec]
    omega
  rw [object.sizeOf_spec]
  omega

theorem readsBack : ∀ v : Json, ReadsBack v
  | .null => readsBack_null
  | .bool b => readsBack_bool b
  | .number n => readsBack_number n
  | .string l => readsBack_string l
  | .array l => readsBack_array fun v _ => readsBack v
  | .object l => readsBack_object fun m _ => readsBack m.2
termination_by v => sizeOf v
decreasing_by
  · rw [array.sizeOf_spec]
    exact Nat.lt_add_left 1 (List.sizeOf_lt_of_mem ‹_›)
  · exact sizeOf_lt_sizeOf_object ‹_›

theorem parse?_write (depth : Option Nat) (v : Json) :
    parse? (String.ofList (write depth v)) = some v := by
  have hread := readsBack v depth ((write depth v).length + 1) (s := []) (by omega)
    (by simp [EndsNumber])
  have hspace := skipSpace_write depth v []
  rw [List.append_nil] at hread hspace
  have hend : (skipSpace []).isEmpty = true := rfl
  simp only [parse?, String.toList_ofList, hspace, hread, Option.bind_eq_bind, Option.bind_some,
    hend, if_pos]

theorem parse?_compact (v : Json) : parse? v.compact = some v := parse?_write none v

theorem parse?_pretty (v : Json) : parse? v.pretty = some v := parse?_write (some 0) v

end UsageRules.Json

import Mathlib.Logic.Function.Basic
import UsageRules.Proofs.Digest.Stream

/-! Where a collision of two hashes can come from. A step can be undone by whoever knows its byte
(`Digest.step_bijective`), and from one state different bytes lead to different states
(`Digest.step_byte_inj`). So bytes that two streams have in common at their ends neither make nor
undo a collision (`Digest.absorb_append_eq_iff`), and one changed byte always changes the hash
(`Digest.DifferInOneByte.absorb_ne`). -/

namespace UsageRules

namespace Digest

/-! ## One byte -/

/-- The inverse of `prime` modulo `2 ^ 64`; there is one as `prime` is odd. -/
def primeInverse : UInt64 := 0xce965057aff6957b

theorem prime_mul_primeInverse : prime * primeInverse = 1 := by decide

/-- Gives back the state in which a byte was taken in. -/
def unstep (state : UInt64) (byte : UInt8) : UInt64 := (state * primeInverse) ^^^ byte.toUInt64

section
variable {state state' : UInt64} {byte byte' : UInt8}

theorem step_mul_primeInverse : step state byte * primeInverse = state ^^^ byte.toUInt64 := by
  rw [step, UInt64.mul_assoc, prime_mul_primeInverse, UInt64.mul_one]

theorem unstep_step : unstep (step state byte) byte = state := by
  rw [unstep, step_mul_primeInverse, UInt64.xor_assoc, UInt64.xor_self, UInt64.xor_zero]

theorem step_unstep : step (unstep state byte) byte = state := by
  rw [step, unstep, UInt64.xor_assoc, UInt64.xor_self, UInt64.xor_zero, UInt64.mul_assoc,
    UInt64.mul_comm primeInverse, prime_mul_primeInverse, UInt64.mul_one]

theorem step_bijective (byte : UInt8) : Function.Bijective (step · byte) :=
  Function.bijective_iff_has_inverse.mpr
    ⟨(unstep · byte), fun _ => unstep_step, fun _ => step_unstep⟩

theorem step_byte_inj : step state byte = step state byte' ↔ byte = byte' := by
  refine ⟨fun h => ?_, fun h => h ▸ rfl⟩
  have hxor : state ^^^ byte.toUInt64 = state ^^^ byte'.toUInt64 := by
    rw [← step_mul_primeInverse, h, step_mul_primeInverse]
  exact UInt8.toUInt64_inj.mp ((UInt64.xor_right_inj state).mp hxor)

end

/-! ## Common ends -/

section
variable {state state' : UInt64} {bytes s s' t : List UInt8}

theorem absorb_cons {byte : UInt8} :
    absorb state (byte :: bytes) = absorb (step state byte) bytes := rfl

theorem absorb_bijective (bytes : List UInt8) : Function.Bijective (absorb · bytes) := by
  induction bytes with
  | nil => exact Function.bijective_id
  | cons byte bytes ih => exact ih.comp (step_bijective byte)

theorem absorb_inj : absorb state bytes = absorb state' bytes ↔ state = state' :=
  (absorb_bijective bytes).injective.eq_iff

theorem absorb_append_eq_iff :
    absorb state (s ++ t) = absorb state' (s' ++ t) ↔ absorb state s = absorb state' s' := by
  rw [absorb_append, absorb_append, absorb_inj]

theorem collide_append_iff : Collide (s ++ t) (s' ++ t) ↔ Collide s s' := by
  rw [Collide, Collide, ne_eq, List.append_left_inj, absorb_append_eq_iff]

end

/-! ## One changed byte -/

/-- The streams have one length, and different bytes at exactly one place. -/
def DifferInOneByte (s t : List UInt8) : Prop :=
  s.length = t.length ∧ (s.zip t).countP (fun p => p.1 ≠ p.2) = 1

instance (s t : List UInt8) : Decidable (DifferInOneByte s t) := inferInstanceAs (Decidable (_ ∧ _))

section
variable {s t : List UInt8}

theorem countP_zip_eq_zero_iff (hlength : s.length = t.length) :
    (s.zip t).countP (fun p => p.1 ≠ p.2) = 0 ↔ s = t := by
  induction s generalizing t with
  | nil => simp [List.length_eq_zero_iff.mp hlength.symm]
  | cons byte s ih =>
    cases t with
    | nil => cases hlength
    | cons byte' t =>
      rw [List.zip_cons_cons, List.countP_cons, Nat.add_eq_zero_iff, ih (Nat.succ.inj hlength)]
      simp [and_comm]

/-- Around the changed byte the streams agree. -/
theorem differInOneByte_iff :
    DifferInOneByte s t ↔ ∃ start rest byte byte', byte ≠ byte' ∧
      s = start ++ byte :: rest ∧ t = start ++ byte' :: rest := by
  constructor
  · intro h
    induction s generalizing t with
    | nil => cases h.2
    | cons byte s ih =>
      cases t with
      | nil => cases h.1
      | cons byte' t =>
        have htails : s.length = t.length := Nat.succ.inj h.1
        have hcount := h.2
        rw [List.zip_cons_cons, List.countP_cons] at hcount
        by_cases heq : byte = byte'
        · -- The changed byte is further on.
          subst heq
          obtain ⟨start, rest, changed, changed', hne, rfl, rfl⟩ :=
            ih ⟨htails, by simpa using hcount⟩
          exact ⟨byte :: start, rest, changed, changed', hne, rfl, rfl⟩
        · have hrest : s = t := (countP_zip_eq_zero_iff htails).mp (by simpa [heq] using hcount)
          exact ⟨[], s, byte, byte', heq, rfl, hrest ▸ rfl⟩
  · rintro ⟨start, rest, byte, byte', hne, rfl, rfl⟩
    have hself : ∀ l : List UInt8, (l.zip l).countP (fun p => p.1 ≠ p.2) = 0 :=
      fun l => (countP_zip_eq_zero_iff rfl).mpr rfl
    refine ⟨by simp, ?_⟩
    rw [List.zip_append rfl, List.zip_cons_cons, List.countP_append, List.countP_cons, hself, hself]
    simp [hne]

theorem DifferInOneByte.absorb_ne (h : DifferInOneByte s t) (state : UInt64) :
    absorb state s ≠ absorb state t := by
  obtain ⟨start, rest, byte, byte', hne, rfl, rfl⟩ := differInOneByte_iff.mp h
  intro heq
  rw [absorb_append, absorb_append, absorb_cons, absorb_cons, absorb_inj, step_byte_inj] at heq
  exact hne heq

end

/-! ## Ids -/

/-- Rules of which the streams differ in one byte have different ids. What two streams have in
common at their ends has no part in a collision, so rules with the same consequent collide exactly
if the bytes of their antecedents do. -/
theorem ids_of_changed_byte_and_common_end :
    (∀ antecedent consequent antecedent' consequent' : ItemSet,
      DifferInOneByte (stream antecedent consequent) (stream antecedent' consequent') →
      contentId antecedent consequent ≠ contentId antecedent' consequent') ∧
    (∀ s s' t : List UInt8,
      absorb offset (s ++ t) = absorb offset (s' ++ t) ↔ absorb offset s = absorb offset s') ∧
    ∀ antecedent antecedent' consequent : ItemSet,
      (contentId antecedent consequent = contentId antecedent' consequent ↔
        absorb offset (sideBytes antecedent) = absorb offset (sideBytes antecedent')) ∧
      (Collide (stream antecedent consequent) (stream antecedent' consequent) ↔
        Collide (sideBytes antecedent) (sideBytes antecedent')) := by
  refine ⟨fun antecedent consequent antecedent' consequent' hdiffer heq => ?_,
    fun s s' t => absorb_append_eq_iff, fun antecedent antecedent' consequent => ⟨?_, ?_⟩⟩
  · exact hdiffer.absorb_ne offset (contentId_eq_iff_absorb_eq.mp heq)
  · rw [contentId_eq_iff_absorb_eq, stream, stream, absorb_append_eq_iff]
  · rw [stream, stream, collide_append_iff]

/-- Two rules about annotations of which the names differ in the first letter. -/
theorem ids_of_getter_and_setter :
    let getter : ItemSet := .singleton "Method --(annotatedWith)--> Annotation_Get"
    let setter : ItemSet := .singleton "Method --(annotatedWith)--> Annotation_Set"
    let data : ItemSet := .singleton "Class --(annotatedWith)--> Annotation_Data"
    DifferInOneByte (stream getter data) (stream setter data) ∧
      contentId getter data ≠ contentId setter data ∧
      ¬Collide (sideBytes getter) (sideBytes setter) := by
  intro getter setter data
  obtain ⟨hchanged, -, hcommon⟩ := ids_of_changed_byte_and_common_end
  have hdiffer : DifferInOneByte (stream getter data) (stream setter data) := by
    decide +zetaReduce
  have hid := hchanged getter data setter data hdiffer
  obtain ⟨hids, -⟩ := hcommon getter setter data
  exact ⟨hdiffer, hid, fun hcollide => hid (hids.mpr hcollide.2)⟩

end Digest

end UsageRules

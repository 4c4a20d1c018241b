import UsageRules.ItemSet

/-! Content ids of rules: a 64-bit hash of a byte stream that spells out the two sides of a rule.
The stream has the items in ascending order, so it depends on the two sets only. -/

namespace UsageRules

namespace Digest

def offset : UInt64 := 0xcbf29ce484222325

def prime : UInt64 := 0x00000100000001b3

/-- Takes one byte into the state: exclusive or, then multiplication modulo `2 ^ 64`. -/
def step (state : UInt64) (byte : UInt8) : UInt64 := (state ^^^ byte.toUInt64) * prime

def absorb (state : UInt64) (bytes : List UInt8) : UInt64 := bytes.foldl step state

/-- The byte after each item. -/
def itemEnd : UInt8 := 0x1f

/-- The byte between the two sides. -/
def sideEnd : UInt8 := 0x1e

/-- The bytes of the items of one side, each followed by `itemEnd`. -/
def sideBytes (items : ItemSet) : List UInt8 :=
  items.toList.flatMap fun item => item.toUTF8.data.toList ++ [itemEnd]

def stream (antecedent consequent : ItemSet) : List UInt8 :=
  sideBytes antecedent ++ sideEnd :: sideBytes consequent

theorem absorb_append (state : UInt64) (s t : List UInt8) :
    absorb state (s ++ t) = absorb (absorb state s) t := List.foldl_append

end Digest

abbrev RuleId := Int64

def contentId (antecedent consequent : ItemSet) : RuleId :=
  (Digest.absorb Digest.offset (Digest.stream antecedent consequent)).toInt64

end UsageRules

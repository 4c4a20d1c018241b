import Std.Data.TreeSet
import UsageRules.ItemSet
import UsageRules.SortedMap

/-! An index for exact counts: for each item, which transactions contain it. -/

namespace UsageRules

/-- For each item a row, which holds the numbers of the transactions that contain it, and how many
transactions there are. Transactions are numbered from zero, in their order. -/
structure SupportIndex where
  rows : SortedMap String (Std.TreeSet Nat) := ∅
  count : Nat := 0

namespace SupportIndex

/-- Puts the number of a transaction into the row of one of its items. -/
def enter (number : Nat) (rows : SortedMap String (Std.TreeSet Nat)) (item : String) :
    SortedMap String (Std.TreeSet Nat) :=
  rows.update item fun row => (row.getD ∅).insert number

/-- Indexes one more transaction. It counts even if it has no items. -/
def add (ix : SupportIndex) (t : ItemSet) : SupportIndex where
  rows := t.toList.foldl (enter ix.count) ix.rows
  count := ix.count + 1

def build (transactions : List ItemSet) : SupportIndex := transactions.foldl add {}

/-- The transactions of a row among those that are left; before the first row all are left. -/
def meet : Option (Std.TreeSet Nat) → Std.TreeSet Nat → Std.TreeSet Nat
  | none, row => row
  | some kept, row => kept ∩ row

/-- Narrows the transactions that are left down to those that contain the item too. There is no
result if the item is unknown or no transaction is left. -/
def narrow (ix : SupportIndex) (left : Option (Std.TreeSet Nat)) (item : String) :
    Option (Std.TreeSet Nat) := do
  let row ← ix.rows.get? item
  let next := meet left row
  if next.isEmpty then none else some next

/-- Counts the transactions that are left after all items, and stops as soon as none is. -/
def supportFrom (ix : SupportIndex) : Option (Std.TreeSet Nat) → List String → Nat
  | none, [] => ix.count
  | some kept, [] => kept.size
  | left, item :: items =>
    match ix.narrow left item with
    | none => 0
    | some next => ix.supportFrom (some next) items

/-- The number of transactions that contain every listed item; all contain the empty list. -/
def support (ix : SupportIndex) (items : List String) : Nat := ix.supportFrom none items

end SupportIndex

end UsageRules

import RecordBuffer.Memory

/-!
# Comparators

A comparator orders payloads. The stable sort of a list of payloads keeps those
that compare equal in the order in which they came.
-/

namespace RecordBuffer

/-- An order on payloads, not necessarily a consistent one. -/
abbrev Comparator := Bytes → Bytes → Ordering

namespace Comparator

/-- The payload on the left may stay in front of the one on the right. -/
def le (compare : Comparator) (left right : Bytes) : Bool := (compare left right).isLE

/-- The stable sort of a list of payloads. -/
def sort (compare : Comparator) (payloads : List Bytes) : List Bytes :=
  payloads.mergeSort compare.le

end Comparator

end RecordBuffer

import RecordBuffer.Comparator
import RecordBuffer.Decimal.Rounding

/-!
# Orders on payloads

Some orders have names. A sort order is put together from flags: a key decides
first, and where keys are equal the bytes may decide as a last resort.
-/

namespace RecordBuffer

namespace Comparator

/-- By bytes as unsigned numbers; a payload comes before its continuations. -/
def bytewise : Comparator := compare

/-- By length alone. -/
def length : Comparator := fun left right => compare left.length right.length

/-- By length, then by bytes. -/
def lengthBytes : Comparator := fun left right => (length left right).then (bytewise left right)

/-- By the first byte alone; an empty payload comes first. -/
def firstByte : Comparator := fun left right => compare left.head? right.head?

/-- By the last byte alone; an empty payload comes first. -/
def lastByte : Comparator := fun left right => compare left.getLast? right.getLast?

/-- All payloads are equal. -/
def equal : Comparator := fun _ _ => .eq

/-- By the rounded leading numbers. -/
def numeric : Comparator := fun left right =>
  compare (Decimal.leading left).rounded (Decimal.leading right).rounded

/-- An ASCII lower case letter as upper case, every other byte as itself. -/
def upperCase (byte : UInt8) : UInt8 :=
  if 0x61 ≤ byte ∧ byte ≤ 0x7a then byte - 0x20 else byte

/-- By bytes, with ASCII letters of either case alike. -/
def foldCase : Comparator := fun left right =>
  bytewise (left.map upperCase) (right.map upperCase)

/-- The other way round. -/
def swap (order : Comparator) : Comparator := fun left right => order right left

end Comparator

/-- What decides the order of payloads. -/
structure SortOrder where
  reverse : Bool := false
  numeric : Bool := false
  foldCase : Bool := false
  /-- Payloads with equal keys are duplicates. -/
  unique : Bool := false
  /-- Payloads with equal keys keep their order. -/
  stable : Bool := false
  deriving DecidableEq, Repr, Inhabited

namespace SortOrder

/-- Bytes decide between equal keys unless that would tell duplicates apart or undo stability. -/
def lastResort (order : SortOrder) : Bool := !order.stable && !order.unique

/-- The comparison of keys. A numeric key takes precedence over folded case. -/
def compareKeys (order : SortOrder) : Comparator :=
  if order.numeric then Comparator.numeric
  else if order.foldCase then Comparator.foldCase
  else Comparator.bytewise

/-- The comparison of payloads. Reversal applies to the keys and to the last resort alike. -/
def compare (order : SortOrder) : Comparator := fun left right =>
  let decided := (order.compareKeys left right).then
    (if order.lastResort then Comparator.bytewise left right else .eq)
  if order.reverse then decided.swap else decided

end SortOrder

end RecordBuffer

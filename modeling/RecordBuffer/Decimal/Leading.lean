import RecordBuffer.Memory

/-!
# The leading number of a payload

A payload may start with a decimal number: blanks, a sign, digits, and a point
with digits behind it, all of them optional. Whatever follows is ignored, and
without a digit the number is zero.
-/

namespace RecordBuffer

/-- The number `numerator / 10 ^ places`, negated or not. -/
structure Decimal where
  negative : Bool
  numerator : Nat
  places : Nat
  deriving DecidableEq, Repr, Inhabited

namespace Decimal

/-- A space or a tab. -/
def isBlank (byte : UInt8) : Bool := byte == 0x20 || byte == 0x09

/-- One of the ten ASCII digits. -/
def isDigit (byte : UInt8) : Bool := 0x30 ≤ byte && byte ≤ 0x39

/-- The number that a string of ASCII digits denotes; none denote zero. -/
def ofDigits (digits : Bytes) : Nat :=
  digits.foldl (fun number digit => number * 10 + (digit.toNat - 0x30)) 0

/-- Whether a minus comes first, and what follows one sign if there is any. -/
def splitSign : Bytes → Bool × Bytes
  | 0x2d :: rest => (true, rest)
  | 0x2b :: rest => (false, rest)
  | unsigned => (false, unsigned)

/-- The digits behind a point that comes first; none if there is no point. -/
def fractionDigits : Bytes → Bytes
  | 0x2e :: rest => rest.takeWhile isDigit
  | _ => []

/-- The number that a payload starts with. -/
def leading (payload : Bytes) : Decimal :=
  let (negative, unsigned) := splitSign (payload.dropWhile isBlank)
  let whole := unsigned.takeWhile isDigit
  let fraction := fractionDigits (unsigned.dropWhile isDigit)
  ⟨negative, ofDigits (whole ++ fraction), fraction.length⟩

end Decimal

end RecordBuffer

/-!
# Size limits

Sizes, offsets and counts are natural numbers. The limits below say which of
them a 64-bit machine can hold, keep in memory, keep in a file or map. How much
it maps below the last limit is for the machine to say.
-/

namespace RecordBuffer.Limits

/-- The largest size, offset or count: 64 bits. -/
def maxSize : Nat := 0xffffffffffffffff

/-- The longest file, and the longest span of memory obtained or mapped at once: 63 bits. -/
def maxExtent : Nat := 0x7fffffffffffffff

/-- A length that a machine usually agrees to map: what lies below the addresses where programs are
placed. Nothing is proved of it. -/
def usualMapping : Nat := 0x555555554000

/-- Payload lengths that fit the four bytes in front of a record are below this bound. -/
def payloadBound : Nat := 0x100000000

end RecordBuffer.Limits

import RecordBuffer.Buffer.Basic

/-!
# The chain of records

A record says where the next one starts, so the records of a buffer are visited
by following offsets. `recordAt_next` says that the offsets rise, and so every
walk ends.
-/

namespace RecordBuffer

/-- The payload length declared by the four bytes at an address. -/
def Memory.payloadLength (memory : Memory) (address : Nat) : Nat :=
  Record.ofDigits (memory.get address) (memory.get (address + 1)) (memory.get (address + 2))
    (memory.get (address + 3))

/-- A record met on a walk. -/
structure Visit where
  offset : Nat
  payload : Bytes
  deriving DecidableEq, Repr, Inhabited

/-- The records met on a walk, and the offset at which it ended. -/
structure Trail where
  visits : List Visit
  stop : Nat
  deriving DecidableEq, Repr, Inhabited

namespace Buffer

/-- The payload of the record at an offset and the offset of the record behind it, which is zero
once that is not below the cursor. Where no header lies below the cursor, and at the reserved
offset, there is an empty payload and nothing behind it. -/
def recordAt (buffer : Buffer) (offset : Nat) : Except Fault (Bytes × Nat) :=
  if offset = 0 ∨ buffer.cursor < offset + Record.headerSize then .ok ([], 0)
  else
    let start := offset + Record.headerSize
    let length := buffer.memory.payloadLength offset
    if buffer.capacity < start + length then
      .error (.recordPastCapacity offset buffer.capacity)
    else
      .ok (buffer.memory.slice start length,
        if buffer.cursor ≤ start + length then 0 else start + length)

/-- The offset behind a record is zero or larger than its own by at least a header. -/
theorem recordAt_next {buffer : Buffer} {offset next : Nat} {payload : Bytes}
    (read : buffer.recordAt offset = .ok (payload, next)) :
    next = 0 ∨ offset + Record.headerSize ≤ next := by
  grind [recordAt]

/-- Visit the records from an offset on, up to the end of the chain or a bound. -/
def trail (buffer : Buffer) (offset bound : Nat) : Except Fault Trail :=
  if offset = 0 ∨ bound ≤ offset then .ok ⟨[], offset⟩
  else
    match _ : buffer.recordAt offset with
    | .error fault => .error fault
    | .ok (payload, next) =>
        if next = 0 then .ok ⟨[⟨offset, payload⟩], 0⟩
        else
          match buffer.trail next bound with
          | .error fault => .error fault
          | .ok rest => .ok ⟨⟨offset, payload⟩ :: rest.visits, rest.stop⟩
  termination_by bound - offset
  decreasing_by
    have rises := recordAt_next ‹buffer.recordAt offset = _›
    simp only [Record.headerSize] at rises
    omega

/-- Visit the records from `start` on whose offsets are below `stop` and below the cursor. -/
def recordRange (buffer : Buffer) (start stop : Nat) : Except Fault Trail :=
  buffer.trail start (min stop buffer.cursor)

/-- The payloads of all records in the order in which they were written. -/
def records (buffer : Buffer) : Except Fault (List Bytes) := do
  let trail ← buffer.trail 1 buffer.cursor
  return trail.visits.map Visit.payload

end Buffer

end RecordBuffer

import RecordBuffer.Buffer.Chain
import RecordBuffer.Comparator

/-!
# Sorting chunks of records

A range of records is cut into chunks of a fixed number of records, and each
chunk is sorted by itself. The sorted records of a chunk are written back in
place, which is refused unless they fill exactly the span they came from.
-/

namespace RecordBuffer

/-- Leave out `skip` elements, keep one, and go on leaving out one fewer than `period`. -/
def everyNth {α : Type} (period : Nat) : Nat → List α → List α
  | _, [] => []
  | 0, kept :: rest => kept :: everyNth period (period - 1) rest
  | skip + 1, _ :: rest => everyNth period skip rest

namespace Buffer

/-- The offsets at which the chunks of a range start, closed by the end of the range. -/
def chunkBounds (buffer : Buffer) (start stop chunkSize : Nat) : Except Fault (List Nat) := do
  let trail ← buffer.trail start stop
  return everyNth chunkSize 0 (trail.visits.map Visit.offset) ++ [stop]

/-- The whole record at an offset, which may reach past the cursor but not past the capacity. -/
def recordBytes (buffer : Buffer) (offset : Nat) : Except Fault Bytes :=
  let length := Record.size (buffer.memory.payloadLength offset)
  if buffer.capacity < offset + Record.headerSize ∨ buffer.capacity < offset + length then
    .error .outOfBounds
  else .ok (buffer.memory.slice offset length)

/-- Sort the records from `start` to `stop` and write them back in place. -/
def orderChunk (buffer : Buffer) (compare : Comparator) (start stop : Nat) :
    Except Fault Buffer := do
  let trail ← buffer.trail start stop
  let sorted := trail.visits.mergeSort fun left right => compare.le left.payload right.payload
  let records ← sorted.mapM fun visit => buffer.recordBytes visit.offset
  let bytes := records.flatten
  if bytes.length ≠ stop - start then throw (.chunkResized bytes.length (stop - start))
  return buffer.overwrite start bytes

/-- Sort every chunk between two neighbouring bounds. -/
def orderChunks (buffer : Buffer) (compare : Comparator) : List Nat → Except Fault Buffer
  | start :: stop :: rest => do
      (← buffer.orderChunk compare start stop).orderChunks compare (stop :: rest)
  | _ => .ok buffer

end Buffer

end RecordBuffer

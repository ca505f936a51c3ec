import RecordBuffer.Buffer.Chunk
import RecordBuffer.Buffer.Merge

/-!
# Sorting in place

The records of a range are sorted without being decoded: in chunks first, and
then by merging the chunks over a balanced tree. The sort is stable.
-/

namespace RecordBuffer.Buffer

/-- Records per chunk where nothing else is asked for. -/
def defaultChunkSize : Nat := 1024

/-- Bytes that note the offset of one record of a chunk. -/
def offsetSize : Nat := 8

/-- Sort the records from `start` to `stop`, both of them where a record starts or ends. A `stop`
past the cursor means the cursor, and a range without bytes stays as it is. -/
def sortRange (buffer : Buffer) (compare : Comparator) (start stop chunkSize : Nat) :
    Except Fault Buffer := do
  let stop := min stop buffer.cursor
  if stop ≤ start then return buffer
  if start = 0 then throw .zeroSortStart
  if chunkSize = 0 then throw .zeroChunkSize
  let bounds ← buffer.chunkBounds start stop chunkSize
  if Limits.maxExtent < offsetSize * chunkSize then throw .capacityOverflow
  let chunked ← buffer.orderChunks compare bounds
  chunked.mergeAll compare bounds.toArray (mergePlan 0 (bounds.length - 1))

/-- Sort all records. -/
def sort (buffer : Buffer) (compare : Comparator) : Except Fault Buffer :=
  buffer.sortRange compare 1 buffer.cursor defaultChunkSize

end RecordBuffer.Buffer

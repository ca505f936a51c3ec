import RecordBuffer.Buffer.Access
import RecordBuffer.Buffer.Sort
import RecordBuffer.Stream

/-!
# Operations on a buffer

Everything that can be done with an open buffer, as data, so that one can speak
of any sequence of operations. An operation gives a reply or an error together
with the buffer afterwards, or ends in a fault.
-/

namespace RecordBuffer

/-- What to do with a buffer. Where bytes are allocated, `fill` is what the caller puts there. -/
inductive Operation where
  | flush
  | reset
  | grow (request : Nat)
  | append (bytes : Bytes)
  /-- Allocate without looking at the bytes. -/
  | advance (count : Nat)
  | allocate (count : Nat) (fill : Option Bytes)
  | allocateRecord (length : Nat) (fill : Option Bytes)
  | appendRecord (payload : Bytes)
  | bytes
  | first (count : Nat)
  | readSpan (count offset : Nat)
  | writeSpan (bytes : Bytes) (offset : Nat)
  | placeRecord (payload : Bytes) (offset : Nat)
  | recordAt (offset : Nat)
  | records
  | recordRange (start stop : Nat)
  | sort (compare : Comparator)
  | sortRange (compare : Comparator) (start stop chunkSize : Nat)
  | storeStream (stream : Stream) (delimiter : UInt8)
  | delimited (order : SortOrder) (delimiter : UInt8)

/-- What an operation found or did. -/
inductive Reply where
  | done
  | count (number : Nat)
  | bytes (bytes : Bytes)
  /-- An offset handed out, and the allocated bytes as they were before they were filled. -/
  | allocated (offset : Nat) (before : Bytes)
  | record (payload : Bytes) (next : Nat)
  | payloads (payloads : List Bytes)
  | trail (trail : Trail)
  deriving DecidableEq, Repr, Inhabited

namespace Buffer

/-- Fill an allocated span, which has to take all of the bytes and be filled by them. -/
def fill (buffer : Buffer) (offset count : Nat) : Option Bytes → Except Fault Buffer
  | none => .ok buffer
  | some bytes =>
      if bytes.length = count then .ok (buffer.overwrite offset bytes) else .error .outOfBounds

/-- Fill a span that was allocated at an offset, and reply with what it held before. -/
def replyAllocated (buffer : Buffer) (offset start count : Nat) (bytes : Option Bytes) :
    Except Fault (Buffer × Except StorageError Reply) := do
  let before := buffer.memory.slice start count
  return (← buffer.fill start count bytes, .ok (.allocated offset before))

/-- Carry out an operation. -/
def perform (buffer : Buffer) : Operation → Except Fault (Buffer × Except StorageError Reply)
  | .flush => .ok (buffer, .ok .done)
  | .reset => .ok (buffer.reset, .ok .done)
  | .grow request => do return (← buffer.grow request, .ok .done)
  | .append bytes => do return (← buffer.append bytes, .ok (.count bytes.length))
  | .advance count => do
      let (offset, buffer) ← buffer.allocate count
      return (buffer, .ok (.count offset))
  | .allocate count fill => do
      let (offset, buffer) ← buffer.allocate count
      buffer.replyAllocated offset offset count fill
  | .allocateRecord length fill => do
      let (offset, buffer) ← buffer.allocateRecord length
      buffer.replyAllocated offset (offset + Record.headerSize) length fill
  | .appendRecord payload => do
      let (offset, buffer) ← buffer.appendRecord payload
      return (buffer, .ok (.count offset))
  | .bytes => .ok (buffer, .ok (.bytes buffer.bytes))
  | .first count => .ok (buffer, (buffer.first count).map .bytes)
  | .readSpan count offset => .ok (buffer, (buffer.readSpan count offset).map .bytes)
  | .writeSpan bytes offset =>
      match buffer.writeSpan bytes offset with
      | .ok written => .ok (written, .ok (.count bytes.length))
      | .error error => .ok (buffer, .error error)
  | .placeRecord payload offset => do
      match ← buffer.placeRecord payload offset with
      | .ok written => return (written, .ok (.count payload.length))
      | .error error => return (buffer, .error error)
  | .recordAt offset => do
      let (payload, next) ← buffer.recordAt offset
      return (buffer, .ok (.record payload next))
  | .records => do return (buffer, .ok (.payloads (← buffer.records)))
  | .recordRange start stop => do
      return (buffer, .ok (.trail (← buffer.recordRange start stop)))
  | .sort compare => do return (← buffer.sort compare, .ok .done)
  | .sortRange compare start stop chunkSize => do
      return (← buffer.sortRange compare start stop chunkSize, .ok .done)
  | .storeStream stream delimiter => do
      let (buffer, stored) ← buffer.storeStream stream delimiter
      return (buffer, stored.map .count)
  | .delimited order delimiter => do
      return (buffer, .ok (.bytes (← buffer.delimited order delimiter)))

end Buffer

end RecordBuffer

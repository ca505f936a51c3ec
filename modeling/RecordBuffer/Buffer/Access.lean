import RecordBuffer.Buffer.Basic

/-!
# Positional access

Any span below the capacity can be read and overwritten, on either side of the
cursor. A span that reaches further is refused and leaves the buffer as it was.
-/

namespace RecordBuffer.Buffer

/-- The first `count` bytes, the reserved one included. -/
def first (buffer : Buffer) (count : Nat) : Except StorageError Bytes :=
  if buffer.capacity < count then .error (.capacity count buffer.capacity)
  else .ok (buffer.memory.slice 0 count)

/-- Refuse a span that reaches past the capacity. -/
def checkSpan (buffer : Buffer) (access : Access) (length offset : Nat) :
    Except StorageError Unit :=
  if offset + length ≤ buffer.capacity then .ok ()
  else .error (.outOfBounds access length offset buffer.capacity)

/-- The `count` bytes at an offset. -/
def readSpan (buffer : Buffer) (count offset : Nat) : Except StorageError Bytes := do
  buffer.checkSpan .read count offset
  return buffer.memory.slice offset count

/-- Overwrite the bytes at an offset. -/
def writeSpan (buffer : Buffer) (bytes : Bytes) (offset : Nat) : Except StorageError Buffer := do
  buffer.checkSpan .write bytes.length offset
  return buffer.overwrite offset bytes

/-- Overwrite the bytes at an offset with a record. A payload without a header is refused for good
where a span of its size can be addressed. -/
def placeRecord (buffer : Buffer) (payload : Bytes) (offset : Nat) :
    Except Fault (Except StorageError Buffer) :=
  match buffer.checkSpan .writeRecord (Record.size payload.length) offset with
  | .error error => .ok (.error error)
  | .ok () =>
      if Limits.payloadBound ≤ payload.length then .error (.payloadTooLong payload.length)
      else .ok (.ok (buffer.overwrite offset (Record.encode payload)))

end RecordBuffer.Buffer

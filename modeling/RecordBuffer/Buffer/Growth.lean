import RecordBuffer.Buffer.Basic

/-!
# Growth and appending

Whatever is added goes behind the cursor, after the capacity has grown to hold
it. Growth fails only if the maximum size forbids it, and never moves a byte
below the cursor.
-/

namespace RecordBuffer.Buffer

/-- The longest step by which a capacity grows beyond what is requested: one GiB. -/
def longestStep : Nat := 0x40000000

/-- The capacity after making room for a request: it grows by itself and the request together,
by no more than `longestStep` unless the request is larger, and not past the maximum size. -/
def grownCapacity (buffer : Buffer) (request : Nat) : Nat :=
  min (buffer.capacity + max (min (buffer.capacity + request) longestStep) request) buffer.maxSize

/-- Give a buffer a new capacity. Memory of its own is obtained anew and receives only the bytes
below the cursor. A mapped file is cut or extended with zeros to be as long as the capacity. -/
def extend (buffer : Buffer) (capacity : Nat) : Except Fault Buffer :=
  match buffer.backing with
  | .mapped _ _ =>
      .ok { buffer with
        capacity
        backed := capacity
        memory := buffer.memory.truncate (min buffer.backed capacity) }
  | .heap =>
      if Limits.maxExtent < capacity then .error .capacityOverflow
      else
        .ok { buffer with
          capacity
          backed := capacity
          memory := buffer.memory.truncate buffer.cursor }

/-- Make room for `request` bytes behind the cursor. The capacity stays while more than that is
free, and when it has reached the maximum size. -/
def grow (buffer : Buffer) (request : Nat) : Except Fault Buffer :=
  if buffer.maxSize - buffer.cursor < request then
    .error (.bufferFull buffer.maxSize buffer.cursor request)
  else if request < buffer.capacity - buffer.cursor then .ok buffer
  else if buffer.grownCapacity request = buffer.capacity then .ok buffer
  else buffer.extend (buffer.grownCapacity request)

/-- Move the cursor over `count` bytes, whatever they hold, and say where they start. -/
def allocate (buffer : Buffer) (count : Nat) : Except Fault (Nat × Buffer) := do
  let buffer ← buffer.grow count
  return (buffer.cursor, { buffer with cursor := buffer.cursor + count })

/-- Write bytes behind the cursor. -/
def append (buffer : Buffer) (bytes : Bytes) : Except Fault Buffer := do
  let (offset, buffer) ← buffer.allocate bytes.length
  return buffer.overwrite offset bytes

/-- Write the header of a record, move the cursor over its payload, whatever that holds, and say
where the record starts. -/
def allocateRecord (buffer : Buffer) (length : Nat) : Except Fault (Nat × Buffer) := do
  let buffer ← buffer.grow (← Record.checkedSize length)
  let (offset, buffer) ← buffer.allocate Record.headerSize
  if Limits.payloadBound ≤ length then throw (.payloadTooLong length)
  let (_, buffer) ← (buffer.overwrite offset (Record.header length)).allocate length
  return (offset, buffer)

/-- Write a record behind the cursor and say where it starts. -/
def appendRecord (buffer : Buffer) (payload : Bytes) : Except Fault (Nat × Buffer) := do
  let (offset, buffer) ← buffer.allocateRecord payload.length
  return (offset, buffer.overwrite (offset + Record.headerSize) payload)

end RecordBuffer.Buffer

import RecordBuffer.Limits
import RecordBuffer.Memory
import RecordBuffer.Record
import RecordBuffer.StorageError

/-!
# Buffers

A buffer is a memory with a write cursor. The bytes below the cursor were
written, those from the cursor to the capacity can be addressed but mean
nothing, and the capacity may grow up to a fixed maximum. Offset zero is
reserved: it stands for the end of a chain of records.
-/

namespace RecordBuffer

/-- Where a buffer may keep its bytes. -/
inductive Kind where
  | heap
  | mapped
  deriving DecidableEq, Repr, Inhabited

/-- The word for a kind. -/
def Kind.word : Kind → String
  | heap => "heap"
  | mapped => "mmap"

/-- Where a buffer keeps its bytes: in memory of its own, or in a file. -/
inductive Backing where
  | heap
  | mapped (number : Nat) (name : FileName)
  deriving DecidableEq, Repr, Inhabited

/-- A growable sequence of bytes with a write cursor. -/
structure Buffer where
  backing : Backing
  memory : Memory
  /-- How many bytes the backing has room for. It differs from the capacity only after something
  else has changed the length of a mapped file. -/
  backed : Nat
  cursor : Nat
  capacity : Nat
  maxSize : Nat
  deriving Inhabited, Repr

namespace Buffer

/-- The initial size that zero stands for. -/
def defaultInitialSize : Nat := 64

/-- The maximum size that zero stands for: 31 bits. -/
def defaultMaxSize : Nat := 0x7fffffff

/-- Zero stands for a default. -/
def orDefault (default size : Nat) : Nat := if size = 0 then default else size

/-- The cursor is behind the reserved byte, and the sizes are in order. -/
structure WellFormed (buffer : Buffer) : Prop where
  one_le_cursor : 1 ≤ buffer.cursor
  cursor_le_capacity : buffer.cursor ≤ buffer.capacity
  capacity_le_maxSize : buffer.capacity ≤ buffer.maxSize
  backed_eq_capacity : buffer.backed = buffer.capacity
  /-- Nothing was written where nothing can be addressed. -/
  get_eq_zero : ∀ address, buffer.capacity ≤ address → buffer.memory.get address = 0

/-- Where a buffer keeps its bytes. -/
def kind (buffer : Buffer) : Kind :=
  match buffer.backing with
  | .heap => .heap
  | .mapped _ _ => .mapped

/-- The name of the file behind a mapped buffer. -/
def file? (buffer : Buffer) : Option FileName :=
  match buffer.backing with
  | .heap => none
  | .mapped _ name => some name

/-- A buffer is empty while only the reserved byte lies below the cursor. -/
def isEmpty (buffer : Buffer) : Bool := buffer.cursor == 1

/-- The written bytes, without the reserved one. -/
def bytes (buffer : Buffer) : Bytes := buffer.memory.slice 1 (buffer.cursor - 1)

/-- Forget what was written and keep the capacity. -/
def reset (buffer : Buffer) : Buffer := { buffer with cursor := 1 }

/-- Put bytes at an offset without moving the cursor. -/
def overwrite (buffer : Buffer) (offset : Nat) (bytes : Bytes) : Buffer :=
  { buffer with memory := buffer.memory.write offset bytes }

/-- A buffer of its own memory that may grow without a limit worth the name. -/
def new (size : Nat) : Except Fault Buffer :=
  let size := orDefault defaultInitialSize size
  if Limits.maxExtent < size then .error .capacityOverflow
  else .ok ⟨.heap, .blank, size, 1, size, Limits.maxSize⟩

end Buffer

end RecordBuffer

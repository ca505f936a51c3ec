/-!
# Sparse byte memory

A memory holds one byte at every address and reads zero wherever nothing was
written, so its cost follows what was written and not how far the addresses
reach. `get_set` is the law of a single byte, `get_write` and `slice_write`
those of a span.
-/

namespace RecordBuffer

/-- A string of bytes. -/
abbrev Bytes := List UInt8

/-- The byte of a node has address zero. Address `i + 1` is address `i / 2` of the
odd branch if `i` is even and of the even branch if `i` is odd. -/
inductive Memory where
  | blank
  | node (byte : UInt8) (odd even : Memory)
  deriving Inhabited, Repr

namespace Memory

/-- The byte at an address. -/
def get : Memory → Nat → UInt8
  | blank, _ => 0
  | node byte _ _, 0 => byte
  | node _ odd even, i + 1 => if i % 2 = 0 then odd.get (i / 2) else even.get (i / 2)

/-- Put a byte at an address. -/
def set (memory : Memory) (address : Nat) (byte : UInt8) : Memory :=
  match address, memory with
  | 0, blank => node byte blank blank
  | 0, node _ odd even => node byte odd even
  | i + 1, blank =>
      if i % 2 = 0 then node 0 (blank.set (i / 2) byte) blank
      else node 0 blank (blank.set (i / 2) byte)
  | i + 1, node old odd even =>
      if i % 2 = 0 then node old (odd.set (i / 2) byte) even
      else node old odd (even.set (i / 2) byte)
  termination_by address

/-- Zero every address from `bound` on. -/
def truncate : Memory → Nat → Memory
  | blank, _ => blank
  | node _ _ _, 0 => blank
  | node byte odd even, bound + 1 =>
      node byte (odd.truncate ((bound + 1) / 2)) (even.truncate (bound / 2))

/-- Put a string of bytes at the addresses from `start` on. -/
def write (memory : Memory) (start : Nat) : Bytes → Memory
  | [] => memory
  | byte :: rest => (memory.set start byte).write (start + 1) rest

/-- The `count` bytes from `start` on. -/
def slice (memory : Memory) (start count : Nat) : Bytes :=
  (List.range' start count).map memory.get

@[simp]
theorem get_blank (address : Nat) : blank.get address = 0 := by
  simp [get]

theorem get_set (memory : Memory) (address other : Nat) (byte : UInt8) :
    (memory.set address byte).get other =
      if other = address then byte else memory.get other := by
  fun_induction set memory address byte generalizing other <;> cases other <;> grind [get]

theorem get_truncate (memory : Memory) (bound address : Nat) :
    (memory.truncate bound).get address =
      if address < bound then memory.get address else 0 := by
  fun_induction truncate memory bound generalizing address <;> cases address <;> grind [get]

theorem get_write (memory : Memory) (start : Nat) (bytes : Bytes) (address : Nat) :
    (memory.write start bytes).get address =
      if start ≤ address then bytes.getD (address - start) (memory.get address)
      else memory.get address := by
  induction bytes generalizing memory start with
  | nil => simp [write]
  | cons byte rest ih =>
      rw [write, ih, get_set]
      rcases Nat.lt_trichotomy address start with h | h | h
      · grind
      · grind
      · obtain ⟨gap, rfl⟩ := Nat.exists_eq_add_of_lt h
        have hgap : start + gap + 1 - (start + 1) = gap := by omega
        have hgap' : start + gap + 1 - start = gap + 1 := by omega
        simp [hgap, hgap', show start + 1 ≤ start + gap + 1 by omega,
          show start ≤ start + gap + 1 by omega, show start + gap + 1 ≠ start by omega]

@[simp]
theorem length_slice (memory : Memory) (start count : Nat) :
    (memory.slice start count).length = count := by
  simp [slice]

theorem slice_add (memory : Memory) (start first second : Nat) :
    memory.slice start (first + second) =
      memory.slice start first ++ memory.slice (start + first) second := by
  simp [slice, ← List.range'_append_1]

/-- Two memories give the same slice exactly if they agree on the span. -/
theorem slice_congr {left right : Memory} {start count : Nat}
    (agree : ∀ address, start ≤ address → address < start + count →
      left.get address = right.get address) :
    left.slice start count = right.slice start count := by
  unfold slice
  apply List.map_congr_left
  intro address member
  obtain ⟨h, h'⟩ := List.mem_range'_1.mp member
  exact agree address h h'

/-- A written string is read back. -/
theorem slice_write (memory : Memory) (start : Nat) (bytes : Bytes) :
    (memory.write start bytes).slice start bytes.length = bytes := by
  apply List.ext_getElem
  · simp
  · intro i h h'
    simp [slice, get_write, h']

end Memory

end RecordBuffer

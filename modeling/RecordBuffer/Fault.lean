/-!
# Faults

A fault is the refusal of a call that its caller should not have made. It ends
the run: nothing is read or written after it.
-/

namespace RecordBuffer

/-- Why a call was refused for good. -/
inductive Fault where
  /-- A payload too long for the four bytes that hold its length. -/
  | payloadTooLong (length : Nat)
  /-- A buffer asked to start out larger than it may become. -/
  | initialSizeExceedsMax (size max : Nat)
  /-- A request that can never fit behind the cursor. -/
  | bufferFull (max cursor request : Nat)
  /-- A record whose declared end lies behind the capacity. -/
  | recordPastCapacity (offset capacity : Nat)
  /-- A sort that starts at the reserved offset. -/
  | zeroSortStart
  /-- A sort in chunks of no records. -/
  | zeroChunkSize
  /-- A span too long for memory. -/
  | capacityOverflow
  /-- A size that 64 bits cannot hold. -/
  | sizeOverflow
  /-- A sorted chunk whose records do not fill exactly the chunk's span. -/
  | chunkResized (written span : Nat)
  /-- A merge that ran out of right records where the left ones do not fit. -/
  | leftRunMisfit (remaining room : Nat)
  /-- A merge that ran out of left records before the right ones were in place. -/
  | rightRunMisplaced (destination source : Nat)
  /-- A span of bytes that is not wholly there. -/
  | outOfBounds
  deriving DecidableEq, Repr, Inhabited

namespace Fault

/-- The text that reports a fault. -/
def message : Fault → String
  | payloadTooLong length => s!"record payload of {length} bytes exceeds u32 length prefix"
  | initialSizeExceedsMax size max => s!"initial size {size} exceeds max size {max}"
  | bufferFull max cursor request =>
      s!"Buffer max size exceeded: {max}. Offset: {cursor}. Grow: {request}"
  | recordPastCapacity offset capacity =>
      s!"record at offset {offset} runs past capacity {capacity}"
  | zeroSortStart => "start can never be zero"
  | zeroChunkSize => "chunk size must be positive"
  | capacityOverflow => "capacity overflow"
  | sizeOverflow => "size overflow"
  | chunkResized _ _ => "chunk changed size while sorting"
  | leftRunMisfit _ _ => "left run does not fill the merge range"
  | rightRunMisplaced _ _ => "right run is not in place"
  | outOfBounds => "span out of bounds"

/-- The two numbers that should have been equal, for a fault that compares numbers. -/
def comparison? : Fault → Option (Nat × Nat)
  | chunkResized written span => some (written, span)
  | leftRunMisfit remaining room => some (remaining, room)
  | rightRunMisplaced destination source => some (destination, source)
  | _ => none

end Fault

/-- Two computations in a row succeed exactly if both do. -/
theorem bind_eq_ok {ε α β : Type} {first : Except ε α} {second : α → Except ε β} {result : β} :
    first >>= second = .ok result ↔ ∃ value, first = .ok value ∧ second value = .ok result := by
  cases first with
  | error failure => simp [bind, Except.bind]
  | ok value => simp [bind, Except.bind]

/-- Two computations in a row fail exactly if the first one does, or the second one behind it. -/
theorem bind_eq_error {ε α β : Type} {first : Except ε α} {second : α → Except ε β} {failure : ε} :
    first >>= second = .error failure ↔
      first = .error failure ∨ ∃ value, first = .ok value ∧ second value = .error failure := by
  cases first with
  | error other => simp [bind, Except.bind]
  | ok value => simp [bind, Except.bind]

/-- What cannot fail behind a computation leaves its failures as they are. -/
theorem bind_eq_error_of_ok {ε α β : Type} {first : Except ε α} {second : α → Except ε β}
    {failure : ε} (hsecond : ∀ value, ∃ result, second value = .ok result) :
    first >>= second = .error failure ↔ first = .error failure := by
  rw [bind_eq_error, or_iff_left]
  rintro ⟨value, -, hfailed⟩
  obtain ⟨result, hresult⟩ := hsecond value
  rw [hresult] at hfailed
  cases hfailed

theorem map_eq_ok {ε α β : Type} {computation : Except ε α} {change : α → β} {result : β} :
    computation.map change = .ok result ↔
      ∃ value, computation = .ok value ∧ change value = result := by
  cases computation with
  | error failure => simp [Except.map]
  | ok value => simp [Except.map]

theorem map_map {ε α β γ : Type} (computation : Except ε α) (first : α → β) (second : β → γ) :
    (computation.map first).map second = computation.map fun value => second (first value) := by
  cases computation <;> rfl

theorem exists_eq_ok_of_isOk {ε α : Type} {computation : Except ε α} (hok : computation.isOk) :
    ∃ result, computation = .ok result := by
  cases computation with
  | error failure => cases hok
  | ok result => exact ⟨result, rfl⟩

theorem mapM_eq_ok {ε α β : Type} {action : α → Except ε β} {value : α → β} {items : List α}
    (hitems : ∀ item ∈ items, action item = .ok (value item)) :
    items.mapM action = .ok (items.map value) := by
  induction items with
  | nil => rfl
  | cons item rest ih =>
      obtain ⟨hitem, hrest⟩ := List.forall_mem_cons.mp hitems
      rw [List.mapM_cons, hitem, ih hrest]
      rfl

end RecordBuffer

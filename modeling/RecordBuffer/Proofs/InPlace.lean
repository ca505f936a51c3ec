import RecordBuffer.Proofs.Addressed
import RecordBuffer.Proofs.Packed

/-!
# Reading and writing in place

A span is within bounds exactly if it ends below the capacity, also where its end
is too large for a word and on either side of the cursor. What is written to a
span is read back from it, and nothing else changes. A span that is out of bounds
is refused and leaves the buffer as it was.
-/

namespace RecordBuffer.Buffer

variable {buffer before after : Buffer} {bytes payload : Bytes} {offset : Nat}

/-- Refuse a span that reaches past the capacity, with its end computed in words. -/
def checkSpanInWords (buffer : Buffer) (access : Access) (length offset : Nat) :
    Except StorageError Unit :=
  match checkedAdd offset length with
  | .ok stop =>
      if stop ≤ buffer.capacity then .ok ()
      else .error (.outOfBounds access length offset buffer.capacity)
  | .error _ => .error (.outOfBounds access length offset buffer.capacity)

/-- An end that is too large for a word is behind every capacity. -/
theorem checkSpanInWords_eq (hcapacity : buffer.capacity ≤ Limits.maxSize) (access : Access)
    (length offset : Nat) :
    buffer.checkSpanInWords access length offset = buffer.checkSpan access length offset := by
  unfold checkSpanInWords checkedAdd checkSpan
  split
  next stop hsum =>
    split at hsum <;> cases hsum
    rfl
  next hsum =>
    split at hsum
    next hword => rw [if_neg (by omega)]
    next => cases hsum

/-- A span was overwritten and nothing else: it is read back, and what shares no byte with it reads
as before. -/
structure Overwritten (before after : Buffer) (offset : Nat) (bytes : Bytes) : Prop where
  rewritten : before.RewrittenIn after offset (offset + bytes.length)
  read_back : after.readSpan bytes.length offset = .ok bytes
  read_apart : ∀ count other, (∀ address, other ≤ address → address < other + count →
      address < offset ∨ offset + bytes.length ≤ address) →
    after.readSpan count other = before.readSpan count other

/-- An operation writes bytes at an offset if they fit below the capacity, and is refused with the
buffer as it was if they do not. -/
structure Writes (buffer : Buffer) (operation : Operation) (access : Access) (offset : Nat)
    (bytes : Bytes) (count : Nat) : Prop where
  fits : offset + bytes.length ≤ buffer.capacity →
    ∃ after, buffer.perform operation = .ok (after, .ok (.count count)) ∧
      buffer.Overwritten after offset bytes
  refused : buffer.capacity < offset + bytes.length →
    buffer.perform operation =
      .ok (buffer, .error (.outOfBounds access bytes.length offset buffer.capacity))

theorem readSpan_eq (buffer : Buffer) (count offset : Nat) : buffer.readSpan count offset =
    if offset + count ≤ buffer.capacity then .ok (buffer.memory.slice offset count)
    else .error (.outOfBounds .read count offset buffer.capacity) := by
  unfold readSpan checkSpan
  split <;> rfl

theorem overwrite_overwritten (hfits : offset + bytes.length ≤ buffer.capacity) :
    buffer.Overwritten (buffer.overwrite offset bytes) offset bytes := by
  have hrewritten := buffer.overwrite_rewritten offset bytes
  have hsame := Memory.sameOutside_write buffer.memory offset bytes
  refine ⟨hrewritten, ?_, fun count other hapart => ?_⟩
  · exact bind_eq_ok.mpr ⟨(), if_pos hfits,
      congrArg Except.ok (Memory.slice_write buffer.memory offset bytes)⟩
  · have hslice : (buffer.overwrite offset bytes).memory.slice other count =
        buffer.memory.slice other count :=
      Memory.slice_congr fun address hlow hhigh => hsame address (hapart address hlow hhigh)
    rw [readSpan_eq, readSpan_eq, hslice]
    rfl

theorem writeSpan_writes (buffer : Buffer) (bytes : Bytes) (offset : Nat) :
    buffer.Writes (.writeSpan bytes offset) .write offset bytes bytes.length := by
  constructor
  · intro hfits
    have hwrite : buffer.writeSpan bytes offset = .ok (buffer.overwrite offset bytes) :=
      bind_eq_ok.mpr ⟨(), if_pos hfits, rfl⟩
    refine ⟨buffer.overwrite offset bytes, ?_, overwrite_overwritten hfits⟩
    simp only [perform, hwrite]
  · intro hpast
    have hcheck : buffer.checkSpan .write bytes.length offset =
        .error (.outOfBounds .write bytes.length offset buffer.capacity) :=
      if_neg (Nat.not_le_of_lt hpast)
    simp only [perform, writeSpan, hcheck, bind, Except.bind]

theorem placeRecord_writes (buffer : Buffer) (hshort : payload.length < Limits.payloadBound)
    (offset : Nat) : buffer.Writes (.placeRecord payload offset) .writeRecord offset
      (Record.encode payload) payload.length := by
  constructor
  · intro hfits
    have hcheck : buffer.checkSpan .writeRecord (Record.size payload.length) offset = .ok () :=
      if_pos (by rwa [Record.length_encode] at hfits)
    refine ⟨buffer.overwrite offset (Record.encode payload), ?_, overwrite_overwritten hfits⟩
    simp only [perform, placeRecord, hcheck, if_neg (Nat.not_le_of_lt hshort)]
    rfl
  · intro hpast
    rw [Record.length_encode] at hpast ⊢
    have hcheck : buffer.checkSpan .writeRecord (Record.size payload.length) offset =
        .error (.outOfBounds .writeRecord (Record.size payload.length) offset buffer.capacity) :=
      if_neg (Nat.not_le_of_lt hpast)
    simp only [perform, placeRecord, hcheck]
    rfl

/-- A record that was placed where its header lies below the cursor is read whole, also where its
payload reaches past the cursor. -/
theorem Overwritten.recordAt
    (hoverwritten : before.Overwritten after offset (Record.encode payload))
    (hshort : payload.length < Limits.payloadBound)
    (hfits : offset + (Record.encode payload).length ≤ before.capacity) (hoffset : 1 ≤ offset)
    (hheader : offset + Record.headerSize ≤ before.cursor) :
    after.recordAt offset = .ok (payload,
      if before.cursor ≤ offset + Record.size payload.length then 0
      else offset + Record.size payload.length) := by
  obtain ⟨-, -, hholds⟩ := bind_eq_ok.mp hoverwritten.read_back
  obtain ⟨memory, rfl, -⟩ := hoverwritten.rewritten
  rw [Record.length_encode] at hfits
  exact recordAt_of_header hoffset hshort (Except.ok.inj hholds) hheader hfits

/-- Of any buffer in use, a span can be read exactly if it ends below the capacity, and overwritten
with bytes or with a record exactly if these do. Ends are computed in words without a difference.
What is written is read back and nothing else changes. What is refused leaves the buffer as it was.
A record that was placed is found at its offset as soon as its header lies below the cursor. -/
theorem positional_access (hreached : Session.Reached buffer) :
    (∀ access length offset,
      buffer.checkSpanInWords access length offset = buffer.checkSpan access length offset) ∧
    (∀ count offset, buffer.readSpan count offset =
      if offset + count ≤ buffer.capacity then .ok (buffer.memory.slice offset count)
      else .error (.outOfBounds .read count offset buffer.capacity)) ∧
    (∀ bytes offset,
      buffer.Writes (.writeSpan bytes offset) .write offset bytes bytes.length) ∧
    ∀ payload : Bytes, payload.length < Limits.payloadBound → ∀ offset,
      buffer.Writes (.placeRecord payload offset) .writeRecord offset (Record.encode payload)
        payload.length ∧
      ∀ after, buffer.perform (.placeRecord payload offset) =
          .ok (after, .ok (.count payload.length)) →
        1 ≤ offset → offset + Record.headerSize ≤ buffer.cursor →
        after.recordAt offset = .ok (payload,
          if buffer.cursor ≤ offset + Record.size payload.length then 0
          else offset + Record.size payload.length) := by
  have hcapacity : buffer.capacity ≤ Limits.maxSize :=
    Nat.le_trans hreached.addressed.capacity_le_maxExtent (by decide)
  refine ⟨checkSpanInWords_eq hcapacity, buffer.readSpan_eq, buffer.writeSpan_writes,
    fun payload hshort offset => ?_⟩
  have hwrites := buffer.placeRecord_writes hshort offset
  refine ⟨hwrites, fun after hplaced hoffset hheader => ?_⟩
  rcases Nat.lt_or_ge buffer.capacity (offset + (Record.encode payload).length) with hpast | hfits
  · cases (hwrites.refused hpast).symm.trans hplaced
  · obtain ⟨written, hwritten, hoverwritten⟩ := hwrites.fits hfits
    cases hwritten.symm.trans hplaced
    exact hoverwritten.recordAt hshort hfits hoffset hheader

/-- A record is placed across the cursor, and another one is refused for its last byte. -/
theorem positional_access_across_cursor :
    let buffer : Buffer := ⟨.heap, Memory.blank.write 1 [1, 2, 3, 4, 5], 16, 6, 16, 256⟩
    ∃ after, Session.Reached buffer ∧
      buffer.perform (.placeRecord [7, 8, 9] 2) = .ok (after, .ok (.count 3)) ∧
      after.cursor = 6 ∧ after.readSpan 7 2 = .ok [0, 0, 0, 3, 7, 8, 9] ∧
      after.readSpan 2 0 = buffer.readSpan 2 0 ∧ after.recordAt 2 = .ok ([7, 8, 9], 0) ∧
      buffer.perform (.placeRecord [7, 8, 9] 10) =
        .ok (buffer, .error (.outOfBounds .writeRecord 7 10 16)) := by
  intro buffer
  have hreached : Session.Reached buffer :=
    .intro (.create (Disk.empty "") 16 256 .heap (by decide) rfl)
      (.single (.operate (.append [1, 2, 3, 4, 5]) (.reply (.count 5)) rfl)) rfl
  obtain ⟨-, -, -, hrecords⟩ := positional_access hreached
  obtain ⟨hwrites, hread⟩ := hrecords [7, 8, 9] (by decide) 2
  obtain ⟨after, hplaced, hoverwritten⟩ := hwrites.fits (by decide)
  have hfound := hread after hplaced (by decide) (by decide)
  have hapart := hoverwritten.read_apart 2 0 (fun address _ hhigh => .inl (by omega))
  have hback := hoverwritten.read_back
  obtain ⟨memory, rfl, -⟩ := hoverwritten.rewritten
  have hrefused := (hrecords [7, 8, 9] (by decide) 10).1.refused (by decide)
  exact ⟨_, hreached, hplaced, rfl, hback, hapart, hfound, hrefused⟩

end RecordBuffer.Buffer

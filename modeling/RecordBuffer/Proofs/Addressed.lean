import RecordBuffer.Proofs.Sizes

/-!
# Capacities that can be addressed

Memory of a buffer's own is obtained as one span, and a file is mapped as one. So
no capacity is longer than such a span can be, however often it grows, and the
end of a record that starts below the cursor is a word of 64 bits.
-/

namespace RecordBuffer

namespace Buffer

variable {buffer after : Buffer} {request count length offset : Nat}

/-- The cursor lies below the capacity, and a span as long as that can be addressed. Nothing is
said about the bytes. -/
structure Addressed (buffer : Buffer) : Prop where
  cursor_le_capacity : buffer.cursor ≤ buffer.capacity
  capacity_le_maxExtent : buffer.capacity ≤ Limits.maxExtent

/-- Memory of a buffer's own is no longer than a span that can be obtained at once. -/
def Obtained (buffer : Buffer) : Prop :=
  buffer.backing = .heap → buffer.capacity ≤ Limits.maxExtent

/-! ## Operations -/

theorem grow_obtained (hobtained : buffer.Obtained) (hgrow : buffer.grow request = .ok after) :
    after.Obtained := by
  unfold grow at hgrow
  split at hgrow
  next => cases hgrow
  split at hgrow
  next =>
    cases hgrow
    exact hobtained
  split at hgrow
  next =>
    cases hgrow
    exact hobtained
  next =>
    unfold extend at hgrow
    split at hgrow
    next hmapped =>
      cases hgrow
      intro hheap
      cases hmapped.symm.trans hheap
    next =>
      split at hgrow
      next => cases hgrow
      next hlength =>
        cases hgrow
        exact fun _ => Nat.le_of_not_lt hlength

theorem allocate_obtained (hobtained : buffer.Obtained)
    (hallocate : buffer.allocate count = .ok (offset, after)) : after.Obtained := by
  obtain ⟨grown, hgrow, hallocate⟩ := bind_eq_ok.mp hallocate
  cases hallocate
  have hgrown := grow_obtained hobtained hgrow
  exact hgrown

theorem append_obtained {bytes : Bytes} (hobtained : buffer.Obtained)
    (happend : buffer.append bytes = .ok after) : after.Obtained := by
  obtain ⟨⟨offset, allocated⟩, hallocate, happend⟩ := bind_eq_ok.mp happend
  cases happend
  have hallocated := allocate_obtained hobtained hallocate
  exact hallocated

theorem allocateRecord_obtained (hobtained : buffer.Obtained)
    (hallocate : buffer.allocateRecord length = .ok (offset, after)) : after.Obtained := by
  obtain ⟨size, -, hallocate⟩ := bind_eq_ok.mp hallocate
  obtain ⟨grown, hgrow, hallocate⟩ := bind_eq_ok.mp hallocate
  obtain ⟨⟨start, headed⟩, hheader, hallocate⟩ := bind_eq_ok.mp hallocate
  simp only at hallocate
  split at hallocate
  next => cases hallocate
  next =>
    obtain ⟨⟨behind, filled⟩, hpayload, hallocate⟩ := bind_eq_ok.mp hallocate
    cases hallocate
    have hheaded := allocate_obtained (grow_obtained hobtained hgrow) hheader
    have hwritten : (headed.overwrite offset (Record.header length)).Obtained := hheaded
    exact allocate_obtained hwritten hpayload

theorem appendRecord_obtained {payload : Bytes} (hobtained : buffer.Obtained)
    (happend : buffer.appendRecord payload = .ok (offset, after)) : after.Obtained := by
  obtain ⟨⟨start, allocated⟩, hallocate, happend⟩ := bind_eq_ok.mp happend
  cases happend
  have hallocated := allocateRecord_obtained hobtained hallocate
  exact hallocated

theorem storeRecords_obtained {records : List Bytes} {refused : Option Cause}
    (hobtained : buffer.Obtained) (hstore : buffer.storeRecords records = .ok (after, refused)) :
    after.Obtained := by
  induction records generalizing buffer with
  | nil =>
      cases hstore
      exact hobtained
  | cons record rest ih =>
      unfold storeRecords at hstore
      split at hstore
      next =>
        cases hstore
        exact hobtained
      next =>
        obtain ⟨⟨offset, appended⟩, happend, hstore⟩ := bind_eq_ok.mp hstore
        exact ih (appendRecord_obtained hobtained happend) hstore

theorem storeStream_obtained {stream : Stream} {delimiter : UInt8}
    {counted : Except StorageError Nat} (hobtained : buffer.Obtained)
    (hstore : buffer.storeStream stream delimiter = .ok (after, counted)) : after.Obtained := by
  obtain ⟨⟨stored, refused⟩, hrecords, hstore⟩ := bind_eq_ok.mp hstore
  have hstored := storeRecords_obtained hobtained hrecords
  simp only at hstore
  split at hstore <;> cases hstore <;> exact hstored

theorem fill_obtained {start : Nat} {bytes : Option Bytes} (hobtained : buffer.Obtained)
    (hfill : buffer.fill start count bytes = .ok after) : after.Obtained := by
  obtain ⟨memory, rfl, -⟩ := fill_rewritten hfill
  exact hobtained

/-- No operation takes more memory than can be obtained. -/
theorem perform_obtained {operation : Operation} {reply : Except StorageError Reply}
    (hwell : buffer.WellFormed) (hobtained : buffer.Obtained)
    (hperform : buffer.perform operation = .ok (after, reply)) : after.Obtained := by
  by_cases hadds : operation.adds = false
  · have hbacking := (perform_evolved hwell hperform).backing_eq
    intro hheap
    rw [perform_capacity hwell hadds hperform]
    exact hobtained (hbacking ▸ hheap)
  cases operation with
  | grow request =>
      obtain ⟨grown, hgrow, hperform⟩ := bind_eq_ok.mp hperform
      cases hperform
      exact grow_obtained hobtained hgrow
  | append bytes =>
      obtain ⟨appended, happend, hperform⟩ := bind_eq_ok.mp hperform
      cases hperform
      exact append_obtained hobtained happend
  | advance count =>
      obtain ⟨⟨offset, allocated⟩, hallocate, hperform⟩ := bind_eq_ok.mp hperform
      cases hperform
      exact allocate_obtained hobtained hallocate
  | allocate count fill =>
      obtain ⟨⟨offset, allocated⟩, hallocate, hperform⟩ := bind_eq_ok.mp hperform
      obtain ⟨filled, hfill, hperform⟩ := bind_eq_ok.mp hperform
      cases hperform
      exact fill_obtained (allocate_obtained hobtained hallocate) hfill
  | allocateRecord length fill =>
      obtain ⟨⟨offset, allocated⟩, hallocate, hperform⟩ := bind_eq_ok.mp hperform
      obtain ⟨filled, hfill, hperform⟩ := bind_eq_ok.mp hperform
      cases hperform
      exact fill_obtained (allocateRecord_obtained hobtained hallocate) hfill
  | appendRecord payload =>
      obtain ⟨⟨offset, appended⟩, happend, hperform⟩ := bind_eq_ok.mp hperform
      cases hperform
      exact appendRecord_obtained hobtained happend
  | storeStream stream delimiter =>
      obtain ⟨⟨stored, counted⟩, hstore, hperform⟩ := bind_eq_ok.mp hperform
      cases hperform
      exact storeStream_obtained hobtained hstore
  | _ => exact absurd rfl hadds

/-! ## Creations -/

theorem new_obtained {size : Nat} (hmade : Buffer.new size = .ok buffer) : buffer.Obtained := by
  unfold Buffer.new at hmade
  simp only at hmade
  split at hmade
  next => cases hmade
  next hlength =>
    cases hmade
    exact fun _ => Nat.le_of_not_lt hlength

theorem create_obtained {before disk : Disk} {size maxSize : Nat} {kind : Kind}
    (hmade : Buffer.create before size maxSize kind = .ok (disk, .ok buffer)) :
    buffer.Obtained := by
  obtain ⟨-, backing, rfl, ⟨rfl, rfl, -⟩ | ⟨-, rfl, -⟩⟩ := create_cases hmade
  · unfold Buffer.create at hmade
    simp only at hmade
    split at hmade
    next => cases hmade
    split at hmade
    next => cases hmade
    next hlength => exact fun _ => Nat.le_of_not_lt hlength
  · intro hheap
    cases hheap

theorem mapPath_obtained {before disk : Disk} {name : FileName} {size maxSize startOffset : Nat}
    (hmade : mapPath before name size maxSize startOffset = .ok (disk, .ok buffer)) :
    buffer.Obtained := by
  obtain ⟨-, -, opened, location, number, data, -, hmapped⟩ := mapPath_eq_ok hmade
  obtain ⟨-, -, -, rfl⟩ := mapFile_eq_ok hmapped
  intro hheap
  cases hheap

end Buffer

theorem Made.obtained {disk : Disk} {buffer : Buffer} (hmade : Made disk buffer) :
    buffer.Obtained := by
  cases hmade with
  | new disk size hmade => exact Buffer.new_obtained hmade
  | create before size maxSize kind _ hmade => exact Buffer.create_obtained hmade
  | mapPath before name size maxSize startOffset _ hmade => exact Buffer.mapPath_obtained hmade
  | build before settings _ hmade =>
      obtain ⟨-, flaw, hflaw⟩ | ⟨name, -, hmapped⟩ | ⟨-, hcreated⟩ := Buffer.build_cases hmade
      · cases hflaw
      · exact Buffer.mapPath_obtained hmapped
      · exact Buffer.create_obtained hcreated

/-! ## Buffers in use -/

namespace Session

variable {session after : Session} {buffer used : Buffer}

theorem Step.obtained (hstep : Step session after) (hopen : session.buffer? = some buffer)
    (hwell : buffer.WellFormed) (hobtained : buffer.Obtained) (hused : after.buffer? = some used) :
    used.Obtained := by
  cases hstep with
  | operate operation outcome hperformed =>
      simp only [Session.operate, hopen] at hperformed
      obtain ⟨⟨changed, result⟩, hperform, hperformed⟩ := bind_eq_ok.mp hperformed
      cases hperformed
      cases hused
      exact Buffer.perform_obtained hwell hobtained hperform
  | elsewhere disk _ =>
      cases hopen.symm.trans hused
      exact hobtained

theorem Steps.obtained (hsteps : Steps session after) (hopen : session.buffer? = some buffer)
    (hsound : Sound session.disk buffer) (hobtained : buffer.Obtained)
    (hused : after.buffer? = some used) : used.Obtained := by
  induction hsteps generalizing used with
  | refl =>
      cases hopen.symm.trans hused
      exact hobtained
  | tail hfirst hstep ih =>
      obtain ⟨middle, hmiddle, hbetween, -⟩ := Steps.sound hfirst hopen hsound
      exact hstep.obtained hmiddle hbetween.wellFormed (ih hmiddle) hused

/-- Whatever was done to a buffer, it can be addressed. -/
theorem Reached.addressed (hreached : Reached buffer) : buffer.Addressed := by
  obtain ⟨hmade, hsteps, hopened⟩ := hreached
  obtain ⟨_, hused, hsound, -⟩ := hsteps.sound rfl hmade.sound
  cases hopened.symm.trans hused
  have hwell := hsound.wellFormed
  refine ⟨hwell.cursor_le_capacity, ?_⟩
  cases hbacking : buffer.backing with
  | heap => exact Steps.obtained hsteps rfl hmade.sound hmade.obtained hopened hbacking
  | mapped number name =>
      exact Nat.le_trans hwell.capacity_le_maxSize (hsound.shown number name hbacking).2

end Session

end RecordBuffer

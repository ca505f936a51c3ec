import RecordBuffer.Proofs.Sizes

/-!
# When a request is refused

Everything that goes behind the cursor asks for a number of free bytes. It is
refused if it reaches past the maximum size, a record also if its payload has no
header, and for nothing else as long as there is memory. So a buffer can be
filled up to the last byte of its maximum size.
-/

namespace RecordBuffer

/-- What is asked for behind the cursor: room alone, room that the cursor moves over, or a record
with a payload of some length. -/
inductive Request where
  | room (count : Nat)
  | span (count : Nat)
  | record (length : Nat)
  deriving DecidableEq, Repr

namespace Request

/-- How many bytes have to be free. -/
def size : Request → Nat
  | room count => count
  | span count => count
  | record length => Record.size length

/-- How far the cursor moves. -/
def taken : Request → Nat
  | room _ => 0
  | span count => count
  | record length => Record.size length

end Request

/-- What an operation asks for. Bytes that the caller fills in have the length of their span. -/
inductive Asks : Operation → Request → Prop where
  | grow (count : Nat) : Asks (.grow count) (.room count)
  | append (bytes : Bytes) : Asks (.append bytes) (.span bytes.length)
  | advance (count : Nat) : Asks (.advance count) (.span count)
  | allocate (count : Nat) (fill : Option Bytes)
      (whole : ∀ bytes ∈ fill, bytes.length = count) : Asks (.allocate count fill) (.span count)
  | allocateRecord (length : Nat) (fill : Option Bytes)
      (whole : ∀ bytes ∈ fill, bytes.length = length) :
      Asks (.allocateRecord length fill) (.record length)
  | appendRecord (payload : Bytes) : Asks (.appendRecord payload) (.record payload.length)

namespace Buffer

variable {buffer after : Buffer} {operation : Operation} {request : Request} {fault : Fault}

/-- A request that can never be served, and the fault that says so. Whether there is room is looked
up first. -/
inductive Refuses (buffer : Buffer) : Request → Fault → Prop where
  | full (request : Request) (past : buffer.maxSize < buffer.cursor + request.size) :
      Refuses buffer request (.bufferFull buffer.maxSize buffer.cursor request.size)
  | tooLong (length : Nat) (fits : buffer.cursor + Record.size length ≤ buffer.maxSize)
      (long : Limits.payloadBound ≤ length) :
      Refuses buffer (.record length) (.payloadTooLong length)

/-- Make the room that is asked for, and say where it starts. -/
def serve (buffer : Buffer) : Request → Except Fault (Nat × Buffer)
  | .room count => do
      let grown ← buffer.grow count
      return (grown.cursor, grown)
  | .span count => buffer.allocate count
  | .record length => buffer.allocateRecord length

/-- A span is filled by as many bytes. -/
theorem replyAllocated_ok {start count : Nat} {fill : Option Bytes} (buffer : Buffer)
    (offset : Nat) (hwhole : ∀ bytes ∈ fill, bytes.length = count) :
    ∃ result, buffer.replyAllocated offset start count fill = .ok result := by
  cases fill with
  | none => exact ⟨_, rfl⟩
  | some bytes => exact ⟨_, bind_eq_ok.mpr ⟨_, if_pos (hwhole bytes rfl), rfl⟩⟩

/-- An operation fails exactly as its request does: nothing that it does besides can fail. -/
theorem perform_eq_error_iff (hasks : Asks operation request) :
    buffer.perform operation = .error fault ↔ buffer.serve request = .error fault := by
  cases hasks with
  | grow count =>
      exact (bind_eq_error_of_ok fun _ => ⟨_, rfl⟩).trans
        (bind_eq_error_of_ok fun _ => ⟨_, rfl⟩).symm
  | append bytes =>
      exact (bind_eq_error_of_ok fun _ => ⟨_, rfl⟩).trans (bind_eq_error_of_ok fun _ => ⟨_, rfl⟩)
  | advance count => exact bind_eq_error_of_ok fun _ => ⟨_, rfl⟩
  | allocate count fill hwhole =>
      exact bind_eq_error_of_ok fun _ => replyAllocated_ok _ _ hwhole
  | allocateRecord length fill hwhole =>
      exact bind_eq_error_of_ok fun _ => replyAllocated_ok _ _ hwhole
  | appendRecord payload =>
      exact (bind_eq_error_of_ok fun _ => ⟨_, rfl⟩).trans (bind_eq_error_of_ok fun _ => ⟨_, rfl⟩)

/-- An operation that succeeds moves the cursor by what it asked for, into room that is there. -/
theorem perform_served {reply : Except StorageError Reply} (hwell : buffer.WellFormed)
    (hasks : Asks operation request) (hperform : buffer.perform operation = .ok (after, reply)) :
    (∃ settled, reply = .ok settled) ∧ buffer.Advanced after request.taken ∧
      buffer.cursor + request.size ≤ after.capacity := by
  cases hasks with
  | grow count =>
      obtain ⟨grown, hgrow, hperform⟩ := bind_eq_ok.mp hperform
      cases hperform
      exact ⟨⟨_, rfl⟩, grow_advanced hwell hgrow⟩
  | append | advance | allocate | allocateRecord | appendRecord =>
      obtain ⟨span, htakes, hadvanced⟩ := perform_takes hwell rfl hperform
      cases htakes
      exact ⟨⟨_, rfl⟩, hadvanced, hadvanced.le_capacity⟩

theorem serve_full (hwell : buffer.WellFormed) (hword : request.size ≤ Limits.maxSize)
    (hpast : buffer.maxSize < buffer.cursor + request.size) :
    buffer.serve request =
      .error (.bufferFull buffer.maxSize buffer.cursor request.size) := by
  cases request with
  | room count => exact bind_eq_error.mpr (.inl (grow_full hwell hpast))
  | span count => exact allocate_full hwell hpast
  | record length => exact allocateRecord_full hwell hword hpast

/-- Nothing but memory fails besides what is refused. -/
theorem serve_refused (hwell : buffer.WellFormed) (hword : request.size ≤ Limits.maxSize)
    (hserve : buffer.serve request = .error fault) :
    buffer.Refuses request fault ∨ fault = .capacityOverflow := by
  rcases Nat.lt_or_ge buffer.maxSize (buffer.cursor + request.size) with hpast | hfits
  · rw [serve_full hwell hword hpast] at hserve
    cases hserve
    exact .inl (.full request hpast)
  cases request with
  | room count =>
      exact .inr (grow_fault hfits ((bind_eq_error_of_ok fun _ => ⟨_, rfl⟩).mp hserve))
  | span count => exact .inr (allocate_fault hfits hserve)
  | record length =>
      rcases allocateRecord_refused hwell hword hfits hserve with ⟨hlong, rfl⟩ | hmemory
      · exact .inl (.tooLong length hfits hlong)
      · exact .inr hmemory

/-- There is at most one reason to refuse a request. -/
theorem Refuses.unique {other : Fault} (hrefuses : buffer.Refuses request fault)
    (hother : buffer.Refuses request other) : fault = other := by
  cases hrefuses with
  | full request hpast =>
      cases hother with
      | full => rfl
      | tooLong length hfits _ => exact absurd hpast (Nat.not_lt_of_le hfits)
  | tooLong length hfits _ =>
      cases hother with
      | full _ hpast => exact absurd hpast (Nat.not_lt_of_le hfits)
      | tooLong => rfl

/-- A request that is refused is not served, whatever memory there is. -/
theorem Refuses.not_served {served : Nat × Buffer} (hwell : buffer.WellFormed)
    (hword : request.size ≤ Limits.maxSize) (hrefuses : buffer.Refuses request fault) :
    buffer.serve request ≠ .ok served := by
  intro hserve
  cases hrefuses with
  | full request hpast =>
      rw [serve_full hwell hword hpast] at hserve
      cases hserve
  | tooLong length _ hlong =>
      obtain ⟨-, hshort, -⟩ := allocateRecord_advanced hwell hserve
      exact absurd hshort (Nat.not_lt_of_le hlong)

/-- Memory for twice what is needed and a step is memory enough. -/
theorem perform_affords (hwell : buffer.WellFormed) (hasks : Asks operation request)
    (hword : request.size ≤ Limits.maxSize)
    (haffords : buffer.Affords (buffer.cursor + request.size)) :
    buffer.perform operation ≠ .error .capacityOverflow := by
  rw [ne_eq, perform_eq_error_iff hasks]
  intro hserve
  rcases Nat.lt_or_ge buffer.maxSize (buffer.cursor + request.size) with hpast | hfits
  · rw [serve_full hwell hword hpast] at hserve
    cases hserve
  cases request with
  | room count =>
      obtain ⟨grown, hgrow⟩ : ∃ grown, buffer.grow count = .ok grown := grow_ok hwell hfits haffords
      rw [(bind_eq_error_of_ok fun _ => ⟨_, rfl⟩).mp hserve] at hgrow
      cases hgrow
  | span count =>
      obtain ⟨offset, allocated, hallocate⟩ := allocate_ok hwell hfits haffords
      cases hserve.symm.trans hallocate
  | record length =>
      rcases Nat.lt_or_ge length Limits.payloadBound with hshort | hlong
      · obtain ⟨offset, allocated, hallocate⟩ := allocateRecord_ok hwell hshort hfits haffords
        cases hserve.symm.trans hallocate
      · cases hserve.symm.trans (allocateRecord_too_long hwell hlong hword hfits haffords)

/-- As long as memory is not refused, what goes behind the cursor fails exactly when the request for
it is refused: because it reaches past the maximum size or else, for a record, because its payload
has no header. In all other cases it succeeds and moves the cursor by what was asked for. Once the
room for a record has been made, nothing but its payload's length can be the matter. -/
theorem fails_exactly_when_refused (hreached : Session.Reached buffer)
    (hasks : Asks operation request) (hword : request.size ≤ Limits.maxSize)
    (hmemory : buffer.perform operation ≠ .error .capacityOverflow) :
    (∀ fault, buffer.perform operation = .error fault ↔ buffer.Refuses request fault) ∧
    ((∀ fault, ¬ buffer.Refuses request fault) →
      ∃ after reply, buffer.perform operation = .ok (after, .ok reply) ∧
        buffer.Advanced after request.taken ∧
        buffer.cursor + request.size ≤ after.capacity) ∧
    ∀ grown fault, buffer.grow request.size = .ok grown →
      buffer.perform operation = .error fault →
      ∃ length, request = .record length ∧ fault = .payloadTooLong length := by
  obtain ⟨disk, hsound⟩ := hreached.sound
  have hwell := hsound.wellFormed
  have hfails (fault : Fault) :
      buffer.perform operation = .error fault ↔ buffer.Refuses request fault := by
    rw [ne_eq, perform_eq_error_iff hasks] at hmemory
    rw [perform_eq_error_iff hasks]
    constructor
    · intro hserve
      rcases serve_refused hwell hword hserve with hrefuses | rfl
      · exact hrefuses
      · exact absurd hserve hmemory
    · -- It is not served, so it fails for some reason, and there is no other.
      intro hrefuses
      cases hserve : buffer.serve request with
      | ok served => exact absurd hserve (hrefuses.not_served hwell hword)
      | error other =>
          rcases serve_refused hwell hword hserve with hother | rfl
          · rw [hrefuses.unique hother]
          · exact absurd hserve hmemory
  refine ⟨hfails, fun hnone => ?_, fun grown fault hgrow hperform => ?_⟩
  · cases hperform : buffer.perform operation with
    | error fault => exact absurd ((hfails fault).mp hperform) (hnone fault)
    | ok result =>
        obtain ⟨⟨settled, hreply⟩, hadvanced, hroom⟩ := perform_served hwell hasks hperform
        exact ⟨result.1, settled, by rw [← hreply], hadvanced, hroom⟩
  · cases (hfails fault).mp hperform with
    | full _ hpast =>
        rw [grow_full hwell hpast] at hgrow
        cases hgrow
    | tooLong length => exact ⟨length, rfl, rfl⟩

/-- A record of seven bytes takes the last bytes below the maximum size, and one of eight has no
room. -/
theorem fails_exactly_when_refused_at_the_last_byte :
    let buffer : Buffer := ⟨.heap, .blank, 8, 1, 8, 12⟩
    ∃ after reply, Session.Reached buffer ∧
      buffer.perform (.appendRecord [1, 2, 3, 4, 5, 6, 7]) = .ok (after, .ok reply) ∧
      after.cursor = 12 ∧ after.capacity = 12 ∧
      buffer.perform (.allocateRecord 8 none) = .error (.bufferFull 12 1 12) := by
  intro buffer
  have hreached : Session.Reached buffer :=
    .intro (.create (Disk.empty "") 8 12 .heap (by decide) rfl) .refl rfl
  obtain ⟨disk, hsound⟩ := hreached.sound
  have hwell := hsound.wellFormed
  have hseven : Asks (.appendRecord [1, 2, 3, 4, 5, 6, 7]) (.record 7) := .appendRecord _
  obtain ⟨-, hserved, -⟩ := fails_exactly_when_refused hreached hseven (by decide)
    (perform_affords hwell hseven (by decide) fun _ => by decide)
  obtain ⟨after, reply, hperform, hadvanced, hroom⟩ := hserved (by
    intro fault hrefuses
    cases hrefuses with
    | full _ hpast => exact absurd hpast (by decide)
    | tooLong _ _ hlong => exact absurd hlong (by decide))
  have height : Asks (.allocateRecord 8 none) (.record 8) :=
    .allocateRecord 8 none fun _ hfill => by cases hfill
  obtain ⟨hfails, -, -⟩ := fails_exactly_when_refused hreached height (by decide)
    (perform_affords hwell height (by decide) fun _ => by decide)
  have hcapacity := hadvanced.wellFormed.capacity_le_maxSize
  rw [hadvanced.maxSize_eq] at hcapacity
  exact ⟨after, reply, hreached, hperform, hadvanced.cursor_eq, Nat.le_antisymm hcapacity hroom,
    (hfails _).mpr (.full _ (by decide))⟩

end Buffer

end RecordBuffer

import RecordBuffer.Buffer.Growth
import RecordBuffer.Proofs.MergeRuns

/-!
# What growth keeps

Every use of a buffer keeps its backing and its maximum size and never takes
capacity away. Adding to a buffer also keeps every byte below the cursor,
however often the capacity grows on the way, and moves the cursor by exactly
what was added.
-/

namespace RecordBuffer.Buffer

variable {buffer before middle after : Buffer} {offset request count length : Nat} {fault : Fault}

/-- A buffer that was used: it is as well formed as ever, and no smaller. -/
structure Evolved (before after : Buffer) : Prop where
  wellFormed : after.WellFormed
  backing_eq : after.backing = before.backing
  maxSize_eq : after.maxSize = before.maxSize
  capacity_le : before.capacity ≤ after.capacity

/-- A buffer to which bytes were added behind the cursor. -/
structure Advanced (before after : Buffer) (count : Nat) : Prop extends Evolved before after where
  cursor_eq : after.cursor = before.cursor + count
  kept : ∀ address < before.cursor, after.memory.get address = before.memory.get address

theorem Evolved.refl (hwell : buffer.WellFormed) : buffer.Evolved buffer :=
  ⟨hwell, rfl, rfl, Nat.le_refl _⟩

theorem Evolved.trans (hfirst : before.Evolved middle) (hsecond : middle.Evolved after) :
    before.Evolved after :=
  ⟨hsecond.wellFormed, hsecond.backing_eq.trans hfirst.backing_eq,
    hsecond.maxSize_eq.trans hfirst.maxSize_eq,
    Nat.le_trans hfirst.capacity_le hsecond.capacity_le⟩

namespace Advanced

theorem refl (hwell : buffer.WellFormed) : buffer.Advanced buffer 0 :=
  ⟨Evolved.refl hwell, rfl, fun _ _ => rfl⟩

theorem trans {second : Nat} (hfirst : before.Advanced middle count)
    (hsecond : middle.Advanced after second) : before.Advanced after (count + second) := by
  refine ⟨hfirst.toEvolved.trans hsecond.toEvolved, ?_, ?_⟩
  · rw [hsecond.cursor_eq, hfirst.cursor_eq, Nat.add_assoc]
  · intro address haddress
    rw [hsecond.kept address (by rw [hfirst.cursor_eq]; omega), hfirst.kept address haddress]

/-- What was added fits. -/
theorem le_capacity (hadvanced : before.Advanced after count) :
    before.cursor + count ≤ after.capacity := by
  rw [← hadvanced.cursor_eq]
  exact hadvanced.wellFormed.cursor_le_capacity

/-- Bytes that lay below the cursor are still there. -/
theorem holds {start : Nat} {bytes : Bytes} (hadvanced : before.Advanced after count)
    (hbelow : start + bytes.length ≤ before.cursor) (hholds : before.memory.Holds start bytes) :
    after.memory.Holds start bytes := by
  rw [Memory.Holds, ← hholds]
  simp only [Memory.length_slice]
  exact Memory.slice_congr fun address _ hhigh => hadvanced.kept address (by omega)

/-- Records that lay below the cursor are still there. -/
theorem packed {start : Nat} {payloads : List Bytes} (hadvanced : before.Advanced after count)
    (hbelow : start + Record.extent payloads ≤ before.cursor)
    (hpacked : before.memory.Packed start payloads) : after.memory.Packed start payloads :=
  ⟨hpacked.short, hadvanced.holds (by rwa [Record.length_encodeAll]) hpacked.holds⟩

end Advanced

/-- Other bytes below the capacity leave a buffer well formed. -/
theorem RewrittenIn.evolved {start stop : Nat} (hwell : before.WellFormed)
    (hrewritten : before.RewrittenIn after start stop) (hstop : stop ≤ before.capacity) :
    before.Evolved after := by
  obtain ⟨memory, rfl, hsame⟩ := hrewritten
  refine ⟨⟨hwell.one_le_cursor, hwell.cursor_le_capacity, hwell.capacity_le_maxSize,
    hwell.backed_eq_capacity, ?_⟩, rfl, rfl, Nat.le_refl _⟩
  intro address haddress
  rw [hsame address (Or.inr (Nat.le_trans hstop haddress))]
  exact hwell.get_eq_zero address haddress

theorem overwrite_rewritten (buffer : Buffer) (offset : Nat) (bytes : Bytes) :
    buffer.RewrittenIn (buffer.overwrite offset bytes) offset (offset + bytes.length) :=
  ⟨_, rfl, Memory.sameOutside_write buffer.memory offset bytes⟩

/-- Other bytes in what was added do not touch what was there before. -/
theorem Advanced.rewritten {filled : Buffer} {start stop : Nat}
    (hadvanced : before.Advanced after count) (hrewritten : after.RewrittenIn filled start stop)
    (hstart : before.cursor ≤ start) (hstop : stop ≤ before.cursor + count) :
    before.Advanced filled count := by
  have hevolved := hrewritten.evolved hadvanced.wellFormed
    (Nat.le_trans hstop hadvanced.le_capacity)
  obtain ⟨memory, rfl, hsame⟩ := hrewritten
  refine ⟨hadvanced.toEvolved.trans hevolved, hadvanced.cursor_eq, ?_⟩
  intro address haddress
  rw [← hadvanced.kept address haddress]
  exact hsame address (Or.inl (by omega))

theorem Advanced.overwrite {bytes : Bytes} (hadvanced : before.Advanced after count)
    (hoffset : before.cursor ≤ offset) (hfits : offset + bytes.length ≤ before.cursor + count) :
    before.Advanced (after.overwrite offset bytes) count :=
  hadvanced.rewritten (after.overwrite_rewritten offset bytes) hoffset hfits

/-! ## Growth -/

theorem capacity_le_grownCapacity (hwell : buffer.WellFormed) (request : Nat) :
    buffer.capacity ≤ buffer.grownCapacity request := by
  have hmax := hwell.capacity_le_maxSize
  rw [grownCapacity]
  omega

theorem le_grownCapacity (hwell : buffer.WellFormed)
    (hfits : buffer.cursor + request ≤ buffer.maxSize) :
    buffer.cursor + request ≤ buffer.grownCapacity request := by
  have hcursor := hwell.cursor_le_capacity
  rw [grownCapacity]
  omega

/-- Bytes from a cut above the cursor on may be lost while the capacity grows. -/
theorem resized_advanced {capacity cut : Nat} (hwell : buffer.WellFormed)
    (hcapacity : buffer.capacity ≤ capacity) (hmax : capacity ≤ buffer.maxSize)
    (hlow : buffer.cursor ≤ cut) (hhigh : cut ≤ capacity) :
    buffer.Advanced { buffer with
      capacity
      backed := capacity
      memory := buffer.memory.truncate cut } 0 := by
  have hcursor := Nat.le_trans hwell.cursor_le_capacity hcapacity
  refine ⟨⟨⟨hwell.one_le_cursor, hcursor, hmax, rfl, ?_⟩, rfl, rfl, hcapacity⟩, rfl, ?_⟩
  · intro address haddress
    simp only at haddress ⊢
    rw [Memory.get_truncate, if_neg (by omega)]
  · intro address haddress
    simp only
    rw [Memory.get_truncate, if_pos (by omega)]

theorem extend_advanced {capacity : Nat} (hwell : buffer.WellFormed)
    (hcapacity : buffer.capacity ≤ capacity) (hmax : capacity ≤ buffer.maxSize)
    (hextend : buffer.extend capacity = .ok after) :
    buffer.Advanced after 0 ∧ after.capacity = capacity := by
  have hcursor := hwell.cursor_le_capacity
  have hbacked := hwell.backed_eq_capacity
  unfold extend at hextend
  split at hextend
  next =>
    cases hextend
    exact ⟨resized_advanced hwell hcapacity hmax (by omega) (Nat.min_le_right _ _), rfl⟩
  next =>
    split at hextend
    next => cases hextend
    next =>
      cases hextend
      exact ⟨resized_advanced hwell hcapacity hmax (Nat.le_refl _)
        (Nat.le_trans hcursor hcapacity), rfl⟩

theorem grow_advanced (hwell : buffer.WellFormed) (hgrow : buffer.grow request = .ok after) :
    buffer.Advanced after 0 ∧ buffer.cursor + request ≤ after.capacity := by
  have hcursor := hwell.cursor_le_capacity
  have hmax := hwell.capacity_le_maxSize
  unfold grow at hgrow
  split at hgrow
  next => cases hgrow
  next hroom =>
  have hfits : buffer.cursor + request ≤ buffer.maxSize := by omega
  have hgrown := le_grownCapacity hwell hfits
  split at hgrow
  next =>
    cases hgrow
    exact ⟨Advanced.refl hwell, by omega⟩
  split at hgrow
  next hsame =>
    cases hgrow
    exact ⟨Advanced.refl hwell, hsame ▸ hgrown⟩
  next =>
    obtain ⟨hadvanced, hcapacity⟩ := extend_advanced hwell (capacity_le_grownCapacity hwell request)
      (Nat.min_le_right _ _) hgrow
    exact ⟨hadvanced, hcapacity ▸ hgrown⟩

theorem allocate_advanced (hwell : buffer.WellFormed)
    (hallocate : buffer.allocate count = .ok (offset, after)) :
    offset = buffer.cursor ∧ buffer.Advanced after count := by
  obtain ⟨grown, hgrow, hallocate⟩ := bind_eq_ok.mp hallocate
  cases hallocate
  obtain ⟨hadvanced, hroom⟩ := grow_advanced hwell hgrow
  obtain ⟨⟨hgrown, hbacking, hmax, hcapacity⟩, hcursor, hkept⟩ := hadvanced
  rw [Nat.add_zero] at hcursor
  refine ⟨hcursor, ⟨⟨Nat.le_add_right_of_le hgrown.one_le_cursor, ?_, hgrown.capacity_le_maxSize,
    hgrown.backed_eq_capacity, hgrown.get_eq_zero⟩, hbacking, hmax, hcapacity⟩, ?_, hkept⟩
  · rw [hcursor]
    exact hroom
  · rw [hcursor]

theorem append_advanced {bytes : Bytes} (hwell : buffer.WellFormed)
    (happend : buffer.append bytes = .ok after) :
    buffer.Advanced after bytes.length ∧ after.memory.Holds buffer.cursor bytes := by
  obtain ⟨⟨offset, allocated⟩, hallocate, happend⟩ := bind_eq_ok.mp happend
  cases happend
  obtain ⟨rfl, hadvanced⟩ := allocate_advanced hwell hallocate
  exact ⟨hadvanced.overwrite (Nat.le_refl _) (Nat.le_refl _), Memory.holds_write _ _ _⟩

/-- Once room is made for a record, its header goes where the cursor was. -/
theorem header_advanced {grown headed : Buffer} (hgrown : buffer.Advanced grown 0)
    (hheader : grown.allocate Record.headerSize = .ok (offset, headed)) (length : Nat) :
    offset = buffer.cursor ∧
      buffer.Advanced (headed.overwrite offset (Record.header length)) Record.headerSize := by
  obtain ⟨rfl, hheaded⟩ := allocate_advanced hgrown.wellFormed hheader
  have hwritten : grown.Advanced (headed.overwrite grown.cursor (Record.header length))
      Record.headerSize := hheaded.overwrite (Nat.le_refl _) (Nat.le_refl _)
  have hadvanced := hgrown.trans hwritten
  rw [Nat.zero_add] at hadvanced
  exact ⟨hgrown.cursor_eq, hadvanced⟩

/-- A record is allocated where the cursor was, behind a header that declares its length. -/
theorem allocateRecord_advanced (hwell : buffer.WellFormed)
    (hallocate : buffer.allocateRecord length = .ok (offset, after)) :
    offset = buffer.cursor ∧ length < Limits.payloadBound ∧
      buffer.Advanced after (Record.size length) ∧
      after.memory.Holds buffer.cursor (Record.header length) := by
  obtain ⟨size, -, hallocate⟩ := bind_eq_ok.mp hallocate
  obtain ⟨grown, hgrow, hallocate⟩ := bind_eq_ok.mp hallocate
  obtain ⟨⟨start, headed⟩, hheader, hallocate⟩ := bind_eq_ok.mp hallocate
  simp only at hallocate
  split at hallocate
  next => cases hallocate
  next hshort =>
    obtain ⟨⟨behind, filled⟩, hpayload, hallocate⟩ := bind_eq_ok.mp hallocate
    cases hallocate
    -- Room is made for the record, and then again for its header and for its payload.
    obtain ⟨rfl, hwritten⟩ := header_advanced (grow_advanced hwell hgrow).1 hheader length
    obtain ⟨-, hfilled⟩ := allocate_advanced hwritten.wellFormed hpayload
    refine ⟨rfl, Nat.lt_of_not_le hshort, hwritten.trans hfilled, hfilled.holds ?_ ?_⟩
    · exact Nat.le_of_eq (by rw [hwritten.cursor_eq, Record.length_header])
    · exact Memory.holds_write _ _ _

theorem appendRecord_advanced {payload : Bytes} (hwell : buffer.WellFormed)
    (happend : buffer.appendRecord payload = .ok (offset, after)) :
    offset = buffer.cursor ∧ payload.length < Limits.payloadBound ∧
      buffer.Advanced after (Record.size payload.length) ∧
      after.memory.Holds buffer.cursor (Record.encode payload) := by
  obtain ⟨⟨start, allocated⟩, hallocate, happend⟩ := bind_eq_ok.mp happend
  cases happend
  obtain ⟨rfl, hshort, hadvanced, hheader⟩ := allocateRecord_advanced hwell hallocate
  refine ⟨rfl, hshort, hadvanced.overwrite (Nat.le_add_right _ _) ?_, ?_⟩
  · exact Nat.le_of_eq (by rw [Record.size, Nat.add_assoc])
  · refine Memory.holds_append.mpr ⟨?_, ?_⟩
    · exact (Memory.sameOutside_write _ _ _).holds (Or.inl (Nat.le_refl _)) hheader
    · exact Memory.holds_write _ _ _

/-! ## What follows what was written -/

/-- A buffer in which a string of bytes follows what was written before. -/
structure FollowedBy (before after : Buffer) (bytes : Bytes) : Prop
    extends Advanced before after bytes.length where
  written : after.memory.slice 0 after.cursor = before.memory.slice 0 before.cursor ++ bytes

theorem Advanced.followedBy {bytes : Bytes} (hadvanced : before.Advanced after bytes.length)
    (hholds : after.memory.Holds before.cursor bytes) : before.FollowedBy after bytes := by
  refine ⟨hadvanced, ?_⟩
  rw [hadvanced.cursor_eq, Memory.slice_add, Nat.zero_add, hholds]
  congr 1
  apply Memory.slice_congr
  intro address _ hbelow
  exact hadvanced.kept address (by omega)

namespace FollowedBy

/-- The bytes lie where the cursor was. -/
theorem holds {bytes : Bytes} (hfollowed : before.FollowedBy after bytes) :
    after.memory.Holds before.cursor bytes := by
  have hwritten := hfollowed.written
  rw [hfollowed.cursor_eq, Memory.slice_add, Nat.zero_add] at hwritten
  refine (List.append_inj hwritten ?_).2
  rw [Memory.length_slice, Memory.length_slice]

theorem refl (hwell : buffer.WellFormed) : buffer.FollowedBy buffer [] :=
  (Advanced.refl hwell).followedBy (Memory.holds_nil _ _)

theorem trans {bytes others : Bytes} (hfirst : before.FollowedBy middle bytes)
    (hsecond : middle.FollowedBy after others) : before.FollowedBy after (bytes ++ others) := by
  refine ⟨?_, ?_⟩
  · rw [List.length_append]
    exact hfirst.toAdvanced.trans hsecond.toAdvanced
  · rw [hsecond.written, hfirst.written, List.append_assoc]

end FollowedBy

theorem appendRecord_followedBy {payload : Bytes} {offset : Nat} (hwell : buffer.WellFormed)
    (happend : buffer.appendRecord payload = .ok (offset, after)) :
    buffer.FollowedBy after (Record.encode payload) := by
  obtain ⟨-, -, hadvanced, hholds⟩ := appendRecord_advanced hwell happend
  apply Advanced.followedBy _ hholds
  rwa [Record.length_encode]

/-! ## Growth that succeeds -/

/-- Every capacity on the way to a size can be had. Only memory of a buffer's own may be refused,
and no capacity exceeds the maximum size, or twice what is needed and a step. -/
def Affords (buffer : Buffer) (size : Nat) : Prop :=
  buffer.backing = .heap → min buffer.maxSize (2 * size + longestStep) ≤ Limits.maxExtent

theorem Affords.evolved {size smaller : Nat} (haffords : before.Affords size)
    (hevolved : before.Evolved after) (hsmaller : smaller ≤ size) : after.Affords smaller := by
  intro hheap
  have hmemory := haffords (hevolved.backing_eq ▸ hheap)
  rw [hevolved.maxSize_eq]
  omega

theorem grow_ok (hwell : buffer.WellFormed) (hfits : buffer.cursor + request ≤ buffer.maxSize)
    (haffords : buffer.Affords (buffer.cursor + request)) :
    ∃ after, buffer.grow request = .ok after := by
  have hcursor := hwell.cursor_le_capacity
  unfold grow
  rw [if_neg (by omega)]
  split
  next => exact ⟨buffer, rfl⟩
  next hroom =>
  split
  next => exact ⟨buffer, rfl⟩
  next =>
    unfold extend
    split
    next => exact ⟨_, rfl⟩
    next hheap =>
      have hmemory := haffords hheap
      have hgrown : buffer.grownCapacity request ≤
          min buffer.maxSize (2 * (buffer.cursor + request) + longestStep) := by
        rw [grownCapacity]
        omega
      rw [if_neg (by omega)]
      exact ⟨_, rfl⟩

theorem allocate_ok (hwell : buffer.WellFormed) (hfits : buffer.cursor + count ≤ buffer.maxSize)
    (haffords : buffer.Affords (buffer.cursor + count)) :
    ∃ offset after, buffer.allocate count = .ok (offset, after) := by
  obtain ⟨grown, hgrow⟩ := grow_ok hwell hfits haffords
  exact ⟨_, _, bind_eq_ok.mpr ⟨grown, hgrow, rfl⟩⟩

theorem append_ok {bytes : Bytes} (hwell : buffer.WellFormed)
    (hfits : buffer.cursor + bytes.length ≤ buffer.maxSize)
    (haffords : buffer.Affords (buffer.cursor + bytes.length)) :
    ∃ after, buffer.append bytes = .ok after := by
  obtain ⟨offset, allocated, hallocate⟩ := allocate_ok hwell hfits haffords
  exact ⟨_, bind_eq_ok.mpr ⟨_, hallocate, rfl⟩⟩

/-- Room for a record is room for its header. -/
theorem exists_header (hwell : buffer.WellFormed)
    (hfits : buffer.cursor + Record.size length ≤ buffer.maxSize)
    (haffords : buffer.Affords (buffer.cursor + Record.size length)) :
    ∃ grown offset headed, buffer.grow (Record.size length) = .ok grown ∧
      buffer.Advanced grown 0 ∧
      grown.allocate Record.headerSize = .ok (offset, headed) := by
  obtain ⟨grown, hgrow⟩ := grow_ok hwell hfits haffords
  have hgrown := (grow_advanced hwell hgrow).1
  have hcursor : grown.cursor = buffer.cursor := hgrown.cursor_eq
  have hsize : Record.size length = Record.headerSize + length := rfl
  obtain ⟨offset, headed, hheader⟩ : ∃ offset headed,
      grown.allocate Record.headerSize = .ok (offset, headed) :=
    allocate_ok hgrown.wellFormed (by rw [hcursor, hgrown.maxSize_eq]; omega)
      (haffords.evolved hgrown.toEvolved (by omega))
  exact ⟨grown, offset, headed, hgrow, hgrown, hheader⟩

theorem allocateRecord_ok (hwell : buffer.WellFormed) (hshort : length < Limits.payloadBound)
    (hfits : buffer.cursor + Record.size length ≤ buffer.maxSize)
    (haffords : buffer.Affords (buffer.cursor + Record.size length)) :
    ∃ offset after, buffer.allocateRecord length = .ok (offset, after) := by
  obtain ⟨grown, offset, headed, hgrow, hgrown, hheader⟩ := exists_header hwell hfits haffords
  obtain ⟨rfl, hwritten⟩ := header_advanced hgrown hheader length
  have hsize : Record.size length = Record.headerSize + length := rfl
  have hbehind := hwritten.cursor_eq
  have hmax := hwritten.maxSize_eq
  obtain ⟨behind, filled, hpayload⟩ : ∃ offset after,
      (headed.overwrite buffer.cursor (Record.header length)).allocate length =
        .ok (offset, after) :=
    allocate_ok hwritten.wellFormed (by omega) (haffords.evolved hwritten.toEvolved (by omega))
  refine ⟨buffer.cursor, filled, bind_eq_ok.mpr ⟨_, Record.checkedSize_of_short hshort,
    bind_eq_ok.mpr ⟨grown, hgrow, bind_eq_ok.mpr ⟨_, hheader, ?_⟩⟩⟩⟩
  simp only
  rw [if_neg (Nat.not_le_of_lt hshort)]
  exact bind_eq_ok.mpr ⟨_, hpayload, rfl⟩

theorem appendRecord_ok {payload : Bytes} (hwell : buffer.WellFormed)
    (hshort : payload.length < Limits.payloadBound)
    (hfits : buffer.cursor + Record.size payload.length ≤ buffer.maxSize)
    (haffords : buffer.Affords (buffer.cursor + Record.size payload.length)) :
    ∃ offset after, buffer.appendRecord payload = .ok (offset, after) := by
  obtain ⟨offset, allocated, hallocate⟩ := allocateRecord_ok hwell hshort hfits haffords
  exact ⟨_, _, bind_eq_ok.mpr ⟨_, hallocate, rfl⟩⟩

/-! ## Growth that fails -/

theorem grow_full (hwell : buffer.WellFormed)
    (hfull : buffer.maxSize < buffer.cursor + request) :
    buffer.grow request = .error (.bufferFull buffer.maxSize buffer.cursor request) := by
  have hcursor := Nat.le_trans hwell.cursor_le_capacity hwell.capacity_le_maxSize
  exact if_pos (Nat.sub_lt_left_of_lt_add hcursor hfull)

theorem allocate_full (hwell : buffer.WellFormed)
    (hfull : buffer.maxSize < buffer.cursor + count) :
    buffer.allocate count = .error (.bufferFull buffer.maxSize buffer.cursor count) :=
  bind_eq_error.mpr (.inl (grow_full hwell hfull))

/-- Whether there is room for a record is looked up before anything else about it. -/
theorem allocateRecord_full (hwell : buffer.WellFormed)
    (hword : Record.size length ≤ Limits.maxSize)
    (hfull : buffer.maxSize < buffer.cursor + Record.size length) :
    buffer.allocateRecord length =
      .error (.bufferFull buffer.maxSize buffer.cursor (Record.size length)) :=
  bind_eq_error.mpr (.inr ⟨_, Record.checkedSize_of_le hword,
    bind_eq_error.mpr (.inl (grow_full hwell hfull))⟩)

/-- A payload without a header is refused for its length where there would be room for it. -/
theorem allocateRecord_too_long (hwell : buffer.WellFormed) (hlong : Limits.payloadBound ≤ length)
    (hword : Record.size length ≤ Limits.maxSize)
    (hfits : buffer.cursor + Record.size length ≤ buffer.maxSize)
    (haffords : buffer.Affords (buffer.cursor + Record.size length)) :
    buffer.allocateRecord length = .error (.payloadTooLong length) := by
  obtain ⟨grown, offset, headed, hgrow, -, hheader⟩ := exists_header hwell hfits haffords
  refine bind_eq_error.mpr (.inr ⟨_, Record.checkedSize_of_le hword,
    bind_eq_error.mpr (.inr ⟨grown, hgrow, bind_eq_error.mpr (.inr ⟨_, hheader, ?_⟩)⟩)⟩)
  simp only
  rw [if_pos hlong]
  rfl

/-- Room below the maximum size is had unless memory refuses it. -/
theorem grow_fault (hfits : buffer.cursor + request ≤ buffer.maxSize)
    (hgrow : buffer.grow request = .error fault) : fault = .capacityOverflow := by
  unfold grow at hgrow
  rw [if_neg (by omega)] at hgrow
  split at hgrow
  next => cases hgrow
  split at hgrow
  next => cases hgrow
  unfold extend at hgrow
  split at hgrow
  next => cases hgrow
  split at hgrow
  next =>
    cases hgrow
    rfl
  next => cases hgrow

theorem allocate_fault (hfits : buffer.cursor + count ≤ buffer.maxSize)
    (hallocate : buffer.allocate count = .error fault) : fault = .capacityOverflow := by
  rcases bind_eq_error.mp hallocate with hgrow | ⟨grown, -, hallocate⟩
  · exact grow_fault hfits hgrow
  · cases hallocate

/-- Once there is room for a record, only memory or the length of its payload may refuse it. -/
theorem allocateRecord_refused (hwell : buffer.WellFormed)
    (hword : Record.size length ≤ Limits.maxSize)
    (hfits : buffer.cursor + Record.size length ≤ buffer.maxSize)
    (hallocate : buffer.allocateRecord length = .error fault) :
    Limits.payloadBound ≤ length ∧ fault = .payloadTooLong length ∨ fault = .capacityOverflow := by
  rcases bind_eq_error.mp hallocate with hsized | ⟨size, hsized, hallocate⟩
  · rw [Record.checkedSize_of_le hword] at hsized
    cases hsized
  rw [Record.checkedSize_of_le hword] at hsized
  cases hsized
  rcases bind_eq_error.mp hallocate with hgrow | ⟨grown, hgrow, hallocate⟩
  · exact .inr (grow_fault hfits hgrow)
  have hgrown := (grow_advanced hwell hgrow).1
  have hcursor : grown.cursor = buffer.cursor := hgrown.cursor_eq
  have hmax := hgrown.maxSize_eq
  have hsize : Record.size length = Record.headerSize + length := rfl
  rcases bind_eq_error.mp hallocate with hheader | ⟨⟨start, headed⟩, hheader, hallocate⟩
  · exact .inr (allocate_fault (by omega) hheader)
  simp only at hallocate
  split at hallocate
  next hlong =>
    cases hallocate
    exact .inl ⟨hlong, rfl⟩
  next =>
    obtain ⟨-, hwritten⟩ := header_advanced hgrown hheader length
    have hbehind := hwritten.cursor_eq
    have hlimit := hwritten.maxSize_eq
    rcases bind_eq_error.mp hallocate with hpayload | ⟨_, -, hallocate⟩
    · exact .inr (allocate_fault (by omega) hpayload)
    · cases hallocate

theorem allocateRecord_fault (hwell : buffer.WellFormed) (hshort : length < Limits.payloadBound)
    (hfits : buffer.cursor + Record.size length ≤ buffer.maxSize)
    (hallocate : buffer.allocateRecord length = .error fault) : fault = .capacityOverflow := by
  have hword := Record.size_le_of_short hshort
  rcases allocateRecord_refused hwell hword hfits hallocate with ⟨hlong, -⟩ | hmemory
  · exact absurd hshort (Nat.not_lt_of_le hlong)
  · exact hmemory

theorem appendRecord_fault {payload : Bytes} (hwell : buffer.WellFormed)
    (hshort : payload.length < Limits.payloadBound)
    (hfits : buffer.cursor + Record.size payload.length ≤ buffer.maxSize)
    (happend : buffer.appendRecord payload = .error fault) : fault = .capacityOverflow := by
  rcases bind_eq_error.mp happend with hallocate | ⟨_, -, happend⟩
  · exact allocateRecord_fault hwell hshort hfits hallocate
  · cases happend

end RecordBuffer.Buffer

import RecordBuffer.Proofs.Growth
import RecordBuffer.Proofs.RangeSort

/-!
# Records from an offset to the cursor

Records that are packed from an offset up to the cursor stay so while others are
added and while they are sorted from that offset on. A walk from there meets
exactly these records.
-/

namespace RecordBuffer.Buffer

variable {buffer after : Buffer} {start stop count : Nat} {payloads : List Bytes} {payload : Bytes}

/-- The records from an offset up to the cursor are those of a list of payloads. -/
structure RecordsFrom (buffer : Buffer) (start : Nat) (payloads : List Bytes) : Prop where
  wellFormed : buffer.WellFormed
  one_le : 1 ≤ start
  packed : buffer.memory.Packed start payloads
  cursor_eq : buffer.cursor = start + Record.extent payloads

namespace RecordsFrom

/-- Growth shows nowhere. -/
theorem grown (hfrom : buffer.RecordsFrom start payloads) (hadvanced : buffer.Advanced after 0) :
    after.RecordsFrom start payloads :=
  ⟨hadvanced.wellFormed, hfrom.one_le,
    hadvanced.packed (Nat.le_of_eq hfrom.cursor_eq.symm) hfrom.packed,
    hadvanced.cursor_eq.trans hfrom.cursor_eq⟩

/-- Records behind the cursor become the last ones. -/
theorem followed {added : List Bytes} (hfrom : buffer.RecordsFrom start payloads)
    (hshort : Record.Short added) (hfollowed : buffer.FollowedBy after (Record.encodeAll added)) :
    after.RecordsFrom start (payloads ++ added) := by
  have hcursor := hfrom.cursor_eq
  have hadvanced := hfollowed.toAdvanced
  rw [Record.length_encodeAll] at hadvanced
  have hpacked := hadvanced.packed (Nat.le_of_eq hcursor.symm) hfrom.packed
  refine ⟨hadvanced.wellFormed, hfrom.one_le, Memory.Packed.append_iff.mpr ⟨hpacked, ?_⟩, ?_⟩
  · rw [← hcursor]
    exact ⟨hshort, hfollowed.holds⟩
  · rw [hadvanced.cursor_eq, hcursor, Record.extent_append, Nat.add_assoc]

/-- A record behind the cursor becomes the last one. -/
theorem append (hfrom : buffer.RecordsFrom start payloads)
    (hshort : payload.length < Limits.payloadBound)
    (hadvanced : buffer.Advanced after (Record.size payload.length))
    (hholds : after.memory.Holds buffer.cursor (Record.encode payload)) :
    after.RecordsFrom start (payloads ++ [payload]) := by
  rw [← Record.length_encode] at hadvanced
  refine hfrom.followed (Record.short_cons.mpr ⟨hshort, Record.short_nil⟩) ?_
  simpa using hadvanced.followedBy hholds

/-- A walk from the offset meets the records. -/
theorem trail (hfrom : buffer.RecordsFrom start payloads) :
    ∃ last, buffer.trail start buffer.cursor = .ok ⟨visits start payloads, last⟩ := by
  obtain ⟨hwell, hone, hpacked, hcursor⟩ := hfrom
  exact exists_trail_of_packed hone hpacked hcursor hwell.cursor_le_capacity

theorem recordRange (hfrom : buffer.RecordsFrom start payloads) (hstop : buffer.cursor ≤ stop) :
    ∃ last, buffer.recordRange start stop = .ok ⟨visits start payloads, last⟩ := by
  rw [Buffer.recordRange, Nat.min_eq_right hstop]
  exact hfrom.trail

/-- Sorting the records sorts the list, in chunks of whatever size can be noted. -/
theorem sortRange (compare : Comparator) [Std.TransCmp compare] {chunkSize : Nat}
    (hfrom : buffer.RecordsFrom start payloads) (hstop : buffer.cursor ≤ stop)
    (hchunkSize : 1 ≤ chunkSize) (hmemory : offsetSize * chunkSize ≤ Limits.maxExtent) :
    ∃ after, buffer.sortRange compare start stop chunkSize = .ok after ∧
      after.RecordsFrom start (compare.sort payloads) := by
  obtain ⟨hwell, hone, hpacked, hcursor⟩ := hfrom
  obtain ⟨after, hsort, hrewritten, hsorted⟩ := sortRange_of_packed compare hone hchunkSize hmemory
    hpacked ((Nat.min_eq_right hstop).trans hcursor) hwell.cursor_le_capacity
  rw [compare.chunkSort_eq_sort] at hsorted
  rw [← hcursor] at hrewritten
  have hevolved := hrewritten.evolved hwell hwell.cursor_le_capacity
  refine ⟨after, hsort, hevolved.wellFormed, hone, hsorted, ?_⟩
  obtain ⟨memory, rfl, -⟩ := hrewritten
  rw [Record.extent_perm (compare.sort_perm payloads)]
  exact hcursor

end RecordsFrom

end RecordBuffer.Buffer

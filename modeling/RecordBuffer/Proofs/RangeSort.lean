import Mathlib
import RecordBuffer.Proofs.Orders
import RecordBuffer.Proofs.Rearranging

/-!
# Sorting packed records

Every chunk of a range of packed records is sorted in place, and the chunks are
merged over a balanced tree. For every comparator the result is that of sorting
the list of payloads in chunks, and for a total preorder it is the stable sort.
-/

namespace RecordBuffer.Buffer

variable {buffer : Buffer} {start stop : Nat}

/-- Whatever the comparator answers, a range of packed records becomes the same payloads sorted
in chunks. -/
theorem sortRange_of_packed (compare : Comparator) {chunkSize : Nat} {payloads : List Bytes}
    (hstart : 1 ≤ start) (hchunkSize : 1 ≤ chunkSize)
    (hmemory : offsetSize * chunkSize ≤ Limits.maxExtent)
    (hpacked : buffer.memory.Packed start payloads)
    (hstop : min stop buffer.cursor = start + Record.extent payloads)
    (hcapacity : buffer.cursor ≤ buffer.capacity) :
    ∃ after, buffer.sortRange compare start stop chunkSize = .ok after ∧
      buffer.RewrittenIn after start (start + Record.extent payloads) ∧
      after.memory.Packed start (compare.chunkSort chunkSize payloads) := by
  have hsorted := sortRangeBy_of_packed compare.rearranges_sortVisits compare hstart hchunkSize
    hmemory hpacked hstop hcapacity
  rwa [← sortRange_eq, compare.arranged_sortVisits] at hsorted

/-- Sorting a range of records is the stable sort of their payloads, whatever lies around the
range and however large the chunks are, as long as the offsets of one chunk can be noted. The
specification of a stable sort leaves one result, and nothing outside the range changes. -/
theorem sortRange_eq_stable_sort (compare : Comparator) [Std.TransCmp compare] {chunkSize : Nat}
    {payloads : List Bytes} (hstart : 1 ≤ start) (hchunkSize : 1 ≤ chunkSize)
    (hmemory : offsetSize * chunkSize ≤ Limits.maxExtent)
    (hcapacity : buffer.cursor ≤ buffer.capacity) (hshort : Record.Short payloads)
    (hrange : buffer.memory.slice start (min stop buffer.cursor - start) =
      Record.encodeAll payloads) :
    ∃ memory, buffer.sortRange compare start stop chunkSize = .ok { buffer with memory } ∧
      memory.slice start (min stop buffer.cursor - start) =
        Record.encodeAll (compare.sort payloads) ∧
      (∀ sorted, compare.StableSort payloads sorted ↔ sorted = compare.sort payloads) ∧
      Memory.SameOutside buffer.memory memory start (min stop buffer.cursor) := by
  have hextent := congrArg List.length hrange
  rw [Memory.length_slice, Record.length_encodeAll] at hextent
  have hsorted := compare.stableSort_sort payloads
  have hunique : ∀ sorted, compare.StableSort payloads sorted ↔ sorted = compare.sort payloads :=
    fun sorted => ⟨fun hother => hother.unique hsorted, fun heq => heq ▸ hsorted⟩
  rcases Nat.lt_or_ge (min stop buffer.cursor) start with hbefore | hafter
  · -- The range ends in front of its start.
    obtain rfl : payloads = [] := Record.extent_eq_zero.mp (by omega)
    refine ⟨buffer.memory, ?_, ?_, hunique, Memory.SameOutside.refl _ _ _⟩
    · unfold sortRange
      exact if_pos (Nat.le_of_lt hbefore)
    · rw [List.perm_nil.mp (compare.sort_perm [])]
      exact hrange
  · have hstop : min stop buffer.cursor = start + Record.extent payloads := by omega
    have hpacked : buffer.memory.Packed start payloads := by
      refine ⟨hshort, ?_⟩
      rw [Memory.Holds, Record.length_encodeAll, ← hextent, hrange]
    obtain ⟨after, hsort, ⟨memory, rfl, hsame⟩, hafter⟩ :=
      sortRange_of_packed compare hstart hchunkSize hmemory hpacked hstop hcapacity
    rw [compare.chunkSort_eq_sort] at hafter
    refine ⟨memory, hsort, ?_, hunique, hstop ▸ hsame⟩
    have hholds := hafter.holds
    rwa [Memory.Holds, Record.length_encodeAll, Record.extent_perm hsorted.perm,
      ← hextent] at hholds

/-- Ties by length, a last chunk that is shorter, and a stop past the cursor. -/
theorem sortRange_by_length :
    let buffer : Buffer :=
      { backing := .heap
        memory := (Memory.blank.write 1 [7, 7]).write 3
          (Record.encodeAll [[5, 5], [1], [], [2, 2], [9]])
        backed := 64, cursor := 29, capacity := 64, maxSize := 128 }
    ∃ memory, buffer.sortRange Comparator.length 3 1000 2 = .ok { buffer with memory } ∧
      memory.slice 3 26 = Record.encodeAll [[], [1], [9], [5, 5], [2, 2]] ∧
      Memory.SameOutside buffer.memory memory 3 29 := by
  intro buffer
  have hsorted : Comparator.length.sort [[5, 5], [1], [], [2, 2], [9]] =
      [[], [1], [9], [5, 5], [2, 2]] := by cbv
  have hrange : buffer.memory.slice 3 (min 1000 buffer.cursor - 3) =
      Record.encodeAll [[5, 5], [1], [], [2, 2], [9]] := Memory.slice_write _ 3 _
  have hshort : Record.Short [[5, 5], [1], [], [2, 2], [9]] := by unfold Record.Short; decide
  obtain ⟨memory, hsort, hslice, -, hsame⟩ :=
    @sortRange_eq_stable_sort buffer 3 1000 Comparator.length _ 2 _ (by decide) (by decide)
      (by decide) (by decide) hshort hrange
  exact ⟨memory, hsort, hsorted ▸ hslice, hsame⟩

end RecordBuffer.Buffer

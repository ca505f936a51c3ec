import RecordBuffer.Proofs.Chunks
import RecordBuffer.Proofs.RangeFrame

/-!
# Rearranging packed records

A sort puts the records of every chunk in some order and merges the chunks.
Whatever these orders are, and whatever the comparator answers while runs are
merged, the records stay whole and fill the range that they filled before, each
of them once. The order that a comparator gives is one of these orders.
-/

namespace RecordBuffer

/-- Visits are put in some order, and none is lost or made up. -/
def Rearranges (arrange : List Visit → List Visit) : Prop :=
  ∀ visited, (arrange visited).Perm visited

theorem Comparator.rearranges_sortVisits (compare : Comparator) : Rearranges compare.sortVisits :=
  fun visited => List.mergeSort_perm visited _

/-- The runs that chunks become that are packed from an offset on. -/
def arranged (arrange : List Visit → List Visit) (offset : Nat) :
    List (List Bytes) → List (List Bytes)
  | [] => []
  | chunk :: rest =>
      (arrange (visits offset chunk)).map Visit.payload ::
        arranged arrange (offset + Record.extent chunk) rest

theorem Rearranges.payloads_perm {arrange : List Visit → List Visit} (harrange : Rearranges arrange)
    (offset : Nat) (chunk : List Bytes) :
    ((arrange (visits offset chunk)).map Visit.payload).Perm chunk := by
  have hperm := (harrange (visits offset chunk)).map Visit.payload
  rwa [map_payload_visits] at hperm

theorem Rearranges.flatten_perm {arrange : List Visit → List Visit} (harrange : Rearranges arrange)
    (offset : Nat) (chunks : List (List Bytes)) :
    (arranged arrange offset chunks).flatten.Perm chunks.flatten := by
  induction chunks generalizing offset with
  | nil => exact List.Perm.refl _
  | cons chunk rest ih =>
      rw [arranged, List.flatten_cons, List.flatten_cons]
      exact (harrange.payloads_perm offset chunk).append (ih _)

theorem Rearranges.map_extent {arrange : List Visit → List Visit} (harrange : Rearranges arrange)
    (offset : Nat) (chunks : List (List Bytes)) :
    (arranged arrange offset chunks).map Record.extent = chunks.map Record.extent := by
  induction chunks generalizing offset with
  | nil => rfl
  | cons chunk rest ih =>
      rw [arranged, List.map_cons, List.map_cons, ih,
        Record.extent_perm (harrange.payloads_perm offset chunk)]

/-- Putting visits in order by their payloads sorts the payloads. -/
theorem Comparator.map_payload_sortVisits (compare : Comparator) (visited : List Visit) :
    (compare.sortVisits visited).map Visit.payload =
      compare.sort (visited.map Visit.payload) :=
  List.map_mergeSort fun _ _ _ _ => rfl

theorem Comparator.arranged_sortVisits (compare : Comparator) (offset : Nat)
    (chunks : List (List Bytes)) :
    arranged compare.sortVisits offset chunks = chunks.map compare.sort := by
  induction chunks generalizing offset with
  | nil => rfl
  | cons chunk rest ih =>
      rw [arranged, ih, compare.map_payload_sortVisits, map_payload_visits, List.map_cons]

namespace Buffer

variable {buffer after : Buffer} {arrange : List Visit → List Visit} {start stop : Nat}

/-- The bounds of the chunks of a range that is to be sorted. All that is refused before anything
is written is refused here. -/
def sortBounds (buffer : Buffer) (start stop chunkSize : Nat) : Except Fault (List Nat) :=
  if start = 0 then .error .zeroSortStart
  else if chunkSize = 0 then .error .zeroChunkSize
  else do
    let bounds ← buffer.chunkBounds start stop chunkSize
    if Limits.maxExtent < offsetSize * chunkSize then .error .capacityOverflow else .ok bounds

/-- Sort the records from `start` to `stop` as `sortRange` does, but put the records of a chunk in
some order instead of the one that the comparator gives. -/
def sortRangeBy (buffer : Buffer) (arrange : List Visit → List Visit) (compare : Comparator)
    (start stop chunkSize : Nat) : Except Fault Buffer := do
  let stop := min stop buffer.cursor
  if stop ≤ start then return buffer
  let bounds ← buffer.sortBounds start stop chunkSize
  let chunked ← buffer.arrangeChunks arrange bounds
  chunked.mergeAll compare bounds.toArray (mergePlan 0 (bounds.length - 1))

/-- A comparator sorts chunks by the order that it gives. -/
theorem sortRange_eq (compare : Comparator) (start stop chunkSize : Nat) :
    buffer.sortRange compare start stop chunkSize =
      buffer.sortRangeBy compare.sortVisits compare start stop chunkSize := by
  unfold sortRange sortRangeBy sortBounds
  simp only [orderChunks_eq]
  split
  next => rfl
  split
  next => rfl
  split
  next => rfl
  simp only [bind_assoc]
  refine congrArg (buffer.chunkBounds start (min stop buffer.cursor) chunkSize >>= ·)
    (funext fun bounds => ?_)
  split <;> rfl

theorem recordBytes_of_holds {offset : Nat} {payload : Bytes}
    (hshort : payload.length < Limits.payloadBound)
    (hholds : buffer.memory.Holds offset (Record.encode payload))
    (hcapacity : offset + Record.size payload.length ≤ buffer.capacity) :
    buffer.recordBytes offset = .ok (Record.encode payload) := by
  have hlength := Memory.payloadLength_of_holds hshort hholds
  have hheader : ¬ (buffer.capacity < offset + Record.headerSize ∨
      buffer.capacity < offset + Record.size payload.length) := by
    rw [Record.size] at hcapacity ⊢
    omega
  rw [recordBytes, hlength]
  simp only [hheader, if_false, Memory.record_of_holds hholds]

/-- The records that start in a chunk are rearranged, and written back only if they end where the
chunk does. -/
theorem arrangeChunk_of_met (harrange : Rearranges arrange) {chunk : List Bytes}
    (hstart : 1 ≤ start) (hpacked : buffer.memory.Packed start chunk)
    (hcursor : start + Record.extent chunk ≤ buffer.cursor)
    (hcapacity : buffer.cursor ≤ buffer.capacity)
    (hinside : ∀ visit ∈ visits start chunk, visit.offset < stop)
    (hstop : stop ≤ start + Record.extent chunk) :
    buffer.arrangeChunk arrange start stop =
      if Record.extent chunk ≠ stop - start then
        .error (.chunkResized (Record.extent chunk) (stop - start))
      else
        .ok (buffer.overwrite start
          (Record.encodeAll ((arrange (visits start chunk)).map Visit.payload))) := by
  have htrail := trail_of_packed hstart hpacked hcursor hcapacity hinside hstop
  have hbytes : ∀ visit ∈ arrange (visits start chunk),
      buffer.recordBytes visit.offset = .ok (Record.encode visit.payload) := by
    intro visit hvisit
    have hvisited := (harrange _).mem_iff.mp hvisit
    obtain ⟨hshort, hholds⟩ := hpacked.holds_of_mem_visits hvisited
    have hbound := le_of_mem_visits hvisited
    exact recordBytes_of_holds hshort hholds (by omega)
  have hencoded : ((arrange (visits start chunk)).map fun visit =>
      Record.encode visit.payload).flatten =
        Record.encodeAll ((arrange (visits start chunk)).map Visit.payload) := by
    rw [Record.encodeAll, List.flatMap_def, List.map_map]
    rfl
  -- The records are as long together as they were, which is what is checked against the chunk.
  have hextent := Record.extent_perm (harrange.payloads_perm start chunk)
  rw [arrangeChunk, htrail]
  simp only [bind, Except.bind, mapM_eq_ok hbytes, hencoded, Record.length_encodeAll, hextent]
  split <;> rfl

/-- A chunk of packed records is overwritten by the same records in another order. -/
theorem arrangeChunk_of_packed (harrange : Rearranges arrange) {chunk : List Bytes}
    (hstart : 1 ≤ start) (hpacked : buffer.memory.Packed start chunk)
    (hcursor : start + Record.extent chunk ≤ buffer.cursor)
    (hcapacity : buffer.cursor ≤ buffer.capacity) :
    buffer.arrangeChunk arrange start (start + Record.extent chunk) =
      .ok (buffer.overwrite start
        (Record.encodeAll ((arrange (visits start chunk)).map Visit.payload))) := by
  rw [arrangeChunk_of_met harrange hstart hpacked hcursor hcapacity
    (fun visit hvisit => lt_of_mem_visits hvisit) (Nat.le_refl _)]
  exact if_neg fun hne => hne (Nat.add_sub_cancel_left _ _).symm

/-- All chunks are rearranged. -/
theorem arrangeChunks_of_packed (harrange : Rearranges arrange) {chunks : List (List Bytes)}
    (hstart : 1 ≤ start) (hpacked : buffer.memory.Packed start chunks.flatten)
    (hcursor : start + Record.extent chunks.flatten ≤ buffer.cursor)
    (hcapacity : buffer.cursor ≤ buffer.capacity) :
    ∃ after, buffer.arrangeChunks arrange (chunkOffsets start chunks) = .ok after ∧
      buffer.RewrittenIn after start (start + Record.extent chunks.flatten) ∧
      after.memory.Packed start (arranged arrange start chunks).flatten := by
  induction chunks generalizing buffer start with
  | nil => exact ⟨buffer, rfl, RewrittenIn.refl _ _ _, Memory.Packed.nil _ _⟩
  | cons chunk rest ih =>
      rw [List.flatten_cons] at hpacked hcursor ⊢
      rw [Record.extent_append, ← Nat.add_assoc] at hcursor ⊢
      obtain ⟨hchunk, hrest⟩ := Memory.Packed.append_iff.mp hpacked
      have hperm := harrange.payloads_perm start chunk
      have harranged := arrangeChunk_of_packed harrange hstart hchunk (by omega) hcapacity
      -- The chunk written back is not touched by the others, which find their records as they were.
      have hwritten := Memory.sameOutside_write buffer.memory start
        (Record.encodeAll ((arrange (visits start chunk)).map Visit.payload))
      rw [Record.length_encodeAll, Record.extent_perm hperm] at hwritten
      have hrewritten : buffer.RewrittenIn _ start (start + Record.extent chunk) :=
        ⟨_, rfl, hwritten⟩
      have hpayloads := Memory.Packed.write buffer.memory start (hchunk.short.perm hperm)
      have hrest := hrewritten.packed hrest (Or.inr (Nat.le_refl _))
      obtain ⟨after, hafter, hbehind, hdone⟩ :=
        ih (Nat.le_add_right_of_le hstart) hrest hcursor hcapacity
      refine ⟨after, ?_, ?_, ?_⟩
      · obtain ⟨offsets, hoffsets⟩ := chunkOffsets_eq_cons (start + Record.extent chunk) rest
        rw [hoffsets] at hafter
        rw [chunkOffsets, hoffsets, arrangeChunks, harranged]
        exact hafter
      · exact (hrewritten.mono (Nat.le_refl _) (Nat.le_add_right _ _)).trans
          (hbehind.mono (Nat.le_add_right _ _) (Nat.le_refl _))
      · have hextent := Record.extent_perm hperm
        rw [arranged, List.flatten_cons, Memory.Packed.append_iff, hextent]
        exact ⟨hbehind.packed hpayloads (Or.inl (Nat.le_of_eq (by rw [hextent]))), hdone⟩

theorem mergeAll_append (compare : Comparator) (bounds : Array Nat)
    (first second : List MergeStep) :
    buffer.mergeAll compare bounds (first ++ second) =
      buffer.mergeAll compare bounds first >>= fun after => after.mergeAll compare bounds second :=
  List.foldlM_append

theorem mergeAll_singleton (compare : Comparator) (bounds : Array Nat) (step : MergeStep) :
    buffer.mergeAll compare bounds [step] =
      buffer.mergeRuns compare (bounds.getD step.low 0) (bounds.getD step.middle 0)
        (bounds.getD step.high 0) := by
  rw [mergeAll, List.foldlM_cons]
  simp only [List.foldlM_nil, bind_pure]

/-- A plan merges the runs between the bounds that it is for over a balanced tree. -/
theorem mergeAll_of_packed (compare : Comparator) {bounds : Array Nat} {low high : Nat}
    {runs : List (List Bytes)} (hlength : runs.length = high - low)
    (hbounds : Delimits bounds low start runs) (hpacked : buffer.memory.Packed start runs.flatten) :
    ∃ after, buffer.mergeAll compare bounds (mergePlan low high) = .ok after ∧
      buffer.RewrittenIn after start (start + Record.extent runs.flatten) ∧
      after.memory.Packed start (compare.mergeHalves runs) := by
  fun_induction mergePlan low high generalizing buffer start runs
  case case1 low high middle hsame =>
    have hshort : runs.length ≤ 1 := by omega
    refine ⟨buffer, rfl, RewrittenIn.refl _ _ _, ?_⟩
    rw [compare.mergeHalves_of_length_le_one hshort]
    exact hpacked
  case case2 low high middle hne ihleft ihright =>
    have hhalf : middle = low + runs.length / 2 := by omega
    have hleftBounds := hbounds.take (runs.length / 2)
    have hrightBounds := hbounds.drop (Nat.div_le_self runs.length 2)
    have hwhole : runs.flatten =
        (runs.take (runs.length / 2)).flatten ++ (runs.drop (runs.length / 2)).flatten := by
      rw [← List.flatten_append, List.take_append_drop]
    have hleftLength : (runs.take (runs.length / 2)).length = middle - low := by
      rw [List.length_take]
      omega
    have hrightLength : (runs.drop (runs.length / 2)).length = high - middle := by
      rw [List.length_drop]
      omega
    rw [compare.mergeHalves_of_two_le_length (by omega), hwhole]
    rw [← hhalf] at hrightBounds
    rw [hwhole] at hpacked
    generalize runs.take (runs.length / 2) = left at *
    generalize runs.drop (runs.length / 2) = right at *
    rw [Memory.Packed.append_iff] at hpacked
    rw [Record.extent_append, ← Nat.add_assoc]
    obtain ⟨first, hfirst, hfirstRewritten, hfirstPacked⟩ :=
      ihleft hleftLength hleftBounds hpacked.1
    obtain ⟨second, hsecond, hsecondRewritten, hsecondPacked⟩ := ihright hrightLength hrightBounds
      (hfirstRewritten.packed hpacked.2 (Or.inr (Nat.le_refl _)))
    -- Merged halves are as long as the halves were, so the bounds are still those of the runs.
    have hleftExtent := Record.extent_perm (compare.mergeHalves_perm left)
    have hrightExtent := Record.extent_perm (compare.mergeHalves_perm right)
    rw [← hleftExtent] at hsecondPacked
    have hfirstPacked := hsecondRewritten.packed hfirstPacked
      (Or.inl (Nat.le_of_eq (by rw [hleftExtent])))
    obtain ⟨memory, hmerge, hmerged⟩ := mergeRuns_packed compare hfirstPacked hsecondPacked
    rw [hleftExtent, hrightExtent] at hmerge
    refine ⟨{ second with memory }, ?_, ?_, hmerged⟩
    · rw [mergeAll_append, mergeAll_append, hfirst]
      refine bind_eq_ok.mpr ⟨second, hsecond, ?_⟩
      rw [mergeAll_singleton]
      simp only [hleftBounds.getD_first, hrightBounds.getD_first,
        hrightBounds.getD_last (show high = middle + right.length by omega)]
      exact hmerge
    · have hmergeRewritten :=
        mergeRuns_rewritten (Nat.le_add_right _ _) (Nat.le_add_right _ _) hmerge
      exact ((hfirstRewritten.mono (Nat.le_refl _) (Nat.le_add_right _ _)).trans
        (hsecondRewritten.mono (Nat.le_add_right _ _) (Nat.le_refl _))).trans hmergeRewritten

/-- Once a range is cut into chunks, a sort is refused only where the offsets of one chunk cannot be
noted. -/
theorem sortBounds_of_chunkBounds {chunkSize : Nat} {bounds : List Nat} (hstart : 1 ≤ start)
    (hchunkSize : 1 ≤ chunkSize) (hbounds : buffer.chunkBounds start stop chunkSize = .ok bounds) :
    buffer.sortBounds start stop chunkSize =
      if Limits.maxExtent < offsetSize * chunkSize then .error .capacityOverflow
      else .ok bounds := by
  rw [sortBounds, if_neg (by omega), if_neg (by omega), hbounds]
  rfl

/-- A range of packed records becomes the merge of its rearranged chunks. -/
theorem sortRangeBy_of_packed (harrange : Rearranges arrange) (compare : Comparator)
    {chunkSize : Nat} {payloads : List Bytes} (hstart : 1 ≤ start) (hchunkSize : 1 ≤ chunkSize)
    (hmemory : offsetSize * chunkSize ≤ Limits.maxExtent)
    (hpacked : buffer.memory.Packed start payloads)
    (hstop : min stop buffer.cursor = start + Record.extent payloads)
    (hcapacity : buffer.cursor ≤ buffer.capacity) :
    ∃ after, buffer.sortRangeBy arrange compare start stop chunkSize = .ok after ∧
      buffer.RewrittenIn after start (start + Record.extent payloads) ∧
      after.memory.Packed start
        (compare.mergeHalves (arranged arrange start (chunksOf chunkSize payloads))) := by
  unfold sortRangeBy
  simp only [hstop]
  by_cases hempty : payloads = []
  · subst hempty
    refine ⟨buffer, if_pos (Nat.le_refl _), RewrittenIn.refl _ _ _, ?_⟩
    rw [chunksOf, arranged, Comparator.mergeHalves]
    exact hpacked
  · have hextent : Record.extent payloads ≠ 0 :=
      fun hzero => hempty (Record.extent_eq_zero.mp hzero)
    have hcursor : start + Record.extent payloads ≤ buffer.cursor := by omega
    have hflatten := flatten_chunksOf chunkSize payloads
    have hchunks := hpacked
    rw [← hflatten] at hchunks
    have hbounds := chunkBounds_of_packed chunkSize hstart hpacked hcursor hcapacity
    have hsortBounds : buffer.sortBounds start (start + Record.extent payloads) chunkSize =
        .ok (chunkOffsets start (chunksOf chunkSize payloads)) := by
      rw [sortBounds_of_chunkBounds hstart hchunkSize hbounds, if_neg (by omega)]
    rw [← hflatten] at hcursor
    obtain ⟨chunked, hchunked, hchunkedRewritten, hchunkedPacked⟩ :=
      arrangeChunks_of_packed harrange hstart hchunks hcursor hcapacity
    rw [hflatten] at hchunkedRewritten
    have hextents := harrange.map_extent start (chunksOf chunkSize payloads)
    have hlength : (arranged arrange start (chunksOf chunkSize payloads)).length =
        (chunksOf chunkSize payloads).length := by
      simpa using congrArg List.length hextents
    have hdelimits :=
      (Delimits.chunkOffsets start (chunksOf chunkSize payloads)).of_extents hextents
    obtain ⟨after, hmerged, hmergedRewritten, hmergedPacked⟩ :=
      mergeAll_of_packed compare (by rw [hlength, Nat.sub_zero]) hdelimits hchunkedPacked
    rw [Record.extent_perm (harrange.flatten_perm start _), hflatten] at hmergedRewritten
    refine ⟨after, ?_, hchunkedRewritten.trans hmergedRewritten, hmergedPacked⟩
    rw [if_neg (by omega)]
    refine bind_eq_ok.mpr ⟨_, hsortBounds, ?_⟩
    rw [length_chunkOffsets, Nat.add_sub_cancel]
    exact bind_eq_ok.mpr ⟨chunked, hchunked, hmerged⟩

/-- The bounds of the chunks rise through the range, and every merge is of two runs between
three of them. -/
theorem sortBounds_ascending {chunkSize : Nat} {bounds : List Nat} (hrange : start ≤ stop)
    (hbounds : buffer.sortBounds start stop chunkSize = .ok bounds) :
    Ascending start stop bounds ∧ ∀ step ∈ mergePlan 0 (bounds.length - 1),
      step.low < step.middle ∧ step.middle < step.high ∧ step.high < bounds.length := by
  unfold sortBounds at hbounds
  split at hbounds
  next => cases hbounds
  split at hbounds
  next => cases hbounds
  obtain ⟨cut, hcut, hbounds⟩ := bind_eq_ok.mp hbounds
  split at hbounds
  next => cases hbounds
  cases hbounds
  refine ⟨chunkBounds_ascending hrange hcut, fun step hstep => ?_⟩
  have hplan := mem_mergePlan hstep
  omega

/-- Where the offsets of one chunk cannot be noted, a sort is refused before it writes. -/
theorem sortBounds_refused {chunkSize : Nat} {payloads : List Bytes} (hstart : 1 ≤ start)
    (hchunkSize : 1 ≤ chunkSize) (hmemory : Limits.maxExtent < offsetSize * chunkSize)
    (hpacked : buffer.memory.Packed start payloads)
    (hcursor : start + Record.extent payloads ≤ buffer.cursor)
    (hcapacity : buffer.cursor ≤ buffer.capacity) :
    buffer.sortBounds start (start + Record.extent payloads) chunkSize =
      .error .capacityOverflow := by
  rw [sortBounds_of_chunkBounds hstart hchunkSize
    (chunkBounds_of_packed chunkSize hstart hpacked hcursor hcapacity), if_pos hmemory]

theorem sortRangeBy_refused (compare : Comparator) {chunkSize : Nat} {fault : Fault}
    (hrange : start < min stop buffer.cursor)
    (hrefused : buffer.sortBounds start (min stop buffer.cursor) chunkSize = .error fault) :
    buffer.sortRangeBy arrange compare start stop chunkSize = .error fault := by
  unfold sortRangeBy
  simp only [hrefused]
  rw [if_neg (Nat.not_le_of_lt hrange)]
  rfl

/-- A sort loses no record of its range, whatever the comparator answers and in whatever order the
records of a chunk are put. The range is filled by the same payloads in some order, and nothing
outside it changes. The one thing that is refused is a chunk whose offsets cannot be noted, and
that is before anything is written. The bounds between which records are read out and written back
lie in the range and below the capacity. -/
theorem sortRange_keeps_records (compare : Comparator) (harrange : Rearranges arrange)
    {chunkSize : Nat} {payloads : List Bytes} (hstart : 1 ≤ start) (hchunkSize : 1 ≤ chunkSize)
    (hcapacity : buffer.cursor ≤ buffer.capacity) (hshort : Record.Short payloads)
    (hrange : buffer.memory.slice start (min stop buffer.cursor - start) =
      Record.encodeAll payloads) :
    (offsetSize * chunkSize ≤ Limits.maxExtent ∨ payloads = [] → ∃ memory permuted,
      buffer.sortRangeBy arrange compare start stop chunkSize = .ok { buffer with memory } ∧
      permuted.Perm payloads ∧
      memory.slice start (min stop buffer.cursor - start) = Record.encodeAll permuted ∧
      Memory.SameOutside buffer.memory memory start (min stop buffer.cursor)) ∧
    (Limits.maxExtent < offsetSize * chunkSize → payloads ≠ [] →
      buffer.sortBounds start (min stop buffer.cursor) chunkSize = .error .capacityOverflow ∧
      buffer.sortRangeBy arrange compare start stop chunkSize = .error .capacityOverflow) ∧
    (∀ bounds, start ≤ min stop buffer.cursor →
      buffer.sortBounds start (min stop buffer.cursor) chunkSize = .ok bounds →
      Ascending start (min stop buffer.cursor) bounds ∧ min stop buffer.cursor ≤ buffer.capacity ∧
      ∀ step ∈ mergePlan 0 (bounds.length - 1),
        step.low < step.middle ∧ step.middle < step.high ∧ step.high < bounds.length) ∧
    Rearranges compare.sortVisits ∧
    buffer.sortRange compare start stop chunkSize =
      buffer.sortRangeBy compare.sortVisits compare start stop chunkSize := by
  have hextent := congrArg List.length hrange
  rw [Memory.length_slice, Record.length_encodeAll] at hextent
  refine ⟨?_, ?_, ?_, compare.rearranges_sortVisits, sortRange_eq compare start stop chunkSize⟩
  · intro hmemory
    by_cases hempty : payloads = []
    · -- There is nothing to sort, and the range may even end in front of its start.
      subst hempty
      rw [Record.extent_nil] at hextent
      exact ⟨buffer.memory, [], if_pos (by omega), List.Perm.refl _, hrange,
        Memory.SameOutside.refl _ _ _⟩
    · have hne : Record.extent payloads ≠ 0 := fun hzero => hempty (Record.extent_eq_zero.mp hzero)
      have hstop : min stop buffer.cursor = start + Record.extent payloads := by omega
      obtain ⟨after, hsort, ⟨memory, rfl, hsame⟩, hafter⟩ :=
        sortRangeBy_of_packed harrange compare hstart hchunkSize (hmemory.resolve_right hempty)
          (Memory.packed_of_slice hshort hstop hrange) hstop hcapacity
      have hperm := (compare.mergeHalves_perm _).trans
        (harrange.flatten_perm start (chunksOf chunkSize payloads))
      rw [flatten_chunksOf] at hperm
      refine ⟨memory, _, hsort, hperm, ?_, hstop ▸ hsame⟩
      have hholds := hafter.holds
      rwa [Memory.Holds, Record.length_encodeAll, Record.extent_perm hperm, ← hextent] at hholds
  · intro hmemory hempty
    have hne : Record.extent payloads ≠ 0 := fun hzero => hempty (Record.extent_eq_zero.mp hzero)
    have hstop : min stop buffer.cursor = start + Record.extent payloads := by omega
    have hrefused := sortBounds_refused hstart hchunkSize hmemory
      (Memory.packed_of_slice hshort hstop hrange) (by omega) hcapacity
    rw [← hstop] at hrefused
    exact ⟨hrefused, sortRangeBy_refused compare (by omega) hrefused⟩
  · intro bounds horder hbounds
    obtain ⟨hascending, hplan⟩ := sortBounds_ascending horder hbounds
    exact ⟨hascending, Nat.le_trans (Nat.min_le_right _ _) hcapacity, hplan⟩

/-- Every chunk is reversed, and the comparator says that each of two payloads is less than the
other. -/
theorem sortRange_keeps_records_inconsistent :
    let buffer : Buffer :=
      { backing := .heap
        memory := (Memory.blank.write 1 [7, 7]).write 3
          (Record.encodeAll [[5, 5], [1], [], [2, 2], [9]])
        backed := 64, cursor := 29, capacity := 64, maxSize := 128 }
    ∃ memory permuted,
      buffer.sortRangeBy List.reverse (fun _ _ => .lt) 3 1000 2 = .ok { buffer with memory } ∧
      permuted.Perm [[5, 5], [1], [], [2, 2], [9]] ∧
      memory.slice 3 26 = Record.encodeAll permuted ∧
      Memory.SameOutside buffer.memory memory 3 29 := by
  intro buffer
  have hrange : buffer.memory.slice 3 (min 1000 buffer.cursor - 3) =
      Record.encodeAll [[5, 5], [1], [], [2, 2], [9]] := Memory.slice_write _ 3 _
  have hshort : Record.Short [[5, 5], [1], [], [2, 2], [9]] := by unfold Record.Short; decide
  obtain ⟨hsorted, -⟩ := sortRange_keeps_records (fun _ _ => .lt) List.reverse_perm
    (by decide) (show 1 ≤ 2 by decide) (by decide) hshort hrange
  exact hsorted (Or.inl (by decide))

end Buffer

end RecordBuffer

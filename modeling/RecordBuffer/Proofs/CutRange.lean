import RecordBuffer.Proofs.RangeSort
import RecordBuffer.Proofs.RecordList

/-!
# Ranges that cut a record

A range to sort has to end where a record does. If it ends within one, that
record is met like all others and makes the last chunk longer than its span,
which is found out before the chunk is written back and before any merge.
-/

namespace RecordBuffer

/-- An offset in front of or behind a record of those that are packed from an offset on. -/
def Boundary (start : Nat) (payloads : List Bytes) (offset : Nat) : Prop :=
  ∃ front rest, payloads = front ++ rest ∧ offset = start + Record.extent front

/-- No boundary lies within a record. -/
theorem Boundary.gap {start offset : Nat} {front rest : List Bytes} {payload : Bytes}
    (hboundary : Boundary start (front ++ payload :: rest) offset) :
    offset ≤ start + Record.extent front ∨
      start + Record.extent front + Record.size payload.length ≤ offset := by
  obtain ⟨before, behind, hwhole, rfl⟩ := hboundary
  rcases List.append_eq_append_iff.mp hwhole with ⟨more, rfl, hmore⟩ | ⟨more, rfl, -⟩
  · cases more with
    | nil =>
        rw [List.append_nil]
        exact .inl (Nat.le_refl _)
    | cons first others =>
        obtain ⟨rfl, -⟩ := List.cons.inj hmore
        rw [Record.extent_append, Record.extent_cons]
        exact .inr (by omega)
  · rw [Record.extent_append]
    exact .inl (by omega)

/-- The records that start below a bound are the first ones, and they reach it. -/
theorem exists_met {start bound : Nat} {payloads : List Bytes}
    (hbound : bound ≤ start + Record.extent payloads) :
    ∃ met behind, payloads = met ++ behind ∧ (∀ visit ∈ visits start met, visit.offset < bound) ∧
      bound ≤ start + Record.extent met := by
  induction payloads generalizing start with
  | nil => exact ⟨[], [], rfl, fun _ hvisit => (by cases hvisit), hbound⟩
  | cons payload rest ih =>
      rcases Nat.lt_or_ge start bound with hbelow | hreached
      · rw [Record.extent_cons, ← Nat.add_assoc] at hbound
        obtain ⟨met, behind, rfl, hinside, hmet⟩ := ih hbound
        refine ⟨payload :: met, behind, rfl, List.forall_mem_cons.mpr ⟨hbelow, hinside⟩, ?_⟩
        rwa [Record.extent_cons, ← Nat.add_assoc]
      · exact ⟨[], payload :: rest, rfl, fun _ hvisit => (by cases hvisit), hreached⟩

/-- Records that start below a bound lie in front of every boundary from that bound on. -/
theorem Boundary.behind_met {start bound offset : Nat} {front met behind : List Bytes}
    (hboundary : Boundary start (front ++ (met ++ behind)) offset)
    (hinside : ∀ visit ∈ visits (start + Record.extent front) met, visit.offset < bound)
    (hrange : start + Record.extent front < bound) (hbound : bound ≤ offset) :
    start + Record.extent (front ++ met) ≤ offset := by
  rw [Record.extent_append]
  rcases List.eq_nil_or_concat' met with rfl | ⟨init, payload, rfl⟩
  · rw [Record.extent_nil]
    omega
  · have hlast := hinside _ (mem_visits_append init payload [])
    rw [List.append_assoc, List.singleton_append, ← List.append_assoc] at hboundary
    have hgap := hboundary.gap
    simp only [Record.extent_append, Record.extent_cons, Record.extent_nil] at hgap hlast ⊢
    omega

/-- Records that are cut into chunks have a last chunk, which is not empty. The chunks start where
those in front of it start and where those end. -/
theorem exists_last_chunk (size offset : Nat) {payloads : List Bytes} (hne : payloads ≠ []) :
    ∃ init chunk, chunk ≠ [] ∧ payloads = init.flatten ++ chunk ∧
      everyNth size 0 ((visits offset payloads).map Visit.offset) = chunkOffsets offset init := by
  have hflatten := flatten_chunksOf size payloads
  have hoffsets := everyNth_visits size offset payloads
  rcases List.eq_nil_or_concat' (chunksOf size payloads) with hnone | ⟨init, chunk, hchunks⟩
  · rw [hnone, List.flatten_nil] at hflatten
    exact absurd hflatten.symm hne
  · have hchunk : chunk ∈ chunksOf size payloads := by
      rw [hchunks]
      exact List.mem_concat_self
    rw [hchunks, List.flatten_append, List.flatten_singleton] at hflatten
    rw [hchunks, chunkOffsets_concat] at hoffsets
    exact ⟨init, chunk, ne_nil_of_mem_chunksOf hchunk, hflatten.symm,
      (List.append_inj' hoffsets rfl).1⟩

namespace Buffer

variable {buffer : Buffer} {arrange : List Visit → List Visit} {start stop chunkSize : Nat}
  {init : List (List Bytes)} {chunk met : List Bytes}

/-- The last chunk comes after all others. -/
theorem arrangeChunks_concat (buffer : Buffer) (starts : List Nat) (last stop : Nat) :
    buffer.arrangeChunks arrange (starts ++ [last, stop]) =
      buffer.arrangeChunks arrange (starts ++ [last]) >>= fun after =>
        after.arrangeChunk arrange last stop := by
  induction starts generalizing buffer with
  | nil =>
      simp only [List.nil_append, arrangeChunks]
      exact bind_pure _
  | cons first rest ih =>
      cases rest with
      | nil =>
          simp only [List.cons_append, List.nil_append, arrangeChunks] at ih ⊢
          rw [bind_assoc]
          exact congrArg (buffer.arrangeChunk arrange first last >>= ·) (funext ih)
      | cons second others =>
          simp only [List.cons_append, arrangeChunks] at ih ⊢
          rw [bind_assoc]
          exact congrArg (buffer.arrangeChunk arrange first second >>= ·) (funext ih)

/-- All chunks but the last are put in order, and then the last one is found not to end where it
should. -/
theorem arrangeChunks_of_cut (harrange : Rearranges arrange) (hstart : 1 ≤ start)
    (hpacked : buffer.memory.Packed start (init.flatten ++ chunk))
    (hcursor : start + Record.extent (init.flatten ++ chunk) ≤ buffer.cursor)
    (hcapacity : buffer.cursor ≤ buffer.capacity)
    (hlast : start + Record.extent init.flatten < stop)
    (hinside : ∀ visit ∈ visits start (init.flatten ++ chunk), visit.offset < stop)
    (hcut : stop < start + Record.extent (init.flatten ++ chunk)) :
    buffer.arrangeChunks arrange (chunkOffsets start init ++ [stop]) =
      .error (.chunkResized (Record.extent chunk)
        (stop - (start + Record.extent init.flatten))) := by
  rw [Record.extent_append, ← Nat.add_assoc] at hcursor hcut
  rw [visits_append] at hinside
  obtain ⟨hinit, hchunk⟩ := Memory.Packed.append_iff.mp hpacked
  obtain ⟨after, harranged, hrewritten, -⟩ :=
    arrangeChunks_of_packed harrange hstart hinit (by omega) hcapacity
  have hbehind := hrewritten.packed hchunk (Or.inr (Nat.le_refl _))
  obtain ⟨memory, rfl, -⟩ := hrewritten
  obtain ⟨starts, hstarts⟩ := exists_chunkOffsets_eq_concat start init
  rw [hstarts] at harranged ⊢
  rw [List.append_assoc, List.singleton_append, arrangeChunks_concat, harranged]
  refine (arrangeChunk_of_met harrange (Nat.le_add_right_of_le hstart) hbehind hcursor hcapacity
    (fun visit hvisit => hinside visit (List.mem_append_right _ hvisit))
    (Nat.le_of_lt hcut)).trans (if_pos ?_)
  omega

/-- A sort of a range that ends within the last record that it meets is refused for its last
chunk. -/
theorem sortRange_of_cut (compare : Comparator) (hstart : 1 ≤ start) (hchunkSize : 1 ≤ chunkSize)
    (hmemory : offsetSize * chunkSize ≤ Limits.maxExtent)
    (hpacked : buffer.memory.Packed start met)
    (hcursor : start + Record.extent met ≤ buffer.cursor)
    (hcapacity : buffer.cursor ≤ buffer.capacity) (hrange : start < min stop buffer.cursor)
    (hinside : ∀ visit ∈ visits start met, visit.offset < min stop buffer.cursor)
    (hcut : min stop buffer.cursor < start + Record.extent met) :
    ∃ starts last,
      buffer.chunkBounds start (min stop buffer.cursor) chunkSize =
        .ok (starts ++ [last, min stop buffer.cursor]) ∧
      last < min stop buffer.cursor ∧
      buffer.sortRange compare start stop chunkSize =
        .error (.chunkResized (start + Record.extent met - last)
          (min stop buffer.cursor - last)) := by
  have hne : met ≠ [] := by
    rintro rfl
    rw [Record.extent_nil] at hcut
    omega
  have hbounds := chunkBounds_of_met chunkSize hstart hpacked hcursor hcapacity hinside
    (Nat.le_of_lt hcut)
  obtain ⟨init, chunk, hchunk, rfl, hoffsets⟩ := exists_last_chunk chunkSize start hne
  rw [hoffsets] at hbounds
  -- The last chunk has a first record, which starts below the end of the range.
  have hlast : start + Record.extent init.flatten < min stop buffer.cursor := by
    obtain ⟨payload, others, rfl⟩ := List.exists_cons_of_ne_nil hchunk
    exact hinside _ (mem_visits_append init.flatten payload others)
  have hrefused := arrangeChunks_of_cut compare.rearranges_sortVisits hstart hpacked hcursor
    hcapacity hlast hinside hcut
  obtain ⟨starts, hstarts⟩ := exists_chunkOffsets_eq_concat start init
  refine ⟨starts, start + Record.extent init.flatten, ?_, hlast, ?_⟩
  · rw [hbounds, hstarts, List.append_assoc, List.singleton_append]
  · have hsortBounds := sortBounds_of_chunkBounds hstart hchunkSize hbounds
    rw [if_neg (Nat.not_lt_of_le hmemory)] at hsortBounds
    rw [sortRange_eq, sortRangeBy, if_neg (Nat.not_le_of_lt hrange), Record.extent_append, ← Nat.add_assoc,
      Nat.add_sub_cancel_left]
    exact bind_eq_error.mpr (.inr ⟨_, hsortBounds, bind_eq_error.mpr (.inl hrefused)⟩)

/-- A sort of whole records that starts at one of them fails exactly if it ends within one, as long
as the offsets of one chunk can be noted. Then the last chunk is found to have changed its size: the
records in it reach from its start to the first boundary behind the end of the range, and its span
to that end. Where the offsets of one chunk cannot be noted, every sort is refused for that. -/
theorem sortRange_refuses_cuts (compare : Comparator) {front rest : List Bytes}
    (hrepresents : buffer.Represents (front ++ rest)) (hstart : start = 1 + Record.extent front)
    (hrange : start < min stop buffer.cursor) (hchunkSize : 1 ≤ chunkSize) :
    (offsetSize * chunkSize ≤ Limits.maxExtent →
      Boundary 1 (front ++ rest) (min stop buffer.cursor) →
      ∃ after, buffer.sortRange compare start stop chunkSize = .ok after) ∧
    (offsetSize * chunkSize ≤ Limits.maxExtent →
      ¬ Boundary 1 (front ++ rest) (min stop buffer.cursor) →
      ∃ starts last next,
        buffer.chunkBounds start (min stop buffer.cursor) chunkSize =
          .ok (starts ++ [last, min stop buffer.cursor]) ∧
        last < min stop buffer.cursor ∧ min stop buffer.cursor < next ∧
        Boundary 1 (front ++ rest) next ∧
        (∀ other, Boundary 1 (front ++ rest) other → min stop buffer.cursor < other →
          next ≤ other) ∧
        buffer.sortRange compare start stop chunkSize =
          .error (.chunkResized (next - last) (min stop buffer.cursor - last))) ∧
    (Limits.maxExtent < offsetSize * chunkSize →
      buffer.sortRange compare start stop chunkSize = .error .capacityOverflow) := by
  subst hstart
  obtain ⟨hwell, hpacked, hcursor⟩ := hrepresents
  have hcapacity := hwell.cursor_le_capacity
  have hstart : 1 ≤ 1 + Record.extent front := Nat.le_add_right _ _
  obtain ⟨met, behind, rfl, hinside, hreached⟩ : ∃ met behind, rest = met ++ behind ∧
      (∀ visit ∈ visits (1 + Record.extent front) met, visit.offset < min stop buffer.cursor) ∧
      min stop buffer.cursor ≤ 1 + Record.extent front + Record.extent met := by
    apply exists_met
    rw [Record.extent_append] at hcursor
    omega
  have hmet := (Memory.Packed.append_iff.mp (Memory.Packed.append_iff.mp hpacked).2).1
  have hbelow : 1 + Record.extent front + Record.extent met ≤ buffer.cursor := by
    rw [Record.extent_append, Record.extent_append] at hcursor
    omega
  have hbehind (offset : Nat) (hboundary : Boundary 1 (front ++ (met ++ behind)) offset)
      (hoffset : min stop buffer.cursor ≤ offset) :
      1 + Record.extent front + Record.extent met ≤ offset := by
    have hle := hboundary.behind_met hinside hrange hoffset
    rwa [Record.extent_append, ← Nat.add_assoc] at hle
  refine ⟨fun hmemory hboundary => ?_, fun hmemory hcut => ?_, fun hmemory => ?_⟩
  · have hstop := Nat.le_antisymm hreached (hbehind _ hboundary (Nat.le_refl _))
    obtain ⟨after, hsort, -, -⟩ :=
      sortRange_of_packed compare hstart hchunkSize hmemory hmet hstop hcapacity
    exact ⟨after, hsort⟩
  · have hnext : Boundary 1 (front ++ (met ++ behind))
        (1 + Record.extent front + Record.extent met) :=
      ⟨front ++ met, behind, (List.append_assoc _ _ _).symm, by
        rw [Record.extent_append, Nat.add_assoc]⟩
    have hless : min stop buffer.cursor < 1 + Record.extent front + Record.extent met :=
      Nat.lt_of_le_of_ne hreached fun heq => hcut (heq ▸ hnext)
    obtain ⟨starts, last, hbounds, hlast, hsort⟩ :=
      sortRange_of_cut compare hstart hchunkSize hmemory hmet hbelow hcapacity hrange hinside hless
    exact ⟨starts, last, _, hbounds, hlast, hless, hnext,
      fun other hother hbeyond => hbehind other hother (Nat.le_of_lt hbeyond), hsort⟩
  · have hbounds := chunkBounds_of_met chunkSize hstart hmet hbelow hcapacity hinside hreached
    have hrefused := sortBounds_of_chunkBounds hstart hchunkSize hbounds
    rw [if_pos hmemory] at hrefused
    rw [sortRange_eq]
    exact sortRangeBy_refused compare hrange hrefused

/-- A range of whole records is refused for a chunk size far beyond their number. -/
theorem sortRange_overlong_chunk :
    let buffer : Buffer :=
      { backing := .heap
        memory := Memory.blank.write 1 (Record.encodeAll [[98], [97]])
        backed := 64, cursor := 11, capacity := 64, maxSize := 128 }
    buffer.bytes = Record.encodeAll [[98], [97]] ∧ Boundary 1 [[98], [97]] 11 ∧
      buffer.sortRange Comparator.length 1 11 0x1000000000000000 = .error .capacityOverflow := by
  intro buffer
  have hshort : Record.Short [[98], [97]] := by unfold Record.Short; decide
  have hrefused : buffer.sortBounds 1 (1 + Record.extent [[98], [97]]) 0x1000000000000000 =
      .error .capacityOverflow :=
    sortBounds_refused (Nat.le_refl 1) (by decide) (by decide) (.write _ _ hshort) (by decide)
      (by decide)
  refine ⟨Memory.slice_write _ 1 _, ⟨[[98], [97]], [], rfl, rfl⟩, ?_⟩
  rw [sortRange_eq]
  exact sortRangeBy_refused _ (by decide) hrefused

/-- The range ends within the header of the third record, which is the first one of its chunk. -/
theorem sortRange_refuses_cut_header :
    let buffer : Buffer :=
      { backing := .heap
        memory := Memory.blank.write 1 (Record.encodeAll [[5, 5], [1], [], [2, 2], [9]])
        backed := 64, cursor := 27, capacity := 64, maxSize := 128 }
    buffer.Represents [[5, 5], [1], [], [2, 2], [9]] ∧
      buffer.sortRange Comparator.length 1 14 2 = .error (.chunkResized 4 2) := by
  intro buffer
  have hwhole : ([[5, 5], [1], [], [2, 2], [9]] : List Bytes) =
      [[5, 5], [1]] ++ [] :: [[2, 2], [9]] := rfl
  have hshort : Record.Short [[5, 5], [1], [], [2, 2], [9]] := by unfold Record.Short; decide
  have hrepresents : buffer.Represents [[5, 5], [1], [], [2, 2], [9]] := by
    refine ⟨⟨by decide, by decide, by decide, rfl, ?_⟩, .write _ _ hshort, rfl⟩
    intro address haddress
    have hsame := Memory.sameOutside_write .blank 1
      (Record.encodeAll [[5, 5], [1], [], [2, 2], [9]]) address (Or.inr ?_)
    · rw [hsame, Memory.get_blank]
    · exact Nat.le_trans (by decide) haddress
  have hcut : ¬ Boundary 1 [[5, 5], [1], [], [2, 2], [9]] 14 := by
    intro hboundary
    rw [hwhole] at hboundary
    exact absurd hboundary.gap (by decide)
  obtain ⟨-, hrefused, -⟩ := @sortRange_refuses_cuts buffer 1 14 2 Comparator.length []
    [[5, 5], [1], [], [2, 2], [9]] hrepresents rfl (by decide) (by decide)
  obtain ⟨starts, last, next, hbounds, -, hless, hnext, hfirst, hsort⟩ :=
    hrefused (by decide) hcut
  have hmet : buffer.memory.Packed 1 [[5, 5], [1], []] :=
    (Memory.Packed.append_iff.mp hrepresents.packed).1
  have hcuts : buffer.chunkBounds 1 14 2 = .ok ([1] ++ [12, 14]) :=
    chunkBounds_of_met 2 (Nat.le_refl 1) hmet (by decide) (by decide) (by decide) (by decide)
  have hlast : last = 12 := by
    have hsame := Except.ok.inj (hbounds.symm.trans hcuts)
    have hends := (List.append_inj' hsame rfl).2
    exact (List.cons.inj hends).1
  have hend : next = 16 := by
    have hle := hfirst 16 ⟨[[5, 5], [1], []], [[2, 2], [9]], rfl, rfl⟩ (by decide)
    rw [List.nil_append, hwhole] at hnext
    have hgap := hnext.gap
    change 14 < next at hless
    simp only [Record.extent_cons, Record.extent_nil, Record.size, Record.headerSize,
      List.length_cons, List.length_nil] at hgap
    omega
  subst hlast hend
  exact ⟨hrepresents, hsort⟩

end Buffer

end RecordBuffer

import RecordBuffer.Proofs.Addressed
import RecordBuffer.Proofs.Reported

/-!
# Walks over any bytes

A walk takes every four bytes that it comes to for a header, whoever wrote them,
and goes where they say. It is followed here call by call, with sums computed in
words and with every bound checked. The offsets rise by a header at least, so the
walk ends, and nothing stops it early but a record that runs past the capacity.
-/

namespace RecordBuffer.Buffer

variable {buffer : Buffer} {offset bound next : Nat} {payload : Bytes} {fault : Fault}
  {offsets : List Nat} {payloads : List Bytes} {ending : Except Fault Nat}

/-- The bytes between two offsets, which have to be in order and below the capacity. -/
def sliceBetween (buffer : Buffer) (start stop : Nat) : Except Fault Bytes :=
  if start ≤ stop ∧ stop ≤ buffer.capacity then .ok (buffer.memory.slice start (stop - start))
  else .error .outOfBounds

/-- Read the record at an offset, with sums computed in words and every bound checked. -/
def recordAtInWords (buffer : Buffer) (offset : Nat) : Except Fault (Bytes × Nat) :=
  if offset = 0 ∨ buffer.cursor < saturatingAdd offset Record.headerSize then .ok ([], 0)
  else do
    let start ← checkedAdd offset Record.headerSize
    let header ← buffer.sliceBetween offset start
    let next ← checkedAdd start ((Record.length? header).getD 0)
    if buffer.capacity < next then throw (.recordPastCapacity offset buffer.capacity)
    let payload ← buffer.sliceBetween start next
    return (payload, if buffer.cursor ≤ next then 0 else next)

theorem sliceBetween_add (count : Nat) (hfits : offset + count ≤ buffer.capacity) :
    buffer.sliceBetween offset (offset + count) = .ok (buffer.memory.slice offset count) := by
  rw [sliceBetween, if_pos ⟨Nat.le_add_right _ _, hfits⟩, Nat.add_sub_cancel_left]

/-- In a buffer that can be addressed no sum is cut and no bound is missed. -/
theorem recordAtInWords_eq (haddressed : buffer.Addressed) (offset : Nat) :
    buffer.recordAtInWords offset = buffer.recordAt offset := by
  obtain ⟨hcursor, hextent⟩ := haddressed
  have hsaturated : buffer.cursor < saturatingAdd offset Record.headerSize ↔
      buffer.cursor < offset + Record.headerSize := by
    simp only [saturatingAdd, Limits.maxExtent, Limits.maxSize] at hextent ⊢
    omega
  unfold recordAtInWords recordAt
  simp only [hsaturated]
  split
  next => rfl
  next hheader =>
    -- The header ends below the cursor and declares less than 32 bits, so no sum reaches 64.
    have hdeclared : buffer.memory.payloadLength offset < Limits.payloadBound :=
      Record.ofDigits_lt _ _ _ _
    simp only [Limits.payloadBound, Limits.maxExtent] at hdeclared hextent
    have hstart : checkedAdd offset Record.headerSize = .ok (offset + Record.headerSize) :=
      checkedAdd_eq (by simp only [Limits.maxSize]; omega)
    have hread : buffer.sliceBetween offset (offset + Record.headerSize) =
        .ok (buffer.memory.slice offset Record.headerSize) := sliceBetween_add _ (by omega)
    have hlength : (Record.length? (buffer.memory.slice offset Record.headerSize)).getD 0 =
        buffer.memory.payloadLength offset := rfl
    have hnext : checkedAdd (offset + Record.headerSize) (buffer.memory.payloadLength offset) =
        .ok (offset + Record.headerSize + buffer.memory.payloadLength offset) :=
      checkedAdd_eq (by simp only [Limits.maxSize]; omega)
    simp only [hstart, hread, hlength, hnext, bind, Except.bind]
    split
    next => rfl
    next hfits =>
      simp only [sliceBetween_add _ (Nat.le_of_not_lt hfits)]
      rfl

/-- A record is refused if its header below the cursor declares an end behind the capacity, and for
nothing else. -/
theorem recordAt_eq_error : buffer.recordAt offset = .error fault ↔
    offset ≠ 0 ∧ offset + Record.headerSize ≤ buffer.cursor ∧
      buffer.capacity < offset + Record.headerSize + buffer.memory.payloadLength offset ∧
      fault = .recordPastCapacity offset buffer.capacity := by
  unfold recordAt
  split
  next hnone =>
    constructor
    · intro hread
      cases hread
    · rintro ⟨hoffset, hheader, -⟩
      omega
  next hheader =>
    simp only
    split
    next hpast =>
      rw [Except.error.injEq, eq_comm]
      exact ⟨fun hfault => ⟨by omega, by omega, hpast, hfault⟩, fun hrefused => hrefused.2.2.2⟩
    next hfits =>
      constructor
      · intro hread
        cases hread
      · rintro ⟨-, -, hpast, -⟩
        exact absurd hpast hfits

/-- The calls of a walk, up to the one that finds nothing more or is refused: the offsets that are
visited, the payloads that are yielded, and the offset or the fault with which it ends. -/
inductive Walks (buffer : Buffer) (bound : Nat) :
    Nat → List Nat → List Bytes → Except Fault Nat → Prop where
  | done {offset : Nat} (reached : offset = 0 ∨ bound ≤ offset) :
      Walks buffer bound offset [] [] (.ok offset)
  | refused {offset : Nat} {fault : Fault} (going : ¬ (offset = 0 ∨ bound ≤ offset))
      (read : buffer.recordAtInWords offset = .error fault) :
      Walks buffer bound offset [offset] [] (.error fault)
  | yielded {offset next : Nat} {payload : Bytes} {offsets : List Nat} {payloads : List Bytes}
      {ending : Except Fault Nat} (going : ¬ (offset = 0 ∨ bound ≤ offset))
      (read : buffer.recordAtInWords offset = .ok (payload, next))
      (rest : Walks buffer bound next offsets payloads ending) :
      Walks buffer bound offset (offset :: offsets) (payload :: payloads) ending

/-- Every walk ends, and it is the walk of the records in a range. -/
theorem exists_walk (haddressed : buffer.Addressed) (offset bound : Nat) :
    ∃ offsets payloads ending, buffer.Walks bound offset offsets payloads ending ∧
      buffer.trail offset bound =
        ending.map fun last => ⟨List.zipWith Visit.mk offsets payloads, last⟩ := by
  have hwords := recordAtInWords_eq haddressed
  fun_induction Buffer.trail buffer offset bound with
  | case1 offset hdone => exact ⟨[], [], _, .done hdone, rfl⟩
  | case2 offset hgoing fault hread =>
      exact ⟨[offset], [], _, .refused hgoing ((hwords offset).trans hread), rfl⟩
  | case3 offset hgoing payload hread =>
      exact ⟨[offset], [payload], _,
        .yielded hgoing ((hwords offset).trans hread) (.done (.inl rfl)), rfl⟩
  | case4 offset hgoing payload next hread _ fault hrest ih =>
      obtain ⟨offsets, payloads, ending, hwalks, htrail⟩ := ih
      rw [hrest] at htrail
      cases ending with
      | ok last => cases htrail
      | error other =>
          cases htrail
          exact ⟨offset :: offsets, payload :: payloads, _,
            .yielded hgoing ((hwords offset).trans hread) hwalks, rfl⟩
  | case5 offset hgoing payload next hread _ rest hrest ih =>
      obtain ⟨offsets, payloads, ending, hwalks, htrail⟩ := ih
      rw [hrest] at htrail
      cases ending with
      | error fault => cases htrail
      | ok last =>
          cases htrail
          exact ⟨offset :: offsets, payload :: payloads, _,
            .yielded hgoing ((hwords offset).trans hread) hwalks, rfl⟩

namespace Walks

/-- There is one walk from an offset. -/
theorem unique {otherOffsets : List Nat} {otherPayloads : List Bytes}
    {otherEnding : Except Fault Nat} (hwalks : buffer.Walks bound offset offsets payloads ending)
    (hother : buffer.Walks bound offset otherOffsets otherPayloads otherEnding) :
    otherOffsets = offsets ∧ otherPayloads = payloads ∧ otherEnding = ending := by
  induction hwalks generalizing otherOffsets otherPayloads otherEnding with
  | done hdone =>
      cases hother with
      | done => exact ⟨rfl, rfl, rfl⟩
      | refused hgoing _ => exact absurd hdone hgoing
      | yielded hgoing _ _ => exact absurd hdone hgoing
  | refused hgoing hread =>
      cases hother with
      | done hdone => exact absurd hdone hgoing
      | refused _ hagain =>
          cases hread.symm.trans hagain
          exact ⟨rfl, rfl, rfl⟩
      | yielded _ hagain _ => cases hread.symm.trans hagain
  | yielded hgoing hread _ ih =>
      cases hother with
      | done hdone => exact absurd hdone hgoing
      | refused _ hagain => cases hread.symm.trans hagain
      | yielded _ hagain hrest =>
          cases hread.symm.trans hagain
          obtain ⟨rfl, rfl, rfl⟩ := ih hrest
          exact ⟨rfl, rfl, rfl⟩

/-- Behind a record nothing is visited, or the walk goes on a header further at least. -/
theorem rises (haddressed : buffer.Addressed)
    (hread : buffer.recordAtInWords offset = .ok (payload, next))
    (hrest : buffer.Walks bound next offsets payloads ending) :
    offsets = [] ∨ offset + Record.headerSize ≤ next := by
  rw [recordAtInWords_eq haddressed] at hread
  rcases recordAt_next hread with rfl | hnext
  · left
    cases hrest with
    | done => rfl
    | refused hgoing _ => exact absurd (.inl rfl) hgoing
    | yielded hgoing _ _ => exact absurd (.inl rfl) hgoing
  · exact .inr hnext

theorem le_of_mem (haddressed : buffer.Addressed)
    (hwalks : buffer.Walks bound offset offsets payloads ending) :
    ∀ visited ∈ offsets, offset ≤ visited := by
  induction hwalks with
  | done => exact List.forall_mem_nil _
  | refused => exact List.forall_mem_singleton.mpr (Nat.le_refl _)
  | yielded hgoing hread hrest ih =>
      refine List.forall_mem_cons.mpr ⟨Nat.le_refl _, fun visited hvisited => ?_⟩
      rcases rises haddressed hread hrest with rfl | hnext
      · cases hvisited
      · exact Nat.le_trans (Nat.le_of_add_right_le hnext) (ih visited hvisited)

/-- The offsets rise by a header at least. -/
theorem pairwise (haddressed : buffer.Addressed)
    (hwalks : buffer.Walks bound offset offsets payloads ending) :
    offsets.Pairwise fun first second => first + Record.headerSize ≤ second := by
  induction hwalks with
  | done => exact List.Pairwise.nil
  | refused => exact List.pairwise_singleton _ _
  | yielded hgoing hread hrest ih =>
      refine List.pairwise_cons.mpr ⟨fun visited hvisited => ?_, ih⟩
      rcases rises haddressed hread hrest with rfl | hnext
      · cases hvisited
      · exact Nat.le_trans hnext (hrest.le_of_mem haddressed visited hvisited)

/-- Every call takes the walk a header nearer to its bound, or is the last one. -/
theorem length_offsets (haddressed : buffer.Addressed)
    (hwalks : buffer.Walks bound offset offsets payloads ending) :
    offsets.length ≤ (bound - offset) ⌈/⌉ Record.headerSize := by
  rw [Nat.ceilDiv_eq_add_pred_div, Nat.le_div_iff_mul_le (by decide)]
  simp only [Record.headerSize]
  induction hwalks with
  | done => simp
  | refused hgoing _ =>
      rw [List.length_singleton]
      omega
  | yielded hgoing hread hrest ih =>
      rw [List.length_cons]
      rcases rises haddressed hread hrest with rfl | hnext
      · rw [List.length_nil]
        omega
      · rw [Record.headerSize] at hnext
        omega

theorem length_payloads (hwalks : buffer.Walks bound offset offsets payloads ending) :
    payloads.length ≤ offsets.length := by
  induction hwalks with
  | done => exact Nat.le_refl _
  | refused => exact Nat.zero_le _
  | yielded _ _ _ ih => exact Nat.succ_le_succ ih

/-- Whatever is yielded is reported where it was visited. -/
theorem reports (haddressed : buffer.Addressed) (hbound : bound ≤ buffer.cursor)
    (hwalks : buffer.Walks bound offset offsets payloads ending) :
    ∀ visit ∈ List.zipWith Visit.mk offsets payloads,
      buffer.Reports visit.offset visit.payload := by
  induction hwalks with
  | done => exact List.forall_mem_nil _
  | refused => exact List.forall_mem_nil _
  | yielded hgoing hread _ ih =>
      rw [recordAtInWords_eq haddressed] at hread
      exact List.forall_mem_cons.mpr
        ⟨(recordAt_reports (by omega) (by omega) hread).1, ih⟩

/-- A walk is refused for a record that it comes to, and for nothing else. -/
theorem ending_eq_error (haddressed : buffer.Addressed)
    (hwalks : buffer.Walks bound offset offsets payloads ending) :
    ending = .error fault ↔ ∃ visited ∈ offsets,
      visited + Record.headerSize ≤ buffer.cursor ∧
      buffer.capacity < visited + Record.headerSize + buffer.memory.payloadLength visited ∧
      fault = .recordPastCapacity visited buffer.capacity := by
  induction hwalks with
  | done => simp
  | @refused offset _ hgoing hread =>
      have hoffset : offset ≠ 0 := fun hzero => hgoing (.inl hzero)
      rw [recordAtInWords_eq haddressed] at hread
      have hrefused : buffer.recordAt offset = .error fault ↔ _ := recordAt_eq_error
      rw [hread] at hrefused
      simpa [hoffset] using hrefused
  | @yielded offset _ _ _ _ _ hgoing hread _ ih =>
      have hoffset : offset ≠ 0 := fun hzero => hgoing (.inl hzero)
      rw [recordAtInWords_eq haddressed] at hread
      simp only [ih, List.mem_cons, exists_eq_or_imp]
      -- The record that was yielded was not refused.
      refine (or_iff_right ?_).symm
      rintro ⟨hheader, hpast, hfault⟩
      cases hread.symm.trans (recordAt_eq_error.mpr ⟨hoffset, hheader, hpast, hfault⟩)

end Walks

/-- Whatever is reported lies below the capacity. -/
theorem Reports.within (hreports : buffer.Reports offset payload) :
    ∃ first, buffer.memory.Holds first payload ∧ first + payload.length ≤ buffer.capacity := by
  by_cases hheader : offset + Record.headerSize ≤ buffer.cursor
  · obtain ⟨-, hholds, hcapacity⟩ := hreports.whole hheader
    rw [Record.size, ← Nat.add_assoc] at hcapacity
    exact ⟨_, (Memory.holds_append.mp hholds).2, hcapacity⟩
  · rw [hreports.torn (Nat.lt_of_not_le hheader)]
    exact ⟨0, rfl, Nat.zero_le _⟩

/-- Whatever the bytes of a buffer are and wherever a walk starts and stops, there is one walk and
it ends. No sum on the way is too large for a word and no bound is missed. The offsets rise by a
header at least, which bounds their number, and what is yielded lies below the capacity. The walk is
refused exactly if it comes to a header below the cursor that declares an end behind the
capacity. -/
theorem walks_end (haddressed : buffer.Addressed) (start stop : Nat) :
    ∃ offsets payloads ending,
      buffer.Walks (min stop buffer.cursor) start offsets payloads ending ∧
      (∀ otherOffsets otherPayloads otherEnding,
        buffer.Walks (min stop buffer.cursor) start otherOffsets otherPayloads otherEnding →
          otherOffsets = offsets ∧ otherPayloads = payloads ∧ otherEnding = ending) ∧
      (buffer.recordRange start stop =
        ending.map fun last => ⟨List.zipWith Visit.mk offsets payloads, last⟩) ∧
      (offsets.Pairwise fun first second => first + Record.headerSize ≤ second) ∧
      payloads.length ≤ offsets.length ∧
      offsets.length ≤ (min stop buffer.cursor - start) ⌈/⌉ Record.headerSize ∧
      (∀ visit ∈ List.zipWith Visit.mk offsets payloads,
        buffer.Reports visit.offset visit.payload ∧
        ∃ first, buffer.memory.Holds first visit.payload ∧
          first + visit.payload.length ≤ buffer.capacity) ∧
      ∀ fault, ending = .error fault ↔ ∃ visited ∈ offsets,
        visited + Record.headerSize ≤ buffer.cursor ∧
        buffer.capacity < visited + Record.headerSize + buffer.memory.payloadLength visited ∧
        fault = .recordPastCapacity visited buffer.capacity := by
  obtain ⟨offsets, payloads, ending, hwalks, hrange⟩ :=
    exists_walk haddressed start (min stop buffer.cursor)
  have hreports := hwalks.reports haddressed (Nat.min_le_right _ _)
  exact ⟨offsets, payloads, ending, hwalks, fun _ _ _ hother => hwalks.unique hother, hrange,
    hwalks.pairwise haddressed, hwalks.length_payloads, hwalks.length_offsets haddressed,
    fun visit hvisit => ⟨hreports visit hvisit, (hreports visit hvisit).within⟩,
    fun _ => hwalks.ending_eq_error haddressed⟩

/-- A file that nobody wrote as a chain is opened. Behind a record, four bytes declare more than
there is room for. -/
theorem walks_end_in_any_file :
    let data := FileData.ofBytes [170, 0, 0, 0, 1, 7, 9, 9, 9, 9]
    let disk := ((Disk.empty "").addFile [.given "log"] data).1
    ∃ after buffer, mapPath disk "log" 64 64 0 = .ok (after, .ok buffer) ∧
      buffer.memory.slice 0 buffer.cursor = [170, 0, 0, 0, 1, 7, 9, 9, 9, 9] ∧
      buffer.Walks buffer.cursor 1 [1, 6] [[7]] (.error (.recordPastCapacity 6 64)) ∧
      buffer.recordRange 1 Limits.maxSize = .error (.recordPastCapacity 6 64) ∧
      buffer.Reports 1 [7] ∧
      buffer.capacity < 6 + Record.headerSize + buffer.memory.payloadLength 6 := by
  intro data disk
  let buffer : Buffer := ⟨.mapped 0 (.path "log"),
    (Memory.blank.write 0 [170, 0, 0, 0, 1, 7, 9, 9, 9, 9]).truncate 10, 64, 10, 64, 64⟩
  have hmade : mapPath disk "log" 64 64 0 =
      .ok (disk.store 0 ⟨buffer.memory, 64⟩, .ok buffer) := rfl
  have haddressed : buffer.Addressed :=
    Session.Reached.addressed (.intro (.mapPath disk "log" 64 64 0 (by decide) hmade) .refl rfl)
  have hfirst : buffer.recordAt 1 = .ok ([7], 6) := by cbv
  have hsecond : buffer.recordAt 6 = .error (.recordPastCapacity 6 64) := by cbv
  rw [← recordAtInWords_eq haddressed] at hfirst hsecond
  have hwalk : buffer.Walks buffer.cursor 1 [1, 6] [[7]] (.error (.recordPastCapacity 6 64)) :=
    .yielded (by decide) hfirst (.refused (by decide) hsecond)
  obtain ⟨offsets, payloads, ending, -, honly, hrange, -, -, -, hreports, hrefused⟩ :=
    walks_end haddressed 1 Limits.maxSize
  obtain ⟨rfl, rfl, rfl⟩ := honly _ _ _ hwalk
  obtain ⟨visited, -, -, hpast, hfault⟩ := (hrefused _).mp rfl
  cases hfault
  exact ⟨_, buffer, hmade, by cbv, hwalk, hrange, (hreports ⟨1, [7]⟩ List.mem_cons_self).1, hpast⟩

end RecordBuffer.Buffer

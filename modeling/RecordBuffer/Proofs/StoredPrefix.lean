import RecordBuffer.Proofs.RoundTrip

/-!
# As many records as fit

A stream is cut at its delimiters, and its records are stored in order as long as
the maximum size leaves room for them. The room is looked up in front of every
record, and growth needs no more than that, so a record is either stored whole or
refused with an error. Only memory that cannot be had ends the work otherwise.
-/

namespace RecordBuffer

/-- The records of a stream end where its delimiters are. What stands behind the last delimiter is
a record of its own if the stream ends there, and lost if the stream breaks off. -/
def Stream.CutInto (stream : Stream) (delimiter : UInt8) (records : List Bytes) : Prop :=
  ∃ closed last, stream.data = closed.flatMap (· ++ [delimiter]) ++ last ∧
    (∀ record ∈ closed, delimiter ∉ record) ∧ delimiter ∉ last ∧
    records = if last = [] ∨ stream.failure.isSome then closed else closed ++ [last]

variable {stream : Stream} {delimiter : UInt8} {records stored : List Bytes}
  {refused : Option Bytes} {room : Nat}

namespace Stream

theorem cutInto_records (stream : Stream) (delimiter : UInt8) :
    stream.CutInto delimiter (stream.records delimiter) := by
  obtain ⟨hclosed, hlast⟩ := not_mem_of_mem_splitAtEach delimiter stream.data
  refine ⟨_, _, (join_splitAtEach delimiter stream.data).symm, hclosed, hlast, ?_⟩
  cases hfailure : stream.failure <;> simp [Stream.records, splitRecords, hfailure]

/-- The records are the only ones that a stream is cut into. -/
theorem CutInto.eq_records (hcut : stream.CutInto delimiter records) :
    records = stream.records delimiter := by
  obtain ⟨closed, last, hdata, hclosed, hlast, rfl⟩ := hcut
  have hsplit := splitAtEach_eq hclosed hlast
  rw [← hdata] at hsplit
  cases hfailure : stream.failure <;> simp [Stream.records, splitRecords, hfailure, hsplit]

end Stream

/-- As many records as there is room for, and the first one for which there is none. -/
inductive Taken (room : Nat) (records : List Bytes) : List Bytes → Option Bytes → Prop where
  | whole (fits : Record.extent records ≤ room) : Taken room records records none
  | cut {stored rest : List Bytes} {record : Bytes} (split : records = stored ++ record :: rest)
      (fits : Record.extent stored ≤ room) (full : room < Record.extent (stored ++ [record])) :
      Taken room records stored (some record)

namespace Taken

theorem extent_le_room (htaken : Taken room records stored refused) :
    Record.extent stored ≤ room := by
  cases htaken with
  | whole fits => exact fits
  | cut _ fits _ => exact fits

theorem extent_le (htaken : Taken room records stored refused) :
    Record.extent stored ≤ Record.extent records := by
  cases htaken with
  | whole => exact Nat.le_refl _
  | cut split =>
      rw [split, Record.extent_append]
      exact Nat.le_add_right _ _

/-- A record is refused only if there is not room for all. -/
theorem lt_extent {record : Bytes} (htaken : Taken room records stored (some record)) :
    room < Record.extent records := by
  cases htaken with
  | cut split _ full =>
      rw [split, List.append_cons, Record.extent_append]
      exact Nat.lt_add_right _ full

theorem eq_records (htaken : Taken room records stored none) : stored = records := by
  cases htaken
  rfl

end Taken

theorem taken_of_fitting (hfitting : fitting room records = (stored, refused)) :
    Taken room records stored refused := by
  fun_induction fitting room records generalizing stored refused with
  | case1 room =>
      cases hfitting
      exact .whole (Nat.zero_le room)
  | case2 room record rest hfull =>
      cases hfitting
      exact .cut rfl (Nat.zero_le room) (by simpa using hfull)
  | case3 room record rest hroom others rejected hothers ih =>
      cases hfitting
      cases ih hothers with
      | whole fits =>
          apply Taken.whole
          simp only [Record.extent_cons]
          omega
      | cut split fits full =>
          refine .cut (congrArg (record :: ·) split) ?_ ?_ <;>
            simp only [List.cons_append, Record.extent_cons] at full ⊢ <;> omega

/-- What is taken of records is what is found by going through them. -/
theorem taken_iff : Taken room records stored refused ↔
    fitting room records = (stored, refused) := by
  refine ⟨fun htaken => ?_, taken_of_fitting⟩
  induction records generalizing room stored with
  | nil =>
      cases htaken with
      | whole => rfl
      | cut split => simp at split
  | cons record rest ih =>
      rw [fitting]
      cases htaken with
      | whole fits =>
          rw [Record.extent_cons] at fits
          rw [if_neg (by omega), ih (.whole (by omega))]
      | @cut stored behind refused split fits full =>
          cases stored with
          | nil =>
              cases split
              rw [if_pos (by simpa using full)]
          | cons first others =>
              cases split
              simp only [List.cons_append, Record.extent_cons] at fits full
              rw [if_neg (by omega), ih (.cut rfl (by omega) (by omega))]

namespace Buffer

variable {buffer : Buffer}

/-- Records that fit are stored up to the first that does not, unless memory is refused. -/
theorem storeRecords_taken (hwell : buffer.WellFormed) (hshort : Record.Short records)
    (hfitting : fitting (buffer.maxSize - buffer.cursor) records = (stored, refused)) :
    (∃ after, buffer.storeRecords records = .ok (after, refused.map fun record =>
        .recordDoesNotFit record.length buffer.maxSize) ∧
      buffer.FollowedBy after (Record.encodeAll stored)) ∨
    buffer.storeRecords records = .error .capacityOverflow ∧
      ¬ buffer.Affords (buffer.cursor + Record.extent stored) := by
  induction records generalizing buffer stored with
  | nil =>
      cases hfitting
      exact .inl ⟨buffer, rfl, FollowedBy.refl hwell⟩
  | cons record rest ih =>
      obtain ⟨hrecord, hrest⟩ := Record.short_cons.mp hshort
      rw [fitting] at hfitting
      rw [storeRecords]
      by_cases hfull : buffer.maxSize - buffer.cursor < Record.size record.length
      · rw [if_pos hfull] at hfitting ⊢
        cases hfitting
        exact .inl ⟨buffer, rfl, FollowedBy.refl hwell⟩
      rw [if_neg hfull] at hfitting ⊢
      have hcursor := Nat.le_trans hwell.cursor_le_capacity hwell.capacity_le_maxSize
      have hroom : buffer.cursor + Record.size record.length ≤ buffer.maxSize := by omega
      cases hbehind : fitting (buffer.maxSize - buffer.cursor - Record.size record.length) rest with
      | mk others refused' =>
      simp only [hbehind] at hfitting
      cases hfitting
      rw [Record.extent_cons, ← Nat.add_assoc]
      cases happend : buffer.appendRecord record with
      | error fault =>
          obtain rfl := appendRecord_fault hwell hrecord hroom happend
          refine .inr ⟨rfl, fun haffords => ?_⟩
          obtain ⟨offset, appended, hok⟩ := appendRecord_ok hwell hrecord hroom
            (haffords.evolved (Evolved.refl hwell) (Nat.le_add_right _ _))
          rw [happend] at hok
          cases hok
      | ok result =>
          obtain ⟨offset, appended⟩ := result
          have hfollowed := appendRecord_followedBy hwell happend
          have hmax := hfollowed.maxSize_eq
          have hmoved := hfollowed.cursor_eq
          rw [Record.length_encode] at hmoved
          rw [Nat.sub_sub, ← hmoved, ← hmax] at hbehind
          rcases ih hfollowed.wellFormed hrest hbehind with
            ⟨after, hstore, hafter⟩ | ⟨hstore, hrefused⟩
          · exact .inl ⟨after, hmax ▸ hstore, hfollowed.trans hafter⟩
          · refine .inr ⟨hstore, fun haffords => hrefused ?_⟩
            rw [hmoved]
            exact haffords.evolved hfollowed.toEvolved (Nat.le_refl _)

/-- Storing a stream ends in a fault only if memory is refused. -/
theorem storeStream_fault {fault : Fault} (hwell : buffer.WellFormed)
    (hshort : Record.Short (stream.records delimiter))
    (hstore : buffer.storeStream stream delimiter = .error fault) :
    fault = .capacityOverflow ∧
      ¬ buffer.Affords (buffer.cursor + Record.extent (stream.records delimiter)) := by
  rcases storeRecords_taken hwell hshort rfl with ⟨after, hrecords, -⟩ | ⟨hrecords, hrefused⟩
  · rcases bind_eq_error.mp hstore with hfault | ⟨result, -, hreply⟩
    · rw [hrecords] at hfault
      cases hfault
    · simp only at hreply
      split at hreply <;> cases hreply
  · rcases bind_eq_error.mp hstore with hfault | ⟨result, hresult, -⟩
    · rw [hrecords] at hfault
      cases hfault
      refine ⟨rfl, fun haffords => hrefused ?_⟩
      exact haffords.evolved (Evolved.refl hwell)
        (Nat.add_le_add_left (taken_of_fitting rfl).extent_le _)
    · rw [hrecords] at hresult
      cases hresult

/-- All records of a stream are stored if they fit, and counted unless the stream breaks off.
Otherwise there is an error, and the records in front of the first that does not fit are stored.
Either way they follow the bytes that were there before. -/
theorem stored_prefix (hwell : buffer.WellFormed) (hcut : stream.CutInto delimiter records)
    (hshort : Record.Short records)
    (hmemory : buffer.Affords (min buffer.maxSize (buffer.cursor + Record.extent records))) :
    (buffer.cursor + Record.extent records ≤ buffer.maxSize →
      ∃ after, buffer.storeStream stream delimiter = .ok (after,
          match stream.failure with
          | none => .ok records.length
          | some text => .error (.io (.stream text))) ∧
        buffer.FollowedBy after (Record.encodeAll records)) ∧
    (buffer.maxSize < buffer.cursor + Record.extent records →
      ∃ stored record rest after, records = stored ++ record :: rest ∧
        buffer.cursor + Record.extent stored ≤ buffer.maxSize ∧
        buffer.maxSize < buffer.cursor + Record.extent (stored ++ [record]) ∧
        buffer.storeStream stream delimiter =
          .ok (after, .error (.io (.recordDoesNotFit record.length buffer.maxSize))) ∧
        buffer.FollowedBy after (Record.encodeAll stored)) := by
  obtain rfl := hcut.eq_records
  have hcursor := Nat.le_trans hwell.cursor_le_capacity hwell.capacity_le_maxSize
  obtain ⟨stored, refused, hfitting⟩ : ∃ stored refused,
      fitting (buffer.maxSize - buffer.cursor) (stream.records delimiter) = (stored, refused) :=
    ⟨_, _, rfl⟩
  have htaken := taken_of_fitting hfitting
  have hroom := htaken.extent_le_room
  have hpart := htaken.extent_le
  rcases storeRecords_taken hwell hshort hfitting with
    ⟨after, hrecords, hfollowed⟩ | ⟨-, hrefused⟩
  · cases refused with
    | none =>
        obtain rfl := htaken.eq_records
        refine ⟨fun _ => ⟨after, bind_eq_ok.mpr ⟨_, hrecords, ?_⟩, hfollowed⟩, fun _ => by omega⟩
        cases hfailure : stream.failure <;> rfl
    | some record =>
        have hfull := htaken.lt_extent
        refine ⟨fun _ => by omega, fun _ => ?_⟩
        cases htaken with
        | @cut _ rest _ split fits full =>
            exact ⟨stored, record, rest, after, split, by omega, by omega,
              bind_eq_ok.mpr ⟨_, hrecords, rfl⟩, hfollowed⟩
  · -- What is stored fits and is part of the records, so there is memory for it.
    exact absurd (hmemory.evolved (Evolved.refl hwell) (by omega)) hrefused

/-- Three records fill a buffer to its last byte. A fourth one without bytes is refused, also if
the stream breaks off behind it. -/
theorem stored_prefix_to_the_brim :
    let buffer : Buffer := ⟨.heap, Memory.blank.write 1 [7, 7], 16, 3, 16, 24⟩
    let data : Bytes := [1, 2, 3, 10, 10, 4, 4, 4, 4, 4, 4]
    let written : Bytes := [0, 7, 7] ++ Record.encodeAll [[1, 2, 3], [], [4, 4, 4, 4, 4, 4]]
    ∃ after other, buffer.storeStream { data } 10 = .ok (after, .ok 3) ∧
      after.memory.slice 0 after.cursor = written ∧
      buffer.storeStream { data := data ++ [10, 10, 9], failure := some "boom" } 10 =
        .ok (other, .error (.io (.recordDoesNotFit 0 24))) ∧
      other.memory.slice 0 other.cursor = written := by
  intro buffer data written
  have hwell : buffer.WellFormed := by
    refine ⟨by decide, by decide, by decide, rfl, fun address haddress => ?_⟩
    rw [Memory.get_write, if_pos (Nat.le_trans (by decide) haddress), List.getD_eq_default,
      Memory.get_blank]
    exact Nat.le_sub_of_add_le (Nat.le_trans (by decide) haddress)
  have hshort : Record.Short [[1, 2, 3], [], [4, 4, 4, 4, 4, 4], []] := by
    unfold Record.Short
    decide
  have hmemory : ∀ size, buffer.Affords (min buffer.maxSize size) := fun size _ =>
    Nat.le_trans (Nat.min_le_left _ _) (by decide)
  obtain ⟨hwhole, -⟩ := stored_prefix hwell (Stream.cutInto_records { data } 10)
    (Record.short_append.mp (show Record.Short (_ ++ [[]]) from hshort)).1 (hmemory _)
  obtain ⟨after, hstore, hafter⟩ := hwhole (by decide)
  obtain ⟨-, hcut⟩ := stored_prefix hwell
    (Stream.cutInto_records { data := data ++ [10, 10, 9], failure := some "boom" } 10) hshort
    (hmemory _)
  obtain ⟨stored, record, rest, other, hsplit, hfits, hfull, hrefused, hother⟩ := hcut (by decide)
  have hfitting : fitting 21 [[1, 2, 3], [], [4, 4, 4, 4, 4, 4], []] = (stored, some record) :=
    taken_iff.mp (.cut hsplit (Nat.le_sub_of_add_le' hfits)
      (Nat.sub_lt_left_of_lt_add (by decide) hfull))
  cases hfitting
  have hbefore : buffer.memory.slice 0 buffer.cursor = [0, 7, 7] := by cbv
  refine ⟨after, other, hstore, ?_, hrefused, ?_⟩
  · rw [hafter.written, hbefore]
    rfl
  · rw [hother.written, hbefore]

end Buffer

end RecordBuffer

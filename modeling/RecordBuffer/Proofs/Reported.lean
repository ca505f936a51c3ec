import RecordBuffer.Proofs.Packed
import RecordBuffer.Proofs.Upkeep

/-!
# What a walk reports

A walk takes whatever stands below the cursor for records. A header says where
its record ends, and that may be behind the cursor but not behind the capacity.
The walk is over where the cursor is reached, so this happens to the last record
alone. Where there is no room left for a header, no bytes are reported.
-/

namespace RecordBuffer

/-- Any four bytes are the header of a record of some length. -/
theorem Memory.holds_declared (memory : Memory) (offset : Nat) :
    memory.Holds offset (Record.encode
      (memory.slice (offset + Record.headerSize) (memory.payloadLength offset))) := by
  rw [Record.encode, Memory.holds_append, Memory.length_slice, Record.length_header]
  refine ⟨(Record.header_ofDigits _ _ _ _).symm, ?_⟩
  rw [Memory.Holds, Memory.length_slice]

namespace Buffer

variable {buffer : Buffer} {offset bound next : Nat} {payload : Bytes} {payloads : List Bytes}
  {trail : Trail}

/-- What a walk reports at an offset below the cursor: the record there if its header was written,
and no bytes otherwise. -/
structure Reports (buffer : Buffer) (offset : Nat) (payload : Bytes) : Prop where
  below : offset < buffer.cursor
  whole : offset + Record.headerSize ≤ buffer.cursor →
    payload.length < Limits.payloadBound ∧ buffer.memory.Holds offset (Record.encode payload) ∧
      offset + Record.size payload.length ≤ buffer.capacity
  torn : buffer.cursor < offset + Record.headerSize → payload = []

/-- One report. The walk ends there exactly if the cursor is reached. -/
theorem recordAt_reports (hoffset : 1 ≤ offset) (hbelow : offset < buffer.cursor)
    (hread : buffer.recordAt offset = .ok (payload, next)) :
    buffer.Reports offset payload ∧
      if next = 0 then buffer.cursor ≤ offset + Record.size payload.length
      else next = offset + Record.size payload.length := by
  unfold recordAt at hread
  split at hread
  next hnone =>
    cases hread
    have htorn : buffer.cursor < offset + Record.headerSize := by omega
    exact ⟨⟨hbelow, fun hroom => by omega, fun _ => rfl⟩, Nat.le_of_lt htorn⟩
  next hheader =>
    simp only at hread
    split at hread
    next => cases hread
    next hcapacity =>
      rw [Except.ok.injEq, Prod.mk.injEq] at hread
      obtain ⟨rfl, rfl⟩ := hread
      rw [Memory.length_slice, Record.size, ← Nat.add_assoc]
      refine ⟨⟨hbelow, fun _ => ⟨?_, buffer.memory.holds_declared offset, ?_⟩, ?_⟩, ?_⟩
      · rw [Memory.length_slice]
        exact Record.ofDigits_lt _ _ _ _
      · rw [Memory.length_slice, Record.size, ← Nat.add_assoc]
        exact Nat.le_of_not_lt hcapacity
      · omega
      · split
        next hend => rw [if_pos rfl]; exact hend
        next => rw [if_neg (by omega)]

/-- A walk below the cursor reports records that follow each other without a gap, and goes on until
its bound is reached. -/
theorem trail_reports (hoffset : 1 ≤ offset) (hbound : bound ≤ buffer.cursor)
    (htrail : buffer.trail offset bound = .ok trail) :
    ∃ payloads, trail.visits = visits offset payloads ∧
      (∀ visit ∈ trail.visits, buffer.Reports visit.offset visit.payload) ∧
      bound ≤ offset + Record.extent payloads := by
  fun_induction Buffer.trail buffer offset bound generalizing trail with
  | case1 offset hdone =>
      cases htrail
      refine ⟨[], rfl, List.forall_mem_nil _, ?_⟩
      rw [Record.extent_nil]
      omega
  | case2 => cases htrail
  | case3 offset hgoing payload hread =>
      cases htrail
      obtain ⟨hreports, hnext⟩ := recordAt_reports hoffset (by omega) hread
      rw [if_pos rfl] at hnext
      refine ⟨[payload], rfl, List.forall_mem_singleton.mpr hreports, ?_⟩
      rw [Record.extent_cons, Record.extent_nil]
      omega
  | case4 => cases htrail
  | case5 offset hgoing payload next hread hnext rest hrest ih =>
      cases htrail
      obtain ⟨hreports, hbehind⟩ := recordAt_reports hoffset (by omega) hread
      rw [if_neg hnext] at hbehind
      obtain ⟨payloads, hvisits, hall, hreach⟩ := ih (by omega) hrest
      refine ⟨payload :: payloads, ?_, List.forall_mem_cons.mpr ⟨hreports, hall⟩, ?_⟩
      · rw [visits, hvisits, hbehind]
      · rw [Record.extent_cons]
        omega

/-- All records are reported one behind the other from the first offset on, and the cursor is
reached. -/
theorem records_reports (hrecords : buffer.records = .ok payloads) :
    (∃ stop, buffer.trail 1 buffer.cursor = .ok ⟨visits 1 payloads, stop⟩) ∧
      (∀ visit ∈ visits 1 payloads, buffer.Reports visit.offset visit.payload) ∧
      buffer.cursor ≤ 1 + Record.extent payloads := by
  obtain ⟨⟨met, stop⟩, htrail, hrecords⟩ := bind_eq_ok.mp hrecords
  cases hrecords
  obtain ⟨payloads, rfl, hall, hreach⟩ := trail_reports (Nat.le_refl 1) (Nat.le_refl _) htrail
  simp only [map_payload_visits]
  exact ⟨⟨stop, htrail⟩, hall, hreach⟩

/-- The payloads of a buffer are those of the records from the first offset on, and bytes behind
the cursor are reported for the last record alone, where the header below the cursor declares
them. No bytes are reported where no header fits below the cursor. -/
theorem reported_records (hrecords : buffer.records = .ok payloads) :
    (∃ stop, buffer.trail 1 buffer.cursor = .ok ⟨visits 1 payloads, stop⟩) ∧
    ∀ front payload rest, payloads = front ++ payload :: rest →
      let offset := 1 + Record.extent front
      let stop := offset + Record.size payload.length
      offset < buffer.cursor ∧
      (offset + Record.headerSize ≤ buffer.cursor →
        payload.length < Limits.payloadBound ∧ buffer.memory.Holds offset (Record.encode payload) ∧
          stop ≤ buffer.capacity) ∧
      (buffer.cursor < offset + Record.headerSize → payload = []) ∧
      (rest ≠ [] → stop < buffer.cursor) := by
  obtain ⟨htrail, hall, -⟩ := records_reports hrecords
  refine ⟨htrail, fun front payload rest hsplit => ?_⟩
  subst hsplit
  obtain ⟨hbelow, hwhole, htorn⟩ := hall _ (mem_visits_append front payload rest)
  refine ⟨hbelow, hwhole, htorn, fun hrest => ?_⟩
  -- The record behind this one is visited as well, and so it starts below the cursor.
  obtain ⟨following, others, rfl⟩ := List.exists_cons_of_ne_nil hrest
  rw [List.append_cons] at hall
  have hfollowing := (hall _ (mem_visits_append _ following others)).below
  simpa [Nat.add_assoc] using hfollowing

/-- The last header of the appended bytes declares more than was appended behind it. -/
theorem reported_records_overrun :
    ∃ buffer after replies,
      Buffer.new 64 = .ok buffer ∧
      buffer.performAll [.appendRecord [1, 2], .append [0, 0, 0, 9, 7]] = .ok (after, replies) ∧
      after.records = .ok [[1, 2], [7, 0, 0, 0, 0, 0, 0, 0, 0]] ∧ after.cursor = 12 ∧
      after.memory.Holds 7 (Record.encode [7, 0, 0, 0, 0, 0, 0, 0, 0]) ∧ 20 ≤ after.capacity := by
  let buffer : Buffer := ⟨.heap, .blank, 64, 1, 64, Limits.maxSize⟩
  let operations : List Operation := [.appendRecord [1, 2], .append [0, 0, 0, 9, 7]]
  obtain ⟨⟨after, replies⟩, hrun⟩ : ∃ outcome, buffer.performAll operations = .ok outcome :=
    exists_eq_ok_of_isOk (by cbv)
  have hcursor : (buffer.performAll operations).map (fun used => used.1.cursor) = .ok 12 := by cbv
  have hrecords : (buffer.performAll operations >>= fun used => used.1.records) =
      .ok [[1, 2], [7, 0, 0, 0, 0, 0, 0, 0, 0]] := by cbv
  rw [hrun] at hcursor hrecords
  obtain hcursor : after.cursor = 12 := Except.ok.inj hcursor
  obtain ⟨-, hall⟩ := reported_records (show after.records = _ from hrecords)
  obtain ⟨-, hwhole, -, -⟩ := hall [[1, 2]] _ [] rfl
  obtain ⟨-, hholds, hcapacity⟩ := hwhole (by rw [hcursor]; decide)
  exact ⟨buffer, after, replies, rfl, hrun, hrecords, hcursor, hholds, hcapacity⟩

/-- Bytes behind the cursor are reported after a reset, and a single byte is taken for a record. -/
theorem reported_behind_cursor :
    ∃ buffer stale staleReplies torn tornReplies,
      Buffer.new 64 = .ok buffer ∧
      buffer.performAll [.appendRecord [1, 2], .reset, .append [0, 0, 0, 2]] =
        .ok (stale, staleReplies) ∧
      stale.records = .ok [[1, 2]] ∧ stale.cursor < 1 + Record.size [1, 2].length ∧
      buffer.performAll [.append [0]] = .ok (torn, tornReplies) ∧
      torn.records = .ok [[]] ∧ torn.cursor < 1 + Record.headerSize := by
  let buffer : Buffer := ⟨.heap, .blank, 64, 1, 64, Limits.maxSize⟩
  have hstale : (buffer.performAll [.appendRecord [1, 2], .reset, .append [0, 0, 0, 2]] >>=
      fun used => used.1.records.map (used.1.cursor, ·)) = .ok (5, [[1, 2]]) := by cbv
  have htorn : (buffer.performAll [.append [0]] >>=
      fun used => used.1.records.map (used.1.cursor, ·)) = .ok (2, [[]]) := by cbv
  obtain ⟨⟨stale, staleReplies⟩, hstaleRun, hstale⟩ := bind_eq_ok.mp hstale
  obtain ⟨⟨torn, tornReplies⟩, htornRun, htorn⟩ := bind_eq_ok.mp htorn
  obtain ⟨_, hstaleRecords, hstale⟩ := map_eq_ok.mp hstale
  obtain ⟨_, htornRecords, htorn⟩ := map_eq_ok.mp htorn
  obtain ⟨hstaleCursor, rfl⟩ := Prod.mk.inj hstale
  obtain ⟨htornCursor, rfl⟩ := Prod.mk.inj htorn
  refine ⟨buffer, stale, staleReplies, torn, tornReplies, rfl, hstaleRun, hstaleRecords, ?_,
    htornRun, htornRecords, ?_⟩
  · rw [show stale.cursor = 5 from hstaleCursor]
    decide
  · rw [show torn.cursor = 2 from htornCursor]
    decide

end Buffer

end RecordBuffer

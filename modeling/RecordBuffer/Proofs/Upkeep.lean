import RecordBuffer.Buffer.Operation
import RecordBuffer.Proofs.Growth
import RecordBuffer.Proofs.RangeFrame

/-!
# What operations do to buffers

An operation that is not refused for good takes a span behind the cursor,
forgets what was written, or writes below the capacity. Whatever it is, it
leaves a well-formed buffer with the same backing and maximum size and no less
capacity. An operation that gives an error counts as well.
-/

namespace RecordBuffer

/-- An operation that makes room behind the cursor or adds bytes there. -/
def Operation.adds : Operation → Bool
  | .grow _ | .append _ | .advance _ | .allocate _ _ | .allocateRecord _ _ | .appendRecord _
  | .storeStream _ _ => true
  | _ => false

/-- The records in front of the first that has no room, and that one. -/
def fitting (room : Nat) : List Bytes → List Bytes × Option Bytes
  | [] => ([], none)
  | record :: rest =>
      if room < Record.size record.length then ([], some record)
      else
        let (stored, refused) := fitting (room - Record.size record.length) rest
        (record :: stored, refused)

/-- What is said about storing records of a stream, one of which may have been refused. -/
def storeReply (maxSize : Nat) (stream : Stream) (delimiter : UInt8) :
    Option Bytes → Except StorageError Reply
  | some record => .error (.io (.recordDoesNotFit record.length maxSize))
  | none =>
      match stream.failure with
      | some text => .error (.io (.stream text))
      | none => .ok (.count (stream.records delimiter).length)

/-- A span of bytes. -/
structure Span where
  start : Nat
  count : Nat
  deriving DecidableEq, Repr

/-- Where a span ends. -/
def Span.stop (span : Span) : Nat := span.start + span.count

namespace Buffer

variable {buffer after : Buffer} {operation : Operation} {result : Except StorageError Reply}

/-- Carry out operations in order. An error does not stop the run, and a fault does. -/
def performAll (buffer : Buffer) :
    List Operation → Except Fault (Buffer × List (Except StorageError Reply))
  | [] => .ok (buffer, [])
  | operation :: rest => do
      let (middle, result) ← buffer.perform operation
      let (after, results) ← middle.performAll rest
      return (after, result :: results)

theorem performAll_cons {rest : List Operation} {results : List (Except StorageError Reply)} :
    buffer.performAll (operation :: rest) = .ok (after, results) ↔
      ∃ middle result others, buffer.perform operation = .ok (middle, result) ∧
        middle.performAll rest = .ok (after, others) ∧ results = result :: others := by
  constructor
  · intro hrun
    obtain ⟨⟨middle, result⟩, hstep, hrun⟩ := bind_eq_ok.mp hrun
    obtain ⟨⟨last, others⟩, hrest, hrun⟩ := bind_eq_ok.mp hrun
    cases hrun
    exact ⟨middle, result, others, hstep, hrest, rfl⟩
  · rintro ⟨middle, result, others, hstep, hrest, rfl⟩
    exact bind_eq_ok.mpr ⟨_, hstep, bind_eq_ok.mpr ⟨_, hrest, rfl⟩⟩

theorem reset_evolved (hwell : buffer.WellFormed) : buffer.Evolved buffer.reset :=
  ⟨⟨Nat.le_refl _, Nat.le_trans hwell.one_le_cursor hwell.cursor_le_capacity,
    hwell.capacity_le_maxSize, hwell.backed_eq_capacity, hwell.get_eq_zero⟩, rfl, rfl,
    Nat.le_refl _⟩

/-- Filling a span writes nothing outside it. -/
theorem fill_rewritten {start count : Nat} {bytes : Option Bytes}
    (hfill : buffer.fill start count bytes = .ok after) :
    buffer.RewrittenIn after start (start + count) := by
  unfold fill at hfill
  split at hfill
  next =>
    cases hfill
    exact RewrittenIn.refl _ _ _
  next bytes =>
    split at hfill
    next hlength =>
      cases hfill
      exact hlength ▸ buffer.overwrite_rewritten start bytes
    next => cases hfill

theorem checkSpan_eq_ok {access : Access} {length offset : Nat}
    (hcheck : buffer.checkSpan access length offset = .ok ()) :
    offset + length ≤ buffer.capacity := by
  unfold checkSpan at hcheck
  split at hcheck
  next hfits => exact hfits
  next => cases hcheck

theorem overwrite_evolved {offset : Nat} {bytes : Bytes} (hwell : buffer.WellFormed)
    (hfits : offset + bytes.length ≤ buffer.capacity) :
    buffer.Evolved (buffer.overwrite offset bytes) :=
  (buffer.overwrite_rewritten offset bytes).evolved hwell hfits

theorem writeSpan_rewritten {bytes : Bytes} {offset : Nat}
    (hwrite : buffer.writeSpan bytes offset = .ok after) :
    offset + bytes.length ≤ buffer.capacity ∧
      buffer.RewrittenIn after offset (offset + bytes.length) := by
  obtain ⟨⟨⟩, hcheck, hwrite⟩ := bind_eq_ok.mp hwrite
  cases hwrite
  exact ⟨checkSpan_eq_ok hcheck, buffer.overwrite_rewritten offset bytes⟩

theorem placeRecord_rewritten {payload : Bytes} {offset : Nat}
    (hplace : buffer.placeRecord payload offset = .ok (.ok after)) :
    offset + Record.size payload.length ≤ buffer.capacity ∧
      buffer.RewrittenIn after offset (offset + Record.size payload.length) := by
  unfold placeRecord at hplace
  split at hplace
  next => cases hplace
  next hcheck =>
    split at hplace
    next => cases hplace
    next =>
      cases hplace
      have hrewritten := buffer.overwrite_rewritten offset (Record.encode payload)
      rw [Record.length_encode] at hrewritten
      exact ⟨checkSpan_eq_ok hcheck, hrewritten⟩

theorem sortRange_evolved {compare : Comparator} {start stop chunkSize : Nat}
    (hwell : buffer.WellFormed)
    (hsort : buffer.sortRange compare start stop chunkSize = .ok after) : buffer.Evolved after :=
  (sortRange_rewritten hsort).evolved hwell
    (Nat.le_trans (Nat.min_le_right _ _) hwell.cursor_le_capacity)

/-- Records are stored up to the first that has no room. -/
theorem storeRecords_followedBy {records : List Bytes} {refused : Option Cause}
    (hwell : buffer.WellFormed) (hstore : buffer.storeRecords records = .ok (after, refused)) :
    ∃ stored rejected, fitting (buffer.maxSize - buffer.cursor) records = (stored, rejected) ∧
      Record.Short stored ∧ buffer.FollowedBy after (Record.encodeAll stored) ∧
      refused = rejected.map fun record => .recordDoesNotFit record.length buffer.maxSize := by
  induction records generalizing buffer with
  | nil =>
      cases hstore
      exact ⟨[], none, rfl, Record.short_nil, FollowedBy.refl hwell, rfl⟩
  | cons record rest ih =>
      unfold storeRecords at hstore
      unfold fitting
      split at hstore
      next hfull =>
        cases hstore
        rw [if_pos hfull]
        exact ⟨[], some record, rfl, Record.short_nil, FollowedBy.refl hwell, rfl⟩
      next hroom =>
        obtain ⟨⟨offset, appended⟩, happend, hstore⟩ := bind_eq_ok.mp hstore
        obtain ⟨-, hrecord, hadvanced, -⟩ := appendRecord_advanced hwell happend
        obtain ⟨stored, rejected, hfitting, hshort, hfollowed, hrefused⟩ :=
          ih hadvanced.wellFormed hstore
        rw [hadvanced.maxSize_eq] at hfitting hrefused
        rw [hadvanced.cursor_eq, ← Nat.sub_sub] at hfitting
        rw [if_neg hroom, hfitting]
        exact ⟨record :: stored, rejected, rfl, Record.short_cons.mpr ⟨hrecord, hshort⟩,
          (appendRecord_followedBy hwell happend).trans hfollowed, hrefused⟩

/-- The records of a stream are stored, and the reply says what became of them. -/
theorem storeStream_followedBy {stream : Stream} {delimiter : UInt8}
    {counted : Except StorageError Nat} (hwell : buffer.WellFormed)
    (hstore : buffer.storeStream stream delimiter = .ok (after, counted)) :
    ∃ stored rejected, fitting (buffer.maxSize - buffer.cursor) (stream.records delimiter) =
        (stored, rejected) ∧
      Record.Short stored ∧ buffer.FollowedBy after (Record.encodeAll stored) ∧
      counted.map Reply.count = storeReply buffer.maxSize stream delimiter rejected := by
  obtain ⟨⟨middle, cause⟩, hrecords, hstore⟩ := bind_eq_ok.mp hstore
  obtain ⟨stored, rejected, hfitting, hshort, hfollowed, rfl⟩ :=
    storeRecords_followedBy hwell hrecords
  refine ⟨stored, rejected, hfitting, hshort, ?_⟩
  cases rejected with
  | some record =>
      cases hstore
      exact ⟨hfollowed, rfl⟩
  | none =>
      cases hfailure : stream.failure <;>
        simp only [storeReply, hfailure, Option.map_none] at hstore ⊢ <;>
        cases hstore <;> exact ⟨hfollowed, rfl⟩

theorem storeStream_evolved {stream : Stream} {delimiter : UInt8}
    {counted : Except StorageError Nat} (hwell : buffer.WellFormed)
    (hstore : buffer.storeStream stream delimiter = .ok (after, counted)) :
    buffer.Evolved after := by
  obtain ⟨stored, rejected, -, -, hfollowed, -⟩ := storeStream_followedBy hwell hstore
  exact hfollowed.toEvolved

/-! ## Operations -/

/-- The span that an operation takes, which starts at the cursor, and the reply about it. An offset
in a reply is where the span starts. -/
inductive Takes (buffer : Buffer) : Operation → Except StorageError Reply → Span → Prop where
  | grow (request : Nat) : Takes buffer (.grow request) (.ok .done) ⟨buffer.cursor, 0⟩
  | append (bytes : Bytes) :
      Takes buffer (.append bytes) (.ok (.count bytes.length)) ⟨buffer.cursor, bytes.length⟩
  | advance (count : Nat) :
      Takes buffer (.advance count) (.ok (.count buffer.cursor)) ⟨buffer.cursor, count⟩
  | allocate (count : Nat) (fill : Option Bytes) (held : Bytes) :
      Takes buffer (.allocate count fill) (.ok (.allocated buffer.cursor held))
        ⟨buffer.cursor, count⟩
  | allocateRecord (length : Nat) (fill : Option Bytes) (held : Bytes) :
      Takes buffer (.allocateRecord length fill) (.ok (.allocated buffer.cursor held))
        ⟨buffer.cursor, Record.size length⟩
  | appendRecord (payload : Bytes) :
      Takes buffer (.appendRecord payload) (.ok (.count buffer.cursor))
        ⟨buffer.cursor, Record.size payload.length⟩
  | storeStream (stream : Stream) (delimiter : UInt8) (stored : List Bytes)
      (refused : Option Bytes)
      (fits : fitting (buffer.maxSize - buffer.cursor) (stream.records delimiter) =
        (stored, refused)) :
      Takes buffer (.storeStream stream delimiter)
        (storeReply buffer.maxSize stream delimiter refused) ⟨buffer.cursor, Record.extent stored⟩

theorem Takes.start_eq {span : Span} (htakes : buffer.Takes operation result span) :
    span.start = buffer.cursor := by
  cases htakes <;> rfl

/-- What an operation may do to a buffer: it takes a span behind the cursor, forgets what was
written, or writes below the capacity. -/
inductive Changed (before : Buffer) :
    Operation → Except StorageError Reply → Buffer → Prop where
  | added {operation : Operation} {reply : Except StorageError Reply} {span : Span}
      {after : Buffer} (takes : before.Takes operation reply span)
      (advanced : before.Advanced after span.count) : Changed before operation reply after
  | forgotten (reply : Except StorageError Reply) : Changed before .reset reply before.reset
  | rewritten {operation : Operation} {reply : Except StorageError Reply} {after : Buffer}
      {start stop : Nat} (quiet : operation.adds = false) (within : stop ≤ before.capacity)
      (rewritten : before.RewrittenIn after start stop) : Changed before operation reply after

theorem Changed.same (hquiet : operation.adds = false) :
    buffer.Changed operation result buffer :=
  .rewritten hquiet (Nat.zero_le _) (RewrittenIn.refl _ 0 0)

/-- Every operation does one of these. -/
theorem perform_changed (hwell : buffer.WellFormed)
    (hperform : buffer.perform operation = .ok (after, result)) :
    buffer.Changed operation result after := by
  cases operation with
  | flush | bytes | first | readSpan =>
      cases hperform
      exact .same rfl
  | reset =>
      cases hperform
      exact .forgotten _
  | grow request =>
      obtain ⟨grown, hgrow, hperform⟩ := bind_eq_ok.mp hperform
      cases hperform
      exact .added (.grow request) (grow_advanced hwell hgrow).1
  | append bytes =>
      obtain ⟨appended, happend, hperform⟩ := bind_eq_ok.mp hperform
      cases hperform
      exact .added (.append bytes) (append_advanced hwell happend).1
  | advance count =>
      obtain ⟨⟨offset, allocated⟩, hallocate, hperform⟩ := bind_eq_ok.mp hperform
      cases hperform
      obtain ⟨rfl, hadvanced⟩ := allocate_advanced hwell hallocate
      exact .added (.advance count) hadvanced
  | allocate count fill =>
      obtain ⟨⟨offset, allocated⟩, hallocate, hperform⟩ := bind_eq_ok.mp hperform
      obtain ⟨filled, hfill, hperform⟩ := bind_eq_ok.mp hperform
      cases hperform
      obtain ⟨rfl, hadvanced⟩ := allocate_advanced hwell hallocate
      exact .added (.allocate count fill _)
        (hadvanced.rewritten (fill_rewritten hfill) (Nat.le_refl _) (Nat.le_refl _))
  | allocateRecord length fill =>
      obtain ⟨⟨offset, allocated⟩, hallocate, hperform⟩ := bind_eq_ok.mp hperform
      obtain ⟨filled, hfill, hperform⟩ := bind_eq_ok.mp hperform
      cases hperform
      obtain ⟨rfl, -, hadvanced, -⟩ := allocateRecord_advanced hwell hallocate
      refine .added (.allocateRecord length fill _)
        (hadvanced.rewritten (fill_rewritten hfill) (Nat.le_add_right _ _) ?_)
      exact Nat.le_of_eq (by rw [Record.size, Nat.add_assoc])
  | appendRecord payload =>
      obtain ⟨⟨offset, appended⟩, happend, hperform⟩ := bind_eq_ok.mp hperform
      cases hperform
      obtain ⟨rfl, -, hadvanced, -⟩ := appendRecord_advanced hwell happend
      exact .added (.appendRecord payload) hadvanced
  | writeSpan bytes offset =>
      simp only [perform] at hperform
      split at hperform
      next written hwrite =>
        cases hperform
        obtain ⟨hwithin, hrewritten⟩ := writeSpan_rewritten hwrite
        exact .rewritten rfl hwithin hrewritten
      next =>
        cases hperform
        exact .same rfl
  | placeRecord payload offset =>
      obtain ⟨placed, hplace, hperform⟩ := bind_eq_ok.mp hperform
      cases placed with
      | ok written =>
          cases hperform
          obtain ⟨hwithin, hrewritten⟩ := placeRecord_rewritten hplace
          exact .rewritten rfl hwithin hrewritten
      | error error =>
          cases hperform
          exact .same rfl
  | recordAt | records | recordRange | delimited =>
      obtain ⟨_, _, hread⟩ := bind_eq_ok.mp hperform
      cases hread
      exact .same rfl
  | sort | sortRange =>
      obtain ⟨sorted, hsort, hperform⟩ := bind_eq_ok.mp hperform
      cases hperform
      exact .rewritten rfl (Nat.le_trans (Nat.min_le_right _ _) hwell.cursor_le_capacity)
        (sortRange_rewritten hsort)
  | storeStream stream delimiter =>
      obtain ⟨⟨stored, counted⟩, hstore, hperform⟩ := bind_eq_ok.mp hperform
      cases hperform
      obtain ⟨taken, refused, hfitting, -, hfollowed, hreply⟩ := storeStream_followedBy hwell hstore
      have hadvanced := hfollowed.toAdvanced
      rw [Record.length_encodeAll] at hadvanced
      rw [hreply]
      exact .added (.storeStream stream delimiter taken refused hfitting) hadvanced

/-- What an operation keeps. -/
theorem perform_evolved (hwell : buffer.WellFormed)
    (hperform : buffer.perform operation = .ok (after, result)) : buffer.Evolved after := by
  cases perform_changed hwell hperform with
  | added _ hadvanced => exact hadvanced.toEvolved
  | forgotten => exact reset_evolved hwell
  | rewritten _ hwithin hrewritten => exact hrewritten.evolved hwell hwithin

/-- What an operation takes is all that it touches. -/
theorem perform_takes (hwell : buffer.WellFormed) (hadds : operation.adds)
    (hperform : buffer.perform operation = .ok (after, result)) :
    ∃ span, buffer.Takes operation result span ∧ buffer.Advanced after span.count := by
  cases perform_changed hwell hperform with
  | added htakes hadvanced => exact ⟨_, htakes, hadvanced⟩
  | forgotten => cases hadds
  | rewritten hquiet _ _ =>
      rw [hquiet] at hadds
      cases hadds

/-- What adds nothing leaves the capacity alone. -/
theorem perform_capacity (hwell : buffer.WellFormed) (hquiet : operation.adds = false)
    (hperform : buffer.perform operation = .ok (after, result)) :
    after.capacity = buffer.capacity := by
  cases perform_changed hwell hperform with
  | added htakes _ => cases htakes <;> cases hquiet
  | forgotten => rfl
  | rewritten _ _ hrewritten =>
      obtain ⟨memory, rfl, -⟩ := hrewritten
      rfl

end Buffer

end RecordBuffer

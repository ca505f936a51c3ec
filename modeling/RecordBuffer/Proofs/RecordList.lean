import Mathlib
import RecordBuffer.Proofs.Making
import RecordBuffer.Proofs.RecordsFrom
import RecordBuffer.Proofs.Upkeep

/-!
# A buffer of records is a list of payloads

As long as a buffer is used for records only, every operation on it is an edit
of a list of payloads. What the buffer shows is that list, and where each record
stands follows from the sizes in front of it. Bytes left behind by growth or by
a reset never show.
-/

namespace RecordBuffer

/-- A reply without the bytes that an allocated span held before it was filled. -/
def Reply.settled : Reply → Reply
  | .allocated offset _ => .allocated offset []
  | reply => reply

theorem storeReply_settled (maxSize : Nat) (stream : Stream) (delimiter : UInt8)
    (refused : Option Bytes) :
    (storeReply maxSize stream delimiter refused).map Reply.settled =
      storeReply maxSize stream delimiter refused := by
  unfold storeReply
  split
  next => rfl
  next => split <;> rfl

/-- What an operation does to a list of payloads, and what it replies. An allocated record counts
as filled, a record is overwritten by one as long, and a comparator has to be consistent. -/
inductive Edit (maxSize : Nat) (payloads : List Bytes) :
    Operation → Except StorageError Reply → List Bytes → Prop where
  | append (payload : Bytes) :
      Edit maxSize payloads (.appendRecord payload)
        (.ok (.count (1 + Record.extent payloads))) (payloads ++ [payload])
  | allocate (payload : Bytes) :
      Edit maxSize payloads (.allocateRecord payload.length (some payload))
        (.ok (.allocated (1 + Record.extent payloads) [])) (payloads ++ [payload])
  | grow (request : Nat) : Edit maxSize payloads (.grow request) (.ok .done) payloads
  | reset : Edit maxSize payloads .reset (.ok .done) []
  | sort (compare : Comparator) [Std.TransCmp compare] (sorted : List Bytes)
      (stable : compare.StableSort payloads sorted) :
      Edit maxSize payloads (.sort compare) (.ok .done) sorted
  | replace (front rest : List Bytes) (old new : Bytes) (whole : payloads = front ++ old :: rest)
      (same_length : new.length = old.length) :
      Edit maxSize payloads (.placeRecord new (1 + Record.extent front))
        (.ok (.count new.length)) (front ++ new :: rest)
  | store (stream : Stream) (delimiter : UInt8) (stored : List Bytes) (refused : Option Bytes)
      (fits : fitting (maxSize - (1 + Record.extent payloads)) (stream.records delimiter) =
        (stored, refused)) :
      Edit maxSize payloads (.storeStream stream delimiter)
        (storeReply maxSize stream delimiter refused) (payloads ++ stored)

/-- Edits one after another. -/
inductive Edits (maxSize : Nat) : List Bytes → List Operation →
    List (Except StorageError Reply) → List Bytes → Prop where
  | nil (payloads : List Bytes) : Edits maxSize payloads [] [] payloads
  | cons {payloads middle final : List Bytes} {operation : Operation}
      {reply : Except StorageError Reply} {operations : List Operation}
      {replies : List (Except StorageError Reply)}
      (first : Edit maxSize payloads operation reply middle)
      (rest : Edits maxSize middle operations replies final) :
      Edits maxSize payloads (operation :: operations) (reply :: replies) final

namespace Buffer

variable {buffer after : Buffer} {payloads edited : List Bytes} {payload : Bytes}
  {offset count : Nat}

/-- The records below the cursor are those of a list of payloads. -/
structure Represents (buffer : Buffer) (payloads : List Bytes) : Prop where
  wellFormed : buffer.WellFormed
  packed : buffer.memory.Packed 1 payloads
  cursor_eq : buffer.cursor = 1 + Record.extent payloads

/-- A buffer that was just made, and not from a file that was there before. -/
inductive Fresh : Buffer → Prop where
  | new {buffer : Buffer} (size : Nat) (made : Buffer.new size = .ok buffer) : Fresh buffer
  | create {buffer : Buffer} (before after : Disk) (size maxSize : Nat) (kind : Kind)
      (made : Buffer.create before size maxSize kind = .ok (after, .ok buffer)) : Fresh buffer

theorem Represents.recordsFrom (hrepresents : buffer.Represents payloads) :
    buffer.RecordsFrom 1 payloads :=
  ⟨hrepresents.wellFormed, Nat.le_refl 1, hrepresents.packed, hrepresents.cursor_eq⟩

theorem RecordsFrom.represents (hfrom : buffer.RecordsFrom 1 payloads) :
    buffer.Represents payloads :=
  ⟨hfrom.wellFormed, hfrom.packed, hfrom.cursor_eq⟩

namespace Represents

/-- All that a buffer shows about its records. -/
theorem records (hrepresents : buffer.Represents payloads) : buffer.records = .ok payloads := by
  obtain ⟨last, htrail⟩ := hrepresents.recordsFrom.trail
  refine bind_eq_ok.mpr ⟨_, htrail, ?_⟩
  simp only [map_payload_visits]
  rfl

/-- All that a buffer writes about its records. -/
theorem delimited (hrepresents : buffer.Represents payloads) (order : SortOrder)
    (delimiter : UInt8) :
    buffer.delimited order delimiter = .ok (joinRecords delimiter
      (if order.unique then dropRepeats order.compare none payloads else payloads)) :=
  bind_eq_ok.mpr ⟨payloads, hrepresents.records, rfl⟩

theorem recordAt {front rest : List Bytes} (hrepresents : buffer.Represents payloads)
    (hwhole : payloads = front ++ payload :: rest) :
    buffer.recordAt (1 + Record.extent front) = .ok (payload,
      if rest = [] then 0 else 1 + Record.extent (front ++ [payload])) := by
  obtain ⟨hwell, hpacked, hcursor⟩ := hrepresents
  subst hwhole
  obtain ⟨-, hbehind⟩ := Memory.Packed.append_iff.mp hpacked
  obtain ⟨hshort, hholds, -⟩ := Memory.Packed.cons_iff.mp hbehind
  have hlast : Record.extent rest = 0 ↔ rest = [] := Record.extent_eq_zero
  simp only [Record.extent_append, Record.extent_cons, Record.extent_nil, Nat.add_zero,
    ← Nat.add_assoc] at hcursor ⊢
  rw [recordAt_of_holds (Nat.le_add_right _ _) hshort hholds (by omega) hwell.cursor_le_capacity]
  congr 2
  by_cases hrest : rest = []
  · rw [if_pos hrest, if_pos (by rw [hcursor, hlast.mpr hrest]; rfl)]
  · have hpos : Record.extent rest ≠ 0 := fun hzero => hrest (hlast.mp hzero)
    rw [if_neg hrest, if_neg (by omega)]

/-- Growth shows nowhere. -/
theorem grown (hrepresents : buffer.Represents payloads) (hadvanced : buffer.Advanced after 0) :
    after.Represents payloads :=
  (hrepresents.recordsFrom.grown hadvanced).represents

/-- A record behind the cursor becomes the last one. -/
theorem append (hrepresents : buffer.Represents payloads)
    (hshort : payload.length < Limits.payloadBound)
    (hadvanced : buffer.Advanced after (Record.size payload.length))
    (hholds : after.memory.Holds buffer.cursor (Record.encode payload)) :
    after.Represents (payloads ++ [payload]) :=
  (hrepresents.recordsFrom.append hshort hadvanced hholds).represents

/-- Overwriting a record by one as long replaces its payload. -/
theorem replace {front rest : List Bytes} {old : Bytes}
    (hrepresents : buffer.Represents (front ++ old :: rest))
    (hlength : payload.length = old.length) :
    (buffer.overwrite (1 + Record.extent front) (Record.encode payload)).Represents
      (front ++ payload :: rest) := by
  obtain ⟨hwell, hpacked, hcursor⟩ := hrepresents
  obtain ⟨hfront, hbehind⟩ := Memory.Packed.append_iff.mp hpacked
  obtain ⟨hshort, -, hrest⟩ := Memory.Packed.cons_iff.mp hbehind
  have hcapacity := hwell.cursor_le_capacity
  rw [Record.extent_append, Record.extent_cons] at hcursor
  have hrewritten := buffer.overwrite_rewritten (1 + Record.extent front) (Record.encode payload)
  rw [Record.length_encode, hlength] at hrewritten
  refine ⟨(hrewritten.evolved hwell (by omega)).wellFormed, ?_, ?_⟩
  · refine Memory.Packed.append_iff.mpr ⟨hrewritten.packed hfront (Or.inl (Nat.le_refl _)),
      Memory.Packed.cons_iff.mpr ⟨hlength ▸ hshort, Memory.holds_write _ _ _, ?_⟩⟩
    rw [hlength]
    exact hrewritten.packed hrest (Or.inr (Nat.le_refl _))
  · rw [Record.extent_append, Record.extent_cons, hlength]
    exact hcursor

/-- Sorting all records sorts the list, in chunks of whatever size can be noted. -/
theorem sortRange (compare : Comparator) [Std.TransCmp compare] {chunkSize : Nat}
    (hrepresents : buffer.Represents payloads) (hchunkSize : 1 ≤ chunkSize)
    (hmemory : offsetSize * chunkSize ≤ Limits.maxExtent) :
    ∃ after, buffer.sortRange compare 1 buffer.cursor chunkSize = .ok after ∧
      after.Represents (compare.sort payloads) := by
  obtain ⟨after, hsort, hafter⟩ :=
    hrepresents.recordsFrom.sortRange compare (Nat.le_refl _) hchunkSize hmemory
  exact ⟨after, hsort, hafter.represents⟩

theorem sort {compare : Comparator} [Std.TransCmp compare] {sorted : List Bytes}
    (hrepresents : buffer.Represents payloads) (hstable : compare.StableSort payloads sorted)
    (hsort : buffer.sort compare = .ok after) : after.Represents sorted := by
  obtain ⟨result, hresult, hsorted⟩ := hrepresents.sortRange compare
    (show 1 ≤ defaultChunkSize by decide) (by decide)
  obtain rfl : after = result := Except.ok.inj (hsort.symm.trans hresult)
  rw [hstable.unique (compare.stableSort_sort payloads)]
  exact hsorted

/-- Records are stored up to the first that has no room. -/
theorem storeRecords {records : List Bytes} {refused : Option Cause}
    (hrepresents : buffer.Represents payloads)
    (hstore : buffer.storeRecords records = .ok (after, refused)) :
    ∃ stored rejected, fitting (buffer.maxSize - (1 + Record.extent payloads)) records =
        (stored, rejected) ∧
      after.Represents (payloads ++ stored) ∧
      refused = rejected.map fun record => .recordDoesNotFit record.length buffer.maxSize := by
  obtain ⟨stored, rejected, hfitting, hshort, hfollowed, hrefused⟩ :=
    storeRecords_followedBy hrepresents.wellFormed hstore
  rw [hrepresents.cursor_eq] at hfitting
  exact ⟨stored, rejected, hfitting,
    (hrepresents.recordsFrom.followed hshort hfollowed).represents, hrefused⟩

/-- One edit. -/
theorem perform {operation : Operation} {reply result : Except StorageError Reply}
    (hrepresents : buffer.Represents payloads)
    (hedit : Edit buffer.maxSize payloads operation reply edited)
    (hperform : buffer.perform operation = .ok (after, result)) :
    after.Represents edited ∧ result.map Reply.settled = reply := by
  have hwell := hrepresents.wellFormed
  have hcursor := hrepresents.cursor_eq
  cases hedit with
  | append payload =>
      obtain ⟨⟨offset, appended⟩, happend, hperform⟩ := bind_eq_ok.mp hperform
      cases hperform
      obtain ⟨rfl, hshort, hadvanced, hholds⟩ := appendRecord_advanced hwell happend
      exact ⟨hrepresents.append hshort hadvanced hholds, by rw [hcursor]; rfl⟩
  | allocate payload =>
      obtain ⟨⟨offset, allocated⟩, hallocate, hperform⟩ := bind_eq_ok.mp hperform
      obtain ⟨filled, hfill, hperform⟩ := bind_eq_ok.mp hperform
      cases hperform
      -- A record that is allocated and then filled is an appended one.
      have happend : buffer.appendRecord payload = .ok (offset, after) := by
        rw [Buffer.fill, if_pos rfl] at hfill
        cases hfill
        exact bind_eq_ok.mpr ⟨_, hallocate, rfl⟩
      obtain ⟨rfl, hshort, hadvanced, hholds⟩ := appendRecord_advanced hwell happend
      exact ⟨hrepresents.append hshort hadvanced hholds, by rw [hcursor]; rfl⟩
  | grow request =>
      obtain ⟨grown, hgrow, hperform⟩ := bind_eq_ok.mp hperform
      cases hperform
      exact ⟨hrepresents.grown (grow_advanced hwell hgrow).1, rfl⟩
  | reset =>
      cases hperform
      exact ⟨⟨(reset_evolved hwell).wellFormed, Memory.Packed.nil _ _, rfl⟩, rfl⟩
  | sort compare _ hstable =>
      obtain ⟨result, hsort, hperform⟩ := bind_eq_ok.mp hperform
      cases hperform
      exact ⟨hrepresents.sort hstable hsort, rfl⟩
  | replace front rest old new hwhole hlength =>
      subst hwhole
      obtain ⟨placed, hplace, hperform⟩ := bind_eq_ok.mp hperform
      have hcapacity := hwell.cursor_le_capacity
      rw [Record.extent_append, Record.extent_cons, ← hlength] at hcursor
      have hspan : buffer.checkSpan .writeRecord (Record.size new.length)
          (1 + Record.extent front) = .ok () := if_pos (by omega)
      simp only [placeRecord, hspan] at hplace
      split at hplace
      next => cases hplace
      next =>
        cases hplace
        cases hperform
        exact ⟨hrepresents.replace hlength, rfl⟩
  | store stream delimiter stored refused hfits =>
      obtain ⟨⟨middle, counted⟩, hstore, hperform⟩ := bind_eq_ok.mp hperform
      cases hperform
      obtain ⟨taken, rejected, hfitting, hshort, hfollowed, hreply⟩ :=
        storeStream_followedBy hwell hstore
      rw [hcursor, hfits] at hfitting
      obtain ⟨rfl, rfl⟩ := Prod.mk.inj hfitting
      refine ⟨(hrepresents.recordsFrom.followed hshort hfollowed).represents, ?_⟩
      rw [hreply, storeReply_settled]

end Represents

theorem Fresh.represents (hfresh : Fresh buffer) : buffer.Represents [] := by
  cases hfresh with
  | new size hmade =>
      obtain ⟨hwell, hcursor, -, -⟩ := new_made hmade
      exact ⟨hwell, Memory.Packed.nil _ _, hcursor⟩
  | create before after size maxSize kind hmade =>
      obtain ⟨hwell, hcursor, -, -⟩ := create_made hmade
      exact ⟨hwell, Memory.Packed.nil _ _, hcursor⟩

/-- Any number of edits. -/
theorem Represents.performAll {operations : List Operation}
    {replies results : List (Except StorageError Reply)} (hrepresents : buffer.Represents payloads)
    (hedits : Edits buffer.maxSize payloads operations replies edited)
    (hrun : buffer.performAll operations = .ok (after, results)) :
    after.Represents edited ∧ results.map (Except.map Reply.settled) = replies := by
  generalize hmax : buffer.maxSize = maxSize at hedits
  induction hedits generalizing buffer results with
  | nil payloads =>
      cases hrun
      exact ⟨hrepresents, rfl⟩
  | cons hfirst _ ih =>
      obtain ⟨middle, result, others, hstep, hrest, rfl⟩ := performAll_cons.mp hrun
      subst hmax
      obtain ⟨hmiddle, hreply⟩ := hrepresents.perform hfirst hstep
      have hevolved := perform_evolved hrepresents.wellFormed hstep
      obtain ⟨hafter, hreplies⟩ := ih hmiddle hrest hevolved.maxSize_eq
      exact ⟨hafter, by rw [List.map_cons, hreply, hreplies]⟩

/-- A buffer that was made empty and then edited shows the edited list of payloads. Every reply is
the one that the list accounts for, every record stands behind those in front of it and leads to
the next one, and only the last one leads nowhere. -/
theorem records_of_edits {operations : List Operation}
    {replies results : List (Except StorageError Reply)} (hfresh : Fresh buffer)
    (hedits : Edits buffer.maxSize [] operations replies payloads)
    (hrun : buffer.performAll operations = .ok (after, results)) :
    results.map (Except.map Reply.settled) = replies ∧
      after.records = .ok payloads ∧
      after.cursor = 1 + Record.extent payloads ∧
      ∀ front payload rest, payloads = front ++ payload :: rest →
        after.recordAt (1 + Record.extent front) = .ok (payload,
          if rest = [] then 0 else 1 + Record.extent (front ++ [payload])) := by
  obtain ⟨hafter, hreplies⟩ := hfresh.represents.performAll hedits hrun
  exact ⟨hreplies, hafter.records, hafter.cursor_eq, fun _ _ _ hwhole => hafter.recordAt hwhole⟩

/-- Growth, stale bytes after a reset, a sort with a tie, and a record rewritten in place. -/
theorem records_of_mixed_edits :
    let operations : List Operation :=
      [.appendRecord [1, 2], .allocateRecord 3 (some [9, 9, 9]), .reset, .appendRecord [3, 3],
        .appendRecord [], .grow 5, .sort Comparator.length, .placeRecord [4, 4] 5,
        .storeStream { data := [7, 10, 8] } 10]
    ∃ buffer disk after results,
      Buffer.create (Disk.empty "") 8 64 .mapped = .ok (disk, .ok buffer) ∧
      buffer.performAll operations = .ok (after, results) ∧
      after.records = .ok [[], [4, 4], [7], [8]] ∧ after.cursor = 21 ∧
      after.recordAt 16 = .ok ([8], 0) := by
  intro operations
  obtain ⟨disk, hmade⟩ : ∃ disk, Buffer.create (Disk.empty "") 8 64 .mapped =
      .ok (disk, .ok ⟨.mapped 0 (.temporary 0), .blank, 8, 1, 8, 64⟩) := ⟨_, rfl⟩
  obtain ⟨⟨after, results⟩, hrun⟩ : ∃ outcome,
      Buffer.performAll ⟨.mapped 0 (.temporary 0), .blank, 8, 1, 8, 64⟩ operations = .ok outcome :=
    exists_eq_ok_of_isOk (by cbv)
  have hsorted : Comparator.length.sort [[3, 3], []] = [[], [3, 3]] := by cbv
  have hstable : Comparator.length.StableSort [[3, 3], []] [[], [3, 3]] :=
    hsorted ▸ Comparator.length.stableSort_sort _
  have hedits : Edits 64 [] operations _ [[], [4, 4], [7], [8]] :=
    .cons (.append [1, 2]) <| .cons (.allocate [9, 9, 9]) <| .cons .reset <|
      .cons (.append [3, 3]) <| .cons (.append []) <| .cons (.grow 5) <|
      .cons (.sort Comparator.length _ hstable) <|
      .cons (.replace [[]] [] [3, 3] [4, 4] rfl rfl) <|
      .cons (.store _ _ [[7], [8]] none rfl) <| .nil _
  obtain ⟨-, hrecords, hcursor, hread⟩ :=
    records_of_edits (.create _ _ _ _ _ hmade) hedits hrun
  have hlast := hread [[], [4, 4], [7]] [8] [] rfl
  exact ⟨_, disk, after, results, hmade, hrun, hrecords, hcursor, hlast⟩

end Buffer

end RecordBuffer

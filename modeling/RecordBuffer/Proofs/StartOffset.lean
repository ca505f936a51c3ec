import RecordBuffer.Proofs.MappedFiles
import RecordBuffer.Proofs.Reported

/-!
# Records behind a start offset

A new file may be mapped with its cursor further along. Records written then are
packed from there on, and they are found and sorted by whoever names that offset.
A walk over all records starts at the first offset even so. It takes every four
zeros in front of the records for an empty one, and meets the records that were
written only where these fill the gap.
-/

namespace RecordBuffer

namespace Record

theorem encodeAll_replicate_nil (count : Nat) :
    encodeAll (List.replicate count []) = List.replicate (headerSize * count) 0 := by
  induction count with
  | zero => rfl
  | succ count ih =>
      have hempty : encode [] = List.replicate headerSize 0 := by decide
      rw [List.replicate_succ, encodeAll_cons, ih, hempty, List.replicate_append_replicate,
        Nat.mul_succ, Nat.add_comm]

theorem extent_replicate_nil (count : Nat) :
    extent (List.replicate count []) = headerSize * count := by
  rw [← length_encodeAll, encodeAll_replicate_nil, List.length_replicate]

theorem short_replicate_nil (count : Nat) : Short (List.replicate count []) := by
  intro payload hmem
  rw [List.eq_of_mem_replicate hmem]
  decide

end Record

/-- Zeros are empty records. -/
theorem Memory.packed_zeros {memory : Memory} {start count : Nat}
    (hzeros : ∀ address, start ≤ address → address < start + Record.headerSize * count →
      memory.get address = 0) : memory.Packed start (List.replicate count []) := by
  refine ⟨Record.short_replicate_nil count, ?_⟩
  rw [Record.encodeAll_replicate_nil, Memory.Holds, List.length_replicate, List.eq_replicate_iff]
  refine ⟨Memory.length_slice _ _ _, fun byte hbyte => ?_⟩
  obtain ⟨address, haddress, rfl⟩ := List.mem_map.mp hbyte
  obtain ⟨hlow, hhigh⟩ := List.mem_range'_1.mp haddress
  exact hzeros address hlow hhigh

namespace Buffer

variable {buffer after : Buffer} {start : Nat} {payloads : List Bytes}

/-- Behind a gap of zeros, the records up to the cursor are those of a list of payloads. -/
structure BehindGap (buffer : Buffer) (start : Nat) (payloads : List Bytes) : Prop
    extends RecordsFrom buffer start payloads where
  gap : ∀ address < start, buffer.memory.get address = 0

namespace BehindGap

/-- Appended records are found behind the others, each at the offset that was replied. -/
theorem appendAll {written : List Bytes} (hbehind : buffer.BehindGap start written)
    (hshort : Record.Short payloads)
    (hfits : buffer.cursor + Record.extent payloads ≤ buffer.maxSize)
    (haffords : buffer.Affords (buffer.cursor + Record.extent payloads)) :
    ∃ after, buffer.performAll (payloads.map .appendRecord) =
        .ok (after, (visits buffer.cursor payloads).map fun visit => .ok (.count visit.offset)) ∧
      after.BehindGap start (written ++ payloads) := by
  induction payloads generalizing buffer written with
  | nil => exact ⟨buffer, rfl, by rwa [List.append_nil]⟩
  | cons payload rest ih =>
      obtain ⟨hfrom, hgap⟩ := hbehind
      have hwell := hfrom.wellFormed
      obtain ⟨hpayload, hshort⟩ := Record.short_cons.mp hshort
      rw [Record.extent_cons, ← Nat.add_assoc] at hfits haffords
      obtain ⟨offset, middle, happend⟩ := appendRecord_ok hwell hpayload
        (Nat.le_trans (Nat.le_add_right _ _) hfits)
        (haffords.evolved (Evolved.refl hwell) (Nat.le_add_right _ _))
      obtain ⟨rfl, -, hadvanced, hholds⟩ := appendRecord_advanced hwell happend
      have hcursor := hadvanced.cursor_eq
      have hmiddle : middle.BehindGap start (written ++ [payload]) := by
        refine ⟨hfrom.append hpayload hadvanced hholds, fun address haddress => ?_⟩
        rw [hadvanced.kept address (by rw [hfrom.cursor_eq]; omega)]
        exact hgap address haddress
      obtain ⟨after, hrun, hafter⟩ := ih hmiddle hshort (by rwa [hcursor, hadvanced.maxSize_eq])
        (by rw [hcursor]; exact haffords.evolved hadvanced.toEvolved (Nat.le_refl _))
      rw [List.append_assoc, List.singleton_append] at hafter
      refine ⟨after, performAll_cons.mpr ⟨middle, _, _, bind_eq_ok.mpr ⟨_, happend, rfl⟩, hrun, ?_⟩,
        hafter⟩
      rw [visits, List.map_cons, hcursor]

/-- Every four zeros of the gap are an empty record. -/
theorem gap_packed (hbehind : buffer.BehindGap start payloads) {count : Nat}
    (hcount : 1 + Record.headerSize * count ≤ start) :
    buffer.memory.Packed 1 (List.replicate count []) :=
  Memory.packed_zeros fun address _ hhigh => hbehind.gap address (by omega)

/-- A walk over all records meets the empty ones of the gap first. -/
theorem records_eq (hbehind : buffer.BehindGap start payloads) {count : Nat}
    (hcount : 1 + Record.headerSize * count ≤ start) :
    buffer.records = (buffer.trail (1 + Record.headerSize * count) buffer.cursor).map fun rest =>
      List.replicate count [] ++ rest.visits.map Visit.payload := by
  have hextent := Record.extent_replicate_nil count
  have hcursor := hbehind.cursor_eq
  have hwalk := trail_over_packed (Nat.le_refl 1) (hbehind.gap_packed hcount)
    (by rw [hextent]; omega) hbehind.wellFormed.cursor_le_capacity
  have hpayloads := congrArg (Except.map (List.map Visit.payload)) hwalk
  rw [map_map, map_map, hextent] at hpayloads
  simp only [List.map_append, map_payload_visits] at hpayloads
  exact hpayloads

/-- Where the empty ones fill the gap, all records of the buffer are these and those written. -/
theorem represents (hbehind : buffer.BehindGap start payloads) {count : Nat}
    (hcount : start = 1 + Record.headerSize * count) :
    buffer.Represents (List.replicate count [] ++ payloads) := by
  have hgap := hbehind.gap_packed (Nat.le_of_eq hcount.symm)
  have hextent := Record.extent_replicate_nil count
  refine ⟨hbehind.wellFormed, Memory.Packed.append_iff.mpr ⟨hgap, ?_⟩, ?_⟩
  · rw [hextent, ← hcount]
    exact hbehind.packed
  · rw [Record.extent_append, hextent, ← Nat.add_assoc, ← hcount]
    exact hbehind.cursor_eq

/-- What was written behind a gap is never all that a walk over all records meets. -/
theorem records_ne (hbehind : buffer.BehindGap start payloads) (hstart : 2 ≤ start) :
    buffer.records ≠ .ok payloads := by
  intro hrecords
  obtain ⟨-, -, hreach⟩ := records_reports hrecords
  have hcursor := hbehind.cursor_eq
  omega

end BehindGap

/-- Where there is no file yet, a blank one is mapped with the cursor at the start offset. -/
theorem mapPath_new {disk : Disk} {path : String} {location : Location} {size maxSize : Nat}
    (hlocate : disk.locateFile path = .ok location) (hmissing : disk.find? location = none)
    (hsize : orDefault defaultInitialSize size ≤ orDefault defaultMaxSize maxSize)
    (hstart : start ≤ orDefault defaultMaxSize maxSize)
    (hmaps : disk.Maps (orDefault defaultMaxSize maxSize)) :
    ∃ opened made, mapPath disk path size maxSize start = .ok (opened, .ok made) ∧
      made.memory = .blank ∧ made.cursor = max start 1 ∧
      made.backing = .mapped disk.nextNumber (.path path) := by
  have hoffers : disk.Offers location disk.nextNumber .empty := .inr ⟨hmissing, rfl, rfl⟩
  obtain ⟨opened, hopen⟩ := Disk.openNamed_of_offers
    (show disk.locateNamed path = .ok location from hlocate) hoffers
  refine ⟨_, _, mapPath_mapped hopen hsize hstart (Nat.zero_le _) hmaps, ?_, ?_, rfl⟩
  · simp only [FileData.resize, FileData.empty, Memory.truncate]
  · simp only [FileData.empty, Nat.max_zero]

/-- Records that are written to a new file behind a start offset are found and sorted by whoever
names that offset. A walk over all records never meets just these: it meets an empty record for
every four zeros of the gap, and goes on from there, whether or not a record was written there. -/
theorem written_behind_start {disk : Disk} {path : String} {location : Location}
    {size maxSize : Nat} (hlocate : disk.locateFile path = .ok location)
    (hmissing : disk.find? location = none)
    (hsize : orDefault defaultInitialSize size ≤ orDefault defaultMaxSize maxSize)
    (hmaps : disk.Maps (orDefault defaultMaxSize maxSize))
    (hstart : 2 ≤ start) (hshort : Record.Short payloads)
    (hfits : start + Record.extent payloads ≤ orDefault defaultMaxSize maxSize) :
    ∃ opened made written,
      mapPath disk path size maxSize start = .ok (opened, .ok made) ∧
      made.performAll (payloads.map .appendRecord) =
        .ok (written, (visits start payloads).map fun visit => .ok (.count visit.offset)) ∧
      written.cursor = start + Record.extent payloads ∧
      (∀ stop, written.cursor ≤ stop →
        (∃ last, written.recordRange start stop = .ok ⟨visits start payloads, last⟩) ∧
        ∀ (compare : Comparator) [Std.TransCmp compare] (chunkSize : Nat), 1 ≤ chunkSize →
          offsetSize * chunkSize ≤ Limits.maxExtent → ∃ sorted permuted last,
            written.sortRange compare start stop chunkSize = .ok sorted ∧
            compare.StableSort payloads permuted ∧
            sorted.recordRange start stop = .ok ⟨visits start permuted, last⟩) ∧
      written.records ≠ .ok payloads ∧
      (∀ count, 1 + Record.headerSize * count ≤ start →
        written.records = (written.trail (1 + Record.headerSize * count) written.cursor).map
          fun rest => List.replicate count [] ++ rest.visits.map Visit.payload) ∧
      ∀ count, start = 1 + Record.headerSize * count →
        written.records = .ok (List.replicate count [] ++ payloads) ∧
        ∀ (compare : Comparator) [Std.TransCmp compare], ∃ sorted permuted,
          written.sort compare = .ok sorted ∧
          compare.StableSort (List.replicate count [] ++ payloads) permuted ∧
          sorted.records = .ok permuted := by
  obtain ⟨opened, made, hmade, hblank, hcursor, hbacking⟩ :=
    mapPath_new hlocate hmissing hsize (Nat.le_trans (Nat.le_add_right _ _) hfits) hmaps
  obtain ⟨hwell, -, hmax⟩ := mapPath_made hmade
  have hcursor : made.cursor = start := by omega
  have hbehind : made.BehindGap start [] := by
    refine ⟨⟨hwell, by omega, Memory.Packed.nil _ _, hcursor⟩, fun address _ => ?_⟩
    rw [hblank, Memory.get_blank]
  have haffords : made.Affords (made.cursor + Record.extent payloads) := by
    intro hheap
    rw [hbacking] at hheap
    cases hheap
  obtain ⟨written, hrun, hwritten⟩ :=
    hbehind.appendAll hshort (by rwa [hcursor, hmax]) haffords
  rw [List.nil_append] at hwritten
  rw [hcursor] at hrun
  refine ⟨opened, made, written, hmade, hrun, hwritten.cursor_eq, ?_, hwritten.records_ne hstart,
    fun count hcount => hwritten.records_eq hcount, ?_⟩
  · intro stop hstop
    refine ⟨hwritten.recordRange hstop, fun compare _ chunkSize hchunkSize hmemory => ?_⟩
    obtain ⟨sorted, hsort, hsorted⟩ := hwritten.sortRange compare hstop hchunkSize hmemory
    have hsame : sorted.cursor = written.cursor := by
      rw [hsorted.cursor_eq, hwritten.cursor_eq, Record.extent_perm (compare.sort_perm payloads)]
    obtain ⟨last, hrange⟩ := hsorted.recordRange (hsame ▸ hstop)
    exact ⟨sorted, _, last, hsort, compare.stableSort_sort payloads, hrange⟩
  · intro count hcount
    have hrepresents := hwritten.represents hcount
    refine ⟨hrepresents.records, fun compare _ => ?_⟩
    obtain ⟨sorted, hsort, hsorted⟩ := hrepresents.sortRange compare
      (show 1 ≤ defaultChunkSize by decide) (by decide)
    exact ⟨sorted, _, hsort, compare.stableSort_sort _, hsorted.records⟩

/-- Behind a gap of four zeros there is an empty record in front of the one that was written. -/
theorem written_behind_start_four :
    ∃ opened made written last,
      mapPath (Disk.empty "") "log" 64 1024 5 = .ok (opened, .ok made) ∧
      made.performAll [.appendRecord [97, 98, 99]] = .ok (written, [.ok (.count 5)]) ∧
      written.recordRange 5 12 = .ok ⟨[⟨5, [97, 98, 99]⟩], last⟩ ∧
      written.records = .ok [[], [97, 98, 99]] := by
  have hlocate : (Disk.empty "").locateFile "log" = .ok [.given "log"] := rfl
  have hsize : orDefault defaultInitialSize 64 ≤ orDefault defaultMaxSize 1024 := by decide
  have hshort : Record.Short [[97, 98, 99]] := by unfold Record.Short; decide
  obtain ⟨opened, made, written, hmade, hrun, hcursor, hrange, -, -, haligned⟩ :=
    written_behind_start hlocate rfl hsize (by decide) (show 2 ≤ 5 by decide) hshort (by decide)
  obtain ⟨⟨last, hwalk⟩, -⟩ := hrange 12 (Nat.le_of_eq hcursor)
  obtain ⟨hrecords, -⟩ := haligned 1 rfl
  exact ⟨opened, made, written, last, hmade, hrun, hwalk, hrecords⟩

/-- Behind a single zero, the header that was written is cut in two. -/
theorem written_behind_start_one :
    ∃ opened made written,
      mapPath (Disk.empty "") "log" 64 1024 2 = .ok (opened, .ok made) ∧
      made.performAll [.appendRecord [97, 98, 99]] = .ok (written, [.ok (.count 2)]) ∧
      written.records = .error (.recordPastCapacity 5 64) ∧
      written.sort Comparator.length = .error (.recordPastCapacity 5 64) := by
  let made : Buffer := ⟨.mapped 0 (.path "log"), .blank, 64, 2, 64, 1024⟩
  let disk := ((Disk.empty "").addFile [.given "log"] .empty).1.store 0 ⟨.blank, 64⟩
  have hmade : mapPath (Disk.empty "") "log" 64 1024 2 = .ok (disk, .ok made) := rfl
  have hreplies : (made.performAll [.appendRecord [97, 98, 99]]).map Prod.snd =
      .ok [.ok (.count 2)] := by cbv
  have hrecords : (made.performAll [.appendRecord [97, 98, 99]] >>= fun used => used.1.records) =
      .error (.recordPastCapacity 5 64) := by cbv
  have hsort : (made.performAll [.appendRecord [97, 98, 99]] >>= fun used =>
      used.1.sort Comparator.length) = .error (.recordPastCapacity 5 64) := by cbv
  obtain ⟨⟨written, replies⟩, hrun, rfl⟩ := map_eq_ok.mp hreplies
  rw [hrun] at hrecords hsort
  exact ⟨disk, made, written, hmade, hrun, hrecords, hsort⟩

end Buffer

end RecordBuffer

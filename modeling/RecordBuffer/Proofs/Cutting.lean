import Mathlib.Algebra.Order.Floor.Div
import RecordBuffer.Proofs.Chunks
import RecordBuffer.Proofs.RangeFrame

/-!
# Where chunks start

The sorter follows the chain with a counter and notes the offset of a record whenever the
counter is a multiple of the chunk size. The bounds that it ends with cut the range into
runs of whole records, as many in each as the chunk size says, and at least one in the last.
-/

namespace RecordBuffer

/-! ## Chunks by their numbers -/

section

variable {α : Type} {size first middle last : Nat}

theorem length_extract {items : List α} (hlast : last ≤ items.length) :
    (items.extract first last).length = last - first := by
  rw [List.extract_eq_take_drop, List.length_take, List.length_drop]
  omega

theorem extract_append_extract (items : List α) (hfirst : first ≤ middle) (hlast : middle ≤ last) :
    items.extract first middle ++ items.extract middle last = items.extract first last := by
  obtain ⟨early, rfl⟩ := Nat.exists_eq_add_of_le hfirst
  obtain ⟨late, rfl⟩ := Nat.exists_eq_add_of_le hlast
  rw [List.extract_eq_take_drop, List.extract_eq_take_drop, List.extract_eq_take_drop,
    Nat.add_sub_cancel_left, Nat.add_sub_cancel_left, Nat.add_assoc, Nat.add_sub_cancel_left,
    List.take_add, List.drop_drop]

/-- The first chunk is taken off the front of a list. -/
theorem chunksOf_of_ne_nil (hsize : 1 ≤ size) {items : List α} (hne : items ≠ []) :
    chunksOf size items = items.take size :: chunksOf size (items.drop size) := by
  obtain ⟨item, rest, rfl⟩ := List.exists_cons_of_ne_nil hne
  obtain ⟨size, rfl⟩ := Nat.exists_eq_add_of_le' hsize
  rw [chunksOf, List.take_succ_cons, List.drop_succ_cons, Nat.add_sub_cancel]

theorem drop_chunksOf (hsize : 1 ≤ size) (items : List α) (count : Nat) :
    (chunksOf size items).drop count = chunksOf size (items.drop (count * size)) := by
  induction count generalizing items with
  | zero => rw [Nat.zero_mul, List.drop_zero, List.drop_zero]
  | succ count ih =>
      by_cases hne : items = []
      · subst hne
        rw [List.drop_nil, chunksOf, List.drop_nil]
      · rw [chunksOf_of_ne_nil hsize hne, List.drop_succ_cons, ih, List.drop_drop, Nat.succ_mul,
          Nat.add_comm size]

theorem take_chunksOf (hsize : 1 ≤ size) (items : List α) (count : Nat) :
    (chunksOf size items).take count = chunksOf size (items.take (count * size)) := by
  induction count generalizing items with
  | zero => rw [Nat.zero_mul, List.take_zero, List.take_zero, chunksOf]
  | succ count ih =>
      by_cases hne : items = []
      · subst hne
        rw [List.take_nil, chunksOf, List.take_nil]
      · have htaken : items.take ((count + 1) * size) ≠ [] := by
          rw [Ne, List.take_eq_nil_iff, Nat.mul_eq_zero]
          rintro ((hcount | hnone) | hnil)
          · exact Nat.succ_ne_zero count hcount
          · exact Nat.ne_of_gt hsize hnone
          · exact hne hnil
        rw [chunksOf_of_ne_nil hsize hne, chunksOf_of_ne_nil hsize htaken, List.take_succ_cons, ih,
          List.take_take, List.drop_take, Nat.succ_mul, Nat.add_sub_cancel,
          Nat.min_eq_left (Nat.le_add_left _ _)]

/-- The chunks from one number to another are those of the elements between them. -/
theorem extract_chunksOf (hsize : 1 ≤ size) (items : List α) (first last : Nat) :
    (chunksOf size items).extract first last =
      chunksOf size (items.extract (first * size) (last * size)) := by
  rw [List.extract_eq_take_drop, List.extract_eq_take_drop, drop_chunksOf hsize,
    take_chunksOf hsize, Nat.sub_mul]

/-- The last chunk counts like the others, however short it is. -/
theorem length_chunksOf (hsize : 1 ≤ size) (items : List α) :
    (chunksOf size items).length = items.length ⌈/⌉ size := by
  -- Where the chunks are used up, the elements are.
  refine eq_of_forall_ge_iff fun count => ?_
  rw [ceilDiv_le_iff_le_mul hsize, ← List.drop_eq_nil_iff, drop_chunksOf hsize, Nat.mul_comm size,
    ← List.drop_eq_nil_iff]
  constructor
  · intro hnone
    rw [← flatten_chunksOf size (items.drop (count * size)), hnone, List.flatten_nil]
  · intro hnone
    rw [hnone, chunksOf]

end

/-! ## The walk that notes them -/

/-- A walk that notes where chunks start. -/
structure ChunkWalk where
  /-- Where the next record is read, or zero behind the last one. -/
  next : Nat
  /-- How many records were met. -/
  count : Nat
  noted : List Nat

namespace ChunkWalk

/-- Go on behind a record, which is noted if as many were met before as fill whole chunks. -/
def pass (chunkSize behind : Nat) (walk : ChunkWalk) : ChunkWalk where
  next := behind
  count := walk.count + 1
  noted := if walk.count % chunkSize = 0 then walk.noted ++ [walk.next] else walk.noted

/-- Follow the chain until it ends or reaches the end of the range. -/
def run (buffer : Buffer) (stop chunkSize : Nat) (walk : ChunkWalk) : Except Fault (List Nat) :=
  if walk.next = 0 ∨ stop ≤ walk.next then .ok walk.noted
  else
    match _ : buffer.recordAt walk.next with
    | .error fault => .error fault
    | .ok (_, behind) => (walk.pass chunkSize behind).run buffer stop chunkSize
  termination_by if walk.next = 0 then 0 else stop - walk.next
  decreasing_by
    have hrises := Buffer.recordAt_next ‹buffer.recordAt walk.next = _›
    simp only [pass, Record.headerSize] at hrises ⊢
    grind

variable {buffer : Buffer} {stop chunkSize behind skip : Nat} {walk : ChunkWalk}

/-- Where `skip` more records are to be met before a chunk starts, the counter notes the same
offsets from a record on as `everyNth` keeps. -/
theorem pass_noted (hskip : skip < chunkSize) (hnext : chunkSize ∣ walk.count + skip) :
    ∃ rest, rest < chunkSize ∧ chunkSize ∣ (walk.pass chunkSize behind).count + rest ∧
      ∀ offsets, (walk.pass chunkSize behind).noted ++ everyNth chunkSize rest offsets =
        walk.noted ++ everyNth chunkSize skip (walk.next :: offsets) := by
  cases skip with
  | zero =>
      have hround : walk.count + 1 + (chunkSize - 1) = walk.count + chunkSize := by omega
      refine ⟨chunkSize - 1, by omega, ?_, fun offsets => ?_⟩
      · rw [pass, hround]
        exact (Nat.dvd_add_left (Nat.dvd_refl _)).mpr hnext
      · have hstarts : walk.count % chunkSize = 0 := Nat.mod_eq_zero_of_dvd hnext
        simp only [pass, hstarts, if_true, everyNth, List.append_assoc, List.singleton_append]
  | succ skip =>
      have hinside : ¬ walk.count % chunkSize = 0 := by
        intro hstarts
        have hskipped := (Nat.dvd_add_right (Nat.dvd_of_mod_eq_zero hstarts)).mp hnext
        exact absurd (Nat.eq_zero_of_dvd_of_lt hskipped hskip) (Nat.succ_ne_zero skip)
      refine ⟨skip, by omega, ?_, fun offsets => ?_⟩
      · rwa [pass, Nat.add_assoc, Nat.add_comm 1]
      · simp only [pass, hinside, if_false, everyNth]

/-- The counter leaves out what `everyNth` leaves out, whatever bytes the walk goes over. -/
theorem run_eq (hskip : skip < chunkSize) (hnext : chunkSize ∣ walk.count + skip) :
    walk.run buffer stop chunkSize = (buffer.trail walk.next stop).map fun trail =>
      walk.noted ++ everyNth chunkSize skip (trail.visits.map Visit.offset) := by
  fun_induction run buffer stop chunkSize walk generalizing skip with
  | case1 walk hdone =>
      rw [Buffer.trail, if_pos hdone]
      simp only [Except.map, List.map_nil, everyNth, List.append_nil]
  | case2 walk hgoing fault hread =>
      rw [Buffer.trail_of_lt (by omega) (by omega), hread]
      rfl
  | case3 walk hgoing payload behind hread ih =>
      have hoffset : 1 ≤ walk.next := by omega
      have hstop : walk.next < stop := by omega
      obtain ⟨rest, hrest, hcount, hnoted⟩ := pass_noted hskip hnext
      rw [Buffer.trail_of_lt hoffset hstop, hread, ih hrest hcount]
      simp only [bind, Except.bind, map_map, List.map_cons, hnoted]
      rfl

end ChunkWalk

namespace Buffer

variable {buffer : Buffer} {start stop chunkSize : Nat}

/-- The bounds of the chunks of a range as a walk notes them. A range without records is refused,
and its end is noted behind the last chunk, unless a chunk starts there. -/
def noteBounds (buffer : Buffer) (start stop chunkSize : Nat) : Except Fault (List Nat) := do
  let walk : ChunkWalk := { next := start, count := 0, noted := [] }
  let noted ← walk.run buffer stop chunkSize
  if noted = [] then throw .outOfBounds
  return if noted.getLast? = some stop then noted else noted ++ [stop]

/-- A range that has bytes starts with a record, at least with an empty one. -/
theorem head?_trail {trail : Trail} (hstart : 1 ≤ start) (hrange : start < stop)
    (htrail : buffer.trail start stop = .ok trail) :
    (trail.visits.map Visit.offset).head? = some start := by
  rw [trail_of_lt hstart hrange] at htrail
  obtain ⟨⟨payload, next⟩, -, htrail⟩ := bind_eq_ok.mp htrail
  obtain ⟨rest, -, rfl⟩ := map_eq_ok.mp htrail
  rfl

/-- The walk notes the bounds between which chunks are sorted, whatever bytes it goes over. -/
theorem noteBounds_eq (hstart : 1 ≤ start) (hrange : start < stop) (hchunkSize : 1 ≤ chunkSize) :
    buffer.noteBounds start stop chunkSize = buffer.chunkBounds start stop chunkSize := by
  rw [noteBounds, ChunkWalk.run_eq hchunkSize (Nat.dvd_zero _), chunkBounds]
  cases htrail : buffer.trail start stop with
  | error fault => rfl
  | ok trail =>
  simp only [Except.map, bind, Except.bind, List.nil_append]
  have hhead := head?_trail hstart hrange htrail
  have hbelow : ∀ offset ∈ everyNth chunkSize 0 (trail.visits.map Visit.offset), offset < stop := by
    intro offset hoffset
    obtain ⟨visit, hvisit, rfl⟩ :=
      List.mem_map.mp ((everyNth_sublist chunkSize 0 _).subset hoffset)
    exact ((trail_offsets htrail).2 visit hvisit).2
  have hlast : (everyNth chunkSize 0 (trail.visits.map Visit.offset)).getLast? ≠ some stop := by
    intro hstop
    exact absurd (hbelow stop (List.mem_of_getLast? hstop)) (Nat.lt_irrefl stop)
  have hne : everyNth chunkSize 0 (trail.visits.map Visit.offset) ≠ [] := by
    obtain ⟨offsets, hoffsets⟩ := List.head?_eq_some_iff.mp hhead
    rw [hoffsets, everyNth]
    exact List.cons_ne_nil _ _
  rw [if_neg hne, if_neg hlast]

end Buffer

/-! ## Packed records in chunks -/

/-- Where the record of a number starts among those that are packed from an offset on, counted from
zero. Past the last one this is where they end. -/
def recordOffset (start : Nat) (payloads : List Bytes) (number : Nat) : Nat :=
  start + Record.extent (payloads.take number)

/-- The records of the chunks from one number up to another. -/
def chunkRecords (size : Nat) (payloads : List Bytes) (first last : Nat) : List Bytes :=
  payloads.extract (first * size) (last * size)

section

variable {memory : Memory} {start first last chunk size : Nat} {payloads : List Bytes}

theorem recordOffset_of_length_le (hlast : payloads.length ≤ last) :
    recordOffset start payloads last = start + Record.extent payloads := by
  rw [recordOffset, List.take_of_length_le hlast]

/-- Between two numbers lie the records that have these numbers. -/
theorem recordOffset_extract (hle : first ≤ last) :
    recordOffset start payloads last =
      recordOffset start payloads first + Record.extent (payloads.extract first last) := by
  obtain ⟨count, rfl⟩ := Nat.exists_eq_add_of_le hle
  rw [recordOffset, recordOffset, List.take_add, Record.extent_append, List.extract_eq_take_drop,
    Nat.add_sub_cancel_left, Nat.add_assoc]

theorem Memory.Packed.extract (hpacked : memory.Packed start payloads) (first last : Nat) :
    memory.Packed (recordOffset start payloads first) (payloads.extract first last) := by
  rw [← List.take_append_drop first payloads, append_iff] at hpacked
  have hbehind := hpacked.2
  rw [← List.take_append_drop (last - first) (payloads.drop first), append_iff] at hbehind
  rw [List.extract_eq_take_drop]
  exact hbehind.1

/-- There is a chunk of a number exactly if there is the record that it starts with. -/
theorem lt_ceilDiv (hsize : 1 ≤ size) :
    chunk < payloads.length ⌈/⌉ size ↔ chunk * size < payloads.length := by
  rw [← Nat.not_le, ceilDiv_le_iff_le_mul hsize, Nat.mul_comm, Nat.not_le]

/-- Chunks have records, so their bounds rise. -/
theorem recordOffset_lt (hsize : 1 ≤ size) (hlt : first < last)
    (hlast : last ≤ payloads.length ⌈/⌉ size) :
    recordOffset start payloads (first * size) < recordOffset start payloads (last * size) := by
  have hfirst := (lt_ceilDiv hsize).mp (Nat.lt_of_lt_of_le hlt hlast)
  have hmul := Nat.mul_lt_mul_of_pos_right hlt hsize
  have hne : payloads.extract (first * size) (last * size) ≠ [] := by
    rw [← List.length_pos_iff, List.extract_eq_take_drop, List.length_take, List.length_drop]
    omega
  have hextent := mt Record.extent_eq_zero.mp hne
  rw [recordOffset_extract (Nat.le_of_lt hmul)]
  omega

theorem chunksOf_eq_map (hsize : 1 ≤ size) (payloads : List Bytes) :
    chunksOf size payloads = (List.range (payloads.length ⌈/⌉ size)).map fun chunk =>
      chunkRecords size payloads chunk (chunk + 1) := by
  have hlength := length_chunksOf hsize payloads
  apply List.ext_getElem
  · rw [hlength, List.length_map, List.length_range]
  · intro chunk hchunk _
    have hstart : chunk * size < payloads.length := (lt_ceilDiv hsize).mp (hlength ▸ hchunk)
    have hrest : payloads.drop (chunk * size) ≠ [] := by
      rw [Ne, List.drop_eq_nil_iff]
      omega
    have hhead : (chunksOf size payloads)[chunk]? =
        some ((payloads.drop (chunk * size)).take size) := by
      rw [← List.head?_drop, drop_chunksOf hsize, chunksOf_of_ne_nil hsize hrest, List.head?_cons]
    rw [List.getElem?_eq_getElem hchunk] at hhead
    rw [Option.some.inj hhead, List.getElem_map, List.getElem_range, chunkRecords,
      List.extract_eq_take_drop, Nat.succ_mul, Nat.add_sub_cancel_left]

theorem length_chunkRecords :
    (chunkRecords size payloads chunk (chunk + 1)).length =
      min size (payloads.length - chunk * size) := by
  rw [chunkRecords, List.extract_eq_take_drop, List.length_take, List.length_drop, Nat.succ_mul,
    Nat.add_sub_cancel_left]

/-- A chunk behind which another one starts is full. -/
theorem length_chunkRecords_of_lt (hsize : 1 ≤ size)
    (hchunk : chunk + 1 < payloads.length ⌈/⌉ size) :
    (chunkRecords size payloads chunk (chunk + 1)).length = size := by
  have hbehind := (lt_ceilDiv hsize).mp hchunk
  rw [Nat.succ_mul] at hbehind
  rw [length_chunkRecords, Nat.min_eq_left (by omega)]

theorem length_chunkRecords_pos (hsize : 1 ≤ size) (hchunk : chunk < payloads.length ⌈/⌉ size) :
    1 ≤ (chunkRecords size payloads chunk (chunk + 1)).length := by
  have hstart := (lt_ceilDiv hsize).mp hchunk
  rw [length_chunkRecords]
  exact Nat.le_min.mpr ⟨hsize, by omega⟩

/-- A bound by its number. -/
theorem getD_toArray_chunkOffsets (hsize : 1 ≤ size) (start : Nat)
    (hchunk : chunk ≤ payloads.length ⌈/⌉ size) :
    (chunkOffsets start (chunksOf size payloads)).toArray.getD chunk 0 =
      recordOffset start payloads (chunk * size) := by
  rw [getD_chunkOffsets start (by rwa [length_chunksOf hsize]), take_chunksOf hsize,
    flatten_chunksOf, recordOffset]

/-- Chunk by chunk, the bounds are where the records start whose numbers are multiples of the chunk
size. -/
theorem chunkOffsets_chunksOf (hsize : 1 ≤ size) (start : Nat) (payloads : List Bytes) :
    chunkOffsets start (chunksOf size payloads) =
      (List.range (payloads.length ⌈/⌉ size + 1)).map fun chunk =>
        recordOffset start payloads (chunk * size) := by
  apply List.ext_getElem
  · rw [length_chunkOffsets, length_chunksOf hsize, List.length_map, List.length_range]
  · intro chunk hchunk _
    have hle : chunk ≤ payloads.length ⌈/⌉ size := by
      rw [length_chunkOffsets, length_chunksOf hsize] at hchunk
      exact Nat.le_of_lt_succ hchunk
    have hoffset := getD_toArray_chunkOffsets hsize start hle
    rw [Array.getD_eq_getD_getElem?, List.getElem?_toArray, List.getElem?_eq_getElem hchunk,
      Option.getD_some] at hoffset
    rw [hoffset, List.getElem_map, List.getElem_range]

theorem getElem?_chunkOffsets {offset : Nat} (hsize : 1 ≤ size) :
    (chunkOffsets start (chunksOf size payloads))[chunk]? = some offset ↔
      chunk ≤ payloads.length ⌈/⌉ size ∧ offset = recordOffset start payloads (chunk * size) := by
  rw [chunkOffsets_chunksOf hsize, List.getElem?_map, Option.map_eq_some_iff]
  constructor
  · rintro ⟨number, hnumber, rfl⟩
    obtain ⟨hchunk, rfl⟩ := List.getElem?_eq_some_iff.mp hnumber
    rw [List.length_range] at hchunk
    rw [List.getElem_range]
    exact ⟨Nat.le_of_lt_succ hchunk, rfl⟩
  · rintro ⟨hchunk, rfl⟩
    exact ⟨chunk, List.getElem?_range (Nat.lt_succ_of_le hchunk), rfl⟩

end

/-- Bounds that cut packed records into chunks of a fixed number of records, the last of which may
be smaller. -/
structure Cuts (memory : Memory) (start stop chunkSize : Nat) (payloads : List Bytes)
    (bounds : List Nat) : Prop where
  /-- Chunks start at the records whose numbers are multiples of the chunk size. -/
  bounds_eq : bounds = (List.range (payloads.length ⌈/⌉ chunkSize)).map (fun chunk =>
    recordOffset start payloads (chunk * chunkSize)) ++ [stop]
  length_eq : bounds.length = payloads.length ⌈/⌉ chunkSize + 1
  head_eq : bounds.head? = some start
  ascending : bounds.Pairwise (· < ·)
  /-- Between two neighbouring bounds lie the records of one chunk and nothing else. -/
  chunk_eq : ∀ chunk low high, bounds[chunk]? = some low → bounds[chunk + 1]? = some high →
    memory.slice low (high - low) =
      Record.encodeAll (chunkRecords chunkSize payloads chunk (chunk + 1))
  /-- Every record is in one chunk. -/
  flatten_eq : ((List.range (payloads.length ⌈/⌉ chunkSize)).map fun chunk =>
    chunkRecords chunkSize payloads chunk (chunk + 1)).flatten = payloads
  /-- A chunk is full unless it is the last one, and that one is not empty. -/
  length_full : ∀ chunk, chunk + 1 < payloads.length ⌈/⌉ chunkSize →
    (chunkRecords chunkSize payloads chunk (chunk + 1)).length = chunkSize
  length_last : ∀ chunk, chunk + 1 = payloads.length ⌈/⌉ chunkSize →
    1 ≤ (chunkRecords chunkSize payloads chunk (chunk + 1)).length ∧
      (chunkRecords chunkSize payloads chunk (chunk + 1)).length ≤ chunkSize

/-- The bounds of the chunks of packed records cut them. -/
theorem cuts_of_packed {memory : Memory} {start size : Nat} {payloads : List Bytes}
    (hsize : 1 ≤ size) (hpacked : memory.Packed start payloads) :
    Cuts memory start (start + Record.extent payloads) size payloads
      (chunkOffsets start (chunksOf size payloads)) where
  bounds_eq := by
    have hend : payloads.length ≤ (payloads.length ⌈/⌉ size) * size :=
      Nat.le_of_not_lt fun hlt => Nat.lt_irrefl _ ((lt_ceilDiv hsize).mpr hlt)
    rw [chunkOffsets_chunksOf hsize, List.range_succ, List.map_append, List.map_singleton,
      recordOffset_of_length_le hend]
  length_eq := by rw [length_chunkOffsets, length_chunksOf hsize]
  head_eq := by
    obtain ⟨rest, hrest⟩ := chunkOffsets_eq_cons start (chunksOf size payloads)
    rw [hrest, List.head?_cons]
  ascending := by
    rw [chunkOffsets_chunksOf hsize, List.pairwise_map]
    refine List.pairwise_lt_range.imp_of_mem fun _ hlast hlt => ?_
    exact recordOffset_lt hsize hlt (Nat.le_of_lt_succ (List.mem_range.mp hlast))
  chunk_eq := by
    intro chunk low high hlow hhigh
    obtain ⟨-, rfl⟩ := (getElem?_chunkOffsets hsize).mp hlow
    obtain ⟨-, rfl⟩ := (getElem?_chunkOffsets hsize).mp hhigh
    have hle : chunk * size ≤ (chunk + 1) * size := Nat.mul_le_mul_right size (Nat.le_succ chunk)
    rw [recordOffset_extract hle, Nat.add_sub_cancel_left, ← Record.length_encodeAll]
    exact (hpacked.extract (chunk * size) ((chunk + 1) * size)).holds
  flatten_eq := by rw [← chunksOf_eq_map hsize, flatten_chunksOf]
  length_full := fun chunk hchunk => length_chunkRecords_of_lt hsize hchunk
  length_last := by
    intro chunk hlast
    refine ⟨length_chunkRecords_pos hsize (by omega), ?_⟩
    rw [length_chunkRecords]
    exact Nat.min_le_left _ _

end RecordBuffer

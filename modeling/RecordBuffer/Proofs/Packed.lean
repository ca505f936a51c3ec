import RecordBuffer.Buffer.Chain
import RecordBuffer.Proofs.Span

/-!
# Records packed in memory

Payloads lie packed from an address on if their encodings stand there back to
back. A walk over packed records that are below the cursor meets exactly these
payloads, each at the offset that the sizes in front of it add up to.
-/

namespace RecordBuffer

namespace Record

/-- How many bytes payloads occupy as records. -/
def extent : List Bytes → Nat
  | [] => 0
  | payload :: rest => size payload.length + extent rest

@[simp]
theorem extent_nil : extent [] = 0 := rfl

@[simp]
theorem extent_cons (payload : Bytes) (rest : List Bytes) :
    extent (payload :: rest) = size payload.length + extent rest := rfl

@[simp]
theorem extent_append (left right : List Bytes) :
    extent (left ++ right) = extent left + extent right := by
  induction left with
  | nil => rw [List.nil_append, extent_nil, Nat.zero_add]
  | cons payload rest ih => rw [List.cons_append, extent_cons, extent_cons, ih, Nat.add_assoc]

theorem extent_perm {left right : List Bytes} (hperm : left.Perm right) :
    extent left = extent right := by
  induction hperm with
  | nil => rfl
  | cons payload _ ih => rw [extent_cons, extent_cons, ih]
  | swap first second rest =>
      simp only [extent_cons]
      omega
  | trans _ _ ihfirst ihsecond => exact ihfirst.trans ihsecond

@[simp]
theorem encodeAll_nil : encodeAll [] = [] := rfl

@[simp]
theorem encodeAll_cons (payload : Bytes) (rest : List Bytes) :
    encodeAll (payload :: rest) = encode payload ++ encodeAll rest := rfl

@[simp]
theorem encodeAll_append (left right : List Bytes) :
    encodeAll (left ++ right) = encodeAll left ++ encodeAll right :=
  List.flatMap_append

theorem size_pos (length : Nat) : 0 < size length := by
  rw [size, headerSize]
  omega

@[simp]
theorem length_encodeAll (payloads : List Bytes) :
    (encodeAll payloads).length = extent payloads := by
  induction payloads with
  | nil => rfl
  | cons payload rest ih => rw [encodeAll_cons, List.length_append, length_encode, ih, extent_cons]

/-- Every record has bytes, so no record is missed where there are none. -/
theorem extent_eq_zero {payloads : List Bytes} : extent payloads = 0 ↔ payloads = [] := by
  cases payloads with
  | nil => simp
  | cons payload rest =>
      have hpos := size_pos payload.length
      rw [extent_cons]
      constructor
      · omega
      · intro heq
        cases heq

/-- The payloads are short enough to have headers. -/
def Short (payloads : List Bytes) : Prop :=
  ∀ payload ∈ payloads, payload.length < Limits.payloadBound

theorem short_nil : Short [] := by
  intro payload hmem
  cases hmem

theorem short_cons {payload : Bytes} {rest : List Bytes} :
    Short (payload :: rest) ↔ payload.length < Limits.payloadBound ∧ Short rest :=
  List.forall_mem_cons

theorem short_append {left right : List Bytes} :
    Short (left ++ right) ↔ Short left ∧ Short right :=
  List.forall_mem_append

theorem Short.perm {left right : List Bytes} (hshort : Short left) (hperm : right.Perm left) :
    Short right :=
  fun payload hmem => hshort payload (hperm.mem_iff.mp hmem)

end Record

namespace Memory

variable {memory before after : Memory} {start : Nat}

theorem length?_slice (memory : Memory) (start : Nat) :
    Record.length? (memory.slice start Record.headerSize) = some (memory.payloadLength start) := rfl

theorem payloadLength_of_holds {payload : Bytes} (hshort : payload.length < Limits.payloadBound)
    (hholds : memory.Holds start (Record.encode payload)) :
    memory.payloadLength start = payload.length := by
  have hheader : memory.slice start Record.headerSize = Record.header payload.length :=
    (holds_append.mp hholds).1
  have hlength := Record.length?_header_append hshort []
  rw [List.append_nil, ← hheader, length?_slice] at hlength
  exact Option.some.inj hlength

theorem payload_of_holds {payload : Bytes} (hholds : memory.Holds start (Record.encode payload)) :
    memory.slice (start + Record.headerSize) payload.length = payload :=
  (holds_append.mp hholds).2

theorem record_of_holds {payload : Bytes} (hholds : memory.Holds start (Record.encode payload)) :
    memory.slice start (Record.size payload.length) = Record.encode payload := by
  have hrecord := hholds
  rw [Holds, Record.length_encode] at hrecord
  exact hrecord

/-- Payloads lie as records back to back from an address on. -/
structure Packed (memory : Memory) (start : Nat) (payloads : List Bytes) : Prop where
  short : Record.Short payloads
  holds : memory.Holds start (Record.encodeAll payloads)

namespace Packed

variable {payloads left right : List Bytes}

theorem nil (memory : Memory) (start : Nat) : memory.Packed start [] :=
  ⟨Record.short_nil, holds_nil memory start⟩

theorem append_iff :
    memory.Packed start (left ++ right) ↔
      memory.Packed start left ∧ memory.Packed (start + Record.extent left) right := by
  constructor
  · rintro ⟨hshort, hholds⟩
    rw [Record.short_append] at hshort
    rw [Record.encodeAll_append, holds_append, Record.length_encodeAll] at hholds
    exact ⟨⟨hshort.1, hholds.1⟩, hshort.2, hholds.2⟩
  · rintro ⟨hleft, hright⟩
    refine ⟨Record.short_append.mpr ⟨hleft.short, hright.short⟩, ?_⟩
    rw [Record.encodeAll_append, holds_append, Record.length_encodeAll]
    exact ⟨hleft.holds, hright.holds⟩

theorem cons_iff {payload : Bytes} {rest : List Bytes} :
    memory.Packed start (payload :: rest) ↔
      payload.length < Limits.payloadBound ∧ memory.Holds start (Record.encode payload) ∧
        memory.Packed (start + Record.size payload.length) rest := by
  constructor
  · rintro ⟨hshort, hholds⟩
    rw [Record.short_cons] at hshort
    rw [Record.encodeAll_cons, holds_append, Record.length_encode] at hholds
    exact ⟨hshort.1, hholds.1, hshort.2, hholds.2⟩
  · rintro ⟨hpayload, hholds, hrest⟩
    refine ⟨Record.short_cons.mpr ⟨hpayload, hrest.short⟩, ?_⟩
    rw [Record.encodeAll_cons, holds_append, Record.length_encode]
    exact ⟨hholds, hrest.holds⟩

/-- Packed records survive every change beside them. -/
theorem sameOutside {low high : Nat} (hpacked : before.Packed start payloads)
    (hsame : SameOutside before after low high)
    (hdisjoint : start + Record.extent payloads ≤ low ∨ high ≤ start) :
    after.Packed start payloads := by
  refine ⟨hpacked.short, hsame.holds ?_ hpacked.holds⟩
  rwa [Record.length_encodeAll]

theorem write (memory : Memory) (start : Nat) (hshort : Record.Short payloads) :
    (memory.write start (Record.encodeAll payloads)).Packed start payloads :=
  ⟨hshort, holds_write memory start _⟩

end Packed

/-- A span that is filled by whole records. -/
theorem packed_of_slice {payloads : List Bytes} {stop : Nat} (hshort : Record.Short payloads)
    (hstop : stop = start + Record.extent payloads)
    (hslice : memory.slice start (stop - start) = Record.encodeAll payloads) :
    memory.Packed start payloads := by
  refine ⟨hshort, ?_⟩
  rwa [hstop, Nat.add_sub_cancel_left, ← Record.length_encodeAll] at hslice

end Memory

/-- The visits to payloads that are packed from an offset on. -/
def visits (offset : Nat) : List Bytes → List Visit
  | [] => []
  | payload :: rest => ⟨offset, payload⟩ :: visits (offset + Record.size payload.length) rest

theorem map_payload_visits (offset : Nat) (payloads : List Bytes) :
    (visits offset payloads).map Visit.payload = payloads := by
  induction payloads generalizing offset with
  | nil => rfl
  | cons payload rest ih => rw [visits, List.map_cons, ih]

theorem visits_append (offset : Nat) (left right : List Bytes) :
    visits offset (left ++ right) =
      visits offset left ++ visits (offset + Record.extent left) right := by
  induction left generalizing offset with
  | nil => rfl
  | cons payload rest ih =>
      rw [List.cons_append, visits, ih, visits, Record.extent_cons, ← Nat.add_assoc,
        List.cons_append]

theorem mem_visits_append {offset : Nat} (front : List Bytes) (payload : Bytes)
    (rest : List Bytes) :
    ⟨offset + Record.extent front, payload⟩ ∈ visits offset (front ++ payload :: rest) := by
  rw [visits_append]
  exact List.mem_append_right _ List.mem_cons_self

/-- A visited record ends where the packed records end or in front of it. -/
theorem le_of_mem_visits {offset : Nat} {payloads : List Bytes} {visit : Visit}
    (hvisit : visit ∈ visits offset payloads) :
    visit.offset + Record.size visit.payload.length ≤ offset + Record.extent payloads := by
  induction payloads generalizing offset with
  | nil => cases hvisit
  | cons payload rest ih =>
      rw [Record.extent_cons]
      rcases List.mem_cons.mp hvisit with rfl | hvisit
      · exact Nat.add_le_add_left (Nat.le_add_right _ _) offset
      · have hbound := ih hvisit
        omega

theorem lt_of_mem_visits {offset : Nat} {payloads : List Bytes} {visit : Visit}
    (hvisit : visit ∈ visits offset payloads) : visit.offset < offset + Record.extent payloads := by
  have hbound := le_of_mem_visits hvisit
  have hpos := Record.size_pos visit.payload.length
  omega

/-- The last of the visited records ends where they all do. -/
theorem stop_of_getLast?_visits {offset : Nat} {payloads : List Bytes} {last : Visit}
    (hlast : (visits offset payloads).getLast? = some last) :
    last.offset + Record.size last.payload.length = offset + Record.extent payloads := by
  induction payloads generalizing offset with
  | nil => cases hlast
  | cons payload rest ih =>
      cases rest with
      | nil =>
          cases hlast
          rfl
      | cons next others =>
          rw [visits, visits, List.getLast?_cons_cons, ← visits] at hlast
          rw [ih hlast, Record.extent_cons payload, Nat.add_assoc]

/-- What is visited lies in memory. -/
theorem Memory.Packed.holds_of_mem_visits {memory : Memory} {offset : Nat} {payloads : List Bytes}
    (hpacked : memory.Packed offset payloads) {visit : Visit}
    (hvisit : visit ∈ visits offset payloads) :
    visit.payload.length < Limits.payloadBound ∧
      memory.Holds visit.offset (Record.encode visit.payload) := by
  induction payloads generalizing offset with
  | nil => cases hvisit
  | cons payload rest ih =>
      obtain ⟨hshort, hholds, hrest⟩ := Memory.Packed.cons_iff.mp hpacked
      rcases List.mem_cons.mp hvisit with rfl | hvisit
      · exact ⟨hshort, hholds⟩
      · exact ih hrest hvisit

/-- Records that are visited one behind the other are packed if all of them lie in memory. -/
theorem Memory.packed_of_visits {memory : Memory} {offset : Nat} {payloads : List Bytes}
    (hvisits : ∀ visit ∈ visits offset payloads, visit.payload.length < Limits.payloadBound ∧
      memory.Holds visit.offset (Record.encode visit.payload)) : memory.Packed offset payloads := by
  induction payloads generalizing offset with
  | nil => exact Packed.nil memory offset
  | cons payload rest ih =>
      obtain ⟨⟨hshort, hholds⟩, hrest⟩ := List.forall_mem_cons.mp hvisits
      exact Packed.cons_iff.mpr ⟨hshort, hholds, ih hrest⟩

namespace Buffer

variable {buffer : Buffer} {offset : Nat}

/-- Records that make up the written bytes are packed from the first offset up to the cursor. -/
theorem packed_of_bytes {payloads : List Bytes} (hcursor : 1 ≤ buffer.cursor)
    (hshort : Record.Short payloads) (hbytes : Record.encodeAll payloads = buffer.bytes) :
    buffer.memory.Packed 1 payloads ∧ buffer.cursor = 1 + Record.extent payloads := by
  have hextent : buffer.cursor = 1 + Record.extent payloads := by
    have hlength := congrArg List.length hbytes
    rw [Record.length_encodeAll, Buffer.bytes, Memory.length_slice] at hlength
    omega
  exact ⟨Memory.packed_of_slice hshort hextent hbytes.symm, hextent⟩

/-- A record whose header lies below the cursor is read whole. -/
theorem recordAt_of_header {payload : Bytes} (hoffset : 1 ≤ offset)
    (hshort : payload.length < Limits.payloadBound)
    (hholds : buffer.memory.Holds offset (Record.encode payload))
    (hheader : offset + Record.headerSize ≤ buffer.cursor)
    (hfits : offset + Record.size payload.length ≤ buffer.capacity) :
    buffer.recordAt offset = .ok (payload,
      if buffer.cursor ≤ offset + Record.size payload.length then 0
      else offset + Record.size payload.length) := by
  have hlength := Memory.payloadLength_of_holds hshort hholds
  have hpayload := Memory.payload_of_holds hholds
  rw [Record.size, ← Nat.add_assoc] at hfits ⊢
  rw [recordAt, if_neg (by omega)]
  simp only [hlength, hpayload, if_neg (Nat.not_lt_of_le hfits)]

/-- A record that lies below the cursor is read, and the next one is named unless the cursor is
reached. -/
theorem recordAt_of_holds {payload : Bytes} (hoffset : 1 ≤ offset)
    (hshort : payload.length < Limits.payloadBound)
    (hholds : buffer.memory.Holds offset (Record.encode payload))
    (hcursor : offset + Record.size payload.length ≤ buffer.cursor)
    (hcapacity : buffer.cursor ≤ buffer.capacity) :
    buffer.recordAt offset = .ok (payload,
      if buffer.cursor = offset + Record.size payload.length then 0
      else offset + Record.size payload.length) := by
  have hheader : offset + Record.headerSize ≤ buffer.cursor := by
    rw [Record.size] at hcursor
    omega
  have hnext : buffer.cursor ≤ offset + Record.size payload.length ↔
      buffer.cursor = offset + Record.size payload.length := by omega
  rw [recordAt_of_header hoffset hshort hholds hheader (Nat.le_trans hcursor hcapacity)]
  simp only [hnext]

/-- A walk that has not reached its bound reads one record and goes on behind it. -/
theorem trail_of_lt {bound : Nat} (hoffset : 1 ≤ offset) (hbound : offset < bound) :
    buffer.trail offset bound =
      buffer.recordAt offset >>= fun (payload, next) =>
        (buffer.trail next bound).map fun rest => ⟨⟨offset, payload⟩ :: rest.visits, rest.stop⟩ := by
  rw [trail, if_neg (by omega)]
  split
  next fault hread =>
    rw [hread]
    rfl
  next payload next hread =>
    simp only [hread, bind, Except.bind]
    split
    next hend =>
      rw [hend, trail, if_pos (Or.inl rfl)]
      rfl
    next => cases buffer.trail next bound <;> rfl

/-- One step of a walk. -/
theorem trail_of_recordAt {bound next : Nat} {payload : Bytes} (hoffset : 1 ≤ offset)
    (hbound : offset < bound) (hread : buffer.recordAt offset = .ok (payload, next)) :
    buffer.trail offset bound =
      if next = 0 then .ok ⟨[⟨offset, payload⟩], 0⟩
      else (buffer.trail next bound).map fun rest =>
        ⟨⟨offset, payload⟩ :: rest.visits, rest.stop⟩ := by
  rw [trail_of_lt hoffset hbound, hread]
  split
  next hend =>
    subst hend
    simp only [bind, Except.bind]
    rw [trail, if_pos (Or.inl rfl)]
    rfl
  next => rfl

/-- A walk over packed records meets all of them if its bound lies behind the last offset. It
stops behind the last record, or at zero if that is where the cursor stands. -/
theorem trail_of_packed {payloads : List Bytes} {bound : Nat} (hoffset : 1 ≤ offset)
    (hpacked : buffer.memory.Packed offset payloads)
    (hcursor : offset + Record.extent payloads ≤ buffer.cursor)
    (hcapacity : buffer.cursor ≤ buffer.capacity)
    (hinside : ∀ visit ∈ visits offset payloads, visit.offset < bound)
    (hbound : bound ≤ offset + Record.extent payloads) :
    buffer.trail offset bound = .ok ⟨visits offset payloads,
      if payloads ≠ [] ∧ buffer.cursor = offset + Record.extent payloads then 0
      else offset + Record.extent payloads⟩ := by
  induction payloads generalizing offset with
  | nil =>
      rw [Record.extent_nil, Nat.add_zero] at hbound ⊢
      rw [trail, if_pos (Or.inr hbound), visits, if_neg (fun hne => hne.1 rfl)]
  | cons payload rest ih =>
      obtain ⟨hshort, hholds, hrest⟩ := Memory.Packed.cons_iff.mp hpacked
      obtain ⟨hhere, hinside⟩ := List.forall_mem_cons.mp hinside
      have hpos := Record.size_pos payload.length
      rw [Record.extent_cons] at hcursor hbound ⊢
      have hread := recordAt_of_holds hoffset hshort hholds (by omega) hcapacity
      rw [trail_of_recordAt hoffset hhere hread]
      -- Where a record ends at the cursor there is no room for another, as every record has bytes.
      by_cases hlast : buffer.cursor = offset + Record.size payload.length
      · obtain rfl : rest = [] := Record.extent_eq_zero.mp (by omega)
        rw [if_pos hlast, if_pos rfl, if_pos ⟨List.cons_ne_nil _ _, by simpa using hlast⟩]
        rfl
      · have htail := ih (by omega) hrest (by omega) hinside (by omega)
        rw [if_neg hlast, if_neg (by omega), htail, Except.map, visits]
        congr 2
        by_cases hempty : rest = []
        · subst hempty
          simp [hlast]
        · simp [hempty, Nat.add_assoc]

/-- A walk over records that are packed up to the cursor meets all of them. -/
theorem exists_trail_of_packed {payloads : List Bytes} (hoffset : 1 ≤ offset)
    (hpacked : buffer.memory.Packed offset payloads)
    (hcursor : buffer.cursor = offset + Record.extent payloads)
    (hcapacity : buffer.cursor ≤ buffer.capacity) :
    ∃ last, buffer.trail offset buffer.cursor = .ok ⟨visits offset payloads, last⟩ :=
  ⟨_, trail_of_packed hoffset hpacked (Nat.le_of_eq hcursor.symm) hcapacity
    (fun _ hvisit => hcursor ▸ lt_of_mem_visits hvisit) (Nat.le_of_eq hcursor)⟩

/-- A walk passes over packed records and goes on behind them. -/
theorem trail_over_packed {payloads : List Bytes} (hoffset : 1 ≤ offset)
    (hpacked : buffer.memory.Packed offset payloads)
    (hcursor : offset + Record.extent payloads ≤ buffer.cursor)
    (hcapacity : buffer.cursor ≤ buffer.capacity) :
    (buffer.trail offset buffer.cursor).map Trail.visits =
      (buffer.trail (offset + Record.extent payloads) buffer.cursor).map fun rest =>
        visits offset payloads ++ rest.visits := by
  induction payloads generalizing offset with
  | nil => rfl
  | cons payload rest ih =>
      obtain ⟨hshort, hholds, hrest⟩ := Memory.Packed.cons_iff.mp hpacked
      rw [Record.extent_cons, ← Nat.add_assoc] at hcursor ⊢
      have hpos := Record.size_pos payload.length
      have hread := recordAt_of_holds hoffset hshort hholds (by omega) hcapacity
      rw [trail_of_recordAt hoffset (by omega) hread]
      by_cases hlast : buffer.cursor = offset + Record.size payload.length
      · obtain rfl : rest = [] := Record.extent_eq_zero.mp (by omega)
        rw [if_pos hlast, if_pos rfl, ← hlast, Record.extent_nil, Nat.add_zero, trail,
          if_pos (Or.inr (Nat.le_refl _))]
        rfl
      · have hwalk := congrArg (Except.map (⟨offset, payload⟩ :: ·)) (ih (by omega) hrest hcursor)
        rw [map_map, map_map] at hwalk
        rw [if_neg hlast, if_neg (by omega), map_map]
        exact hwalk

end Buffer

end RecordBuffer

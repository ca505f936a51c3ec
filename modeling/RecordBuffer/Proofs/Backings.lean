import RecordBuffer.Proofs.RecordList
import RecordBuffer.Proofs.Written

/-!
# Memory of its own or a file

Where a buffer keeps its bytes shows only behind the cursor, where growth leaves
zeros in memory of a buffer's own and old bytes in a mapped file. Operations
that do not look there report the same on either, fault at the same step, and
leave the same sizes and the same bytes below the cursor.
-/

namespace RecordBuffer.Buffer

variable {left right left' right' : Buffer} {count length : Nat} {bytes payload : Bytes}

/-! ## Sizes -/

/-- Buffers of the same sizes. Memory of their own can be had up to the maximum size. -/
structure SameSizes (left right : Buffer) : Prop where
  cursor_eq : left.cursor = right.cursor
  capacity_eq : left.capacity = right.capacity
  maxSize_eq : left.maxSize = right.maxSize
  maxSize_le : left.maxSize ≤ Limits.maxExtent

theorem extend_ok (buffer : Buffer) {capacity : Nat} (hcapacity : capacity ≤ Limits.maxExtent) :
    ∃ memory, buffer.extend capacity =
      .ok { buffer with capacity, backed := capacity, memory } := by
  unfold extend
  split
  next => exact ⟨_, rfl⟩
  next =>
    rw [if_neg (Nat.not_lt_of_le hcapacity)]
    exact ⟨_, rfl⟩

namespace SameSizes

theorem rewritten {start stop low high : Nat} (hsizes : left.SameSizes right)
    (hleft : left.RewrittenIn left' start stop) (hright : right.RewrittenIn right' low high) :
    left'.SameSizes right' := by
  obtain ⟨_, rfl, -⟩ := hleft
  obtain ⟨_, rfl, -⟩ := hright
  exact ⟨hsizes.cursor_eq, hsizes.capacity_eq, hsizes.maxSize_eq, hsizes.maxSize_le⟩

/-- No capacity is refused to one of two buffers only. -/
theorem grow (hsizes : left.SameSizes right) (request : Nat) :
    Lockstep SameSizes (left.grow request) (right.grow request) := by
  have hgrown : left.grownCapacity request = right.grownCapacity request := by
    simp only [grownCapacity, hsizes.capacity_eq, hsizes.maxSize_eq]
  have hcapacity : left.grownCapacity request ≤ Limits.maxExtent :=
    Nat.le_trans (Nat.min_le_right _ _) hsizes.maxSize_le
  unfold Buffer.grow
  rw [← hgrown, ← hsizes.cursor_eq, ← hsizes.capacity_eq, ← hsizes.maxSize_eq]
  split
  next => exact .fault _
  split
  next => exact .ok hsizes
  split
  next => exact .ok hsizes
  next =>
    obtain ⟨leftMemory, hleft⟩ := extend_ok left hcapacity
    obtain ⟨rightMemory, hright⟩ := extend_ok right hcapacity
    rw [hleft, hright]
    exact .ok ⟨hsizes.cursor_eq, rfl, hsizes.maxSize_eq, hsizes.maxSize_le⟩

theorem allocate (hsizes : left.SameSizes right) (count : Nat) :
    Lockstep (fun first other => first.1 = other.1 ∧ first.2.SameSizes other.2)
      (left.allocate count) (right.allocate count) := by
  refine (hsizes.grow count).bind fun grown other _ _ hgrown => .ok ⟨hgrown.cursor_eq, ?_⟩
  exact ⟨congrArg (· + count) hgrown.cursor_eq, hgrown.capacity_eq, hgrown.maxSize_eq,
    hgrown.maxSize_le⟩

theorem allocateRecord (hsizes : left.SameSizes right) (length : Nat) :
    Lockstep (fun first other => first.1 = other.1 ∧ first.2.SameSizes other.2)
      (left.allocateRecord length) (right.allocateRecord length) := by
  refine (Lockstep.of_eq (Eq.refl (Record.checkedSize length))).bind ?_
  rintro size _ - - rfl
  refine (hsizes.grow size).bind fun grown other _ _ hgrown => ?_
  refine (hgrown.allocate Record.headerSize).bind ?_
  rintro ⟨offset, headed⟩ ⟨_, otherHeaded⟩ - - ⟨rfl, hheaded⟩
  simp only
  split
  next => exact .fault _
  next =>
    have hwritten := hheaded.rewritten
      (headed.overwrite_rewritten offset (Record.header length))
      (otherHeaded.overwrite_rewritten offset (Record.header length))
    refine (hwritten.allocate length).bind ?_
    rintro ⟨_, filled⟩ ⟨_, otherFilled⟩ - - ⟨-, hfilled⟩
    exact .ok ⟨rfl, hfilled⟩

end SameSizes

/-! ## Reading below the cursor -/

/-- No payload that a walk meets reaches past the cursor. -/
def WalksBelow (buffer : Buffer) (offset bound : Nat) : Prop :=
  ∀ trail, buffer.trail offset bound = .ok trail → ∀ visit ∈ trail.visits,
    visit.payload = [] ∨ visit.offset + Record.size visit.payload.length ≤ buffer.cursor

/-- Well-formed buffers of the same sizes with the same bytes below the cursor. -/
structure Alike (left right : Buffer) : Prop where
  left_wellFormed : left.WellFormed
  right_wellFormed : right.WellFormed
  sizes : left.SameSizes right
  written : left.SameWritten right

/-- A record that leads to another one lies below the cursor. -/
theorem recordAt_below {buffer : Buffer} {offset next : Nat}
    (hread : buffer.recordAt offset = .ok (payload, next)) (hnext : next ≠ 0) :
    offset + Record.size payload.length ≤ buffer.cursor := by
  unfold recordAt at hread
  split at hread
  next =>
    cases hread
    exact absurd rfl hnext
  simp only at hread
  split at hread
  next => cases hread
  split at hread
  next =>
    cases hread
    exact absurd rfl hnext
  next hcursor =>
    cases hread
    rw [Memory.length_slice, Record.size]
    omega

/-- What is met behind the first record of a walk is met by the walk. -/
theorem WalksBelow.tail {buffer : Buffer} {offset next bound : Nat}
    (hbelow : buffer.WalksBelow offset bound) (hoffset : offset ≠ 0) (hbound : offset < bound)
    (hread : buffer.recordAt offset = .ok (payload, next)) (hnext : next ≠ 0) :
    buffer.WalksBelow next bound := by
  intro rest hrest visit hvisit
  have hwalk := trail_of_recordAt (Nat.pos_of_ne_zero hoffset) hbound hread
  rw [if_neg hnext, hrest] at hwalk
  exact hbelow _ hwalk visit (List.mem_cons_of_mem _ hvisit)

namespace Alike

variable {offset bound : Nat}

theorem recordAt_eq (halike : left.Alike right)
    (hbelow : ∀ payload next, left.recordAt offset = .ok (payload, next) →
      payload = [] ∨ offset + Record.size payload.length ≤ left.cursor) :
    left.recordAt offset = right.recordAt offset := by
  obtain ⟨-, -, hsizes, hwritten⟩ := halike
  unfold recordAt at hbelow ⊢
  rw [← hsizes.cursor_eq, ← hsizes.capacity_eq]
  split
  next => rfl
  next hheader =>
  simp only [hheader, if_false] at hbelow ⊢
  have hlength : left.memory.payloadLength offset = right.memory.payloadLength offset := by
    simp only [Record.headerSize] at hheader
    simp only [Memory.payloadLength]
    rw [hwritten.get_eq _ (by omega), hwritten.get_eq _ (by omega), hwritten.get_eq _ (by omega),
      hwritten.get_eq _ (by omega)]
  rw [← hlength]
  split
  next => rfl
  next hfits =>
  simp only [hfits, if_false] at hbelow
  have hpayload := hbelow _ _ rfl
  rw [← List.length_eq_zero_iff, Memory.length_slice, Record.size] at hpayload
  rw [hwritten.slice (by omega)]

theorem recordAt_ok {next : Nat} (halike : left.Alike right)
    (hread : left.recordAt offset = .ok (payload, next))
    (hbelow : payload = [] ∨ offset + Record.size payload.length ≤ left.cursor) :
    right.recordAt offset = .ok (payload, next) := by
  rw [← halike.recordAt_eq, hread]
  intro other behind hother
  rw [hread] at hother
  cases hother
  exact hbelow

/-- Only the last record of a walk can reach past the cursor, so that is the one in question. -/
theorem trail_eq (halike : left.Alike right) (hbelow : left.WalksBelow offset bound) :
    left.trail offset bound = right.trail offset bound := by
  fun_induction Buffer.trail left offset bound with
  | case1 offset hdone => rw [Buffer.trail, if_pos hdone]
  | case2 offset hbound fault hread =>
      have hsame : left.recordAt offset = right.recordAt offset :=
        halike.recordAt_eq fun payload next hok => by
          rw [hread] at hok
          cases hok
      rw [trail_of_lt (by omega) (by omega), ← hsame, hread]
      rfl
  | case3 offset hbound payload hread =>
      have hwalk := trail_of_recordAt (by omega) (by omega : offset < bound) hread
      have hright := halike.recordAt_ok hread (hbelow _ hwalk _ List.mem_cons_self)
      rw [trail_of_recordAt (by omega) (by omega) hright, if_pos rfl]
  | case4 offset hbound payload next hread hnext fault hrest ih =>
      have hright := halike.recordAt_ok hread (Or.inr (recordAt_below hread hnext))
      have htail := ih (hbelow.tail (by omega) (by omega) hread hnext)
      rw [trail_of_recordAt (by omega) (by omega) hright, if_neg hnext, ← htail, hrest]
      rfl
  | case5 offset hbound payload next hread hnext rest hrest ih =>
      have hright := halike.recordAt_ok hread (Or.inr (recordAt_below hread hnext))
      have htail := ih (hbelow.tail (by omega) (by omega) hread hnext)
      rw [trail_of_recordAt (by omega) (by omega) hright, if_neg hnext, ← htail, hrest]
      rfl

theorem records_eq (halike : left.Alike right) (hbelow : left.WalksBelow 1 left.cursor) :
    left.records = right.records := by
  unfold records
  rw [← halike.sizes.cursor_eq, halike.trail_eq hbelow]

/-! ## Writing -/

/-- The same bytes were added to both. -/
theorem advanced (halike : left.Alike right) (hsizes : left'.SameSizes right')
    (hleft : left.Advanced left' bytes.length) (hright : right.Advanced right' bytes.length)
    (hleftHolds : left'.memory.Holds left.cursor bytes)
    (hrightHolds : right'.memory.Holds right.cursor bytes) : left'.Alike right' :=
  ⟨hleft.wellFormed, hright.wellFormed, hsizes,
    halike.written.advanced hleft hright hleftHolds hrightHolds⟩

theorem grow (halike : left.Alike right) (request : Nat) :
    Lockstep Alike (left.grow request) (right.grow request) := by
  refine (halike.sizes.grow request).imp fun leftGrown rightGrown hleft hright hsizes => ?_
  have hleftAdvanced := (grow_advanced halike.left_wellFormed hleft).1
  have hrightAdvanced := (grow_advanced halike.right_wellFormed hright).1
  exact @advanced _ _ _ _ [] halike hsizes hleftAdvanced hrightAdvanced
    (Memory.holds_nil _ _) (Memory.holds_nil _ _)

/-- The same bytes were put at the same place in both, and below the capacity. -/
theorem overwrite (halike : left.Alike right)
    (hfits : offset + bytes.length ≤ left.capacity) :
    (left.overwrite offset bytes).Alike (right.overwrite offset bytes) := by
  have hrightFits := hfits
  rw [halike.sizes.capacity_eq] at hrightFits
  exact ⟨(overwrite_evolved halike.left_wellFormed hfits).wellFormed,
    (overwrite_evolved halike.right_wellFormed hrightFits).wellFormed,
    halike.sizes.rewritten (left.overwrite_rewritten offset bytes)
      (right.overwrite_rewritten offset bytes),
    halike.written.overwrite offset bytes⟩

/-- Allocated bytes differ until they are filled. -/
theorem filled (halike : left.Alike right) (hsizes : left'.SameSizes right')
    (hleft : left.allocate bytes.length = .ok (offset, left'))
    (hright : right.allocate bytes.length = .ok (offset, right')) :
    (left'.overwrite offset bytes).Alike (right'.overwrite offset bytes) := by
  have hleftAppend : left.append bytes = .ok (left'.overwrite offset bytes) :=
    bind_eq_ok.mpr ⟨_, hleft, rfl⟩
  have hrightAppend : right.append bytes = .ok (right'.overwrite offset bytes) :=
    bind_eq_ok.mpr ⟨_, hright, rfl⟩
  obtain ⟨hleftAdvanced, hleftHolds⟩ := append_advanced halike.left_wellFormed hleftAppend
  obtain ⟨hrightAdvanced, hrightHolds⟩ := append_advanced halike.right_wellFormed hrightAppend
  exact halike.advanced (hsizes.rewritten (overwrite_rewritten _ _ _) (overwrite_rewritten _ _ _))
    hleftAdvanced hrightAdvanced hleftHolds hrightHolds

theorem append (halike : left.Alike right) (bytes : Bytes) :
    Lockstep Alike (left.append bytes) (right.append bytes) := by
  refine (halike.sizes.allocate bytes.length).bind ?_
  rintro ⟨offset, leftAllocated⟩ ⟨_, rightAllocated⟩ hleft hright ⟨rfl, hsizes⟩
  exact .ok (halike.filled hsizes hleft hright)

/-- The payload of an allocated record differs until it is filled. -/
theorem filledRecord (halike : left.Alike right) (hsizes : left'.SameSizes right')
    (hleft : left.allocateRecord payload.length = .ok (offset, left'))
    (hright : right.allocateRecord payload.length = .ok (offset, right')) :
    (left'.overwrite (offset + Record.headerSize) payload).Alike
      (right'.overwrite (offset + Record.headerSize) payload) := by
  have hleftAppend : left.appendRecord payload =
      .ok (offset, left'.overwrite (offset + Record.headerSize) payload) :=
    bind_eq_ok.mpr ⟨_, hleft, rfl⟩
  have hrightAppend : right.appendRecord payload =
      .ok (offset, right'.overwrite (offset + Record.headerSize) payload) :=
    bind_eq_ok.mpr ⟨_, hright, rfl⟩
  obtain ⟨-, -, hleftAdvanced, hleftHolds⟩ :=
    appendRecord_advanced halike.left_wellFormed hleftAppend
  obtain ⟨-, -, hrightAdvanced, hrightHolds⟩ :=
    appendRecord_advanced halike.right_wellFormed hrightAppend
  rw [← Record.length_encode] at hleftAdvanced hrightAdvanced
  exact halike.advanced (hsizes.rewritten (overwrite_rewritten _ _ _) (overwrite_rewritten _ _ _))
    hleftAdvanced hrightAdvanced hleftHolds hrightHolds

theorem appendRecord (halike : left.Alike right) (payload : Bytes) :
    Lockstep (fun first other => first.1 = other.1 ∧ first.2.Alike other.2)
      (left.appendRecord payload) (right.appendRecord payload) := by
  refine (halike.sizes.allocateRecord payload.length).bind ?_
  rintro ⟨offset, leftAllocated⟩ ⟨_, rightAllocated⟩ hleft hright ⟨rfl, hsizes⟩
  exact .ok ⟨rfl, halike.filledRecord hsizes hleft hright⟩

theorem storeRecords (halike : left.Alike right) (records : List Bytes) :
    Lockstep (fun first other => first.1.Alike other.1 ∧ first.2 = other.2)
      (left.storeRecords records) (right.storeRecords records) := by
  induction records generalizing left right with
  | nil => exact .ok ⟨halike, rfl⟩
  | cons record rest ih =>
      unfold Buffer.storeRecords
      rw [← halike.sizes.maxSize_eq, ← halike.sizes.cursor_eq]
      split
      next => exact .ok ⟨halike, rfl⟩
      next =>
        refine (halike.appendRecord record).bind ?_
        rintro ⟨_, leftAppended⟩ ⟨_, rightAppended⟩ - - ⟨-, happended⟩
        exact ih happended

theorem storeStream (halike : left.Alike right) (stream : Stream) (delimiter : UInt8) :
    Lockstep (fun first other => first.1.Alike other.1 ∧ first.2 = other.2)
      (left.storeStream stream delimiter) (right.storeStream stream delimiter) := by
  refine (halike.storeRecords _).bind ?_
  rintro ⟨leftStored, refused⟩ ⟨rightStored, _⟩ - - ⟨hstored, rfl⟩
  simp only
  split <;> exact .ok ⟨hstored, rfl⟩

theorem sortRange {payloads : List Bytes} {start stop : Nat} (halike : left.Alike right)
    (hwhole : left.WholeRecords start stop payloads) (compare : Comparator) (chunkSize : Nat) :
    Lockstep Alike (left.sortRange compare start stop chunkSize)
      (right.sortRange compare start stop chunkSize) := by
  obtain ⟨hleftWell, hrightWell, hsizes, hwritten⟩ := halike
  refine (hwritten.sortRange hleftWell.cursor_le_capacity hrightWell.cursor_le_capacity hwhole
    compare chunkSize).imp fun leftSorted rightSorted hleft hright hsorted => ?_
  exact ⟨(sortRange_evolved hleftWell hleft).wellFormed,
    (sortRange_evolved hrightWell hright).wellFormed,
    hsizes.rewritten (sortRange_rewritten hleft) (sortRange_rewritten hright), hsorted⟩

end Alike

/-! ## Operations -/

/-- Operations that do not look behind the cursor. Allocated bytes are filled, and what is sorted
are whole records. -/
inductive Confined (buffer : Buffer) : Operation → Prop where
  | flush : Confined buffer .flush
  | reset : Confined buffer .reset
  | grow (request : Nat) : Confined buffer (.grow request)
  | append (bytes : Bytes) : Confined buffer (.append bytes)
  | allocate (count : Nat) (bytes : Bytes) : Confined buffer (.allocate count (some bytes))
  | allocateRecord (length : Nat) (bytes : Bytes) :
      Confined buffer (.allocateRecord length (some bytes))
  | appendRecord (payload : Bytes) : Confined buffer (.appendRecord payload)
  | bytes : Confined buffer .bytes
  | first (count : Nat) (below : count ≤ buffer.cursor) : Confined buffer (.first count)
  | readSpan (count offset : Nat) (below : offset + count ≤ buffer.cursor) :
      Confined buffer (.readSpan count offset)
  | writeSpan (bytes : Bytes) (offset : Nat) : Confined buffer (.writeSpan bytes offset)
  | placeRecord (payload : Bytes) (offset : Nat) : Confined buffer (.placeRecord payload offset)
  | recordAt (offset : Nat) (below : ∀ payload next,
      buffer.recordAt offset = .ok (payload, next) →
        payload = [] ∨ offset + Record.size payload.length ≤ buffer.cursor) :
      Confined buffer (.recordAt offset)
  | records (below : buffer.WalksBelow 1 buffer.cursor) : Confined buffer .records
  | recordRange (start stop : Nat) (below : buffer.WalksBelow start (min stop buffer.cursor)) :
      Confined buffer (.recordRange start stop)
  | sort (compare : Comparator) (payloads : List Bytes)
      (whole : buffer.WholeRecords 1 buffer.cursor payloads) : Confined buffer (.sort compare)
  | sortRange (compare : Comparator) (start stop chunkSize : Nat) (payloads : List Bytes)
      (whole : buffer.WholeRecords start stop payloads) :
      Confined buffer (.sortRange compare start stop chunkSize)
  | storeStream (stream : Stream) (delimiter : UInt8) :
      Confined buffer (.storeStream stream delimiter)
  | delimited (order : SortOrder) (delimiter : UInt8)
      (below : buffer.WalksBelow 1 buffer.cursor) : Confined buffer (.delimited order delimiter)

/-- Operations one after another, none of which looks behind the cursor. -/
def ConfinedAll (buffer : Buffer) : List Operation → Prop
  | [] => True
  | operation :: rest => buffer.Confined operation ∧
      ∀ after result, buffer.perform operation = .ok (after, result) → after.ConfinedAll rest

/-- What two operations left and replied is alike, apart from what was in an allocated span. -/
def Agree (first other : Buffer × Except StorageError Reply) : Prop :=
  first.1.Alike other.1 ∧ first.2.map Reply.settled = other.2.map Reply.settled

theorem Alike.replyAllocated {offset start : Nat}
    (hfilled : bytes.length = count →
      (left.overwrite start bytes).Alike (right.overwrite start bytes)) :
    Lockstep Agree (left.replyAllocated offset start count (some bytes))
      (right.replyAllocated offset start count (some bytes)) := by
  have hfill : Lockstep Alike (left.fill start count (some bytes))
      (right.fill start count (some bytes)) := by
    simp only [Buffer.fill]
    split
    next hlength => exact .ok (hfilled hlength)
    next => exact .fault _
  exact hfill.bind fun _ _ _ _ halike => .ok ⟨halike, rfl⟩

/-- What happens to one of two buffers happens to the other. -/
theorem Alike.perform {operation : Operation} (halike : left.Alike right)
    (hconfined : left.Confined operation) :
    Lockstep Agree (left.perform operation) (right.perform operation) := by
  have hcursor := halike.sizes.cursor_eq
  have hcapacity := halike.sizes.capacity_eq
  cases hconfined with
  | flush => exact .ok ⟨halike, rfl⟩
  | reset =>
      have hleft := (reset_evolved halike.left_wellFormed).wellFormed
      have hright := (reset_evolved halike.right_wellFormed).wellFormed
      refine .ok ⟨⟨hleft, hright, ⟨rfl, hcapacity, halike.sizes.maxSize_eq,
        halike.sizes.maxSize_le⟩, rfl, ?_⟩, rfl⟩
      intro address haddress
      exact halike.written.get_eq address
        (Nat.lt_of_lt_of_le haddress halike.left_wellFormed.one_le_cursor)
  | grow request =>
      exact (halike.grow request).bind fun _ _ _ _ hgrown => .ok ⟨hgrown, rfl⟩
  | append bytes =>
      exact (halike.append bytes).bind fun _ _ _ _ happended => .ok ⟨happended, rfl⟩
  | allocate count bytes =>
      refine (halike.sizes.allocate count).bind ?_
      rintro ⟨offset, leftAllocated⟩ ⟨_, rightAllocated⟩ hleft hright ⟨rfl, hsizes⟩
      refine replyAllocated ?_
      rintro rfl
      exact halike.filled hsizes hleft hright
  | allocateRecord length bytes =>
      refine (halike.sizes.allocateRecord length).bind ?_
      rintro ⟨offset, leftAllocated⟩ ⟨_, rightAllocated⟩ hleft hright ⟨rfl, hsizes⟩
      refine replyAllocated ?_
      rintro rfl
      exact halike.filledRecord hsizes hleft hright
  | appendRecord payload =>
      refine (halike.appendRecord payload).bind ?_
      rintro ⟨offset, leftAppended⟩ ⟨_, rightAppended⟩ - - ⟨rfl, happended⟩
      exact .ok ⟨happended, rfl⟩
  | bytes =>
      simp only [Buffer.perform, ← halike.written.bytes_eq]
      exact .ok ⟨halike, rfl⟩
  | first count hbelow =>
      have hslice : left.memory.slice 0 count = right.memory.slice 0 count :=
        halike.written.slice (Or.inr (by omega))
      have hfirst : left.first count = right.first count := by
        simp only [Buffer.first, ← hcapacity, hslice]
      simp only [Buffer.perform, ← hfirst]
      exact .ok ⟨halike, rfl⟩
  | readSpan count offset hbelow =>
      have hread : left.readSpan count offset = right.readSpan count offset := by
        simp only [Buffer.readSpan, checkSpan, ← hcapacity, halike.written.slice (Or.inr hbelow)]
      simp only [Buffer.perform, ← hread]
      exact .ok ⟨halike, rfl⟩
  | writeSpan bytes offset =>
      simp only [Buffer.perform, Buffer.writeSpan, checkSpan, ← hcapacity]
      by_cases hfits : offset + bytes.length ≤ left.capacity
      · simp only [hfits, if_true]
        exact .ok ⟨halike.overwrite hfits, rfl⟩
      · simp only [hfits, if_false]
        exact .ok ⟨halike, rfl⟩
  | placeRecord payload offset =>
      simp only [Buffer.perform, Buffer.placeRecord, checkSpan, ← hcapacity]
      by_cases hfits : offset + Record.size payload.length ≤ left.capacity
      · simp only [hfits, if_true]
        split
        next => exact .fault _
        next => exact .ok ⟨halike.overwrite (by rwa [Record.length_encode]), rfl⟩
      · simp only [hfits, if_false]
        exact .ok ⟨halike, rfl⟩
  | recordAt offset hbelow =>
      exact (Lockstep.of_eq (halike.recordAt_eq hbelow)).bind fun _ _ _ _ hread =>
        .ok ⟨halike, by rw [hread]⟩
  | records hbelow =>
      exact (Lockstep.of_eq (halike.records_eq hbelow)).bind fun _ _ _ _ hread =>
        .ok ⟨halike, by rw [hread]⟩
  | recordRange start stop hbelow =>
      have hrange : left.recordRange start stop = right.recordRange start stop := by
        unfold Buffer.recordRange
        rw [← hcursor, halike.trail_eq hbelow]
      exact (Lockstep.of_eq hrange).bind fun _ _ _ _ hread => .ok ⟨halike, by rw [hread]⟩
  | sort compare payloads hwhole =>
      have hsort := halike.sortRange hwhole compare defaultChunkSize
      simp only [Buffer.perform, Buffer.sort, ← hcursor]
      exact hsort.bind fun _ _ _ _ hsorted => .ok ⟨hsorted, rfl⟩
  | sortRange compare start stop chunkSize payloads hwhole =>
      exact (halike.sortRange hwhole compare chunkSize).bind fun _ _ _ _ hsorted =>
        .ok ⟨hsorted, rfl⟩
  | storeStream stream delimiter =>
      refine (halike.storeStream stream delimiter).bind ?_
      rintro ⟨leftStored, stored⟩ ⟨rightStored, _⟩ - - ⟨hstored, rfl⟩
      exact .ok ⟨hstored, rfl⟩
  | delimited order delimiter hbelow =>
      have hdelimited : left.delimited order delimiter = right.delimited order delimiter := by
        unfold Buffer.delimited
        rw [halike.records_eq hbelow]
      exact (Lockstep.of_eq hdelimited).bind fun _ _ _ _ hread => .ok ⟨halike, by rw [hread]⟩

/-- What happens to one of two buffers in a run happens to the other, up to any step. -/
theorem Alike.performAll {operations done : List Operation} (halike : left.Alike right)
    (hconfined : left.ConfinedAll operations) (hdone : done <+: operations) :
    Lockstep (fun first other => first.1.Alike other.1 ∧
        first.2.map (Except.map Reply.settled) = other.2.map (Except.map Reply.settled))
      (left.performAll done) (right.performAll done) := by
  induction done generalizing left right operations with
  | nil => exact .ok ⟨halike, rfl⟩
  | cons operation done ih =>
      obtain ⟨rest, rfl⟩ := hdone
      obtain ⟨hfirst, hrest⟩ := hconfined
      refine (halike.perform hfirst).bind ?_
      rintro ⟨leftMiddle, result⟩ ⟨rightMiddle, other⟩ hleft - ⟨hmiddle, hreply⟩
      refine (ih hmiddle (hrest _ _ hleft) (List.prefix_append done rest)).bind ?_
      rintro ⟨leftAfter, results⟩ ⟨rightAfter, others⟩ - - ⟨hafter, hreplies⟩
      exact .ok ⟨hafter, by rw [List.map_cons, List.map_cons, hreply, hreplies]⟩

/-! ## Buffers as they are made -/

/-- New buffers are blank, and their sizes follow from those asked for. -/
theorem create_alike {disk other leftDisk rightDisk : Disk} {size maxSize : Nat}
    (hleft : Buffer.create disk size maxSize .heap = .ok (leftDisk, .ok left))
    (hright : Buffer.create other size maxSize .mapped = .ok (rightDisk, .ok right)) :
    left.Alike right := by
  have hleftWell := (create_made hleft).1
  have hrightWell := (create_made hright).1
  obtain ⟨-, leftBacking, rfl, -⟩ := create_cases hleft
  obtain ⟨-, rightBacking, rfl, ⟨hheap, -⟩ | ⟨-, -, hmaps, -⟩⟩ := create_cases hright
  · cases hheap
  · exact ⟨hleftWell, hrightWell, ⟨rfl, rfl, rfl, hmaps.1⟩, rfl, fun _ _ => rfl⟩

/-- An edit of a list of payloads does not look behind the records. -/
theorem Represents.confined {buffer : Buffer} {payloads edited : List Bytes} {operation : Operation}
    {reply : Except StorageError Reply} (hrepresents : buffer.Represents payloads)
    (hedit : Edit buffer.maxSize payloads operation reply edited) : buffer.Confined operation := by
  cases hedit with
  | append payload => exact .appendRecord payload
  | allocate payload => exact .allocateRecord payload.length payload
  | grow request => exact .grow request
  | reset => exact .reset
  | sort compare =>
      refine .sort compare payloads ⟨hrepresents.packed.short, ?_⟩
      rw [Nat.min_self, hrepresents.cursor_eq, Nat.add_sub_cancel_left, ← Record.length_encodeAll]
      exact hrepresents.packed.holds
  | replace front rest old new => exact .placeRecord new (1 + Record.extent front)
  | store stream delimiter => exact .storeStream stream delimiter

theorem Represents.confinedAll {buffer : Buffer} {payloads edited : List Bytes}
    {operations : List Operation} {replies : List (Except StorageError Reply)}
    (hrepresents : buffer.Represents payloads)
    (hedits : Edits buffer.maxSize payloads operations replies edited) :
    buffer.ConfinedAll operations := by
  generalize hmax : buffer.maxSize = maxSize at hedits
  induction hedits generalizing buffer with
  | nil => trivial
  | cons hfirst _ ih =>
      subst hmax
      refine ⟨hrepresents.confined hfirst, fun after result hstep => ?_⟩
      exact ih (hrepresents.perform hfirst hstep).1
        (perform_evolved hrepresents.wellFormed hstep).maxSize_eq

/-- A buffer of its own memory and a mapped one, made with the same sizes, go through the same
operations in step. At every step both end in the same fault or both go on, with the same replies
and errors, the same sizes, the same bytes below the cursor, and the same answers to whatever does
not look behind it. -/
theorem same_below_cursor {disk other heapDisk mappedDisk : Disk} {size maxSize : Nat}
    {heap mapped : Buffer} {operations done : List Operation}
    (hheap : Buffer.create disk size maxSize .heap = .ok (heapDisk, .ok heap))
    (hmapped : Buffer.create other size maxSize .mapped = .ok (mappedDisk, .ok mapped))
    (hconfined : heap.ConfinedAll operations) (hdone : done <+: operations) :
    Lockstep (fun first second =>
        first.2.map (Except.map Reply.settled) = second.2.map (Except.map Reply.settled) ∧
        (first.1.cursor = second.1.cursor ∧ first.1.capacity = second.1.capacity ∧
          first.1.maxSize = second.1.maxSize) ∧
        first.1.bytes = second.1.bytes ∧
        ∀ operation, first.1.Confined operation →
          Lockstep (fun found answer =>
              found.2.map Reply.settled = answer.2.map Reply.settled)
            (first.1.perform operation) (second.1.perform operation))
      (heap.performAll done) (mapped.performAll done) := by
  refine ((create_alike hheap hmapped).performAll hconfined hdone).imp ?_
  rintro ⟨left, results⟩ ⟨right, answers⟩ - - ⟨halike, hreplies⟩
  refine ⟨hreplies, ⟨halike.sizes.cursor_eq, halike.sizes.capacity_eq, halike.sizes.maxSize_eq⟩,
    halike.written.bytes_eq, ?_⟩
  intro operation hoperation
  exact (halike.perform hoperation).imp fun _ _ _ _ hagree => hagree.2

/-- Growth after a reset keeps old bytes in a mapped file only, and no record shows them. -/
theorem same_below_cursor_after_reset :
    let operations : List Operation :=
      [.appendRecord [1, 2], .appendRecord [3, 3, 3], .reset, .grow 30, .appendRecord [5, 5],
        .appendRecord [4], .sort Comparator.length]
    ∃ heap mapped disk heapAfter mappedAfter heapReplies mappedReplies,
      Buffer.create (Disk.empty "") 8 64 .heap = .ok (Disk.empty "", .ok heap) ∧
      Buffer.create (Disk.empty "") 8 64 .mapped = .ok (disk, .ok mapped) ∧
      heap.performAll operations = .ok (heapAfter, heapReplies) ∧
      mapped.performAll operations = .ok (mappedAfter, mappedReplies) ∧
      heapAfter.bytes = mappedAfter.bytes ∧ heapAfter.capacity = mappedAfter.capacity ∧
      heapAfter.memory.get 12 = 0 ∧ mappedAfter.memory.get 12 = 3 := by
  intro operations
  let heap : Buffer := ⟨.heap, .blank, 8, 1, 8, 64⟩
  let mapped : Buffer := ⟨.mapped 0 (.temporary 0), .blank, 8, 1, 8, 64⟩
  have hheap : Buffer.create (Disk.empty "") 8 64 .heap = .ok (Disk.empty "", .ok heap) := rfl
  obtain ⟨disk, hmapped⟩ : ∃ disk, Buffer.create (Disk.empty "") 8 64 .mapped =
      .ok (disk, .ok mapped) := ⟨_, rfl⟩
  obtain ⟨⟨heapAfter, heapReplies⟩, hheapRun⟩ : ∃ outcome,
      heap.performAll operations = .ok outcome := exists_eq_ok_of_isOk (by cbv)
  obtain ⟨⟨mappedAfter, mappedReplies⟩, hmappedRun⟩ : ∃ outcome,
      mapped.performAll operations = .ok outcome := exists_eq_ok_of_isOk (by cbv)
  have hsorted : Comparator.length.sort [[5, 5], [4]] = [[4], [5, 5]] := by cbv
  have hstable : Comparator.length.StableSort [[5, 5], [4]] [[4], [5, 5]] :=
    hsorted ▸ Comparator.length.stableSort_sort _
  have hedits : Edits 64 [] operations _ [[4], [5, 5]] :=
    .cons (.append [1, 2]) <| .cons (.append [3, 3, 3]) <| .cons .reset <| .cons (.grow 30) <|
      .cons (.append [5, 5]) <| .cons (.append [4]) <|
      .cons (.sort Comparator.length _ hstable) <| .nil _
  have hfresh : Fresh heap := .create _ _ _ _ _ hheap
  have hsame := same_below_cursor hheap hmapped (hfresh.represents.confinedAll hedits)
    (List.prefix_refl operations)
  rw [hheapRun, hmappedRun] at hsame
  obtain ⟨-, ⟨-, hcapacity, -⟩, hbytes, -⟩ := hsame.of_ok
  have hheapStale : (heap.performAll operations).map (fun after => after.1.memory.get 12) =
      .ok 0 := by cbv
  have hmappedStale : (mapped.performAll operations).map (fun after => after.1.memory.get 12) =
      .ok 3 := by cbv
  rw [hheapRun] at hheapStale
  rw [hmappedRun] at hmappedStale
  exact ⟨heap, mapped, disk, heapAfter, mappedAfter, heapReplies, mappedReplies, hheap, hmapped,
    hheapRun, hmappedRun, hbytes, hcapacity, Except.ok.inj hheapStale, Except.ok.inj hmappedStale⟩

end RecordBuffer.Buffer

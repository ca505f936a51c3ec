import Mathlib
import RecordBuffer.Proofs.MergeLoop
import RecordBuffer.Proofs.Rearranging

/-!
# Sorting through a scratch buffer

The sorter has one scratch buffer for all chunks and all merges. The records of a
chunk are appended to it in their new order and copied back from it, and the left
run of every merge is staged in it, from its beginning each time. As long as
memory can be had for what is staged, this is the same sort, refusals included.
-/

namespace RecordBuffer.Buffer

variable {buffer scratch staged : Buffer} {arrange : List Visit → List Visit}
  {start stop : Nat}

/-- A computation that uses a scratch buffer does what a plain one does, and the scratch buffer
serves again. -/
def Through (staging : Except Fault (Buffer × Buffer)) (plain : Except Fault Buffer) : Prop :=
  ∃ staged, staged.Scratch ∧ staging = plain.map (·, staged)

namespace Through

theorem ok (hscratch : scratch.Scratch) : Through (.ok (buffer, scratch)) (.ok buffer) :=
  ⟨scratch, hscratch, rfl⟩

theorem error (hscratch : scratch.Scratch) (fault : Fault) :
    Through (.error fault) (.error fault) :=
  ⟨scratch, hscratch, rfl⟩

theorem bind {staging : Except Fault (Buffer × Buffer)} {plain : Except Fault Buffer}
    {next : Buffer × Buffer → Except Fault (Buffer × Buffer)} {rest : Buffer → Except Fault Buffer}
    (hfirst : Through staging plain)
    (hrest : ∀ after staged, plain = .ok after → staged.Scratch →
      Through (next (after, staged)) (rest after)) :
    Through (staging >>= next) (plain >>= rest) := by
  obtain ⟨staged, hstaged, rfl⟩ := hfirst
  cases plain with
  | error fault => exact error hstaged fault
  | ok after => exact hrest after staged rfl hstaged

/-- Without the scratch buffer the results are the same. -/
theorem map_fst {staging : Except Fault (Buffer × Buffer)} {plain : Except Fault Buffer}
    (hthrough : Through staging plain) : staging.map Prod.fst = plain := by
  obtain ⟨staged, -, rfl⟩ := hthrough
  cases plain <;> rfl

end Through

/-- All scratch buffers have memory for the same sizes. -/
theorem Scratch.affords {size smaller : Nat} (hscratch : scratch.Scratch) (hstaged : staged.Scratch)
    (haffords : scratch.Affords size) (hsmaller : smaller ≤ size) : staged.Affords smaller := by
  intro _
  have hmemory := haffords hscratch.heap
  rw [hscratch.unlimited] at hmemory
  rw [hstaged.unlimited]
  omega

/-! ## Chunks -/

/-- Append the whole records that were met to a scratch buffer. -/
def stageRecords (buffer scratch : Buffer) (visited : List Visit) : Except Fault Buffer :=
  visited.foldlM (fun staged visit => do staged.append (← buffer.recordBytes visit.offset)) scratch

/-- Put the records from `start` to `stop` in some order in a scratch buffer and copy them back. -/
def arrangeChunkThrough (buffer scratch : Buffer) (arrange : List Visit → List Visit)
    (start stop : Nat) : Except Fault (Buffer × Buffer) := do
  let trail ← buffer.trail start stop
  let staged ← buffer.stageRecords scratch.reset (arrange trail.visits)
  let bytes := staged.bytes
  if bytes.length ≠ stop - start then throw (.chunkResized bytes.length (stop - start))
  return (buffer.overwrite start bytes, staged)

/-- How many bytes are read where a record was met. -/
def lengthMet (buffer : Buffer) (visit : Visit) : Nat :=
  let length := Record.size (buffer.memory.payloadLength visit.offset)
  if buffer.capacity < visit.offset + length then 0 else length

/-- A whole record is read, or nothing is. -/
theorem recordBytes_cases (buffer : Buffer) (visit : Visit) :
    (∃ bytes, buffer.recordBytes visit.offset = .ok bytes ∧
        bytes.length = buffer.lengthMet visit) ∨
      buffer.recordBytes visit.offset = .error .outOfBounds := by
  unfold recordBytes lengthMet
  simp only
  split
  next => exact Or.inr rfl
  next hinside =>
    rw [not_or] at hinside
    rw [if_neg hinside.2]
    exact Or.inl ⟨_, rfl, Memory.length_slice _ _ _⟩

/-- The records that are met on a walk do not overlap, so together they fit below the capacity. -/
theorem trail_lengthMet {offset bound : Nat} {trail : Trail} (hoffset : offset ≤ buffer.capacity)
    (htrail : buffer.trail offset bound = .ok trail) :
    offset + (trail.visits.map buffer.lengthMet).sum ≤ buffer.capacity := by
  fun_induction Buffer.trail buffer offset bound generalizing trail with
  | case1 offset hdone =>
      cases htrail
      exact hoffset
  | case2 => cases htrail
  | case3 offset hbound payload hread =>
      cases htrail
      simp only [List.map_cons, List.map_nil, List.sum_cons, List.sum_nil, lengthMet]
      split <;> omega
  | case4 => cases htrail
  | case5 offset hbound payload next hread hnext rest hrest ih =>
      cases htrail
      obtain ⟨hbehind, hcapacity⟩ : next = offset + Record.size (buffer.memory.payloadLength offset) ∧
          next ≤ buffer.capacity := by
        unfold recordAt at hread
        simp only at hread
        split at hread
        next =>
          cases hread
          exact absurd rfl hnext
        split at hread
        next => cases hread
        next hinside =>
          cases hread
          rw [Record.size]
          split at hnext
          next => exact absurd rfl hnext
          next hmore =>
            rw [if_neg hmore]
            omega
      have htail := ih hcapacity hrest
      have hlength : buffer.lengthMet ⟨offset, payload⟩ ≤ next - offset := by
        simp only [lengthMet]
        split <;> omega
      simp only [List.map_cons, List.sum_cons]
      omega

/-- Records are appended one by one as they are read. -/
theorem stageRecords_eq (visited : List Visit) (hscratch : scratch.Scratch)
    (haffords : scratch.Affords (scratch.cursor + (visited.map buffer.lengthMet).sum)) :
    (∃ records staged,
        (visited.mapM fun visit => buffer.recordBytes visit.offset) = .ok records ∧
        buffer.stageRecords scratch visited = .ok staged ∧
        scratch.FollowedBy staged records.flatten ∧ staged.Scratch) ∨
      ∃ fault, (visited.mapM fun visit => buffer.recordBytes visit.offset) = .error fault ∧
        buffer.stageRecords scratch visited = .error fault := by
  unfold stageRecords
  induction visited generalizing scratch with
  | nil => exact Or.inl ⟨[], scratch, rfl, rfl, .refl hscratch.wellFormed, hscratch⟩
  | cons visit rest ih =>
      rw [List.mapM_cons, List.foldlM_cons]
      obtain ⟨bytes, hread, hlength⟩ | hread := buffer.recordBytes_cases visit
      · rw [List.map_cons, List.sum_cons, ← hlength, ← Nat.add_assoc] at haffords
        obtain ⟨middle, happend, hfollowed, hmiddle⟩ :=
          hscratch.append (hscratch.affords hscratch haffords (Nat.le_add_right _ _))
        have hrest := hscratch.affords hmiddle haffords (Nat.le_refl _)
        rw [← hfollowed.cursor_eq] at hrest
        obtain ⟨records, staged, hrecords, hstage, hbehind, hstaged⟩ | ⟨fault, hfault, hrefused⟩ :=
          ih hmiddle hrest
        · refine Or.inl ⟨bytes :: records, staged, ?_, ?_, hfollowed.trans hbehind, hstaged⟩
          · simp only [hread, hrecords, bind, Except.bind, pure, Except.pure]
          · simpa only [hread, happend, bind, Except.bind] using hstage
        · refine Or.inr ⟨fault, ?_, ?_⟩
          · simp only [hread, hfault, bind, Except.bind]
          · simpa only [hread, happend, bind, Except.bind] using hrefused
      · exact Or.inr ⟨.outOfBounds, by simp only [hread, bind, Except.bind],
          by simp only [hread, bind, Except.bind]⟩

/-- A chunk that is put in order through a scratch buffer is put in order. -/
theorem arrangeChunkThrough_eq (harrange : Rearranges arrange) (hstart : start ≤ buffer.capacity)
    (hscratch : scratch.Scratch) (haffords : scratch.Affords (1 + buffer.capacity)) :
    Through (buffer.arrangeChunkThrough scratch arrange start stop)
      (buffer.arrangeChunk arrange start stop) := by
  unfold arrangeChunkThrough arrangeChunk
  cases htrail : buffer.trail start stop with
  | error fault => exact .error hscratch fault
  | ok trail =>
      have hmet := trail_lengthMet hstart htrail
      have hsum : ((arrange trail.visits).map buffer.lengthMet).sum =
          (trail.visits.map buffer.lengthMet).sum :=
        ((harrange trail.visits).map buffer.lengthMet).sum_nat
      have hroom := hscratch.affords hscratch.reset haffords
        (show scratch.reset.cursor + ((arrange trail.visits).map buffer.lengthMet).sum ≤ _ by
          rw [hsum]
          simp only [Buffer.reset]
          omega)
      simp only [bind, Except.bind]
      obtain ⟨records, staged, hrecords, hstage, hfollowed, hstaged⟩ | ⟨fault, hfault, hrefused⟩ :=
        stageRecords_eq _ hscratch.reset hroom
      · simp only [hrecords, hstage, hfollowed.bytes_eq]
        split
        next => exact .error hscratch _
        next => exact .ok hstaged
      · simp only [hfault, hrefused]
        exact .error hscratch fault

/-- Put every chunk between two neighbouring bounds in some order through one scratch buffer. -/
def arrangeChunksThrough (buffer scratch : Buffer) (arrange : List Visit → List Visit) :
    List Nat → Except Fault (Buffer × Buffer)
  | start :: stop :: rest => do
      let (buffer, scratch) ← buffer.arrangeChunkThrough scratch arrange start stop
      buffer.arrangeChunksThrough scratch arrange (stop :: rest)
  | _ => .ok (buffer, scratch)

theorem arrangeChunksThrough_eq (harrange : Rearranges arrange) {low high : Nat} {bounds : List Nat}
    (hascending : Ascending low high bounds) (hhigh : high ≤ buffer.capacity)
    (hscratch : scratch.Scratch) (haffords : scratch.Affords (1 + buffer.capacity)) :
    Through (buffer.arrangeChunksThrough scratch arrange bounds)
      (buffer.arrangeChunks arrange bounds) := by
  fun_induction arrangeChunks buffer arrange bounds generalizing scratch with
  | case1 buffer start stop rest ih =>
      have hstart := (hascending.within start List.mem_cons_self).2
      rw [arrangeChunksThrough]
      refine (arrangeChunkThrough_eq harrange (Nat.le_trans hstart hhigh) hscratch haffords).bind ?_
      intro arranged staged hchunk hstaged
      have hrange := (List.pairwise_cons.mp hascending.ordered).1 stop List.mem_cons_self
      obtain ⟨memory, rfl, -⟩ := arrangeChunk_rewritten hrange hchunk
      exact ih _ hascending.tail hhigh hstaged
        (hscratch.affords hstaged haffords (Nat.le_refl _))
  | case2 buffer bounds hshort =>
      rw [arrangeChunksThrough]
      · exact .ok hscratch
      · exact hshort

/-! ## Merges -/

/-- Carry out a plan with the left run of every merge staged in one scratch buffer. -/
def mergeAllThrough (buffer scratch : Buffer) (compare : Comparator) (bounds : Array Nat)
    (plan : List MergeStep) : Except Fault (Buffer × Buffer) :=
  plan.foldlM (fun (buffer, scratch) step =>
    buffer.mergeThrough scratch compare (bounds.getD step.low 0) (bounds.getD step.middle 0)
      (bounds.getD step.high 0)) (buffer, scratch)

theorem mergeAllThrough_eq (compare : Comparator) {low high : Nat} {bounds : List Nat}
    {plan : List MergeStep} (hascending : Ascending low high bounds)
    (hplan : ∀ step ∈ plan, step.low ≤ step.middle ∧ step.middle ≤ step.high ∧
      step.high < bounds.length)
    (hhigh : high ≤ buffer.capacity) (hbacked : buffer.capacity ≤ buffer.backed)
    (hscratch : scratch.Scratch) (haffords : scratch.Affords (1 + buffer.capacity)) :
    Through (buffer.mergeAllThrough scratch compare bounds.toArray plan)
      (buffer.mergeAll compare bounds.toArray plan) := by
  unfold mergeAllThrough mergeAll
  induction plan generalizing buffer scratch with
  | nil => exact .ok hscratch
  | cons step rest ih =>
      rw [List.foldlM_cons, List.foldlM_cons]
      obtain ⟨hlow, hmiddle, hlast⟩ := hplan step List.mem_cons_self
      have hleft := hascending.getD_le hlow (Nat.lt_of_le_of_lt hmiddle hlast)
      have hright := hascending.getD_le hmiddle hlast
      have hend := Nat.le_trans hright.2.2 hhigh
      have hmerge := mergeThrough_eq compare hleft.2.1 hright.2.1 hend (Nat.le_trans hend hbacked)
        hscratch (hscratch.affords hscratch haffords (by omega))
      refine Through.bind hmerge fun after staged hmerged hstaged => ?_
      obtain ⟨memory, rfl, -⟩ := mergeRuns_rewritten hleft.2.1 hright.2.1 hmerged
      exact ih (fun other hother => hplan other (List.mem_cons_of_mem step hother)) hhigh hbacked
        hstaged (hscratch.affords hstaged haffords (Nat.le_refl _))

/-! ## The whole sort -/

/-- Put the chunks between some bounds in order and merge them, all through one scratch buffer. -/
def sortChunksThrough (buffer scratch : Buffer) (arrange : List Visit → List Visit)
    (compare : Comparator) (bounds : List Nat) : Except Fault (Buffer × Buffer) := do
  let (chunked, scratch) ← buffer.arrangeChunksThrough scratch arrange bounds
  chunked.mergeAllThrough scratch compare bounds.toArray (mergePlan 0 (bounds.length - 1))

/-- Sort the records from `start` to `stop` through a new scratch buffer, with the records of every
chunk put in some order. -/
def sortRangeThrough (buffer : Buffer) (arrange : List Visit → List Visit) (compare : Comparator)
    (start stop chunkSize scratchSize : Nat) : Except Fault Buffer := do
  let stop := min stop buffer.cursor
  if stop ≤ start then return buffer
  let bounds ← buffer.sortBounds start stop chunkSize
  let scratch ← Buffer.new scratchSize
  (buffer.sortChunksThrough scratch arrange compare bounds).map Prod.fst

/-- Where memory can be had for what is staged, sorting through a scratch buffer is sorting: on
every range of every buffer, whatever the comparator answers, in whatever order the records of a
chunk are put, and whatever size the scratch buffer begins with. -/
theorem sortRangeThrough_eq (harrange : Rearranges arrange) (compare : Comparator)
    (start stop chunkSize : Nat) {scratchSize : Nat} (hcursor : buffer.cursor ≤ buffer.capacity)
    (hbacked : buffer.capacity ≤ buffer.backed) (hnew : Buffer.new scratchSize = .ok scratch)
    (haffords : scratch.Affords (1 + buffer.capacity)) :
    buffer.sortRangeThrough arrange compare start stop chunkSize scratchSize =
      buffer.sortRangeBy arrange compare start stop chunkSize := by
  have hscratch := scratch_of_new hnew
  have hhigh := Nat.le_trans (Nat.min_le_right stop _) hcursor
  unfold sortRangeThrough sortRangeBy
  simp only
  split
  next => rfl
  next hrange =>
    cases hbounds : buffer.sortBounds start (min stop buffer.cursor) chunkSize with
    | error fault => rfl
    | ok bounds =>
        obtain ⟨hascending, hplan⟩ :=
          sortBounds_ascending (Nat.le_of_lt (Nat.lt_of_not_le hrange)) hbounds
        simp only [hnew, bind, Except.bind]
        refine Through.map_fst ?_
        refine (arrangeChunksThrough_eq harrange hascending hhigh hscratch haffords).bind ?_
        intro chunked staged hchunked hstaged
        obtain ⟨memory, rfl, -⟩ := arrangeChunks_rewritten hascending hchunked
        refine mergeAllThrough_eq compare hascending (fun step hstep => ?_) hhigh hbacked hstaged
          (hscratch.affords hstaged haffords (Nat.le_refl _))
        obtain ⟨hlow, hmiddle, hlast⟩ := hplan step hstep
        exact ⟨Nat.le_of_lt hlow, Nat.le_of_lt hmiddle, hlast⟩

/-- A sort through a scratch buffer, with the order that the comparator gives. -/
theorem sortRangeThrough_sortVisits (compare : Comparator) (start stop chunkSize : Nat)
    {scratchSize : Nat} (hcursor : buffer.cursor ≤ buffer.capacity)
    (hbacked : buffer.capacity ≤ buffer.backed) (hnew : Buffer.new scratchSize = .ok scratch)
    (haffords : scratch.Affords (1 + buffer.capacity)) :
    buffer.sortRangeThrough compare.sortVisits compare start stop chunkSize scratchSize =
      buffer.sortRange compare start stop chunkSize := by
  rw [sortRange_eq]
  exact sortRangeThrough_eq compare.rearranges_sortVisits compare start stop chunkSize hcursor
    hbacked hnew haffords

end RecordBuffer.Buffer

import Mathlib.Logic.Relation
import RecordBuffer.Proofs.Decoding
import RecordBuffer.Proofs.Making

/-!
# Merging by indices

The sorter stages the left run in a scratch buffer and merges in a loop over three
indices: into the staged bytes, into the right run, and to where the next record
goes. The loop carries out the same merge, no span that it uses is out of bounds,
and the unread part of the right run is intact in every round.
-/

namespace RecordBuffer

namespace Record

variable {data raw : Bytes}

theorem drop_encode (payload : Bytes) : (encode payload).drop headerSize = payload := by
  rw [encode, List.drop_left' (length_header payload.length)]

theorem raw?_of_split?_eq_none (hsplit : split? data = none) : raw? data = none := by
  rw [raw?, payload?, hsplit, Option.map_none, Option.map_none]

/-- A whole record has bytes, and no more than there are. -/
theorem length_of_raw? (hraw : raw? data = some raw) :
    0 < raw.length ∧ raw.length ≤ data.length := by
  obtain ⟨payload, rest, hsplit, rfl⟩ := exists_split?_of_raw? hraw
  rw [eq_encode_append_of_split? hsplit, List.length_append, length_encode]
  exact ⟨size_pos _, Nat.le_add_right _ _⟩

end Record

namespace Memory

variable {memory : Memory} {start count : Nat}

/-- What lies at an address is the record that it declares. -/
theorem slice_size (memory : Memory) (start : Nat) :
    memory.slice start (Record.size (memory.payloadLength start)) =
      Record.encode
        (memory.slice (start + Record.headerSize) (memory.payloadLength start)) := by
  have hheader : memory.slice start Record.headerSize =
      Record.header (memory.payloadLength start) := (Record.header_ofDigits _ _ _ _).symm
  rw [Record.size, slice_add, hheader, Record.encode, length_slice]

theorem raw?_slice (hwhole : Record.size (memory.payloadLength start) ≤ count) :
    Record.raw? (memory.slice start count) =
      some (memory.slice start (Record.size (memory.payloadLength start))) := by
  have hshort : memory.payloadLength start < Limits.payloadBound := Record.ofDigits_lt _ _ _ _
  obtain ⟨behind, rfl⟩ := Nat.exists_eq_add_of_le hwhole
  rw [slice_add, slice_size]
  refine Record.raw?_of_split? (Record.split?_encode_append ?_ _)
  rwa [length_slice]

/-- A record that reaches past the end of a span is not read. -/
theorem raw?_slice_of_lt (hcut : count < Record.size (memory.payloadLength start)) :
    Record.raw? (memory.slice start count) = none := by
  rw [Option.eq_none_iff_forall_ne_some]
  intro record hraw
  obtain ⟨payload, rest, hsplit, rfl⟩ := Record.exists_split?_of_raw? hraw
  have hslice := Record.eq_encode_append_of_split? hsplit
  have hlength := congrArg List.length hslice
  rw [length_slice, List.length_append, Record.length_encode] at hlength
  have hholds : memory.Holds start (Record.encode payload) := by
    rw [hlength, slice_add] at hslice
    rw [Holds, Record.length_encode]
    exact (List.append_inj hslice (by rw [length_slice, Record.length_encode])).1
  rw [payloadLength_of_holds (Record.length_lt_of_split? hsplit) hholds] at hcut
  omega

end Memory

/-- A merge under way, by the indices of a loop over the staged bytes of its left run. -/
structure MergeLoop where
  memory : Memory
  /-- How many bytes of the left run are placed. -/
  taken : Nat
  /-- Where the records of the right run start that are still to be placed. -/
  right : Nat
  destination : Nat

namespace MergeLoop

/-- What a round leads to. -/
inductive Next where
  | finished (memory : Memory)
  | unfinished (loop : MergeLoop)

/-- A loop at its beginning. -/
def start (memory : Memory) (low middle : Nat) : MergeLoop where
  memory
  taken := 0
  right := middle
  destination := low

/-- Copy a record from the staged bytes. -/
def placeLeft (loop : MergeLoop) (record : Bytes) : MergeLoop :=
  { loop with
    memory := loop.memory.write loop.destination record
    taken := loop.taken + record.length
    destination := loop.destination + record.length }

/-- Move a record down from the right run. -/
def placeRight (loop : MergeLoop) (record : Bytes) : MergeLoop :=
  { loop with
    memory := loop.memory.write loop.destination record
    right := loop.right + record.length
    destination := loop.destination + record.length }

/-- One round of a loop that ends at `stop`. Every span is checked before it is used, and a record
is read only if all of it lies in front of the end of its run. -/
def step (compare : Comparator) (left : Bytes) (stop : Nat) (loop : MergeLoop) :
    Except Fault Next :=
  if stop ≤ loop.destination then .ok (.finished loop.memory)
  else if loop.taken = left.length then
    if loop.destination = loop.right then .ok (.finished loop.memory)
    else .error (.rightRunMisplaced loop.destination loop.right)
  else if loop.right = stop then
    if left.length < loop.taken then .error .outOfBounds
    else if left.length - loop.taken = stop - loop.destination then
      .ok (.finished (loop.memory.write loop.destination (left.drop loop.taken)))
    else .error (.leftRunMisfit (left.length - loop.taken) (stop - loop.destination))
  else
    match Record.raw? (left.drop loop.taken),
      Record.raw? (loop.memory.slice loop.right (stop - loop.right)) with
    | some first, some second =>
        if compare (second.drop Record.headerSize) (first.drop Record.headerSize) = .lt then
          if stop < loop.destination + second.length then .error .outOfBounds
          else .ok (.unfinished (loop.placeRight second))
        else if stop < loop.destination + first.length then .error .outOfBounds
        else .ok (.unfinished (loop.placeLeft first))
    | _, _ => .error .outOfBounds

variable {compare : Comparator} {left : Bytes} {stop : Nat} {loop next : MergeLoop}

/-- A round that is not the last one places a record of either run and passes it. -/
theorem step_unfinished (hstep : loop.step compare left stop = .ok (.unfinished next)) :
    loop.destination < stop ∧
      ((∃ record, Record.raw? (left.drop loop.taken) = some record ∧
          next = loop.placeLeft record) ∨
        ∃ record, Record.raw? (loop.memory.slice loop.right (stop - loop.right)) = some record ∧
          next = loop.placeRight record) := by
  unfold step at hstep
  split at hstep
  next => cases hstep
  next hunfinished =>
  refine ⟨Nat.lt_of_not_le hunfinished, ?_⟩
  split at hstep
  next => split at hstep <;> cases hstep
  split at hstep
  next =>
    split at hstep
    next => cases hstep
    next => split at hstep <;> cases hstep
  split at hstep
  next first second hfirst hsecond =>
    split at hstep
    next =>
      split at hstep <;> cases hstep
      exact .inr ⟨second, hsecond, rfl⟩
    next =>
      split at hstep <;> cases hstep
      exact .inl ⟨first, hfirst, rfl⟩
  next => cases hstep

/-- The destination moves in every round, and no index goes back or leaves its run. -/
theorem step_moves (hstep : loop.step compare left stop = .ok (.unfinished next)) :
    loop.destination < stop ∧ loop.destination < next.destination ∧ loop.right ≤ next.right ∧
      (loop.taken ≤ left.length → next.taken ≤ left.length) := by
  obtain ⟨hunfinished, ⟨record, hraw, rfl⟩ | ⟨record, hraw, rfl⟩⟩ := step_unfinished hstep
  · obtain ⟨hpos, hlength⟩ := Record.length_of_raw? hraw
    rw [List.length_drop] at hlength
    refine ⟨hunfinished, ?_, Nat.le_refl _, fun _ => ?_⟩ <;> simp only [placeLeft] <;> omega
  · have hpos := (Record.length_of_raw? hraw).1
    refine ⟨hunfinished, ?_, ?_, id⟩ <;> simp only [placeRight] <;> omega

/-- Go round until the loop is finished. -/
def run (compare : Comparator) (left : Bytes) (stop : Nat) (loop : MergeLoop) :
    Except Fault Memory :=
  match _ : loop.step compare left stop with
  | .error fault => .error fault
  | .ok (.finished memory) => .ok memory
  | .ok (.unfinished next) => next.run compare left stop
  termination_by stop - loop.destination
  decreasing_by
    have hmoves := step_moves ‹loop.step compare left stop = _›
    omega

/-- The states that a loop comes through, its own included. -/
def Reaches (compare : Comparator) (left : Bytes) (stop : Nat) : MergeLoop → MergeLoop → Prop :=
  Relation.ReflTransGen fun loop next => loop.step compare left stop = .ok (.unfinished next)

/-! ## The same merge -/

/-- The merge that a loop carries out. -/
def merge (left : Bytes) (loop : MergeLoop) : Merge where
  memory := loop.memory
  left := left.drop loop.taken
  right := loop.right
  destination := loop.destination

/-- What a round leads to in that merge. -/
def Next.merge (left : Bytes) : Next → Merge.Next
  | finished memory => .finished memory
  | unfinished loop => .unfinished (loop.merge left)

/-- Where a record of either run is to be read, both read the same ones and place the same one. -/
theorem step_merge_of_heads (compare : Comparator) (hstop : ¬ stop ≤ loop.destination)
    (hleft : left.drop loop.taken ≠ []) (hlength : loop.taken ≠ left.length)
    (hend : loop.right ≠ stop) (hgap : loop.destination ≤ loop.right) (hright : loop.right ≤ stop) :
    (loop.merge left).step compare stop =
      (loop.step compare left stop).map (Next.merge left) := by
  obtain ⟨memory, taken, right, destination⟩ := loop
  change Merge.step compare stop ⟨memory, left.drop taken, right, destination⟩ = _
  simp only at hstop hleft hlength hend hgap hright
  simp only [Merge.step, step, hstop, hleft, hlength, hend, if_false]
  cases hsplit : Record.split? (left.drop taken) with
  | none => simp only [Record.raw?_of_split?_eq_none hsplit, Except.map]
  | some parts =>
  obtain ⟨payload, rest⟩ := parts
  have hrest : left.drop (taken + (Record.encode payload).length) = rest := by
    rw [← List.drop_drop, Record.eq_encode_append_of_split? hsplit, List.drop_left]
  by_cases hwhole : Record.size (memory.payloadLength right) ≤ stop - right
  · have hinside : ¬ (stop < right + Record.headerSize ∨
        stop < right + Record.size (memory.payloadLength right)) := by
      rw [Record.size] at hwhole ⊢
      omega
    -- The record moves down, so where it goes it ends no later than where it lies.
    have hmoved : ¬ stop < destination + Record.size (memory.payloadLength right) := by omega
    have hsecond : (memory.slice right (Record.size (memory.payloadLength right))).drop
        Record.headerSize = memory.slice (right + Record.headerSize)
          (memory.payloadLength right) := by
      rw [Memory.slice_size, Record.drop_encode]
    simp only [Record.raw?_of_split? hsplit, Memory.raw?_slice hwhole, hsecond,
      Record.drop_encode, hinside, hmoved, if_false, Memory.length_slice]
    split
    next => simp only [Except.map, Next.merge, merge, placeRight, Memory.length_slice]
    rw [Record.length_encode] at hrest ⊢
    split
    next => rfl
    next => simp only [Except.map, Next.merge, merge, placeLeft, Record.length_encode, hrest]
  · have houtside : stop < right + Record.headerSize ∨
        stop < right + Record.size (memory.payloadLength right) := by omega
    simp only [Record.raw?_of_split? hsplit, Memory.raw?_slice_of_lt (Nat.lt_of_not_le hwhole),
      houtside, if_true, Except.map]

/-- As long as the unplaced left records fill the gap, a round is a step of the merge. The check of
the span that a right record moves to is the only one that the merge does without. -/
theorem step_merge (compare : Comparator) (htaken : loop.taken ≤ left.length)
    (haligned : (loop.merge left).Aligned stop) :
    (loop.merge left).step compare stop =
      (loop.step compare left stop).map (Next.merge left) := by
  have hgap := haligned.fills
  simp only [merge, List.length_drop] at hgap
  have hempty : left.drop loop.taken = [] ↔ loop.taken = left.length := by
    rw [List.drop_eq_nil_iff]
    omega
  by_cases hheads : stop ≤ loop.destination ∨ loop.taken = left.length ∨ loop.right = stop
  · obtain ⟨memory, taken, right, destination⟩ := loop
    change Merge.step compare stop ⟨memory, left.drop taken, right, destination⟩ = _
    simp only at hheads hempty htaken
    simp only [Merge.step, step, hempty, List.length_drop, if_neg (Nat.not_lt_of_le htaken)]
    split
    next => rfl
    split
    next => split <;> rfl
    split
    next => split <;> rfl
    next => omega
  · rw [not_or, not_or] at hheads
    obtain ⟨hstop, hlength, hend⟩ := hheads
    exact step_merge_of_heads compare hstop (mt hempty.mp hlength) hlength hend (by omega)
      haligned.right_le

/-- The whole loop carries out the whole merge. -/
theorem run_merge (compare : Comparator) (htaken : loop.taken ≤ left.length)
    (haligned : (loop.merge left).Aligned stop) :
    (loop.merge left).run compare stop = loop.run compare left stop := by
  fun_induction run compare left stop loop with
  | case1 loop fault hstep =>
      rw [Merge.run_eq, step_merge compare htaken haligned, hstep]
      rfl
  | case2 loop memory hstep =>
      rw [Merge.run_eq, step_merge compare htaken haligned, hstep]
      rfl
  | case3 loop next hstep ih =>
      have hmerge := step_merge compare htaken haligned
      rw [hstep] at hmerge
      rw [Merge.run_eq, hmerge]
      exact ih ((step_moves hstep).2.2.2 htaken) (haligned.step hmerge).1

/-! ## Every round -/

/-- A loop on its way: what its indices have passed adds up, and nothing differs from the memory
that it began with but what it has placed. -/
structure Placing (original : Memory) (left : Bytes) (low middle stop : Nat)
    (loop : MergeLoop) : Prop where
  fills : low + left.length = middle
  taken_le : loop.taken ≤ left.length
  middle_le : middle ≤ loop.right
  right_le : loop.right ≤ stop
  destination_eq : loop.destination = low + loop.taken + (loop.right - middle)
  same : Memory.SameOutside original loop.memory low loop.destination

namespace Placing

variable {original : Memory} {low middle : Nat}

theorem start (original : Memory) (hfills : low + left.length = middle) (hstop : middle ≤ stop) :
    (MergeLoop.start original low middle).Placing original left low middle stop := by
  refine ⟨hfills, Nat.zero_le _, Nat.le_refl _, hstop, ?_, Memory.SameOutside.refl _ _ _⟩
  simp only [MergeLoop.start, Nat.sub_self, Nat.add_zero]

theorem aligned (hplacing : loop.Placing original left low middle stop) :
    (loop.merge left).Aligned stop := by
  obtain ⟨hfills, htaken, hmiddle, hright, hdestination, -⟩ := hplacing
  refine ⟨?_, hright⟩
  simp only [merge, List.length_drop]
  omega

theorem destination_le (hplacing : loop.Placing original left low middle stop) :
    loop.destination ≤ loop.right := by
  obtain ⟨hfills, htaken, hmiddle, -, hdestination, -⟩ := hplacing
  omega

/-- The right records that are still to be placed are as they were. -/
theorem intact (hplacing : loop.Placing original left low middle stop) :
    loop.memory.slice loop.right (stop - loop.right) =
      original.slice loop.right (stop - loop.right) :=
  hplacing.same.slice (Or.inr hplacing.destination_le)

theorem step (hplacing : loop.Placing original left low middle stop)
    (hstep : loop.step compare left stop = .ok (.unfinished next)) :
    next.Placing original left low middle stop := by
  obtain ⟨-, hmoves, hright, htaken⟩ := step_moves hstep
  have hmerge := step_merge compare hplacing.taken_le hplacing.aligned
  rw [hstep] at hmerge
  obtain ⟨⟨hgap, hstop⟩, hsame⟩ := hplacing.aligned.step hmerge
  obtain ⟨hfills, hplaced, hmiddle, -, hdestination, hbefore⟩ := hplacing
  simp only [merge, List.length_drop] at hgap hstop hsame
  -- The sum of the indices is the gap seen from the other end.
  have htaken := htaken hplaced
  refine ⟨hfills, htaken, Nat.le_trans hmiddle hright, hstop, by omega, ?_⟩
  exact (hbefore.mono (Nat.le_refl _) (Nat.le_of_lt hmoves)).trans
    (hsame.mono (by omega) (Nat.le_refl _))

theorem reaches (hplacing : loop.Placing original left low middle stop)
    (hreaches : Reaches compare left stop loop next) :
    next.Placing original left low middle stop := by
  induction hreaches with
  | refl => exact hplacing
  | tail _ hstep ih => exact ih.step hstep

end Placing

end MergeLoop

/-! ## Merging through a scratch buffer -/

namespace Buffer

variable {buffer scratch staged : Buffer} {low middle high : Nat}

/-- What runs are staged in: a buffer of its own memory without a limit worth the name. -/
structure Scratch (scratch : Buffer) : Prop where
  wellFormed : scratch.WellFormed
  heap : scratch.backing = .heap
  unlimited : scratch.maxSize = Limits.maxSize

theorem scratch_of_new {size : Nat} (hnew : Buffer.new size = .ok scratch) : scratch.Scratch := by
  obtain ⟨hwell, -, hheap, hmax⟩ := new_made hnew
  exact ⟨hwell, hheap, hmax⟩

theorem Scratch.evolved (hscratch : scratch.Scratch) (hevolved : scratch.Evolved staged) :
    staged.Scratch :=
  ⟨hevolved.wellFormed, hevolved.backing_eq.trans hscratch.heap,
    hevolved.maxSize_eq.trans hscratch.unlimited⟩

/-- Bytes are put behind what is staged, and the scratch buffer serves on. -/
theorem Scratch.append {bytes : Bytes} (hscratch : scratch.Scratch)
    (haffords : scratch.Affords (scratch.cursor + bytes.length)) :
    ∃ staged, scratch.append bytes = .ok staged ∧ scratch.FollowedBy staged bytes ∧
      staged.Scratch := by
  have hfits : scratch.cursor + bytes.length ≤ scratch.maxSize := by
    have hmemory := haffords hscratch.heap
    rw [hscratch.unlimited] at hmemory ⊢
    simp only [Limits.maxSize, Limits.maxExtent] at hmemory ⊢
    omega
  obtain ⟨staged, happend⟩ := append_ok hscratch.wellFormed hfits haffords
  obtain ⟨hadvanced, hholds⟩ := append_advanced hscratch.wellFormed happend
  exact ⟨staged, happend, hadvanced.followedBy hholds, hscratch.evolved hadvanced.toEvolved⟩

theorem Scratch.reset (hscratch : scratch.Scratch) : scratch.reset.Scratch :=
  hscratch.evolved (reset_evolved hscratch.wellFormed)

/-- What is staged from the beginning is all that there is to be read. -/
theorem FollowedBy.bytes_eq {bytes : Bytes} (hfollowed : scratch.reset.FollowedBy staged bytes) :
    staged.bytes = bytes := by
  rw [Buffer.bytes, hfollowed.cursor_eq]
  simp only [Buffer.reset, Nat.add_sub_cancel_left]
  exact hfollowed.holds

/-- What is staged is there to be read, and the scratch buffer serves again. -/
theorem Scratch.stage {bytes : Bytes} (hscratch : scratch.Scratch)
    (haffords : scratch.Affords (1 + bytes.length)) :
    ∃ staged, scratch.reset.append bytes = .ok staged ∧ staged.bytes = bytes ∧
      staged.Scratch := by
  have hevolved := reset_evolved hscratch.wellFormed
  obtain ⟨staged, happend, hfollowed, hstaged⟩ :=
    hscratch.reset.append (haffords.evolved hevolved (Nat.le_refl _))
  exact ⟨staged, happend, hfollowed.bytes_eq, hstaged⟩

/-- Merge two runs with the left one staged in a scratch buffer. -/
def mergeThrough (buffer scratch : Buffer) (compare : Comparator) (low middle high : Nat) :
    Except Fault (Buffer × Buffer) :=
  if low = middle ∨ middle = high then .ok (buffer, scratch)
  else if middle < low ∨ buffer.capacity < low ∨ buffer.backed < middle then .error .outOfBounds
  else do
    let staged ← scratch.reset.append (buffer.memory.slice low (middle - low))
    if buffer.backed < high then throw .outOfBounds
    let memory ← (MergeLoop.start buffer.memory low middle).run compare staged.bytes high
    return ({ buffer with memory }, staged)

/-- Where memory can be had for what is staged, merging through a scratch buffer is merging. -/
theorem mergeThrough_eq (compare : Comparator) (hlow : low ≤ middle) (hhigh : middle ≤ high)
    (hcapacity : high ≤ buffer.capacity) (hbacked : high ≤ buffer.backed)
    (hscratch : scratch.Scratch) (haffords : scratch.Affords (1 + (middle - low))) :
    ∃ staged, staged.Scratch ∧ buffer.mergeThrough scratch compare low middle high =
      (buffer.mergeRuns compare low middle high).map (·, staged) := by
  unfold mergeThrough mergeRuns
  split
  next => exact ⟨scratch, hscratch, rfl⟩
  next =>
    rw [if_neg (by omega)]
    have hroom : scratch.Affords (1 + (buffer.memory.slice low (middle - low)).length) := by
      rwa [Memory.length_slice]
    obtain ⟨staged, happend, hbytes, hstaged⟩ := hscratch.stage hroom
    have hfills : low + staged.bytes.length = middle := by
      rw [hbytes, Memory.length_slice]
      omega
    have hplacing := MergeLoop.Placing.start buffer.memory hfills hhigh
    -- Nothing is taken at the beginning, so the merge starts from the whole run.
    have hrun := MergeLoop.run_merge compare hplacing.taken_le hplacing.aligned
    simp only [MergeLoop.merge, MergeLoop.start, List.drop_zero, hbytes] at hrun
    refine ⟨staged, hstaged, ?_⟩
    simp only [MergeLoop.start, happend, hbytes, hrun, bind, Except.bind,
      if_neg (Nat.not_lt_of_le hbacked)]
    split <;> rfl

/-- Two neighbouring runs of whole records are merged, whatever the comparator says: a record of
the right run goes first exactly if it compares less. Nothing is refused, also with the left run
staged in a scratch buffer that memory can be had for. In every round of the loop the indices add
up and the unread part of the right run is as it was, and no byte outside the two runs changes. -/
theorem mergeRuns_left_biased (compare : Comparator) {left right : List Bytes}
    (hlow : low ≤ middle) (hhigh : middle ≤ high) (hcursor : high ≤ buffer.cursor)
    (hcapacity : buffer.cursor ≤ buffer.capacity) (hbacked : buffer.capacity ≤ buffer.backed)
    (hleftShort : Record.Short left) (hrightShort : Record.Short right)
    (hleft : buffer.memory.slice low (middle - low) = Record.encodeAll left)
    (hright : buffer.memory.slice middle (high - middle) = Record.encodeAll right) :
    ∃ memory, buffer.mergeRuns compare low middle high = .ok { buffer with memory } ∧
      (∀ scratch : Buffer, scratch.Scratch → scratch.Affords (1 + (middle - low)) →
        ∃ staged, staged.Scratch ∧ buffer.mergeThrough scratch compare low middle high =
          .ok ({ buffer with memory }, staged)) ∧
      memory.slice low (high - low) = Record.encodeAll (compare.merge left right) ∧
      Memory.SameOutside buffer.memory memory low high ∧
      ∀ loop, MergeLoop.Reaches compare (Record.encodeAll left) high
          (MergeLoop.start buffer.memory low middle) loop →
        loop.destination = low + loop.taken + (loop.right - middle) ∧
          loop.destination ≤ loop.right ∧ middle ≤ loop.right ∧ loop.right ≤ high ∧
          loop.memory.slice loop.right (high - loop.right) =
            buffer.memory.slice loop.right (high - loop.right) := by
  have hhigh' := Nat.le_trans hcursor hcapacity
  have hextents : low + Record.extent left = middle ∧ middle + Record.extent right = high := by
    have hleft := congrArg List.length hleft
    have hright := congrArg List.length hright
    rw [Memory.length_slice, Record.length_encodeAll] at hleft hright
    omega
  obtain ⟨rfl, rfl⟩ := hextents
  obtain ⟨memory, hmerge, hmerged⟩ := mergeRuns_packed compare
    (Memory.packed_of_slice hleftShort rfl hleft) (Memory.packed_of_slice hrightShort rfl hright)
  refine ⟨memory, hmerge, ?_, ?_, ?_, ?_⟩
  · intro scratch hscratch haffords
    obtain ⟨staged, hstaged, hthrough⟩ := mergeThrough_eq compare hlow hhigh hhigh'
      (Nat.le_trans hhigh' hbacked) hscratch haffords
    refine ⟨staged, hstaged, ?_⟩
    rw [hthrough, hmerge]
    rfl
  · have hextent : Record.extent (compare.merge left right) =
        low + Record.extent left + Record.extent right - low := by
      rw [Record.extent_perm (compare.merge_perm left right), Record.extent_append]
      omega
    rw [← hextent, ← Record.length_encodeAll]
    exact hmerged.holds
  · obtain ⟨other, hother, hsame⟩ := mergeRuns_rewritten hlow hhigh hmerge
    cases hother
    exact hsame
  · intro loop hreaches
    have hstart : low + (Record.encodeAll left).length = low + Record.extent left := by
      rw [Record.length_encodeAll]
    have hplacing := (MergeLoop.Placing.start buffer.memory hstart hhigh).reaches hreaches
    exact ⟨hplacing.destination_eq, hplacing.destination_le, hplacing.middle_le,
      hplacing.right_le, hplacing.intact⟩

/-- Records of different lengths move down over each other, and of two that compare equal the left
one goes first. -/
theorem mergeRuns_left_biased_overlapping :
    let buffer : Buffer :=
      { backing := .heap
        memory := (Memory.blank.write 1 (Record.encodeAll [[2, 0], [2, 1, 1]])).write 14
          (Record.encodeAll [[1, 1, 1, 1], [2, 5]])
        backed := 64, cursor := 28, capacity := 64, maxSize := 128 }
    let scratch : Buffer := ⟨.heap, .blank, 8, 1, 8, Limits.maxSize⟩
    let byHead : Comparator := fun first second => Ord.compare (first.headD 0) (second.headD 0)
    ∃ memory staged,
      buffer.mergeThrough scratch byHead 1 14 28 = .ok ({ buffer with memory }, staged) ∧
      memory.slice 1 27 = Record.encodeAll [[1, 1, 1, 1], [2, 0], [2, 1, 1], [2, 5]] ∧
      Memory.SameOutside buffer.memory memory 1 28 := by
  intro buffer scratch byHead
  have hleftShort : Record.Short [[2, 0], [2, 1, 1]] := by unfold Record.Short; decide
  have hrightShort : Record.Short [[1, 1, 1, 1], [2, 5]] := by unfold Record.Short; decide
  have hleft : buffer.memory.slice 1 13 = Record.encodeAll [[2, 0], [2, 1, 1]] :=
    ((Memory.sameOutside_write _ 14 _).slice (Or.inl (by decide))).trans (Memory.slice_write _ 1 _)
  have hmerge : byHead.merge [[2, 0], [2, 1, 1]] [[1, 1, 1, 1], [2, 5]] =
      [[1, 1, 1, 1], [2, 0], [2, 1, 1], [2, 5]] := by
    simp +decide [Comparator.merge, byHead]
  obtain ⟨memory, -, hthrough, hmerged, hsame, -⟩ := @mergeRuns_left_biased buffer 1 14 28 byHead
    _ _ (by decide) (by decide) (by decide) (show 28 ≤ 64 by decide) (by decide) hleftShort
    hrightShort hleft (Memory.slice_write _ 14 _)
  obtain ⟨staged, -, hstaged⟩ := hthrough scratch (@scratch_of_new scratch 8 rfl) fun _ => by decide
  exact ⟨memory, staged, hstaged, hmerge ▸ hmerged, hsame⟩

end Buffer

end RecordBuffer

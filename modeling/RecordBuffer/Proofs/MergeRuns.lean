import RecordBuffer.Buffer.Merge
import RecordBuffer.Proofs.Packed
import RecordBuffer.Proofs.StableSort

/-!
# Merging in place

The records of the left run that are still to be placed fill exactly the gap in
front of the right run. So no step overwrites a record that is still to be read,
whatever the bytes are, and on packed records the result is the merge of the two
lists.
-/

namespace RecordBuffer

namespace Merge

variable {compare : Comparator} {stop : Nat} {merge : Merge}

/-- The left run that is still to be placed fills the gap in front of the right one. -/
structure Aligned (stop : Nat) (merge : Merge) : Prop where
  fills : merge.destination + merge.left.length = merge.right
  right_le : merge.right ≤ stop

/-- A step places one record behind those placed before, or fills up the range. Nothing else is
touched. -/
theorem Aligned.step {result : Next} (haligned : merge.Aligned stop)
    (hstep : merge.step compare stop = .ok result) :
    match result with
    | .finished memory => Memory.SameOutside merge.memory memory merge.destination stop
    | .unfinished next => next.Aligned stop ∧
        Memory.SameOutside merge.memory next.memory merge.destination next.destination := by
  obtain ⟨memory, left, right, destination⟩ := merge
  obtain ⟨hfills, hright⟩ := haligned
  simp only [Merge.step] at hfills hright hstep
  split at hstep
  next =>
    cases hstep
    exact Memory.SameOutside.refl _ _ _
  split at hstep
  next =>
    -- The left run is used up, and what is left of the right one stays where it is.
    split at hstep <;> cases hstep
    exact Memory.SameOutside.refl _ _ _
  split at hstep
  next =>
    -- The right run is used up, so the gap reaches to the end of the range.
    split at hstep <;> cases hstep
    exact (Memory.sameOutside_write memory destination left).mono (Nat.le_refl _) (by omega)
  split at hstep
  next => cases hstep
  next payload rest hsplit =>
  have hleft := congrArg List.length (Record.eq_encode_append_of_split? hsplit)
  rw [List.length_append, Record.length_encode] at hleft
  split at hstep
  next => cases hstep
  split at hstep
  next =>
    cases hstep
    have hsame := Memory.sameOutside_write memory destination
      (memory.slice right (Record.size (memory.payloadLength right)))
    rw [Memory.length_slice] at hsame
    refine ⟨⟨?_, ?_⟩, hsame⟩ <;> simp only <;> omega
  split at hstep
  next => cases hstep
  next =>
    cases hstep
    have hsame := Memory.sameOutside_write memory destination (Record.encode payload)
    rw [Record.length_encode] at hsame
    refine ⟨⟨?_, hright⟩, hsame⟩
    simp only
    omega

theorem Aligned.destination_le (haligned : merge.Aligned stop) : merge.destination ≤ stop :=
  Nat.le_trans (by have hfills := haligned.fills; omega) haligned.right_le

/-- A merge touches nothing outside its range. -/
theorem Aligned.run {memory : Memory} (haligned : merge.Aligned stop)
    (hrun : merge.run compare stop = .ok memory) :
    Memory.SameOutside merge.memory memory merge.destination stop := by
  fun_induction Merge.run compare stop merge with
  | case1 merge fault hstep => cases hrun
  | case2 merge finished hstep =>
      cases hrun
      exact haligned.step hstep
  | case3 merge next hstep ih =>
      obtain ⟨hnext, hsame⟩ := haligned.step hstep
      have hrest := ih hnext hrun
      have hmoves := (step_unfinished hstep).2
      exact (hsame.mono (Nat.le_refl _) hnext.destination_le).trans
        (hrest.mono (by omega) (Nat.le_refl _))

/-! ## Packed records -/

/-- A merge with lists of payloads still to be placed. -/
structure Places (stop : Nat) (merge : Merge) (left right : List Bytes) : Prop where
  short : Record.Short left
  left_eq : merge.left = Record.encodeAll left
  right_packed : merge.memory.Packed merge.right right
  fills : merge.destination + Record.extent left = merge.right
  right_stop : merge.right + Record.extent right = stop

variable {left right : List Bytes} {first second : Bytes}

/-- Without left records the merge is over. -/
theorem Places.step_nil_left (hplaces : merge.Places stop [] right) :
    merge.step compare stop = .ok (.finished merge.memory) := by
  obtain ⟨memory, bytes, source, destination⟩ := merge
  obtain ⟨-, hleft, -, hfills, -⟩ := hplaces
  simp only [Record.extent_nil, Nat.add_zero] at hleft hfills
  subst hleft hfills
  simp only [Merge.step]
  split
  next => rfl
  next => simp

/-- Without right records the left ones are placed at once. -/
theorem Places.step_nil_right (hplaces : merge.Places stop (first :: left) []) :
    merge.step compare stop = .ok (.finished
      (merge.memory.write merge.destination (Record.encodeAll (first :: left)))) := by
  obtain ⟨memory, bytes, source, destination⟩ := merge
  obtain ⟨-, hleft, -, hfills, hstop⟩ := hplaces
  have hpos := Record.size_pos first.length
  simp only [Record.extent_nil, Record.extent_cons, Nat.add_zero] at hleft hfills hstop
  have hbytes : bytes.length = Record.extent (first :: left) := by
    rw [hleft, Record.length_encodeAll]
  have hroom : stop - destination = Record.extent (first :: left) := by
    rw [Record.extent_cons]
    omega
  have hne : bytes ≠ [] := by
    intro hnil
    rw [hnil, Record.extent_cons, List.length_nil] at hbytes
    omega
  simp only [Merge.step]
  rw [if_neg (by omega), if_neg hne, if_pos hstop, if_pos (hbytes.trans hroom.symm), hleft]

/-- Otherwise the right head is placed if it compares less, and else the left one. -/
theorem Places.step_cons (compare : Comparator)
    (hplaces : merge.Places stop (first :: left) (second :: right)) :
    ∃ next, merge.step compare stop = .ok (.unfinished next) ∧
      if compare second first = .lt then
        next.Places stop (first :: left) right ∧
          next.destination = merge.destination + Record.size second.length ∧
          next.memory.Holds merge.destination (Record.encode second)
      else
        next.Places stop left (second :: right) ∧
          next.destination = merge.destination + Record.size first.length ∧
          next.memory.Holds merge.destination (Record.encode first) := by
  obtain ⟨memory, bytes, source, destination⟩ := merge
  obtain ⟨hshort, hleft, hpacked, hfills, hstop⟩ := hplaces
  obtain ⟨hsecond, hholds, hrest⟩ := Memory.Packed.cons_iff.mp hpacked
  obtain ⟨hfirst, hshort⟩ := Record.short_cons.mp hshort
  simp only at hleft hfills hstop hpacked hholds hrest
  rw [Record.extent_cons] at hfills hstop
  have hsplit : Record.split? bytes = some (first, Record.encodeAll left) := by
    rw [hleft, Record.encodeAll_cons, Record.split?_encode_append hfirst]
  have hne : bytes ≠ [] := by
    intro hnil
    rw [hnil] at hsplit
    cases hsplit
  have hpos := Record.size_pos first.length
  have hpos' := Record.size_pos second.length
  have hlength := Memory.payloadLength_of_holds hsecond hholds
  have hpayload := Memory.payload_of_holds hholds
  have hrecord := Memory.record_of_holds hholds
  have hwhole : ¬ (stop < source + Record.headerSize ∨
      stop < source + Record.size second.length) := by
    rw [Record.size] at hpos' hstop ⊢
    omega
  simp only [Merge.step]
  rw [if_neg (by omega), if_neg hne, if_neg (by omega), hsplit]
  simp only [hlength, hpayload, hrecord, hwhole, if_false]
  by_cases hless : compare second first = .lt
  · -- The gap moves up by the record that moves down over it, and stays as long as the left run.
    simp only [hless, if_true]
    refine ⟨_, rfl, ⟨Record.short_cons.mpr ⟨hfirst, hshort⟩, hleft, ?_, ?_, ?_⟩, rfl, ?_⟩
    · have hsame := Memory.sameOutside_write memory destination (Record.encode second)
      rw [Record.length_encode] at hsame
      exact hrest.sameOutside hsame (Or.inr (by omega))
    · rw [Record.extent_cons]
      simp only
      omega
    · simp only
      omega
    · exact Memory.holds_write memory destination _
  · -- The left record comes from the copy, and takes from the gap what it took in the run.
    simp only [hless, if_false]
    rw [if_neg (by omega)]
    refine ⟨_, rfl, ⟨hshort, rfl, ?_, ?_, ?_⟩, rfl, ?_⟩
    · have hsame := Memory.sameOutside_write memory destination (Record.encode first)
      rw [Record.length_encode] at hsame
      exact hpacked.sameOutside hsame (Or.inr (by omega))
    · simp only
      omega
    · rw [Record.extent_cons]
      exact hstop
    · exact Memory.holds_write memory destination _

theorem Places.aligned (hplaces : merge.Places stop left right) : merge.Aligned stop := by
  obtain ⟨-, hleft, -, hfills, hstop⟩ := hplaces
  refine ⟨?_, by omega⟩
  rw [hleft, Record.length_encodeAll]
  exact hfills

/-- A run goes on from what a step leads to. -/
theorem run_eq (compare : Comparator) (stop : Nat) (merge : Merge) :
    merge.run compare stop = match merge.step compare stop with
      | .error fault => .error fault
      | .ok (.finished memory) => .ok memory
      | .ok (.unfinished next) => next.run compare stop := by
  rw [Merge.run]
  split
  next fault hstep => rw [hstep]
  next memory hstep => rw [hstep]
  next next hstep => rw [hstep]

/-- What a placed record and the rest of the merge leave behind it make up one packed run. -/
theorem packed_of_placed {next : Merge} {memory : Memory} {destination : Nat} {head : Bytes}
    {rest : List Bytes} (hshort : head.length < Limits.payloadBound) (hnext : next.Aligned stop)
    (hdestination : next.destination = destination + Record.size head.length)
    (hhead : next.memory.Holds destination (Record.encode head))
    (hrun : next.run compare stop = .ok memory) (hrest : memory.Packed next.destination rest) :
    memory.Packed destination (head :: rest) := by
  have hbehind : destination + (Record.encode head).length ≤ next.destination := by
    rw [Record.length_encode]
    exact Nat.le_of_eq hdestination.symm
  rw [hdestination] at hrest
  exact Memory.Packed.cons_iff.mpr
    ⟨hshort, (hnext.run hrun).holds (Or.inl hbehind) hhead, hrest⟩

/-- A merge of packed records ends, with the merged list in its range. -/
theorem Places.run (compare : Comparator) (hplaces : merge.Places stop left right) :
    ∃ memory, merge.run compare stop = .ok memory ∧
      memory.Packed merge.destination (compare.merge left right) := by
  -- A step shortens one of the lists, so the induction is on both, with the other one kept.
  induction left generalizing merge right with
  | nil =>
      refine ⟨merge.memory, by rw [run_eq, hplaces.step_nil_left], ?_⟩
      have hfills := hplaces.fills
      rw [Record.extent_nil, Nat.add_zero] at hfills
      rw [Comparator.merge, List.nil_merge, hfills]
      exact hplaces.right_packed
  | cons first left ihleft =>
      induction right generalizing merge with
      | nil =>
          refine ⟨_, by rw [run_eq, hplaces.step_nil_right], ?_⟩
          rw [Comparator.merge, List.merge_right]
          exact Memory.Packed.write _ _ hplaces.short
      | cons second right ihright =>
          obtain ⟨next, hstep, hnext⟩ := hplaces.step_cons compare
          rw [run_eq, hstep]
          rw [Comparator.merge, List.cons_merge_cons]
          split at hnext
          next hless =>
            obtain ⟨hnext, hdestination, hhead⟩ := hnext
            obtain ⟨memory, hrun, hrest⟩ := ihright hnext
            refine ⟨memory, hrun, ?_⟩
            rw [if_neg (by simp [hless])]
            exact packed_of_placed (Memory.Packed.cons_iff.mp hplaces.right_packed).1
              hnext.aligned hdestination hhead hrun hrest
          next hless =>
            obtain ⟨hnext, hdestination, hhead⟩ := hnext
            obtain ⟨memory, hrun, hrest⟩ := ihleft hnext
            refine ⟨memory, hrun, ?_⟩
            rw [if_pos (by simp [hless])]
            exact packed_of_placed (Record.short_cons.mp hplaces.short).1
              hnext.aligned hdestination hhead hrun hrest

end Merge

namespace Buffer

variable {buffer after : Buffer} {compare : Comparator} {low middle high : Nat}

/-- A buffer with other bytes in a span and nothing else changed. -/
def RewrittenIn (before after : Buffer) (start stop : Nat) : Prop :=
  ∃ memory, after = { before with memory } ∧
    Memory.SameOutside before.memory memory start stop

namespace RewrittenIn

variable {start stop : Nat}

theorem refl (buffer : Buffer) (start stop : Nat) : RewrittenIn buffer buffer start stop :=
  ⟨buffer.memory, rfl, Memory.SameOutside.refl _ _ _⟩

theorem trans {before middle after : Buffer} (hfirst : RewrittenIn before middle start stop)
    (hsecond : RewrittenIn middle after start stop) : RewrittenIn before after start stop := by
  obtain ⟨first, rfl, hfirst⟩ := hfirst
  obtain ⟨second, rfl, hsecond⟩ := hsecond
  exact ⟨second, rfl, hfirst.trans hsecond⟩

theorem mono {before after : Buffer} (hrewritten : RewrittenIn before after low high)
    (hlow : start ≤ low) (hhigh : high ≤ stop) : RewrittenIn before after start stop := by
  obtain ⟨memory, rfl, hsame⟩ := hrewritten
  exact ⟨memory, rfl, hsame.mono hlow hhigh⟩

/-- Packed records beside the span stay. -/
theorem packed {before after : Buffer} {payloads : List Bytes}
    (hrewritten : RewrittenIn before after low high) (hpacked : before.memory.Packed start payloads)
    (hdisjoint : start + Record.extent payloads ≤ low ∨ high ≤ start) :
    after.memory.Packed start payloads := by
  obtain ⟨memory, rfl, hsame⟩ := hrewritten
  exact hpacked.sameOutside hsame hdisjoint

end RewrittenIn

/-- Merging two runs changes nothing but the bytes of their range. -/
theorem mergeRuns_rewritten (hlow : low ≤ middle) (hhigh : middle ≤ high)
    (hmerge : buffer.mergeRuns compare low middle high = .ok after) :
    buffer.RewrittenIn after low high := by
  unfold mergeRuns at hmerge
  split at hmerge
  next =>
    cases hmerge
    exact RewrittenIn.refl _ _ _
  next =>
    obtain ⟨memory, hrun, hmerge⟩ := bind_eq_ok.mp hmerge
    cases hmerge
    refine ⟨memory, rfl, Merge.Aligned.run ⟨?_, hhigh⟩ hrun⟩
    simp only [Memory.length_slice]
    omega

/-- Two neighbouring packed runs become their merge, whatever the comparator. -/
theorem mergeRuns_packed (compare : Comparator) {left right : List Bytes}
    (hleft : buffer.memory.Packed low left)
    (hright : buffer.memory.Packed (low + Record.extent left) right) :
    ∃ memory, buffer.mergeRuns compare low (low + Record.extent left)
        (low + Record.extent left + Record.extent right) = .ok { buffer with memory } ∧
      memory.Packed low (compare.merge left right) := by
  unfold mergeRuns
  split
  next hempty =>
    refine ⟨buffer.memory, rfl, ?_⟩
    rcases hempty with hempty | hempty
    · obtain rfl : left = [] := Record.extent_eq_zero.mp (by omega)
      rw [Comparator.merge, List.nil_merge]
      exact hright
    · obtain rfl : right = [] := Record.extent_eq_zero.mp (by omega)
      rwa [Comparator.merge, List.merge_right]
  next =>
    have hplaces : Merge.Places (low + Record.extent left + Record.extent right)
        { memory := buffer.memory
          left := buffer.memory.slice low (low + Record.extent left - low)
          right := low + Record.extent left
          destination := low } left right := by
      refine ⟨hleft.short, ?_, hright, rfl, rfl⟩
      rw [Nat.add_sub_cancel_left, ← Record.length_encodeAll]
      exact hleft.holds
    obtain ⟨memory, hrun, hpacked⟩ := hplaces.run compare
    exact ⟨memory, bind_eq_ok.mpr ⟨memory, hrun, rfl⟩, hpacked⟩

end Buffer

end RecordBuffer

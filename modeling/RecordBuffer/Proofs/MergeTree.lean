import RecordBuffer.Proofs.Cutting
import RecordBuffer.Proofs.Rearranging
import RecordBuffer.SortOrder

/-!
# Merging over a tree of chunks

The sorter halves the chunks by the numbers of their bounds, sorts either half in the same
way and then asks for one merge of the two. These are the merges of a plan, in its order.
Every bound between two chunks is the middle of one of them, and whenever a merge is asked
for, both of its runs lie there sorted.
-/

namespace RecordBuffer

/-! ## The plan -/

/-- Every position inside is where one merge has its middle. -/
theorem mergePlan_middles (low high : Nat) :
    ((mergePlan low high).map MergeStep.middle).Perm (List.range' (low + 1) (high - low - 1)) := by
  fun_induction mergePlan low high with
  | case1 low high middle hsame =>
      have hnone : high - low - 1 = 0 := by omega
      rw [hnone]
      exact List.Perm.refl _
  | case2 low high middle hne ihleft ihright =>
      have hsplit : List.range' (low + 1) (high - low - 1) =
          List.range' (low + 1) (middle - low - 1) ++
            middle :: List.range' (middle + 1) (high - middle - 1) := by
        have hleft : low + 1 + (middle - low - 1) = middle := by omega
        have hlength : high - low - 1 = middle - low - 1 + (high - middle - 1 + 1) := by omega
        rw [hlength, ← List.range'_append_1, hleft, List.range'_succ]
      rw [hsplit, List.map_append, List.map_append, List.append_assoc]
      refine ihleft.append ?_
      exact (ihright.append_right [middle]).trans (List.perm_append_singleton _ _)

/-! ## The recursion -/

section

variable {State : Type} {merge : Nat → Nat → Nat → State → Except Fault State}
  {bounds : Array Nat} {low high : Nat}

/-- Sort the chunks between two of their bounds, either half first, and merge the halves. A merge
is asked for by the offsets of three bounds, and what it does is a parameter. Numbers in the wrong
order and numbers without a bound are refused. -/
def sortHalves (merge : Nat → Nat → Nat → State → Except Fault State) (bounds : Array Nat)
    (low high : Nat) (state : State) : Except Fault State :=
  if high < low then .error .outOfBounds
  else
    let middle := low + (high - low) / 2
    if low = middle then .ok state
    else do
      let state ← sortHalves merge bounds low middle state
      let state ← sortHalves merge bounds middle high state
      match bounds[low]?, bounds[middle]?, bounds[high]? with
      | some start, some between, some stop => merge start between stop state
      | _, _, _ => .error .outOfBounds
  termination_by high - low
  decreasing_by all_goals omega

/-- Ask for the merge of a step of a plan. -/
def MergeStep.ask (merge : Nat → Nat → Nat → State → Except Fault State) (bounds : Array Nat)
    (state : State) (step : MergeStep) : Except Fault State :=
  merge (bounds.getD step.low 0) (bounds.getD step.middle 0) (bounds.getD step.high 0) state

theorem getElem?_eq_getD {position : Nat} (hposition : position < bounds.size) :
    bounds[position]? = some (bounds.getD position 0) := by
  rw [Array.getD_eq_getD_getElem?, Array.getElem?_eq_getElem hposition, Option.getD_some]

/-- Whatever a merge does, those that are asked for are the steps of the plan. -/
theorem sortHalves_eq (hle : low ≤ high) (hhigh : high < bounds.size) (state : State) :
    sortHalves merge bounds low high state =
      (mergePlan low high).foldlM (MergeStep.ask merge bounds) state := by
  fun_induction mergePlan low high generalizing state with
  | case1 low high middle hsame =>
      rw [sortHalves, if_neg (Nat.not_lt_of_le hle), if_pos hsame]
      rfl
  | case2 low high middle hne ihleft ihright =>
      have hlow : low < bounds.size := by omega
      have hmiddle : middle < bounds.size := by omega
      rw [sortHalves, if_neg (Nat.not_lt_of_le hle), if_neg hne, List.foldlM_append,
        List.foldlM_append, ← ihleft (by omega) hmiddle, bind_assoc]
      refine congrArg (sortHalves merge bounds low middle state >>= ·) (funext fun left => ?_)
      rw [← ihright (by omega) hhigh]
      refine congrArg (sortHalves merge bounds middle high left >>= ·) (funext fun right => ?_)
      rw [List.foldlM_cons, getElem?_eq_getD hlow, getElem?_eq_getD hmiddle, getElem?_eq_getD hhigh]
      exact (bind_pure _).symm

end

/-! ## Runs and bounds -/

namespace Delimits

variable {bounds : Array Nat} {start low high : Nat} {runs : List (List Bytes)}

/-- The bounds of some of the runs. -/
theorem extract (hbounds : Delimits bounds 0 start runs) (hlow : low ≤ runs.length) :
    Delimits bounds low (bounds.getD low 0) (runs.extract low high) := by
  have hbehind := (hbounds.drop hlow).take (high - low)
  rw [Nat.zero_add] at hbehind
  rw [List.extract_eq_take_drop, hbehind.getD_first]
  exact hbehind

theorem getD_high (hbounds : Delimits bounds 0 start runs) (hle : low ≤ high)
    (hhigh : high ≤ runs.length) :
    bounds.getD high 0 = bounds.getD low 0 + Record.extent (runs.extract low high).flatten := by
  refine (hbounds.extract (Nat.le_trans hle hhigh)).getD_last ?_
  rw [length_extract hhigh]
  omega

end Delimits

/-! ## Every merge -/

/-- A merge that was asked for, and the buffer as it was then. -/
structure MergeCall where
  buffer : Buffer
  low : Nat
  middle : Nat
  high : Nat

/-- A merge between three bounds of runs, given by their numbers, whose halves lie there as what
their runs were merged to. -/
structure MergeCall.Merged (compare : Comparator) (bounds : Array Nat) (runs : List (List Bytes))
    (first second last : Nat) (call : MergeCall) : Prop where
  first_lt : first < second
  second_lt : second < last
  last_le : last ≤ runs.length
  low_eq : call.low = bounds.getD first 0
  middle_eq : call.middle = bounds.getD second 0
  high_eq : call.high = bounds.getD last 0
  left : call.buffer.memory.Packed call.low (compare.mergeHalves (runs.extract first second))
  right : call.buffer.memory.Packed call.middle (compare.mergeHalves (runs.extract second last))

namespace Buffer

variable {buffer after : Buffer} {compare : Comparator} {bounds : Array Nat}
  {low middle high start : Nat} {runs : List (List Bytes)}

/-- Merge two runs and note that this was asked for. -/
def noteMerge (compare : Comparator) (low middle high : Nat) (noted : Buffer × List MergeCall) :
    Except Fault (Buffer × List MergeCall) := do
  let after ← noted.1.mergeRuns compare low middle high
  return (after, noted.2 ++ [⟨noted.1, low, middle, high⟩])

/-- Runs are merged in place as the plan says. -/
theorem sortHalves_mergeRuns (hle : low ≤ high) (hhigh : high < bounds.size) :
    sortHalves (fun low middle high state => state.mergeRuns compare low middle high) bounds low
      high buffer = buffer.mergeAll compare bounds (mergePlan low high) :=
  sortHalves_eq hle hhigh buffer

/-- The runs between two bounds are merged to one, and nothing beside them changes. -/
theorem mergeAll_between (hbounds : Delimits bounds 0 start runs) (hle : low ≤ high)
    (hhigh : high ≤ runs.length)
    (hpacked : buffer.memory.Packed (bounds.getD low 0) (runs.extract low high).flatten)
    (hmerge : buffer.mergeAll compare bounds (mergePlan low high) = .ok after) :
    buffer.RewrittenIn after (bounds.getD low 0) (bounds.getD high 0) ∧
      after.memory.Packed (bounds.getD low 0) (compare.mergeHalves (runs.extract low high)) := by
  obtain ⟨merged, hmerged, hrewritten, hdone⟩ := mergeAll_of_packed compare
    (length_extract hhigh) (hbounds.extract (Nat.le_trans hle hhigh)) hpacked
  cases hmerged.symm.trans hmerge
  rw [hbounds.getD_high hle hhigh]
  exact ⟨hrewritten, hdone⟩

/-- Once either half is merged, both lie side by side as what their runs were merged to. -/
theorem mergeAll_halves {first second : Buffer} (hbounds : Delimits bounds 0 start runs)
    (hlow : low ≤ middle) (hmiddle : middle ≤ high) (hhigh : high ≤ runs.length)
    (hpacked : buffer.memory.Packed (bounds.getD low 0) (runs.extract low high).flatten)
    (hleft : buffer.mergeAll compare bounds (mergePlan low middle) = .ok first)
    (hright : first.mergeAll compare bounds (mergePlan middle high) = .ok second) :
    buffer.memory.Packed (bounds.getD low 0) (runs.extract low middle).flatten ∧
      first.memory.Packed (bounds.getD middle 0) (runs.extract middle high).flatten ∧
      second.memory.Packed (bounds.getD low 0) (compare.mergeHalves (runs.extract low middle)) ∧
      second.memory.Packed (bounds.getD middle 0)
        (compare.mergeHalves (runs.extract middle high)) := by
  have hinside := Nat.le_trans hmiddle hhigh
  have hend := hbounds.getD_high hlow hinside
  rw [← extract_append_extract runs hlow hmiddle, List.flatten_append, Memory.Packed.append_iff,
    ← hend] at hpacked
  obtain ⟨hbefore, hbehind⟩ := hpacked
  obtain ⟨hfirst, hfirstPacked⟩ := mergeAll_between hbounds hlow hinside hbefore hleft
  have hbehind := hfirst.packed hbehind (Or.inr (Nat.le_refl _))
  obtain ⟨hsecond, hsecondPacked⟩ := mergeAll_between hbounds hmiddle hhigh hbehind hright
  -- The merged left half is as long as its runs were, so it ends where the right half starts.
  have hextent := Record.extent_perm (compare.mergeHalves_perm (runs.extract low middle))
  exact ⟨hbefore, hbehind,
    hsecond.packed hfirstPacked (Or.inl (Nat.le_of_eq (by rw [hextent, hend]))), hsecondPacked⟩

/-- Whenever a merge is asked for, both of its runs are merged already. -/
theorem foldlM_noteMerge (hbounds : Delimits bounds 0 start runs) (hle : low ≤ high)
    (hhigh : high ≤ runs.length)
    (hpacked : buffer.memory.Packed (bounds.getD low 0) (runs.extract low high).flatten)
    (hmerge : buffer.mergeAll compare bounds (mergePlan low high) = .ok after)
    (calls : List MergeCall) :
    ∃ added,
      (mergePlan low high).foldlM (MergeStep.ask (noteMerge compare) bounds) (buffer, calls) =
        .ok (after, calls ++ added) ∧
      added.map MergeCall.middle =
        (mergePlan low high).map (fun step => bounds.getD step.middle 0) ∧
      ∀ call ∈ added, ∃ first second last, call.Merged compare bounds runs first second last := by
  fun_induction mergePlan low high generalizing buffer after calls
  case case1 low high middle hsame =>
    cases hmerge
    exact ⟨[], by rw [List.append_nil]; rfl, rfl, fun call hcall => by cases hcall⟩
  case case2 low high middle hne ihleft ihright =>
    have hlow : low ≤ middle := by omega
    have hmiddle : middle ≤ high := by omega
    rw [mergeAll_append, mergeAll_append] at hmerge
    obtain ⟨second, hhalves, hmerge⟩ := bind_eq_ok.mp hmerge
    obtain ⟨first, hleft, hright⟩ := bind_eq_ok.mp hhalves
    rw [mergeAll_singleton] at hmerge
    -- The last step of the plan is asked for in `second`, when both halves are merged.
    obtain ⟨hbefore, hbehind, hfirstMerged, hsecondMerged⟩ :=
      mergeAll_halves hbounds hlow hmiddle hhigh hpacked hleft hright
    obtain ⟨early, hearly, hearlyMiddles, hearlyMerged⟩ :=
      ihleft hlow (Nat.le_trans hmiddle hhigh) hbefore hleft calls
    obtain ⟨late, hlate, hlateMiddles, hlateMerged⟩ :=
      ihright hmiddle hhigh hbehind hright (calls ++ early)
    let call : MergeCall := ⟨second, bounds.getD low 0, bounds.getD middle 0, bounds.getD high 0⟩
    refine ⟨early ++ late ++ [call], ?_, ?_, ?_⟩
    · have hnoted : [MergeStep.mk low middle high].foldlM (MergeStep.ask (noteMerge compare) bounds)
          (second, calls ++ early ++ late) = .ok (after, calls ++ early ++ late ++ [call]) :=
        bind_eq_ok.mpr ⟨_, bind_eq_ok.mpr ⟨after, hmerge, rfl⟩, rfl⟩
      rw [List.foldlM_append, List.foldlM_append, ← List.append_assoc, ← List.append_assoc]
      exact bind_eq_ok.mpr ⟨_, bind_eq_ok.mpr ⟨_, hearly, hlate⟩, hnoted⟩
    · rw [List.map_append, List.map_append, List.map_append, List.map_append, hearlyMiddles,
        hlateMiddles]
      rfl
    · intro other hother
      rcases List.mem_append.mp hother with hother | hother
      · exact (List.mem_append.mp hother).elim (hearlyMerged other) (hlateMerged other)
      · obtain rfl := List.mem_singleton.mp hother
        exact ⟨low, middle, high, {
          first_lt := by omega
          second_lt := by omega
          last_le := hhigh
          low_eq := rfl
          middle_eq := rfl
          high_eq := rfl
          left := hfirstMerged
          right := hsecondMerged }⟩

end Buffer

/-! ## Sorted halves -/

/-- Between two offsets lie the records of some payloads as sorting these payloads by themselves
leaves them. Whatever the comparator answers, none is lost. -/
structure SortedRun (compare : Comparator) (chunkSize : Nat) (payloads : List Bytes)
    (memory : Memory) (low high : Nat) : Prop where
  slice_eq : memory.slice low (high - low) =
    Record.encodeAll (compare.chunkSort chunkSize payloads)
  perm : (compare.chunkSort chunkSize payloads).Perm payloads
  stable : Std.TransCmp compare →
    compare.StableSort payloads (compare.chunkSort chunkSize payloads)

/-- A merge between three bounds of chunks, given by their numbers. Either half holds the records
of its chunks and is completely sorted. -/
structure MergeCall.Joins (compare : Comparator) (chunkSize : Nat) (payloads : List Bytes)
    (bounds : List Nat) (first second last : Nat) (call : MergeCall) : Prop where
  first_lt : first < second
  second_lt : second < last
  low_eq : bounds[first]? = some call.low
  middle_eq : bounds[second]? = some call.middle
  high_eq : bounds[last]? = some call.high
  low_lt : call.low < call.middle
  middle_lt : call.middle < call.high
  left : SortedRun compare chunkSize (chunkRecords chunkSize payloads first second)
    call.buffer.memory call.low call.middle
  right : SortedRun compare chunkSize (chunkRecords chunkSize payloads second last)
    call.buffer.memory call.middle call.high

section

variable {compare : Comparator} {chunkSize start first last : Nat} {payloads : List Bytes}

/-- Merging sorted chunks from one number to another sorts their records. -/
theorem mergeHalves_extract (hchunkSize : 1 ≤ chunkSize) (first last : Nat) :
    compare.mergeHalves (((chunksOf chunkSize payloads).map compare.sort).extract first last) =
      compare.chunkSort chunkSize (chunkRecords chunkSize payloads first last) := by
  rw [Comparator.chunkSort, chunkRecords, ← extract_chunksOf hchunkSize, List.extract_eq_take_drop,
    List.extract_eq_take_drop, List.map_take, List.map_drop]

/-- Sorted chunks have the bounds of the chunks. -/
theorem delimits_sort (compare : Comparator) (chunkSize start : Nat) (payloads : List Bytes) :
    Delimits (chunkOffsets start (chunksOf chunkSize payloads)).toArray 0 start
      ((chunksOf chunkSize payloads).map compare.sort) := by
  have hextents := compare.rearranges_sortVisits.map_extent start (chunksOf chunkSize payloads)
  rw [compare.arranged_sortVisits] at hextents
  exact (Delimits.chunkOffsets start _).of_extents hextents

theorem sortedRun_of_packed {memory : Memory} {low high : Nat}
    (hpacked : memory.Packed low (compare.chunkSort chunkSize payloads))
    (hhigh : high = low + Record.extent payloads) :
    SortedRun compare chunkSize payloads memory low high where
  slice_eq := by
    have hperm := compare.chunkSort_perm chunkSize payloads
    rw [hhigh, Nat.add_sub_cancel_left, ← Record.extent_perm hperm, ← Record.length_encodeAll]
    exact hpacked.holds
  perm := compare.chunkSort_perm chunkSize payloads
  stable := by
    intro hpreorder
    rw [compare.chunkSort_eq_sort]
    exact compare.stableSort_sort payloads

/-- A half of a merge, from one bound to another, is sorted once its runs are merged. -/
theorem sortedRun_of_merged {memory : Memory} (hchunkSize : 1 ≤ chunkSize) (hle : first ≤ last)
    (hpacked : memory.Packed (recordOffset start payloads (first * chunkSize))
      (compare.mergeHalves (((chunksOf chunkSize payloads).map compare.sort).extract first last))) :
    SortedRun compare chunkSize (chunkRecords chunkSize payloads first last) memory
      (recordOffset start payloads (first * chunkSize))
      (recordOffset start payloads (last * chunkSize)) := by
  rw [mergeHalves_extract hchunkSize] at hpacked
  exact sortedRun_of_packed hpacked (recordOffset_extract (Nat.mul_le_mul_right chunkSize hle))

/-- Merged runs of sorted chunks are sorted halves. -/
theorem MergeCall.Merged.joins {second : Nat} {call : MergeCall} (hchunkSize : 1 ≤ chunkSize)
    (hmerged : call.Merged compare (chunkOffsets start (chunksOf chunkSize payloads)).toArray
      ((chunksOf chunkSize payloads).map compare.sort) first second last) :
    call.Joins compare chunkSize payloads (chunkOffsets start (chunksOf chunkSize payloads))
      first second last := by
  obtain ⟨hfirst, hsecond, hlast, hlow, hmiddle, hhigh, hleft, hright⟩ := hmerged
  rw [List.length_map, length_chunksOf hchunkSize] at hlast
  have hinside : second ≤ payloads.length ⌈/⌉ chunkSize := Nat.le_trans (Nat.le_of_lt hsecond) hlast
  have hbefore : first ≤ payloads.length ⌈/⌉ chunkSize := Nat.le_trans (Nat.le_of_lt hfirst) hinside
  rw [getD_toArray_chunkOffsets hchunkSize start hbefore] at hlow
  rw [getD_toArray_chunkOffsets hchunkSize start hinside] at hmiddle
  rw [getD_toArray_chunkOffsets hchunkSize start hlast] at hhigh
  refine {
    first_lt := hfirst
    second_lt := hsecond
    low_eq := (getElem?_chunkOffsets hchunkSize).mpr ⟨hbefore, hlow⟩
    middle_eq := (getElem?_chunkOffsets hchunkSize).mpr ⟨hinside, hmiddle⟩
    high_eq := (getElem?_chunkOffsets hchunkSize).mpr ⟨hlast, hhigh⟩
    low_lt := ?_
    middle_lt := ?_
    left := ?_
    right := ?_ }
  · rw [hlow, hmiddle]
    exact recordOffset_lt hchunkSize hfirst hinside
  · rw [hmiddle, hhigh]
    exact recordOffset_lt hchunkSize hsecond hlast
  · rw [hlow] at hleft ⊢
    rw [hmiddle]
    exact sortedRun_of_merged hchunkSize (Nat.le_of_lt hfirst) hleft
  · rw [hmiddle] at hright ⊢
    rw [hhigh]
    exact sortedRun_of_merged hchunkSize (Nat.le_of_lt hsecond) hright

end

/-- The bounds between chunks, without the two ends. -/
theorem tail_dropLast_eq (bounds : List Nat) :
    bounds.tail.dropLast = (List.range' 1 (bounds.length - 1 - 1)).map fun position =>
      bounds.toArray.getD position 0 := by
  apply List.ext_getElem
  · rw [List.length_dropLast, List.length_tail, List.length_map, List.length_range']
  · intro position hposition _
    rw [List.length_dropLast, List.length_tail] at hposition
    rw [List.getElem_dropLast, List.getElem_tail, List.getElem_map, List.getElem_range',
      Array.getD_eq_getD_getElem?, List.getElem?_toArray, Nat.one_mul, Nat.add_comm 1,
      List.getElem?_eq_getElem (by omega), Option.getD_some]

namespace Buffer

variable {buffer : Buffer} {start stop chunkSize : Nat} {payloads : List Bytes}

/-- The records of every chunk are sorted in place. -/
theorem orderChunks_of_packed (compare : Comparator) (chunkSize : Nat) (hstart : 1 ≤ start)
    (hpacked : buffer.memory.Packed start payloads)
    (hcursor : start + Record.extent payloads ≤ buffer.cursor)
    (hcapacity : buffer.cursor ≤ buffer.capacity) :
    ∃ chunked,
      buffer.orderChunks compare (chunkOffsets start (chunksOf chunkSize payloads)) = .ok chunked ∧
      chunked.memory.Packed start ((chunksOf chunkSize payloads).map compare.sort).flatten := by
  rw [← flatten_chunksOf chunkSize payloads] at hpacked hcursor
  obtain ⟨chunked, hchunked, -, hsorted⟩ :=
    arrangeChunks_of_packed compare.rearranges_sortVisits hstart hpacked hcursor hcapacity
  rw [← orderChunks_eq] at hchunked
  rw [compare.arranged_sortVisits] at hsorted
  exact ⟨chunked, hchunked, hsorted⟩

/-- Over sorted chunks, every merge that is asked for joins two sorted halves, and every bound
between two chunks is the middle of one merge. -/
theorem sortHalves_of_sorted (compare : Comparator) (hchunkSize : 1 ≤ chunkSize)
    (hpacked : buffer.memory.Packed start
      ((chunksOf chunkSize payloads).map compare.sort).flatten) :
    ∃ after calls,
      sortHalves (noteMerge compare) (chunkOffsets start (chunksOf chunkSize payloads)).toArray 0
        (payloads.length ⌈/⌉ chunkSize) (buffer, []) = .ok (after, calls) ∧
      buffer.mergeAll compare (chunkOffsets start (chunksOf chunkSize payloads)).toArray
        (mergePlan 0 (payloads.length ⌈/⌉ chunkSize)) = .ok after ∧
      (calls.map MergeCall.middle).Perm
        (chunkOffsets start (chunksOf chunkSize payloads)).tail.dropLast ∧
      ∀ call ∈ calls, ∃ first second last, call.Joins compare chunkSize payloads
        (chunkOffsets start (chunksOf chunkSize payloads)) first second last := by
  have hbounds := delimits_sort compare chunkSize start payloads
  have hlength : ((chunksOf chunkSize payloads).map compare.sort).length =
      payloads.length ⌈/⌉ chunkSize := by rw [List.length_map, length_chunksOf hchunkSize]
  have hsize : (chunkOffsets start (chunksOf chunkSize payloads)).length =
      payloads.length ⌈/⌉ chunkSize + 1 := by rw [length_chunkOffsets, length_chunksOf hchunkSize]
  obtain ⟨after, hmerge, -, -⟩ := mergeAll_of_packed compare hlength hbounds hpacked
  have hall : ((chunksOf chunkSize payloads).map compare.sort).extract 0
      (payloads.length ⌈/⌉ chunkSize) = (chunksOf chunkSize payloads).map compare.sort := by
    rw [List.extract_eq_take_drop, List.drop_zero, Nat.sub_zero,
      List.take_of_length_le (Nat.le_of_eq hlength)]
  rw [← hbounds.getD_first, ← hall] at hpacked
  obtain ⟨calls, hcalls, hmiddles, hmerged⟩ :=
    foldlM_noteMerge hbounds (Nat.zero_le _) (Nat.le_of_eq hlength.symm) hpacked hmerge []
  refine ⟨after, calls, ?_, hmerge, ?_, fun call hcall => ?_⟩
  · rw [sortHalves_eq (Nat.zero_le _) (by rw [List.size_toArray, hsize]; exact Nat.lt_succ_self _)]
    exact hcalls
  · have hperm := (mergePlan_middles 0 (payloads.length ⌈/⌉ chunkSize)).map fun position =>
      (chunkOffsets start (chunksOf chunkSize payloads)).toArray.getD position 0
    rw [List.map_map] at hperm
    rw [hmiddles, tail_dropLast_eq, hsize, Nat.add_sub_cancel]
    exact hperm
  · obtain ⟨first, second, last, hhalves⟩ := hmerged call hcall
    exact ⟨first, second, last, hhalves.joins hchunkSize⟩

/-- A sort puts the chunks between the bounds in order and merges them. -/
theorem sortRange_of_bounds {chunked : Buffer} {compare : Comparator} {bounds : List Nat}
    (hstart : 1 ≤ start) (hchunkSize : 1 ≤ chunkSize) (hrange : start < min stop buffer.cursor)
    (hmemory : offsetSize * chunkSize ≤ Limits.maxExtent)
    (hbounds : buffer.chunkBounds start (min stop buffer.cursor) chunkSize = .ok bounds)
    (hchunked : buffer.orderChunks compare bounds = .ok chunked) :
    buffer.sortRange compare start stop chunkSize =
      chunked.mergeAll compare bounds.toArray (mergePlan 0 (bounds.length - 1)) := by
  have hsortBounds := sortBounds_of_chunkBounds hstart hchunkSize hbounds
  rw [if_neg (Nat.not_lt_of_le hmemory)] at hsortBounds
  rw [orderChunks_eq] at hchunked
  rw [sortRange_eq, sortRangeBy, if_neg (Nat.not_le_of_lt hrange), hsortBounds]
  simp only [bind, Except.bind, hchunked]

/-- Chunks partition a range of whole records. The walk that counts them notes the offset of every
record whose number is a multiple of the chunk size and then the end of the range, so there is a
chunk for every full chunk size of records and one for the rest. The sort of the halves ends, as a
sort of the range does whose offsets can be noted. It asks for a merge only between three bounds in
rising order, where both halves have been sorted completely, and once for every bound between two
chunks. -/
theorem chunkBounds_partition (compare : Comparator) (hstart : 1 ≤ start)
    (hchunkSize : 1 ≤ chunkSize) (hne : payloads ≠ []) (hcursor : stop ≤ buffer.cursor)
    (hcapacity : buffer.cursor ≤ buffer.capacity) (hshort : Record.Short payloads)
    (hrange : buffer.memory.slice start (stop - start) = Record.encodeAll payloads) :
    ∃ bounds chunked sorted calls,
      buffer.noteBounds start stop chunkSize = .ok bounds ∧
      buffer.chunkBounds start stop chunkSize = .ok bounds ∧
      Cuts buffer.memory start stop chunkSize payloads bounds ∧
      buffer.orderChunks compare bounds = .ok chunked ∧
      sortHalves (fun low middle high state => state.mergeRuns compare low middle high)
        bounds.toArray 0 (payloads.length ⌈/⌉ chunkSize) chunked = .ok sorted ∧
      sortHalves (noteMerge compare) bounds.toArray 0 (payloads.length ⌈/⌉ chunkSize)
        (chunked, []) = .ok (sorted, calls) ∧
      (offsetSize * chunkSize ≤ Limits.maxExtent →
        buffer.sortRange compare start stop chunkSize = .ok sorted) ∧
      (calls.map MergeCall.middle).Perm bounds.tail.dropLast ∧
      ∀ call ∈ calls, ∃ first second last,
        call.Joins compare chunkSize payloads bounds first second last := by
  have hextent := congrArg List.length hrange
  rw [Memory.length_slice, Record.length_encodeAll] at hextent
  have hnonempty := mt Record.extent_eq_zero.mp hne
  obtain rfl : stop = start + Record.extent payloads := by omega
  have hpacked := Memory.packed_of_slice hshort rfl hrange
  have hbounds := chunkBounds_of_packed chunkSize hstart hpacked hcursor hcapacity
  have hnoted : buffer.noteBounds start (start + Record.extent payloads) chunkSize =
      .ok (chunkOffsets start (chunksOf chunkSize payloads)) := by
    rw [noteBounds_eq hstart (by omega) hchunkSize, hbounds]
  obtain ⟨chunked, hchunked, hsorted⟩ :=
    orderChunks_of_packed compare chunkSize hstart hpacked hcursor hcapacity
  obtain ⟨sorted, calls, hcalls, hmerge, hmiddles, hjoins⟩ :=
    sortHalves_of_sorted compare hchunkSize hsorted
  refine ⟨_, chunked, sorted, calls, hnoted, hbounds, cuts_of_packed hchunkSize hpacked, hchunked,
    ?_, hcalls, fun hmemory => ?_, hmiddles, hjoins⟩
  · rw [sortHalves_mergeRuns (Nat.zero_le _) ?_, hmerge]
    rw [List.size_toArray, length_chunkOffsets, length_chunksOf hchunkSize]
    exact Nat.lt_succ_self _
  · have hmin : min (start + Record.extent payloads) buffer.cursor =
        start + Record.extent payloads := Nat.min_eq_left hcursor
    rw [sortRange_of_bounds hstart hchunkSize (by omega) hmemory (hmin.symm ▸ hbounds) hchunked,
      length_chunkOffsets, length_chunksOf hchunkSize, Nat.add_sub_cancel, hmerge]

/-- Five records with bytes in front of them and a record behind them: two full chunks and one
record for the last. -/
theorem chunkBounds_partition_of_five :
    let buffer : Buffer :=
      { backing := .heap
        memory := (Memory.blank.write 1 [7, 7]).write 3
          (Record.encodeAll [[5, 5], [1], [], [2, 2], [9]])
        backed := 64, cursor := 33, capacity := 64, maxSize := 128 }
    ∃ chunked sorted calls,
      buffer.noteBounds 3 29 2 = .ok [3, 14, 24, 29] ∧
      buffer.orderChunks Comparator.length [3, 14, 24, 29] = .ok chunked ∧
      sortHalves (noteMerge Comparator.length) #[3, 14, 24, 29] 0 3 (chunked, []) =
        .ok (sorted, calls) ∧
      buffer.sortRange Comparator.length 3 29 2 = .ok sorted ∧
      (calls.map MergeCall.middle).Perm [14, 24] ∧
      ∀ call ∈ calls, ∃ first second last,
        call.Joins Comparator.length 2 [[5, 5], [1], [], [2, 2], [9]] [3, 14, 24, 29]
          first second last := by
  intro buffer
  have hrange : buffer.memory.slice 3 (29 - 3) =
      Record.encodeAll [[5, 5], [1], [], [2, 2], [9]] := Memory.slice_write _ 3 _
  have hshort : Record.Short [[5, 5], [1], [], [2, 2], [9]] := by unfold Record.Short; decide
  obtain ⟨bounds, chunked, sorted, calls, hnoted, -, hcuts, hchunked, -, hcalls, hsort, hmiddles,
    hjoins⟩ := @chunkBounds_partition buffer 3 29 2 _ Comparator.length (by decide) (by decide)
      (by decide) (by decide) (by decide) hshort hrange
  obtain rfl : bounds = [3, 14, 24, 29] := hcuts.bounds_eq
  exact ⟨chunked, sorted, calls, hnoted, hchunked, hcalls, hsort (by decide), hmiddles, hjoins⟩

end Buffer

end RecordBuffer

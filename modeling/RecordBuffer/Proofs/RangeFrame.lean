import RecordBuffer.Buffer.Sort
import RecordBuffer.Proofs.MergeRuns

/-!
# What sorting a range may touch

Whatever bytes a buffer holds and whatever the comparator answers, a sort that
ends changes only the bytes of its range. The chunk bounds rise through the
range, chunks are written back between two of them, and merges stay between the
outermost bounds of their runs.
-/

namespace RecordBuffer

theorem everyNth_sublist {α : Type} (period skip : Nat) (items : List α) :
    (everyNth period skip items).Sublist items := by
  fun_induction everyNth period skip items with
  | case1 => exact List.Sublist.refl _
  | case2 kept rest ih => exact ih.cons_cons kept
  | case3 skip item rest ih => exact ih.cons item

/-- A plan merges neighbouring runs of the chunks that it is for. -/
theorem mem_mergePlan {low high : Nat} {step : MergeStep} (hstep : step ∈ mergePlan low high) :
    low ≤ step.low ∧ step.low < step.middle ∧ step.middle < step.high ∧ step.high ≤ high := by
  fun_induction mergePlan low high with
  | case1 => cases hstep
  | case2 low high middle hne ihleft ihright =>
      simp only [middle] at *
      rcases List.mem_append.mp hstep with hstep | hstep
      · rcases List.mem_append.mp hstep with hstep | hstep
        · have hbounds := ihleft hstep
          omega
        · have hbounds := ihright hstep
          omega
      · obtain rfl := List.mem_singleton.mp hstep
        simp only
        omega

/-- Offsets in rising order, none outside a range. -/
structure Ascending (low high : Nat) (offsets : List Nat) : Prop where
  ordered : offsets.Pairwise (· ≤ ·)
  within : ∀ offset ∈ offsets, low ≤ offset ∧ offset ≤ high

theorem Ascending.tail {low high first : Nat} {rest : List Nat}
    (hascending : Ascending low high (first :: rest)) : Ascending low high rest :=
  ⟨(List.pairwise_cons.mp hascending.ordered).2,
    fun offset hmem => hascending.within offset (List.mem_cons_of_mem first hmem)⟩

/-- Positions in rising order name offsets in rising order. -/
theorem Ascending.getD_le {low high : Nat} {offsets : List Nat}
    (hascending : Ascending low high offsets) {first second : Nat} (hle : first ≤ second)
    (hsecond : second < offsets.length) :
    low ≤ offsets.toArray.getD first 0 ∧
      offsets.toArray.getD first 0 ≤ offsets.toArray.getD second 0 ∧
      offsets.toArray.getD second 0 ≤ high := by
  have hfirst : first < offsets.length := by omega
  have hlow := hascending.within offsets[first] (List.getElem_mem hfirst)
  have hhigh := hascending.within offsets[second] (List.getElem_mem hsecond)
  simp only [Array.getD_eq_getD_getElem?, List.getElem?_toArray,
    List.getElem?_eq_getElem hfirst, List.getElem?_eq_getElem hsecond, Option.getD_some]
  refine ⟨hlow.1, ?_, hhigh.2⟩
  rcases Nat.eq_or_lt_of_le hle with heq | hlt
  · simp only [heq, Nat.le_refl]
  · exact List.pairwise_iff_getElem.mp hascending.ordered first second hfirst hsecond hlt

/-- Visits in the order that a comparator gives to their payloads. -/
def Comparator.sortVisits (compare : Comparator) (visited : List Visit) : List Visit :=
  visited.mergeSort fun left right => compare.le left.payload right.payload

namespace Buffer

variable {buffer after : Buffer} {compare : Comparator} {arrange : List Visit → List Visit}
  {start stop chunkSize : Nat}

/-- Put the records from `start` to `stop` in some order and write them back in place. -/
def arrangeChunk (buffer : Buffer) (arrange : List Visit → List Visit) (start stop : Nat) :
    Except Fault Buffer := do
  let trail ← buffer.trail start stop
  let records ← (arrange trail.visits).mapM fun visit => buffer.recordBytes visit.offset
  let bytes := records.flatten
  if bytes.length ≠ stop - start then throw (.chunkResized bytes.length (stop - start))
  return buffer.overwrite start bytes

/-- Put every chunk between two neighbouring bounds in some order. -/
def arrangeChunks (buffer : Buffer) (arrange : List Visit → List Visit) :
    List Nat → Except Fault Buffer
  | start :: stop :: rest => do
      (← buffer.arrangeChunk arrange start stop).arrangeChunks arrange (stop :: rest)
  | _ => .ok buffer

theorem orderChunks_eq (compare : Comparator) (bounds : List Nat) :
    buffer.orderChunks compare bounds = buffer.arrangeChunks compare.sortVisits bounds := by
  fun_induction orderChunks buffer compare bounds with
  | case1 buffer start stop rest ih =>
      rw [arrangeChunks]
      exact congrArg (buffer.orderChunk compare start stop >>= ·) (funext ih)
  | case2 buffer bounds hshort =>
      rw [arrangeChunks]
      exact hshort

/-- The offsets of a walk rise from its start and stay below its bound. -/
theorem trail_offsets {offset bound : Nat} {trail : Trail}
    (htrail : buffer.trail offset bound = .ok trail) :
    (trail.visits.map Visit.offset).Pairwise (· < ·) ∧
      ∀ visit ∈ trail.visits, offset ≤ visit.offset ∧ visit.offset < bound := by
  fun_induction Buffer.trail buffer offset bound generalizing trail with
  | case1 offset hdone =>
      cases htrail
      exact ⟨List.Pairwise.nil, fun visit hmem => by cases hmem⟩
  | case2 => cases htrail
  | case3 offset hbound payload hread =>
      cases htrail
      refine ⟨List.pairwise_singleton _ _, ?_⟩
      intro visit hmem
      obtain rfl := List.mem_singleton.mp hmem
      simp only
      omega
  | case4 => cases htrail
  | case5 offset hbound payload next hread hnext rest hrest ih =>
      cases htrail
      obtain ⟨hordered, hwithin⟩ := ih hrest
      have hrises := recordAt_next hread
      refine ⟨List.pairwise_cons.mpr ⟨?_, hordered⟩, ?_⟩
      · intro other hmem
        obtain ⟨visit, hvisit, rfl⟩ := List.mem_map.mp hmem
        have hvisit := hwithin visit hvisit
        simp only [Record.headerSize] at hrises ⊢
        omega
      · intro visit hmem
        rcases List.mem_cons.mp hmem with rfl | hmem
        · exact ⟨Nat.le_refl _, Nat.lt_of_not_le fun hle => hbound (Or.inr hle)⟩
        · have hvisit := hwithin visit hmem
          simp only [Record.headerSize] at hrises
          omega

theorem chunkBounds_ascending {bounds : List Nat} (hrange : start ≤ stop)
    (hbounds : buffer.chunkBounds start stop chunkSize = .ok bounds) :
    Ascending start stop bounds := by
  obtain ⟨trail, htrail, hbounds⟩ := bind_eq_ok.mp hbounds
  cases hbounds
  obtain ⟨hordered, hwithin⟩ := trail_offsets htrail
  have hsublist := everyNth_sublist chunkSize 0 (trail.visits.map Visit.offset)
  have hoffsets : ∀ offset ∈ everyNth chunkSize 0 (trail.visits.map Visit.offset),
      start ≤ offset ∧ offset < stop := by
    intro offset hmem
    obtain ⟨visit, hvisit, rfl⟩ := List.mem_map.mp (hsublist.subset hmem)
    exact hwithin visit hvisit
  refine ⟨List.pairwise_append.mpr ⟨?_, List.pairwise_singleton _ _, ?_⟩, ?_⟩
  · exact (hordered.sublist hsublist).imp fun hlt => Nat.le_of_lt hlt
  · intro offset hmem last hlast
    obtain rfl := List.mem_singleton.mp hlast
    exact Nat.le_of_lt (hoffsets offset hmem).2
  · intro offset hmem
    rcases List.mem_append.mp hmem with hmem | hmem
    · exact ⟨(hoffsets offset hmem).1, Nat.le_of_lt (hoffsets offset hmem).2⟩
    · obtain rfl := List.mem_singleton.mp hmem
      exact ⟨hrange, Nat.le_refl _⟩

theorem arrangeChunk_rewritten (hrange : start ≤ stop)
    (harranged : buffer.arrangeChunk arrange start stop = .ok after) :
    buffer.RewrittenIn after start stop := by
  obtain ⟨trail, -, harranged⟩ := bind_eq_ok.mp harranged
  obtain ⟨records, -, harranged⟩ := bind_eq_ok.mp harranged
  simp only at harranged
  split at harranged
  next => cases harranged
  next hlength =>
    cases harranged
    refine ⟨_, rfl, (Memory.sameOutside_write buffer.memory start _).mono (Nat.le_refl _) ?_⟩
    omega

theorem arrangeChunks_rewritten {low high : Nat} {bounds : List Nat}
    (hascending : Ascending low high bounds)
    (harranged : buffer.arrangeChunks arrange bounds = .ok after) :
    buffer.RewrittenIn after low high := by
  fun_induction arrangeChunks buffer arrange bounds with
  | case1 buffer start stop rest ih =>
      obtain ⟨middle, hchunk, hrest⟩ := bind_eq_ok.mp harranged
      have hstart := hascending.within start List.mem_cons_self
      have hstop := hascending.within stop (List.mem_cons_of_mem start List.mem_cons_self)
      have hrange := (List.pairwise_cons.mp hascending.ordered).1 stop List.mem_cons_self
      exact ((arrangeChunk_rewritten hrange hchunk).mono hstart.1 hstop.2).trans
        (ih middle hascending.tail hrest)
  | case2 buffer bounds =>
      cases harranged
      exact RewrittenIn.refl _ _ _

theorem mergeAll_rewritten {low high : Nat} {bounds : List Nat} {plan : List MergeStep}
    (hascending : Ascending low high bounds)
    (hplan : ∀ step ∈ plan, step.low ≤ step.middle ∧ step.middle ≤ step.high ∧
      step.high < bounds.length)
    (hmerge : buffer.mergeAll compare bounds.toArray plan = .ok after) :
    buffer.RewrittenIn after low high := by
  unfold mergeAll at hmerge
  induction plan generalizing buffer with
  | nil =>
      cases hmerge
      exact RewrittenIn.refl _ _ _
  | cons step rest ih =>
      rw [List.foldlM_cons] at hmerge
      obtain ⟨middle, hstep, hrest⟩ := bind_eq_ok.mp hmerge
      obtain ⟨hlow, hhigh, hlast⟩ := hplan step List.mem_cons_self
      have hleft := hascending.getD_le hlow (Nat.lt_of_le_of_lt hhigh hlast)
      have hright := hascending.getD_le hhigh hlast
      have hrewritten := mergeRuns_rewritten hleft.2.1 hright.2.1 hstep
      exact (hrewritten.mono hleft.1 hright.2.2).trans
        (ih (fun other hmem => hplan other (List.mem_cons_of_mem step hmem)) hrest)

/-- A sort rewrites its range and leaves every other byte, the cursor and the sizes alone. -/
theorem sortRange_rewritten (hsort : buffer.sortRange compare start stop chunkSize = .ok after) :
    buffer.RewrittenIn after start (min stop buffer.cursor) := by
  unfold sortRange at hsort
  simp only at hsort
  split at hsort
  next =>
    cases hsort
    exact RewrittenIn.refl _ _ _
  next hrange =>
  split at hsort
  next => cases hsort
  split at hsort
  next => cases hsort
  obtain ⟨bounds, hbounds, hsort⟩ := bind_eq_ok.mp hsort
  split at hsort
  next => cases hsort
  obtain ⟨chunked, hchunks, hmerge⟩ := bind_eq_ok.mp hsort
  have hascending := chunkBounds_ascending (Nat.le_of_lt (Nat.lt_of_not_le hrange)) hbounds
  rw [orderChunks_eq] at hchunks
  refine (arrangeChunks_rewritten hascending hchunks).trans (mergeAll_rewritten hascending ?_ hmerge)
  intro step hstep
  have hstep := mem_mergePlan hstep
  omega

end Buffer

end RecordBuffer

import RecordBuffer.Proofs.NotedGrowth
import RecordBuffer.Proofs.Sizes

/-!
# How often and how far capacities grow

A growth that changes the capacity at least doubles it, or adds a longest step,
or reaches the maximum size. So over a whole run the changes are few, and the
capacity stays within three times what was written at the most.
-/

namespace RecordBuffer

open Buffer (longestStep)

/-! ## One growth -/

/-- What a growth may do to a capacity, where nothing is asked for past a limit. -/
structure Growth.Obeys (maxSize limit : Nat) (growth : Growth) : Prop where
  before_le : growth.before ≤ growth.after
  after_le : growth.after ≤ maxSize
  asked_le : growth.cursor + growth.request ≤ limit
  room : growth.cursor + growth.request ≤ growth.after
  moderate : growth.before ≠ growth.after →
    growth.after ≤ 3 * (growth.cursor + growth.request)
  strides : growth.before ≠ growth.after → 2 * growth.before ≤ growth.after ∨
    growth.before + longestStep ≤ growth.after ∨ growth.after = maxSize

/-- Growths one after another, between two capacities. -/
inductive Grows (maxSize limit : Nat) : Nat → List Growth → Nat → Prop where
  | nil (capacity : Nat) : Grows maxSize limit capacity [] capacity
  | cons {growths : List Growth} {final : Nat} (growth : Growth)
      (obeys : growth.Obeys maxSize limit)
      (rest : Grows maxSize limit growth.after growths final) :
      Grows maxSize limit growth.before (growth :: growths) final

namespace Grows

variable {maxSize limit start middle final : Nat} {growths early late : List Growth}

theorem single (growth : Growth) (hobeys : growth.Obeys maxSize limit) :
    Grows maxSize limit growth.before [growth] growth.after :=
  .cons growth hobeys (.nil _)

theorem append (hearly : Grows maxSize limit start early middle)
    (hlate : Grows maxSize limit middle late final) :
    Grows maxSize limit start (early ++ late) final := by
  induction hearly with
  | nil => exact hlate
  | cons growth hobeys _ ih => exact .cons growth hobeys (ih hlate)

theorem obeys (hgrows : Grows maxSize limit start growths final) {growth : Growth}
    (hgrowth : growth ∈ growths) : growth.Obeys maxSize limit := by
  induction hgrows with
  | nil => cases hgrowth
  | cons first hobeys _ ih =>
      rcases List.mem_cons.mp hgrowth with rfl | hgrowth
      · exact hobeys
      · exact ih hgrowth

theorem le (hgrows : Grows maxSize limit start growths final) : start ≤ final := by
  induction hgrows with
  | nil => exact Nat.le_refl _
  | cons _ hobeys _ ih => exact Nat.le_trans hobeys.before_le ih

/-- The maximum size is never left. -/
theorem settled (hgrows : Grows maxSize limit start growths final) (hstart : start = maxSize) :
    growths.countP Growth.changed = 0 := by
  induction hgrows with
  | nil => rfl
  | cons growth hobeys _ ih =>
      have hsame : growth.before = growth.after :=
        Nat.le_antisymm hobeys.before_le (hstart ▸ hobeys.after_le)
      rw [List.countP_cons_of_neg (by simp [Growth.changed, hsame])]
      exact ih (hsame ▸ hstart)

/-- Each change is a doubling, a longest step or the last one. -/
theorem changes (hgrows : Grows maxSize limit start growths final) :
    ∃ doublings steps, growths.countP Growth.changed ≤ doublings + steps + 1 ∧
      2 ^ doublings * start ≤ final ∧ start + steps * longestStep ≤ final := by
  induction hgrows with
  | nil capacity => exact ⟨0, 0, by simp, by simp, by simp⟩
  | @cons growths final growth hobeys hrest ih =>
      obtain ⟨doublings, steps, hcount, hdoubled, hstepped⟩ := ih
      have hbefore := hobeys.before_le
      have hmore : 2 ^ doublings * growth.before ≤ 2 ^ doublings * growth.after :=
        Nat.mul_le_mul_left _ hbefore
      by_cases hsame : growth.before = growth.after
      · refine ⟨doublings, steps, ?_, by omega, by omega⟩
        rwa [List.countP_cons_of_neg (by simp [Growth.changed, hsame])]
      rw [List.countP_cons_of_pos (by simp [Growth.changed, hsame])]
      rcases hobeys.strides hsame with hdoubles | hsteps | hlast
      · refine ⟨doublings + 1, steps, by omega, ?_, by omega⟩
        calc 2 ^ (doublings + 1) * growth.before
            = 2 ^ doublings * (2 * growth.before) := by rw [Nat.pow_succ, Nat.mul_assoc]
          _ ≤ 2 ^ doublings * growth.after := Nat.mul_le_mul_left _ hdoubles
          _ ≤ final := hdoubled
      · refine ⟨doublings, steps + 1, by omega, by omega, ?_⟩
        rw [Nat.succ_mul]
        omega
      · -- Nothing changes behind the maximum size.
        have hfinal := hrest.le
        exact ⟨0, 0, by rw [hrest.settled hlast], by omega, by omega⟩

/-- So there are few changes. -/
theorem changes_le (hgrows : Grows maxSize limit start growths final) (hstart : 0 < start) :
    growths.countP Growth.changed ≤
      Nat.log 2 (final / start) + final / longestStep + 1 := by
  obtain ⟨doublings, steps, hcount, hdoubled, hstepped⟩ := hgrows.changes
  have hdoublings : doublings ≤ Nat.log 2 (final / start) :=
    Nat.le_log_of_pow_le Nat.one_lt_two ((Nat.le_div_iff_mul_le hstart).mpr hdoubled)
  have hsteps : steps ≤ final / longestStep :=
    (Nat.le_div_iff_mul_le (by decide)).mpr (Nat.le_trans (Nat.le_add_left _ _) hstepped)
  omega

/-- No capacity is more than three times what was asked for, unless it was there before. -/
theorem final_le (hgrows : Grows maxSize limit start growths final) :
    final ≤ max start (3 * limit) := by
  induction hgrows with
  | nil => exact Nat.le_max_left _ _
  | cons growth hobeys _ ih =>
      have hasked := hobeys.asked_le
      by_cases hsame : growth.before = growth.after
      · exact hsame ▸ ih
      · have hmoderate := hobeys.moderate hsame
        omega

end Grows

namespace Buffer

variable {buffer after : Buffer} {limit request count offset length : Nat}
  {growths : List Growth} {operation : Operation} {operations : List Operation}
  {reply : Except StorageError Reply} {replies : List (Except StorageError Reply)}

/-- A capacity stays, or it was not large enough and becomes the one that the policy asks for. -/
theorem grow_capacity (hwell : buffer.WellFormed) (hgrow : buffer.grow request = .ok after) :
    after.capacity = buffer.capacity ∨ buffer.capacity ≤ buffer.cursor + request ∧
      after.capacity = buffer.grownCapacity request := by
  unfold grow at hgrow
  split at hgrow
  next => cases hgrow
  split at hgrow
  next =>
    cases hgrow
    exact .inl rfl
  next hroom =>
  split at hgrow
  next =>
    cases hgrow
    exact .inl rfl
  next =>
    obtain ⟨-, hcapacity⟩ := extend_advanced hwell (capacity_le_grownCapacity hwell request)
      (Nat.min_le_right _ _) hgrow
    exact .inr ⟨by omega, hcapacity⟩

/-- What the policy for a single growth amounts to. -/
theorem grow_obeys (hwell : buffer.WellFormed) (hgrow : buffer.grow request = .ok after)
    (hlimit : buffer.cursor + request ≤ limit) :
    Growth.Obeys buffer.maxSize limit
      ⟨request, buffer.cursor, buffer.capacity, after.capacity⟩ := by
  obtain ⟨hadvanced, hroom⟩ := grow_advanced hwell hgrow
  have hafter := hadvanced.wellFormed.capacity_le_maxSize
  rw [hadvanced.maxSize_eq] at hafter
  have hcapacity := grow_capacity hwell hgrow
  refine ⟨hadvanced.capacity_le, hafter, hlimit, hroom, ?_, ?_⟩
  all_goals
    intro hchanged
    simp only [grownCapacity] at hcapacity hchanged ⊢
    omega

/-! ## The growths of an operation -/

theorem noteGrow_grows (hwell : buffer.WellFormed) (hlimit : buffer.cursor + request ≤ limit)
    (hrun : (buffer.noteGrow request).run = .ok (after, growths)) :
    Grows buffer.maxSize limit buffer.capacity growths after.capacity := by
  have hgrow := (buffer.noteGrow_keeps request).eq_ok hrun
  obtain ⟨grown, early, late, hlift, htell, rfl⟩ := Noting.run_bind.mp hrun
  obtain ⟨-, rfl⟩ := Noting.run_lift.mp hlift
  cases htell
  exact .single _ (grow_obeys hwell hgrow hlimit)

theorem noteAllocate_grows (hwell : buffer.WellFormed) (hlimit : buffer.cursor + count ≤ limit)
    (hrun : (buffer.noteAllocate count).run = .ok ((offset, after), growths)) :
    Grows buffer.maxSize limit buffer.capacity growths after.capacity := by
  obtain ⟨grown, early, late, hgrow, hrest, rfl⟩ := Noting.run_bind.mp hrun
  cases hrest
  exact (noteGrow_grows hwell hlimit hgrow).append (.nil _)

theorem noteAppend_grows {bytes : Bytes} (hwell : buffer.WellFormed)
    (hlimit : buffer.cursor + bytes.length ≤ limit)
    (hrun : (buffer.noteAppend bytes).run = .ok (after, growths)) :
    Grows buffer.maxSize limit buffer.capacity growths after.capacity := by
  obtain ⟨⟨offset, allocated⟩, early, late, hallocate, hrest, rfl⟩ := Noting.run_bind.mp hrun
  cases hrest
  exact (noteAllocate_grows hwell hlimit hallocate).append (.nil _)

/-- Room is made for a record as a whole, for its header and for its payload. -/
theorem noteAllocateRecord_grows (hwell : buffer.WellFormed)
    (hlimit : buffer.cursor + Record.size length ≤ limit)
    (hrun : (buffer.noteAllocateRecord length).run = .ok ((offset, after), growths)) :
    Grows buffer.maxSize limit buffer.capacity growths after.capacity := by
  obtain ⟨size, sized, made, hlift, hmade, rfl⟩ := Noting.run_bind.mp hrun
  obtain ⟨hsized, rfl⟩ := Noting.run_lift.mp hlift
  obtain rfl : Record.size length = size := Record.checkedSize_eq_ok hsized
  obtain ⟨grown, whole, parts, hgrow, hparts, rfl⟩ := Noting.run_bind.mp hmade
  obtain ⟨⟨start, headed⟩, header, behind, hheader, hbehind, rfl⟩ := Noting.run_bind.mp hparts
  simp only at hbehind
  split at hbehind
  next => cases hbehind
  next =>
    obtain ⟨⟨_, filled⟩, payload, closing, hpayload, hclosing, rfl⟩ := Noting.run_bind.mp hbehind
    cases hclosing
    have hsize : Record.size length = Record.headerSize + length := rfl
    have hgrown := (grow_advanced hwell ((noteGrow_keeps _ _).eq_ok hgrow)).1
    have hcursor : grown.cursor = buffer.cursor := hgrown.cursor_eq
    obtain ⟨-, hwritten⟩ :=
      header_advanced hgrown ((noteAllocate_keeps _ _).eq_ok hheader) length
    -- The header and the payload end where the record does, so neither asks for more than it did.
    have hfirst := noteGrow_grows hwell hlimit hgrow
    have hsecond : Grows grown.maxSize limit grown.capacity header headed.capacity :=
      noteAllocate_grows hgrown.wellFormed (by omega) hheader
    have hbehind := hwritten.cursor_eq
    have hfits : (headed.overwrite offset (Record.header length)).cursor + length ≤ limit := by
      omega
    have hthird := noteAllocate_grows hwritten.wellFormed hfits hpayload
    rw [hgrown.maxSize_eq] at hsecond
    rw [hwritten.maxSize_eq] at hthird
    exact hfirst.append (hsecond.append (hthird.append (.nil _)))

theorem noteAppendRecord_grows {payload : Bytes} (hwell : buffer.WellFormed)
    (hlimit : buffer.cursor + Record.size payload.length ≤ limit)
    (hrun : (buffer.noteAppendRecord payload).run = .ok ((offset, after), growths)) :
    Grows buffer.maxSize limit buffer.capacity growths after.capacity := by
  obtain ⟨⟨start, allocated⟩, early, late, hallocate, hrest, rfl⟩ := Noting.run_bind.mp hrun
  cases hrest
  exact (noteAllocateRecord_grows hwell hlimit hallocate).append (.nil _)

theorem noteStoreRecords_grows {records : List Bytes} {refused : Option Cause}
    (hwell : buffer.WellFormed) (hlimit : after.cursor ≤ limit)
    (hrun : (buffer.noteStoreRecords records).run = .ok ((after, refused), growths)) :
    Grows buffer.maxSize limit buffer.capacity growths after.capacity := by
  induction records generalizing buffer growths with
  | nil =>
      cases hrun
      exact .nil _
  | cons record rest ih =>
      unfold noteStoreRecords at hrun
      split at hrun
      next =>
        cases hrun
        exact .nil _
      next =>
        obtain ⟨⟨offset, appended⟩, early, late, happend, hrest, rfl⟩ := Noting.run_bind.mp hrun
        obtain ⟨-, -, hadvanced, -⟩ :=
          appendRecord_advanced hwell ((noteAppendRecord_keeps _ _).eq_ok happend)
        obtain ⟨stored, rejected, -, -, hfollowed, -⟩ :=
          storeRecords_followedBy hadvanced.wellFormed ((noteStoreRecords_keeps _ _).eq_ok hrest)
        have hbelow : buffer.cursor + Record.size record.length ≤ limit := by
          rw [← hadvanced.cursor_eq]
          exact Nat.le_trans (hfollowed.cursor_eq ▸ Nat.le_add_right _ _) hlimit
        have hothers := ih hadvanced.wellFormed hrest
        rw [hadvanced.maxSize_eq] at hothers
        exact (noteAppendRecord_grows hwell hbelow happend).append hothers

theorem noteStoreStream_grows {stream : Stream} {delimiter : UInt8}
    {stored : Except StorageError Nat} (hwell : buffer.WellFormed) (hlimit : after.cursor ≤ limit)
    (hrun : (buffer.noteStoreStream stream delimiter).run = .ok ((after, stored), growths)) :
    Grows buffer.maxSize limit buffer.capacity growths after.capacity := by
  obtain ⟨data, failure⟩ := stream
  obtain ⟨⟨middle, refused⟩, early, late, hstore, hrest, rfl⟩ := Noting.run_bind.mp hrun
  cases refused <;> cases failure <;> cases hrest <;>
    exact (noteStoreRecords_grows hwell hlimit hstore).append (.nil _)

theorem replyAllocated_capacity {start : Nat} {fill : Option Bytes}
    (hreply : buffer.replyAllocated offset start count fill = .ok (after, reply)) :
    after.capacity = buffer.capacity := by
  obtain ⟨filled, hfill, hreply⟩ := bind_eq_ok.mp hreply
  cases hreply
  obtain ⟨memory, rfl, -⟩ := fill_rewritten hfill
  rfl

/-- An operation asks for no more than it moves the cursor over, unless it asks for room alone. -/
theorem notePerform_grows (hwell : buffer.WellFormed)
    (hroom : ∀ request, operation = .grow request → buffer.maxSize ≤ limit)
    (hlimit : after.cursor ≤ limit)
    (hrun : (buffer.notePerform operation).run = .ok ((after, reply), growths)) :
    Grows buffer.maxSize limit buffer.capacity growths after.capacity := by
  have hperform := (buffer.notePerform_keeps operation).eq_ok hrun
  -- The span that an operation takes ends where the cursor comes to stand.
  have hspan (hadds : operation.adds) :
      ∃ span, buffer.Takes operation reply span ∧ buffer.cursor + span.count ≤ limit := by
    obtain ⟨span, htakes, hadvanced⟩ := perform_takes hwell hadds hperform
    exact ⟨span, htakes, hadvanced.cursor_eq ▸ hlimit⟩
  cases operation with
  | grow request =>
      obtain ⟨grown, early, late, hgrow, hrest, rfl⟩ := Noting.run_bind.mp hrun
      cases hrest
      obtain ⟨hadvanced, hfits⟩ := grow_advanced hwell ((noteGrow_keeps _ _).eq_ok hgrow)
      have hmax := hadvanced.wellFormed.capacity_le_maxSize
      rw [hadvanced.maxSize_eq] at hmax
      have hbelow := Nat.le_trans hfits (Nat.le_trans hmax (hroom request rfl))
      exact (noteGrow_grows hwell hbelow hgrow).append (.nil _)
  | append bytes =>
      obtain ⟨span, htakes, hbelow⟩ := hspan rfl
      cases htakes
      obtain ⟨appended, early, late, happend, hrest, rfl⟩ := Noting.run_bind.mp hrun
      cases hrest
      exact (noteAppend_grows hwell hbelow happend).append (.nil _)
  | advance count =>
      obtain ⟨span, htakes, hbelow⟩ := hspan rfl
      cases htakes
      obtain ⟨⟨offset, allocated⟩, early, late, hallocate, hrest, rfl⟩ := Noting.run_bind.mp hrun
      cases hrest
      exact (noteAllocate_grows hwell hbelow hallocate).append (.nil _)
  | allocate count fill =>
      obtain ⟨span, htakes, hbelow⟩ := hspan rfl
      cases htakes
      obtain ⟨⟨offset, allocated⟩, early, late, hallocate, hfill, rfl⟩ := Noting.run_bind.mp hrun
      obtain ⟨hreply, rfl⟩ := Noting.run_lift.mp hfill
      rw [replyAllocated_capacity hreply]
      exact (noteAllocate_grows hwell hbelow hallocate).append (.nil _)
  | allocateRecord length fill =>
      obtain ⟨span, htakes, hbelow⟩ := hspan rfl
      cases htakes
      obtain ⟨⟨offset, allocated⟩, early, late, hallocate, hfill, rfl⟩ := Noting.run_bind.mp hrun
      obtain ⟨hreply, rfl⟩ := Noting.run_lift.mp hfill
      rw [replyAllocated_capacity hreply]
      exact (noteAllocateRecord_grows hwell hbelow hallocate).append (.nil _)
  | appendRecord payload =>
      obtain ⟨span, htakes, hbelow⟩ := hspan rfl
      cases htakes
      obtain ⟨⟨offset, appended⟩, early, late, happend, hrest, rfl⟩ := Noting.run_bind.mp hrun
      cases hrest
      exact (noteAppendRecord_grows hwell hbelow happend).append (.nil _)
  | storeStream stream delimiter =>
      obtain ⟨⟨stored, counted⟩, early, late, hstore, hrest, rfl⟩ := Noting.run_bind.mp hrun
      cases hrest
      exact (noteStoreStream_grows hwell hlimit hstore).append (.nil _)
  | _ =>
      obtain ⟨-, rfl⟩ := Noting.run_lift.mp hrun
      rw [perform_capacity hwell rfl hperform]
      exact .nil _

/-! ## The growths of a run -/

/-- The largest cursor that a run reaches. -/
def peak (buffer : Buffer) : List Operation → Nat
  | [] => buffer.cursor
  | operation :: rest =>
      match buffer.perform operation with
      | .error _ => buffer.cursor
      | .ok (after, _) => max buffer.cursor (after.peak rest)

theorem cursor_le_peak (buffer : Buffer) (operations : List Operation) :
    buffer.cursor ≤ buffer.peak operations := by
  cases operations with
  | nil => exact Nat.le_refl _
  | cons operation rest =>
      unfold peak
      split
      next => exact Nat.le_refl _
      next => exact Nat.le_max_left _ _

theorem notePerformAll_grows (hwell : buffer.WellFormed)
    (hroom : ∀ request, .grow request ∈ operations → buffer.maxSize ≤ limit)
    (hlimit : buffer.peak operations ≤ limit)
    (hrun : (buffer.notePerformAll operations).run = .ok ((after, replies), growths)) :
    Grows buffer.maxSize limit buffer.capacity growths after.capacity := by
  induction operations generalizing buffer replies growths with
  | nil =>
      cases hrun
      exact .nil _
  | cons operation rest ih =>
      obtain ⟨⟨middle, reply⟩, early, behind, hfirst, hbehind, rfl⟩ := Noting.run_bind.mp hrun
      obtain ⟨⟨last, others⟩, late, closing, hrest, hclosing, rfl⟩ := Noting.run_bind.mp hbehind
      cases hclosing
      have hperform := (notePerform_keeps _ _).eq_ok hfirst
      have hevolved := perform_evolved hwell hperform
      simp only [peak, hperform] at hlimit
      have hpeak := Nat.le_trans (Nat.le_max_right _ _) hlimit
      have hhere := notePerform_grows hwell
        (fun request heq => hroom request (heq ▸ List.mem_cons_self))
        (Nat.le_trans (middle.cursor_le_peak rest) hpeak) hfirst
      have hthere := ih hevolved.wellFormed
        (fun request hmem => hevolved.maxSize_eq ▸ hroom request (List.mem_cons_of_mem _ hmem))
        hpeak hrest
      rw [hevolved.maxSize_eq] at hthere
      exact hhere.append (hthere.append (.nil _))

/-- Over any run that is not refused, the notes of its growths bound them. As long as no room is
asked for alone, the capacity ends within three times the largest cursor reached, unless it started
out larger. The capacity changes at most once for every doubling of it, once for every longest step
in it, and once more: a change at least doubles it, adds a longest step or reaches the maximum size,
where it stays. And what is asked for is free behind the cursor. -/
theorem growth_bounded (hreached : Session.Reached buffer)
    (hrun : buffer.performAll operations = .ok (after, replies)) :
    ∃ growths, (buffer.notePerformAll operations).run = .ok ((after, replies), growths) ∧
      ((∀ request, .grow request ∉ operations) →
        after.capacity ≤ max buffer.capacity (3 * buffer.peak operations)) ∧
      growths.countP Growth.changed ≤
        Nat.log 2 (after.capacity / buffer.capacity) + after.capacity / longestStep + 1 ∧
      ∀ growth ∈ growths, growth.cursor + growth.request ≤ growth.after ∧
        (growth.changed → 2 * growth.before ≤ growth.after ∨
          growth.before + longestStep ≤ growth.after ∨ growth.after = buffer.maxSize) ∧
        (growth.before = buffer.maxSize → growth.after = buffer.maxSize) := by
  obtain ⟨disk, hsound⟩ := hreached.sound
  have hwell := hsound.wellFormed
  obtain ⟨growths, hnoted⟩ := (buffer.notePerformAll_keeps operations).exists_run hrun
  have hgrows := notePerformAll_grows hwell (fun _ _ => Nat.le_max_right _ _)
    (Nat.le_max_left (buffer.peak operations) buffer.maxSize) hnoted
  refine ⟨growths, hnoted, fun hnone => ?_, ?_, fun growth hgrowth => ?_⟩
  · exact (notePerformAll_grows hwell (fun request hmem => absurd hmem (hnone request))
      (Nat.le_refl _) hnoted).final_le
  · exact hgrows.changes_le (Nat.le_trans hwell.one_le_cursor hwell.cursor_le_capacity)
  · have hobeys := hgrows.obeys hgrowth
    refine ⟨hobeys.room, fun hchanged => hobeys.strides (by simpa [Growth.changed] using hchanged),
      fun hbefore => ?_⟩
    exact Nat.le_antisymm hobeys.after_le (hbefore ▸ hobeys.before_le)

/-- Seven bytes fill a small buffer, which makes it grow, and so does the record behind them. Nothing
that comes after a reset needs more. -/
theorem growth_bounded_over_a_reset :
    let buffer : Buffer := ⟨.heap, .blank, 8, 1, 8, 256⟩
    let operations : List Operation :=
      [.advance 7, .allocateRecord 21 none, .reset, .append [1, 2]]
    ∃ after replies growths, Session.Reached buffer ∧
      buffer.performAll operations = .ok (after, replies) ∧
      growths = [⟨7, 1, 8, 23⟩, ⟨25, 8, 23, 71⟩, ⟨4, 8, 71, 71⟩, ⟨21, 12, 71, 71⟩, ⟨2, 1, 71, 71⟩] ∧
      growths.countP Growth.changed = 2 ∧ buffer.peak operations = 33 ∧ after.capacity ≤ 99 := by
  intro buffer operations
  have hreached : Session.Reached buffer :=
    .intro (.create (Disk.empty "") 8 256 .heap (by decide) rfl) .refl rfl
  obtain ⟨⟨after, replies⟩, hrun⟩ : ∃ result, buffer.performAll operations = .ok result :=
    exists_eq_ok_of_isOk (by cbv)
  obtain ⟨growths, hnoted, hcapacity, -, -⟩ := growth_bounded hreached hrun
  have hpeak : buffer.peak operations = 33 := by cbv
  have hnotes : (buffer.notePerformAll operations).run.map Prod.snd = .ok
      [⟨7, 1, 8, 23⟩, ⟨25, 8, 23, 71⟩, ⟨4, 8, 71, 71⟩, ⟨21, 12, 71, 71⟩, ⟨2, 1, 71, 71⟩] := by cbv
  have hless := hcapacity (by simp [operations])
  rw [hpeak] at hless
  rw [hnoted] at hnotes
  obtain rfl := Except.ok.inj hnotes
  exact ⟨after, replies, _, hreached, hrun, rfl, rfl, hpeak, hless⟩

end Buffer

end RecordBuffer

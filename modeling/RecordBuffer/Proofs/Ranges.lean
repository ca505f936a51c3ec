import RecordBuffer.Proofs.CutRange
import RecordBuffer.Proofs.Iterators

/-!
# Ranges of records

A range of whole records selects those that start in it, wherever it ends, and
ranges that lie side by side select what they select together. Between two calls
an iterator shows where the next record is. Behind the last record of its range
it shows zero only if that is the last record of the buffer, and otherwise where
the first record out of range starts.
-/

namespace RecordBuffer

variable {offset start stop low middle high : Nat} {payloads left right : List Bytes}
  {visit : Visit}

theorem le_offset_of_mem_visits (hvisit : visit ∈ visits offset payloads) :
    offset ≤ visit.offset := by
  induction payloads generalizing offset with
  | nil => cases hvisit
  | cons payload rest ih =>
      rcases List.mem_cons.mp hvisit with rfl | hvisit
      · exact Nat.le_refl _
      · exact Nat.le_of_add_right_le (ih hvisit)

/-! ## Selecting by offset -/

/-- The records that start in a range, of those that are packed from an offset on. -/
def visitsIn (offset : Nat) (payloads : List Bytes) (start stop : Nat) : List Visit :=
  (visits offset payloads).filter fun visit => start ≤ visit.offset ∧ visit.offset < stop

theorem mem_visitsIn : visit ∈ visitsIn offset payloads start stop ↔
    visit ∈ visits offset payloads ∧ start ≤ visit.offset ∧ visit.offset < stop := by
  rw [visitsIn, List.mem_filter, decide_eq_true_iff]

theorem visitsIn_cons {payload : Bytes} :
    visitsIn offset (payload :: payloads) start stop =
      if start ≤ offset ∧ offset < stop then
        ⟨offset, payload⟩ :: visitsIn (offset + Record.size payload.length) payloads start stop
      else visitsIn (offset + Record.size payload.length) payloads start stop := by
  simp only [visitsIn, visits, List.filter_cons, decide_eq_true_iff]

theorem visitsIn_append :
    visitsIn offset (left ++ right) start stop =
      visitsIn offset left start stop ++
        visitsIn (offset + Record.extent left) right start stop := by
  rw [visitsIn, visits_append, List.filter_append, visitsIn, visitsIn]

/-- Nothing is selected in front of the records. -/
theorem visitsIn_of_stop_le (hstop : stop ≤ offset) :
    visitsIn offset payloads start stop = [] := by
  refine List.filter_eq_nil_iff.mpr fun visit hvisit => ?_
  have hfirst := le_offset_of_mem_visits hvisit
  simp only [decide_eq_true_iff]
  omega

/-- Nothing is selected behind the records. -/
theorem visitsIn_of_le_start (hstart : offset + Record.extent payloads ≤ start) :
    visitsIn offset payloads start stop = [] := by
  refine List.filter_eq_nil_iff.mpr fun visit hvisit => ?_
  have hlast := lt_of_mem_visits hvisit
  simp only [decide_eq_true_iff]
  omega

/-- Neighbouring ranges select what the range of both selects. -/
theorem visitsIn_neighbours (hlow : low ≤ middle) (hhigh : middle ≤ high) :
    visitsIn offset payloads low middle ++ visitsIn offset payloads middle high =
      visitsIn offset payloads low high := by
  induction payloads generalizing offset with
  | nil => rfl
  | cons payload rest ih =>
      have hrest := @ih (offset + Record.size payload.length)
      rw [visitsIn_cons, visitsIn_cons, visitsIn_cons]
      rcases Nat.lt_or_ge offset middle with hbelow | hreached
      · rw [if_neg (show ¬ (middle ≤ offset ∧ offset < high) by omega), ← hrest]
        by_cases hhere : low ≤ offset
        · rw [if_pos ⟨hhere, hbelow⟩, if_pos ⟨hhere, by omega⟩, List.cons_append]
        · rw [if_neg (fun hin => hhere hin.1), if_neg (fun hin => hhere hin.1)]
      · -- The first range ends in front of the record, and so in front of those behind it.
        rw [visitsIn_of_stop_le (Nat.le_add_right_of_le hreached), List.nil_append] at hrest
        rw [if_neg (show ¬ (low ≤ offset ∧ offset < middle) by omega),
          visitsIn_of_stop_le (Nat.le_add_right_of_le hreached), List.nil_append, hrest]
        have hsame : (middle ≤ offset ∧ offset < high) ↔ (low ≤ offset ∧ offset < high) := by omega
        simp only [hsame]

/-- What is selected from a boundary on is met one behind the other. Records in front of it end at
the boundary or before, and others start behind the end of the range. -/
theorem exists_selected {last : Nat} (stop : Nat) (hstart : Boundary offset payloads start)
    (hlast : last = offset + Record.extent payloads) :
    ∃ front met behind, payloads = front ++ (met ++ behind) ∧
      start = offset + Record.extent front ∧
      visitsIn offset payloads start stop = visits start met ∧
      (∀ visit ∈ visits start met, visit.offset < min stop last) ∧
      min stop last ≤ start + Record.extent met := by
  obtain ⟨front, rest, rfl, hstart⟩ := hstart
  rw [Record.extent_append, ← Nat.add_assoc, ← hstart] at hlast
  have hbound : min stop last ≤ start + Record.extent rest := by omega
  obtain ⟨met, behind, rfl, hinside, hreached⟩ := exists_met hbound
  refine ⟨front, met, behind, rfl, hstart, ?_, hinside, hreached⟩
  have hmet : visitsIn start met start stop = visits start met :=
    List.filter_eq_self.mpr fun visit hvisit => by
      have hfirst := le_offset_of_mem_visits hvisit
      have hbelow := hinside visit hvisit
      simp only [decide_eq_true_iff]
      omega
  have hbehind : visitsIn (start + Record.extent met) behind start stop = [] := by
    rw [Record.extent_append] at hlast
    rcases Nat.lt_or_ge (start + Record.extent met) stop with hpast | hstop
    · -- The range goes on behind the records that were met, so there are no others.
      obtain rfl : behind = [] := Record.extent_eq_zero.mp (by omega)
      rfl
    · exact visitsIn_of_stop_le hstop
  rw [visitsIn_append, visitsIn_of_le_start (Nat.le_of_eq hstart.symm), ← hstart, visitsIn_append,
    hmet, hbehind, List.nil_append, List.append_nil]

/-- The last record is selected if some are and none lie behind them. -/
theorem last_mem_visitsIn {front met behind : List Bytes}
    (hstart : start = offset + Record.extent front)
    (hselected : visitsIn offset (front ++ (met ++ behind)) start stop = visits start met) :
    (met ≠ [] ∧ behind = []) ↔
      ∃ final ∈ visitsIn offset (front ++ (met ++ behind)) start stop,
        (visits offset (front ++ (met ++ behind))).getLast? = some final := by
  rw [hselected]
  constructor
  · rintro ⟨hne, rfl⟩
    obtain ⟨init, payload, rfl⟩ := (List.eq_nil_or_concat' met).resolve_left hne
    refine ⟨⟨start + Record.extent init, payload⟩, mem_visits_append init payload [], ?_⟩
    rw [List.append_nil, visits_append, ← hstart, visits_append, visits, visits,
      List.getLast?_append, List.getLast?_concat, Option.some_or]
  · rintro ⟨final, hfinal, hlast⟩
    have hends := stop_of_getLast?_visits hlast
    have hmet := le_of_mem_visits hfinal
    rw [Record.extent_append, Record.extent_append] at hends
    refine ⟨?_, Record.extent_eq_zero.mp (by omega)⟩
    rintro rfl
    cases hfinal

namespace Buffer

variable {buffer : Buffer}

/-- A range that starts at a boundary selects the records that start in it. The walk over it stops
at zero if the last one of them is the last one of the buffer, and otherwise at a boundary that is
not in the range. -/
theorem recordRange_of_boundary (hpacked : buffer.memory.Packed 1 payloads)
    (hcursor : buffer.cursor = 1 + Record.extent payloads)
    (hcapacity : buffer.cursor ≤ buffer.capacity) (hstart : Boundary 1 payloads start)
    (stop : Nat) :
    ∃ last, buffer.recordRange start stop = .ok ⟨visitsIn 1 payloads start stop, last⟩ ∧
      (last = 0 ↔ ∃ final ∈ visitsIn 1 payloads start stop,
        (visits 1 payloads).getLast? = some final) ∧
      (last ≠ 0 → Boundary 1 payloads last ∧ min stop buffer.cursor ≤ last) := by
  obtain ⟨front, met, behind, rfl, hfront, hselected, hinside, hreached⟩ :=
    exists_selected stop hstart hcursor
  have hfinal := last_mem_visitsIn hfront hselected
  have hmet := (Memory.Packed.append_iff.mp (Memory.Packed.append_iff.mp hpacked).2).1
  rw [← hfront] at hmet
  rw [Record.extent_append, Record.extent_append] at hcursor
  have hwalk := trail_of_packed (by omega) hmet (by omega) hcapacity hinside hreached
  have hends : buffer.cursor = start + Record.extent met ↔ behind = [] := by
    rw [← Record.extent_eq_zero]
    omega
  rw [← hends] at hfinal
  rw [← hselected] at hwalk
  refine ⟨_, hwalk, ?_, fun hlast => ?_⟩
  · rw [← hfinal]
    split
    next hall => exact ⟨fun _ => hall, fun _ => rfl⟩
    next hall => exact ⟨by omega, fun hsome => absurd hsome hall⟩
  · split at hlast
    next => exact absurd rfl hlast
    next hall =>
      rw [if_neg hall]
      refine ⟨⟨front ++ met, behind, (List.append_assoc _ _ _).symm, ?_⟩, hreached⟩
      rw [hfront, Record.extent_append, Nat.add_assoc]

/-- Whole records are enumerated from a boundary on by selecting those that start in the range,
wherever it ends. Each of them is yielded by a call before which its offset is shown, and after the
last one nothing is yielded any more. Neighbouring ranges yield one after the other what the range
of both yields. -/
theorem recordRange_selects (hcursor : 1 ≤ buffer.cursor)
    (hcapacity : buffer.cursor ≤ buffer.capacity) (hshort : Record.Short payloads)
    (hbytes : Record.encodeAll payloads = buffer.bytes) :
    (∀ start stop, Boundary 1 payloads start →
      ∃ last, buffer.recordRange start stop = .ok ⟨visitsIn 1 payloads start stop, last.offset⟩ ∧
        (buffer.iterate start stop).Yields buffer (visitsIn 1 payloads start stop) last ∧
        last.Ended buffer) ∧
    ∀ low middle high, Boundary 1 payloads low → Boundary 1 payloads middle →
      low ≤ middle → middle ≤ high →
      ∃ first second both, buffer.recordRange low middle = .ok first ∧
        buffer.recordRange middle high = .ok second ∧
        buffer.recordRange low high = .ok both ∧
        first.visits ++ second.visits = both.visits := by
  obtain ⟨hpacked, hextent⟩ := packed_of_bytes hcursor hshort hbytes
  have hrange := fun start stop (hstart : Boundary 1 payloads start) =>
    recordRange_of_boundary hpacked hextent hcapacity hstart stop
  constructor
  · intro start stop hstart
    obtain ⟨last, hwalk, -⟩ := hrange start stop hstart
    obtain ⟨hyields, hended⟩ := RecordIterator.yields_of_trail hwalk
    exact ⟨_, hwalk, hyields, hended⟩
  · intro low middle high hlow hmiddle hfirst hsecond
    obtain ⟨_, hwalk, -⟩ := hrange low middle hlow
    obtain ⟨_, hwalk', -⟩ := hrange middle high hmiddle
    obtain ⟨_, hboth, -⟩ := hrange low high hlow
    exact ⟨_, _, _, hwalk, hwalk', hboth, visitsIn_neighbours hfirst hsecond⟩

/-- A range that ends within the header of the empty record that it selects, and two ranges that
meet at that record. -/
theorem recordRange_selects_empty_record :
    let buffer : Buffer :=
      { backing := .heap
        memory := Memory.blank.write 1 (Record.encodeAll [[7, 7], [], [8]])
        backed := 64, cursor := 16, capacity := 64, maxSize := 128 }
    Boundary 1 [[7, 7], [], [8]] 7 ∧
      (∃ last, buffer.recordRange 7 10 = .ok ⟨[⟨7, []⟩], last.offset⟩ ∧
        (buffer.iterate 7 10).Yields buffer [⟨7, []⟩] last ∧ last.Ended buffer) ∧
      ∃ first second both, buffer.recordRange 1 7 = .ok first ∧
        buffer.recordRange 7 100 = .ok second ∧ buffer.recordRange 1 100 = .ok both ∧
        first.visits ++ second.visits = both.visits := by
  intro buffer
  have hshort : Record.Short [[7, 7], [], [8]] := by unfold Record.Short; decide
  have hfirst : Boundary 1 [[7, 7], [], [8]] 1 := ⟨[], [[7, 7], [], [8]], rfl, rfl⟩
  have hsecond : Boundary 1 [[7, 7], [], [8]] 7 := ⟨[[7, 7]], [[], [8]], rfl, rfl⟩
  obtain ⟨hselects, hneighbours⟩ := @recordRange_selects _ buffer (show 1 ≤ 16 by decide)
    (show 16 ≤ 64 by decide) hshort (Memory.slice_write _ 1 _).symm
  exact ⟨hsecond, hselects 7 10 hsecond,
    hneighbours 1 7 100 hfirst hsecond (by decide) (by decide)⟩

end Buffer

/-! ## What is shown between two calls -/

namespace RecordIterator

variable {buffer : Buffer} {iterator now last : RecordIterator} {yielded all : List Visit}

/-- What an iterator shows is true of its next call: it is zero exactly if nothing is yielded, and
otherwise the offset of the record that is yielded. -/
def Truthful (buffer : Buffer) (payloads : List Bytes) (iterator : RecordIterator) : Prop :=
  ∃ answer next, iterator.call buffer = .ok (answer, next) ∧
    (iterator.offset = 0 ↔ answer = none) ∧
    ∀ payload, answer = some payload → ⟨iterator.offset, payload⟩ ∈ visits 1 payloads

theorem Ended.truthful_iff (hended : iterator.Ended buffer) :
    iterator.Truthful buffer payloads ↔ iterator.offset = 0 := by
  constructor
  · rintro ⟨answer, next, hcalled, hzero, -⟩
    cases hended.symm.trans hcalled
    exact hzero.mpr rfl
  · intro hzero
    exact ⟨none, iterator, hended, ⟨fun _ => rfl, fun _ => hzero⟩, fun _ hsome => by cases hsome⟩

/-- An iterator that has a record to yield shows where it is. -/
theorem Yields.truthful_or_eq (hyields : Yields buffer iterator yielded now)
    (hall : Yields buffer iterator all last) (hended : last.Ended buffer)
    (hvisits : ∀ visit ∈ all, visit ∈ visits 1 payloads) :
    now.Truthful buffer payloads ∨ now = last := by
  obtain ⟨rest, rfl, hrest⟩ := hyields.exists_rest hall hended
  cases hrest with
  | nothing => exact .inr rfl
  | @record _ next _ payload rest hcalled _ =>
      have hhere := hvisits _ (List.mem_append_right yielded List.mem_cons_self)
      have hone := le_offset_of_mem_visits hhere
      refine .inl ⟨some payload, next, hcalled, ⟨fun hzero => ?_, fun hnone => by cases hnone⟩, ?_⟩
      · simp only at hone
        omega
      · rintro _ ⟨⟩
        exact hhere

end RecordIterator

namespace Buffer

variable {buffer : Buffer}

/-- An iterator over whole records shows the offset of the record that its next call yields, or zero
if there is none, but for one point: behind the last record of its range it shows where the first
record out of range starts, or the cursor of a range that starts there. So what is shown is true
throughout exactly for the ranges that select the last record of the buffer. -/
theorem shown_before_calls (hcursor : 1 ≤ buffer.cursor)
    (hcapacity : buffer.cursor ≤ buffer.capacity) (hshort : Record.Short payloads)
    (hbytes : Record.encodeAll payloads = buffer.bytes) (hstart : Boundary 1 payloads start)
    (stop : Nat) :
    (∀ yielded now, (buffer.iterate start stop).Yields buffer yielded now →
      now.Truthful buffer payloads ∨
        now.Ended buffer ∧ now.offset ≠ 0 ∧ Boundary 1 payloads now.offset ∧
          min stop buffer.cursor ≤ now.offset) ∧
    ((∀ yielded now, (buffer.iterate start stop).Yields buffer yielded now →
      now.Truthful buffer payloads) ↔
      ∃ final ∈ visitsIn 1 payloads start stop, (visits 1 payloads).getLast? = some final) := by
  obtain ⟨hpacked, hextent⟩ := packed_of_bytes hcursor hshort hbytes
  obtain ⟨last, hwalk, hzero, hpast⟩ :=
    recordRange_of_boundary hpacked hextent hcapacity hstart stop
  obtain ⟨hall, hended⟩ := RecordIterator.yields_of_trail hwalk
  have hpoint := fun yielded now
      (hyields : (buffer.iterate start stop).Yields buffer yielded now) =>
    hyields.truthful_or_eq hall hended fun _ hvisit => (mem_visitsIn.mp hvisit).1
  refine ⟨fun yielded now hyields => ?_, ?_⟩
  · obtain htrue | rfl := hpoint yielded now hyields
    · exact .inl htrue
    · by_cases hlast : last = 0
      · exact .inl (hended.truthful_iff.mpr hlast)
      · exact .inr ⟨hended, hlast, hpast hlast⟩
  · rw [← hzero]
    constructor
    · intro htrue
      exact hended.truthful_iff.mp (htrue _ _ hall)
    · intro hlast yielded now hyields
      obtain htrue | rfl := hpoint yielded now hyields
      · exact htrue
      · exact hended.truthful_iff.mpr hlast

/-- Over a range that reaches into the last record, three records are shown and then zero. -/
theorem shown_before_calls_to_last :
    let buffer : Buffer :=
      { backing := .heap
        memory := Memory.blank.write 1 (Record.encodeAll [[7, 7], [], [8]])
        backed := 64, cursor := 16, capacity := 64, maxSize := 128 }
    buffer.bytes = Record.encodeAll [[7, 7], [], [8]] ∧ Boundary 1 [[7, 7], [], [8]] 7 ∧
      ∀ yielded now, (buffer.iterate 7 12).Yields buffer yielded now →
        now.Truthful buffer [[7, 7], [], [8]] := by
  intro buffer
  have hshort : Record.Short [[7, 7], [], [8]] := by unfold Record.Short; decide
  have hbytes : Record.encodeAll [[7, 7], [], [8]] = buffer.bytes :=
    (Memory.slice_write _ 1 _).symm
  have hstart : Boundary 1 [[7, 7], [], [8]] 7 := ⟨[[7, 7]], [[], [8]], rfl, rfl⟩
  obtain ⟨-, hthroughout⟩ := @shown_before_calls _ _ buffer (show 1 ≤ 16 by decide)
    (show 16 ≤ 64 by decide) hshort hbytes hstart 12
  exact ⟨hbytes.symm, hstart, hthroughout.mpr ⟨⟨11, [8]⟩, by decide, rfl⟩⟩

/-- Behind the only record that starts in its range, an iterator shows the one that it will not
yield. -/
theorem shown_out_of_range :
    let buffer : Buffer :=
      { backing := .heap
        memory := Memory.blank.write 1 (Record.encodeAll [[97], [98]])
        backed := 64, cursor := 11, capacity := 64, maxSize := 128 }
    let now : RecordIterator := ⟨6, 6⟩
    buffer.bytes = Record.encodeAll [[97], [98]] ∧ Boundary 1 [[97], [98]] 1 ∧
      (buffer.iterate 1 6).Yields buffer [⟨1, [97]⟩] now ∧
      now.call buffer = .ok (none, now) ∧ now.offset ≠ 0 ∧
      ¬ now.Truthful buffer [[97], [98]] := by
  intro buffer now
  have hended : now.Ended buffer := RecordIterator.ended_iff.mpr (.inr (Nat.le_refl 6))
  have hread : buffer.recordAt 1 = .ok ([97], 6) := by cbv
  refine ⟨Memory.slice_write _ 1 _, ⟨[], [[97], [98]], rfl, rfl⟩, ?_, hended, by decide, ?_⟩
  · exact .record (RecordIterator.call_of_recordAt (by decide) hread) .nothing
  · rw [hended.truthful_iff]
    decide

end Buffer

end RecordBuffer

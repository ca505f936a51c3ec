import RecordBuffer.Proofs.CompletedRun

/-!
# A run that ends in a fault

A run reads options, stores records and sorts them, and all that could be refused
for good is looked up first. What is left are refusals of memory: the buffer itself
may be too long, and so may the table that notes the offsets of a chunk, whose
length is the chunk size asked for and not the number of records.
-/

namespace RecordBuffer

/-- The records of the inputs in front of the first that cannot be read. A dash stands for standard
input, of which the first mention leaves nothing. -/
def inputRecords (disk : Disk) (delimiter : UInt8) : List String → Bytes → List Bytes
  | [], _ => []
  | path :: rest, stdin =>
      match if path = "-" then .ok stdin else disk.read path with
      | .error _ => []
      | .ok data =>
          splitRecords delimiter data ++
            inputRecords disk delimiter rest (if path = "-" then [] else stdin)

/-- If all inputs can be read, these are their records. -/
theorem inputRecords_eq {disk : Disk} {inputs : List String} {stdin : Bytes}
    {contents : List Bytes} (delimiter : UInt8)
    (hinputs : inputContents disk inputs stdin = .ok contents) :
    inputRecords disk delimiter inputs stdin = contents.flatMap (splitRecords delimiter) := by
  induction inputs generalizing stdin contents with
  | nil =>
      cases hinputs
      rfl
  | cons path rest ih =>
      obtain ⟨data, hdata, hinputs⟩ := bind_eq_ok.mp hinputs
      obtain ⟨others, hothers, hinputs⟩ := bind_eq_ok.mp hinputs
      cases hinputs
      simp [inputRecords, hdata, ih hothers]

theorem inputRecords_of_beside {disk other : Disk} (hbeside : disk.Beside other)
    (delimiter : UInt8) (inputs : List String) (stdin : Bytes) :
    inputRecords other delimiter inputs stdin = inputRecords disk delimiter inputs stdin := by
  induction inputs generalizing stdin with
  | nil => rfl
  | cons path rest ih => simp only [inputRecords, ih, hbeside.read_eq path]

namespace Buffer

variable {buffer : Buffer} {disk : Disk} {fault : Fault} {payloads : List Bytes}

/-- Settings without a path are refused for good only if a buffer's own memory is. -/
theorem build_fault {settings : Settings} (hfile : settings.file = none)
    (hbuild : settings.build disk = .error fault) :
    fault = .capacityOverflow ∧ settings.kind = .heap ∧
      Limits.maxExtent < orDefault defaultInitialSize settings.initialSize := by
  unfold Settings.build Settings.sizes at hbuild
  simp only [hfile] at hbuild
  split at hbuild
  next => cases hbuild
  next hsizes =>
  split at hsizes
  next => cases hsizes
  next hmax =>
  simp only [Option.isSome_none, Bool.false_eq_true, false_and, if_false] at hsizes
  split at hsizes
  next => cases hsizes
  cases hsizes
  rw [create_orDefault] at hbuild
  unfold Buffer.create at hbuild
  simp only [if_neg hmax] at hbuild
  split at hbuild
  next => cases hbuild
  next hkind =>
    split at hbuild
    next hmemory =>
      cases hbuild
      exact ⟨rfl, hkind, hmemory⟩
    next => cases hbuild

/-- Sorting all records is refused exactly if there are some and the offsets of a chunk cannot be
noted. -/
theorem Represents.sortRange_refused (compare : Comparator) {chunkSize : Nat}
    (hrepresents : buffer.Represents payloads) (hchunkSize : 1 ≤ chunkSize)
    (hsome : payloads ≠ []) (hmemory : Limits.maxExtent < offsetSize * chunkSize) :
    buffer.sortRange compare 1 buffer.cursor chunkSize = .error .capacityOverflow := by
  have hne : Record.extent payloads ≠ 0 := fun hzero => hsome (Record.extent_eq_zero.mp hzero)
  have hcursor := hrepresents.cursor_eq
  have hrefused := sortBounds_refused (Nat.le_refl 1) hchunkSize hmemory hrepresents.packed
    (Nat.le_of_eq hcursor.symm) hrepresents.wellFormed.cursor_le_capacity
  rw [← hcursor, ← Nat.min_self buffer.cursor] at hrefused
  rw [sortRange_eq]
  exact sortRangeBy_refused compare (by omega) hrefused

theorem Represents.sortRange_nil (compare : Comparator) (chunkSize : Nat)
    (hempty : buffer.Represents []) :
    buffer.sortRange compare 1 buffer.cursor chunkSize = .ok buffer := by
  rw [sortRange_eq, sortRangeBy, hempty.cursor_eq]
  rfl

end Buffer

namespace Job

variable {job : Job} {disk after : Disk} {buffer : Buffer} {payloads : List Bytes} {fault : Fault}
  {stdin : Bytes}

/-- Storing inputs ends in a fault only if memory is refused. -/
theorem storeInputs_fault {inputs : List String} (hrepresents : buffer.Represents payloads)
    (hshort : Record.Short (inputRecords disk job.delimiter inputs stdin))
    (hstore : job.storeInputs Host.ofDisk inputs stdin buffer disk =
      (.error (.fault fault), after)) :
    fault = .capacityOverflow ∧ ¬ buffer.Affords
      (1 + Record.extent (payloads ++ inputRecords disk job.delimiter inputs stdin)) := by
  induction inputs generalizing buffer payloads stdin with
  | nil => cases hstore
  | cons path rest ih =>
      rw [storeInputs_cons] at hstore
      unfold inputRecords at hshort ⊢
      split at hstore
      next => cases hstore
      next data hdata =>
      simp only [hdata] at hshort ⊢
      obtain ⟨hhere, hbehind⟩ := Record.short_append.mp hshort
      rw [← List.append_assoc]
      split at hstore
      next other hstream =>
        cases hstore
        have hrecords : Record.Short (Stream.records { data } job.delimiter) := hhere
        obtain ⟨rfl, hrefused⟩ :=
          Buffer.storeStream_fault hrepresents.wellFormed hrecords hstream
        refine ⟨rfl, fun haffords => hrefused ?_⟩
        apply haffords.evolved (Buffer.Evolved.refl hrepresents.wellFormed)
        rw [hrepresents.cursor_eq, Nat.add_assoc, ← Record.extent_append, Record.extent_append _
          (inputRecords _ _ _ _)]
        exact Nat.add_le_add_left (Nat.le_add_right _ _) 1
      next => cases hstore
      next stored count hstream =>
        obtain ⟨rfl, hrefused⟩ := ih (hrepresents.storeStream hstream) hbehind hstore
        refine ⟨rfl, fun haffords => hrefused ?_⟩
        exact haffords.evolved
          (Buffer.storeStream_evolved hrepresents.wellFormed hstream) (Nat.le_refl _)

theorem storeInputs_evolved {inputs : List String} {stored : Buffer} (hwell : buffer.WellFormed)
    (hstore : job.storeInputs Host.ofDisk inputs stdin buffer disk = (.ok stored, after)) :
    buffer.Evolved stored := by
  induction inputs generalizing buffer stdin with
  | nil =>
      cases hstore
      exact Buffer.Evolved.refl hwell
  | cons path rest ih =>
      rw [storeInputs_cons] at hstore
      split at hstore
      next => cases hstore
      next =>
        split at hstore
        next => cases hstore
        next => cases hstore
        next middle count hstream =>
          have hevolved := Buffer.storeStream_evolved hwell hstream
          exact hevolved.trans (ih hevolved.wellFormed hstore)

/-- Sorting and writing what is stored is refused exactly if there are records and the offsets of
a chunk cannot be noted. -/
theorem sorted_fault (hrepresents : buffer.Represents payloads) (hchunkSize : 1 ≤ job.chunkSize) :
    job.sorted buffer = .error fault ↔ fault = .capacityOverflow ∧ payloads ≠ [] ∧
      Limits.maxExtent < Buffer.offsetSize * job.chunkSize := by
  by_cases hrefused : payloads ≠ [] ∧ Limits.maxExtent < Buffer.offsetSize * job.chunkSize
  · obtain ⟨hsome, hmemory⟩ := hrefused
    have hsorted : job.sorted buffer = .error .capacityOverflow := by
      rw [sorted, hrepresents.sortRange_refused _ hchunkSize hsome hmemory]
      rfl
    simp [hsorted, hsome, hmemory, eq_comm]
  · obtain ⟨bytes, hsorted⟩ : ∃ bytes, job.sorted buffer = .ok bytes := by
      by_cases hempty : payloads = []
      · subst hempty
        exact ⟨_, bind_eq_ok.mpr ⟨buffer, hrepresents.sortRange_nil _ _,
          hrepresents.delimited _ _⟩⟩
      · exact ⟨_, sorted_ok hrepresents hchunkSize
          (Nat.le_of_not_lt fun hmemory => hrefused ⟨hempty, hmemory⟩)⟩
    simp [hsorted, hrefused]

/-- Every input can be read and every record fits, but there are records and the offsets of a chunk
cannot be noted. -/
structure Unsortable (job : Job) (disk : Disk) (stdin : Bytes) : Prop where
  readable : ∃ contents, inputContents disk job.sources stdin = .ok contents
  nonempty : inputRecords disk job.delimiter job.sources stdin ≠ []
  fits : 1 + Record.extent (inputRecords disk job.delimiter job.sources stdin) ≤
    Buffer.orDefault Buffer.defaultMaxSize job.settings.maxSize
  overlong : Limits.maxExtent < Buffer.offsetSize * job.chunkSize

/-- Work in an empty buffer ends in a fault only if memory is refused, to the buffer or for the
offsets of a chunk. -/
theorem process_fault (hempty : buffer.Represents []) (hchunkSize : 1 ≤ job.chunkSize)
    (hmax : buffer.maxSize = Buffer.orDefault Buffer.defaultMaxSize job.settings.maxSize)
    (hshort : Record.Short (inputRecords disk job.delimiter job.sources stdin))
    (hprocess : job.process Host.ofDisk stdin buffer disk = (.error (.fault fault), after)) :
    fault = .capacityOverflow ∧
      (buffer.Affords (1 + Record.extent (inputRecords disk job.delimiter job.sources stdin)) →
        job.Unsortable disk stdin) := by
  cases hstore : job.storeInputs Host.ofDisk job.sources stdin buffer disk with
  | mk result middle =>
  rw [process_eq, hstore] at hprocess
  cases result with
  | error failure =>
      cases hprocess
      obtain ⟨rfl, hrefused⟩ := storeInputs_fault hempty hshort hstore
      exact ⟨rfl, fun haffords => absurd haffords hrefused⟩
  | ok stored =>
      obtain ⟨contents, hcontents, hstored⟩ := storeInputs_stored hempty hstore
      rw [List.nil_append, ← inputRecords_eq job.delimiter hcontents] at hstored
      simp only at hprocess
      split at hprocess
      next other hsorted =>
        cases hprocess
        obtain ⟨rfl, hsome, hmemory⟩ := (sorted_fault hstored hchunkSize).mp hsorted
        refine ⟨rfl, fun _ => ⟨⟨contents, hcontents⟩, hsome, ?_, hmemory⟩⟩
        have hwell := hstored.wellFormed
        rw [← hmax, ← (storeInputs_evolved hempty.wellFormed hstore).maxSize_eq,
          ← hstored.cursor_eq]
        exact Nat.le_trans hwell.cursor_le_capacity hwell.capacity_le_maxSize
      next bytes hsorted =>
        rw [writeOutput_eq] at hprocess
        split at hprocess
        next => cases hprocess
        next => split at hprocess <;> cases hprocess

theorem Unsortable.process (hunsortable : job.Unsortable disk stdin)
    (hempty : buffer.Represents []) (hchunkSize : 1 ≤ job.chunkSize)
    (hmax : buffer.maxSize = Buffer.orDefault Buffer.defaultMaxSize job.settings.maxSize)
    (hshort : Record.Short (inputRecords disk job.delimiter job.sources stdin))
    (haffords : buffer.Affords
      (1 + Record.extent (inputRecords disk job.delimiter job.sources stdin))) :
    job.process Host.ofDisk stdin buffer disk = (.error (.fault .capacityOverflow), disk) := by
  obtain ⟨⟨contents, hcontents⟩, hsome, hfits, hmemory⟩ := hunsortable
  rw [inputRecords_eq job.delimiter hcontents] at hshort haffords hsome hfits
  obtain ⟨stored, hstore, hstored, -⟩ :=
    storeInputs_ok hempty hcontents hshort (by rwa [hmax]) haffords
  have hsorted := (sorted_fault hstored hchunkSize).mpr ⟨rfl, hsome, hmemory⟩
  simp only [process_eq, hstore, hsorted]

theorem unsortable_of_beside {other : Disk} (hbeside : disk.Beside other) :
    job.Unsortable other stdin ↔ job.Unsortable disk stdin := by
  have hcontents := inputContents_of_beside hbeside job.sources stdin
  have hrecords := inputRecords_of_beside hbeside job.delimiter job.sources stdin
  constructor <;> rintro ⟨hreadable, hsome, hfits, hoverlong⟩
  · exact ⟨hcontents ▸ hreadable, hrecords ▸ hsome, hrecords ▸ hfits, hoverlong⟩
  · exact ⟨hcontents.symm ▸ hreadable, hrecords.symm ▸ hsome, hrecords.symm ▸ hfits, hoverlong⟩

/-- The longest memory of its own that the buffer of a run may ask for while records are stored:
what it starts with, or a capacity on the way to all of them. A mapped buffer asks for none. -/
def bufferMemory (job : Job) (records : List Bytes) : Nat :=
  match job.settings.kind with
  | .mapped => 0
  | .heap =>
      max (Buffer.orDefault Buffer.defaultInitialSize job.settings.initialSize)
        (min (Buffer.orDefault Buffer.defaultMaxSize job.settings.maxSize)
          (2 * (1 + Record.extent records) + Buffer.longestStep))

theorem affords_of_bufferMemory {opened : Disk} {records : List Bytes}
    (hfile : job.settings.file = none)
    (hbuild : job.settings.build disk = .ok (opened, .ok buffer))
    (hmemory : job.bufferMemory records ≤ Limits.maxExtent) :
    buffer.Affords (1 + Record.extent records) := by
  obtain ⟨-, backing, rfl, hcases⟩ := Buffer.create_cases (Buffer.create_of_build hfile hbuild)
  rintro rfl
  obtain ⟨hkind, -⟩ | ⟨-, hmapped, -⟩ := hcases
  · simp only [bufferMemory, hkind] at hmemory
    exact Nat.le_trans (Nat.le_max_right _ _) hmemory
  · cases hmapped

/-- Work in a buffer that was made for it. -/
theorem process_of_build {opened : Disk} (hfile : job.settings.file = none)
    (hchunkSize : 1 ≤ job.chunkSize) (hnumbered : disk.Numbered)
    (hshort : Record.Short (inputRecords disk job.delimiter job.sources stdin))
    (hbuild : job.settings.build disk = .ok (opened, .ok buffer)) :
    (∀ fault written, job.process Host.ofDisk stdin buffer opened =
        (.error (.fault fault), written) →
      fault = .capacityOverflow ∧
        (job.bufferMemory (inputRecords disk job.delimiter job.sources stdin) ≤ Limits.maxExtent →
          job.Unsortable disk stdin)) ∧
    (job.bufferMemory (inputRecords disk job.delimiter job.sources stdin) ≤ Limits.maxExtent →
      job.Unsortable disk stdin →
      job.process Host.ofDisk stdin buffer opened =
        (.error (.fault .capacityOverflow), opened)) := by
  obtain ⟨hwell, -, hmax⟩ := Buffer.build_made hbuild
  obtain ⟨hbeside, hcursor, -⟩ := Buffer.build_unnamed hfile hnumbered hbuild
  have hempty : buffer.Represents [] := ⟨hwell, Memory.Packed.nil _ _, hcursor⟩
  have hafford : job.bufferMemory (inputRecords disk job.delimiter job.sources stdin) ≤
      Limits.maxExtent →
        buffer.Affords (1 + Record.extent (inputRecords disk job.delimiter job.sources stdin)) :=
    affords_of_bufferMemory hfile hbuild
  rw [← inputRecords_of_beside hbeside] at hshort hafford ⊢
  simp only [← unsortable_of_beside hbeside]
  constructor
  · intro fault written hprocess
    obtain ⟨rfl, hunsortable⟩ := process_fault hempty hchunkSize hmax hshort hprocess
    exact ⟨rfl, fun hmemory => hunsortable (hafford hmemory)⟩
  · intro hmemory hunsortable
    exact hunsortable.process hempty hchunkSize hmax hshort (hafford hmemory)

/-- A run ends with a result, with an error, or with memory refused. -/
theorem run_faults {exit : Exit} (hfile : job.settings.file = none) (hchunkSize : 1 ≤ job.chunkSize)
    (hnumbered : disk.Numbered)
    (hshort : Record.Short (inputRecords disk job.delimiter job.sources stdin))
    (hrun : job.run Host.ofDisk stdin disk = (exit, after)) :
    (exit.code = 0 ∨ exit.code = 1 ∨ exit = (Failure.fault .capacityOverflow).exit) ∧
      (job.bufferMemory (inputRecords disk job.delimiter job.sources stdin) ≤ Limits.maxExtent →
        (exit.code = 101 ↔
          (∃ opened buffer, job.settings.build disk = .ok (opened, .ok buffer)) ∧
            job.Unsortable disk stdin)) := by
  cases run_ends hfile hnumbered hrun with
  | refused hbuild =>
      obtain ⟨rfl, hkind, hlong⟩ := Buffer.build_fault hfile hbuild
      refine ⟨.inr (.inr rfl), fun hmemory => ?_⟩
      simp only [bufferMemory, hkind] at hmemory
      exact absurd (Nat.le_trans (Nat.le_max_left _ _) hmemory) (Nat.not_le_of_lt hlong)
  | unopened hbuild =>
      refine ⟨.inr (.inl rfl), fun _ => ⟨nofun, ?_⟩⟩
      rintro ⟨⟨opened, buffer, hopened⟩, -⟩
      rw [hbuild] at hopened
      cases hopened
  | @failed opened written after buffer failure hbuild hprocess hrelease =>
      obtain ⟨hfault, hrefused⟩ := process_of_build hfile hchunkSize hnumbered hshort hbuild
      cases failure with
      | fault fault =>
          obtain ⟨rfl, hunsortable⟩ := hfault fault written hprocess
          exact ⟨.inr (.inr rfl), fun hmemory =>
            ⟨fun _ => ⟨⟨opened, buffer, hbuild⟩, hunsortable hmemory⟩, fun _ => rfl⟩⟩
      | error error =>
          refine ⟨.inr (.inl rfl), fun hmemory => ⟨nofun, ?_⟩⟩
          rintro ⟨-, hunsortable⟩
          rw [hrefused hmemory hunsortable] at hprocess
          cases hprocess
  | @completed opened written after buffer stdout hbuild hprocess hrelease =>
      obtain ⟨-, hrefused⟩ := process_of_build hfile hchunkSize hnumbered hshort hbuild
      refine ⟨.inl rfl, fun hmemory => ⟨nofun, ?_⟩⟩
      rintro ⟨-, hunsortable⟩
      rw [hrefused hmemory hunsortable] at hprocess
      cases hprocess

end Job

/-- A command line that was understood and accepted never leads to a fault but for memory that is
refused. With memory for the buffer that is so exactly where the buffer is made, all inputs are read
and all their records stored, and then the offsets of a chunk cannot be noted. The length of that
table is the chunk size asked for, however few the records are. -/
theorem recsort_faults {arguments : List String} {options : CommandLine.Options} {job : Job}
    {stdin : Bytes} {disk after : Disk} {exit : Exit} (hnumbered : disk.Numbered)
    (hparse : CommandLine.parse arguments = .ok options) (hjob : Job.ofOptions options = .ok job)
    (hshort : Record.Short (inputRecords disk job.delimiter job.sources stdin))
    (hrun : recsort Host.ofDisk arguments stdin disk = (exit, after)) :
    (exit.code = 0 ∨ exit.code = 1 ∨ exit = (Failure.fault .capacityOverflow).exit) ∧
      (job.bufferMemory (inputRecords disk job.delimiter job.sources stdin) ≤ Limits.maxExtent →
        (exit.code = 101 ↔
          (∃ opened buffer, job.settings.build disk = .ok (opened, .ok buffer)) ∧
            job.Unsortable disk stdin)) := by
  obtain ⟨hchunkSize, hfile, -⟩ := Job.ofOptions_ok hjob
  simp only [recsort, hparse, hjob] at hrun
  exact Job.run_faults hfile hchunkSize hnumbered hshort hrun

/-- Two records, in chunks for whose offsets there is just enough memory. -/
theorem recsort_faults_longest_chunk :
    let arguments := ["--chunk-size=1152921504606846975"]
    ∃ exit after, recsort Host.ofDisk arguments [98, 10, 97, 10] (Disk.empty "") = (exit, after) ∧
      (exit.code = 0 ∨ exit.code = 1) := by
  intro arguments
  let options : CommandLine.Options := {
    reverse := false, numeric := false, foldCase := false, unique := false, stable := false
    zeroTerminated := false, mapped := false, output := none
    bufferSize := 64, maxSize := 0, chunkSize := 1152921504606846975, files := [] }
  let job : Job := {
    order := {}, delimiter := 10, output := none, inputs := []
    settings := { initialSize := 64 }, chunkSize := 1152921504606846975 }
  have hparse : CommandLine.parse arguments = .ok options := rfl
  have hjob : Job.ofOptions options = .ok job := rfl
  have hshort : Record.Short (inputRecords (Disk.empty "") job.delimiter job.sources
      [98, 10, 97, 10]) := by
    unfold Record.Short
    decide
  cases hrun : recsort Host.ofDisk arguments [98, 10, 97, 10] (Disk.empty "") with
  | mk exit after =>
  obtain ⟨hexit, hfault⟩ := recsort_faults (Disk.numbered_empty "" _) hparse hjob hshort hrun
  refine ⟨exit, after, rfl, ?_⟩
  rcases hexit with hcode | hcode | hcode
  · exact .inl hcode
  · exact .inr hcode
  · obtain ⟨-, hunsortable⟩ := (hfault (by decide)).mp (by rw [hcode]; rfl)
    exact absurd hunsortable.overlong (by decide)

/-- One offset more, and the same two records cannot be sorted. -/
theorem recsort_overlong_chunk :
    let arguments := ["--chunk-size=1152921504606846976"]
    ∃ options job after, CommandLine.parse arguments = .ok options ∧
      Job.ofOptions options = .ok job ∧
      Record.Short (inputRecords (Disk.empty "") job.delimiter job.sources [98, 10, 97, 10]) ∧
      recsort Host.ofDisk arguments [98, 10, 97, 10] (Disk.empty "") =
        ((Failure.fault .capacityOverflow).exit, after) := by
  intro arguments
  let options : CommandLine.Options := {
    reverse := false, numeric := false, foldCase := false, unique := false, stable := false
    zeroTerminated := false, mapped := false, output := none
    bufferSize := 64, maxSize := 0, chunkSize := 1152921504606846976, files := [] }
  let job : Job := {
    order := {}, delimiter := 10, output := none, inputs := []
    settings := { initialSize := 64 }, chunkSize := 1152921504606846976 }
  have hparse : CommandLine.parse arguments = .ok options := rfl
  have hjob : Job.ofOptions options = .ok job := rfl
  have hshort : Record.Short (inputRecords (Disk.empty "") job.delimiter job.sources
      [98, 10, 97, 10]) := by
    unfold Record.Short
    decide
  have hunsortable : job.Unsortable (Disk.empty "") [98, 10, 97, 10] :=
    ⟨⟨[[98, 10, 97, 10]], rfl⟩, by decide, by decide, by decide⟩
  have hrecsort : recsort Host.ofDisk arguments [98, 10, 97, 10] =
      job.run Host.ofDisk [98, 10, 97, 10] := by
    simp only [recsort, hparse, hjob]
  cases hrun : job.run Host.ofDisk [98, 10, 97, 10] (Disk.empty "") with
  | mk exit after =>
  obtain ⟨hexit, hfault⟩ := Job.run_faults rfl (by decide) (Disk.numbered_empty "" _) hshort hrun
  have hcode := (hfault (by decide)).mpr ⟨⟨_, _, rfl⟩, hunsortable⟩
  refine ⟨options, job, after, hparse, hjob, hshort, ?_⟩
  rw [hrecsort, hrun]
  rcases hexit with hother | hother | rfl
  · rw [hother] at hcode
    cases hcode
  · rw [hother] at hcode
    cases hcode
  · rfl

end RecordBuffer

import Mathlib
import RecordBuffer.Proofs.Output
import RecordBuffer.Proofs.RecordList
import RecordBuffer.Recsort

/-!
# What the program writes

With room for all records a run ends well, and its output is that of the
contents of the inputs. Where the buffer keeps its bytes, how large it starts
and in what chunks it sorts do not show. Inputs are read before the output is
opened, so one of them may be the output.
-/

namespace RecordBuffer

/-- What the inputs hold that are named by paths. A dash stands for standard input, of which the
first mention leaves nothing. -/
def inputContents (disk : Disk) : List String → Bytes → Except Cause (List Bytes)
  | [], _ => .ok []
  | path :: rest, stdin => do
      let data ← (if path = "-" then .ok stdin else disk.read path)
      let others ← inputContents disk rest (if path = "-" then [] else stdin)
      return data :: others

/-- The inputs of a job, which are standard input if none is named. -/
def Job.sources (job : Job) : List String := if job.inputs = [] then ["-"] else job.inputs

namespace Buffer

variable {buffer : Buffer} {payloads records : List Bytes}

/-- Records that fit are all stored. -/
theorem Represents.storeRecords_ok (hrepresents : buffer.Represents payloads)
    (hshort : Record.Short records)
    (hfits : 1 + Record.extent (payloads ++ records) ≤ buffer.maxSize)
    (haffords : buffer.Affords (1 + Record.extent (payloads ++ records))) :
    ∃ after, buffer.storeRecords records = .ok (after, none) ∧
      after.Represents (payloads ++ records) ∧ buffer.Evolved after := by
  induction records generalizing buffer payloads with
  | nil =>
      rw [List.append_nil]
      exact ⟨buffer, rfl, hrepresents, Evolved.refl hrepresents.wellFormed⟩
  | cons record rest ih =>
      obtain ⟨hrecord, hrest⟩ := Record.short_cons.mp hshort
      have hwhole : payloads ++ record :: rest = payloads ++ [record] ++ rest := by simp
      rw [hwhole] at hfits haffords ⊢
      have hcursor := hrepresents.cursor_eq
      have hextent : Record.extent (payloads ++ [record] ++ rest) =
          Record.extent payloads + Record.size record.length + Record.extent rest := by
        simp only [Record.extent_append, Record.extent_cons, Record.extent_nil, Nat.add_zero]
      have hroom : buffer.cursor + Record.size record.length ≤ buffer.maxSize := by omega
      obtain ⟨offset, appended, happend⟩ := appendRecord_ok hrepresents.wellFormed hrecord hroom
        (haffords.evolved (Evolved.refl hrepresents.wellFormed) (by omega))
      obtain ⟨-, -, hadvanced, hholds⟩ := appendRecord_advanced hrepresents.wellFormed happend
      obtain ⟨after, hstore, hafter, hevolved⟩ :=
        ih (hrepresents.append hrecord hadvanced hholds) hrest
          (hadvanced.maxSize_eq ▸ hfits) (haffords.evolved hadvanced.toEvolved (Nat.le_refl _))
      refine ⟨after, ?_, hafter, hadvanced.toEvolved.trans hevolved⟩
      rw [Buffer.storeRecords, if_neg (by omega)]
      exact bind_eq_ok.mpr ⟨_, happend, hstore⟩

/-- A stream whose records fit is stored and counted. -/
theorem Represents.storeStream_ok {data : Bytes} {delimiter : UInt8}
    (hrepresents : buffer.Represents payloads)
    (hshort : Record.Short (splitRecords delimiter data))
    (hfits : 1 + Record.extent (payloads ++ splitRecords delimiter data) ≤ buffer.maxSize)
    (haffords : buffer.Affords (1 + Record.extent (payloads ++ splitRecords delimiter data))) :
    ∃ after, buffer.storeStream { data } delimiter =
        .ok (after, .ok (splitRecords delimiter data).length) ∧
      after.Represents (payloads ++ splitRecords delimiter data) ∧ buffer.Evolved after := by
  obtain ⟨after, hstore, hafter, hevolved⟩ := hrepresents.storeRecords_ok hshort hfits haffords
  exact ⟨after, bind_eq_ok.mpr ⟨_, hstore, rfl⟩, hafter, hevolved⟩

end Buffer

/-- A step on a disk hands what it found and what it left to the next step. -/
theorem bind_state {α β : Type} (first : StateM Disk α) (second : α → StateM Disk β) (disk : Disk) :
    (first >>= second) disk = second (first disk).1 (first disk).2 := rfl

namespace Job

variable {job : Job} {disk : Disk} {buffer : Buffer} {payloads : List Bytes}

/-- One input. The disk stays as it is, whatever comes of the input. -/
theorem storeInputs_cons (path : String) (rest : List String) (stdin : Bytes) :
    job.storeInputs Host.ofDisk (path :: rest) stdin buffer disk =
      match if path = "-" then .ok stdin else disk.read path with
      | .error cause => (.error (.error (.io cause)), disk)
      | .ok data =>
          match buffer.storeStream { data } job.delimiter with
          | .error fault => (.error (.fault fault), disk)
          | .ok (_, .error error) => (.error (.error error), disk)
          | .ok (stored, .ok _) =>
              job.storeInputs Host.ofDisk rest (if path = "-" then [] else stdin) stored disk := by
  have hread : Host.ofDisk.input path disk = (disk.read path, disk) := rfl
  rw [storeInputs]
  by_cases hdash : path = "-"
  · simp only [hdash, if_true, pure_bind]
    rcases buffer.storeStream { data := stdin } job.delimiter with _ | ⟨stored, _ | _⟩ <;> rfl
  · simp only [hdash, if_false, bind_state, hread]
    rcases disk.read path with _ | data
    · rfl
    simp only
    rcases buffer.storeStream { data } job.delimiter with _ | ⟨stored, _ | _⟩ <;> rfl

/-- Inputs are only read. -/
theorem storeInputs_disk (inputs : List String) (stdin : Bytes) :
    (job.storeInputs Host.ofDisk inputs stdin buffer disk).2 = disk := by
  induction inputs generalizing stdin buffer with
  | nil => rfl
  | cons path rest ih =>
      rw [storeInputs_cons]
      split
      next => rfl
      next =>
        split
        next => rfl
        next => rfl
        next => exact ih _

/-- Inputs that can be read and whose records fit are all stored, and the disk stays. -/
theorem storeInputs_ok {inputs : List String} {stdin : Bytes} {contents : List Bytes}
    (hrepresents : buffer.Represents payloads)
    (hinputs : inputContents disk inputs stdin = .ok contents)
    (hshort : Record.Short (contents.flatMap (splitRecords job.delimiter)))
    (hfits : 1 + Record.extent (payloads ++ contents.flatMap (splitRecords job.delimiter)) ≤
      buffer.maxSize)
    (haffords : buffer.Affords
      (1 + Record.extent (payloads ++ contents.flatMap (splitRecords job.delimiter)))) :
    ∃ after, job.storeInputs Host.ofDisk inputs stdin buffer disk = (.ok after, disk) ∧
      after.Represents (payloads ++ contents.flatMap (splitRecords job.delimiter)) ∧
      buffer.Evolved after := by
  -- The buffer that an input finds holds the records of those before, so it is any buffer.
  induction inputs generalizing buffer payloads stdin contents with
  | nil =>
      cases hinputs
      rw [List.flatMap_nil, List.append_nil]
      exact ⟨buffer, rfl, hrepresents, Buffer.Evolved.refl hrepresents.wellFormed⟩
  | cons path rest ih =>
      obtain ⟨data, hdata, hinputs⟩ := bind_eq_ok.mp hinputs
      obtain ⟨others, hothers, hinputs⟩ := bind_eq_ok.mp hinputs
      cases hinputs
      rw [List.flatMap_cons] at hshort hfits haffords ⊢
      obtain ⟨hhere, hbehind⟩ := Record.short_append.mp hshort
      rw [← List.append_assoc] at hfits haffords ⊢
      have hless : Record.extent (payloads ++ splitRecords job.delimiter data) ≤
          Record.extent (payloads ++ splitRecords job.delimiter data ++
            others.flatMap (splitRecords job.delimiter)) := by
        rw [Record.extent_append _ (others.flatMap _)]
        exact Nat.le_add_right _ _
      obtain ⟨stored, hstore, hstored, hfirst⟩ := hrepresents.storeStream_ok hhere (by omega)
        (haffords.evolved (Buffer.Evolved.refl hrepresents.wellFormed) (by omega))
      obtain ⟨after, hrest, hafter, hsecond⟩ := ih hstored hothers hbehind
        (hfirst.maxSize_eq ▸ hfits) (haffords.evolved hfirst (Nat.le_refl _))
      refine ⟨after, ?_, hafter, hfirst.trans hsecond⟩
      simp only [storeInputs_cons, hdata, hstore]
      exact hrest

/-- What is to be written is the list of payloads sorted. -/
theorem sorted_ok (hrepresents : buffer.Represents payloads) (hchunkSize : 1 ≤ job.chunkSize)
    (hmemory : Buffer.offsetSize * job.chunkSize ≤ Limits.maxExtent) :
    job.sorted buffer = .ok (joinRecords job.delimiter
      (if job.order.unique then
        dropRepeats job.order.compare none (job.order.compare.sort payloads)
      else job.order.compare.sort payloads)) := by
  obtain ⟨after, hsort, hsorted⟩ :=
    hrepresents.sortRange job.order.compare hchunkSize hmemory
  exact bind_eq_ok.mpr ⟨after, hsort, hsorted.delimited job.order job.delimiter⟩

/-- The work is what the options say, and there is none if records come in chunks of no records. -/
theorem ofOptions_eq_ok {options : CommandLine.Options} (hjob : Job.ofOptions options = .ok job) :
    options.chunkSize ≠ 0 ∧ job = {
      order := {
        reverse := options.reverse
        numeric := options.numeric
        foldCase := options.foldCase
        unique := options.unique
        stable := options.stable }
      delimiter := if options.zeroTerminated then 0x00 else 0x0a
      output := options.output
      inputs := options.files
      settings := {
        initialSize := options.bufferSize
        maxSize := options.maxSize
        kind := if options.mapped then .mapped else .heap }
      chunkSize := options.chunkSize } := by
  unfold Job.ofOptions at hjob
  by_cases hchunkSize : options.chunkSize = 0
  · rw [if_pos hchunkSize] at hjob
    cases hjob
  · rw [if_neg hchunkSize] at hjob
    simp only at hjob
    split at hjob <;> cases hjob
    exact ⟨hchunkSize, rfl⟩

theorem ofOptions_ok {options : CommandLine.Options} (hjob : Job.ofOptions options = .ok job) :
    1 ≤ job.chunkSize ∧ job.settings.file = none ∧ job.settings.maxSize = options.maxSize := by
  obtain ⟨hchunkSize, rfl⟩ := ofOptions_eq_ok hjob
  exact ⟨Nat.one_le_iff_ne_zero.mpr hchunkSize, rfl, rfl⟩

/-- Work on a disk, which is the same until the output is written. -/
theorem process_eq (stdin : Bytes) :
    job.process Host.ofDisk stdin buffer disk =
      match (job.storeInputs Host.ofDisk job.sources stdin buffer disk).1 with
      | .error failure => (.error failure, disk)
      | .ok stored =>
          match job.sorted stored with
          | .error fault => (.error (.fault fault), disk)
          | .ok bytes => job.writeOutput Host.ofDisk bytes disk := by
  rw [process]
  simp only [bind_state]
  rw [← sources, storeInputs_disk]
  rcases (job.storeInputs Host.ofDisk job.sources stdin buffer disk).1 with failure | stored
  · rfl
  · simp only
    cases job.sorted stored <;> rfl

theorem writeOutput_eq (bytes : Bytes) :
    job.writeOutput Host.ofDisk bytes disk =
      match job.output with
      | none => (.ok bytes, disk)
      | some path =>
          match disk.write path bytes with
          | .error cause => (.error (.error (.io cause)), disk)
          | .ok written => (.ok [], written) := by
  rw [writeOutput]
  rcases job.output with _ | path
  · rfl
  · simp only [bind_state, Host.ofDisk]
    cases disk.write path bytes <;> rfl

/-- However the work ends, no file goes missing. -/
theorem process_keeps {stdin : Bytes} {result : Except Failure Bytes} {after : Disk}
    (hprocess : job.process Host.ofDisk stdin buffer disk = (result, after)) :
    disk.Keeps after := by
  rw [process_eq] at hprocess
  split at hprocess
  next =>
    cases hprocess
    exact Disk.Keeps.refl disk
  next =>
  split at hprocess
  next =>
    cases hprocess
    exact Disk.Keeps.refl disk
  next =>
  rw [writeOutput_eq] at hprocess
  split at hprocess
  next =>
    cases hprocess
    exact Disk.Keeps.refl disk
  next =>
  split at hprocess
  next =>
    cases hprocess
    exact Disk.Keeps.refl disk
  next hwrite =>
    cases hprocess
    exact Disk.keeps_of_write hwrite

/-- A run that opens, works and closes well ends well. -/
theorem run_ok {opened written after : Disk} {stdin stdout : Bytes}
    (hopen : job.settings.build disk = .ok (opened, .ok buffer))
    (hprocess : job.process Host.ofDisk stdin buffer opened = (.ok stdout, written))
    (hrelease : buffer.release written = (after, .ok ())) :
    job.run Host.ofDisk stdin disk = ({ code := 0, stdout }, after) := by
  have hopened : Host.ofDisk.openBuffer job.settings disk = (.ok buffer, opened) := by
    simp only [Host.ofDisk, hopen]
  have hclosed : Host.ofDisk.closeBuffer buffer written = (.ok (), after) := by
    simp only [Host.ofDisk, hrelease]
  rw [run, bind_state, hopened]
  simp only [bind_state, hprocess, hclosed]
  rfl

/-- Every way for a run to end. A buffer without a path is always given up well. -/
inductive Ends (job : Job) (stdin : Bytes) (disk : Disk) : Exit → Disk → Prop where
  | refused {fault : Fault} (build : job.settings.build disk = .error fault) :
      Ends job stdin disk (Failure.fault fault).exit disk
  | unopened {after : Disk} {error : StorageError}
      (build : job.settings.build disk = .ok (after, .error error)) :
      Ends job stdin disk (Failure.error error).exit after
  | failed {opened written after : Disk} {buffer : Buffer} {failure : Failure}
      (build : job.settings.build disk = .ok (opened, .ok buffer))
      (process : job.process Host.ofDisk stdin buffer opened = (.error failure, written))
      (release : buffer.release written = (after, .ok ())) :
      Ends job stdin disk failure.exit after
  | completed {opened written after : Disk} {buffer : Buffer} {stdout : Bytes}
      (build : job.settings.build disk = .ok (opened, .ok buffer))
      (process : job.process Host.ofDisk stdin buffer opened = (.ok stdout, written))
      (release : buffer.release written = (after, .ok ())) :
      Ends job stdin disk { code := 0, stdout } after

theorem run_ends {exit : Exit} {after : Disk} {stdin : Bytes} (hfile : job.settings.file = none)
    (hnumbered : disk.Numbered) (hrun : job.run Host.ofDisk stdin disk = (exit, after)) :
    job.Ends stdin disk exit after := by
  rw [run, bind_state] at hrun
  cases hbuild : job.settings.build disk with
  | error fault =>
      have hopened : Host.ofDisk.openBuffer job.settings disk = (.error (.fault fault), disk) := by
        simp only [Host.ofDisk, hbuild]
      rw [hopened] at hrun
      cases hrun
      exact .refused hbuild
  | ok made =>
      obtain ⟨opened, error | buffer⟩ := made
      · have hopened : Host.ofDisk.openBuffer job.settings disk =
            (.error (.error error), opened) := by
          simp only [Host.ofDisk, hbuild]
        rw [hopened] at hrun
        cases hrun
        exact .unopened hbuild
      · have hopened : Host.ofDisk.openBuffer job.settings disk = (.ok buffer, opened) := by
          simp only [Host.ofDisk, hbuild]
        obtain ⟨-, -, hunnamed⟩ := Buffer.build_unnamed hfile hnumbered hbuild
        rw [hopened] at hrun
        simp only [bind_state] at hrun
        cases hprocess : job.process Host.ofDisk stdin buffer opened with
        | mk result written =>
        obtain ⟨released, hrelease⟩ := hunnamed.release_ok (process_keeps hprocess)
        have hclosed : Host.ofDisk.closeBuffer buffer written = (.ok (), released) := by
          simp only [Host.ofDisk, hrelease]
        simp only [hprocess, hclosed] at hrun
        cases result with
        | ok stdout =>
            cases hrun
            exact .completed hbuild hprocess hrelease
        | error failure =>
            cases hrun
            exact .failed hbuild hprocess hrelease

/-- Work in an empty buffer with room for all records writes their sorted output. -/
theorem process_ok {stdin : Bytes} {contents : List Bytes} (hempty : buffer.Represents [])
    (hinputs : inputContents disk job.sources stdin = .ok contents)
    (hshort : Record.Short (contents.flatMap (splitRecords job.delimiter)))
    (hfits : 1 + Record.extent (contents.flatMap (splitRecords job.delimiter)) ≤ buffer.maxSize)
    (haffords : buffer.Affords
      (1 + Record.extent (contents.flatMap (splitRecords job.delimiter))))
    (hchunkSize : 1 ≤ job.chunkSize)
    (hoffsets : Buffer.offsetSize * job.chunkSize ≤ Limits.maxExtent) :
    job.process Host.ofDisk stdin buffer disk =
      job.writeOutput Host.ofDisk (sortedOutput job.order job.delimiter contents) disk := by
  obtain ⟨stored, hstore, hstored, -⟩ := storeInputs_ok hempty hinputs hshort hfits haffords
  simp only [process_eq, hstore, sorted_ok hstored hchunkSize hoffsets]
  rfl

theorem inputContents_of_beside {other : Disk} (hbeside : disk.Beside other)
    (inputs : List String) (stdin : Bytes) :
    inputContents other inputs stdin = inputContents disk inputs stdin := by
  induction inputs generalizing stdin with
  | nil => rfl
  | cons path rest ih => simp only [inputContents, ih, hbeside.read_eq path]

end Job

/-- Whatever the inputs and the flags are, as long as the buffer can be made, the inputs read, the
output opened and the records stored, the program ends well and writes the sorted output, to the
file named for it or else to standard output. The output follows from the order, the delimiter and
what the inputs held when the program started. -/
theorem recsort_sorts {arguments : List String} {options : CommandLine.Options} {job : Job}
    {stdin : Bytes} {disk opened : Disk} {buffer : Buffer} {contents : List Bytes}
    (hnumbered : disk.Numbered) (hparse : CommandLine.parse arguments = .ok options)
    (hjob : Job.ofOptions options = .ok job)
    (hbuffer : job.settings.build disk = .ok (opened, .ok buffer))
    (hinputs : inputContents disk job.sources stdin = .ok contents)
    (houtput : ∀ path, job.output = some path → (disk.openFile path).isOk)
    (hshort : Record.Short (contents.flatMap (splitRecords job.delimiter)))
    (hfits : 1 + Record.extent (contents.flatMap (splitRecords job.delimiter)) ≤
      Buffer.orDefault Buffer.defaultMaxSize options.maxSize)
    (hoffsets : Buffer.offsetSize * job.chunkSize ≤ Limits.maxExtent)
    (hmemory : buffer.Affords
      (1 + Record.extent (contents.flatMap (splitRecords job.delimiter)))) :
    ∃ after, recsort Host.ofDisk arguments stdin disk =
        ({ code := 0, stdout := if job.output = none then
            sortedOutput job.order job.delimiter contents else [] }, after) ∧
      (∀ path, job.output = some path →
        after.read path = .ok (sortedOutput job.order job.delimiter contents)) ∧
      SortedOutput job.order job.delimiter contents
        (sortedOutput job.order job.delimiter contents) := by
  obtain ⟨hchunkSize, hfile, hmax⟩ := Job.ofOptions_ok hjob
  obtain ⟨hwell, -, hmaxSize⟩ := Buffer.build_made hbuffer
  obtain ⟨hbeside, hcursor, hunnamed⟩ := Buffer.build_unnamed hfile hnumbered hbuffer
  have hempty : buffer.Represents [] := ⟨hwell, Memory.Packed.nil _ _, hcursor⟩
  have hprocess := Job.process_ok hempty ((Job.inputContents_of_beside hbeside _ _).trans hinputs)
    hshort (by rw [hmaxSize, hmax]; exact hfits) hmemory hchunkSize hoffsets
  have hrecsort : recsort Host.ofDisk arguments stdin = job.run Host.ofDisk stdin := by
    simp only [recsort, hparse, hjob]
  rw [hrecsort]
  have hspec := sortedOutput_spec job.order job.delimiter contents
  cases houtputPath : job.output with
  | none =>
      obtain ⟨after, hrelease⟩ := hunnamed.release_ok (Disk.Keeps.refl opened)
      rw [Job.writeOutput_eq, houtputPath] at hprocess
      exact ⟨after, Job.run_ok hbuffer hprocess hrelease, nofun, hspec⟩
  | some path =>
      obtain ⟨file, hopen⟩ := exists_eq_ok_of_isOk (houtput path houtputPath)
      obtain ⟨written, hwrite, hread⟩ := Disk.write_of_beside hnumbered hbeside hopen
        (sortedOutput job.order job.delimiter contents)
      have hkeeps := Disk.keeps_of_write hwrite
      obtain ⟨after, hrelease⟩ := hunnamed.release_ok hkeeps
      simp only [Job.writeOutput_eq, houtputPath, hwrite] at hprocess
      refine ⟨after, Job.run_ok hbuffer hprocess hrelease, ?_, hspec⟩
      rintro _ ⟨⟩
      exact hunnamed.read_of_release hkeeps hread hrelease

/-- The output is one of the inputs, the buffer is mapped, and a record repeats across inputs. -/
theorem recsort_sorts_in_place :
    ∃ disk after, ((Disk.empty "").makeDirectories "d").write "d/in" [99, 10, 97, 10] = .ok disk ∧
      recsort Host.ofDisk ["-u", "--mmap", "-o", "d/in", "d/in", "-"] [98, 10, 97] disk =
        ({ code := 0, stdout := [] }, after) ∧
      after.read "d/in" = .ok [97, 10, 98, 10, 99, 10] := by
  let before := (((Disk.empty "").makeDirectories "d").addFile [.given "d", .given "in"] .empty).1
  let disk := before.store 0 (.ofBytes [99, 10, 97, 10])
  let options : CommandLine.Options := {
    reverse := false, numeric := false, foldCase := false, unique := true, stable := false
    zeroTerminated := false, mapped := true, output := some "d/in"
    bufferSize := 64, maxSize := 0, chunkSize := 1024, files := ["d/in", "-"] }
  let job : Job := {
    order := { unique := true }, delimiter := 10, output := some "d/in", inputs := ["d/in", "-"]
    settings := { initialSize := 64, kind := .mapped }, chunkSize := 1024 }
  let contents : List Bytes := [[99, 10, 97, 10], [98, 10, 97]]
  have hwrite : ((Disk.empty "").makeDirectories "d").write "d/in" [99, 10, 97, 10] = .ok disk :=
    rfl
  have hnumbered : disk.Numbered := ((Disk.numbered_empty "" _).makeDirectories "d").write hwrite
  have hparse : CommandLine.parse ["-u", "--mmap", "-o", "d/in", "d/in", "-"] = .ok options := rfl
  have hjob : Job.ofOptions options = .ok job := rfl
  obtain ⟨opened, hbuffer⟩ : ∃ opened, job.settings.build disk =
      .ok (opened, .ok ⟨.mapped 1 (.temporary 1), .blank, 64, 1, 64, Buffer.defaultMaxSize⟩) :=
    ⟨_, rfl⟩
  have hinputs : inputContents disk job.sources [98, 10, 97] = .ok contents := by cbv
  have hrecords : contents.flatMap (splitRecords job.delimiter) = [[99], [97], [98], [97]] := by
    decide
  have hshort : Record.Short (contents.flatMap (splitRecords job.delimiter)) := by
    rw [hrecords]
    unfold Record.Short
    decide
  have houtput : sortedOutput job.order job.delimiter contents = [97, 10, 98, 10, 99, 10] := by cbv
  obtain ⟨after, hrun, hread, -⟩ := recsort_sorts hnumbered hparse hjob hbuffer hinputs
    (fun path hpath => by cases hpath; decide) hshort (by rw [hrecords]; decide) (by decide)
    (fun hheap => by cases hheap)
  exact ⟨disk, after, hwrite, hrun, houtput ▸ hread "d/in" rfl⟩

end RecordBuffer

import RecordBuffer.Proofs.StoredPrefix

/-!
# A run that ends well

An output tells that the whole run succeeded. Every input was read then, every
record was stored, and what was written is the sorted output for the contents of
the inputs, so nothing has to be known about sizes or memory to say what it is.
-/

namespace RecordBuffer

namespace Buffer

variable {buffer after : Buffer} {payloads : List Bytes}

/-- A stream that was stored without an error was stored whole. -/
theorem Represents.storeStream {data : Bytes} {delimiter : UInt8} {count : Nat}
    (hrepresents : buffer.Represents payloads)
    (hstore : buffer.storeStream { data } delimiter = .ok (after, .ok count)) :
    after.Represents (payloads ++ splitRecords delimiter data) := by
  obtain ⟨⟨stored, refused⟩, hrecords, hstore⟩ := bind_eq_ok.mp hstore
  obtain ⟨taken, rejected, hfitting, hstored, rfl⟩ := hrepresents.storeRecords hrecords
  cases rejected with
  | some record => cases hstore
  | none =>
      cases hstore
      rwa [(taken_of_fitting hfitting).eq_records] at hstored

/-- A sort that comes back either had nothing to sort or could note the offsets of a chunk. -/
theorem sortRange_eq_ok {compare : Comparator} {start stop chunkSize : Nat}
    (hsort : buffer.sortRange compare start stop chunkSize = .ok after) :
    min stop buffer.cursor ≤ start ∧ after = buffer ∨
      1 ≤ chunkSize ∧ offsetSize * chunkSize ≤ Limits.maxExtent := by
  unfold sortRange at hsort
  simp only at hsort
  split at hsort
  next hempty =>
    cases hsort
    exact Or.inl ⟨hempty, rfl⟩
  split at hsort
  next => cases hsort
  split at hsort
  next => cases hsort
  next hchunkSize =>
    obtain ⟨bounds, -, hsort⟩ := bind_eq_ok.mp hsort
    split at hsort
    next => cases hsort
    next hmemory =>
      exact Or.inr ⟨Nat.one_le_iff_ne_zero.mpr hchunkSize, Nat.le_of_not_lt hmemory⟩

theorem Represents.of_sortRange {compare : Comparator} [Std.TransCmp compare] {chunkSize : Nat}
    (hrepresents : buffer.Represents payloads)
    (hsort : buffer.sortRange compare 1 buffer.cursor chunkSize = .ok after) :
    after.Represents (compare.sort payloads) := by
  rcases sortRange_eq_ok hsort with ⟨hempty, rfl⟩ | ⟨hchunkSize, hmemory⟩
  · rw [Nat.min_self, hrepresents.cursor_eq] at hempty
    obtain rfl : payloads = [] := Record.extent_eq_zero.mp (by omega)
    rwa [List.perm_nil.mp (compare.sort_perm [])]
  · obtain ⟨sorted, hsorted, hafter⟩ := hrepresents.sortRange compare hchunkSize hmemory
    rw [hsort] at hsorted
    cases hsorted
    exact hafter

end Buffer

namespace Job

variable {job : Job} {disk after : Disk} {buffer stored : Buffer} {payloads : List Bytes}
  {stdin bytes stdout : Bytes}

/-- Inputs that were stored could be read, and the buffer holds their records in order. -/
theorem storeInputs_stored {inputs : List String} (hrepresents : buffer.Represents payloads)
    (hstore : job.storeInputs Host.ofDisk inputs stdin buffer disk = (.ok stored, after)) :
    ∃ contents, inputContents disk inputs stdin = .ok contents ∧
      stored.Represents (payloads ++ contents.flatMap (splitRecords job.delimiter)) := by
  induction inputs generalizing buffer payloads stdin with
  | nil =>
      cases hstore
      exact ⟨[], rfl, by rwa [List.flatMap_nil, List.append_nil]⟩
  | cons path rest ih =>
      rw [storeInputs_cons] at hstore
      split at hstore
      next => cases hstore
      next data hdata =>
        split at hstore
        next => cases hstore
        next => cases hstore
        next middle count hstream =>
          obtain ⟨others, hothers, hafter⟩ := ih (hrepresents.storeStream hstream) hstore
          refine ⟨data :: others, ?_, ?_⟩
          · exact bind_eq_ok.mpr ⟨data, hdata, bind_eq_ok.mpr ⟨others, hothers, rfl⟩⟩
          · rwa [List.flatMap_cons, ← List.append_assoc]

/-- Bytes that came out of a sort are the sorted records with their delimiters. -/
theorem sorted_eq (hrepresents : buffer.Represents payloads)
    (hsorted : job.sorted buffer = .ok bytes) :
    bytes = joinRecords job.delimiter
      (if job.order.unique then
        dropRepeats job.order.compare none (job.order.compare.sort payloads)
      else job.order.compare.sort payloads) := by
  obtain ⟨sorted, hsort, hsorted⟩ := bind_eq_ok.mp hsorted
  rw [(hrepresents.of_sortRange hsort).delimited] at hsorted
  exact (Except.ok.inj hsorted).symm

/-- Output that was written is in its file, or it is left for standard output. -/
theorem writeOutput_written
    (hwritten : job.writeOutput Host.ofDisk bytes disk = (.ok stdout, after)) :
    stdout = (if job.output = none then bytes else []) ∧
      ∀ path, job.output = some path → disk.write path bytes = .ok after := by
  rw [writeOutput_eq] at hwritten
  split at hwritten
  next houtput =>
    cases hwritten
    exact ⟨(if_pos houtput).symm, fun path hpath => by rw [houtput] at hpath; cases hpath⟩
  next path houtput =>
    split at hwritten
    next => cases hwritten
    next hwrite =>
      cases hwritten
      refine ⟨(if_neg (by rw [houtput]; exact nofun)).symm, ?_⟩
      intro other hother
      rw [houtput] at hother
      cases hother
      exact hwrite

/-- Work that ends well has stored all inputs, sorted them and written the result. -/
theorem process_completed
    (hprocess : job.process Host.ofDisk stdin buffer disk = (.ok stdout, after)) :
    ∃ stored bytes, job.storeInputs Host.ofDisk job.sources stdin buffer disk = (.ok stored, disk) ∧
      job.sorted stored = .ok bytes ∧
      job.writeOutput Host.ofDisk bytes disk = (.ok stdout, after) := by
  rw [process_eq] at hprocess
  split at hprocess
  next => cases hprocess
  next stored hstore =>
  split at hprocess
  next => cases hprocess
  next bytes hsorted =>
    exact ⟨stored, bytes, Prod.ext hstore (storeInputs_disk _ _), hsorted, hprocess⟩

/-- A run that ended well has read all inputs and left the sorted output for them. -/
theorem run_completed {exit : Exit} (hfile : job.settings.file = none)
    (hnumbered : disk.Numbered) (hrun : job.run Host.ofDisk stdin disk = (exit, after))
    (hcode : exit.code = 0) :
    ∃ contents, inputContents disk job.sources stdin = .ok contents ∧
      exit.stdout = (if job.output = none then
        sortedOutput job.order job.delimiter contents else []) ∧
      ∀ path, job.output = some path →
        after.read path = .ok (sortedOutput job.order job.delimiter contents) := by
  cases run_ends hfile hnumbered hrun with
  | refused => cases hcode
  | unopened => cases hcode
  | @failed _ _ _ _ failure => cases failure <;> cases hcode
  | @completed opened written _ buffer stdout hbuild hprocess hrelease =>
      obtain ⟨hwell, -, -⟩ := Buffer.build_made hbuild
      obtain ⟨hbeside, hcursor, hunnamed⟩ := Buffer.build_unnamed hfile hnumbered hbuild
      have hempty : buffer.Represents [] := ⟨hwell, Memory.Packed.nil _ _, hcursor⟩
      obtain ⟨stored, bytes, hstore, hsorted, hwrite⟩ := process_completed hprocess
      obtain ⟨contents, hcontents, hstored⟩ := storeInputs_stored hempty hstore
      rw [inputContents_of_beside hbeside] at hcontents
      obtain rfl : bytes = sortedOutput job.order job.delimiter contents :=
        sorted_eq hstored hsorted
      obtain ⟨hstdout, houtput⟩ := writeOutput_written hwrite
      refine ⟨contents, hcontents, hstdout, ?_⟩
      intro path hpath
      obtain ⟨⟨other, number, data⟩, hopen, -⟩ := bind_eq_ok.mp (houtput path hpath)
      obtain ⟨others, hopen⟩ := hbeside.openFile_isOk hopen
      obtain ⟨last, hlast, hread⟩ := Disk.write_of_beside hnumbered hbeside hopen
        (sortedOutput job.order job.delimiter contents)
      rw [houtput path hpath] at hlast
      cases hlast
      exact hunnamed.read_of_release (process_keeps hprocess) hread hrelease

end Job

/-- Arguments that are understood and a run that ends well: what was written is the sorted output
for the contents that the inputs had. -/
theorem recsort_completed {arguments : List String} {options : CommandLine.Options}
    {stdin : Bytes} {disk after : Disk} {exit : Exit} (hnumbered : disk.Numbered)
    (hparse : CommandLine.parse arguments = .ok options)
    (hrun : recsort Host.ofDisk arguments stdin disk = (exit, after)) (hcode : exit.code = 0) :
    ∃ job contents, Job.ofOptions options = .ok job ∧
      inputContents disk job.sources stdin = .ok contents ∧
      exit.stdout = (if job.output = none then
        sortedOutput job.order job.delimiter contents else []) ∧
      ∀ path, job.output = some path →
        after.read path = .ok (sortedOutput job.order job.delimiter contents) := by
  simp only [recsort, hparse] at hrun
  cases hjob : Job.ofOptions options with
  | error error =>
      simp only [hjob] at hrun
      cases hrun
      cases hcode
  | ok job =>
      simp only [hjob] at hrun
      obtain ⟨-, hfile, -⟩ := Job.ofOptions_ok hjob
      obtain ⟨contents, hcontents⟩ := Job.run_completed hfile hnumbered hrun hcode
      exact ⟨job, contents, rfl, hcontents⟩

end RecordBuffer

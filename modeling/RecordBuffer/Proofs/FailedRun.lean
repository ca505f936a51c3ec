import RecordBuffer.Proofs.FailedCreation
import RecordBuffer.Proofs.Program

/-!
# A run that fails

A run that ends with an error has read inputs, stored them, perhaps sorted them,
and nothing else. The output is opened after the last input was read, and the
buffer is given up whichever way the run ends, so no file tells that the run was
ever started.
-/

namespace RecordBuffer

namespace Disk

variable {before after : Disk} {location : Location} {number : Nat}

/-- The same directories and files, with the same bytes. -/
def SameFiles (before after : Disk) : Prop :=
  ∀ location, after.find? location = before.find? location

namespace SameFiles

theorem refl (disk : Disk) : disk.SameFiles disk := fun _ => rfl

theorem walk (hsame : before.SameFiles after) (start : Location) (names : List String) :
    after.walk start names = before.walk start names := by
  induction names generalizing start with
  | nil => rw [Disk.walk, Disk.walk]
  | cons name rest ih => simp only [Disk.walk, hsame start, ih]

/-- Whatever path is read, it reads the same. -/
theorem read (hsame : before.SameFiles after) (path : String) :
    after.read path = before.read path := by
  simp only [Disk.read, locate, hsame.walk, hsame _]

end SameFiles

/-! ## Temporary files that are removed again -/

/-- A number that was not handed out is that of no file. -/
theorem Numbered.find?_store (hnumbered : before.Numbered) (place : Location) (data : FileData) :
    (before.find? place).map (Entry.stored before.nextNumber data) = before.find? place := by
  cases hentry : before.find? place with
  | none => rfl
  | some entry =>
      cases entry with
      | directory => rfl
      | file other old =>
          have hother := hnumbered.file_lt place other old hentry
          rw [Option.map_some, Entry.stored, if_neg (Nat.ne_of_lt hother)]

/-- Removing a file that was added and given other bytes undoes everything. -/
theorem Numbered.sameFiles_erase (hnumbered : before.Numbered)
    (hnothing : before.find? location = none) (data stored : FileData) :
    before.SameFiles
      (((before.addFile location data).1.store before.nextNumber stored).erase location) := by
  intro place
  have hbelow := ne_nil_of_find? hnothing
  rw [find?_erase _ _ _ hbelow]
  split
  next hplace => rw [hplace, hnothing]
  next hplace =>
    rw [Disk.find?_store, find?_addFile _ _ _ _ hbelow, if_neg hplace, hnumbered.find?_store]

end Disk

namespace Buffer

variable {buffer : Buffer} {before after : Disk}

/-- Making a buffer without a path and giving it up at once changes no file. -/
theorem release_of_build {settings : Settings} (hfile : settings.file = none)
    (hnumbered : before.Numbered) (hmade : settings.build before = .ok (after, .ok buffer)) :
    ∃ released, buffer.release after = (released, .ok ()) ∧ before.SameFiles released := by
  obtain ⟨-, backing, rfl, ⟨-, rfl, rfl⟩ | ⟨-, rfl, -, directory, hdirectory, hnothing, rfl⟩⟩ :=
    create_cases (create_of_build hfile hmade)
  · exact ⟨after, rfl, Disk.SameFiles.refl after⟩
  · obtain ⟨hlocate, hfind⟩ := Disk.temporary_added hdirectory hnothing
      ⟨.blank, orDefault defaultInitialSize settings.initialSize⟩
    exact ⟨_, release_of_file rfl hlocate hfind, hnumbered.sameFiles_erase hnothing _ _⟩

end Buffer

namespace Job

variable {job : Job} {disk after : Disk} {buffer : Buffer} {stdin : Bytes}

/-- Work that fails has not written anything. -/
theorem process_failed {failure : Failure}
    (hfailed : job.process Host.ofDisk stdin buffer disk = (.error failure, after)) :
    after = disk := by
  rw [process_eq] at hfailed
  split at hfailed
  next => exact (Prod.mk.inj hfailed).2.symm
  next =>
  split at hfailed
  next => exact (Prod.mk.inj hfailed).2.symm
  next =>
  rw [writeOutput_eq] at hfailed
  split at hfailed
  next => cases hfailed
  next =>
  split at hfailed
  next => exact (Prod.mk.inj hfailed).2.symm
  next => cases hfailed

/-- A run that ends with an error has no output and leaves the files as they were. -/
theorem run_failed {exit : Exit} (hfile : job.settings.file = none) (hnumbered : disk.Numbered)
    (hrun : job.run Host.ofDisk stdin disk = (exit, after)) (hcode : exit.code = 1) :
    exit.stdout = [] ∧ disk.SameFiles after := by
  cases run_ends hfile hnumbered hrun with
  | refused => cases hcode
  | unopened hbuild =>
      obtain rfl | ⟨path, hsome, -⟩ := Buffer.build_failed hbuild
      · exact ⟨rfl, Disk.SameFiles.refl _⟩
      · rw [hfile] at hsome
        cases hsome
  | @failed opened written after buffer failure hbuild hprocess hrelease =>
      obtain rfl := process_failed hprocess
      obtain ⟨last, hlast, hsame⟩ := Buffer.release_of_build hfile hnumbered hbuild
      rw [hrelease] at hlast
      cases hlast
      cases failure with
      | fault fault => cases hcode
      | error error => exact ⟨rfl, hsame⟩
  | completed => cases hcode

end Job

/-- A run that ends with an error writes nothing, whatever the arguments and the inputs are and
wherever it fails. Every directory and every file is there as before, with the bytes it had, and
there is no other. -/
theorem recsort_failed {arguments : List String} {stdin : Bytes} {disk after : Disk} {exit : Exit}
    (hnumbered : disk.Numbered)
    (hrun : recsort Host.ofDisk arguments stdin disk = (exit, after)) (hcode : exit.code = 1) :
    exit.stdout = [] ∧ disk.SameFiles after ∧ ∀ path, after.read path = disk.read path := by
  have hunchanged : exit.stdout = [] ∧ disk.SameFiles after := by
    unfold recsort at hrun
    cases hparse : CommandLine.parse arguments with
    | error usage =>
        simp only [hparse] at hrun
        cases hrun
        cases usage <;> cases hcode
    | ok options =>
        simp only [hparse] at hrun
        cases hjob : Job.ofOptions options with
        | error error =>
            simp only [hjob] at hrun
            cases hrun
            exact ⟨rfl, Disk.SameFiles.refl _⟩
        | ok job =>
            simp only [hjob] at hrun
            obtain ⟨-, hfile, -⟩ := Job.ofOptions_ok hjob
            exact Job.run_failed hfile hnumbered hrun hcode
  exact ⟨hunchanged.1, hunchanged.2, hunchanged.2.read⟩

/-- The output exists, the buffer is mapped, and the second input is missing. -/
theorem recsort_failed_midway :
    ∃ disk exit after, (Disk.empty "").write "in" [98, 10, 97, 10] = .ok disk ∧
      recsort Host.ofDisk ["--mmap", "-o", "in", "in", "missing"] [] disk = (exit, after) ∧
      exit.code = 1 ∧ exit.stdout = [] ∧ after.read "in" = .ok [98, 10, 97, 10] := by
  let disk := ((Disk.empty "").addFile [.given "in"] .empty).1.store 0 (.ofBytes [98, 10, 97, 10])
  let options : CommandLine.Options := {
    reverse := false, numeric := false, foldCase := false, unique := false, stable := false
    zeroTerminated := false, mapped := true, output := some "in"
    bufferSize := 64, maxSize := 0, chunkSize := 1024, files := ["in", "missing"] }
  let job : Job := {
    order := {}, delimiter := 10, output := some "in", inputs := ["in", "missing"]
    settings := { initialSize := 64, kind := .mapped }, chunkSize := 1024 }
  have hwrite : (Disk.empty "").write "in" [98, 10, 97, 10] = .ok disk := rfl
  have hnumbered : disk.Numbered := (Disk.numbered_empty "" _).write hwrite
  have hparse : CommandLine.parse ["--mmap", "-o", "in", "in", "missing"] = .ok options := rfl
  have hjob : Job.ofOptions options = .ok job := rfl
  have hrecsort : recsort Host.ofDisk ["--mmap", "-o", "in", "in", "missing"] [] disk =
      job.run Host.ofDisk [] disk := by
    simp only [recsort, hparse, hjob]
  let opened := (disk.addFile [.temporary 1] { memory := .blank, length := 64 }).1
  let buffer : Buffer := ⟨.mapped 1 (.temporary 1), .blank, 64, 1, 64, Buffer.defaultMaxSize⟩
  have hopened : Host.ofDisk.openBuffer job.settings disk = (.ok buffer, opened) := rfl
  have hprocess : (job.process Host.ofDisk [] buffer opened).1 =
      .error (.error (.io .noSuchFile)) := by
    cbv
  have hcode : (job.run Host.ofDisk [] disk).1.code = 1 := by
    simp only [Job.run, bind_state, hopened, hprocess]
    rfl
  have hbefore : disk.read "in" = .ok [98, 10, 97, 10] := by cbv
  generalize job.run Host.ofDisk [] disk = result at hrecsort hcode
  obtain ⟨exit, after⟩ := result
  obtain ⟨hstdout, -, hread⟩ := recsort_failed hnumbered hrecsort hcode
  exact ⟨disk, exit, after, hwrite, hrecsort, hcode, hstdout, (hread "in").trans hbefore⟩

end RecordBuffer

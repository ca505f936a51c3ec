import RecordBuffer.Proofs.Names
import RecordBuffer.Settings

/-!
# Buffers as they are made

However a buffer is made, its sizes are in order. A mapped one finds a file as
long as its capacity, with the same bytes, also where that file was there before
with more or less in it than was asked for. Nothing is mapped that the machine
does not agree to.
-/

namespace RecordBuffer

namespace Disk

/-- A length can be addressed, and the machine agrees to map it. -/
def Maps (disk : Disk) (length : Nat) : Prop :=
  length ≤ Limits.maxExtent ∧ disk.grants length = true

instance (disk : Disk) (length : Nat) : Decidable (disk.Maps length) :=
  inferInstanceAs (Decidable (_ ∧ _))

/-- A file that replaces a new one might have been added in its place. -/
theorem put_addFile (disk : Disk) (location : Location) (first second : FileData) :
    (disk.addFile location first).1.put location (.file disk.nextNumber second) =
      (disk.addFile location second).1 := by
  simp [addFile, put]

theorem ne_of_mem_entries {disk : Disk} {location : Location} {entry : Location × Entry}
    (hnothing : disk.find? location = none) (hentry : entry ∈ disk.entries) :
    entry.1 ≠ location := by
  rw [find?, if_neg (ne_nil_of_find? hnothing), Option.map_eq_none_iff, List.find?_eq_none]
    at hnothing
  simpa using hnothing entry hentry

/-- A new file leaves no trace when it is taken back. -/
theorem takeBack_addFile {disk : Disk} {location : Location}
    (hnothing : disk.find? location = none) (data : FileData) :
    (disk.addFile location data).1.takeBack location disk.nextNumber = disk := by
  have hentries : disk.entries.filter (fun old => old.1 ≠ location) = disk.entries :=
    List.filter_eq_self.mpr fun _ hentry => decide_eq_true (ne_of_mem_entries hnothing hentry)
  simp only [addFile, put, takeBack, erase]
  rw [List.filter_cons_of_neg (by simp), List.filter_filter]
  simp only [Bool.and_self, hentries]

end Disk

namespace Buffer

variable {buffer : Buffer} {before after disk : Disk} {name : FileName}
  {size maxSize startOffset : Nat}

/-- A mapped buffer and its file have the same bytes, and the file is as long as the capacity.
The largest capacity can be addressed. -/
def ShownOn (buffer : Buffer) (disk : Disk) : Prop :=
  ∀ number name, buffer.backing = .mapped number name →
    disk.load? number = some ⟨buffer.memory, buffer.capacity⟩ ∧
      buffer.maxSize ≤ Limits.maxExtent

/-- A buffer of blank memory. -/
theorem blank_wellFormed (backing : Backing) (hsize : 1 ≤ size) (hmax : size ≤ maxSize) :
    WellFormed ⟨backing, .blank, size, 1, size, maxSize⟩ :=
  ⟨Nat.le_refl _, hsize, hmax, rfl, fun address _ => Memory.get_blank address⟩

theorem one_le_orDefault (size : Nat) : 1 ≤ orDefault defaultInitialSize size := by
  unfold orDefault
  split
  next => decide
  next hne => exact Nat.one_le_iff_ne_zero.mpr hne

theorem orDefault_le {limit : Nat} (hdefault : defaultMaxSize ≤ limit) (hsize : size ≤ limit) :
    orDefault defaultMaxSize size ≤ limit := by
  unfold orDefault
  split <;> assumption

theorem orDefault_orDefault (default size : Nat) :
    orDefault default (orDefault default size) = orDefault default size := by
  unfold orDefault
  split
  next => exact ite_self _
  next => rfl

theorem checkMapping_eq_ok {length : Nat} :
    checkMapping disk name length = .ok () ↔ disk.Maps length := by
  unfold checkMapping Disk.Maps
  split
  next hlong => exact iff_of_false nofun fun hmaps => by omega
  next hlength =>
    rw [and_iff_right (Nat.le_of_not_lt hlength)]
    split
    next hgrants => exact iff_of_true rfl hgrants
    next hrefused => exact iff_of_false nofun hrefused

theorem new_made (hmade : Buffer.new size = .ok buffer) :
    buffer.WellFormed ∧ buffer.cursor = 1 ∧ buffer.backing = .heap ∧
      buffer.maxSize = Limits.maxSize := by
  unfold Buffer.new at hmade
  simp only at hmade
  split at hmade
  next => cases hmade
  next hmemory =>
    cases hmade
    refine ⟨blank_wellFormed .heap (one_le_orDefault size) ?_, rfl, rfl, rfl⟩
    simp only [Limits.maxExtent, Limits.maxSize] at hmemory ⊢
    omega

/-- A temporary file is as long as was asked for, and mapped as far. -/
theorem mapTemporary_eq_ok (hmade : mapTemporary before size maxSize = (after, .ok buffer)) :
    ∃ location, before.temporaryLocation = .ok location ∧
      before.find? (location ++ [.temporary before.nextNumber]) = none ∧ before.Maps maxSize ∧
      after = (before.addFile (location ++ [.temporary before.nextNumber]) ⟨.blank, size⟩).1 ∧
      buffer = ⟨.mapped before.nextNumber (.temporary before.nextNumber), .blank, size, 1, size,
        maxSize⟩ := by
  unfold mapTemporary at hmade
  simp only at hmade
  split at hmade
  next => cases hmade
  next created place number hadd =>
  obtain ⟨location, htemporary, rfl, hnothing, rfl, rfl⟩ := Disk.addTemporary_eq_ok.mp hadd
  split at hmade
  next => cases hmade
  split at hmade
  next => cases hmade
  next hmapping =>
    rw [Disk.put_addFile] at hmade hmapping
    cases hmade
    exact ⟨location, htemporary, hnothing, checkMapping_eq_ok.mp hmapping, rfl, rfl⟩

/-- A buffer that is made without a path is blank. It has memory of its own, or a temporary file
that is added for it. -/
theorem create_cases {kind : Kind}
    (hmade : Buffer.create before size maxSize kind = .ok (after, .ok buffer)) :
    orDefault defaultInitialSize size ≤ orDefault defaultMaxSize maxSize ∧
      ∃ backing, buffer = ⟨backing, .blank, orDefault defaultInitialSize size, 1,
          orDefault defaultInitialSize size, orDefault defaultMaxSize maxSize⟩ ∧
        (kind = .heap ∧ backing = .heap ∧ after = before ∨
          kind = .mapped ∧ backing = .mapped before.nextNumber (.temporary before.nextNumber) ∧
            before.Maps (orDefault defaultMaxSize maxSize) ∧
            ∃ location, before.temporaryLocation = .ok location ∧
              before.find? (location ++ [.temporary before.nextNumber]) = none ∧
              after = (before.addFile (location ++ [.temporary before.nextNumber])
                ⟨.blank, orDefault defaultInitialSize size⟩).1) := by
  unfold Buffer.create at hmade
  simp only at hmade
  split at hmade
  next => cases hmade
  next hmax =>
  refine ⟨Nat.le_of_not_lt hmax, ?_⟩
  split at hmade
  next =>
    obtain ⟨location, htemporary, hnothing, hmaps, rfl, rfl⟩ :=
      mapTemporary_eq_ok (Except.ok.inj hmade)
    exact ⟨_, rfl, Or.inr ⟨rfl, rfl, hmaps, location, htemporary, hnothing, rfl⟩⟩
  next =>
    split at hmade
    next => cases hmade
    next =>
      cases hmade
      exact ⟨_, rfl, Or.inl ⟨rfl, rfl, rfl⟩⟩

theorem create_made {kind : Kind}
    (hmade : Buffer.create before size maxSize kind = .ok (after, .ok buffer)) :
    buffer.WellFormed ∧ buffer.cursor = 1 ∧ buffer.ShownOn after ∧
      buffer.maxSize = orDefault defaultMaxSize maxSize := by
  obtain ⟨hmax, backing, rfl, hcases⟩ := create_cases hmade
  refine ⟨blank_wellFormed _ (one_le_orDefault size) hmax, rfl, ?_, rfl⟩
  rintro number name rfl
  obtain ⟨-, hheap, -⟩ | ⟨-, hmapped, hmaps, location, -, -, rfl⟩ := hcases
  · cases hheap
  · cases hmapped
    exact ⟨Disk.load?_addFile before _ _, hmaps.1⟩

/-- What is refused to an opened file is not mapped. -/
theorem mapFile_eq_ok {number : Nat} {data : FileData}
    (hmade : mapFile before name number data size maxSize startOffset = (after, .ok buffer)) :
    data.length ≤ maxSize ∧ before.Maps maxSize ∧
      after = before.store number (data.resize (max data.length (max size startOffset))) ∧
      buffer = ⟨.mapped number name, (data.resize (max data.length (max size startOffset))).memory,
        max data.length (max size startOffset), max (max startOffset data.length) 1,
        max (max size data.length) (max (max startOffset data.length) 1), maxSize⟩ := by
  unfold mapFile at hmade
  simp only at hmade
  split at hmade
  next => cases hmade
  next hdata =>
  split at hmade
  next => cases hmade
  split at hmade
  next => cases hmade
  next hmapping =>
    cases hmade
    exact ⟨Nat.le_of_not_lt hdata, checkMapping_eq_ok.mp hmapping, rfl, rfl⟩

/-- A file that is mapped is extended where it is shorter than asked for, and never cut. -/
theorem mapFile_made {number : Nat} {data : FileData} (hsize : 1 ≤ size)
    (hmax : size ≤ maxSize) (hstart : startOffset ≤ maxSize) (hload : (before.load? number).isSome)
    (hmade : mapFile before name number data size maxSize startOffset = (after, .ok buffer)) :
    buffer.WellFormed ∧ buffer.ShownOn after ∧ buffer.maxSize = maxSize := by
  obtain ⟨hdata, hmaps, rfl, rfl⟩ := mapFile_eq_ok hmade
  have hlength : max data.length (max size startOffset) =
      max (max size data.length) (max (max startOffset data.length) 1) := by omega
  refine ⟨⟨?_, ?_, ?_, hlength, ?_⟩, ?_, rfl⟩
  · exact Nat.le_max_right _ _
  · exact Nat.le_max_right _ _
  · simp only
    omega
  · intro address haddress
    simp only [FileData.resize] at haddress ⊢
    rw [Memory.get_truncate, if_neg (by omega)]
  · intro other otherName hbacking
    cases hbacking
    refine ⟨?_, hmaps.1⟩
    obtain ⟨old, hold⟩ := Option.isSome_iff_exists.mp hload
    rw [Disk.load?_store, hold]
    simp only [FileData.resize, hlength, Option.map_some]

/-- A name is refused with nothing touched, or the file that it leads to is opened with sizes and a
start that are in order. -/
theorem mapPath_cases {made : Except StorageError Buffer}
    (hmake : Buffer.mapPath before name size maxSize startOffset = .ok (after, made)) :
    (after = before ∧ ((∃ flaw, made = .error (.invalidConfig flaw)) ∨
        ∃ cause, made = .error (.create name cause))) ∨
      orDefault defaultInitialSize size ≤ orDefault defaultMaxSize maxSize ∧
        startOffset ≤ orDefault defaultMaxSize maxSize ∧
        ∃ opened location number data, before.Opened opened name location number data ∧
          mapFile opened name number data (orDefault defaultInitialSize size)
            (orDefault defaultMaxSize maxSize) startOffset = (after, made) := by
  unfold Buffer.mapPath at hmake
  simp only at hmake
  split at hmake
  next => cases hmake
  next hmax =>
  split at hmake
  next =>
    cases hmake
    exact Or.inl ⟨rfl, Or.inl ⟨_, rfl⟩⟩
  next hstart =>
  split at hmake
  next =>
    cases hmake
    exact Or.inl ⟨rfl, Or.inr ⟨_, rfl⟩⟩
  next opened number data hopen =>
    obtain ⟨location, hopened⟩ := Disk.openNamed_eq_ok.mp hopen
    exact Or.inr ⟨Nat.le_of_not_lt hmax, Nat.le_of_not_lt hstart, opened, location, number, data,
      hopened, Except.ok.inj hmake⟩

/-- What is mapped was opened. -/
theorem mapPath_eq_ok
    (hmade : Buffer.mapPath before name size maxSize startOffset = .ok (after, .ok buffer)) :
    orDefault defaultInitialSize size ≤ orDefault defaultMaxSize maxSize ∧
      startOffset ≤ orDefault defaultMaxSize maxSize ∧
      ∃ opened location number data, before.Opened opened name location number data ∧
        mapFile opened name number data (orDefault defaultInitialSize size)
          (orDefault defaultMaxSize maxSize) startOffset = (after, .ok buffer) := by
  obtain ⟨-, ⟨flaw, hflaw⟩ | ⟨cause, hcause⟩⟩ | hmapped := mapPath_cases hmade
  · cases hflaw
  · cases hcause
  · exact hmapped

theorem mapPath_made
    (hmade : Buffer.mapPath before name size maxSize startOffset = .ok (after, .ok buffer)) :
    buffer.WellFormed ∧ buffer.ShownOn after ∧
      buffer.maxSize = orDefault defaultMaxSize maxSize := by
  obtain ⟨hmax, hstart, opened, location, number, data, hopened, hmapped⟩ := mapPath_eq_ok hmade
  exact mapFile_made (one_le_orDefault size) hmax hstart (Disk.load?_of_find? hopened.found) hmapped

/-- A mapped buffer is mapped as far as it may grow. -/
theorem create_maps {kind : Kind} {number : Nat}
    (hmade : Buffer.create before size maxSize kind = .ok (after, .ok buffer))
    (hbacking : buffer.backing = .mapped number name) : after.Maps buffer.maxSize := by
  obtain ⟨-, backing, rfl, ⟨-, rfl, -⟩ | ⟨-, -, hmaps, location, -, -, rfl⟩⟩ := create_cases hmade
  · cases hbacking
  · exact hmaps

theorem mapPath_maps
    (hmade : Buffer.mapPath before name size maxSize startOffset = .ok (after, .ok buffer)) :
    after.Maps buffer.maxSize := by
  obtain ⟨-, -, opened, location, number, data, -, hmapped⟩ := mapPath_eq_ok hmade
  obtain ⟨-, hmaps, rfl, rfl⟩ := mapFile_eq_ok hmapped
  exact hmaps

theorem mapPath_orDefault (name : FileName) :
    mapPath before name (orDefault defaultInitialSize size) (orDefault defaultMaxSize maxSize)
      startOffset = mapPath before name size maxSize startOffset := by
  simp only [mapPath, orDefault_orDefault]

theorem create_orDefault (kind : Kind) :
    create before (orDefault defaultInitialSize size) (orDefault defaultMaxSize maxSize) kind =
      create before size maxSize kind := by
  simp only [create, orDefault_orDefault]

/-- Settings contradict each other, or they map the file with their name, or they make a new
buffer. -/
theorem build_cases {settings : Settings} {made : Except StorageError Buffer}
    (hbuild : settings.build before = .ok (after, made)) :
    (after = before ∧ ∃ flaw, made = .error (.invalidConfig flaw)) ∨
      (∃ name, settings.file = some name ∧
        mapPath before name settings.initialSize settings.maxSize settings.startOffset =
          .ok (after, made)) ∨
      settings.file = none ∧
        create before settings.initialSize settings.maxSize settings.kind = .ok (after, made) := by
  unfold Settings.build Settings.sizes at hbuild
  simp only at hbuild
  split at hbuild
  next flaw _ =>
    cases hbuild
    exact Or.inl ⟨rfl, flaw, rfl⟩
  next hsizes =>
  split at hsizes
  next => cases hsizes
  split at hsizes
  next => cases hsizes
  split at hsizes
  next => cases hsizes
  cases hsizes
  split at hbuild
  next name hfile =>
    rw [mapPath_orDefault] at hbuild
    exact Or.inr (Or.inl ⟨name, hfile, hbuild⟩)
  next hfile =>
    rw [create_orDefault] at hbuild
    exact Or.inr (Or.inr ⟨hfile, hbuild⟩)

/-- Settings make one of the buffers above. -/
theorem build_made {settings : Settings} (hmade : settings.build before = .ok (after, .ok buffer)) :
    buffer.WellFormed ∧ buffer.ShownOn after ∧
      buffer.maxSize = orDefault defaultMaxSize settings.maxSize := by
  obtain ⟨-, flaw, hflaw⟩ | ⟨name, -, hmapped⟩ | ⟨-, hcreated⟩ := build_cases hmade
  · cases hflaw
  · exact mapPath_made hmapped
  · obtain ⟨hwell, -, hshown, hmax⟩ := create_made hcreated
    exact ⟨hwell, hshown, hmax⟩

/-! ## Buffers without a path -/

/-- A buffer that was made between two disks and that no path leads to. If it is mapped, then to a
temporary file that was made for it and is there. -/
def Unnamed (buffer : Buffer) (before after : Disk) : Prop :=
  buffer.backing = .heap ∨ after.nextNumber = before.nextNumber + 1 ∧
    buffer.backing = .mapped before.nextNumber (.temporary before.nextNumber) ∧
    ∃ location data, after.locateNamed (.temporary before.nextNumber) = .ok location ∧
      after.find? location = some (.file before.nextNumber data)

theorem create_unnamed {kind : Kind} (hnumbered : before.Numbered)
    (hmade : Buffer.create before size maxSize kind = .ok (after, .ok buffer)) :
    before.Beside after ∧ buffer.Unnamed before after := by
  obtain ⟨-, backing, rfl, ⟨-, rfl, rfl⟩ | ⟨-, rfl, -, directory, hdirectory, hnothing, rfl⟩⟩ :=
    create_cases hmade
  · exact ⟨Disk.Beside.refl after, Or.inl rfl⟩
  · exact ⟨hnumbered.beside_addFile directory _, Or.inr ⟨rfl, rfl, _, _,
      Disk.temporary_added hdirectory hnothing _⟩⟩

/-- Settings without a path make a new buffer. -/
theorem create_of_build {settings : Settings} (hfile : settings.file = none)
    (hmade : settings.build before = .ok (after, .ok buffer)) :
    create before settings.initialSize settings.maxSize settings.kind =
      .ok (after, .ok buffer) := by
  obtain ⟨-, flaw, hflaw⟩ | ⟨name, hsome, -⟩ | ⟨-, hcreated⟩ := build_cases hmade
  · cases hflaw
  · rw [hfile] at hsome
    cases hsome
  · exact hcreated

/-- Settings without a path leave the files that paths lead to as they are. -/
theorem build_unnamed {settings : Settings} (hfile : settings.file = none)
    (hnumbered : before.Numbered) (hmade : settings.build before = .ok (after, .ok buffer)) :
    before.Beside after ∧ buffer.cursor = 1 ∧ buffer.Unnamed before after := by
  have hcreated := create_of_build hfile hmade
  obtain ⟨hbeside, hunnamed⟩ := create_unnamed hnumbered hcreated
  exact ⟨hbeside, (create_made hcreated).2.1, hunnamed⟩

/-- There is nothing left to be freed when the destructor runs on what is left of a buffer. -/
theorem release_eq (buffer : Buffer) (disk : Disk) : buffer.release disk = buffer.free disk := rfl

theorem persist_eq (buffer : Buffer) (disk : Disk) : buffer.persist disk = buffer.keep disk := rfl

/-- A mapped buffer takes its file with it if the file is where its name leads. -/
theorem release_of_file {number : Nat} {location : Location} {data : FileData} {disk : Disk}
    (hbacking : buffer.backing = .mapped number name)
    (hlocate : disk.locateNamed name = .ok location)
    (hfind : disk.find? location = some (.file number data)) :
    buffer.release disk = ((disk.store number .empty).erase location, .ok ()) := by
  have hremove := Disk.removeNamed_of_file ((disk.keeps_store number .empty).locateNamed hlocate)
    (Disk.find?_store_self hfind .empty)
  simp only [release_eq, free, hbacking, hremove]

/-- A buffer without a path is given up well as long as files stay where they are. -/
theorem Unnamed.release_ok {disk : Disk} (hunnamed : buffer.Unnamed before after)
    (hkeeps : after.Keeps disk) : ∃ released, buffer.release disk = (released, .ok ()) := by
  obtain hheap | ⟨-, hmapped, location, data, hlocate, hfind⟩ := hunnamed
  · exact ⟨disk, by simp only [release_eq, free, hheap]⟩
  · obtain ⟨stored, hstored⟩ := hkeeps.file location _ data hfind
    exact ⟨_, release_of_file hmapped (hkeeps.locateNamed hlocate) hstored⟩

/-- Giving up a buffer without a path leaves alone what was written where a path leads. -/
theorem Unnamed.read_of_release {written released : Disk} {path : String} {bytes : Bytes}
    (hunnamed : buffer.Unnamed before after) (hkeeps : after.Keeps written)
    (hwritten : Disk.Written before after written path bytes)
    (hrelease : buffer.release written = (released, .ok ())) :
    released.read path = .ok bytes := by
  obtain hheap | ⟨hnext, hmapped, location, data, hlocate, hfind⟩ := hunnamed
  · simp only [release_eq, free, hheap] at hrelease
    cases hrelease
    exact hwritten.read
  · obtain ⟨stored, hstored⟩ := hkeeps.file location _ data hfind
    rw [release_of_file hmapped (hkeeps.locateNamed hlocate) hstored] at hrelease
    cases hrelease
    exact hwritten.read_erase hnext hstored

end Buffer

end RecordBuffer

import RecordBuffer.Proofs.Files

/-!
# Names of files

A file is opened by a path that was spelled out or by the name that was handed
out for a temporary file. Either leads to one location, and goes on leading there
as long as the directories on the way stay.
-/

namespace RecordBuffer.Disk

variable {disk before middle after : Disk} {number : Nat} {data : FileData} {location : Location}
  {name : FileName}

/-! ## Where temporary files are received -/

/-- The location itself, provided that a directory is there. -/
def directoryAt (disk : Disk) (location : Location) : Except Cause Location :=
  match disk.find? location with
  | none => .error .noSuchFile
  | some (.file _ _) => .error .notDirectory
  | some .directory => .ok location

theorem directoryAt_eq_ok {found : Location} :
    disk.directoryAt location = .ok found ↔
      found = location ∧ disk.find? location = some .directory := by
  unfold directoryAt
  split
  next hfind => simp [hfind]
  next hfind => simp [hfind]
  next hfind => simp [hfind, eq_comm]

/-- Temporary files are received by a directory that a path leads to. -/
theorem temporaryLocation_eq_ok :
    disk.temporaryLocation = .ok location ↔ ∃ names,
      (if disk.temporaryPath = "" then .ok [] else pathNames disk.temporaryPath) = .ok names ∧
        disk.walk [] names = .ok location ∧ disk.find? location = some .directory := by
  have hsteps : disk.temporaryLocation =
      (if disk.temporaryPath = "" then .ok [] else pathNames disk.temporaryPath) >>=
        fun names => disk.walk [] names >>= disk.directoryAt := by
    unfold temporaryLocation
    split <;> rfl
  rw [hsteps, bind_eq_ok]
  refine exists_congr fun names => and_congr_right fun _ => ?_
  rw [bind_eq_ok]
  constructor
  · rintro ⟨found, hwalk, hfound⟩
    obtain ⟨rfl, hfind⟩ := directoryAt_eq_ok.mp hfound
    exact ⟨hwalk, hfind⟩
  · rintro ⟨hwalk, hfind⟩
    exact ⟨location, hwalk, directoryAt_eq_ok.mpr ⟨rfl, hfind⟩⟩

/-- A temporary file is added where nothing was. -/
theorem addTemporary_eq_ok :
    disk.addTemporary = .ok (after, location, number) ↔ ∃ directory,
      disk.temporaryLocation = .ok directory ∧
        location = directory ++ [.temporary disk.nextNumber] ∧ disk.find? location = none ∧
        after = (disk.addFile location .empty).1 ∧ number = disk.nextNumber := by
  unfold addTemporary
  rw [bind_eq_ok]
  refine exists_congr fun directory => and_congr_right fun _ => ?_
  simp only
  split
  next entry hfind =>
    refine iff_of_false nofun ?_
    rintro ⟨rfl, hnothing, -⟩
    cases hfind.symm.trans hnothing
  next hnothing =>
    constructor
    · rintro ⟨⟩
      exact ⟨rfl, hnothing, rfl, rfl⟩
    · rintro ⟨rfl, -, rfl, rfl⟩
      rfl

/-! ## Where names lead -/

theorem locateNamed_temporary :
    disk.locateNamed (.temporary number) = .ok location ↔ number < disk.nextNumber ∧
      ∃ directory, disk.temporaryLocation = .ok directory ∧
        location = directory ++ [.temporary number] := by
  unfold locateNamed
  simp only
  split
  next hunknown =>
    refine iff_of_false nofun ?_
    rintro ⟨hknown, -⟩
    omega
  next hknown =>
    rw [and_iff_right (Nat.lt_of_not_le hknown)]
    refine bind_eq_ok.trans (exists_congr fun directory => and_congr_right fun _ => ?_)
    constructor
    · rintro ⟨⟩
      rfl
    · rintro rfl
      rfl

/-- No name leads to a temporary file but its own. -/
theorem locateNamed_last (hlocate : disk.locateNamed name = .ok location)
    (hlast : location.getLast? = some (.temporary number)) :
    name = .temporary number ∧ number < disk.nextNumber := by
  cases name with
  | path path =>
      have hspelled := locate_spelled (locateFile_eq_ok.mp hlocate).1
      exact absurd (List.mem_of_getLast? hlast) (hspelled number)
  | temporary other =>
      obtain ⟨hknown, directory, -, rfl⟩ := locateNamed_temporary.mp hlocate
      rw [List.getLast?_concat, Option.some.injEq, EntryName.temporary.injEq] at hlast
      exact ⟨congrArg _ hlast, hlast ▸ hknown⟩

/-- The file that a name leads to is removed by it. -/
theorem removeNamed_of_file (hlocate : disk.locateNamed name = .ok location)
    (hfind : disk.find? location = some (.file number data)) :
    disk.removeNamed name = .ok (disk.erase location) := by
  have hremove := removeAt_eq_ok.mpr ⟨⟨number, data, hfind⟩, rfl⟩
  cases name with
  | path path => exact bind_eq_ok.mpr ⟨location, (locateFile_eq_ok.mp hlocate).1, hremove⟩
  | temporary other => exact bind_eq_ok.mpr ⟨location, hlocate, hremove⟩

theorem removeNamed_nextNumber (hremove : disk.removeNamed name = .ok after) :
    after.nextNumber = disk.nextNumber := by
  cases name with
  | path path =>
      obtain ⟨location, -, hremove⟩ := bind_eq_ok.mp hremove
      obtain ⟨-, rfl⟩ := removeAt_eq_ok.mp hremove
      rfl
  | temporary other =>
      obtain ⟨location, -, hremove⟩ := bind_eq_ok.mp hremove
      obtain ⟨-, rfl⟩ := removeAt_eq_ok.mp hremove
      rfl

/-! ## What names go on leading to -/

/-- Directories stay, numbers are handed out further, and temporary files are received where they
were. -/
structure Follows (before after : Disk) : Prop where
  temporaryPath_eq : after.temporaryPath = before.temporaryPath
  nextNumber_le : before.nextNumber ≤ after.nextNumber
  directory : ∀ place, Spelled place → before.find? place = some .directory →
    after.find? place = some .directory

namespace Follows

theorem refl (disk : Disk) : disk.Follows disk := ⟨rfl, Nat.le_refl _, fun _ _ hplace => hplace⟩

theorem temporaryLocation (hfollows : before.Follows after)
    (hlocate : before.temporaryLocation = .ok location) :
    after.temporaryLocation = .ok location := by
  obtain ⟨names, hnames, hwalk, hfind⟩ := temporaryLocation_eq_ok.mp hlocate
  exact temporaryLocation_eq_ok.mpr ⟨names, hfollows.temporaryPath_eq ▸ hnames,
    walk_of_directories spelled_nil hfollows.directory hwalk,
    hfollows.directory location (walk_spelled spelled_nil hwalk) hfind⟩

/-- Names lead where they did as long as the directories on the way are there. -/
theorem locateNamed (hfollows : before.Follows after)
    (hlocate : before.locateNamed name = .ok location) :
    after.locateNamed name = .ok location := by
  cases name with
  | path path =>
      obtain ⟨hlocate, hnames⟩ := locateFile_eq_ok.mp hlocate
      exact locateFile_eq_ok.mpr ⟨locate_of_directories hfollows.directory hlocate, hnames⟩
  | temporary number =>
      obtain ⟨hknown, directory, hdirectory, rfl⟩ := locateNamed_temporary.mp hlocate
      exact locateNamed_temporary.mpr ⟨Nat.lt_of_lt_of_le hknown hfollows.nextNumber_le, directory,
        hfollows.temporaryLocation hdirectory, rfl⟩

end Follows

theorem follows_raised (disk : Disk) :
    disk.Follows { disk with nextNumber := disk.nextNumber + 1 } :=
  ⟨rfl, Nat.le_succ _, fun _ _ hplace => hplace⟩

/-- A disk that follows another one, with all of its files where they were, whatever they hold. -/
structure Keeps (before after : Disk) : Prop extends Follows before after where
  file : ∀ place number data, before.find? place = some (.file number data) →
    ∃ stored, after.find? place = some (.file number stored)

theorem Keeps.refl (disk : Disk) : disk.Keeps disk :=
  ⟨Follows.refl disk, fun _ _ data hfind => ⟨data, hfind⟩⟩

theorem Keeps.trans (hfirst : before.Keeps middle) (hsecond : middle.Keeps after) :
    before.Keeps after := by
  refine ⟨⟨hsecond.temporaryPath_eq.trans hfirst.temporaryPath_eq,
    Nat.le_trans hfirst.nextNumber_le hsecond.nextNumber_le, fun place hspelled hplace =>
      hsecond.directory place hspelled (hfirst.directory place hspelled hplace)⟩, ?_⟩
  intro place number data hfind
  obtain ⟨stored, hstored⟩ := hfirst.file place number data hfind
  exact hsecond.file place number stored hstored

theorem keeps_store (disk : Disk) (number : Nat) (data : FileData) :
    disk.Keeps (disk.store number data) := by
  refine ⟨⟨rfl, Nat.le_refl _, fun place _ hplace => ?_⟩, fun place other old hfind => ?_⟩
  · rw [find?_store, hplace]
    rfl
  · exact ⟨_, find?_store_eq_file.mpr ⟨old, hfind, rfl⟩⟩

/-- A new file is in no other one's way. -/
theorem keeps_addFile (hnothing : disk.find? location = none) (data : FileData) :
    disk.Keeps (disk.addFile location data).1 := by
  have hadd : ∀ place entry, disk.find? place = some entry →
      (disk.addFile location data).1.find? place = some entry := by
    intro place entry hplace
    rw [find?_addFile disk location place data (ne_nil_of_find? hnothing), if_neg]
    · exact hplace
    · rintro rfl
      cases hnothing.symm.trans hplace
  exact ⟨⟨rfl, Nat.le_succ _, fun place _ hplace => hadd place _ hplace⟩,
    fun place number old hfind => ⟨old, hadd place _ hfind⟩⟩

/-- A temporary file that was added is where its name leads. -/
theorem temporary_added {directory : Location} (hdirectory : disk.temporaryLocation = .ok directory)
    (hnothing : disk.find? (directory ++ [.temporary disk.nextNumber]) = none) (data : FileData) :
    let added := (disk.addFile (directory ++ [.temporary disk.nextNumber]) data).1
    added.locateNamed (.temporary disk.nextNumber) =
        .ok (directory ++ [.temporary disk.nextNumber]) ∧
      added.find? (directory ++ [.temporary disk.nextNumber]) =
        some (.file disk.nextNumber data) := by
  intro added
  refine ⟨locateNamed_temporary.mpr ⟨Nat.lt_succ_self _, directory, ?_, rfl⟩, ?_⟩
  · exact (keeps_addFile hnothing data).temporaryLocation hdirectory
  · exact (find?_addFile disk _ _ data (ne_nil_of_find? hnothing)).trans (if_pos rfl)

/-! ## What is opened -/

/-- A file is at a location, or it is the empty one that is put there because nothing is. -/
def Offers (disk : Disk) (location : Location) (number : Nat) (data : FileData) : Prop :=
  disk.find? location = some (.file number data) ∨
    disk.find? location = none ∧ number = disk.nextNumber ∧ data = .empty

/-- The file that a name leads to, opened. -/
structure Opened (before after : Disk) (name : FileName) (location : Location) (number : Nat)
    (data : FileData) : Prop where
  named : before.locateNamed name = .ok location
  opened : before.openAt location = .ok (after, number, data)

theorem openNamed_eq_ok :
    before.openNamed name = .ok (after, number, data) ↔
      ∃ location, before.Opened after name location number data := by
  refine bind_eq_ok.trans (exists_congr fun location => ?_)
  exact ⟨fun ⟨hlocate, hopen⟩ => ⟨hlocate, hopen⟩, fun ⟨hlocate, hopen⟩ => ⟨hlocate, hopen⟩⟩

namespace Opened

theorem offers (hopened : before.Opened after name location number data) :
    before.Offers location number data := by
  obtain ⟨-, hfind⟩ | ⟨hnothing, -, hnew⟩ := openAt_eq_ok.mp hopened.opened
  · exact Or.inl hfind
  · exact Or.inr ⟨hnothing, hnew⟩

/-- An opened file is found where its name leads. -/
theorem found (hopened : before.Opened after name location number data) :
    after.find? location = some (.file number data) := by
  obtain ⟨rfl, hfind⟩ | ⟨hnothing, rfl, rfl, rfl⟩ := openAt_eq_ok.mp hopened.opened
  · exact hfind
  · exact (find?_addFile before location location .empty (ne_nil_of_find? hnothing)).trans
      (if_pos rfl)

/-- Nothing else differs. -/
theorem elsewhere (hopened : before.Opened after name location number data) {place : Location}
    (hplace : place ≠ location) : after.find? place = before.find? place := by
  obtain ⟨rfl, -⟩ | ⟨hnothing, rfl, -⟩ := openAt_eq_ok.mp hopened.opened
  · rfl
  · exact (find?_addFile before location place .empty (ne_nil_of_find? hnothing)).trans
      (if_neg hplace)

theorem keeps (hopened : before.Opened after name location number data) : before.Keeps after := by
  obtain ⟨rfl, -⟩ | ⟨hnothing, rfl, -⟩ := openAt_eq_ok.mp hopened.opened
  · exact Keeps.refl after
  · exact keeps_addFile hnothing .empty

theorem named_after (hopened : before.Opened after name location number data) :
    after.locateNamed name = .ok location := hopened.keeps.locateNamed hopened.named

theorem grants_eq (hopened : before.Opened after name location number data) :
    after.grants = before.grants := by
  obtain ⟨rfl, -⟩ | ⟨-, rfl, -⟩ := openAt_eq_ok.mp hopened.opened <;> rfl

/-- A file with bytes was there before. -/
theorem eq_of_length (hopened : before.Opened after name location number data)
    (hlength : data.length ≠ 0) : after = before := by
  obtain ⟨rfl, -⟩ | ⟨-, -, -, rfl⟩ := openAt_eq_ok.mp hopened.opened
  · rfl
  · exact absurd rfl hlength

end Opened

theorem keeps_of_write {path : String} {bytes : Bytes}
    (hwrite : before.write path bytes = .ok after) : before.Keeps after := by
  obtain ⟨⟨middle, number, data⟩, hopen, hwrite⟩ := bind_eq_ok.mp hwrite
  cases hwrite
  obtain ⟨location, hopened⟩ := openNamed_eq_ok.mp
    (show before.openNamed (.path path) = .ok (middle, number, data) from hopen)
  exact hopened.keeps.trans (keeps_store middle number _)

theorem openNamed_of_offers (hlocate : disk.locateNamed name = .ok location)
    (hoffers : disk.Offers location number data) :
    ∃ opened, disk.openNamed name = .ok (opened, number, data) := by
  obtain hfind | ⟨hmissing, rfl, rfl⟩ := hoffers
  · exact ⟨disk, bind_eq_ok.mpr ⟨location, hlocate, openAt_eq_ok.mpr (.inl ⟨rfl, hfind⟩)⟩⟩
  · exact ⟨_, bind_eq_ok.mpr
      ⟨location, hlocate, openAt_eq_ok.mpr (.inr ⟨hmissing, rfl, rfl, rfl⟩)⟩⟩

end RecordBuffer.Disk

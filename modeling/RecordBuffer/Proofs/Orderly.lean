import RecordBuffer.Proofs.FailedCreation
import RecordBuffer.Proofs.Reopening

/-!
# Disks in order

On a disk in order nothing is hidden: an entry is found where it is listed, a
number is that of one file, and temporary files are where they are received. So
what is done to one file shows at one location and nowhere else.
-/

namespace RecordBuffer.Disk

variable {disk before middle after : Disk} {location place : Location} {number : Nat}
  {data : FileData} {path : String} {bytes : Bytes}

/-! ## Order -/

/-- Every entry is found where it is listed, no two files have a number in common, and temporary
files are nowhere but where they are received. -/
structure Orderly (disk : Disk) : Prop extends Numbered disk where
  listed : ∀ entry ∈ disk.entries, disk.find? entry.1 = some entry.2
  distinct : ∀ left right number data other, disk.find? left = some (.file number data) →
    disk.find? right = some (.file number other) → left = right
  received : ∀ directory number entry,
    disk.find? (directory ++ [.temporary number]) = some entry →
    disk.temporaryLocation = .ok directory

namespace Orderly

theorem empty (temporaryPath : String) (grants : Nat → Bool) :
    (Disk.empty temporaryPath grants).Orderly := by
  have hfind : ∀ location entry, (Disk.empty temporaryPath grants).find? location = some entry →
      location = [] := by
    intro location entry hfind
    by_contra hbelow
    simp [find?, Disk.empty, hbelow] at hfind
  refine ⟨numbered_empty temporaryPath grants, List.forall_mem_nil _, ?_, ?_⟩
  · intro left right number data other hleft hright
    rw [hfind left _ hleft, hfind right _ hright]
  · intro directory number entry hentry
    cases List.append_eq_nil_iff.mp (hfind _ _ hentry)
    contradiction

/-- A file is loaded by its number as it is found. -/
theorem load?_eq (horderly : disk.Orderly)
    (hfind : disk.find? location = some (.file number data)) : disk.load? number = some data := by
  obtain ⟨found, hload⟩ := Option.isSome_iff_exists.mp (load?_of_find? hfind)
  obtain ⟨⟨other, entry⟩, hentry, hfound⟩ := List.exists_of_findSome?_eq_some hload
  have hlisted := horderly.listed _ hentry
  cases entry with
  | directory => cases hfound
  | file otherNumber otherData =>
      simp only [Option.ite_none_right_eq_some, Option.some.injEq] at hfound
      obtain ⟨rfl, rfl⟩ := hfound
      obtain rfl := horderly.distinct _ _ _ _ _ hfind hlisted
      rw [hfind] at hlisted
      cases hlisted
      exact hload

/-- Entries may be taken away, but no directories. -/
theorem fewer (horderly : disk.Orderly) (hfollows : disk.Follows after)
    (hfewer : ∀ place entry, after.find? place = some entry → disk.find? place = some entry)
    (hlisted : ∀ entry ∈ after.entries, after.find? entry.1 = some entry.2) : after.Orderly where
  file_lt place number data hfind :=
    Nat.lt_of_lt_of_le (horderly.file_lt place number data (hfewer _ _ hfind))
      hfollows.nextNumber_le
  temporary_lt place entry number hfind hlast :=
    Nat.lt_of_lt_of_le (horderly.temporary_lt place entry number (hfewer _ _ hfind) hlast)
      hfollows.nextNumber_le
  listed := hlisted
  distinct left right number data other hleft hright :=
    horderly.distinct left right number data other (hfewer _ _ hleft) (hfewer _ _ hright)
  received directory number entry hfind :=
    hfollows.temporaryLocation (horderly.received directory number entry (hfewer _ _ hfind))

theorem erase (horderly : disk.Orderly)
    (hfile : disk.find? location = some (.file number data)) : (disk.erase location).Orderly := by
  have herase := find?_erase_of_file hfile
  refine horderly.fewer ⟨rfl, Nat.le_refl _, ?_⟩ ?_ ?_
  · intro place _ hplace
    rw [herase, if_neg]
    · exact hplace
    · rintro rfl
      cases hfile.symm.trans hplace
  · intro place entry hfind
    rw [herase] at hfind
    split at hfind
    next => cases hfind
    next => exact hfind
  · intro entry hentry
    obtain ⟨hentry, hplace⟩ := List.mem_filter.mp hentry
    rw [herase, if_neg (of_decide_eq_true hplace)]
    exact horderly.listed entry hentry

theorem store (horderly : disk.Orderly) (number : Nat) (data : FileData) :
    (disk.store number data).Orderly := by
  refine ⟨horderly.toNumbered.store number data, ?_, ?_, ?_⟩
  · intro entry hentry
    rw [entries_store] at hentry
    obtain ⟨old, hold, rfl⟩ := List.mem_map.mp hentry
    rw [find?_store, horderly.listed old hold, Option.map_some]
  · intro left right other leftData rightData hleft hright
    obtain ⟨_, hleft, -⟩ := find?_store_eq_file.mp hleft
    obtain ⟨_, hright, -⟩ := find?_store_eq_file.mp hright
    exact horderly.distinct left right other _ _ hleft hright
  · intro directory other entry hfind
    rw [find?_store] at hfind
    obtain ⟨old, hold, -⟩ := Option.map_eq_some_iff.mp hfind
    exact (disk.keeps_store number data).temporaryLocation
      (horderly.received directory other old hold)

/-- An entry may be put where there is none, if its number was not used and its name is not that of
a temporary file elsewhere. -/
theorem put (horderly : disk.Orderly) {entry : Entry} (hnothing : disk.find? location = none)
    (hnumber : ∀ number data, entry = .file number data → number < disk.nextNumber ∧
      ∀ place old, disk.find? place ≠ some (.file number old))
    (hname : ∀ directory number, location = directory ++ [.temporary number] →
      number < disk.nextNumber ∧ disk.temporaryLocation = .ok directory) :
    (disk.put location entry).Orderly := by
  have hput := fun place => find?_put disk location place entry (ne_nil_of_find? hnothing)
  have hfollows : disk.Follows (disk.put location entry) := by
    refine ⟨rfl, Nat.le_refl _, fun place _ hplace => ?_⟩
    rw [hput, if_neg]
    · exact hplace
    · rintro rfl
      cases hnothing.symm.trans hplace
  refine ⟨⟨?_, ?_⟩, ?_, ?_, ?_⟩
  · intro place number data hfind
    rw [hput] at hfind
    split at hfind
    next => exact (hnumber number data (Option.some.inj hfind)).1
    next => exact horderly.file_lt place number data hfind
  · intro place other number hfind hlast
    rw [hput] at hfind
    split at hfind
    next hplace =>
      obtain ⟨directory, hdirectory⟩ := List.getLast?_eq_some_iff.mp hlast
      exact (hname directory number (hplace ▸ hdirectory)).1
    next => exact horderly.temporary_lt place other number hfind hlast
  · intro listed hlisted
    rw [hput]
    rcases List.mem_cons.mp hlisted with rfl | hlisted
    · exact if_pos rfl
    · obtain ⟨hlisted, hplace⟩ := List.mem_filter.mp hlisted
      rw [if_neg (of_decide_eq_true hplace)]
      exact horderly.listed listed hlisted
  · intro left right number data other hleft hright
    rw [hput] at hleft hright
    split at hleft <;> split at hright
    next hleftPlace hrightPlace => rw [hleftPlace, hrightPlace]
    next => exact absurd hright ((hnumber number data (Option.some.inj hleft)).2 right other)
    next => exact absurd hleft ((hnumber number other (Option.some.inj hright)).2 left data)
    next => exact horderly.distinct left right number data other hleft hright
  · intro directory number other hfind
    rw [hput] at hfind
    split at hfind
    next hplace => exact hfollows.temporaryLocation (hname directory number hplace.symm).2
    next => exact hfollows.temporaryLocation (horderly.received directory number other hfind)

/-- A number that was not handed out may be passed over. -/
theorem raise (horderly : disk.Orderly) :
    Orderly { disk with nextNumber := disk.nextNumber + 1 } where
  file_lt place number data hfind := Nat.lt_succ_of_lt (horderly.file_lt place number data hfind)
  temporary_lt place entry number hfind hlast :=
    Nat.lt_succ_of_lt (horderly.temporary_lt place entry number hfind hlast)
  listed := horderly.listed
  distinct := horderly.distinct
  received directory number entry hfind :=
    disk.follows_raised.temporaryLocation (horderly.received directory number entry hfind)

/-- A new file may be added where there is none, under a name that is its own or led there before. -/
theorem addFile (horderly : disk.Orderly) (hnothing : disk.find? location = none)
    (hname : ∀ directory number, location = directory ++ [.temporary number] →
      number ≤ disk.nextNumber ∧ disk.temporaryLocation = .ok directory)
    (data : FileData) : (disk.addFile location data).1.Orderly := by
  refine horderly.raise.put hnothing ?_ ?_
  · intro number data heq
    cases heq
    exact ⟨Nat.lt_succ_self _, fun place old hfind =>
      Nat.lt_irrefl _ (horderly.file_lt place _ old hfind)⟩
  · intro directory number hplace
    obtain ⟨hnumber, hdirectory⟩ := hname directory number hplace
    exact ⟨Nat.lt_succ_of_le hnumber, disk.follows_raised.temporaryLocation hdirectory⟩

end Orderly

/-! ## Changes and where they show -/

theorem ne_directory_of_file (hfind : disk.find? location = some (.file number data)) :
    disk.find? location ≠ some .directory := by
  intro hdirectory
  cases hfind.symm.trans hdirectory

theorem ne_directory_of_none (hnothing : disk.find? location = none) :
    disk.find? location ≠ some .directory := by
  intro hdirectory
  cases hnothing.symm.trans hdirectory

/-- A disk in order on which one location has changed, where there was no directory. -/
structure ChangedAt (before after : Disk) (location : Location) : Prop where
  orderly : after.Orderly
  temporaryPath_eq : after.temporaryPath = before.temporaryPath
  nextNumber_le : before.nextNumber ≤ after.nextNumber
  elsewhere : ∀ place, place ≠ location → after.find? place = before.find? place
  not_directory : before.find? location ≠ some .directory

namespace ChangedAt

/-- What is found anywhere stays, unless it was at the location that has changed. -/
theorem find?_of_ne {entry : Entry} (hchanged : before.ChangedAt after location)
    (hfind : before.find? place = some entry) (hne : before.find? location ≠ some entry) :
    after.find? place = some entry := by
  rw [hchanged.elsewhere place]
  · exact hfind
  · rintro rfl
    exact hne hfind

theorem follows (hchanged : before.ChangedAt after location) : before.Follows after :=
  ⟨hchanged.temporaryPath_eq, hchanged.nextNumber_le,
    fun _ _ hplace => hchanged.find?_of_ne hplace hchanged.not_directory⟩

theorem refl (horderly : disk.Orderly) (hfile : disk.find? location ≠ some .directory) :
    disk.ChangedAt disk location :=
  ⟨horderly, rfl, Nat.le_refl _, fun _ _ => rfl, hfile⟩

/-- A change that neither adds a temporary file nor removes one. -/
theorem isSome_temporary (hchanged : before.ChangedAt after location)
    (hsame : Spelled location ∨ (after.find? location).isSome = (before.find? location).isSome)
    (directory : Location) (number : Nat) :
    (after.find? (directory ++ [.temporary number])).isSome =
      (before.find? (directory ++ [.temporary number])).isSome := by
  by_cases hplace : directory ++ [.temporary number] = location
  · rcases hsame with hspelled | hsame
    · exact absurd (by simp) (hplace ▸ hspelled number)
    · rw [hplace, hsame]
  · rw [hchanged.elsewhere _ hplace]

theorem trans (hfirst : before.ChangedAt middle location)
    (hsecond : middle.ChangedAt after location) : before.ChangedAt after location :=
  ⟨hsecond.orderly, hsecond.temporaryPath_eq.trans hfirst.temporaryPath_eq,
    Nat.le_trans hfirst.nextNumber_le hsecond.nextNumber_le,
    fun place hplace => (hsecond.elsewhere place hplace).trans (hfirst.elsewhere place hplace),
    hfirst.not_directory⟩

end ChangedAt

namespace Orderly

theorem changedAt_store (horderly : disk.Orderly)
    (hfind : disk.find? location = some (.file number data)) (stored : FileData) :
    disk.ChangedAt (disk.store number stored) location := by
  refine ⟨horderly.store number stored, rfl, Nat.le_refl _, fun place hplace => ?_,
    ne_directory_of_file hfind⟩
  rw [find?_store]
  cases hentry : disk.find? place with
  | none => rfl
  | some entry =>
      cases entry with
      | directory => rfl
      | file other old =>
          have hne : other ≠ number := by
            rintro rfl
            exact hplace (horderly.distinct _ _ _ _ _ hentry hfind)
          rw [Option.map_some, Entry.stored, if_neg hne]

theorem changedAt_addFile (horderly : disk.Orderly) (hnothing : disk.find? location = none)
    (hname : ∀ directory number, location = directory ++ [.temporary number] →
      number ≤ disk.nextNumber ∧ disk.temporaryLocation = .ok directory)
    (data : FileData) : disk.ChangedAt (disk.addFile location data).1 location := by
  refine ⟨horderly.addFile hnothing hname data, rfl, Nat.le_succ _, fun place hplace => ?_,
    ne_directory_of_none hnothing⟩
  rw [find?_addFile disk location place data (ne_nil_of_find? hnothing), if_neg hplace]

theorem changedAt_opened {name : FileName} (horderly : disk.Orderly)
    (hopened : disk.Opened after name location number data) : disk.ChangedAt after location := by
  obtain ⟨rfl, hfind⟩ | ⟨hnothing, rfl, -⟩ := openAt_eq_ok.mp hopened.opened
  · exact ChangedAt.refl horderly (ne_directory_of_file hfind)
  · refine horderly.changedAt_addFile hnothing ?_ .empty
    rintro directory number rfl
    obtain ⟨rfl, hknown⟩ := locateNamed_last hopened.named List.getLast?_concat
    obtain ⟨-, found, hfound, hplace⟩ := locateNamed_temporary.mp hopened.named
    obtain ⟨rfl, -⟩ := List.append_inj' hplace rfl
    exact ⟨Nat.le_of_lt hknown, hfound⟩

theorem changedAt_write (horderly : disk.Orderly) (hwrite : disk.write path bytes = .ok after) :
    ∃ location, disk.locateFile path = .ok location ∧ disk.ChangedAt after location := by
  obtain ⟨⟨middle, number, data⟩, hopen, hwrite⟩ := bind_eq_ok.mp hwrite
  cases hwrite
  obtain ⟨location, hopened⟩ := openNamed_eq_ok.mp
    (show disk.openNamed (.path path) = .ok (middle, number, data) from hopen)
  have hchanged := horderly.changedAt_opened hopened
  exact ⟨location, hopened.named,
    hchanged.trans (hchanged.orderly.changedAt_store hopened.found _)⟩

/-- An erased file is gone, and nothing else. -/
theorem changedAt_erase (horderly : disk.Orderly)
    (hfind : disk.find? location = some (.file number data)) :
    disk.ChangedAt (disk.erase location) location ∧
      (disk.erase location).find? location = none := by
  have herase := find?_erase_of_file hfind
  exact ⟨⟨horderly.erase hfind, rfl, Nat.le_refl _,
    fun place hplace => (herase place).trans (if_neg hplace), ne_directory_of_file hfind⟩,
    (herase location).trans (if_pos rfl)⟩

theorem changedAt_remove (horderly : disk.Orderly) (hremove : disk.remove path = .ok after) :
    ∃ location, disk.locate path = .ok location ∧ disk.ChangedAt after location := by
  obtain ⟨location, hlocate, hremove⟩ := bind_eq_ok.mp hremove
  obtain ⟨⟨number, data, hfind⟩, rfl⟩ := removeAt_eq_ok.mp hremove
  exact ⟨location, hlocate, (horderly.changedAt_erase hfind).1⟩

end Orderly

/-! ## Directories -/

/-- A disk in order with more directories than another, all of them where a path leads. -/
structure Widened (before after : Disk) : Prop where
  orderly : after.Orderly
  temporaryPath_eq : after.temporaryPath = before.temporaryPath
  nextNumber_eq : after.nextNumber = before.nextNumber
  kept : ∀ place entry, before.find? place = some entry → after.find? place = some entry
  unspelled : ∀ place, ¬ Spelled place → after.find? place = before.find? place

theorem Orderly.widened_makeDirectories (horderly : disk.Orderly) (path : String) :
    disk.Widened (disk.makeDirectories path) := by
  have hrefl : disk.Widened disk := ⟨horderly, rfl, rfl, fun _ _ hfind => hfind, fun _ _ => rfl⟩
  unfold Disk.makeDirectories
  split
  next => exact hrefl
  next names _ =>
    refine List.foldlRecOn _ _ hrefl ?_
    intro made hmade count _
    split
    next => exact hmade
    next location hwalk =>
      split
      next => exact hmade
      next hfound =>
        have hnothing := Option.not_isSome_iff_eq_none.mp hfound
        have hspelled := walk_spelled spelled_nil hwalk
        have hput := fun place =>
          find?_put made location place .directory (ne_nil_of_find? hnothing)
        refine ⟨hmade.orderly.put hnothing ?_ ?_, hmade.temporaryPath_eq, hmade.nextNumber_eq,
          ?_, ?_⟩
        · rintro number data ⟨⟩
        · rintro directory number rfl
          exact absurd (by simp) (hspelled number)
        · intro place entry hfind
          have hplace := hmade.kept place entry hfind
          rw [hput, if_neg]
          · exact hplace
          · rintro rfl
            rw [hnothing] at hplace
            cases hplace
        · intro place hplace
          rw [hput, if_neg]
          · exact hmade.unspelled place hplace
          · rintro rfl
            exact hplace hspelled

end RecordBuffer.Disk

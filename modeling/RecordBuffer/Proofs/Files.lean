import RecordBuffer.Disk
import RecordBuffer.Fault

/-!
# Files and the paths that lead to them

What a path leads to depends on the directories on the way and on nothing else.
So a path keeps its meaning while temporary files come and go beside it, which
have names that no path can spell and numbers that no other file has.
-/

namespace RecordBuffer

/-- An entry after the file with a number has received other bytes. -/
def Entry.stored (number : Nat) (data : FileData) : Entry → Entry
  | .file other old => .file other (if other = number then data else old)
  | .directory => .directory

namespace Disk

variable {disk other after : Disk} {number : Nat} {data : FileData} {location : Location}
  {path : String} {bytes : Bytes}

/-! ## Files by number -/

/-- A stored file is loaded as it was stored, if there is such a file. -/
theorem load?_store (disk : Disk) (number : Nat) (data : FileData) :
    (disk.store number data).load? number = (disk.load? number).map fun _ => data := by
  obtain ⟨entries, next, path, grants⟩ := disk
  induction entries with
  | nil => rfl
  | cons entry rest ih =>
      simp only [store, load?] at ih
      obtain ⟨location, directory | ⟨other, old⟩⟩ := entry
      · simpa [store, load?] using ih
      · by_cases hsame : other = number
        · simp [store, load?, hsame]
        · simpa [store, load?, hsame] using ih

theorem load?_addFile (disk : Disk) (location : Location) (data : FileData) :
    (disk.addFile location data).1.load? (disk.addFile location data).2 = some data := by
  simp [addFile, put, load?]

theorem load?_of_find? {location : Location}
    (hfind : disk.find? location = some (.file number data)) :
    (disk.load? number).isSome := by
  unfold find? at hfind
  split at hfind
  next => cases hfind
  next =>
    obtain ⟨⟨other, entry⟩, hentry, rfl⟩ := Option.map_eq_some_iff.mp hfind
    rw [load?, List.findSome?_isSome_iff]
    exact ⟨_, List.mem_of_find?_eq_some hentry, by simp⟩

/-- There is always something at the top. -/
theorem ne_nil_of_find? (hnothing : disk.find? location = none) : location ≠ [] := by
  rintro rfl
  cases hnothing

/-- Where a file is erased, nothing is left, and anywhere else everything. -/
theorem find?_erase_of_file (hfind : disk.find? location = some (.file number data))
    (place : Location) : (disk.erase location).find? place =
      if place = location then none else disk.find? place := by
  refine find?_erase disk location place ?_
  rintro rfl
  cases hfind

/-- What is opened at a location was there, or it is added because nothing was. -/
theorem openAt_eq_ok :
    disk.openAt location = .ok (after, number, data) ↔
      after = disk ∧ disk.find? location = some (.file number data) ∨
        disk.find? location = none ∧ after = (disk.addFile location .empty).1 ∧
          number = disk.nextNumber ∧ data = .empty := by
  unfold openAt
  split
  next hfind => simp [hfind]
  next hfind =>
    simp only [hfind, Except.ok.injEq, Prod.mk.injEq, Option.some.injEq, Entry.file.injEq,
      reduceCtorEq, false_and, or_false]
    exact and_congr_left' eq_comm
  next hfind =>
    simp only [hfind, Except.ok.injEq, Prod.mk.injEq, reduceCtorEq, and_false, false_or, true_and]
    exact and_congr eq_comm (and_congr eq_comm eq_comm)

theorem entries_store (disk : Disk) (number : Nat) (data : FileData) :
    (disk.store number data).entries =
      disk.entries.map fun entry => (entry.1, entry.2.stored number data) := by
  apply List.map_congr_left
  rintro ⟨location, directory | ⟨other, old⟩⟩ _ <;> rfl

theorem find?_store (disk : Disk) (number : Nat) (data : FileData) (location : Location) :
    (disk.store number data).find? location =
      (disk.find? location).map (Entry.stored number data) := by
  unfold find?
  split
  next => rfl
  next =>
    rw [entries_store, List.find?_map, Option.map_map, Option.map_map]
    rfl

/-- A stored file is where it was, and its bytes are new if its number is the one stored. -/
theorem find?_store_eq_file {other : Nat} {stored : FileData} :
    (disk.store number data).find? location = some (.file other stored) ↔
      ∃ old, disk.find? location = some (.file other old) ∧
        stored = if other = number then data else old := by
  rw [find?_store, Option.map_eq_some_iff]
  constructor
  · rintro ⟨directory | ⟨found, old⟩, hentry, hstored⟩
    · cases hstored
    · cases hstored
      exact ⟨old, hentry, rfl⟩
  · rintro ⟨old, hentry, rfl⟩
    exact ⟨_, hentry, rfl⟩

/-- The file that is stored is found with its new bytes. -/
theorem find?_store_self {old : FileData} (hfind : disk.find? location = some (.file number old))
    (data : FileData) : (disk.store number data).find? location = some (.file number data) := by
  rw [find?_store, hfind, Option.map_some, Entry.stored, if_pos rfl]

/-- Only a file is removed. -/
theorem removeAt_eq_ok :
    disk.removeAt location = .ok after ↔
      (∃ number data, disk.find? location = some (.file number data)) ∧
        after = disk.erase location := by
  unfold removeAt
  split
  next hfind => simp [hfind]
  next hfind => simp [hfind]
  next hfind => simp [hfind, eq_comm]

/-! ## Paths -/

/-- A location that a path can spell. -/
def Spelled (location : Location) : Prop := ∀ number, EntryName.temporary number ∉ location

theorem spelled_nil : Spelled [] := fun number hmem => by cases hmem

theorem spelled_dropLast {start : Location} (hstart : Spelled start) : Spelled start.dropLast :=
  fun number hmem => hstart number (List.dropLast_subset start hmem)

theorem spelled_append_given {start : Location} (hstart : Spelled start) (name : String) :
    Spelled (start ++ [.given name]) := by
  intro number hmem
  rcases List.mem_append.mp hmem with hmem | hmem
  · exact hstart number hmem
  · cases List.mem_singleton.mp hmem

theorem walk_spelled {start : Location} {names : List String} (hstart : Spelled start)
    (hwalk : disk.walk start names = .ok location) : Spelled location := by
  fun_induction walk disk start names with
  | case1 start =>
      cases hwalk
      exact hstart
  | case2 => cases hwalk
  | case3 => cases hwalk
  | case4 start name rest _ _ ih => exact ih hstart hwalk
  | case5 start rest _ _ ih => exact ih (spelled_dropLast hstart) hwalk
  | case6 => cases hwalk
  | case7 start name rest _ _ _ _ ih => exact ih (spelled_append_given hstart name) hwalk

/-- A walk looks only at directories that a path can spell, so it ends where it did as long as these
are there. -/
theorem walk_of_directories {start : Location} {names : List String} (hstart : Spelled start)
    (hkept : ∀ location, Spelled location → disk.find? location = some .directory →
      other.find? location = some .directory)
    (hwalk : disk.walk start names = .ok location) : other.walk start names = .ok location := by
  fun_induction walk disk start names with
  | case1 start => exact hwalk
  | case2 => cases hwalk
  | case3 => cases hwalk
  | case4 start name rest hfind hname ih =>
      rw [walk, hkept _ hstart hfind]
      simp only [hname, if_true]
      exact ih hstart hwalk
  | case5 start rest hfind hname ih =>
      rw [walk, hkept _ hstart hfind]
      simp only [hname, if_true, if_false]
      exact ih (spelled_dropLast hstart) hwalk
  | case6 => cases hwalk
  | case7 start name rest hfind hname hparent hlength ih =>
      rw [walk, hkept _ hstart hfind]
      simp only [hname, hparent, hlength, if_false]
      exact ih (spelled_append_given hstart name) hwalk

theorem locate_of_directories
    (hkept : ∀ location, Spelled location → disk.find? location = some .directory →
      other.find? location = some .directory)
    (hlocate : disk.locate path = .ok location) : other.locate path = .ok location := by
  obtain ⟨names, hnames, hwalk⟩ := bind_eq_ok.mp hlocate
  exact bind_eq_ok.mpr ⟨names, hnames, walk_of_directories spelled_nil hkept hwalk⟩

theorem locate_spelled (hlocate : disk.locate path = .ok location) : Spelled location := by
  obtain ⟨names, -, hwalk⟩ := bind_eq_ok.mp hlocate
  exact walk_spelled spelled_nil hwalk

/-- Where a path leads to a file, it leads for reading and for writing alike. -/
theorem locateFile_eq_ok :
    disk.locateFile path = .ok location ↔ disk.locate path = .ok location ∧
      ∃ names, pathNames path = .ok names ∧ names.getLast? ∉ [some "", some ".", some ".."] := by
  constructor
  · intro hlocate
    obtain ⟨names, hnames, hlocate⟩ := bind_eq_ok.mp hlocate
    simp only at hlocate
    split at hlocate
    next =>
      obtain ⟨_, _, hlocate⟩ := bind_eq_ok.mp hlocate
      cases hlocate
    next hlast => exact ⟨bind_eq_ok.mpr ⟨names, hnames, hlocate⟩, names, hnames, hlast⟩
  · rintro ⟨hlocate, names, hnames, hlast⟩
    obtain ⟨others, hothers, hwalk⟩ := bind_eq_ok.mp hlocate
    obtain rfl := Except.ok.inj (hnames.symm.trans hothers)
    refine bind_eq_ok.mpr ⟨names, hnames, ?_⟩
    rw [if_neg hlast]
    exact hwalk

/-- A file is read where the path leads to it. -/
theorem read_eq_ok :
    disk.read path = .ok bytes ↔ ∃ location number data, disk.locate path = .ok location ∧
      disk.find? location = some (.file number data) ∧ data.bytes = bytes := by
  constructor
  · intro hread
    obtain ⟨location, hlocate, hread⟩ := bind_eq_ok.mp hread
    split at hread
    next => cases hread
    next => cases hread
    next number data hfind =>
      cases hread
      exact ⟨location, number, data, hlocate, hfind, rfl⟩
  · rintro ⟨location, number, data, hlocate, hfind, rfl⟩
    refine bind_eq_ok.mpr ⟨location, hlocate, ?_⟩
    simp only [hfind]
    rfl

theorem bytes_ofBytes (bytes : Bytes) : (FileData.ofBytes bytes).bytes = bytes :=
  Memory.slice_write .blank 0 bytes

/-! ## Numbers handed out -/

/-- The numbers handed out so far are below the next one, those in the names of temporary files
included. A disk is numbered however its directories and files came to be there. -/
structure Numbered (disk : Disk) : Prop where
  file_lt : ∀ location number data, disk.find? location = some (.file number data) →
    number < disk.nextNumber
  temporary_lt : ∀ location entry number, disk.find? location = some entry →
    location.getLast? = some (.temporary number) → number < disk.nextNumber

theorem numbered_empty (temporaryPath : String) (grants : Nat → Bool) :
    (empty temporaryPath grants).Numbered := by
  have hfind : ∀ location entry, (empty temporaryPath grants).find? location = some entry →
      location = [] ∧ entry = .directory := by
    intro location entry hfind
    unfold find? at hfind
    split at hfind
    next htop => exact ⟨htop, (Option.some.inj hfind).symm⟩
    next => cases hfind
  refine ⟨?_, ?_⟩
  · intro location number data hentry
    cases (hfind location _ hentry).2
  · intro location entry number hentry hlast
    rw [(hfind location entry hentry).1] at hlast
    cases hlast

/-- A directory, or a file whose number was handed out before, may be put where a path leads. -/
theorem Numbered.put (hnumbered : disk.Numbered) {entry : Entry} (hbelow : location ≠ [])
    (hspelled : Spelled location)
    (hentry : ∀ number data, entry = .file number data → number < disk.nextNumber) :
    (disk.put location entry).Numbered := by
  refine ⟨?_, ?_⟩
  · intro place number data hfind
    rw [find?_put disk location place entry hbelow] at hfind
    split at hfind
    next => exact hentry number data (Option.some.inj hfind)
    next => exact hnumbered.file_lt place number data hfind
  · intro place other number hfind hlast
    rw [find?_put disk location place entry hbelow] at hfind
    split at hfind
    next hplace =>
      subst hplace
      exact absurd (List.mem_of_getLast? hlast) (hspelled number)
    next => exact hnumbered.temporary_lt place other number hfind hlast

theorem Numbered.addFile (hnumbered : disk.Numbered) (hbelow : location ≠ [])
    (hspelled : Spelled location) (data : FileData) :
    (disk.addFile location data).1.Numbered := by
  have hraised : Numbered { disk with nextNumber := disk.nextNumber + 1 } :=
    ⟨fun place number data hfind => Nat.lt_succ_of_lt (hnumbered.file_lt place number data hfind),
      fun place entry number hfind hlast =>
        Nat.lt_succ_of_lt (hnumbered.temporary_lt place entry number hfind hlast)⟩
  refine hraised.put hbelow hspelled ?_
  intro number data heq
  cases heq
  exact Nat.lt_succ_self _

theorem Numbered.store (hnumbered : disk.Numbered) (number : Nat) (data : FileData) :
    (disk.store number data).Numbered := by
  refine ⟨?_, ?_⟩
  · intro place other bytes hfind
    rw [find?_store] at hfind
    obtain ⟨entry, hentry, hstored⟩ := Option.map_eq_some_iff.mp hfind
    cases entry with
    | directory => cases hstored
    | file old previous =>
        cases hstored
        exact hnumbered.file_lt place _ _ hentry
  · intro place entry other hfind hlast
    rw [find?_store] at hfind
    obtain ⟨old, hold, -⟩ := Option.map_eq_some_iff.mp hfind
    exact hnumbered.temporary_lt place old other hold hlast

theorem Numbered.makeDirectories (hnumbered : disk.Numbered) (path : String) :
    (disk.makeDirectories path).Numbered := by
  unfold Disk.makeDirectories
  split
  next => exact hnumbered
  next names _ =>
    refine List.foldlRecOn _ _ hnumbered ?_
    intro disk hnumbered count _
    split
    next => exact hnumbered
    next location hwalk =>
      split
      next => exact hnumbered
      next hnothing =>
        have hspelled := walk_spelled spelled_nil hwalk
        refine hnumbered.put ?_ hspelled nofun
        rintro rfl
        exact hnothing rfl

theorem Numbered.openFile (hnumbered : disk.Numbered)
    (hopen : disk.openFile path = .ok (after, number, data)) : after.Numbered := by
  obtain ⟨location, hlocate, hopen⟩ := bind_eq_ok.mp hopen
  obtain ⟨rfl, -⟩ | ⟨hnothing, rfl, -⟩ := openAt_eq_ok.mp hopen
  · exact hnumbered
  · exact hnumbered.addFile (ne_nil_of_find? hnothing)
      (locate_spelled (locateFile_eq_ok.mp hlocate).1) _

theorem Numbered.write (hnumbered : disk.Numbered) (hwrite : disk.write path bytes = .ok after) :
    after.Numbered := by
  obtain ⟨⟨opened, number, data⟩, hopen, hwrite⟩ := bind_eq_ok.mp hwrite
  cases hwrite
  exact (hnumbered.openFile hopen).store _ _

/-! ## Temporary files beside the others -/

/-- A disk with more entries than another, none of them where a path leads. -/
structure Beside (disk other : Disk) : Prop where
  kept : ∀ location entry, disk.find? location = some entry → other.find? location = some entry
  spelled : ∀ location, Spelled location → other.find? location = disk.find? location
  nextNumber_le : disk.nextNumber ≤ other.nextNumber

theorem Beside.refl (disk : Disk) : disk.Beside disk :=
  ⟨fun _ _ hfind => hfind, fun _ _ => rfl, Nat.le_refl _⟩

theorem find?_addFile (disk : Disk) (location place : Location) (data : FileData)
    (hbelow : location ≠ []) :
    (disk.addFile location data).1.find? place =
      if place = location then some (.file disk.nextNumber data) else disk.find? place :=
  find?_put disk location place _ hbelow

/-- A new temporary file is beside all others. -/
theorem Numbered.beside_addFile (hnumbered : disk.Numbered) (location : Location)
    (data : FileData) :
    disk.Beside (disk.addFile (location ++ [.temporary disk.nextNumber]) data).1 := by
  have hbelow : location ++ [EntryName.temporary disk.nextNumber] ≠ [] := by simp
  refine ⟨?_, ?_, Nat.le_succ _⟩
  · intro place entry hfind
    rw [find?_addFile disk _ place data hbelow, if_neg]
    · exact hfind
    · rintro rfl
      exact Nat.lt_irrefl _ (hnumbered.temporary_lt _ entry _ hfind (by simp))
  · intro place hspelled
    rw [find?_addFile disk _ place data hbelow, if_neg]
    rintro rfl
    exact hspelled disk.nextNumber (by simp)

namespace Beside

/-- A path sees none of the temporary files, neither at its end nor on its way. -/
theorem walk_eq (hbeside : disk.Beside other) {start : Location} (hstart : Spelled start)
    (names : List String) : other.walk start names = disk.walk start names := by
  induction names generalizing start with
  | nil => rw [walk, walk]
  | cons name rest ih =>
      simp only [walk, hbeside.spelled start hstart, ih hstart, ih (spelled_dropLast hstart),
        ih (spelled_append_given hstart name)]

theorem locate_eq (hbeside : disk.Beside other) (path : String) :
    other.locate path = disk.locate path := by
  simp only [locate, hbeside.walk_eq spelled_nil]

theorem locateFile_eq (hbeside : disk.Beside other) (path : String) :
    other.locateFile path = disk.locateFile path := by
  simp only [locateFile, hbeside.walk_eq spelled_nil]

theorem read_eq (hbeside : disk.Beside other) (path : String) :
    other.read path = disk.read path := by
  unfold read
  rw [hbeside.locate_eq]
  cases hlocate : disk.locate path with
  | error cause => rfl
  | ok location =>
      simp only [bind, Except.bind]
      rw [hbeside.spelled location (locate_spelled hlocate)]

/-- What can be opened beside temporary files can be opened without them. -/
theorem openFile_isOk (hbeside : disk.Beside other) {opened : Disk × Nat × FileData}
    (hopen : other.openFile path = .ok opened) : ∃ others, disk.openFile path = .ok others := by
  obtain ⟨location, hlocate, hopen⟩ := bind_eq_ok.mp hopen
  rw [hbeside.locateFile_eq] at hlocate
  have hfind := hbeside.spelled location (locate_spelled (locateFile_eq_ok.mp hlocate).1)
  obtain ⟨-, hthere⟩ | ⟨hnothing, -⟩ := openAt_eq_ok.mp hopen
  · exact ⟨_, bind_eq_ok.mpr ⟨location, hlocate, openAt_eq_ok.mpr (.inl ⟨rfl, hfind ▸ hthere⟩)⟩⟩
  · exact ⟨_, bind_eq_ok.mpr ⟨location, hlocate,
      openAt_eq_ok.mpr (.inr ⟨hfind ▸ hnothing, rfl, rfl, rfl⟩)⟩⟩

end Beside

/-- A path leads to a file that has received some bytes, and none of the files that were made
between two disks is this one. -/
def Written (disk other after : Disk) (path : String) (bytes : Bytes) : Prop :=
  ∃ location number, disk.locate path = .ok location ∧
    after.find? location = some (.file number (.ofBytes bytes)) ∧
    (number < disk.nextNumber ∨ other.nextNumber ≤ number) ∧
    ∀ place, disk.find? place = some .directory → after.find? place = some .directory

/-- A file that can be opened can be opened beside temporary files as well, and it is none of
them. -/
theorem openFile_of_beside (hnumbered : disk.Numbered) (hbeside : disk.Beside other)
    {opened : Disk × Nat × FileData} (hopen : disk.openFile path = .ok opened) :
    ∃ after location number data, other.openFile path = .ok (after, number, data) ∧
      disk.locate path = .ok location ∧ after.find? location = some (.file number data) ∧
      (number < disk.nextNumber ∨ other.nextNumber ≤ number) ∧
      ∀ place, other.find? place = some .directory → after.find? place = some .directory := by
  obtain ⟨opened, number, data⟩ := opened
  obtain ⟨location, hlocateFile, hopen⟩ := bind_eq_ok.mp hopen
  have hlocate := (locateFile_eq_ok.mp hlocateFile).1
  have hother := (hbeside.locateFile_eq path).trans hlocateFile
  have hfind := hbeside.spelled location (locate_spelled hlocate)
  obtain ⟨-, hthere⟩ | ⟨hnothing, -⟩ := openAt_eq_ok.mp hopen
  · rw [hthere] at hfind
    exact ⟨other, location, number, data,
      bind_eq_ok.mpr ⟨location, hother, openAt_eq_ok.mpr (.inl ⟨rfl, hfind⟩)⟩, hlocate, hfind,
      Or.inl (hnumbered.file_lt _ _ _ hthere), fun _ hplace => hplace⟩
  · rw [hnothing] at hfind
    have hbelow := ne_nil_of_find? hfind
    refine ⟨_, location, other.nextNumber, .empty,
      bind_eq_ok.mpr ⟨location, hother, openAt_eq_ok.mpr (.inr ⟨hfind, rfl, rfl, rfl⟩)⟩, hlocate,
      ?_, Or.inr (Nat.le_refl _), ?_⟩
    · rw [find?_addFile _ _ _ _ hbelow, if_pos rfl]
    · -- Nothing was where the new file is, so it takes the place of no directory.
      intro place hplace
      rw [find?_addFile _ _ _ _ hbelow, if_neg]
      · exact hplace
      · rintro rfl
        rw [hfind] at hplace
        cases hplace

theorem write_of_beside (hnumbered : disk.Numbered) (hbeside : disk.Beside other)
    {opened : Disk × Nat × FileData} (hopen : disk.openFile path = .ok opened) (bytes : Bytes) :
    ∃ after, other.write path bytes = .ok after ∧ Written disk other after path bytes := by
  obtain ⟨after, location, number, data, hopened, hlocate, hfind, hnumber, hkept⟩ :=
    openFile_of_beside hnumbered hbeside hopen
  refine ⟨_, bind_eq_ok.mpr ⟨_, hopened, rfl⟩, location, number, hlocate, ?_, hnumber, ?_⟩
  · exact find?_store_self hfind _
  · intro place hplace
    rw [find?_store, hkept place (hbeside.kept place _ hplace)]
    rfl

namespace Written

variable {written : Disk}

theorem read (hwritten : Written disk other written path bytes) :
    written.read path = .ok bytes := by
  obtain ⟨location, number, hlocate, hfind, -, hkept⟩ := hwritten
  exact read_eq_ok.mpr
    ⟨location, number, _, locate_of_directories (fun place _ => hkept place) hlocate, hfind,
      bytes_ofBytes bytes⟩

/-- What was written stays after the one file made between is emptied and removed. -/
theorem read_erase (hwritten : Written disk other written path bytes)
    (hnext : other.nextNumber = disk.nextNumber + 1) {place : Location} {stored : FileData}
    (hplace : written.find? place = some (.file disk.nextNumber stored)) :
    ((written.store disk.nextNumber .empty).erase place).read path = .ok bytes := by
  obtain ⟨location, number, hlocate, hfind, hnumber, hkept⟩ := hwritten
  have hne : number ≠ disk.nextNumber := by omega
  have herase := find?_erase_of_file (find?_store_self hplace .empty)
  refine read_eq_ok.mpr ⟨location, number, .ofBytes bytes, locate_of_directories ?_ hlocate, ?_,
    bytes_ofBytes bytes⟩
  · intro found _ hfound
    rw [herase, if_neg, find?_store, hkept found hfound]
    · rfl
    · rintro rfl
      cases (hkept _ hfound).symm.trans hplace
  · rw [herase, if_neg, find?_store, hfind, Option.map_some, Entry.stored, if_neg hne]
    rintro rfl
    cases hfind.symm.trans hplace
    exact hne rfl

end Written

end Disk

end RecordBuffer

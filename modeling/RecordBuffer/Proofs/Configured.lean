import RecordBuffer.Proofs.FailedCreation

/-!
# Settings and the buffers they make

Settings are checked before a buffer is made of them, and whoever makes it checks
them again. What passes the first check passes the second one, so a flaw is always
reported as an error and before a file is touched. The buffer that is made has the
sizes, the kind and the start that were set.
-/

namespace RecordBuffer

/-- The kind that a change asks for, if it asks for one. A file asks for a mapped buffer. -/
def Setting.kind? : Setting → Option Kind
  | .kind asked => some asked
  | .path _ => some .mapped
  | _ => none

/-- The change that asks for a kind last decides. -/
theorem Settings.kind_foldl (settings : Settings) (changes : List Setting) :
    (changes.foldl set settings).kind =
      (changes.filterMap Setting.kind?).getLastD settings.kind := by
  induction changes generalizing settings with
  | nil => rfl
  | cons change rest ih =>
      rw [List.foldl_cons, ih]
      cases change with
      | kind | path => exact List.getLastD_cons.symm
      | _ => rfl

/-! ## The length of a file -/

/-- How many bytes the file with a name holds. There are none where there is no file. -/
def Disk.lengthAt (disk : Disk) (name : FileName) : Nat :=
  match disk.locateNamed name with
  | .error _ => 0
  | .ok location =>
      match disk.find? location with
      | some (.file _ data) => data.length
      | _ => 0

theorem Disk.lengthAt_of_offers {disk : Disk} {name : FileName} {location : Location} {number : Nat}
    {data : FileData} (hlocate : disk.locateNamed name = .ok location)
    (hoffers : disk.Offers location number data) : disk.lengthAt name = data.length := by
  obtain hfind | ⟨hmissing, -, rfl⟩ := hoffers
  · simp only [lengthAt, hlocate, hfind]
  · simp only [lengthAt, hlocate, hmissing]
    rfl

namespace Buffer

variable {disk after : Disk} {made : Buffer} {name : FileName} {size maxSize startOffset : Nat}
  {kind : Kind}

/-! ## Settings that are accepted -/

/-- Neither refused for sizes that exceed each other nor for a flaw in the settings. -/
def Accepted (outcome : Except Fault (Disk × Except StorageError Buffer)) : Prop :=
  (∀ size limit, outcome ≠ .error (.initialSizeExceedsMax size limit)) ∧
    ∀ after flaw, outcome ≠ .ok (after, .error (.invalidConfig flaw))

theorem accepted_ok {result : Disk × Except StorageError Buffer}
    (hresult : ∀ flaw, result.2 ≠ .error (.invalidConfig flaw)) : Accepted (.ok result) := by
  refine ⟨fun _ _ hfault => (by cases hfault), ?_⟩
  rintro _ flaw ⟨⟩
  exact hresult flaw rfl

theorem mapTemporary_accepted (disk : Disk) (size maxSize : Nat) (flaw : ConfigFlaw) :
    (mapTemporary disk size maxSize).2 ≠ .error (.invalidConfig flaw) := by
  unfold mapTemporary
  simp only
  split
  next => simp
  split
  next hlength => simp [checkLength_eq_error hlength]
  split
  next hmapping =>
    obtain ⟨cause, rfl⟩ := checkMapping_eq_error hmapping
    simp
  next => simp

/-- A buffer without a file to open is not refused for sizes that are in order. -/
theorem create_accepted
    (hsize : orDefault defaultInitialSize size ≤ orDefault defaultMaxSize maxSize) :
    Accepted (create disk size maxSize kind) := by
  unfold create
  simp only [if_neg (Nat.not_lt_of_le hsize)]
  split
  next => exact accepted_ok (mapTemporary_accepted _ _ _)
  next =>
    split
    next => exact ⟨by simp, by simp⟩
    next => exact accepted_ok (by simp)

theorem mapFile_accepted (disk : Disk) (name : FileName) (number : Nat) (data : FileData)
    (size maxSize startOffset : Nat) (flaw : ConfigFlaw) :
    (mapFile disk name number data size maxSize startOffset).2 ≠ .error (.invalidConfig flaw) := by
  unfold mapFile
  simp only
  split
  next => simp
  split
  next hlength => simp [checkLength_eq_error hlength]
  split
  next hmapping =>
    obtain ⟨cause, rfl⟩ := checkMapping_eq_error hmapping
    simp
  next => simp

/-- A file is not refused for sizes and a start that are in order. -/
theorem mapPath_accepted
    (hsize : orDefault defaultInitialSize size ≤ orDefault defaultMaxSize maxSize)
    (hstart : startOffset ≤ orDefault defaultMaxSize maxSize) :
    Accepted (mapPath disk name size maxSize startOffset) := by
  unfold mapPath
  simp only [if_neg (Nat.not_lt_of_le hsize), if_neg (Nat.not_lt_of_le hstart)]
  split
  next => exact accepted_ok (by simp)
  next => exact accepted_ok (mapFile_accepted _ _ _ _ _ _ _)

/-! ## Buffers that are made -/

/-- A buffer without a file to open is of its kind and starts out with its sizes. -/
theorem create_sizes (hmade : create disk size maxSize kind = .ok (after, .ok made)) :
    made.maxSize = orDefault defaultMaxSize maxSize ∧ made.kind = kind ∧
      made.capacity = orDefault defaultInitialSize size ∧ made.cursor = 1 := by
  obtain ⟨-, backing, rfl, ⟨rfl, rfl, -⟩ | ⟨rfl, rfl, -⟩⟩ := create_cases hmade <;>
    exact ⟨rfl, rfl, rfl, rfl⟩

/-- A buffer of a file that is opened is mapped, and resumes behind the bytes of the file. -/
theorem mapPath_sizes
    (hmade : mapPath disk name size maxSize startOffset = .ok (after, .ok made)) :
    made.maxSize = orDefault defaultMaxSize maxSize ∧ made.kind = .mapped ∧
      made.cursor = max 1 (max startOffset (disk.lengthAt name)) ∧
      made.capacity = max (orDefault defaultInitialSize size) made.cursor := by
  obtain ⟨-, -, opened, location, number, data, hopened, hmapped⟩ := mapPath_eq_ok hmade
  obtain ⟨-, -, -, rfl⟩ := mapFile_eq_ok hmapped
  rw [Disk.lengthAt_of_offers hopened.named hopened.offers]
  refine ⟨rfl, rfl, Nat.max_comm _ _, ?_⟩
  simp only
  omega

end Buffer

namespace Settings

variable {settings : Settings} {disk after : Disk} {made : Buffer} {initial limit : Nat}
  {flaw : ConfigFlaw}

/-- What it takes for settings not to contradict each other. -/
theorem sizes_eq_ok (hsizes : settings.sizes = .ok (initial, limit)) :
    initial = Buffer.orDefault Buffer.defaultInitialSize settings.initialSize ∧
      limit = Buffer.orDefault Buffer.defaultMaxSize settings.maxSize ∧ initial ≤ limit ∧
      (settings.file.isSome → settings.kind = .mapped) ∧ settings.startOffset ≤ limit := by
  unfold sizes at hsizes
  simp only at hsizes
  split at hsizes
  next => cases hsizes
  next hmax =>
  split at hsizes
  next => cases hsizes
  next hkind =>
  split at hsizes
  next => cases hsizes
  next hstart =>
    cases hsizes
    refine ⟨rfl, rfl, Nat.le_of_not_lt hmax, fun hfile => ?_, Nat.le_of_not_lt hstart⟩
    exact Decidable.not_not.mp fun hne => hkind ⟨hfile, hne⟩

theorem build_of_flaw (disk : Disk) (hsizes : settings.sizes = .error flaw) :
    settings.build disk = .ok (disk, .error (.invalidConfig flaw)) := by
  rw [build, hsizes]

/-- Settings that do not contradict each other are accepted by whoever makes the buffer. -/
theorem build_accepted (disk : Disk) (hsizes : settings.sizes = .ok (initial, limit)) :
    Buffer.Accepted (settings.build disk) := by
  obtain ⟨rfl, rfl, hmax, -, hstart⟩ := sizes_eq_ok hsizes
  rw [build, hsizes]
  simp only
  split
  next =>
    rw [Buffer.mapPath_orDefault]
    exact Buffer.mapPath_accepted hmax hstart
  next =>
    rw [Buffer.create_orDefault]
    exact Buffer.create_accepted hmax

/-- A buffer that is made of settings has their maximum size, their kind and their start. -/
theorem build_sizes (hsizes : settings.sizes = .ok (initial, limit))
    (hmade : settings.build disk = .ok (after, .ok made)) :
    made.maxSize = limit ∧ made.kind = settings.kind ∧
      (settings.file = none → made.capacity = initial ∧ made.cursor = 1) ∧
      ∀ name, settings.file = some name →
        made.cursor = max 1 (max settings.startOffset (disk.lengthAt name)) ∧
        made.capacity = max initial made.cursor := by
  obtain ⟨rfl, rfl, -, hmapped, -⟩ := sizes_eq_ok hsizes
  obtain ⟨-, flaw, hrefused⟩ | ⟨name, hfile, hmade⟩ | ⟨hfile, hmade⟩ := Buffer.build_cases hmade
  · cases hrefused
  · obtain ⟨hmax, hkind, hcursor, hcapacity⟩ := Buffer.mapPath_sizes hmade
    rw [hfile] at hmapped ⊢
    refine ⟨hmax, hkind.trans (hmapped rfl).symm, fun hnone => (by cases hnone), ?_⟩
    rintro _ ⟨⟩
    exact ⟨hcursor, hcapacity⟩
  · obtain ⟨hmax, hkind, hcapacity, hcursor⟩ := Buffer.create_sizes hmade
    refine ⟨hmax, hkind, fun _ => ⟨hcapacity, hcursor⟩, ?_⟩
    intro name hsome
    cases hfile.symm.trans hsome

/-- Settings that were changed in any order are refused exactly for the flaw in their sizes, with no
file touched, and never for good because of sizes that exceed each other. A buffer that is made of
them has their maximum size and the kind that was asked for last. Without a file to open it is as
large as the initial size and empty. With one it resumes behind the bytes of the file or at the start
offset, and is larger than the initial size only where that lies behind it. -/
theorem build_as_checked (changes : List Setting) (disk : Disk) :
    let settings := ofList changes
    (∀ after flaw, settings.build disk = .ok (after, .error (.invalidConfig flaw)) ↔
      settings.sizes = .error flaw ∧ after = disk) ∧
    (∀ size limit, settings.build disk ≠ .error (.initialSizeExceedsMax size limit)) ∧
    ∀ after made, settings.build disk = .ok (after, .ok made) →
      ∃ initial limit, settings.sizes = .ok (initial, limit) ∧ made.maxSize = limit ∧
        made.kind = settings.kind ∧
        settings.kind = (changes.filterMap Setting.kind?).getLastD .heap ∧
        (settings.file = none → made.capacity = initial ∧ made.cursor = 1) ∧
        ∀ name, settings.file = some name →
          made.cursor = max 1 (max settings.startOffset (disk.lengthAt name)) ∧
          made.capacity = max initial made.cursor := by
  intro settings
  have hkind : settings.kind = (changes.filterMap Setting.kind?).getLastD .heap :=
    kind_foldl {} changes
  cases hsizes : settings.sizes with
  | error flaw =>
      have hbuild := build_of_flaw disk hsizes
      rw [hbuild]
      refine ⟨fun after other => ?_, fun _ _ hfault => (by cases hfault),
        fun after made hmade => (by cases hmade)⟩
      constructor
      · rintro ⟨⟩
        exact ⟨rfl, rfl⟩
      · rintro ⟨⟨⟩, rfl⟩
        rfl
  | ok sizes =>
      obtain ⟨initial, limit⟩ := sizes
      obtain ⟨hfault, hflaw⟩ := build_accepted disk hsizes
      refine ⟨fun after flaw => ⟨fun hbuild => absurd hbuild (hflaw after flaw), ?_⟩, hfault, ?_⟩
      · rintro ⟨⟨⟩, -⟩
      · intro after made hmade
        obtain ⟨hmax, hmadeKind, hnew, hmapped⟩ := build_sizes hsizes hmade
        exact ⟨initial, limit, rfl, hmax, hmadeKind, hkind, hnew, hmapped⟩

/-- A path, a kind that takes the mapping back, and another that asks for it again. The file holds
two bytes, and the start lies behind them. -/
theorem build_as_checked_mapped_again :
    let changes : List Setting := [.path "log", .kind .heap, .startOffset 5, .kind .mapped]
    ∃ before after made, (Disk.empty "").write "log" [7, 1] = .ok before ∧
      (ofList changes).build before = .ok (after, .ok made) ∧ made.kind = .mapped ∧
      made.maxSize = Buffer.defaultMaxSize ∧ made.cursor = 5 ∧ made.capacity = 64 := by
  intro changes
  let before := ((Disk.empty "").addFile [.given "log"] .empty).1.store 0 (.ofBytes [7, 1])
  let extended := (FileData.ofBytes [7, 1]).resize 64
  let made : Buffer := ⟨.mapped 0 (.path "log"), extended.memory, 64, 5, 64, Buffer.defaultMaxSize⟩
  have hbuild : (ofList changes).build before = .ok (before.store 0 extended, .ok made) := rfl
  have hlocate : before.locateNamed "log" = .ok [.given "log"] := rfl
  have hoffers : before.Offers [.given "log"] 0 (.ofBytes [7, 1]) := .inl rfl
  obtain ⟨-, -, hmade⟩ := build_as_checked changes before
  obtain ⟨initial, limit, hsizes, hmax, hkind, hlast, -, hpath⟩ := hmade _ _ hbuild
  obtain ⟨hcursor, hcapacity⟩ := hpath "log" rfl
  obtain ⟨rfl, rfl, -⟩ := sizes_eq_ok hsizes
  rw [Disk.lengthAt_of_offers hlocate hoffers] at hcursor
  exact ⟨before, _, made, rfl, hbuild, hkind.trans hlast, hmax, hcursor, hcapacity⟩

end Settings

end RecordBuffer

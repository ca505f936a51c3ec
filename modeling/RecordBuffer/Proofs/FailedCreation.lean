import RecordBuffer.Proofs.Making

/-!
# What a failed creation leaves behind

A buffer with a new temporary file leaves no trace when it cannot be made: its
file is removed again, however far it had come. A file that is opened by its name
is left as far as it had come, created or extended with zeros. No byte that it
held is lost, and no other file is touched.
-/

namespace RecordBuffer

namespace Disk

variable {before middle after : Disk} {location : Location} {number : Nat} {data : FileData}
  {name : FileName}

/-! ## Files that are opened and extended -/

/-- The file that a name leads to was opened and extended with zeros to a length, unless it was
longer. Nothing else differs. -/
def ExtendedAt (before after : Disk) (name : FileName) (length : Nat) : Prop :=
  ∃ location number data extended, before.locateNamed name = .ok location ∧
    before.Offers location number data ∧
    after.find? location = some (.file number extended) ∧
    extended.bytes = data.bytes ++ List.replicate (length - data.length) 0 ∧
    ∀ place, place ≠ location → (∀ old, before.find? place ≠ some (.file number old)) →
      after.find? place = before.find? place

/-- A file that is extended holds zeros behind what it held. -/
theorem bytes_resize {length : Nat} (hlength : data.length ≤ length) :
    (data.resize length).bytes = data.bytes ++ List.replicate (length - data.length) 0 := by
  obtain ⟨gap, rfl⟩ := Nat.exists_eq_add_of_le hlength
  rw [Nat.add_sub_cancel_left, FileData.bytes, FileData.resize, Memory.slice_add, Nat.zero_add,
    Nat.min_eq_left hlength]
  congr 1
  · apply Memory.slice_congr
    intro address _ hhigh
    rw [Memory.get_truncate, if_pos (by omega)]
  · refine List.eq_replicate_iff.mpr ⟨Memory.length_slice _ _ _, ?_⟩
    intro byte hbyte
    obtain ⟨address, haddress, rfl⟩ := List.mem_map.mp hbyte
    rw [Memory.get_truncate, if_neg (Nat.not_lt_of_le (List.mem_range'_1.mp haddress).1)]

namespace Opened

theorem extendedAt (hopened : before.Opened after name location number data) :
    before.ExtendedAt after name 0 := by
  refine ⟨location, number, data, data, hopened.named, hopened.offers, hopened.found, ?_,
    fun _ hplace _ => hopened.elsewhere hplace⟩
  rw [Nat.zero_sub, List.replicate_zero, List.append_nil]

theorem extendedAt_store {length : Nat}
    (hopened : before.Opened middle name location number data) :
    before.ExtendedAt (middle.store number (data.resize (max data.length length))) name length := by
  refine ⟨location, number, data, data.resize (max data.length length), hopened.named,
    hopened.offers, find?_store_self hopened.found _, ?_, ?_⟩
  · rw [bytes_resize (Nat.le_max_left _ _)]
    congr 2
    omega
  · intro place hplace hother
    rw [find?_store, hopened.elsewhere hplace]
    cases hentry : before.find? place with
    | none => rfl
    | some entry =>
        cases entry with
        | directory => rfl
        | file other old =>
            have hne : other ≠ number := by
              rintro rfl
              exact hother old hentry
            rw [Option.map_some, Entry.stored, if_neg hne]

end Opened

end Disk

namespace Buffer

variable {disk after : Disk} {error : StorageError} {name : FileName}
  {size maxSize startOffset : Nat}

/-! ## Buffers with a new temporary file -/

/-- A temporary file is taken back when it cannot be given its length or be mapped. -/
theorem mapTemporary_failed (hfailed : mapTemporary disk size maxSize = (after, .error error)) :
    after = disk := by
  unfold mapTemporary at hfailed
  simp only at hfailed
  split at hfailed
  next =>
    cases hfailed
    rfl
  next created place number hadd =>
  obtain ⟨location, -, rfl, hnothing, rfl, rfl⟩ := Disk.addTemporary_eq_ok.mp hadd
  split at hfailed
  next =>
    cases hfailed
    exact Disk.takeBack_addFile hnothing _
  split at hfailed
  next =>
    cases hfailed
    rw [Disk.put_addFile]
    exact Disk.takeBack_addFile hnothing _
  next => cases hfailed

theorem create_failed {kind : Kind}
    (hfailed : Buffer.create disk size maxSize kind = .ok (after, .error error)) :
    after = disk := by
  unfold Buffer.create at hfailed
  simp only at hfailed
  split at hfailed
  next => cases hfailed
  split at hfailed
  next => exact mapTemporary_failed (Except.ok.inj hfailed)
  next => split at hfailed <;> cases hfailed

/-! ## Buffers of a file that is opened -/

/-- What an opening by a name leaves behind that failed. A length that is refused leaves the file as
it was opened, a mapping that is refused leaves it extended, and everything else fails before. -/
def LeavesBehind (disk after : Disk) (name : FileName) (length : Nat) : StorageError → Prop
  | .truncate _ _ _ => disk.ExtendedAt after name 0
  | .map _ _ _ => disk.ExtendedAt after name length
  | _ => after = disk

theorem checkLength_eq_error {length : Nat}
    (hcheck : checkLength name length = .error error) :
    error = .truncate name length .lengthTooLarge := by
  unfold checkLength at hcheck
  split at hcheck <;> cases hcheck
  rfl

theorem checkMapping_eq_error {length : Nat}
    (hcheck : checkMapping disk name length = .error error) :
    ∃ cause, error = .map name length cause := by
  unfold checkMapping at hcheck
  split at hcheck
  next =>
    cases hcheck
    exact ⟨_, rfl⟩
  next =>
    split at hcheck <;> cases hcheck
    exact ⟨_, rfl⟩

theorem mapPath_failed
    (hfailed : mapPath disk name size maxSize startOffset = .ok (after, .error error)) :
    LeavesBehind disk after name (max (orDefault defaultInitialSize size) startOffset) error := by
  obtain ⟨rfl, ⟨flaw, hflaw⟩ | ⟨cause, hcause⟩⟩ |
    ⟨-, -, opened, location, number, data, hopened, hmapped⟩ := mapPath_cases hfailed
  · cases hflaw
    rfl
  · cases hcause
    rfl
  unfold mapFile at hmapped
  simp only at hmapped
  split at hmapped
  next hexceeds =>
    -- A file that is too long has bytes, so it was there before.
    cases hmapped
    exact hopened.eq_of_length (by omega)
  split at hmapped
  next hlength =>
    cases hmapped
    obtain rfl := checkLength_eq_error hlength
    exact hopened.extendedAt
  split at hmapped
  next hmapping =>
    cases hmapped
    obtain ⟨cause, rfl⟩ := checkMapping_eq_error hmapping
    exact hopened.extendedAt_store
  next => cases hmapped

theorem build_failed {settings : Settings}
    (hfailed : settings.build disk = .ok (after, .error error)) :
    after = disk ∨ ∃ name, settings.file = some name ∧ LeavesBehind disk after name
      (max (orDefault defaultInitialSize settings.initialSize) settings.startOffset) error := by
  obtain ⟨rfl, -⟩ | ⟨name, hfile, hmapped⟩ | ⟨-, hcreated⟩ := build_cases hfailed
  · exact Or.inl rfl
  · exact Or.inr ⟨name, hfile, mapPath_failed hmapped⟩
  · exact Or.inl (create_failed hcreated)

/-- A buffer that cannot be made leaves everything as it was if it opens no file by its name, also
where its temporary file had been created and given its length by then. A file that is opened is left
alone unless its length or its mapping is refused. Then it may be new, and zeros may follow what it
held, up to the size or the start that was asked for. -/
theorem failed_creation_leaves {disk after : Disk} {error : StorageError} :
    (∀ size maxSize kind, Buffer.create disk size maxSize kind = .ok (after, .error error) →
      after = disk) ∧
    (∀ size maxSize, mapTemporary disk size maxSize = (after, .error error) → after = disk) ∧
    (∀ name size maxSize startOffset,
      mapPath disk name size maxSize startOffset = .ok (after, .error error) →
        LeavesBehind disk after name (max (orDefault defaultInitialSize size) startOffset) error) ∧
    ∀ settings : Settings, settings.build disk = .ok (after, .error error) →
      after = disk ∨ ∃ name, settings.file = some name ∧ LeavesBehind disk after name
        (max (orDefault defaultInitialSize settings.initialSize) settings.startOffset) error :=
  ⟨fun _ _ _ hfailed => create_failed hfailed, fun _ _ hfailed => mapTemporary_failed hfailed,
    fun _ _ _ _ hfailed => mapPath_failed hfailed, fun _ hfailed => build_failed hfailed⟩

/-- A mapping is refused after the file was extended from two bytes to 64. -/
theorem failed_creation_leaves_zeros :
    ∃ before after error, (Disk.empty "").write "log" [7, 1] = .ok before ∧
      mapPath before "log" 64 (Limits.maxExtent + 1) 1 = .ok (after, .error error) ∧
      before.ExtendedAt after "log" 64 := by
  let before := ((Disk.empty "").addFile [.given "log"] .empty).1.store 0 (.ofBytes [7, 1])
  have hfailed : mapPath before "log" 64 (Limits.maxExtent + 1) 1 =
      .ok (before.store 0 ((FileData.ofBytes [7, 1]).resize 64),
        .error (.map (.path "log") (Limits.maxExtent + 1) .mappingTooLarge)) := rfl
  obtain ⟨-, -, hpath, -⟩ := @failed_creation_leaves before _ _
  exact ⟨before, _, _, rfl, hfailed, hpath "log" 64 (Limits.maxExtent + 1) 1 hfailed⟩

/-- A file that should have kept its two bytes is read with zeros behind them. -/
theorem failed_creation_extends :
    ∃ before after cause, (Disk.empty "").write "log" [7, 1] = .ok before ∧
      mapPath before "log" 64 (Limits.maxExtent + 1) 1 =
        .ok (after, .error (.map (.path "log") (Limits.maxExtent + 1) cause)) ∧
      before.read "log" = .ok [7, 1] ∧
      after.read "log" = .ok ([7, 1] ++ List.replicate 62 0) := by
  let before := ((Disk.empty "").addFile [.given "log"] .empty).1.store 0 (.ofBytes [7, 1])
  let after := before.store 0 ((FileData.ofBytes [7, 1]).resize 64)
  have hheld : (FileData.ofBytes [7, 1]).bytes = [7, 1] := Disk.bytes_ofBytes _
  have hbefore : before.read "log" = .ok (FileData.ofBytes [7, 1]).bytes := rfl
  have hafter : after.read "log" = .ok ((FileData.ofBytes [7, 1]).resize 64).bytes := rfl
  rw [hheld] at hbefore
  rw [Disk.bytes_resize (by decide), hheld] at hafter
  exact ⟨before, after, .mappingTooLarge, rfl, rfl, hbefore, hafter⟩

end Buffer

end RecordBuffer

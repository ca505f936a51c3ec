import RecordBuffer.Proofs.FailedCreation
import RecordBuffer.Proofs.Reopening

/-!
# Files that are mapped

A file that is opened for a buffer keeps every byte, whatever size and start are
asked for. The cursor resumes behind the bytes, zeros follow them up to the
capacity, and the file is as long as that. A start or a file above the maximum
size is refused before anything is touched. Whatever else is asked for is mapped
if the machine agrees to it.
-/

namespace RecordBuffer

namespace Buffer

variable {disk opened after : Disk} {path : String} {location : Location} {number : Nat}
  {data : FileData} {buffer made : Buffer} {size maxSize startOffset : Nat}

/-- The file of a mapped buffer is read as the bytes below the capacity. -/
theorem Placed.read (hplaced : buffer.Placed disk number (.path path)) :
    disk.read path = .ok (buffer.memory.slice 0 buffer.capacity) := by
  obtain ⟨-, -, -, location, hlocate, hfind⟩ := hplaced
  exact Disk.read_eq_ok.mpr
    ⟨location, number, _, (Disk.locateFile_eq_ok.mp hlocate).1, hfind, rfl⟩

/-- A buffer that resumes behind the bytes that a file held. The file is read as the bytes below the
capacity, which are those that it held and zeros behind them, and no other file differs. -/
structure ResumesBehind (made : Buffer) (before after : Disk) (path : String) (data : FileData)
    (size maxSize startOffset : Nat) : Prop where
  cursor_eq : made.cursor = max 1 (max startOffset data.length)
  capacity_eq : made.capacity = max size made.cursor
  maxSize_eq : made.maxSize = maxSize
  slice_eq : made.memory.slice 0 made.capacity =
    data.bytes ++ List.replicate (made.capacity - data.length) 0
  read_eq : after.read path = .ok (made.memory.slice 0 made.capacity)
  extendedAt : before.ExtendedAt after path made.capacity

/-! ## What is refused -/

theorem mapPath_of_openNamed (hopen : disk.openNamed path = .ok (opened, number, data))
    (hsize : orDefault defaultInitialSize size ≤ orDefault defaultMaxSize maxSize)
    (hstart : startOffset ≤ orDefault defaultMaxSize maxSize) :
    mapPath disk path size maxSize startOffset = .ok (mapFile opened (.path path) number data
      (orDefault defaultInitialSize size) (orDefault defaultMaxSize maxSize) startOffset) := by
  unfold mapPath
  simp only [if_neg (Nat.not_lt_of_le hsize), if_neg (Nat.not_lt_of_le hstart), hopen]

/-- No check of a length refuses a file of a size that a file can have. -/
theorem mapFile_eq (hsize : size ≤ maxSize) (hstart : startOffset ≤ maxSize)
    (hdata : data.length ≤ maxSize) (hmax : maxSize ≤ Limits.maxExtent) :
    mapFile opened (.path path) number data size maxSize startOffset =
      let extended := data.resize (max data.length (max size startOffset))
      (opened.store number extended,
        (checkMapping (opened.store number extended) (.path path) maxSize).map fun _ =>
        ⟨.mapped number (.path path), extended.memory, extended.length,
          max (max startOffset data.length) 1,
          max (max size data.length) (max (max startOffset data.length) 1), maxSize⟩) := by
  have hlength : checkLength (.path path) (max data.length (max size startOffset)) = .ok () :=
    if_neg (by omega)
  unfold mapFile
  simp only [if_neg (Nat.not_lt_of_le hdata), hlength]
  cases checkMapping (opened.store number (data.resize _)) (.path path) maxSize <;> rfl

theorem mapPath_mapped (hopen : disk.openNamed path = .ok (opened, number, data))
    (hsize : orDefault defaultInitialSize size ≤ orDefault defaultMaxSize maxSize)
    (hstart : startOffset ≤ orDefault defaultMaxSize maxSize)
    (hdata : data.length ≤ orDefault defaultMaxSize maxSize)
    (hmaps : disk.Maps (orDefault defaultMaxSize maxSize)) :
    mapPath disk path size maxSize startOffset =
      let initial := orDefault defaultInitialSize size
      let extended := data.resize (max data.length (max initial startOffset))
      .ok (opened.store number extended, .ok ⟨.mapped number (.path path), extended.memory,
        extended.length, max (max startOffset data.length) 1,
        max (max initial data.length) (max (max startOffset data.length) 1),
        orDefault defaultMaxSize maxSize⟩) := by
  obtain ⟨location, hopened⟩ := Disk.openNamed_eq_ok.mp hopen
  have hcheck : ∀ stored, checkMapping (opened.store number stored) (.path path)
      (orDefault defaultMaxSize maxSize) = .ok () := fun stored =>
    checkMapping_eq_ok.mpr ⟨hmaps.1, (congrFun hopened.grants_eq _).trans hmaps.2⟩
  rw [mapPath_of_openNamed hopen hsize hstart, mapFile_eq hsize hstart hdata hmaps.1]
  simp only [hcheck]
  rfl

namespace ResumesBehind

variable {before : Disk}

theorem length_le_cursor
    (hresumes : made.ResumesBehind before after path data size maxSize startOffset) :
    data.length ≤ made.cursor := by
  rw [hresumes.cursor_eq]
  omega

/-- Up to the cursor there is nothing but the file's bytes and zeros. -/
theorem slice_cursor
    (hresumes : made.ResumesBehind before after path data size maxSize startOffset) :
    made.memory.slice 0 made.cursor =
      data.bytes ++ List.replicate (made.cursor - data.length) 0 := by
  have hlength := hresumes.length_le_cursor
  have hcapacity := hresumes.capacity_eq
  obtain ⟨gap, hgap⟩ := Nat.exists_eq_add_of_le (show made.cursor ≤ made.capacity by omega)
  have hzeros : made.capacity - data.length = made.cursor - data.length + gap := by omega
  have hslice := hresumes.slice_eq
  rw [hzeros, ← List.replicate_append_replicate, ← List.append_assoc, hgap, Memory.slice_add]
    at hslice
  refine (List.append_inj hslice ?_).1
  rw [Memory.length_slice, List.length_append, List.length_replicate, FileData.bytes,
    Memory.length_slice]
  omega

/-- The next record is placed at the cursor, behind every byte that the file held. -/
theorem appendRecord (hresumes : made.ResumesBehind before after path data size maxSize startOffset)
    (payload : Bytes)
    (hplaced : made.Placed after number (.path path))
    (hshort : payload.length < Limits.payloadBound)
    (hfits : made.cursor + Record.size payload.length ≤ maxSize) :
    ∃ written rest, made.appendRecord payload = .ok (made.cursor, written) ∧
      (written.publish after).read path = .ok (data.bytes ++
        List.replicate (made.cursor - data.length) 0 ++ Record.encode payload ++ rest) := by
  rw [← hresumes.maxSize_eq] at hfits
  obtain ⟨offset, written, happend⟩ :=
    appendRecord_ok hplaced.wellFormed hshort hfits (hplaced.affords _)
  obtain ⟨rfl, -⟩ := appendRecord_advanced hplaced.wellFormed happend
  have hfollowed := appendRecord_followedBy hplaced.wellFormed happend
  have hread := (hplaced.publish hfollowed.toEvolved).read
  obtain ⟨gap, hgap⟩ := Nat.exists_eq_add_of_le hfollowed.wellFormed.cursor_le_capacity
  rw [hgap, Memory.slice_add, hfollowed.written, hresumes.slice_cursor] at hread
  exact ⟨written, _, happend, hread⟩

end ResumesBehind

end Buffer

end RecordBuffer

import RecordBuffer.Buffer.Basic
import RecordBuffer.Disk

/-!
# Buffers and their files

A mapped buffer and its file share their bytes while the buffer is in use. The
file is as long as the buffer's capacity then, unless something else writes it.
Release removes it, and persistence keeps what lies below the cursor.
-/

namespace RecordBuffer.Buffer

/-- Refuse a file length that no file can have. -/
def checkLength (name : FileName) (length : Nat) : Except StorageError Unit :=
  if Limits.maxExtent < length then .error (.truncate name length .lengthTooLarge) else .ok ()

/-- Refuse a mapping that cannot be addressed, or that the machine does not agree to. -/
def checkMapping (disk : Disk) (name : FileName) (length : Nat) : Except StorageError Unit :=
  if Limits.maxExtent < length then .error (.map name length .mappingTooLarge)
  else if disk.grants length then .ok ()
  else .error (.map name length .outOfMemory)

/-- Map a new temporary file. It is created empty, given its length and mapped, and is removed again
as soon as one of these fails. -/
def mapTemporary (disk : Disk) (size maxSize : Nat) : Disk × Except StorageError Buffer :=
  let name := .temporary disk.nextNumber
  match disk.addTemporary with
  | .error cause => (disk, .error (.create name cause))
  | .ok (created, location, number) =>
      match checkLength name size with
      | .error error => (created.takeBack location number, .error error)
      | .ok () =>
          let data := FileData.empty.resize size
          let sized := created.put location (.file number data)
          match checkMapping sized name maxSize with
          | .error error => (sized.takeBack location number, .error error)
          | .ok () => (sized, .ok ⟨.mapped number name, data.memory, size, 1, size, maxSize⟩)

/-- A new buffer of a kind, mapped to a temporary file if it is mapped. -/
def create (disk : Disk) (size maxSize : Nat) (kind : Kind) :
    Except Fault (Disk × Except StorageError Buffer) :=
  let size := orDefault defaultInitialSize size
  let maxSize := orDefault defaultMaxSize maxSize
  if maxSize < size then .error (.initialSizeExceedsMax size maxSize)
  else
    match kind with
    | .mapped => .ok (mapTemporary disk size maxSize)
    | .heap =>
        if Limits.maxExtent < size then .error .capacityOverflow
        else .ok (disk, .ok ⟨.heap, .blank, size, 1, size, maxSize⟩)

/-- Map an opened file. It is never cut, and its bytes stay in front of the cursor. A length or
a mapping refused here leaves the file as it has become by then. -/
def mapFile (disk : Disk) (name : FileName) (number : Nat) (data : FileData)
    (size maxSize startOffset : Nat) : Disk × Except StorageError Buffer :=
  let length := max data.length (max size startOffset)
  if maxSize < data.length then (disk, .error (.sizeExceeded name data.length maxSize))
  else
    match checkLength name length with
    | .error error => (disk, .error error)
    | .ok () =>
        let extended := data.resize length
        let disk := disk.store number extended
        match checkMapping disk name maxSize with
        | .error error => (disk, .error error)
        | .ok () =>
            let cursor := max (max startOffset data.length) 1
            let capacity := max (max size data.length) cursor
            (disk,
              .ok ⟨.mapped number name, extended.memory, length, cursor, capacity, maxSize⟩)

/-- Map the file with a name, which is created if it is missing. The cursor resumes behind what
the file holds, or at `startOffset` if that is further. -/
def mapPath (disk : Disk) (name : FileName) (size maxSize startOffset : Nat) :
    Except Fault (Disk × Except StorageError Buffer) :=
  let size := orDefault defaultInitialSize size
  let maxSize := orDefault defaultMaxSize maxSize
  if maxSize < size then .error (.initialSizeExceedsMax size maxSize)
  else if maxSize < startOffset then
    .ok (disk, .error (.invalidConfig (.startOffsetExceedsMax startOffset maxSize)))
  else
    match disk.openNamed name with
    | .error cause => .ok (disk, .error (.create name cause))
    | .ok (disk, number, data) => .ok (mapFile disk name number data size maxSize startOffset)

/-- Show the bytes of a mapped buffer in its file. -/
def publish (buffer : Buffer) (disk : Disk) : Disk :=
  match buffer.backing with
  | .heap => disk
  | .mapped number _ => disk.store number ⟨buffer.memory, buffer.backed⟩

/-- Take over the bytes of a mapped buffer's file after something else has changed them. -/
def refresh (buffer : Buffer) (disk : Disk) : Buffer :=
  match buffer.backing with
  | .heap => buffer
  | .mapped number _ =>
      match disk.load? number with
      | none => buffer
      | some data => { buffer with memory := data.memory, backed := data.length }

/-! ## The end of a buffer

The backing is taken out of a buffer that is given up. What is left of the buffer
goes out of use like any other, so the destructor finds memory of its own there.
-/

/-- Free a backing. The file of a mapped buffer is emptied and then removed by its name. -/
def free (buffer : Buffer) (disk : Disk) : Disk × Except StorageError Unit :=
  match buffer.backing with
  | .heap => (disk, .ok ())
  | .mapped number name =>
      let disk := disk.store number .empty
      match disk.removeNamed name with
      | .error cause => (disk, .error (.remove name cause))
      | .ok disk => (disk, .ok ())

/-- Close a backing. The file of a mapped buffer is kept, with the bytes below the cursor. -/
def keep (buffer : Buffer) (disk : Disk) : Disk :=
  match buffer.backing with
  | .heap => disk
  | .mapped number _ =>
      disk.store number ((FileData.mk buffer.memory buffer.backed).resize buffer.cursor)

/-- What is left of a buffer without its backing: no memory of its own. -/
def emptied (buffer : Buffer) : Buffer :=
  { buffer with backing := .heap, memory := .blank, backed := 0 }

/-- The destructor. Whether the file of a mapped buffer could be removed is not reported. -/
def drop (buffer : Buffer) (disk : Disk) : Disk := (buffer.free disk).1

/-- Give up a buffer and its file. -/
def release (buffer : Buffer) (disk : Disk) : Disk × Except StorageError Unit :=
  let (disk, freed) := buffer.free disk
  (buffer.emptied.drop disk, freed)

/-- Give up a buffer and keep its file. -/
def persist (buffer : Buffer) (disk : Disk) : Disk := buffer.emptied.drop (buffer.keep disk)

end RecordBuffer.Buffer

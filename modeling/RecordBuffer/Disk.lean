import RecordBuffer.Limits
import RecordBuffer.Memory
import RecordBuffer.Split
import RecordBuffer.StorageError

/-!
# A directory tree of files

Paths lead from the top of the tree to a directory or a file. Every file has a
number for as long as it is used, also while no path leads to it any more.
Temporary files have names that nobody can spell. They are opened again by the
names that are handed out for them.
-/

namespace RecordBuffer

/-- The bytes of a file: those of a memory below a length. -/
structure FileData where
  memory : Memory
  length : Nat
  deriving Inhabited, Repr

namespace FileData

/-- A file without bytes. -/
def empty : FileData := ⟨.blank, 0⟩

/-- A file that holds a string of bytes. -/
def ofBytes (bytes : Bytes) : FileData := ⟨Memory.blank.write 0 bytes, bytes.length⟩

/-- The string of bytes that a file holds. -/
def bytes (data : FileData) : Bytes := data.memory.slice 0 data.length

/-- Cut a file to a length, or extend it with zeros. -/
def resize (data : FileData) (length : Nat) : FileData :=
  ⟨data.memory.truncate (min data.length length), length⟩

end FileData

/-- The name of an entry inside its directory. -/
inductive EntryName where
  | given (text : String)
  | temporary (number : Nat)
  deriving DecidableEq, Repr, Inhabited

/-- What listings show for the name of an entry. -/
def EntryName.shown : EntryName → String
  | given text => text
  | temporary number => (FileName.temporary number).shown

/-- The names on the way from the top of the tree to an entry. -/
abbrev Location := List EntryName

/-- What a location holds. -/
inductive Entry where
  | directory
  | file (number : Nat) (data : FileData)
  deriving Inhabited, Repr

/-- A tree of directories and files. The top directory is not listed among the entries. -/
structure Disk where
  entries : List (Location × Entry)
  /-- The number of the next new file. -/
  nextNumber : Nat
  /-- The path of the directory that receives temporary files. -/
  temporaryPath : String
  /-- The lengths up to `Limits.maxExtent` that the machine agrees to map. -/
  grants : Nat → Bool
  deriving Inhabited

namespace Disk

/-- A tree that holds nothing below its top. -/
def empty (temporaryPath : String)
    (grants : Nat → Bool := fun length => decide (length ≤ Limits.usualMapping)) : Disk :=
  ⟨[], 0, temporaryPath, grants⟩

/-- What a location holds, if anything. -/
def find? (disk : Disk) (location : Location) : Option Entry :=
  if location = [] then some .directory
  else (disk.entries.find? fun entry => entry.1 = location).map Prod.snd

/-- Replace what a location holds. -/
def put (disk : Disk) (location : Location) (entry : Entry) : Disk :=
  { disk with entries := (location, entry) :: disk.entries.filter fun old => old.1 ≠ location }

/-- Empty a location. -/
def erase (disk : Disk) (location : Location) : Disk :=
  { disk with entries := disk.entries.filter fun old => old.1 ≠ location }

/-- Put an empty file at a location and number it. -/
def addFile (disk : Disk) (location : Location) (data : FileData) : Disk × Nat :=
  ({ disk.put location (.file disk.nextNumber data) with nextNumber := disk.nextNumber + 1 },
    disk.nextNumber)

/-- Replace the bytes of the file with a number, wherever it is. -/
def store (disk : Disk) (number : Nat) (data : FileData) : Disk :=
  { disk with
    entries := disk.entries.map fun
      | (location, .file other old) =>
          (location, .file other (if other = number then data else old))
      | entry => entry }

/-- The bytes of the file with a number, while some path leads to it. -/
def load? (disk : Disk) (number : Nat) : Option FileData :=
  disk.entries.findSome? fun
    | (_, .file other data) => if other = number then some data else none
    | _ => none

theorem find?_put (disk : Disk) (location other : Location) (entry : Entry)
    (below : location ≠ []) :
    (disk.put location entry).find? other =
      if other = location then some entry else disk.find? other := by
  by_cases top : other = []
  · subst top
    simp [find?, below.symm]
  by_cases same : other = location
  · subst same
    simp [find?, put, top]
  · simp only [find?, put, top, same, if_false, List.find?_cons, decide_eq_false (Ne.symm same),
      List.find?_filter]
    congr 2
    grind

theorem find?_erase (disk : Disk) (location other : Location) (below : location ≠ []) :
    (disk.erase location).find? other =
      if other = location then none else disk.find? other := by
  by_cases top : other = []
  · subst top
    simp [find?, below.symm]
  simp only [find?, erase, top, if_false, List.find?_filter]
  by_cases same : other = location
  · subst same
    simp
  · simp only [same, if_false]
    congr 2
    grind

/-! ## Paths -/

/-- The names between the slashes of a path. -/
def splitNames (path : String) : List String :=
  let (closed, last) := splitAtEach '/' path.toList
  (closed ++ [last]).map String.ofList

/-- The longest name of an entry and the longest path, in bytes of UTF-8. -/
def maxNameSize : Nat := 255

@[inherit_doc maxNameSize]
def maxPathSize : Nat := 4095

/-- Follow names from a location. Every name but the last has to lead to a directory; the
last may lead nowhere. -/
def walk (disk : Disk) : Location → List String → Except Cause Location
  | location, [] => .ok location
  | location, name :: rest =>
      match disk.find? location with
      | none => .error .noSuchFile
      | some (.file _ _) => .error .notDirectory
      | some .directory =>
          if name = "" ∨ name = "." then disk.walk location rest
          else if name = ".." then disk.walk location.dropLast rest
          else if maxNameSize < name.utf8ByteSize then .error .nameTooLong
          else disk.walk (location ++ [.given name]) rest

/-- The names in a path, or why it is no path at all. -/
def pathNames (path : String) : Except Cause (List String) :=
  if '\x00' ∈ path.toList then .error .nulInName
  else if path = "" then .error .noSuchFile
  else if maxPathSize < path.utf8ByteSize then .error .nameTooLong
  else .ok (splitNames path)

/-- Where a path leads. -/
def locate (disk : Disk) (path : String) : Except Cause Location := do
  disk.walk [] (← pathNames path)

/-- Where a path leads that may have to become a file. A path that ends with a slash, `.` or
`..` can only be that of a directory, and is refused as soon as the way to its last name has
been followed. -/
def locateFile (disk : Disk) (path : String) : Except Cause Location := do
  let names ← pathNames path
  if names.getLast? ∈ [some "", some ".", some ".."] then
    let way := (names.reverse.dropWhile (· = "")).tail.reverse
    let _ ← disk.walk [] (way ++ ["."])
    throw .isDirectory
  disk.walk [] names

/-- The bytes of the file at a path. -/
def read (disk : Disk) (path : String) : Except Cause Bytes := do
  match disk.find? (← disk.locate path) with
  | none => throw .noSuchFile
  | some .directory => throw .isDirectory
  | some (.file _ data) => return data.bytes

/-- The number and bytes of the file at a location, which is created empty if it is missing. -/
def openAt (disk : Disk) (location : Location) : Except Cause (Disk × Nat × FileData) :=
  match disk.find? location with
  | some .directory => .error .isDirectory
  | some (.file number data) => .ok (disk, number, data)
  | none =>
      let (disk, number) := disk.addFile location .empty
      .ok (disk, number, .empty)

/-- Open the file at a path. -/
def openFile (disk : Disk) (path : String) : Except Cause (Disk × Nat × FileData) := do
  disk.openAt (← disk.locateFile path)

/-- Replace the bytes of the file at a path, which is created if it is missing. -/
def write (disk : Disk) (path : String) (bytes : Bytes) : Except Cause Disk := do
  let (disk, number, _) ← disk.openFile path
  return disk.store number (.ofBytes bytes)

/-- Remove the file at a location. -/
def removeAt (disk : Disk) (location : Location) : Except Cause Disk :=
  match disk.find? location with
  | none => .error .noSuchFile
  | some .directory => .error .isDirectory
  | some (.file _ _) => .ok (disk.erase location)

/-- Remove the file at a path. -/
def remove (disk : Disk) (path : String) : Except Cause Disk := do
  disk.removeAt (← disk.locate path)

/-- Make a directory and those on the way to it, up to the first name that is taken by a file. -/
def makeDirectories (disk : Disk) (path : String) : Disk :=
  match pathNames path with
  | .error _ => disk
  | .ok names =>
      (List.range names.length).foldl (fun disk i =>
        match disk.walk [] (names.take (i + 1)) with
        | .error _ => disk
        | .ok location =>
            if (disk.find? location).isSome then disk else disk.put location .directory) disk

/-! ## Temporary files -/

/-- The location of the directory that receives temporary files. -/
def temporaryLocation (disk : Disk) : Except Cause Location := do
  let names ← if disk.temporaryPath = "" then pure [] else pathNames disk.temporaryPath
  let location ← disk.walk [] names
  match disk.find? location with
  | none => throw .noSuchFile
  | some (.file _ _) => throw .notDirectory
  | some .directory => return location

/-- Put an empty temporary file under the next number. Its place has to be free. -/
def addTemporary (disk : Disk) : Except Cause (Disk × Location × Nat) := do
  let location := (← disk.temporaryLocation) ++ [.temporary disk.nextNumber]
  match disk.find? location with
  | some _ => throw .nameTaken
  | none =>
      let (disk, number) := disk.addFile location .empty
      return (disk, location, number)

/-- Remove a temporary file that was put there last. Its number is free again. -/
def takeBack (disk : Disk) (location : Location) (number : Nat) : Disk :=
  { disk.erase location with nextNumber := number }

/-! ## Names of files -/

/-- Where the name of a file leads. That of a temporary file is known from its making on. -/
def locateNamed (disk : Disk) : FileName → Except Cause Location
  | .path path => disk.locateFile path
  | .temporary number => do
      if disk.nextNumber ≤ number then throw .noSuchFile
      return (← disk.temporaryLocation) ++ [.temporary number]

/-- Open the file with a name. -/
def openNamed (disk : Disk) (name : FileName) : Except Cause (Disk × Nat × FileData) := do
  disk.openAt (← disk.locateNamed name)

/-- Remove a file by its name. -/
def removeNamed (disk : Disk) (name : FileName) : Except Cause Disk :=
  match name with
  | .path path => disk.remove path
  | .temporary _ => do disk.removeAt (← disk.locateNamed name)

/-! ## Listings -/

/-- The entries of the top directory in the order of their names, with the length of every file. -/
def listing (disk : Disk) : List (String × Option Nat) :=
  (disk.entries.filterMap fun
    | ([name], .file _ data) => some (name.shown, some data.length)
    | ([name], .directory) => some (name.shown, none)
    | _ => none).mergeSort fun left right =>
      (compareLex (compareOn Prod.fst) (compareOn fun entry => entry.2.getD 0) left right).isLE

/-- The files of the top directory with their bytes. -/
def files (disk : Disk) : List (String × Bytes) :=
  disk.entries.filterMap fun
    | ([name], .file _ data) => some (name.shown, data.bytes)
    | _ => none

end Disk

end RecordBuffer

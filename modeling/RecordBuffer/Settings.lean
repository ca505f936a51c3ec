import RecordBuffer.Buffer.Storage

/-!
# Settings of a new buffer

Settings are collected one by one and checked together when the buffer is made.
A path asks for a mapped buffer, and a later kind may take that back.
-/

namespace RecordBuffer

/-- How to make a buffer. A size of zero stands for its default. -/
structure Settings where
  initialSize : Nat := 0
  maxSize : Nat := 0
  kind : Kind := .heap
  /-- The file to map instead of a new temporary one. -/
  file : Option FileName := none
  /-- Where the cursor of a mapped file resumes at the earliest. -/
  startOffset : Nat := 1
  deriving DecidableEq, Repr, Inhabited

/-- One change to the settings. -/
inductive Setting where
  | initialSize (size : Nat)
  | maxSize (size : Nat)
  | kind (kind : Kind)
  | path (name : FileName)
  | startOffset (offset : Nat)
  deriving DecidableEq, Repr, Inhabited

namespace Settings

/-- Change one setting. -/
def set (settings : Settings) : Setting → Settings
  | .initialSize size => { settings with initialSize := size }
  | .maxSize size => { settings with maxSize := size }
  | .kind kind => { settings with kind }
  | .path name => { settings with file := some name, kind := .mapped }
  | .startOffset offset => { settings with startOffset := offset }

/-- The settings after changing the defaults in order. -/
def ofList (changes : List Setting) : Settings := changes.foldl set {}

/-- The path that was set, as texts show it. -/
def path (settings : Settings) : Option String := settings.file.map FileName.shown

/-- The initial and the maximum size, unless the settings contradict each other. -/
def sizes (settings : Settings) : Except ConfigFlaw (Nat × Nat) :=
  let initial := Buffer.orDefault Buffer.defaultInitialSize settings.initialSize
  let max := Buffer.orDefault Buffer.defaultMaxSize settings.maxSize
  if max < initial then .error (.initialSizeExceedsMax initial max)
  else if settings.file.isSome ∧ settings.kind ≠ .mapped then .error .fileNeedsMapping
  else if max < settings.startOffset then .error (.startOffsetExceedsMax settings.startOffset max)
  else .ok (initial, max)

/-- Make the buffer that the settings describe. -/
def build (settings : Settings) (disk : Disk) : Except Fault (Disk × Except StorageError Buffer) :=
  match settings.sizes with
  | .error flaw => .ok (disk, .error (.invalidConfig flaw))
  | .ok (initial, max) =>
      match settings.file with
      | some name => Buffer.mapPath disk name initial max settings.startOffset
      | none => Buffer.create disk initial max settings.kind

end Settings

end RecordBuffer

import RecordBuffer.Buffer.Operation
import RecordBuffer.Settings

/-!
# Buffer lifetimes in one directory

A session is a directory tree with at most one open buffer. A buffer is given up
before the next one is made, which may map a file that was kept by its name. What
is written to a mapped buffer shows in its file at once, and what is written to
the file shows in the buffer.
-/

namespace RecordBuffer

/-- A directory tree and the open buffer. -/
structure Session where
  disk : Disk
  buffer? : Option Buffer := none
  deriving Inhabited

/-- A step of a session. -/
inductive Command where
  | new (size : Nat)
  | create (size maxSize : Nat) (kind : Kind)
  | mapPath (name : FileName) (size maxSize startOffset : Nat)
  | build (changes : List Setting)
  | discard
  | release
  | persist
  | operate (operation : Operation)
  | putFile (path : String) (bytes : Bytes)
  | deleteFile (path : String)
  | makeDirectory (path : String)

/-- How a step ended that was not refused for good. -/
inductive Outcome where
  | noBuffer
  | reply (reply : Reply)
  | failed (error : StorageError)
  deriving DecidableEq, Repr, Inhabited

namespace Session

/-- Give up the open buffer, and what became of its file. -/
def release (session : Session) : Session × Outcome :=
  match session.buffer? with
  | none => (session, .noBuffer)
  | some buffer =>
      let (disk, released) := buffer.release session.disk
      (⟨disk, none⟩, match released with
        | .ok () => .reply .done
        | .error error => .failed error)

/-- Let the open buffer go out of use. -/
def discard (session : Session) : Session × Outcome :=
  match session.buffer? with
  | none => (session, .noBuffer)
  | some buffer => (⟨buffer.drop session.disk, none⟩, .reply .done)

/-- Give up the open buffer and keep its file. -/
def persist (session : Session) : Session × Outcome :=
  match session.buffer? with
  | none => (session, .noBuffer)
  | some buffer => (⟨buffer.persist session.disk, none⟩, .reply .done)

/-- Open a buffer in place of the one that is open. -/
def replace (session : Session)
    (make : Disk → Except Fault (Disk × Except StorageError Buffer)) :
    Except Fault (Session × Outcome) := do
  match ← make session.discard.1.disk with
  | (disk, .ok buffer) => return (⟨disk, some buffer⟩, .reply .done)
  | (disk, .error error) => return (⟨disk, none⟩, .failed error)

/-- Work with the open buffer. -/
def operate (session : Session) (operation : Operation) : Except Fault (Session × Outcome) :=
  match session.buffer? with
  | none => .ok (session, .noBuffer)
  | some buffer => do
      let (after, result) ← buffer.perform operation
      return (⟨after.publish session.disk, some after⟩, match result with
        | .ok reply => .reply reply
        | .error error => .failed error)

/-- Change the tree from outside. An access that fails changes nothing. -/
def changeDisk (session : Session) (change : Disk → Except Cause Disk) : Session × Outcome :=
  match change session.disk with
  | .error _ => (session, .reply .done)
  | .ok disk => (⟨disk, session.buffer?.map fun buffer => buffer.refresh disk⟩, .reply .done)

/-- Carry out a step. -/
def perform (session : Session) : Command → Except Fault (Session × Outcome)
  | .new size => session.replace fun disk => do return (disk, .ok (← Buffer.new size))
  | .create size maxSize kind => session.replace fun disk =>
      Buffer.create disk size maxSize kind
  | .mapPath name size maxSize startOffset => session.replace fun disk =>
      Buffer.mapPath disk name size maxSize startOffset
  | .build changes => session.replace (Settings.ofList changes).build
  | .discard => .ok session.discard
  | .release => .ok session.release
  | .persist => .ok session.persist
  | .operate operation => session.operate operation
  | .putFile path bytes => .ok (session.changeDisk fun disk => disk.write path bytes)
  | .deleteFile path => .ok (session.changeDisk fun disk => disk.remove path)
  | .makeDirectory path => .ok (session.changeDisk fun disk => .ok (disk.makeDirectories path))

end Session

end RecordBuffer

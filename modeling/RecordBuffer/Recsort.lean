import RecordBuffer.CommandLine
import RecordBuffer.Settings
import RecordBuffer.Stream

/-!
# The recsort program

All inputs are stored in one buffer, the buffer is sorted in place, and only
then the output is opened and written. The program is stated over a host that
gives access to files, and `Host.ofDisk` is the host that a directory tree is.
-/

namespace RecordBuffer

/-- A command line that was understood, as work to do. -/
structure Job where
  order : SortOrder
  delimiter : UInt8
  /-- The file to write; standard output if there is none. -/
  output : Option String
  inputs : List String
  settings : Settings
  chunkSize : Nat
  deriving DecidableEq, Repr, Inhabited

/-- The work that options ask for, unless their sizes contradict each other. -/
def Job.ofOptions (options : CommandLine.Options) : Except StorageError Job := do
  if options.chunkSize = 0 then throw (.invalidConfig .zeroChunkSize)
  let settings : Settings := {
    initialSize := options.bufferSize
    maxSize := options.maxSize
    kind := if options.mapped then .mapped else .heap }
  match settings.sizes with
  | .error flaw => throw (.invalidConfig flaw)
  | .ok _ =>
      return {
        order := {
          reverse := options.reverse
          numeric := options.numeric
          foldCase := options.foldCase
          unique := options.unique
          stable := options.stable }
        delimiter := if options.zeroTerminated then 0x00 else 0x0a
        output := options.output
        inputs := options.files
        settings
        chunkSize := options.chunkSize }

/-- Why a run breaks off. -/
inductive Failure where
  | fault (fault : Fault)
  | error (error : StorageError)
  deriving DecidableEq, Repr, Inhabited

/-- What a run leaves behind apart from files. -/
structure Exit where
  code : Nat
  stdout : Bytes := []
  stderr : String := ""
  deriving DecidableEq, Repr, Inhabited

/-- The end of a run that broke off. -/
def Failure.exit : Failure → Exit
  | .fault reason => { code := 101, stderr := s!"recsort: {reason.message}\n" }
  | .error reason => { code := 1, stderr := s!"recsort: {reason.message}\n" }

/-- The end of a run whose command line was not understood or asks for help. -/
def CommandLine.UsageError.exit : CommandLine.UsageError → Exit
  | helpRequested => { code := 0, stdout := CommandLine.helpText.toUTF8.toList }
  | usage => { code := 2, stderr := s!"error: {usage.message}\n" }

/-- Access to files, and to buffers that may be mapped to files. -/
structure Host (m : Type → Type) where
  openBuffer : Settings → m (Except Failure Buffer)
  closeBuffer : Buffer → m (Except StorageError Unit)
  input : String → m (Except Cause Bytes)
  /-- Replace the bytes of a file, which is created if it is missing. -/
  output : String → Bytes → m (Except Cause Unit)

/-- A directory tree as a host. -/
def Host.ofDisk : Host (StateM Disk) where
  openBuffer settings := fun disk =>
    match settings.build disk with
    | .error fault => (.error (.fault fault), disk)
    | .ok (disk, .error error) => (.error (.error error), disk)
    | .ok (disk, .ok buffer) => (.ok buffer, disk)
  closeBuffer buffer := fun disk =>
    let (disk, released) := buffer.release disk
    (released, disk)
  input path := fun disk => (disk.read path, disk)
  output path bytes := fun disk =>
    match disk.write path bytes with
    | .error cause => (.error cause, disk)
    | .ok disk => (.ok (), disk)

namespace Job

variable {m : Type → Type} [Monad m]

/-- Store the records of all inputs in order. A dash stands for standard input, of which the
first mention leaves nothing. -/
def storeInputs (job : Job) (host : Host m) :
    List String → Bytes → Buffer → m (Except Failure Buffer)
  | [], _, buffer => pure (.ok buffer)
  | path :: rest, stdin, buffer => do
      let data ← if path = "-" then pure (.ok stdin) else host.input path
      match data with
      | .error cause => pure (.error (.error (.io cause)))
      | .ok data =>
          match buffer.storeStream { data } job.delimiter with
          | .error fault => pure (.error (.fault fault))
          | .ok (_, .error error) => pure (.error (.error error))
          | .ok (buffer, .ok _) =>
              job.storeInputs host rest (if path = "-" then [] else stdin) buffer

/-- The bytes to write for the records of a buffer. -/
def sorted (job : Job) (buffer : Buffer) : Except Fault Bytes := do
  let buffer ← buffer.sortRange job.order.compare 1 buffer.cursor job.chunkSize
  buffer.delimited job.order job.delimiter

/-- Write the output, and say what is left for standard output. -/
def writeOutput (job : Job) (host : Host m) (bytes : Bytes) : m (Except Failure Bytes) :=
  match job.output with
  | none => pure (.ok bytes)
  | some path => do
      match ← host.output path bytes with
      | .error cause => pure (.error (.error (.io cause)))
      | .ok () => pure (.ok [])

/-- Store, sort and write with an open buffer. Without inputs, standard input is read. -/
def process (job : Job) (host : Host m) (stdin : Bytes) (buffer : Buffer) :
    m (Except Failure Bytes) := do
  let inputs := if job.inputs = [] then ["-"] else job.inputs
  match ← job.storeInputs host inputs stdin buffer with
  | .error failure => pure (.error failure)
  | .ok buffer =>
      match job.sorted buffer with
      | .error fault => pure (.error (.fault fault))
      | .ok bytes => job.writeOutput host bytes

/-- Do the work with a buffer of its own, which is closed however the work ends. -/
def run (job : Job) (host : Host m) (stdin : Bytes) : m Exit := do
  match ← host.openBuffer job.settings with
  | .error failure => pure failure.exit
  | .ok buffer =>
      let result ← job.process host stdin buffer
      let closed ← host.closeBuffer buffer
      match result, closed with
      | .error failure, _ => pure failure.exit
      | .ok stdout, .error error => pure { (Failure.error error).exit with stdout }
      | .ok stdout, .ok () => pure { code := 0, stdout }

end Job

/-- Run the program on arguments and standard input. -/
def recsort {m : Type → Type} [Monad m] (host : Host m) (arguments : List String)
    (stdin : Bytes) : m Exit :=
  match CommandLine.parse arguments with
  | .error usage => pure usage.exit
  | .ok options =>
      match Job.ofOptions options with
      | .error error => pure (Failure.error error).exit
      | .ok job => job.run host stdin

end RecordBuffer

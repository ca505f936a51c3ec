import RecordBuffer.Recsort

/-!
# The recsort command

The command runs the program on the arguments, the standard streams and the
files of the machine. A buffer that asks to be mapped is kept in memory: its
temporary file is gone when the command ends and nobody else can name it.
-/

namespace RecordBuffer.Shell

/-- The number of a refusal, which some of the machine's calls report negated. -/
def refusalNumber (code : UInt32) : Nat :=
  if 0x80000000 ≤ code then (0 - code).toNat else code.toNat

/-- What stood in the way of an access that the machine refused. -/
def cause (refusal : IO.Error) : Cause :=
  match refusal with
  | .noFileOrDirectory _ _ _ => .noSuchFile
  | .inappropriateType _ code _ | .resourceExhausted _ code _ | .illegalOperation code _ |
    .invalidArgument _ code _ | .otherError code _ =>
      match refusalNumber code with
      | 20 => .notDirectory
      | 21 => .isDirectory
      | 36 => .nameTooLong
      | _ => .stream refusal.toString
  | _ => .stream refusal.toString

/-- An access to the machine's files. -/
def access {α : Type} (action : IO α) : StateT Disk IO (Except Cause α) :=
  fun disk => do
    try
      return (.ok (← action), disk)
    catch refusal =>
      return (.error (cause refusal), disk)

/-- The machine as a host. Temporary files live in a tree of their own. -/
def host : Host (StateT Disk IO) where
  openBuffer settings := fun disk => return Host.ofDisk.openBuffer settings disk
  closeBuffer buffer := fun disk => return Host.ofDisk.closeBuffer buffer disk
  input path := access do return (← IO.FS.readBinFile path).toList
  output path bytes := access (IO.FS.writeBinFile path ⟨bytes.toArray⟩)

/-- Standard input is read only where the command line mentions it. -/
def readsStdin (arguments : List String) : Bool :=
  match CommandLine.parse arguments with
  | .error _ => false
  | .ok options => options.files.isEmpty || options.files.contains "-"

end RecordBuffer.Shell

open RecordBuffer in
/-- Run the command and end with its exit code. -/
def main (arguments : List String) : IO UInt32 := do
  let stdin ←
    if Shell.readsStdin arguments then (← IO.getStdin).readBinToEnd else pure .empty
  let (exit, _) ← (recsort Shell.host arguments stdin.toList).run (Disk.empty "")
  (← IO.getStdout).write ⟨exit.stdout.toArray⟩
  (← IO.getStderr).putStr exit.stderr
  return exit.code.toUInt32

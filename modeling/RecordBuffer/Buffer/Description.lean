import RecordBuffer.Buffer.Basic
import RecordBuffer.Text.Quoted

/-!
# Descriptions of buffers

A description shows the kind, the file and the sizes of a buffer on one line,
and none of its bytes.
-/

namespace RecordBuffer

/-- The name of a kind in a description. -/
def Kind.title : Kind → String
  | heap => "Heap"
  | mapped => "Mmap"

/-- The fields of a buffer in words. -/
def Buffer.describe (buffer : Buffer) : String :=
  let path := match buffer.file? with
    | none => "None"
    | some name => "Some(" ++ Text.quote name.shown ++ ")"
  "Buffer \x7b kind: " ++ buffer.kind.title ++ ", path: " ++ path ++
    s!", len: {buffer.cursor}, capacity: {buffer.capacity}, max_capacity: {buffer.maxSize} " ++
    "\x7d"

end RecordBuffer

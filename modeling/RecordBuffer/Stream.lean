import RecordBuffer.Buffer.Chain
import RecordBuffer.Buffer.Growth
import RecordBuffer.SortOrder
import RecordBuffer.Split

/-!
# Delimited records

Streams hold records separated by a delimiter byte. They are stored in a buffer
without the delimiter and written out of it with one behind every record.
-/

namespace RecordBuffer

/-- The records of a whole stream. A fragment behind the last delimiter is a record as well. -/
def splitRecords (delimiter : UInt8) (data : Bytes) : List Bytes :=
  let (closed, last) := splitAtEach delimiter data
  if last = [] then closed else closed ++ [last]

/-- Put a delimiter behind every record. -/
def joinRecords (delimiter : UInt8) (records : List Bytes) : Bytes :=
  records.flatMap (· ++ [delimiter])

/-- The records that differ from the last one kept before them. -/
def dropRepeats (compare : Comparator) : Option Bytes → List Bytes → List Bytes
  | _, [] => []
  | last?, record :: rest =>
      if last?.any fun last => compare last record = .eq then dropRepeats compare last? rest
      else record :: dropRepeats compare (some record) rest

/-- Bytes to read, and the text with which reading breaks off behind them unless they end there. -/
structure Stream where
  data : Bytes
  failure : Option String := none
  deriving DecidableEq, Repr, Inhabited

/-- The records of a stream. A fragment is lost if the stream breaks off behind it. -/
def Stream.records (stream : Stream) (delimiter : UInt8) : List Bytes :=
  match stream.failure with
  | none => splitRecords delimiter stream.data
  | some _ => (splitAtEach delimiter stream.data).1

namespace Buffer

/-- Store records up to the first that the buffer can never hold. -/
def storeRecords (buffer : Buffer) : List Bytes → Except Fault (Buffer × Option Cause)
  | [] => .ok (buffer, none)
  | record :: rest =>
      if buffer.maxSize - buffer.cursor < Record.size record.length then
        .ok (buffer, some (.recordDoesNotFit record.length buffer.maxSize))
      else do
        let (_, buffer) ← buffer.appendRecord record
        buffer.storeRecords rest

/-- Store the records of a stream and count them. -/
def storeStream (buffer : Buffer) (stream : Stream) (delimiter : UInt8) :
    Except Fault (Buffer × Except StorageError Nat) := do
  let records := stream.records delimiter
  let (buffer, refused) ← buffer.storeRecords records
  match refused, stream.failure with
  | some cause, _ => return (buffer, .error (.io cause))
  | none, some text => return (buffer, .error (.io (.stream text)))
  | none, none => return (buffer, .ok records.length)

/-- All records with a delimiter behind each. If records are to be unique, only the first of a
run of equal ones is written. -/
def delimited (buffer : Buffer) (order : SortOrder) (delimiter : UInt8) : Except Fault Bytes := do
  let records ← buffer.records
  let kept := if order.unique then dropRepeats order.compare none records else records
  return joinRecords delimiter kept

end Buffer

end RecordBuffer

import Mathlib
import RecordBuffer.Proofs.Upkeep

/-!
# Growth, noted down

Making room is a step inside most of what is done with a buffer, and a record
takes three of them. Here every operation is carried out with a note of each
time that room was made. A note changes nothing: forgetting the notes gives back
the operation as it is.
-/

namespace RecordBuffer

/-- One time that room was made: how much, behind which cursor, and the capacity before and
after. -/
structure Growth where
  request : Nat
  cursor : Nat
  before : Nat
  after : Nat
  deriving DecidableEq, Repr

/-- The capacity became another one. -/
def Growth.changed (growth : Growth) : Bool := growth.before != growth.after

/-- A computation that notes down each growth. -/
abbrev Noting (α : Type) := WriterT (List Growth) (Except Fault) α

namespace Noting

variable {α β : Type} {result : α} {growths : List Growth}

theorem run_lift {computation : Except Fault α} :
    (liftM computation : Noting α).run = .ok (result, growths) ↔
      computation = .ok result ∧ growths = [] := by
  constructor
  · intro hrun
    obtain ⟨value, hvalue, hrun⟩ := map_eq_ok.mp hrun
    cases hrun
    exact ⟨hvalue, rfl⟩
  · rintro ⟨rfl, rfl⟩
    rfl

/-- Two computations in a row note what both of them note, in order. -/
theorem run_bind {first : Noting β} {second : β → Noting α} :
    (first >>= second).run = .ok (result, growths) ↔
      ∃ value early late, first.run = .ok (value, early) ∧
        (second value).run = .ok (result, late) ∧ growths = early ++ late := by
  constructor
  · intro hrun
    obtain ⟨⟨value, early⟩, hfirst, hrun⟩ := bind_eq_ok.mp hrun
    obtain ⟨⟨last, late⟩, hsecond, hrun⟩ := map_eq_ok.mp hrun
    cases hrun
    exact ⟨value, early, late, hfirst, hsecond, rfl⟩
  · rintro ⟨value, early, late, hfirst, hsecond, rfl⟩
    exact bind_eq_ok.mpr ⟨_, hfirst, map_eq_ok.mpr ⟨_, hsecond, rfl⟩⟩

/-- Forgetting the notes of a computation gives another one. -/
def Keeps (noting : Noting α) (computation : Except Fault α) : Prop :=
  noting.run.map Prod.fst = computation

namespace Keeps

theorem pure (value : α) : Keeps (pure value) (pure value) := rfl

theorem lift (computation : Except Fault α) : Keeps (liftM computation) computation := by
  cases computation <;> rfl

theorem bind {noting : Noting β} {second : β → Noting α} {computation : Except Fault β}
    {rest : β → Except Fault α} (hfirst : Keeps noting computation)
    (hsecond : ∀ value, Keeps (second value) (rest value)) :
    Keeps (noting >>= second) (computation >>= rest) := by
  unfold Keeps at hfirst
  subst hfirst
  change Except.map Prod.fst (noting.run >>= fun (value, early) =>
    (second value).run.map fun (last, late) => (last, early ++ late)) = _
  cases noting.run with
  | error fault => rfl
  | ok noted => exact (map_map _ _ _).trans (hsecond noted.1)

/-- What comes out with notes comes out without them. -/
theorem eq_ok {noting : Noting α} {computation : Except Fault α} (hkeeps : Keeps noting computation)
    (hrun : noting.run = .ok (result, growths)) : computation = .ok result := by
  rw [← hkeeps, hrun]
  rfl

theorem exists_run {noting : Noting α} {computation : Except Fault α}
    (hkeeps : Keeps noting computation) (hok : computation = .ok result) :
    ∃ growths, noting.run = .ok (result, growths) := by
  obtain ⟨⟨value, growths⟩, hrun, rfl⟩ := map_eq_ok.mp (hkeeps.trans hok)
  exact ⟨growths, hrun⟩

end Keeps

end Noting

namespace Buffer

variable {buffer after : Buffer} {request : Nat} {growths : List Growth}

/-! ## Every way to make room -/

def noteGrow (buffer : Buffer) (request : Nat) : Noting Buffer := do
  let after ← buffer.grow request
  tell [⟨request, buffer.cursor, buffer.capacity, after.capacity⟩]
  return after

def noteAllocate (buffer : Buffer) (count : Nat) : Noting (Nat × Buffer) := do
  let buffer ← buffer.noteGrow count
  return (buffer.cursor, { buffer with cursor := buffer.cursor + count })

def noteAppend (buffer : Buffer) (bytes : Bytes) : Noting Buffer := do
  let (offset, buffer) ← buffer.noteAllocate bytes.length
  return buffer.overwrite offset bytes

def noteAllocateRecord (buffer : Buffer) (length : Nat) : Noting (Nat × Buffer) := do
  let buffer ← buffer.noteGrow (← Record.checkedSize length)
  let (offset, buffer) ← buffer.noteAllocate Record.headerSize
  if Limits.payloadBound ≤ length then throw (.payloadTooLong length)
  let (_, buffer) ← (buffer.overwrite offset (Record.header length)).noteAllocate length
  return (offset, buffer)

def noteAppendRecord (buffer : Buffer) (payload : Bytes) : Noting (Nat × Buffer) := do
  let (offset, buffer) ← buffer.noteAllocateRecord payload.length
  return (offset, buffer.overwrite (offset + Record.headerSize) payload)

def noteStoreRecords (buffer : Buffer) : List Bytes → Noting (Buffer × Option Cause)
  | [] => return (buffer, none)
  | record :: rest =>
      if buffer.maxSize - buffer.cursor < Record.size record.length then
        return (buffer, some (.recordDoesNotFit record.length buffer.maxSize))
      else do
        let (_, buffer) ← buffer.noteAppendRecord record
        buffer.noteStoreRecords rest

def noteStoreStream (buffer : Buffer) (stream : Stream) (delimiter : UInt8) :
    Noting (Buffer × Except StorageError Nat) := do
  let records := stream.records delimiter
  let (buffer, refused) ← buffer.noteStoreRecords records
  match refused, stream.failure with
  | some cause, _ => return (buffer, .error (.io cause))
  | none, some text => return (buffer, .error (.io (.stream text)))
  | none, none => return (buffer, .ok records.length)

/-- Carry out an operation and note each growth. Most operations make no room. -/
def notePerform (buffer : Buffer) : Operation → Noting (Buffer × Except StorageError Reply)
  | .grow request => do return (← buffer.noteGrow request, .ok .done)
  | .append bytes => do return (← buffer.noteAppend bytes, .ok (.count bytes.length))
  | .advance count => do
      let (offset, buffer) ← buffer.noteAllocate count
      return (buffer, .ok (.count offset))
  | .allocate count fill => do
      let (offset, buffer) ← buffer.noteAllocate count
      buffer.replyAllocated offset offset count fill
  | .allocateRecord length fill => do
      let (offset, buffer) ← buffer.noteAllocateRecord length
      buffer.replyAllocated offset (offset + Record.headerSize) length fill
  | .appendRecord payload => do
      let (offset, buffer) ← buffer.noteAppendRecord payload
      return (buffer, .ok (.count offset))
  | .storeStream stream delimiter => do
      let (buffer, stored) ← buffer.noteStoreStream stream delimiter
      return (buffer, stored.map .count)
  | operation => buffer.perform operation

def notePerformAll (buffer : Buffer) :
    List Operation → Noting (Buffer × List (Except StorageError Reply))
  | [] => return (buffer, [])
  | operation :: rest => do
      let (middle, result) ← buffer.notePerform operation
      let (after, results) ← middle.notePerformAll rest
      return (after, result :: results)

/-! ## Notes change nothing -/

theorem noteGrow_keeps (buffer : Buffer) (request : Nat) :
    (buffer.noteGrow request).Keeps (buffer.grow request) := by
  unfold Noting.Keeps noteGrow
  cases buffer.grow request <;> rfl

theorem noteAllocate_keeps (buffer : Buffer) (count : Nat) :
    (buffer.noteAllocate count).Keeps (buffer.allocate count) :=
  (buffer.noteGrow_keeps count).bind fun _ => .pure _

theorem noteAppend_keeps (buffer : Buffer) (bytes : Bytes) :
    (buffer.noteAppend bytes).Keeps (buffer.append bytes) :=
  (buffer.noteAllocate_keeps bytes.length).bind fun _ => .pure _

theorem noteAllocateRecord_keeps (buffer : Buffer) (length : Nat) :
    (buffer.noteAllocateRecord length).Keeps (buffer.allocateRecord length) := by
  refine (Noting.Keeps.lift _).bind fun size => (noteGrow_keeps _ size).bind fun grown =>
    (grown.noteAllocate_keeps Record.headerSize).bind fun headed => ?_
  simp only
  split
  next => rfl
  next => exact (noteAllocate_keeps _ length).bind fun _ => .pure _

theorem noteAppendRecord_keeps (buffer : Buffer) (payload : Bytes) :
    (buffer.noteAppendRecord payload).Keeps (buffer.appendRecord payload) :=
  (buffer.noteAllocateRecord_keeps payload.length).bind fun _ => .pure _

theorem noteStoreRecords_keeps (buffer : Buffer) (records : List Bytes) :
    (buffer.noteStoreRecords records).Keeps (buffer.storeRecords records) := by
  induction records generalizing buffer with
  | nil => exact .pure _
  | cons record rest ih =>
      unfold noteStoreRecords storeRecords
      split
      next => exact .pure _
      next => exact (buffer.noteAppendRecord_keeps record).bind fun appended => ih appended.2

theorem noteStoreStream_keeps (buffer : Buffer) (stream : Stream) (delimiter : UInt8) :
    (buffer.noteStoreStream stream delimiter).Keeps (buffer.storeStream stream delimiter) := by
  obtain ⟨data, failure⟩ := stream
  refine (buffer.noteStoreRecords_keeps _).bind fun ⟨stored, refused⟩ => ?_
  cases refused <;> cases failure <;> exact .pure _

theorem notePerform_keeps (buffer : Buffer) (operation : Operation) :
    (buffer.notePerform operation).Keeps (buffer.perform operation) := by
  cases operation with
  | grow request => exact (buffer.noteGrow_keeps request).bind fun _ => .pure _
  | append bytes => exact (buffer.noteAppend_keeps bytes).bind fun _ => .pure _
  | advance count => exact (buffer.noteAllocate_keeps count).bind fun _ => .pure _
  | allocate count fill => exact (buffer.noteAllocate_keeps count).bind fun _ => .lift _
  | allocateRecord length fill =>
      exact (buffer.noteAllocateRecord_keeps length).bind fun _ => .lift _
  | appendRecord payload => exact (buffer.noteAppendRecord_keeps payload).bind fun _ => .pure _
  | storeStream stream delimiter =>
      exact (buffer.noteStoreStream_keeps stream delimiter).bind fun _ => .pure _
  | _ => exact .lift _

theorem notePerformAll_keeps (buffer : Buffer) (operations : List Operation) :
    (buffer.notePerformAll operations).Keeps (buffer.performAll operations) := by
  induction operations generalizing buffer with
  | nil => exact .pure _
  | cons operation rest ih =>
      exact (buffer.notePerform_keeps operation).bind fun middle =>
        (ih middle.1).bind fun _ => .pure _

end Buffer

end RecordBuffer

import RecordBuffer.Buffer.Chain

/-!
# Iterators over records

An iterator shows the offset at which its next call reads, and a call that yields
a record moves it on. The walk over a range is what an iterator yields until a
call finds nothing more, and it stops at the offset that is shown then.
-/

namespace RecordBuffer

/-- An iterator over the records of a range. -/
structure RecordIterator where
  /-- What is shown between two calls. -/
  offset : Nat
  /-- Where the range ends. -/
  bound : Nat
  deriving DecidableEq, Repr, Inhabited

/-- The iterator over the records from `start` to `stop`. A `stop` past the cursor means the
cursor. -/
def Buffer.iterate (buffer : Buffer) (start stop : Nat) : RecordIterator :=
  ⟨start, min stop buffer.cursor⟩

namespace RecordIterator

variable {buffer : Buffer} {iterator now next last : RecordIterator} {visit : Visit}
  {yielded rest all : List Visit}

/-- Ask for the next record. An iterator that yields nothing stays as it is. -/
def call (buffer : Buffer) (iterator : RecordIterator) :
    Except Fault (Option Bytes × RecordIterator) :=
  if iterator.offset = 0 ∨ iterator.bound ≤ iterator.offset then .ok (none, iterator)
  else (buffer.recordAt iterator.offset).map fun read =>
    (some read.1, { iterator with offset := read.2 })

/-- What an iterator yields call by call on the way to another state, each payload with the offset
that was shown before its call. -/
inductive Yields (buffer : Buffer) : RecordIterator → List Visit → RecordIterator → Prop where
  | nothing {iterator : RecordIterator} : Yields buffer iterator [] iterator
  | record {iterator next last : RecordIterator} {payload : Bytes} {rest : List Visit}
      (called : iterator.call buffer = .ok (some payload, next))
      (behind : Yields buffer next rest last) :
      Yields buffer iterator (⟨iterator.offset, payload⟩ :: rest) last

/-- No call yields anything any more. -/
def Ended (buffer : Buffer) (iterator : RecordIterator) : Prop :=
  iterator.call buffer = .ok (none, iterator)

theorem ended_iff :
    iterator.Ended buffer ↔ iterator.offset = 0 ∨ iterator.bound ≤ iterator.offset := by
  unfold Ended call
  split
  next hdone => simp [hdone]
  next hgoing => simp [map_eq_ok, hgoing]

theorem call_of_recordAt {payload : Bytes} {behind : Nat}
    (hgoing : ¬ (iterator.offset = 0 ∨ iterator.bound ≤ iterator.offset))
    (hread : buffer.recordAt iterator.offset = .ok (payload, behind)) :
    iterator.call buffer = .ok (some payload, { iterator with offset := behind }) := by
  rw [call, if_neg hgoing, hread, Except.map]

/-- The walk over a range is what its iterator yields. -/
theorem yields_of_trail {offset bound : Nat} {trail : Trail}
    (htrail : buffer.trail offset bound = .ok trail) :
    Yields buffer ⟨offset, bound⟩ trail.visits ⟨trail.stop, bound⟩ ∧
      Ended buffer ⟨trail.stop, bound⟩ := by
  fun_induction Buffer.trail buffer offset bound generalizing trail with
  | case1 offset hdone =>
      cases htrail
      exact ⟨.nothing, ended_iff.mpr hdone⟩
  | case2 => cases htrail
  | case3 offset hgoing payload hread =>
      cases htrail
      exact ⟨.record (call_of_recordAt hgoing hread) .nothing, ended_iff.mpr (.inl rfl)⟩
  | case4 => cases htrail
  | case5 offset hgoing payload next hread _ rest hrest ih =>
      cases htrail
      obtain ⟨hbehind, hended⟩ := ih hrest
      exact ⟨.record (call_of_recordAt hgoing hread) hbehind, hended⟩

/-- Calls that go on to the end go on from every state on the way. -/
theorem Yields.exists_rest (hyields : Yields buffer iterator yielded now)
    (hall : Yields buffer iterator all last) (hended : last.Ended buffer) :
    ∃ rest, all = yielded ++ rest ∧ Yields buffer now rest last := by
  induction hyields generalizing all with
  | nothing => exact ⟨all, rfl, hall⟩
  | record hcalled _ ih =>
      cases hall with
      | nothing => cases hcalled.symm.trans hended
      | record hagain hbehind =>
          cases hcalled.symm.trans hagain
          obtain ⟨rest, rfl, hrest⟩ := ih hbehind
          exact ⟨rest, rfl, hrest⟩

end RecordIterator

end RecordBuffer

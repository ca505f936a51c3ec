import RecordBuffer.Proofs.Growth
import RecordBuffer.Proofs.RangeSort

/-!
# Buffers in step

Two buffers may hold the same written bytes and differ in everything else. They
stay so as long as the same bytes are added to both, and while ranges of whole
records are sorted in both.
-/

namespace RecordBuffer

/-- Two computations in step end in the same fault, or both end well with related results. -/
inductive Lockstep {α β : Type} (related : α → β → Prop) :
    Except Fault α → Except Fault β → Prop where
  | fault (fault : Fault) : Lockstep related (.error fault) (.error fault)
  | ok {left : α} {right : β} (results : related left right) :
      Lockstep related (.ok left) (.ok right)

namespace Lockstep

variable {α β γ δ : Type} {related : α → β → Prop} {first : Except Fault α} {other : Except Fault β}

theorem imp {looser : α → β → Prop} (hstep : Lockstep related first other)
    (himp : ∀ left right, first = .ok left → other = .ok right → related left right →
      looser left right) : Lockstep looser first other := by
  cases hstep with
  | fault fault => exact .fault fault
  | ok hresults => exact .ok (himp _ _ rfl rfl hresults)

theorem of_ok {left : α} {right : β} (hstep : Lockstep related (.ok left) (.ok right)) :
    related left right := by
  cases hstep with
  | ok hresults => exact hresults

/-- Computations in step go on in step. -/
theorem bind {after : γ → δ → Prop} {second : α → Except Fault γ} {follow : β → Except Fault δ}
    (hstep : Lockstep related first other)
    (hrest : ∀ left right, first = .ok left → other = .ok right → related left right →
      Lockstep after (second left) (follow right)) :
    Lockstep after (first >>= second) (other >>= follow) := by
  cases hstep with
  | fault fault => exact .fault fault
  | ok hresults => exact hrest _ _ rfl rfl hresults

/-- The same computation, made twice. -/
theorem of_eq {left right : Except Fault α} (heq : left = right) : Lockstep (· = ·) left right := by
  subst heq
  cases left with
  | error fault => exact .fault fault
  | ok result => exact .ok rfl

end Lockstep

namespace Buffer

variable {left right left' right' : Buffer} {start stop low high : Nat} {bytes : Bytes}

/-- Nothing below the cursor tells two buffers apart. -/
structure SameWritten (left right : Buffer) : Prop where
  cursor_eq : left.cursor = right.cursor
  get_eq : ∀ address < left.cursor, left.memory.get address = right.memory.get address

/-- The bytes of a range, up to the cursor, are whole records. -/
def WholeRecords (buffer : Buffer) (start stop : Nat) (payloads : List Bytes) : Prop :=
  Record.Short payloads ∧
    buffer.memory.slice start (min stop buffer.cursor - start) = Record.encodeAll payloads

/-- A range of whole records has packed records where it has any bytes at all. -/
theorem WholeRecords.packed {buffer : Buffer} {payloads : List Bytes}
    (hwhole : buffer.WholeRecords start stop payloads) (hrange : start ≤ min stop buffer.cursor) :
    buffer.memory.Packed start payloads ∧
      min stop buffer.cursor = start + Record.extent payloads := by
  obtain ⟨hshort, hslice⟩ := hwhole
  have hextent := congrArg List.length hslice
  rw [Memory.length_slice, Record.length_encodeAll] at hextent
  refine ⟨⟨hshort, ?_⟩, by omega⟩
  rw [Memory.Holds, Record.length_encodeAll, ← hextent]
  exact hslice

namespace SameWritten

theorem refl (buffer : Buffer) : buffer.SameWritten buffer := ⟨rfl, fun _ _ => rfl⟩

theorem symm (hsame : left.SameWritten right) : right.SameWritten left :=
  ⟨hsame.cursor_eq.symm, fun address haddress =>
    (hsame.get_eq address (hsame.cursor_eq ▸ haddress)).symm⟩

theorem trans {middle : Buffer} (hfirst : left.SameWritten middle)
    (hsecond : middle.SameWritten right) : left.SameWritten right :=
  ⟨hfirst.cursor_eq.trans hsecond.cursor_eq, fun address haddress =>
    (hfirst.get_eq address haddress).trans
      (hsecond.get_eq address (hfirst.cursor_eq ▸ haddress))⟩

theorem slice {count : Nat} (hsame : left.SameWritten right)
    (hbelow : count = 0 ∨ start + count ≤ left.cursor) :
    left.memory.slice start count = right.memory.slice start count := by
  apply Memory.slice_congr
  intro address hlow hhigh
  exact hsame.get_eq address (by omega)

theorem bytes_eq (hsame : left.SameWritten right) : left.bytes = right.bytes := by
  rw [bytes, bytes, ← hsame.cursor_eq]
  exact hsame.slice (by omega)

theorem wholeRecords {payloads : List Bytes} (hsame : left.SameWritten right)
    (hwhole : left.WholeRecords start stop payloads) :
    right.WholeRecords start stop payloads := by
  refine ⟨hwhole.1, ?_⟩
  rw [← hsame.cursor_eq, ← hsame.slice (by omega)]
  exact hwhole.2

/-- The same bytes were added to both. -/
theorem advanced (hsame : left.SameWritten right) (hleft : left.Advanced left' bytes.length)
    (hright : right.Advanced right' bytes.length)
    (hleftHolds : left'.memory.Holds left.cursor bytes)
    (hrightHolds : right'.memory.Holds right.cursor bytes) : left'.SameWritten right' := by
  have hcursor := hsame.cursor_eq
  refine ⟨by rw [hleft.cursor_eq, hright.cursor_eq, hcursor], ?_⟩
  intro address haddress
  rw [hleft.cursor_eq] at haddress
  rcases Nat.lt_or_ge address left.cursor with hbefore | hbehind
  · rw [hleft.kept address hbefore, hright.kept address (hcursor ▸ hbefore),
      hsame.get_eq address hbefore]
  · exact hleftHolds.get_eq (hcursor ▸ hrightHolds) hbehind haddress

/-- The same bytes were put at the same place in both. -/
theorem overwrite (hsame : left.SameWritten right) (offset : Nat) (bytes : Bytes) :
    (left.overwrite offset bytes).SameWritten (right.overwrite offset bytes) := by
  refine ⟨hsame.cursor_eq, ?_⟩
  intro address haddress
  simp only [Buffer.overwrite, Memory.get_write, hsame.get_eq address haddress]

/-- A span was rewritten with the same bytes in both. -/
theorem rewritten (hsame : left.SameWritten right)
    (hleft : left.RewrittenIn left' low (low + bytes.length))
    (hright : right.RewrittenIn right' low (low + bytes.length))
    (hleftHolds : left'.memory.Holds low bytes) (hrightHolds : right'.memory.Holds low bytes) :
    left'.SameWritten right' := by
  obtain ⟨leftMemory, rfl, hleft⟩ := hleft
  obtain ⟨rightMemory, rfl, hright⟩ := hright
  refine ⟨hsame.cursor_eq, ?_⟩
  intro address haddress
  by_cases hinside : low ≤ address ∧ address < low + bytes.length
  · exact hleftHolds.get_eq hrightHolds hinside.1 hinside.2
  · simp only
    rw [hleft address (by omega), hright address (by omega), hsame.get_eq address haddress]

/-- Sorting a range of whole records, however it ends, ends the same way in both. -/
theorem sortRange {payloads : List Bytes} (hsame : left.SameWritten right)
    (hleft : left.cursor ≤ left.capacity) (hright : right.cursor ≤ right.capacity)
    (hwhole : left.WholeRecords start stop payloads) (compare : Comparator) (chunkSize : Nat) :
    Lockstep SameWritten (left.sortRange compare start stop chunkSize)
      (right.sortRange compare start stop chunkSize) := by
  have hrightWhole := hsame.wholeRecords hwhole
  have hcursor := hsame.cursor_eq
  by_cases hempty : min stop left.cursor ≤ start
  · unfold Buffer.sortRange
    simp only [← hcursor, if_pos hempty]
    exact .ok hsame
  have hrange : start ≤ min stop left.cursor := Nat.le_of_not_le hempty
  obtain ⟨hleftPacked, hstop⟩ := hwhole.packed hrange
  obtain ⟨hrightPacked, -⟩ := hrightWhole.packed (hcursor ▸ hrange)
  have hrightStop := hstop
  rw [hcursor] at hrightStop
  have hbelow : start + Record.extent payloads ≤ left.cursor := by omega
  by_cases hstart : start = 0
  · unfold Buffer.sortRange
    simp only [← hcursor, if_neg hempty, if_pos hstart]
    exact .fault _
  by_cases hchunkSize : chunkSize = 0
  · unfold Buffer.sortRange
    simp only [← hcursor, if_neg hempty, if_neg hstart, if_pos hchunkSize]
    exact .fault _
  by_cases hmemory : Limits.maxExtent < offsetSize * chunkSize
  · -- The walk that comes first meets the same records in both.
    have hleftBounds := chunkBounds_of_packed chunkSize (Nat.pos_of_ne_zero hstart) hleftPacked
      hbelow hleft
    have hrightBounds := chunkBounds_of_packed chunkSize (Nat.pos_of_ne_zero hstart) hrightPacked
      (hcursor ▸ hbelow) hright
    unfold Buffer.sortRange
    simp only [hstop, hrightStop, hleftBounds, hrightBounds]
    rw [hstop] at hempty
    simp only [if_neg hempty, if_neg hstart, if_neg hchunkSize, if_pos hmemory]
    exact .fault _
  · obtain ⟨leftSorted, hleftSort, hleftRewritten, hleftResult⟩ :=
      sortRange_of_packed compare (Nat.pos_of_ne_zero hstart) (Nat.pos_of_ne_zero hchunkSize)
        (Nat.le_of_not_lt hmemory) hleftPacked hstop hleft
    obtain ⟨rightSorted, hrightSort, hrightRewritten, hrightResult⟩ :=
      sortRange_of_packed compare (Nat.pos_of_ne_zero hstart) (Nat.pos_of_ne_zero hchunkSize)
        (Nat.le_of_not_lt hmemory) hrightPacked hrightStop hright
    have hextent : Record.extent payloads =
        (Record.encodeAll (compare.chunkSort chunkSize payloads)).length := by
      rw [Record.length_encodeAll, Record.extent_perm (compare.chunkSort_perm chunkSize payloads)]
    rw [hextent] at hleftRewritten hrightRewritten
    rw [hleftSort, hrightSort]
    exact .ok (hsame.rewritten hleftRewritten hrightRewritten hleftResult.holds hrightResult.holds)

end SameWritten

end Buffer

end RecordBuffer

import RecordBuffer.Buffer.Sort
import RecordBuffer.Proofs.Packed
import RecordBuffer.Proofs.StableSort

/-!
# Chunks of packed records

The walk over packed records cuts them into chunks of whole records. The bounds
of the chunks are where the extents of the payloads in front of them add up to,
and they stay the bounds of every other list of runs with the same extents.
-/

namespace RecordBuffer

/-- Runs that take the same extents one by one take the same extent together. -/
theorem Record.extent_flatten_congr {runs others : List (List Bytes)}
    (hextents : others.map Record.extent = runs.map Record.extent) :
    Record.extent others.flatten = Record.extent runs.flatten := by
  induction runs generalizing others with
  | nil => rw [List.map_eq_nil_iff.mp hextents]
  | cons run rest ih =>
      obtain ⟨other, behind, rfl, hextent, hbehind⟩ := List.map_eq_cons_iff.mp hextents
      rw [List.flatten_cons, List.flatten_cons, Record.extent_append, Record.extent_append,
        hextent, ih hbehind]

theorem everyNth_eq_drop {α : Type} (period skip : Nat) (items : List α) :
    everyNth period skip items = everyNth period 0 (items.drop skip) := by
  induction items generalizing skip with
  | nil => rw [List.drop_nil, everyNth, everyNth]
  | cons item rest ih =>
      cases skip with
      | zero => rfl
      | succ skip => rw [everyNth, List.drop_succ_cons, ih]

theorem drop_visits (offset count : Nat) (payloads : List Bytes) :
    (visits offset payloads).drop count =
      visits (offset + Record.extent (payloads.take count)) (payloads.drop count) := by
  induction payloads generalizing offset count with
  | nil => simp [visits]
  | cons payload rest ih =>
      cases count with
      | zero => rfl
      | succ count =>
          rw [visits, List.drop_succ_cons, ih, List.take_succ_cons, List.drop_succ_cons,
            Record.extent_cons, Nat.add_assoc]

/-- The offsets between which chunks lie that are packed from an offset on. -/
def chunkOffsets (offset : Nat) : List (List Bytes) → List Nat
  | [] => [offset]
  | chunk :: rest => offset :: chunkOffsets (offset + Record.extent chunk) rest

theorem chunkOffsets_eq_cons (offset : Nat) (chunks : List (List Bytes)) :
    ∃ rest, chunkOffsets offset chunks = offset :: rest := by
  cases chunks with
  | nil => exact ⟨[], rfl⟩
  | cons chunk rest => exact ⟨_, rfl⟩

theorem chunkOffsets_concat (offset : Nat) (chunks : List (List Bytes)) (last : List Bytes) :
    chunkOffsets offset (chunks ++ [last]) =
      chunkOffsets offset chunks ++
        [offset + Record.extent chunks.flatten + Record.extent last] := by
  induction chunks generalizing offset with
  | nil => rfl
  | cons chunk rest ih =>
      rw [List.cons_append, chunkOffsets, ih, chunkOffsets, List.flatten_cons,
        Record.extent_append, List.cons_append, ← Nat.add_assoc]

theorem exists_chunkOffsets_eq_concat (offset : Nat) (chunks : List (List Bytes)) :
    ∃ starts, chunkOffsets offset chunks = starts ++ [offset + Record.extent chunks.flatten] := by
  induction chunks generalizing offset with
  | nil => exact ⟨[], rfl⟩
  | cons chunk rest ih =>
      obtain ⟨starts, hstarts⟩ := ih (offset + Record.extent chunk)
      rw [chunkOffsets, hstarts, List.flatten_cons, Record.extent_append, ← Nat.add_assoc]
      exact ⟨offset :: starts, rfl⟩

@[simp]
theorem length_chunkOffsets (offset : Nat) (chunks : List (List Bytes)) :
    (chunkOffsets offset chunks).length = chunks.length + 1 := by
  induction chunks generalizing offset with
  | nil => rfl
  | cons chunk rest ih => rw [chunkOffsets, List.length_cons, ih, List.length_cons]

theorem getD_chunkOffsets (offset : Nat) {chunks : List (List Bytes)} {position : Nat}
    (hposition : position ≤ chunks.length) :
    (chunkOffsets offset chunks).toArray.getD position 0 =
      offset + Record.extent (chunks.take position).flatten := by
  induction chunks generalizing offset position with
  | nil =>
      obtain rfl : position = 0 := Nat.le_zero.mp hposition
      rfl
  | cons chunk rest ih =>
      cases position with
      | zero => rfl
      | succ position =>
          have hrest := ih (offset + Record.extent chunk) (Nat.le_of_succ_le_succ hposition)
          rw [List.take_succ_cons, List.flatten_cons, Record.extent_append, ← Nat.add_assoc,
            ← hrest]
          simp [chunkOffsets, Array.getD_eq_getD_getElem?]

/-- Every so many visits a chunk starts. -/
theorem everyNth_visits (size offset : Nat) (payloads : List Bytes) :
    everyNth size 0 ((visits offset payloads).map Visit.offset) ++
        [offset + Record.extent payloads] =
      chunkOffsets offset (chunksOf size payloads) := by
  fun_induction chunksOf size payloads generalizing offset with
  | case1 => rfl
  | case2 payload rest ih =>
      -- The visits passed over after the first are those of the other payloads of its chunk.
      have hrest := ih (offset + Record.extent (payload :: rest.take (size - 1)))
      rw [chunkOffsets, ← hrest, visits, List.map_cons, everyNth, everyNth_eq_drop,
        ← List.map_drop, drop_visits, List.cons_append]
      have hextent : Record.extent rest =
          Record.extent (rest.take (size - 1)) + Record.extent (rest.drop (size - 1)) := by
        rw [← Record.extent_append, List.take_append_drop]
      simp only [Record.extent_cons, hextent, Nat.add_assoc]

/-- Bounds from the one numbered `first` on say where each of some runs starts, and where the last
one stops, as the runs lie packed from an offset on. -/
def Delimits (bounds : Array Nat) (first offset : Nat) (runs : List (List Bytes)) : Prop :=
  ∀ position ≤ runs.length,
    bounds.getD (first + position) 0 = offset + Record.extent (runs.take position).flatten

namespace Delimits

variable {bounds : Array Nat} {first offset : Nat} {runs : List (List Bytes)}

theorem chunkOffsets (offset : Nat) (chunks : List (List Bytes)) :
    Delimits (chunkOffsets offset chunks).toArray 0 offset chunks := by
  intro position hposition
  rw [Nat.zero_add]
  exact getD_chunkOffsets offset hposition

/-- The bounds are those of any other runs with the same extents. -/
theorem of_extents {others : List (List Bytes)} (hbounds : Delimits bounds first offset runs)
    (hextents : others.map Record.extent = runs.map Record.extent) :
    Delimits bounds first offset others := by
  intro position hposition
  have hlength : others.length = runs.length := by
    simpa using congrArg List.length hextents
  have htaken : (others.take position).map Record.extent =
      (runs.take position).map Record.extent := by
    rw [List.map_take, List.map_take, hextents]
  rw [hbounds position (hlength ▸ hposition), Record.extent_flatten_congr htaken]

theorem take (hbounds : Delimits bounds first offset runs) (count : Nat) :
    Delimits bounds first offset (runs.take count) := by
  intro position hposition
  rw [List.length_take] at hposition
  rw [List.take_take, Nat.min_eq_left (by omega)]
  exact hbounds position (by omega)

theorem drop (hbounds : Delimits bounds first offset runs) {count : Nat}
    (hcount : count ≤ runs.length) :
    Delimits bounds (first + count) (offset + Record.extent (runs.take count).flatten)
      (runs.drop count) := by
  intro position hposition
  rw [List.length_drop] at hposition
  have hbound := hbounds (count + position) (by omega)
  rwa [List.take_add, List.flatten_append, Record.extent_append, ← Nat.add_assoc,
    ← Nat.add_assoc] at hbound

theorem getD_first (hbounds : Delimits bounds first offset runs) :
    bounds.getD first 0 = offset :=
  hbounds 0 (Nat.zero_le _)

theorem getD_last (hbounds : Delimits bounds first offset runs) {last : Nat}
    (hlast : last = first + runs.length) :
    bounds.getD last 0 = offset + Record.extent runs.flatten := by
  have hbound := hbounds runs.length (Nat.le_refl _)
  rwa [List.take_length, ← hlast] at hbound

end Delimits

namespace Buffer

variable {buffer after : Buffer} {start stop : Nat}

/-- A range is cut into chunks of the records that start in it. The last of them may reach past its
end. -/
theorem chunkBounds_of_met (chunkSize : Nat) {payloads : List Bytes} (hstart : 1 ≤ start)
    (hpacked : buffer.memory.Packed start payloads)
    (hcursor : start + Record.extent payloads ≤ buffer.cursor)
    (hcapacity : buffer.cursor ≤ buffer.capacity)
    (hinside : ∀ visit ∈ visits start payloads, visit.offset < stop)
    (hstop : stop ≤ start + Record.extent payloads) :
    buffer.chunkBounds start stop chunkSize =
      .ok (everyNth chunkSize 0 ((visits start payloads).map Visit.offset) ++ [stop]) := by
  rw [chunkBounds, trail_of_packed hstart hpacked hcursor hcapacity hinside hstop]
  rfl

theorem chunkBounds_of_packed (chunkSize : Nat) {payloads : List Bytes} (hstart : 1 ≤ start)
    (hpacked : buffer.memory.Packed start payloads)
    (hcursor : start + Record.extent payloads ≤ buffer.cursor)
    (hcapacity : buffer.cursor ≤ buffer.capacity) :
    buffer.chunkBounds start (start + Record.extent payloads) chunkSize =
      .ok (chunkOffsets start (chunksOf chunkSize payloads)) := by
  rw [← everyNth_visits]
  exact chunkBounds_of_met chunkSize hstart hpacked hcursor hcapacity
    (fun visit hvisit => lt_of_mem_visits hvisit) (Nat.le_refl _)

end Buffer

end RecordBuffer

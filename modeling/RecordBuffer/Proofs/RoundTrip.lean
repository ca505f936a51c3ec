import RecordBuffer.Proofs.Program

/-!
# Reading and writing delimited records

Splitting takes away the delimiters and joining puts them back, so what is stored
from a stream and written again is the stream, with a delimiter behind its last
record. The other way round, records that hold no delimiter come back as they
were, and those without bytes are not lost.
-/

namespace RecordBuffer

/-! ## Splitting and joining -/

section Splitting

variable {α : Type} [DecidableEq α] {separator : α}

theorem splitAtEach_append {part : List α} (hpart : separator ∉ part) (rest : List α) :
    splitAtEach separator (part ++ separator :: rest) =
      (part :: (splitAtEach separator rest).1, (splitAtEach separator rest).2) := by
  induction part with
  | nil =>
      rw [List.nil_append, splitAtEach]
      exact if_pos rfl
  | cons item others ih =>
      obtain ⟨hitem, hothers⟩ := not_or.mp (mt List.mem_cons.mpr hpart)
      rw [List.cons_append, splitAtEach, ih hothers]
      exact if_neg (Ne.symm hitem)

theorem splitAtEach_self {last : List α} (hlast : separator ∉ last) :
    splitAtEach separator last = ([], last) := by
  induction last with
  | nil => rfl
  | cons item rest ih =>
      simp only [List.mem_cons, not_or] at hlast
      simp [splitAtEach, ih hlast.2, Ne.symm hlast.1]

/-- There is one way to cut at every separator. -/
theorem splitAtEach_eq {closed : List (List α)} {last : List α}
    (hclosed : ∀ part ∈ closed, separator ∉ part) (hlast : separator ∉ last) :
    splitAtEach separator (closed.flatMap (· ++ [separator]) ++ last) = (closed, last) := by
  induction closed with
  | nil => exact splitAtEach_self hlast
  | cons part rest ih =>
      obtain ⟨hpart, hrest⟩ := List.forall_mem_cons.mp hclosed
      simp [splitAtEach_append hpart, ih hrest]

end Splitting

variable {delimiter : UInt8} {records : List Bytes}

theorem not_mem_of_mem_splitRecords {data record : Bytes}
    (hrecord : record ∈ splitRecords delimiter data) : delimiter ∉ record := by
  obtain ⟨hclosed, hlast⟩ := not_mem_of_mem_splitAtEach delimiter data
  unfold splitRecords at hrecord
  generalize splitAtEach delimiter data = parts at hclosed hlast hrecord
  obtain ⟨closed, last⟩ := parts
  simp only at hclosed hlast hrecord
  by_cases hempty : last = []
  · rw [if_pos hempty] at hrecord
    exact hclosed record hrecord
  · rw [if_neg hempty] at hrecord
    rcases List.mem_append.mp hrecord with hrecord | hrecord
    · exact hclosed record hrecord
    · rwa [List.mem_singleton.mp hrecord]

theorem splitRecords_joinRecords (hrecords : ∀ record ∈ records, delimiter ∉ record) :
    splitRecords delimiter (joinRecords delimiter records) = records := by
  have hsplit := splitAtEach_eq hrecords List.not_mem_nil
  rw [List.append_nil] at hsplit
  unfold splitRecords joinRecords
  rw [hsplit]
  exact if_pos rfl

theorem getLast?_joinRecords (hrecords : records ≠ []) :
    (joinRecords delimiter records).getLast? = some delimiter := by
  obtain ⟨front, last, rfl⟩ := (List.eq_nil_or_concat' records).resolve_left hrecords
  simp [joinRecords]

/-- Joining closes a fragment behind the last delimiter and is otherwise undone by splitting. -/
theorem joinRecords_splitRecords (delimiter : UInt8) (data : Bytes) :
    joinRecords delimiter (splitRecords delimiter data) =
      if data = [] ∨ data.getLast? = some delimiter then data else data ++ [delimiter] := by
  have hjoin := join_splitAtEach delimiter data
  have hfree := (not_mem_of_mem_splitAtEach delimiter data).2
  unfold splitRecords
  generalize splitAtEach delimiter data = parts at hjoin hfree ⊢
  obtain ⟨closed, last⟩ := parts
  simp only at hjoin hfree ⊢
  by_cases hlast : last = []
  · subst hlast
    rw [List.append_nil] at hjoin
    rw [if_pos rfl, if_pos]
    · exact hjoin
    · rw [← hjoin]
      by_cases hclosed : closed = []
      · exact Or.inl (by rw [hclosed, List.flatMap_nil])
      · exact Or.inr (getLast?_joinRecords hclosed)
  · have hopen : data.getLast? = some (last.getLast hlast) := by
      rw [← hjoin, List.getLast?_append_of_ne_nil _ hlast, List.getLast?_eq_getLast_of_ne_nil hlast]
    rw [if_neg hlast, if_neg]
    · rw [joinRecords, List.flatMap_append, List.flatMap_singleton, ← List.append_assoc, hjoin]
    · rintro (rfl | hclosed)
      · cases hopen
      · rw [hopen] at hclosed
        exact hfree (Option.some.inj hclosed ▸ List.getLast_mem hlast)

/-! ## Storing and writing -/

namespace Buffer

/-- A buffer without records that has room for some. -/
structure ReadyFor (buffer : Buffer) (records : List Bytes) : Prop where
  empty : buffer.Represents []
  short : Record.Short records
  fits : 1 + Record.extent records ≤ buffer.maxSize
  affords : buffer.Affords (1 + Record.extent records)

theorem ReadyFor.storeStream {buffer : Buffer} {data : Bytes}
    (hready : buffer.ReadyFor (splitRecords delimiter data)) :
    ∃ stored, buffer.storeStream { data } delimiter =
        .ok (stored, .ok (splitRecords delimiter data).length) ∧
      stored.Represents (splitRecords delimiter data) := by
  obtain ⟨stored, hstore, hstored, -⟩ :=
    hready.empty.storeStream_ok hready.short hready.fits hready.affords
  exact ⟨stored, hstore, hstored⟩

theorem Represents.delimited_all {buffer : Buffer} {payloads : List Bytes} {order : SortOrder}
    (hrepresents : buffer.Represents payloads) (hall : order.unique = false) (delimiter : UInt8) :
    buffer.delimited order delimiter = .ok (joinRecords delimiter payloads) := by
  rw [hrepresents.delimited order delimiter, if_neg (by rw [hall]; decide)]

/-- What is stored from a stream and written without dropping repeats is the stream, closed by a
delimiter unless it is empty or ends with one. What is written from a buffer whose records hold no
delimiter and stored again are the same records. -/
theorem stored_and_written (order : SortOrder) (delimiter : UInt8)
    (hall : order.unique = false) :
    (∀ (buffer : Buffer) (data : Bytes), buffer.ReadyFor (splitRecords delimiter data) →
      ∃ stored, buffer.storeStream { data } delimiter =
          .ok (stored, .ok (splitRecords delimiter data).length) ∧
        stored.delimited order delimiter = .ok
          (if data = [] ∨ data.getLast? = some delimiter then data else data ++ [delimiter])) ∧
    ∀ (buffer other : Buffer) (payloads : List Bytes), buffer.Represents payloads →
      (∀ payload ∈ payloads, delimiter ∉ payload) → other.ReadyFor payloads →
      ∃ output stored, buffer.delimited order delimiter = .ok output ∧
        other.storeStream { data := output } delimiter = .ok (stored, .ok payloads.length) ∧
        stored.records = .ok payloads := by
  constructor
  · intro buffer data hready
    obtain ⟨stored, hstore, hstored⟩ := hready.storeStream
    refine ⟨stored, hstore, ?_⟩
    rw [hstored.delimited_all hall, joinRecords_splitRecords]
  · intro buffer other payloads hrepresents hfree hready
    have hsplit := splitRecords_joinRecords hfree
    obtain ⟨stored, hstore, hstored⟩ :=
      ReadyFor.storeStream (hsplit.symm ▸ hready : other.ReadyFor
        (splitRecords delimiter (joinRecords delimiter payloads)))
    rw [hsplit] at hstore hstored
    exact ⟨_, stored, hrepresents.delimited_all hall delimiter, hstore, hstored.records⟩

/-- Records without bytes in front and between, and a fragment behind. -/
theorem stored_and_written_fragment :
    ∃ buffer stored other, Buffer.new 8 = .ok buffer ∧
      buffer.storeStream { data := [10, 97, 10, 10, 98] } 10 = .ok (stored, .ok 4) ∧
      stored.delimited {} 10 = .ok [10, 97, 10, 10, 98, 10] ∧
      buffer.storeStream { data := [10, 97, 10, 10, 98, 10] } 10 = .ok (other, .ok 4) ∧
      other.records = .ok [[], [97], [], [98]] := by
  obtain ⟨buffer, hmade⟩ : ∃ buffer, Buffer.new 8 = .ok buffer := ⟨_, rfl⟩
  have hsplit : splitRecords 10 [10, 97, 10, 10, 98] = [[], [97], [], [98]] := by decide
  have hready : buffer.ReadyFor [[], [97], [], [98]] := by
    obtain ⟨-, -, -, hmax⟩ := new_made hmade
    refine ⟨(Fresh.new 8 hmade).represents, by unfold Record.Short; decide, ?_, ?_⟩
    · rw [hmax]
      decide
    · intro _
      rw [hmax]
      decide
  obtain ⟨hstream, hrecords⟩ := stored_and_written {} 10 rfl
  obtain ⟨stored, hstore, hdelimited⟩ := hstream buffer _ (hsplit ▸ hready)
  rw [hsplit] at hstore
  have hrepresents : stored.Represents [[], [97], [], [98]] := by
    obtain ⟨again, hagain, hrepresents⟩ :=
      ReadyFor.storeStream (hsplit.symm ▸ hready : buffer.ReadyFor
        (splitRecords 10 [10, 97, 10, 10, 98]))
    rw [hsplit, hstore] at hagain
    cases hagain
    exact hsplit ▸ hrepresents
  obtain ⟨output, other, houtput, hother, hpayloads⟩ :=
    hrecords stored buffer _ hrepresents (by decide) hready
  rw [hdelimited] at houtput
  cases houtput
  exact ⟨buffer, stored, other, hmade, hstore, hdelimited, hother, hpayloads⟩

end Buffer

end RecordBuffer

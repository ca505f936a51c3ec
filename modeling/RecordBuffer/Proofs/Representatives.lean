import RecordBuffer.Proofs.Output
import RecordBuffer.Proofs.RecordList

/-!
# Unique output

Records that compare equal form a class. Of the records in order each is compared
only with the last one kept, but a total preorder puts a class in one run, so one
record of every class is kept. It is the first of the input because the sort is
stable.
-/

namespace RecordBuffer

namespace Comparator

/-- One record of every class, in order, and each the one that came first. -/
structure Representatives (compare : Comparator) (records chosen : List Bytes) : Prop where
  increasing : chosen.Pairwise fun left right => compare left right = .lt
  /-- Every record compares equal to one of the chosen, which is chosen once. -/
  one : ∀ record ∈ records, ∃ keeper, compare.tied record chosen = [keeper]
  earliest : ∀ keeper ∈ chosen,
    records.find? (fun record => compare keeper record = .eq) = some keeper

theorem head?_tied (compare : Comparator) (payload : Bytes) (payloads : List Bytes) :
    (compare.tied payload payloads).head? =
      payloads.find? fun other => compare payload other = .eq :=
  List.head?_filter

theorem lt_of_le_of_ne {compare : Comparator} {left right : Bytes} (hle : compare.le left right)
    (hne : compare left right ≠ .eq) : compare left right = .lt := by
  unfold le at hle
  cases hcompare : compare left right with
  | lt => rfl
  | eq => exact absurd hcompare hne
  | gt =>
      rw [hcompare] at hle
      cases hle

/-- Of records that rise no two compare equal to the same payload. -/
theorem tied_eq_singleton {compare : Comparator} [Std.TransCmp compare] {records : List Bytes}
    {payload keeper : Bytes}
    (hincreasing : records.Pairwise fun left right => compare left right = .lt)
    (hkeeper : keeper ∈ records) (hequal : compare keeper payload = .eq) :
    compare.tied payload records = [keeper] := by
  induction records with
  | nil => cases hkeeper
  | cons first rest ih =>
      obtain ⟨hfirst, hrest⟩ := List.pairwise_cons.mp hincreasing
      rw [tied_cons, Std.TransCmp.congr_left (Std.OrientedCmp.eq_symm hequal)]
      rcases List.mem_cons.mp hkeeper with rfl | hkeeper
      · have hnone : compare.tied payload rest = [] := by
          rw [tied, List.filter_eq_nil_iff]
          intro other hother
          rw [← Std.TransCmp.congr_left hequal, hfirst other hother]
          decide
        rw [if_pos Std.ReflCmp.compare_self, hnone]
      · have hgreater : compare keeper first = .gt :=
          Std.OrientedCmp.gt_of_lt (hfirst keeper hkeeper)
        rw [if_neg (by rw [hgreater]; decide)]
        exact ih hrest hkeeper

end Comparator

namespace Kept

variable {compare : Comparator} [Std.TransCmp compare] {last? : Option Bytes}
  {records kept : List Bytes}

/-- What is kept of records in order rises, also from the record that was kept last. -/
theorem increasing (hkept : Kept compare last? records kept)
    (hordered : (last?.toList ++ records).Pairwise fun left right => compare.le left right) :
    (last?.toList ++ kept).Pairwise fun left right => compare left right = .lt := by
  induction hkept with
  | nil last? =>
      cases last? with
      | none => exact List.Pairwise.nil
      | some last => exact List.pairwise_singleton _ last
  | drop _ _ ih => exact ih (hordered.sublist ((List.sublist_cons_self _ _).cons_cons _))
  | @keep last? record rest kept differs _ ih =>
      have hbehind := ih (List.pairwise_append.mp hordered).2.1
      cases last? with
      | none => exact hbehind
      | some last =>
          have hfirst : compare last record = .lt :=
            Comparator.lt_of_le_of_ne (List.rel_of_pairwise_cons hordered List.mem_cons_self)
              (differs last rfl)
          refine List.pairwise_cons.mpr ⟨?_, hbehind⟩
          intro other hother
          rcases List.mem_cons.mp hother with rfl | hother
          · exact hfirst
          · exact Std.TransCmp.lt_trans hfirst (List.rel_of_pairwise_cons hbehind hother)

/-- No record is dropped without one kept that compares equal. -/
theorem exists_eq (hkept : Kept compare last? records kept) {record : Bytes}
    (hrecord : record ∈ records) :
    ∃ keeper ∈ last?.toList ++ kept, compare keeper record = .eq := by
  induction hkept with
  | nil => cases hrecord
  | @drop last _ _ _ equal _ ih =>
      rcases List.mem_cons.mp hrecord with rfl | hrecord
      · exact ⟨last, List.mem_cons_self, equal⟩
      · exact ih hrecord
  | @keep last? first _ _ _ _ ih =>
      rcases List.mem_cons.mp hrecord with rfl | hrecord
      · exact ⟨record, List.mem_append_right _ List.mem_cons_self, Std.ReflCmp.compare_self⟩
      · obtain ⟨keeper, hkeeper, hequal⟩ := ih hrecord
        exact ⟨keeper, List.mem_append_right _ hkeeper, hequal⟩

/-- A record that is kept is the first of its class. -/
theorem find?_eq (hkept : Kept compare last? records kept)
    (hordered : (last?.toList ++ records).Pairwise fun left right => compare.le left right)
    {keeper : Bytes} (hkeeper : keeper ∈ kept) :
    records.find? (fun record => compare keeper record = .eq) = some keeper := by
  have hincreasing := hkept.increasing hordered
  induction hkept with
  | nil => cases hkeeper
  | @drop last record rest kept equal _ ih =>
      have hless : compare last keeper = .lt := List.rel_of_pairwise_cons hincreasing hkeeper
      have hdiffers : compare keeper record ≠ .eq := by
        intro hequal
        have hsame := Std.TransCmp.eq_trans equal (Std.OrientedCmp.eq_symm hequal)
        rw [hless] at hsame
        cases hsame
      rw [List.find?_cons_of_neg (by simpa using hdiffers)]
      exact ih (hordered.sublist ((List.sublist_cons_self _ _).cons_cons _)) hkeeper hincreasing
  | @keep last? record rest kept _ _ ih =>
      have hbehind := (List.pairwise_append.mp hincreasing).2.1
      rcases List.mem_cons.mp hkeeper with rfl | hkeeper
      · exact List.find?_cons_of_pos (by simp [Std.ReflCmp.compare_self])
      · have hless : compare record keeper = .lt := List.rel_of_pairwise_cons hbehind hkeeper
        have hdiffers : compare keeper record ≠ .eq := by
          intro hequal
          rw [Std.OrientedCmp.eq_symm hequal] at hless
          cases hless
        rw [List.find?_cons_of_neg (by simpa using hdiffers)]
        exact ih (List.pairwise_append.mp hordered).2.1 hkeeper hbehind

end Kept

/-- Of records that are sorted first, one of every class is kept. -/
theorem Comparator.representatives_dropRepeats (compare : Comparator) [Std.TransCmp compare]
    (records : List Bytes) :
    compare.Representatives records (dropRepeats compare none (compare.sort records)) := by
  have hsorted := compare.stableSort_sort records
  have hkept := kept_dropRepeats compare none (compare.sort records)
  have hincreasing := hkept.increasing hsorted.ordered
  refine ⟨hincreasing, ?_, ?_⟩
  · intro record hrecord
    obtain ⟨keeper, hkeeper, hequal⟩ := hkept.exists_eq (hsorted.perm.mem_iff.mpr hrecord)
    exact ⟨keeper, Comparator.tied_eq_singleton hincreasing hkeeper hequal⟩
  · intro keeper hkeeper
    rw [← compare.head?_tied, ← hsorted.ties, compare.head?_tied]
    exact hkept.find?_eq hsorted.ordered hkeeper

namespace Buffer

variable {buffer : Buffer} {payloads : List Bytes} {order : SortOrder} {chunkSize : Nat}

/-- If records are to be unique, a buffer that is sorted and written gives one record for every
class of records that compare equal, in rising order. It is the one that the buffer held first,
whatever the flags are and in chunks of whatever size the buffer was sorted. -/
theorem unique_output (delimiter : UInt8) (hrepresents : buffer.Represents payloads)
    (hunique : order.unique = true) (hchunkSize : 1 ≤ chunkSize)
    (hmemory : offsetSize * chunkSize ≤ Limits.maxExtent) :
    let written := dropRepeats order.compare none (order.compare.sort payloads)
    ∃ sorted, buffer.sortRange order.compare 1 buffer.cursor chunkSize = .ok sorted ∧
      sorted.records = .ok (order.compare.sort payloads) ∧
      sorted.delimited order delimiter = .ok (joinRecords delimiter written) ∧
      order.compare.Representatives payloads written := by
  intro written
  obtain ⟨sorted, hsort, hsorted⟩ := hrepresents.sortRange order.compare hchunkSize hmemory
  have hdelimited := hsorted.delimited order delimiter
  rw [if_pos hunique] at hdelimited
  exact ⟨sorted, hsort, hsorted.records, hdelimited,
    order.compare.representatives_dropRepeats payloads⟩

/-- Letters of either case, reversed, in chunks of two records. -/
theorem unique_output_of_letters :
    let order : SortOrder := { foldCase := true, reverse := true, unique := true }
    let payloads : List Bytes := [[0x61], [0x42], [0x41], [0x62], [0x42]]
    let buffer : Buffer :=
      { backing := .heap, memory := Memory.blank.write 1 (Record.encodeAll payloads)
        backed := 64, cursor := 26, capacity := 64, maxSize := 128 }
    ∃ sorted, buffer.sortRange order.compare 1 buffer.cursor 2 = .ok sorted ∧
      sorted.delimited order 0x0a = .ok [0x42, 0x0a, 0x61, 0x0a] ∧
      order.compare.Representatives payloads [[0x42], [0x61]] := by
  intro order payloads buffer
  have hshort : Record.Short payloads := by unfold Record.Short; decide
  have hblank : ∀ address, 64 ≤ address → buffer.memory.get address = 0 := by
    intro address haddress
    have hextent : Record.extent payloads = 25 := rfl
    rw [Memory.get_write, if_pos (by omega), List.getD_eq_default, Memory.get_blank]
    rw [Record.length_encodeAll]
    omega
  have hrepresents : buffer.Represents payloads :=
    ⟨⟨by decide, by decide, by decide, rfl, hblank⟩, Memory.Packed.write _ 1 hshort, rfl⟩
  have hwritten : dropRepeats order.compare none (order.compare.sort payloads) =
      [[0x42], [0x61]] := by cbv
  obtain ⟨sorted, hsort, -, hdelimited, hchosen⟩ :=
    unique_output 0x0a hrepresents (show order.unique = true from rfl) (show 1 ≤ 2 by decide)
      (by decide)
  rw [hwritten] at hdelimited hchosen
  exact ⟨sorted, hsort, hdelimited, hchosen⟩

end Buffer

end RecordBuffer

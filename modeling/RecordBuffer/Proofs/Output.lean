import Mathlib.Data.List.Forall2
import RecordBuffer.Proofs.Orders
import RecordBuffer.Stream

/-!
# What the sorted output of some inputs is

Every input is cut at its delimiters by itself. The records of all inputs are
stably sorted, may lose their repeats, and are written with a delimiter behind
each. The relations below say so without computing anything, and the functions
that compute it satisfy them.
-/

namespace RecordBuffer

variable {compare : Comparator}

/-- The records of a string of bytes end where its delimiters are, and a fragment behind the last
delimiter is a record of its own. -/
def Splits (delimiter : UInt8) (data : Bytes) (records : List Bytes) : Prop :=
  ∃ closed last, data = closed.flatMap (· ++ [delimiter]) ++ last ∧
    (∀ record ∈ closed, delimiter ∉ record) ∧ delimiter ∉ last ∧
    records = if last = [] then closed else closed ++ [last]

/-- What is kept of records if each that compares equal to the last one kept is dropped. -/
inductive Kept (compare : Comparator) : Option Bytes → List Bytes → List Bytes → Prop where
  | nil (last? : Option Bytes) : Kept compare last? [] []
  | drop {last record : Bytes} {rest kept : List Bytes} (equal : compare last record = .eq)
      (behind : Kept compare (some last) rest kept) :
      Kept compare (some last) (record :: rest) kept
  | keep {last? : Option Bytes} {record : Bytes} {rest kept : List Bytes}
      (differs : ∀ last ∈ last?, compare last record ≠ .eq)
      (behind : Kept compare (some record) rest kept) :
      Kept compare last? (record :: rest) (record :: kept)

/-- The output for the contents of some inputs. -/
def SortedOutput (order : SortOrder) (delimiter : UInt8) (contents : List Bytes) (output : Bytes) :
    Prop :=
  ∃ pieces sorted kept, List.Forall₂ (Splits delimiter) contents pieces ∧
    order.compare.StableSort pieces.flatten sorted ∧
    (if order.unique then Kept order.compare none sorted kept else kept = sorted) ∧
    output = kept.flatMap (· ++ [delimiter])

/-- The output as it is computed, from the order, the delimiter and the contents alone. -/
def sortedOutput (order : SortOrder) (delimiter : UInt8) (contents : List Bytes) : Bytes :=
  let sorted := order.compare.sort (contents.flatMap (splitRecords delimiter))
  joinRecords delimiter (if order.unique then dropRepeats order.compare none sorted else sorted)

theorem splits_splitRecords (delimiter : UInt8) (data : Bytes) :
    Splits delimiter data (splitRecords delimiter data) := by
  obtain ⟨hclosed, hlast⟩ := not_mem_of_mem_splitAtEach delimiter data
  exact ⟨_, _, (join_splitAtEach delimiter data).symm, hclosed, hlast, rfl⟩

theorem kept_dropRepeats (compare : Comparator) (last? : Option Bytes) (records : List Bytes) :
    Kept compare last? records (dropRepeats compare last? records) := by
  fun_induction dropRepeats compare last? records with
  | case1 last? => exact .nil last?
  | case2 last? record rest hequal ih =>
      obtain ⟨last, rfl⟩ : ∃ last, last? = some last := by
        cases last? with
        | none => cases hequal
        | some last => exact ⟨last, rfl⟩
      exact .drop (of_decide_eq_true hequal) ih
  | case3 last? record rest hdiffers ih =>
      refine .keep ?_ ih
      rintro last rfl hequal
      exact hdiffers (decide_eq_true hequal)

theorem sortedOutput_spec (order : SortOrder) (delimiter : UInt8) (contents : List Bytes) :
    SortedOutput order delimiter contents (sortedOutput order delimiter contents) := by
  refine ⟨contents.map (splitRecords delimiter), _, _, ?_,
    order.compare.stableSort_sort _, ?_, rfl⟩
  · exact List.forall₂_map_right_iff.mpr
      (List.forall₂_same.mpr fun data _ => splits_splitRecords delimiter data)
  · rw [List.flatMap_def]
    split
    next => exact kept_dropRepeats _ _ _
    next => rfl

end RecordBuffer

import RecordBuffer.Proofs.CompletedRun
import RecordBuffer.Proofs.Representatives
import RecordBuffer.Proofs.Rounding
import RecordBuffer.Proofs.RoundTrip

/-!
# Numbers in unique output

Unique numeric output holds the key of every record that was read. A key is a
rounded number, so where numbers can be held as they are or have few digits none is
lost, and where two of them share a key only the first one read is in the output.
-/

namespace RecordBuffer

/-- The records of unique output are the representatives of those that were read. -/
theorem representatives_of_sortedOutput {order : SortOrder} (hunique : order.unique = true)
    (delimiter : UInt8) (contents : List Bytes) :
    order.compare.Representatives (contents.flatMap (splitRecords delimiter))
      (splitRecords delimiter (sortedOutput order delimiter contents)) := by
  have hchosen := order.compare.representatives_dropRepeats
    (contents.flatMap (splitRecords delimiter))
  unfold sortedOutput
  simp only [hunique, if_true]
  rw [splitRecords_joinRecords]
  · exact hchosen
  · intro keeper hkeeper
    obtain ⟨data, -, hrecord⟩ := List.mem_flatMap.mp
      (List.mem_of_find?_eq_some (hchosen.earliest keeper hkeeper))
    exact not_mem_of_mem_splitRecords hrecord

/-- Records that compare equal in numeric order have the same key. -/
theorem SortOrder.rounded_eq_of_compare {order : SortOrder} (hnumeric : order.numeric = true)
    {left right : Bytes} (hequal : order.compare left right = .eq) :
    (Decimal.leading left).rounded = (Decimal.leading right).rounded := by
  have hkeys := (order.compare_eq_iff.mp hequal).1
  rw [compareKeys, if_pos hnumeric] at hkeys
  exact Std.LawfulEqOrd.eq_of_compare hkeys

/-- Whatever else is asked for, in unique numeric output there is for every record that was read
one of those read whose leading number is rounded to the same. The two numbers are equal if both
can be held without rounding, and if both have 15 digits at most. -/
theorem recsort_unique_numbers {arguments : List String} {options : CommandLine.Options}
    {stdin : Bytes} {disk after : Disk} {exit : Exit} (hnumbered : disk.Numbered)
    (hparse : CommandLine.parse arguments = .ok options) (hnumeric : options.numeric = true)
    (hunique : options.unique = true)
    (hrun : recsort Host.ofDisk arguments stdin disk = (exit, after)) (hcode : exit.code = 0) :
    ∃ job contents output, Job.ofOptions options = .ok job ∧
      inputContents disk job.sources stdin = .ok contents ∧
      exit.stdout = (if job.output = none then output else []) ∧
      (∀ path, job.output = some path → after.read path = .ok output) ∧
      ∀ record ∈ contents.flatMap (splitRecords job.delimiter),
        ∃ kept ∈ splitRecords job.delimiter output,
          kept ∈ contents.flatMap (splitRecords job.delimiter) ∧
          (Decimal.leading kept).rounded = (Decimal.leading record).rounded ∧
          ((Decimal.leading kept).Representable → (Decimal.leading record).Representable →
            (Decimal.leading kept).value = (Decimal.leading record).value) ∧
          ((Decimal.leading kept).Short → (Decimal.leading record).Short →
            (Decimal.leading kept).value = (Decimal.leading record).value) := by
  obtain ⟨job, contents, hjob, hcontents, hstdout, houtput⟩ :=
    recsort_completed hnumbered hparse hrun hcode
  obtain ⟨-, hwork⟩ := Job.ofOptions_eq_ok hjob
  have hkeys : job.order.numeric = true := by
    rw [hwork]
    exact hnumeric
  have hdrops : job.order.unique = true := by
    rw [hwork]
    exact hunique
  have hchosen := representatives_of_sortedOutput hdrops job.delimiter contents
  refine ⟨job, contents, _, hjob, hcontents, hstdout, houtput, ?_⟩
  intro record hrecord
  obtain ⟨keeper, htied⟩ := hchosen.one record hrecord
  obtain ⟨hkept, hequal⟩ := List.mem_filter.mp (htied ▸ List.mem_singleton_self keeper)
  have hread := List.mem_of_find?_eq_some (hchosen.earliest keeper hkept)
  have hrounded := SortOrder.rounded_eq_of_compare hkeys (of_decide_eq_true hequal)
  exact ⟨keeper, hkept, hread, hrounded.symm,
    fun hkeeper hrecord => Decimal.value_eq_of_rounded_eq hkeeper hrecord hrounded.symm,
    fun hkeeper hrecord => Decimal.value_eq_of_rounded_eq_of_short hkeeper hrecord hrounded.symm⟩

/-- The order that numbers have if their repeats are to be dropped. -/
def uniqueNumeric : SortOrder := { numeric := true, unique := true }

/-- Numbers on standard input that are in order already only lose their repeats. -/
theorem recsort_ordered_numbers {records : List Bytes}
    (hrecords : ∀ record ∈ records, 10 ∉ record ∧ record.length < Limits.payloadBound)
    (hfits : 1 + Record.extent records ≤ Buffer.defaultMaxSize)
    (hordered : records.Pairwise fun left right => uniqueNumeric.compare.le left right) :
    recsort Host.ofDisk ["-n", "-u"] (joinRecords 10 records) (Disk.empty "") =
      ({ code := 0, stdout := joinRecords 10 (dropRepeats uniqueNumeric.compare none records) },
        Disk.empty "") := by
  let options : CommandLine.Options := {
    reverse := false, numeric := true, foldCase := false, unique := true, stable := false
    zeroTerminated := false, mapped := false, output := none
    bufferSize := 64, maxSize := 0, chunkSize := 1024, files := [] }
  let job : Job := {
    order := uniqueNumeric, delimiter := 10, output := none, inputs := []
    settings := { initialSize := 64 }, chunkSize := 1024 }
  let buffer : Buffer := ⟨.heap, .blank, 64, 1, 64, Buffer.defaultMaxSize⟩
  have hparse : CommandLine.parse ["-n", "-u"] = .ok options := rfl
  have hjob : Job.ofOptions options = .ok job := rfl
  have hmade : job.settings.build (Disk.empty "") = .ok (Disk.empty "", .ok buffer) := rfl
  have hempty : buffer.Represents [] := (Buffer.Fresh.create _ _ 64 0 .heap hmade).represents
  have hsplit : [joinRecords 10 records].flatMap (splitRecords 10) = records := by
    rw [List.flatMap_singleton]
    exact splitRecords_joinRecords fun record hmem => (hrecords record hmem).1
  have hsorted : sortedOutput uniqueNumeric 10 [joinRecords 10 records] =
      joinRecords 10 (dropRepeats uniqueNumeric.compare none records) := by
    simp only [sortedOutput, hsplit, Comparator.sort, List.mergeSort_of_pairwise hordered]
    rfl
  have hprocess : job.process Host.ofDisk (joinRecords 10 records) buffer (Disk.empty "") =
      job.writeOutput Host.ofDisk (sortedOutput uniqueNumeric 10 [joinRecords 10 records])
        (Disk.empty "") :=
    Job.process_ok hempty rfl (hsplit.symm ▸ fun record hmem => (hrecords record hmem).2)
      (hsplit.symm ▸ hfits) (fun _ => Nat.le_trans (Nat.min_le_left _ _) (by decide))
      (by decide) (by decide)
  simp only [recsort, hparse, hjob, ← hsorted]
  exact Job.run_ok hmade hprocess rfl

/-- A tenth and one are written in two ways each, and those that are left stand for both. -/
theorem recsort_unique_numbers_rewritten :
    let tenths : List Bytes := [[48, 46, 49], [46, 49, 48]]
    let ones : List Bytes := [[48, 49], [49, 46, 48]]
    recsort Host.ofDisk ["-n", "-u"] (joinRecords 10 (tenths ++ ones)) (Disk.empty "") =
        ({ code := 0, stdout := joinRecords 10 [[48, 46, 49], [48, 49]] }, Disk.empty "") ∧
      (∃ kept ∈ splitRecords 10 (joinRecords 10 [[48, 46, 49], [48, 49]]),
        (Decimal.leading kept).value = (Decimal.leading [46, 49, 48]).value) ∧
      ∃ kept ∈ splitRecords 10 (joinRecords 10 [[48, 46, 49], [48, 49]]),
        (Decimal.leading kept).value = (Decimal.leading [49, 46, 48]).value := by
  intro tenths ones
  have hrun := @recsort_ordered_numbers (tenths ++ ones) (by decide) (by decide)
    (by decide +kernel)
  have hdropped : dropRepeats uniqueNumeric.compare none (tenths ++ ones) =
      [[48, 46, 49], [48, 49]] := by decide +kernel
  rw [hdropped] at hrun
  let options : CommandLine.Options := {
    reverse := false, numeric := true, foldCase := false, unique := true, stable := false
    zeroTerminated := false, mapped := false, output := none
    bufferSize := 64, maxSize := 0, chunkSize := 1024, files := [] }
  have hparse : CommandLine.parse ["-n", "-u"] = .ok options := rfl
  obtain ⟨job, contents, output, hjob, hcontents, hstdout, -, hnumbers⟩ :=
    recsort_unique_numbers (Disk.numbered_empty "" _) hparse rfl rfl hrun rfl
  cases hjob
  cases hcontents
  obtain rfl : joinRecords 10 [[48, 46, 49], [48, 49]] = output := hstdout
  have hsplit : splitRecords 10 (joinRecords 10 [[48, 46, 49], [48, 49]]) =
      [[48, 46, 49], [48, 49]] := by decide
  have hshort : ∀ record ∈ splitRecords 10 (joinRecords 10 (tenths ++ ones)),
      (Decimal.leading record).Short := by
    have hdigits : ∀ record ∈ splitRecords 10 (joinRecords 10 (tenths ++ ones)),
        (Decimal.leading record).numerator < 10 ^ 15 ∧
          (Decimal.leading record).places ≤ Decimal.finestPlace := by decide
    exact fun record hrecord => Decimal.short_of_numerator_lt (hdigits record hrecord).1
      (hdigits record hrecord).2
  refine ⟨hrun, ?_, ?_⟩
  · obtain ⟨kept, hkept, hread, -, -, hvalue⟩ := hnumbers [46, 49, 48] (by decide)
    exact ⟨kept, hkept, hvalue (hshort kept hread) (hshort _ (by decide))⟩
  · obtain ⟨kept, hkept, -, hrounded, hvalue, -⟩ := hnumbers [49, 46, 48] (by decide)
    -- A tenth cannot be held, but its key is not that of one.
    obtain rfl : kept = [48, 49] := by
      rcases List.mem_pair.mp (hsplit ▸ hkept) with rfl | rfl
      · exact absurd hrounded (by decide +kernel)
      · rfl
    exact ⟨_, hkept, hvalue (Decimal.representable_of_whole (show _ = 1 * _ by decide) (by decide))
      (Decimal.representable_of_whole (show _ = 1 * _ by decide) (by decide))⟩

/-- Two whole numbers above `2 ^ 53` share a key, and the second one is lost. -/
theorem recsort_unique_loses_number :
    let first : Bytes := [57, 48, 48, 55, 49, 57, 57, 50, 53, 52, 55, 52, 48, 57, 57, 50]
    let second : Bytes := [57, 48, 48, 55, 49, 57, 57, 50, 53, 52, 55, 52, 48, 57, 57, 51]
    recsort Host.ofDisk ["-n", "-u"] (joinRecords 10 [first, second]) (Disk.empty "") =
        ({ code := 0, stdout := joinRecords 10 [first] }, Disk.empty "") ∧
      ∀ kept ∈ splitRecords 10 (joinRecords 10 [first]),
        (Decimal.leading kept).value ≠ (Decimal.leading second).value := by
  intro first second
  have hrun := @recsort_ordered_numbers [first, second] (by decide) (by decide) (by decide +kernel)
  have hkept : dropRepeats uniqueNumeric.compare none [first, second] = [first] := by
    decide +kernel
  rw [hkept] at hrun
  refine ⟨hrun, ?_⟩
  have hsplit : splitRecords 10 (joinRecords 10 [first]) = [first] := by decide
  rw [hsplit]
  intro kept hkept
  rw [List.mem_singleton.mp hkept]
  have hfirst : Decimal.leading first = ⟨false, 9007199254740992, 0⟩ := by decide
  have hsecond : Decimal.leading second = ⟨false, 9007199254740993, 0⟩ := by decide
  rw [hfirst, hsecond]
  norm_num [Decimal.value]

end RecordBuffer

import RecordBuffer.Proofs.FaultedRun
import RecordBuffer.Proofs.RoundTrip

/-!
# The order of the input does not show

If only copies compare equal, sorting forgets the order in which payloads came, and
sorting the other way round gives the list from behind. So two runs on the same
records, which may come in any order from any files, write the same bytes.
-/

namespace RecordBuffer

namespace Comparator

section Antisymmetric

variable (compare : Comparator) [Std.TransCmp compare] [Std.LawfulEqCmp compare]
  {payloads others : List Bytes}

/-- If only copies compare equal, a list in order is determined by what it holds. -/
theorem eq_of_ordered (hpayloads : payloads.Pairwise fun left right => compare.le left right)
    (hothers : others.Pairwise fun left right => compare.le left right)
    (hperm : payloads.Perm others) : payloads = others := by
  apply hperm.eq_of_pairwise _ hpayloads hothers
  intro left right _ _ hle hge
  exact Std.LawfulEqCmp.eq_of_compare (compare.eq_iff_le.mpr ⟨hle, hge⟩)

theorem sort_eq_of_perm (hperm : payloads.Perm others) :
    compare.sort payloads = compare.sort others := by
  apply compare.eq_of_ordered (compare.stableSort_sort payloads).ordered
    (compare.stableSort_sort others).ordered
  exact (compare.sort_perm payloads).trans (hperm.trans (compare.sort_perm others).symm)

/-- The other way round, the sorted list is read from behind. -/
theorem sort_swap_eq_of_perm (hperm : payloads.Perm others) :
    compare.swap.sort payloads = (compare.sort others).reverse := by
  have : Std.TransCmp compare.swap :=
    inferInstanceAs (Std.TransCmp fun left right => compare right left)
  have hothers := (compare.stableSort_sort others).ordered
  apply List.reverse_eq_iff.mp
  apply compare.eq_of_ordered _ hothers
  · exact (List.reverse_perm _).trans
      ((compare.swap.sort_perm payloads).trans (hperm.trans (compare.sort_perm others).symm))
  · apply List.pairwise_reverse.mpr
    exact (compare.swap.stableSort_sort payloads).ordered

end Antisymmetric

end Comparator

namespace SortOrder

variable {order other : SortOrder}

/-- Reversal swaps the payloads that are compared. -/
theorem compare_eq_swap (hreverse : order.reverse ≠ other.reverse)
    (hnumeric : order.numeric = other.numeric) (hfoldCase : order.foldCase = other.foldCase)
    (hlast : order.lastResort = other.lastResort) : order.compare = other.compare.swap := by
  have hkeys : order.compareKeys = other.compareKeys := by
    simp only [compareKeys, hnumeric, hfoldCase]
  have hresort : order.resort = other.resort := by
    simp only [resort, hlast]
  funext left right
  rw [Comparator.swap, Comparator.swap_eq other.compare left right, compare_eq, compare_eq,
    hkeys, hresort]
  cases hreversed : other.reverse with
  | false =>
      have htrue : order.reverse = true := by
        simpa [hreversed] using hreverse
      rw [if_pos htrue]
      rfl
  | true =>
      have hfalse : order.reverse = false := by
        simpa [hreversed] using hreverse
      rw [hfalse, if_pos rfl, Ordering.swap_swap]
      rfl

end SortOrder

/-- A run on arguments that are accepted, which ended well. -/
structure CompletedRun where
  arguments : List String
  stdin : Bytes
  disk : Disk
  numbered : disk.Numbered
  options : CommandLine.Options
  parsed : CommandLine.parse arguments = .ok options
  job : Job
  accepted : Job.ofOptions options = .ok job
  completed : (recsort Host.ofDisk arguments stdin disk).1.code = 0

namespace CompletedRun

variable (run other : CompletedRun)

/-- The records of all inputs. -/
def records : List Bytes :=
  inputRecords run.disk run.job.delimiter run.job.sources run.stdin

def exit : Exit := (recsort Host.ofDisk run.arguments run.stdin run.disk).1

def after : Disk := (recsort Host.ofDisk run.arguments run.stdin run.disk).2

/-- What was written: to standard output, or to the file named for it. -/
def written : Except Cause Bytes :=
  match run.options.output with
  | none => .ok run.exit.stdout
  | some path => run.after.read path

/-- All inputs were read, and the sorted output for their contents was written. -/
theorem reads : ∃ contents, inputContents run.disk run.job.sources run.stdin = .ok contents ∧
    run.records = contents.flatMap (splitRecords run.job.delimiter) ∧
    run.written = .ok (sortedOutput run.job.order run.job.delimiter contents) := by
  have hrun : recsort Host.ofDisk run.arguments run.stdin run.disk = (run.exit, run.after) := rfl
  obtain ⟨job, contents, hjob, hcontents, hstdout, houtput⟩ :=
    recsort_completed run.numbered run.parsed hrun run.completed
  obtain rfl : run.job = job := Except.ok.inj (run.accepted.symm.trans hjob)
  have hpath : run.job.output = run.options.output := by
    rw [(Job.ofOptions_eq_ok hjob).2]
  rw [hpath] at hstdout houtput
  refine ⟨contents, hcontents, inputRecords_eq _ hcontents, ?_⟩
  unfold written
  split
  next hnone => rw [hstdout, if_pos hnone]
  next path hsome => exact houtput path hsome

/-- Without `-u`, a run writes the sorted records of its inputs. -/
theorem written_eq (hunique : run.options.unique = false) :
    run.written = .ok (joinRecords run.job.delimiter (run.job.order.compare.sort run.records)) := by
  obtain ⟨contents, -, hrecords, hwritten⟩ := run.reads
  have hall : run.job.order.unique = false := by
    rw [(Job.ofOptions_eq_ok run.accepted).2]
    exact hunique
  rw [hwritten, hrecords]
  simp [sortedOutput, hall]

theorem not_mem_of_mem_records {record : Bytes} (hrecord : record ∈ run.records) :
    run.job.delimiter ∉ record := by
  obtain ⟨contents, -, hrecords, -⟩ := run.reads
  rw [hrecords] at hrecord
  obtain ⟨data, -, hmem⟩ := List.mem_flatMap.mp hrecord
  exact not_mem_of_mem_splitRecords hmem

/-- Room for all records and for the offsets of a chunk is enough for a run to end well. -/
theorem exists_of_room {arguments : List String} {options : CommandLine.Options} {job : Job}
    {stdin : Bytes} {disk opened : Disk} {buffer : Buffer} {contents : List Bytes}
    (hnumbered : disk.Numbered) (hparse : CommandLine.parse arguments = .ok options)
    (hjob : Job.ofOptions options = .ok job)
    (hbuffer : job.settings.build disk = .ok (opened, .ok buffer))
    (hinputs : inputContents disk job.sources stdin = .ok contents) (hstdout : job.output = none)
    (hshort : Record.Short (contents.flatMap (splitRecords job.delimiter)))
    (hfits : 1 + Record.extent (contents.flatMap (splitRecords job.delimiter)) ≤
      Buffer.orDefault Buffer.defaultMaxSize options.maxSize)
    (hoffsets : Buffer.offsetSize * job.chunkSize ≤ Limits.maxExtent)
    (hmemory : buffer.maxSize ≤ Limits.maxExtent) :
    ∃ run : CompletedRun, run.arguments = arguments ∧ run.options = options ∧
      run.job = job ∧ run.records = contents.flatMap (splitRecords job.delimiter) := by
  obtain ⟨after, hrun, -⟩ := recsort_sorts hnumbered hparse hjob hbuffer hinputs
    (by rw [hstdout]; exact nofun) hshort hfits hoffsets
    (fun _ => Nat.le_trans (Nat.min_le_left _ _) hmemory)
  exact ⟨⟨arguments, stdin, disk, hnumbered, options, hparse, job, hjob, by rw [hrun]⟩, rfl, rfl,
    rfl, inputRecords_eq _ hinputs⟩

variable {run other}

/-- Two runs that end well and keep neither the order of equal records nor only one of them write
the same bytes, if they compare by the same keys and their inputs hold the same records, in
whatever order, in whatever files, and however they are stored and cut into chunks. If one of them
sorts the other way round, its records are those of the other one from behind. -/
theorem written_of_perm
    (hstable : run.options.stable = false ∧ other.options.stable = false)
    (hunique : run.options.unique = false ∧ other.options.unique = false)
    (hnumeric : run.options.numeric = other.options.numeric)
    (hfoldCase : run.options.foldCase = other.options.foldCase)
    (hzero : run.options.zeroTerminated = other.options.zeroTerminated)
    (hperm : run.records.Perm other.records) :
    ∃ output others, run.written = .ok output ∧ other.written = .ok others ∧
      (run.options.reverse = other.options.reverse → output = others) ∧
      (run.options.reverse ≠ other.options.reverse →
        splitRecords run.job.delimiter output =
          (splitRecords run.job.delimiter others).reverse) := by
  have hrun := run.written_eq hunique.1
  have hother := other.written_eq hunique.2
  obtain ⟨-, hjob⟩ := Job.ofOptions_eq_ok run.accepted
  obtain ⟨-, hothers⟩ := Job.ofOptions_eq_ok other.accepted
  have hdelimiter : run.job.delimiter = other.job.delimiter := by
    rw [hjob, hothers, hzero]
  have hresort : other.job.order.lastResort := by
    rw [hothers]
    simp only [SortOrder.lastResort, hstable.2, hunique.2]
    rfl
  have : Std.LawfulEqCmp other.job.order.compare :=
    ⟨(SortOrder.compare_eq_iff_eq hresort).mp⟩
  refine ⟨_, _, hrun, hother, ?_, ?_⟩
  · intro hreverse
    have horder : run.job.order = other.job.order := by
      rw [hjob, hothers, hreverse, hnumeric, hfoldCase, hunique.1, hunique.2, hstable.1,
        hstable.2]
    rw [hdelimiter, horder, other.job.order.compare.sort_eq_of_perm hperm]
  · intro hreverse
    have horder : run.job.order.compare = other.job.order.compare.swap := by
      apply SortOrder.compare_eq_swap <;> rw [hjob, hothers]
      · exact hreverse
      · exact hnumeric
      · exact hfoldCase
      · simp only [SortOrder.lastResort, hstable, hunique]
    have hfree : ∀ record ∈ other.job.order.compare.sort other.records,
        run.job.delimiter ∉ record := by
      intro record hrecord
      rw [hdelimiter]
      exact other.not_mem_of_mem_records ((Comparator.sort_perm _ _).mem_iff.mp hrecord)
    rw [horder, Comparator.sort_swap_eq_of_perm _ hperm, ← hdelimiter,
      splitRecords_joinRecords hfree, splitRecords_joinRecords]
    exact fun record hrecord => hfree record (List.mem_reverse.mp hrecord)

/-- Three numbers, two of them with the same key, from standard input and then in another order
with one of them in a file, sorted in chunks of one record the other way round. -/
theorem written_of_perm_mapped :
    ∃ run other : CompletedRun, run.arguments = ["-n"] ∧
      other.arguments = ["-n", "-r", "--mmap", "--chunk-size=1", "f", "-"] ∧
      run.records = [[57], [48, 57], [49, 48]] ∧ other.records = [[49, 48], [57], [48, 57]] ∧
      ∃ output others, run.written = .ok output ∧ other.written = .ok others ∧
        splitRecords 10 output = (splitRecords 10 others).reverse := by
  let options : CommandLine.Options := {
    reverse := false, numeric := true, foldCase := false, unique := false, stable := false
    zeroTerminated := false, mapped := false, output := none
    bufferSize := 64, maxSize := 0, chunkSize := 1024, files := [] }
  let job : Job := {
    order := { numeric := true }, delimiter := 10, output := none, inputs := []
    settings := { initialSize := 64 }, chunkSize := 1024 }
  have hparse : CommandLine.parse ["-n"] = .ok options := rfl
  have hbuffer : job.settings.build (Disk.empty "") = .ok (Disk.empty "",
      .ok ⟨.heap, .blank, 64, 1, 64, Buffer.defaultMaxSize⟩) := rfl
  have hinputs : inputContents (Disk.empty "") job.sources [57, 10, 48, 57, 10, 49, 48] =
      .ok [[57, 10, 48, 57, 10, 49, 48]] := rfl
  obtain ⟨run, harguments, hoptions, hjob, hrecords⟩ := exists_of_room (Disk.numbered_empty "" _)
    hparse rfl hbuffer hinputs rfl (by unfold Record.Short; decide) (by decide) (by decide)
    (by decide)
  let others : CommandLine.Options := {
    options with reverse := true, mapped := true, chunkSize := 1, files := ["f", "-"] }
  let work : Job := {
    order := { reverse := true, numeric := true }, delimiter := 10, output := none
    inputs := ["f", "-"], settings := { initialSize := 64, kind := .mapped }, chunkSize := 1 }
  obtain ⟨disk, hwrite⟩ : ∃ disk, (Disk.empty "").write "f" [49, 48, 10] = .ok disk := ⟨_, rfl⟩
  have hparse : CommandLine.parse ["-n", "-r", "--mmap", "--chunk-size=1", "f", "-"] =
      .ok others := rfl
  have hinputs : inputContents disk work.sources [57, 10, 48, 57] =
      .ok [[49, 48, 10], [57, 10, 48, 57]] := by
    cases hwrite
    cbv
  obtain ⟨opened, hbuffer⟩ : ∃ opened, work.settings.build disk =
      .ok (opened, .ok ⟨.mapped 1 (.temporary 1), .blank, 64, 1, 64, Buffer.defaultMaxSize⟩) := by
    cases hwrite
    exact ⟨_, rfl⟩
  obtain ⟨other, hother, hothers, -, hpermuted⟩ :=
    exists_of_room ((Disk.numbered_empty "" _).write hwrite) hparse rfl hbuffer hinputs rfl
      (by unfold Record.Short; decide) (by decide) (by decide) (by decide)
  obtain ⟨output, behind, houtput, hbehind, -, hreversed⟩ := @written_of_perm run other
    (by rw [hoptions, hothers]; decide) (by rw [hoptions, hothers]; decide)
    (by rw [hoptions, hothers]) (by rw [hoptions, hothers]) (by rw [hoptions, hothers])
    (by rw [hrecords, hpermuted]; decide)
  rw [hjob, hoptions, hothers] at hreversed
  exact ⟨run, other, harguments, hother, hrecords, hpermuted, output, behind, houtput, hbehind,
    hreversed Bool.false_ne_true⟩

end CompletedRun

end RecordBuffer

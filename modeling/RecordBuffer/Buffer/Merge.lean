import RecordBuffer.Buffer.Chain
import RecordBuffer.Comparator

/-!
# Merging neighbouring runs

Two sorted runs that lie side by side become one in place. The left run is
copied out first, so the merged records never overwrite a record that is still
to be read. A plan says which runs are merged in which order.
-/

namespace RecordBuffer

/-- Merge the runs between three chunk bounds, named by their positions among all bounds. -/
structure MergeStep where
  low : Nat
  middle : Nat
  high : Nat
  deriving DecidableEq, Repr, Inhabited

/-- The merges that turn the chunks between two bounds into one run: those of either half first. -/
def mergePlan (low high : Nat) : List MergeStep :=
  let middle := low + (high - low) / 2
  if low = middle then []
  else mergePlan low middle ++ mergePlan middle high ++ [⟨low, middle, high⟩]
  termination_by high - low

/-- A merge under way. What was merged so far ends at `destination`. -/
structure Merge where
  memory : Memory
  /-- The records of the left run that are still to be placed. -/
  left : Bytes
  /-- Where the records of the right run start that are still to be placed. -/
  right : Nat
  destination : Nat
  deriving Inhabited, Repr

/-- What a step leads to. -/
inductive Merge.Next where
  | finished (memory : Memory)
  | unfinished (merge : Merge)
  deriving Inhabited, Repr

namespace Merge

/-- Place the next record of a merge that ends at `stop`. A left record goes first unless the
right one compares less. What is left of the left run alone is placed at once, and what is left
of the right run alone is in place. -/
def step (compare : Comparator) (stop : Nat) (merge : Merge) : Except Fault Next :=
  let { memory, left, right, destination } := merge
  if stop ≤ destination then .ok (.finished memory)
  else if left = [] then
    if destination = right then .ok (.finished memory)
    else .error (.rightRunMisplaced destination right)
  else if right = stop then
    if left.length = stop - destination then .ok (.finished (memory.write destination left))
    else .error (.leftRunMisfit left.length (stop - destination))
  else
    match Record.split? left with
    | none => .error .outOfBounds
    | some (leftPayload, leftRest) =>
        let leftSize := Record.size leftPayload.length
        let rightLength := memory.payloadLength right
        let rightSize := Record.size rightLength
        let rightPayload := memory.slice (right + Record.headerSize) rightLength
        if stop < right + Record.headerSize ∨ stop < right + rightSize then .error .outOfBounds
        else if compare rightPayload leftPayload = .lt then
          .ok (.unfinished {
            memory := memory.write destination (memory.slice right rightSize)
            left
            right := right + rightSize
            destination := destination + rightSize })
        else if stop < destination + leftSize then .error .outOfBounds
        else
          .ok (.unfinished {
            memory := memory.write destination (Record.encode leftPayload)
            left := leftRest
            right
            destination := destination + leftSize })

/-- A step that does not finish moves the destination, which had not reached the end. -/
theorem step_unfinished {compare : Comparator} {stop : Nat} {merge next : Merge}
    (stepped : merge.step compare stop = .ok (.unfinished next)) :
    merge.destination < stop ∧ merge.destination + Record.headerSize ≤ next.destination := by
  obtain ⟨memory, left, right, destination⟩ := merge
  grind [step, Record.size]

/-- Take steps until the merge is finished. -/
def run (compare : Comparator) (stop : Nat) (merge : Merge) : Except Fault Memory :=
  match _ : merge.step compare stop with
  | .error fault => .error fault
  | .ok (.finished memory) => .ok memory
  | .ok (.unfinished next) => next.run compare stop
  termination_by stop - merge.destination
  decreasing_by
    have moves := step_unfinished ‹merge.step compare stop = _›
    simp only [Record.headerSize] at moves
    omega

end Merge

namespace Buffer

/-- Merge the sorted runs from `low` to `middle` and from `middle` to `high`. -/
def mergeRuns (buffer : Buffer) (compare : Comparator) (low middle high : Nat) :
    Except Fault Buffer :=
  if low = middle ∨ middle = high then .ok buffer
  else do
    let left := buffer.memory.slice low (middle - low)
    let merge : Merge := { memory := buffer.memory, left, right := middle, destination := low }
    return { buffer with memory := ← merge.run compare high }

/-- Carry out a plan, whose positions are looked up among the chunk bounds. -/
def mergeAll (buffer : Buffer) (compare : Comparator) (bounds : Array Nat)
    (plan : List MergeStep) : Except Fault Buffer :=
  plan.foldlM (fun buffer step =>
    buffer.mergeRuns compare (bounds.getD step.low 0) (bounds.getD step.middle 0)
      (bounds.getD step.high 0)) buffer

end Buffer

end RecordBuffer

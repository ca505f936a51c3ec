/-!
# Splitting at a separator

A list is cut at every separator. `join_splitAtEach` says that nothing is lost:
the parts, with a separator behind each but the last, are the list again.
-/

namespace RecordBuffer

variable {α : Type} [DecidableEq α]

/-- The parts in front of each separator, and the part behind the last one. -/
def splitAtEach (separator : α) : List α → List (List α) × List α
  | [] => ([], [])
  | item :: rest =>
      let (closed, last) := splitAtEach separator rest
      if item = separator then ([] :: closed, last)
      else
        match closed with
        | [] => ([], item :: last)
        | part :: parts => ((item :: part) :: parts, last)

theorem join_splitAtEach (separator : α) (items : List α) :
    (splitAtEach separator items).1.flatMap (· ++ [separator]) ++
      (splitAtEach separator items).2 = items := by
  fun_induction splitAtEach separator items <;> simp_all

/-- No part holds a separator. -/
theorem not_mem_of_mem_splitAtEach (separator : α) (items : List α) :
    (∀ part ∈ (splitAtEach separator items).1, separator ∉ part) ∧
      separator ∉ (splitAtEach separator items).2 := by
  fun_induction splitAtEach separator items <;> grind

end RecordBuffer

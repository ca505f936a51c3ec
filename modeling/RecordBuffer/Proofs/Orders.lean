import RecordBuffer.Proofs.StableSort
import RecordBuffer.SortOrder

/-!
# The named orders are total preorders

A named comparator compares keys that are totally ordered. A sort order compares
two of them after one another, perhaps the other way round. So all of them are
total preorders, and sorting by them has one result. Keys may be shared, by
numbers that are rounded alike or by letters of either case, but with the last
resort only copies compare equal.
-/

namespace RecordBuffer

namespace Comparator

instance : Std.TransCmp bytewise :=
  inferInstanceAs (Std.TransCmp (compare : Bytes → Bytes → Ordering))

instance : Std.LawfulEqCmp bytewise :=
  inferInstanceAs (Std.LawfulEqCmp (compare : Bytes → Bytes → Ordering))

instance : Std.TransCmp length :=
  inferInstanceAs (Std.TransCmp (compareOn fun payload : Bytes => payload.length))

instance : Std.TransCmp equal where
  eq_swap := rfl
  isLE_trans _ _ := rfl

instance : Std.TransCmp numeric :=
  inferInstanceAs (Std.TransCmp (compareOn fun payload => (Decimal.leading payload).rounded))

instance : Std.TransCmp foldCase :=
  inferInstanceAs (Std.TransCmp (compareOn fun payload : Bytes => payload.map upperCase))

end Comparator

namespace SortOrder

/-- The comparison that decides where keys are equal. -/
def resort (order : SortOrder) : Comparator :=
  if order.lastResort then Comparator.bytewise else Comparator.equal

instance (order : SortOrder) : Std.TransCmp order.compareKeys := by
  unfold compareKeys
  split
  · infer_instance
  · split <;> infer_instance

instance (order : SortOrder) : Std.TransCmp order.resort := by
  unfold resort
  split <;> infer_instance

theorem compare_eq (order : SortOrder) (left right : Bytes) :
    order.compare left right =
      if order.reverse then (compareLex order.compareKeys order.resort left right).swap
      else compareLex order.compareKeys order.resort left right := by
  unfold compare resort compareLex
  split <;> split <;> rfl

/-- Whatever the flags are, payloads are totally preordered. -/
instance (order : SortOrder) : Std.TransCmp order.compare := by
  by_cases hreverse : order.reverse
  · have hcompare : order.compare =
        fun left right => compareLex order.compareKeys order.resort right left := by
      funext left right
      rw [compare_eq, if_pos hreverse]
      exact Std.OrientedCmp.eq_swap.symm
    rw [hcompare]
    infer_instance
  · have hcompare : order.compare = compareLex order.compareKeys order.resort := by
      funext left right
      rw [compare_eq, if_neg hreverse]
    rw [hcompare]
    infer_instance

/-- Payloads compare equal if nothing that is compared tells them apart. -/
theorem compare_eq_iff (order : SortOrder) {left right : Bytes} :
    order.compare left right = .eq ↔
      order.compareKeys left right = .eq ∧ order.resort left right = .eq := by
  rw [compare_eq]
  split
  next => rw [Ordering.swap_eq_eq, compareLex_eq_eq]
  next => exact compareLex_eq_eq

theorem compare_eq_iff_eq {order : SortOrder} (hresort : order.lastResort) {left right : Bytes} :
    order.compare left right = .eq ↔ left = right := by
  constructor
  · intro hequal
    have hbytes := (order.compare_eq_iff.mp hequal).2
    rw [resort, if_pos hresort] at hbytes
    exact Std.LawfulEqCmp.eq_of_compare hbytes
  · rintro rfl
    exact Std.ReflCmp.compare_self

/-- Whatever the flags and the payloads are, the comparison is reflexive, reverses with its
arguments and is transitive, and payloads that compare equal compare alike with every other. Unless
ties are to stay as they came or to count as duplicates, there are none but between copies. -/
theorem compare_total_preorder (order : SortOrder) (first second third : Bytes) :
    order.compare first first = .eq ∧
      order.compare second first = (order.compare first second).swap ∧
      (order.compare first second ≠ .gt → order.compare second third ≠ .gt →
        order.compare first third ≠ .gt) ∧
      (order.compare first second = .eq →
        order.compare first third = order.compare second third) ∧
      (order.stable = false ∧ order.unique = false →
        (order.compare first second = .eq ↔ first = second)) := by
  refine ⟨Std.ReflCmp.compare_self, Std.OrientedCmp.eq_swap, ?_, Std.TransCmp.congr_left, ?_⟩
  · simp only [← Ordering.isLE_iff_ne_gt]
    exact Std.TransCmp.isLE_trans
  · rintro ⟨hstable, hunique⟩
    have hresort : order.lastResort := by
      rw [lastResort, hstable, hunique]
      rfl
    exact compare_eq_iff_eq hresort

end SortOrder

end RecordBuffer

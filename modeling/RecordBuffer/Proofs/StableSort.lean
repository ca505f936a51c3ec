import RecordBuffer.Comparator

/-!
# Stable sorting of payload lists

A stable sort is determined by its specification: the result is in order, holds
the same payloads, and keeps payloads that compare equal as they came. Merging
stably sorted runs in any tree gives the stable sort of everything, so cutting a
list into chunks first does not show in the result.
-/

namespace RecordBuffer

/-- A list in runs of `size` elements, the last of which may be shorter. -/
def chunksOf {α : Type} (size : Nat) : List α → List (List α)
  | [] => []
  | item :: rest => (item :: rest.take (size - 1)) :: chunksOf size (rest.drop (size - 1))
  termination_by items => items.length
  decreasing_by simp only [List.length_drop, List.length_cons]; omega

theorem flatten_chunksOf {α : Type} (size : Nat) (items : List α) :
    (chunksOf size items).flatten = items := by
  fun_induction chunksOf size items with
  | case1 => rfl
  | case2 item rest ih =>
      rw [List.flatten_cons, ih, List.cons_append, List.take_append_drop]

theorem ne_nil_of_mem_chunksOf {α : Type} {size : Nat} {items chunk : List α}
    (hchunk : chunk ∈ chunksOf size items) : chunk ≠ [] := by
  fun_induction chunksOf size items with
  | case1 => cases hchunk
  | case2 item rest ih =>
      rcases List.mem_cons.mp hchunk with rfl | hchunk
      · exact List.cons_ne_nil _ _
      · exact ih hchunk

namespace Comparator

variable {compare : Comparator}

/-- The payloads of a list that compare equal to a given one. -/
def tied (compare : Comparator) (payload : Bytes) (payloads : List Bytes) : List Bytes :=
  payloads.filter fun other => compare payload other = .eq

/-- What a stable sort of a list of payloads is. -/
structure StableSort (compare : Comparator) (payloads sorted : List Bytes) : Prop where
  ordered : sorted.Pairwise fun left right => compare.le left right
  perm : sorted.Perm payloads
  /-- Payloads that compare equal are in the order in which they came. -/
  ties : ∀ payload, compare.tied payload sorted = compare.tied payload payloads

/-- Merge two lists. The head of the right one goes first only if it compares less. -/
def merge (compare : Comparator) (left right : List Bytes) : List Bytes :=
  List.merge left right fun first second => compare second first != .lt

/-- Merge runs over a balanced tree: those of either half first. -/
def mergeHalves (compare : Comparator) : List (List Bytes) → List Bytes
  | [] => []
  | [run] => run
  | first :: second :: rest =>
      let runs := first :: second :: rest
      compare.merge (compare.mergeHalves (runs.take (runs.length / 2)))
        (compare.mergeHalves (runs.drop (runs.length / 2)))
  termination_by runs => runs.length
  decreasing_by
    · simp only [List.length_take, List.length_cons]; omega
    · simp only [List.length_drop, List.length_cons]; omega

theorem mergeHalves_of_length_le_one (compare : Comparator) {runs : List (List Bytes)}
    (hlength : runs.length ≤ 1) : compare.mergeHalves runs = runs.flatten := by
  match runs with
  | [] => rw [mergeHalves, List.flatten_nil]
  | [run] => rw [mergeHalves, List.flatten_singleton]
  | _ :: _ :: _ => exact absurd hlength (by simp)

theorem mergeHalves_of_two_le_length (compare : Comparator) {runs : List (List Bytes)}
    (hlength : 2 ≤ runs.length) :
    compare.mergeHalves runs =
      compare.merge (compare.mergeHalves (runs.take (runs.length / 2)))
        (compare.mergeHalves (runs.drop (runs.length / 2))) := by
  match runs with
  | [] | [_] => exact absurd hlength (by simp)
  | _ :: _ :: _ => rw [mergeHalves]

/-- Sort in chunks of `size` payloads and merge the chunks. -/
def chunkSort (compare : Comparator) (size : Nat) (payloads : List Bytes) : List Bytes :=
  compare.mergeHalves ((chunksOf size payloads).map compare.sort)

/-! ## Permutations, whatever the comparator -/

theorem sort_perm (compare : Comparator) (payloads : List Bytes) :
    (compare.sort payloads).Perm payloads :=
  List.mergeSort_perm payloads compare.le

theorem merge_perm (compare : Comparator) (left right : List Bytes) :
    (compare.merge left right).Perm (left ++ right) :=
  List.merge_perm_append _

theorem mergeHalves_perm (compare : Comparator) (runs : List (List Bytes)) :
    (compare.mergeHalves runs).Perm runs.flatten := by
  fun_induction mergeHalves compare runs with
  | case1 => exact List.Perm.refl _
  | case2 run => rw [List.flatten_singleton]
  | case3 first second rest runs ihleft ihright =>
      have hwhole := (compare.merge_perm _ _).trans (ihleft.append ihright)
      rwa [← List.flatten_append, List.take_append_drop] at hwhole

theorem flatten_map_sort_perm (compare : Comparator) (chunks : List (List Bytes)) :
    (chunks.map compare.sort).flatten.Perm chunks.flatten := by
  induction chunks with
  | nil => exact List.Perm.refl _
  | cons chunk rest ih =>
      rw [List.map_cons, List.flatten_cons, List.flatten_cons]
      exact (compare.sort_perm chunk).append ih

theorem chunkSort_perm (compare : Comparator) (size : Nat) (payloads : List Bytes) :
    (compare.chunkSort size payloads).Perm payloads := by
  have hchunks := compare.flatten_map_sort_perm (chunksOf size payloads)
  rw [flatten_chunksOf] at hchunks
  exact (compare.mergeHalves_perm _).trans hchunks

/-! ## Stability under a total preorder -/

theorem tied_cons (compare : Comparator) (payload other : Bytes) (rest : List Bytes) :
    compare.tied payload (other :: rest) =
      if compare payload other = .eq then other :: compare.tied payload rest
      else compare.tied payload rest := by
  simp [tied, List.filter_cons]

section Preorder

variable (compare : Comparator) [Std.TransCmp compare]

theorem swap_eq (first second : Bytes) : compare second first = (compare first second).swap :=
  Std.OrientedCmp.eq_swap

theorem le_refl (payload : Bytes) : compare.le payload payload := by
  have hself : compare payload payload = .eq := Std.ReflCmp.compare_self
  rw [le, hself]
  rfl

theorem le_trans (first second third : Bytes) (hfirst : compare.le first second)
    (hsecond : compare.le second third) : compare.le first third :=
  Std.TransCmp.isLE_trans hfirst hsecond

theorem le_total (first second : Bytes) : compare.le first second || compare.le second first := by
  rw [le, le, swap_eq compare first second]
  cases compare first second <;> rfl

/-- What compares equal to a payload may stand on either side of it. -/
theorem eq_iff_le {payload other : Bytes} :
    compare payload other = .eq ↔ compare.le payload other ∧ compare.le other payload := by
  rw [le, le, swap_eq compare payload other]
  cases compare payload other <;> decide

theorem merge_eq (left right : List Bytes) :
    compare.merge left right = List.merge left right compare.le := by
  unfold merge
  congr 1
  funext first second
  rw [le, swap_eq compare first second]
  cases compare first second <;> rfl

/-- A payload less than the least of a list is tied with nothing in it. -/
theorem tied_eq_nil {payload least : Bytes} {rest : List Bytes}
    (hless : ¬ compare.le least payload) (hleast : ∀ other ∈ rest, compare.le least other) :
    compare.tied payload rest = [] := by
  rw [tied, List.filter_eq_nil_iff]
  intro other hother htied
  have hequal := compare.eq_iff_le.mp (of_decide_eq_true htied)
  exact hless (compare.le_trans _ _ _ (hleast other hother) hequal.2)

/-- Merging keeps the ties of the left run in front of those of the right one. -/
theorem tied_merge (payload : Bytes) {left right : List Bytes}
    (hleft : left.Pairwise fun first second => compare.le first second) :
    compare.tied payload (compare.merge left right) =
      compare.tied payload left ++ compare.tied payload right := by
  rw [merge_eq]
  induction left generalizing right with
  | nil => simp [tied]
  | cons first rest ihleft =>
      obtain ⟨hfirst, hrest⟩ := List.pairwise_cons.mp hleft
      induction right with
      | nil => simp [tied]
      | cons second others ihright =>
          rw [List.cons_merge_cons]
          split
          next =>
            rw [tied_cons, tied_cons compare payload first, ihleft hrest]
            split <;> simp
          next hless =>
            rw [tied_cons, ihright, tied_cons compare payload second]
            split
            next htied =>
              -- The right head is less than everything left, so nothing left is tied with it.
              have hpayload : ¬ compare.le first payload := fun hle =>
                hless (compare.le_trans _ _ _ hle (compare.eq_iff_le.mp htied).1)
              have hempty : compare.tied payload (first :: rest) = [] := by
                apply compare.tied_eq_nil hpayload
                intro other hother
                rcases List.mem_cons.mp hother with rfl | hother
                · exact compare.le_refl other
                · exact hfirst other hother
              rw [hempty]
              rfl
            next => rfl

theorem stableSort_sort (payloads : List Bytes) :
    compare.StableSort payloads (compare.sort payloads) where
  ordered := List.pairwise_mergeSort compare.le_trans compare.le_total payloads
  perm := compare.sort_perm payloads
  ties payload := by
    have hordered : (compare.tied payload payloads).Pairwise
        fun left right => compare.le left right := by
      apply List.pairwise_of_forall_mem_list
      intro left hleft right hright
      have hleft := compare.eq_iff_le.mp (of_decide_eq_true (List.mem_filter.mp hleft).2)
      have hright := compare.eq_iff_le.mp (of_decide_eq_true (List.mem_filter.mp hright).2)
      exact compare.le_trans _ _ _ hleft.2 hright.1
    -- An ordered sublist survives the sort, and there are no more ties to be found in the result.
    have hsublist : (compare.tied payload payloads).Sublist (compare.sort payloads) :=
      List.sublist_mergeSort compare.le_trans compare.le_total hordered List.filter_sublist
    have hties := hsublist.filter fun other => compare payload other = .eq
    rw [tied, List.filter_filter] at hties
    simp only [Bool.and_self] at hties
    have hcount := ((compare.sort_perm payloads).filter
      fun other => compare payload other = .eq).length_eq
    exact (hties.eq_of_length hcount.symm).symm

variable {compare}

theorem StableSort.merge {left right leftSorted rightSorted : List Bytes}
    (hleft : compare.StableSort left leftSorted) (hright : compare.StableSort right rightSorted) :
    compare.StableSort (left ++ right) (compare.merge leftSorted rightSorted) where
  ordered := by
    rw [merge_eq]
    exact List.pairwise_merge compare.le_trans compare.le_total _ _ hleft.ordered hright.ordered
  perm := (compare.merge_perm _ _).trans (hleft.perm.append hright.perm)
  ties payload := by
    rw [compare.tied_merge payload hleft.ordered, hleft.ties, hright.ties]
    simp [tied]

/-- The specification leaves no choice. -/
theorem StableSort.unique {payloads sorted other : List Bytes}
    (hsorted : compare.StableSort payloads sorted) (hother : compare.StableSort payloads other) :
    sorted = other := by
  have hperm := hsorted.perm.trans hother.perm.symm
  have hties : ∀ payload, compare.tied payload sorted = compare.tied payload other :=
    fun payload => (hsorted.ties payload).trans (hother.ties payload).symm
  have hleft := hsorted.ordered
  have hright := hother.ordered
  clear hsorted hother
  induction sorted generalizing other with
  | nil => exact (List.nil_perm.mp hperm).symm
  | cons first rest ih =>
      cases other with
      | nil => exact absurd hperm.length_eq (by simp)
      | cons second others =>
          obtain ⟨hfirst, hrest⟩ := List.pairwise_cons.mp hleft
          obtain ⟨hsecond, hothers⟩ := List.pairwise_cons.mp hright
          -- Either head may stand in front of the other, so both lead the same class of ties.
          have hle : compare.le first second := by
            rcases List.mem_cons.mp (hperm.mem_iff.mpr List.mem_cons_self) with heq | hmem
            · exact heq ▸ compare.le_refl _
            · exact hfirst _ hmem
          have hge : compare.le second first := by
            rcases List.mem_cons.mp (hperm.mem_iff.mp List.mem_cons_self) with heq | hmem
            · exact heq ▸ compare.le_refl _
            · exact hsecond _ hmem
          have hheads := hties first
          rw [tied_cons, tied_cons, if_pos Std.ReflCmp.compare_self,
            if_pos (compare.eq_iff_le.mpr ⟨hle, hge⟩)] at hheads
          obtain ⟨rfl, -⟩ := List.cons.inj hheads
          rw [ih hperm.cons_inv ?_ hrest hothers]
          intro payload
          have htails := hties payload
          rw [tied_cons, tied_cons] at htails
          split at htails
          next => exact (List.cons.inj htails).2
          next => exact htails

variable (compare)

/-- Runs that are stable sorts of neighbouring chunks merge into the stable sort of all chunks. -/
theorem stableSort_mergeHalves (chunks runs : List (List Bytes))
    (hruns : runs = chunks.map compare.sort) :
    compare.StableSort chunks.flatten (compare.mergeHalves runs) := by
  fun_induction mergeHalves compare runs generalizing chunks with
  | case1 =>
      obtain rfl := List.map_eq_nil_iff.mp hruns.symm
      simpa [sort] using compare.stableSort_sort []
  | case2 run =>
      obtain ⟨chunk, rfl, rfl⟩ := List.map_eq_singleton_iff.mp hruns.symm
      rw [List.flatten_singleton]
      exact compare.stableSort_sort chunk
  | case3 first second rest runs ihleft ihright =>
      have hleft := ihleft (chunks.take (runs.length / 2)) (by rw [List.map_take, ← hruns])
      have hright := ihright (chunks.drop (runs.length / 2)) (by rw [List.map_drop, ← hruns])
      have hwhole := hleft.merge hright
      rwa [← List.flatten_append, List.take_append_drop] at hwhole

/-- Cutting a list into chunks does not show in the result. -/
theorem chunkSort_eq_sort (size : Nat) (payloads : List Bytes) :
    compare.chunkSort size payloads = compare.sort payloads := by
  have hchunks := compare.stableSort_mergeHalves (chunksOf size payloads) _ rfl
  rw [flatten_chunksOf] at hchunks
  exact hchunks.unique (compare.stableSort_sort payloads)

end Preorder

end Comparator

end RecordBuffer

import RecordBuffer.Proofs.Numerals
import RecordBuffer.SortOrder

/-!
# Numeric order and the order of numbers

Rounding never puts two numbers the wrong way round. Where both are rounded to
multiples of one step, that is so because halves go to the even one on either side.
Where the steps differ, the power of two at which the wider one begins lies between
the numbers, and it is a multiple of both. So numeric order may take numbers for
equal that are not, but never says the opposite.
-/

namespace RecordBuffer.Decimal

/-! ## Rounding is monotone -/

theorem nearestEven_le (numerator denominator : Nat) :
    nearestEven numerator denominator ≤ numerator / denominator + 1 := by
  unfold nearestEven
  have hbit := Nat.mod_lt (numerator / denominator) (show 0 < 2 by decide)
  simp only
  split
  · exact Nat.le_succ _
  · split
    · exact Nat.le_refl _
    · exact Nat.add_le_add_left (Nat.le_of_lt_succ hbit) _

theorem le_nearestEven (numerator denominator : Nat) :
    numerator / denominator ≤ nearestEven numerator denominator := by
  unfold nearestEven
  simp only
  split
  · exact Nat.le_refl _
  · split <;> exact Nat.le_add_right _ _

theorem nearestEven_of_below {numerator denominator : Nat}
    (hbelow : 2 * (numerator % denominator) < denominator) :
    nearestEven numerator denominator = numerator / denominator := by
  unfold nearestEven
  exact if_pos hbelow

theorem nearestEven_of_half {numerator denominator : Nat}
    (hhalf : 2 * (numerator % denominator) = denominator) :
    nearestEven numerator denominator =
      numerator / denominator + numerator / denominator % 2 := by
  unfold nearestEven
  simp [hhalf]

theorem nearestEven_of_above {numerator denominator : Nat}
    (habove : denominator < 2 * (numerator % denominator)) :
    nearestEven numerator denominator = numerator / denominator + 1 := by
  unfold nearestEven
  simp [habove, Nat.lt_asymm habove]

section Monotone

variable {first second denominator other : Nat}

theorem div_le_div_of_mul_le (hdenominator : 0 < denominator) (hother : 0 < other)
    (hle : first * other ≤ second * denominator) : first / denominator ≤ second / other := by
  rw [Nat.le_div_iff_mul_le hother]
  apply Nat.le_of_mul_le_mul_right _ hdenominator
  calc first / denominator * other * denominator
      = first / denominator * denominator * other := Nat.mul_right_comm _ _ _
    _ ≤ first * other := Nat.mul_le_mul_right _ (Nat.div_mul_le_self _ _)
    _ ≤ second * denominator := hle

/-- Of two quotients the larger one is not rounded to less. -/
theorem nearestEven_mono (hdenominator : 0 < denominator) (hother : 0 < other)
    (hle : first * other ≤ second * denominator) :
    nearestEven first denominator ≤ nearestEven second other := by
  have hquotients := div_le_div_of_mul_le hdenominator hother hle
  rcases Nat.lt_or_eq_of_le hquotients with hless | hsame
  · exact (nearestEven_le _ _).trans (Nat.le_trans hless (le_nearestEven _ _))
  -- The whole parts are the same, so the remainders decide.
  have hremainders : 2 * (first % denominator) * other ≤ 2 * (second % other) * denominator := by
    have hfirst := Nat.div_add_mod first denominator
    have hsecond := Nat.div_add_mod second other
    rw [← hfirst, ← hsecond, hsame] at hle
    linarith
  rcases lt_trichotomy (2 * (second % other)) other with hbelow | hhalf | habove
  · have hless : 2 * (first % denominator) < denominator := by
      apply Nat.lt_of_mul_lt_mul_right
      calc 2 * (first % denominator) * other ≤ 2 * (second % other) * denominator := hremainders
        _ < other * denominator := Nat.mul_lt_mul_of_pos_right hbelow hdenominator
        _ = denominator * other := Nat.mul_comm _ _
    rw [nearestEven_of_below hless, nearestEven_of_below hbelow, hsame]
  · rw [hhalf, Nat.mul_comm other denominator] at hremainders
    rw [nearestEven_of_half hhalf]
    rcases Nat.lt_or_eq_of_le (Nat.le_of_mul_le_mul_right hremainders hother) with hless | hequal
    · rw [nearestEven_of_below hless, hsame]
      exact Nat.le_add_right _ _
    · rw [nearestEven_of_half hequal, hsame]
  · rw [nearestEven_of_above habove, ← hsame]
    exact nearestEven_le _ _

/-- Rounding to multiples of a step does not pass one of them. -/
theorem nearestEven_mul_step {step bound : Nat} (hdenominator : 0 < denominator)
    (hstep : 0 < step) (hmultiple : step ∣ bound) :
    (first ≤ bound * denominator → nearestEven first (denominator * step) * step ≤ bound) ∧
      (bound * denominator ≤ first → bound ≤ nearestEven first (denominator * step) * step) := by
  obtain ⟨times, rfl⟩ := hmultiple
  have hpositive := Nat.mul_pos hdenominator hstep
  have hexact := nearestEven_mul times hpositive
  have hbound : step * times * denominator = times * (denominator * step) := by ring
  rw [hbound, Nat.mul_comm step times]
  constructor <;> intro hle <;> apply Nat.mul_le_mul_right <;> rw [← hexact]
  · exact nearestEven_mono hpositive hpositive (Nat.mul_le_mul_right _ hle)
  · exact nearestEven_mono hpositive hpositive (Nat.mul_le_mul_right _ hle)

/-- The spacing divides every power of two from the one on at which it begins. -/
theorem spacing_dvd_pow {whole exponent : Nat} (hdigits : whole.log2 ≤ exponent) :
    spacing whole ∣ 2 ^ exponent := by
  rw [spacing, Nat.one_shiftLeft]
  apply Nat.pow_dvd_pow
  unfold precision
  omega

theorem roundMagnitude_mono (hdenominator : 0 < denominator) (hother : 0 < other)
    (hle : first * other ≤ second * denominator) :
    roundMagnitude first denominator ≤ roundMagnitude second other := by
  have hscaled : first <<< unitExponent * other ≤ second <<< unitExponent * denominator := by
    rw [Nat.shiftLeft_eq, Nat.shiftLeft_eq, Nat.mul_right_comm, Nat.mul_right_comm second]
    exact Nat.mul_le_mul_right _ hle
  unfold roundMagnitude
  simp only
  generalize first <<< unitExponent = first at hscaled
  generalize second <<< unitExponent = second at hscaled
  apply min_le_min_right
  have hdigits : (first / denominator).log2 ≤ (second / other).log2 := by
    rw [Nat.log2_eq_log_two, Nat.log2_eq_log_two]
    exact Nat.log_mono_right (div_le_div_of_mul_le hdenominator hother hscaled)
  rcases Nat.lt_or_eq_of_le hdigits with hless | hsame
  · calc nearestEven first (denominator * spacing (first / denominator)) *
          spacing (first / denominator)
        ≤ 2 ^ (second / other).log2 := by
          apply (nearestEven_mul_step hdenominator (spacing_pos _) (spacing_dvd_pow hdigits)).1
          apply Nat.le_of_lt
          rw [← Nat.div_lt_iff_lt_mul hdenominator]
          exact Nat.lt_log2_self.trans_le (Nat.pow_le_pow_right (by decide) hless)
      _ ≤ nearestEven second (other * spacing (second / other)) * spacing (second / other) := by
          apply (nearestEven_mul_step hother (spacing_pos _) (spacing_dvd_pow (Nat.le_refl _))).2
          rw [← Nat.le_div_iff_mul_le hother]
          apply Nat.log2_self_le
          intro hzero
          rw [hzero] at hless
          exact absurd hless (Nat.not_lt_zero _)
  · have hspacing : spacing (first / denominator) = spacing (second / other) := by
      rw [spacing, spacing, hsame]
    rw [hspacing]
    have hstep := spacing_pos (second / other)
    generalize spacing (second / other) = step at hstep
    apply Nat.mul_le_mul_right
    apply nearestEven_mono (Nat.mul_pos hdenominator hstep) (Nat.mul_pos hother hstep)
    rw [← Nat.mul_assoc, ← Nat.mul_assoc]
    exact Nat.mul_le_mul_right _ hscaled

end Monotone

/-- The magnitudes of numbers are rounded in their order. -/
theorem roundMagnitude_mono_of_abs {first second : Decimal} (hle : |first.value| ≤ |second.value|) :
    roundMagnitude first.numerator (Nat.pow 10 first.places) ≤
      roundMagnitude second.numerator (Nat.pow 10 second.places) := by
  apply roundMagnitude_mono (Nat.pow_pos (by decide)) (Nat.pow_pos (by decide))
  rw [abs_value, abs_value, div_le_div_iff₀ (by positivity) (by positivity)] at hle
  exact_mod_cast hle

theorem value_eq_abs (number : Decimal) :
    number.value = if number.negative then -|number.value| else |number.value| := by
  rw [abs_value, value]
  split
  · rw [neg_one_mul]
  · rw [one_mul]

theorem roundMagnitude_of_value_eq_zero {number : Decimal} (hzero : number.value = 0) :
    roundMagnitude number.numerator (Nat.pow 10 number.places) = 0 := by
  have hnumerator : number.numerator = 0 := by
    have habs := abs_value number
    rw [hzero, abs_zero, eq_comm, div_eq_zero_iff] at habs
    exact_mod_cast habs.resolve_right (by positivity)
  have hfinite : 0 < infinity := by
    rw [infinity, Nat.one_shiftLeft]
    positivity
  apply roundMagnitude_eq (Nat.pow_pos (by decide)) _ (Nat.dvd_zero _) hfinite
  rw [hnumerator, Nat.zero_mul, Nat.zero_mul]

/-- Rounding is monotone, through zero and up to infinity. -/
theorem rounded_mono {first second : Decimal} (hle : first.value ≤ second.value) :
    first.rounded ≤ second.rounded := by
  have hfirst := first.value_eq_abs
  have hsecond := second.value_eq_abs
  have hpositive := abs_nonneg first.value
  have hother := abs_nonneg second.value
  unfold rounded
  simp only
  cases hnegative : first.negative <;> cases hminus : second.negative <;>
    simp only [hnegative, hminus, Bool.false_eq_true, if_true, if_false] at hfirst hsecond ⊢
  · apply Int.ofNat_le.mpr
    apply roundMagnitude_mono_of_abs
    rwa [← hfirst, ← hsecond]
  · -- Nothing is at least zero and less, so both are zero.
    have hnone : first.value = 0 := by linarith
    have hnothing : second.value = 0 := by linarith
    rw [roundMagnitude_of_value_eq_zero hnone, roundMagnitude_of_value_eq_zero hnothing]
    exact Int.le_refl _
  · exact Int.le_trans (Int.neg_nonpos_of_nonneg (Int.natCast_nonneg _)) (Int.natCast_nonneg _)
  · apply Int.neg_le_neg
    apply Int.ofNat_le.mpr
    apply roundMagnitude_mono_of_abs
    linarith

/-- A whole number up to `2 ^ 53` is its own key. -/
theorem rounded_of_whole {number : Decimal} {whole : ℤ} (hvalue : number.value = whole)
    (hwhole : |whole| ≤ 2 ^ precision) : number.rounded = whole * 2 ^ unitExponent := by
  have hnumerator : number.numerator = whole.natAbs * 10 ^ number.places := by
    have habs : (number.numerator : ℚ) / 10 ^ number.places = whole.natAbs := by
      rw [← abs_value, hvalue, Nat.cast_natAbs, Int.cast_abs]
    rw [div_eq_iff (by positivity)] at habs
    exact_mod_cast habs
  have hbound : whole.natAbs ≤ 2 ^ precision := by
    rw [Int.abs_eq_natAbs] at hwhole
    exact_mod_cast hwhole
  have hrounded := rounded_of_representable (representable_of_whole hnumerator hbound)
  rw [hvalue] at hrounded
  exact_mod_cast hrounded

end RecordBuffer.Decimal

namespace RecordBuffer.Comparator

open Decimal

theorem numeric_eq_of_value_eq {left right : Bytes}
    (hvalue : (leading left).value = (leading right).value) : numeric left right = .eq := by
  apply compare_eq_iff_eq.mpr
  exact Int.le_antisymm (rounded_mono hvalue.le) (rounded_mono hvalue.ge)

/-- Every payload denotes one number, that of the longest numeral it starts with. Payloads that
denote the same number compare equal, and one that denotes less than another never compares greater.
Between whole numbers up to `2 ^ 53` numeric order is the order of numbers. -/
theorem numeric_of_values (left right : Bytes) :
    ∃ number other : ℚ, (∀ value, Denotes left value ↔ value = number) ∧
      (∀ value, Denotes right value ↔ value = other) ∧
      (number = other → numeric left right = .eq) ∧
      (number < other → numeric left right ≠ .gt) ∧
      ∀ whole more : ℤ, number = whole → other = more → |whole| ≤ 2 ^ 53 → |more| ≤ 2 ^ 53 →
        numeric left right = compare number other := by
  refine ⟨_, _, fun _ => denotes_iff, fun _ => denotes_iff, numeric_eq_of_value_eq, ?_, ?_⟩
  · intro hless
    exact compare_le_iff_le.mpr (rounded_mono hless.le)
  · intro whole more hwhole hmore hbound hlimit
    have hscale : (0 : ℤ) < 2 ^ unitExponent := by positivity
    rw [numeric, rounded_of_whole hwhole hbound, rounded_of_whole hmore hlimit, hwhole, hmore]
    rcases lt_trichotomy whole more with hless | rfl | hmore
    · rw [compare_lt_iff_lt.mpr (mul_lt_mul_of_pos_right hless hscale),
        compare_lt_iff_lt.mpr (by exact_mod_cast hless)]
    · rw [compare_eq_iff_eq.mpr rfl, compare_eq_iff_eq.mpr rfl]
    · rw [compare_gt_iff_gt.mpr (mul_lt_mul_of_pos_right hmore hscale),
        compare_gt_iff_gt.mpr (by exact_mod_cast hmore)]

end RecordBuffer.Comparator

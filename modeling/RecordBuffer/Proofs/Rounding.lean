import Mathlib
import RecordBuffer.Decimal.Rounding

/-!
# What rounding keeps

The keys of numeric order are rounded, so numbers that differ may share a key.
Those that 53 binary digits can hold are their own keys, and all whole numbers up
to `2 ^ 53` are among them. Decimal fractions are not, but rounding changes a
number by a small part of it only, less than what numbers with 15 decimal digits
are apart.
-/

namespace RecordBuffer.Decimal

/-- The exact value of a number. -/
def value (number : Decimal) : ℚ :=
  (if number.negative then -1 else 1) * (number.numerator / 10 ^ number.places)

/-- A number is below infinity, and in units it has `precision` binary digits at most, with zeros
behind them. -/
def Representable (number : Decimal) : Prop :=
  ∃ significand exponent : Nat, significand < 2 ^ precision ∧
    significand * 2 ^ exponent < infinity ∧
    |number.value| * 2 ^ unitExponent = significand * 2 ^ exponent

theorem abs_value (number : Decimal) :
    |number.value| = number.numerator / 10 ^ number.places := by
  have hmagnitude : (0 : ℚ) ≤ number.numerator / 10 ^ number.places := by positivity
  unfold value
  split
  · rw [neg_one_mul, abs_neg, abs_of_nonneg hmagnitude]
  · rw [one_mul, abs_of_nonneg hmagnitude]

theorem abs_value_eq_whole {number : Decimal} {whole : Nat}
    (hnumerator : number.numerator = whole * 10 ^ number.places) : |number.value| = whole := by
  have hpower : (10 : ℚ) ^ number.places ≠ 0 := by positivity
  rw [abs_value, hnumerator]
  push_cast
  exact mul_div_cancel_right₀ _ hpower

theorem nearestEven_mul (quotient : Nat) {denominator : Nat} (hpos : 0 < denominator) :
    nearestEven (quotient * denominator) denominator = quotient := by
  unfold nearestEven
  simp only [Nat.mul_mod_left, Nat.mul_div_cancel _ hpos]
  rw [if_pos (by omega)]

theorem spacing_pos (whole : Nat) : 0 < spacing whole := by
  rw [spacing, Nat.one_shiftLeft]
  positivity

/-- Numbers with few binary digits are among those that their own spacing leaves. -/
theorem spacing_dvd {significand : Nat} (hsignificand : significand < 2 ^ precision)
    (exponent : Nat) : spacing (significand * 2 ^ exponent) ∣ significand * 2 ^ exponent := by
  rcases Nat.eq_zero_or_pos significand with rfl | hpos
  · rw [Nat.zero_mul]
    exact Nat.dvd_zero _
  have hwhole : significand * 2 ^ exponent ≠ 0 := by positivity
  have hbelow : significand * 2 ^ exponent < 2 ^ (precision + exponent) := by
    rw [Nat.pow_add]
    exact Nat.mul_lt_mul_of_pos_right hsignificand (by positivity)
  have hdigits := (Nat.log2_lt hwhole).mpr hbelow
  rw [spacing, Nat.one_shiftLeft]
  exact Dvd.dvd.mul_left (Nat.pow_dvd_pow 2 (by omega)) significand

/-- A whole number of units that its spacing divides is rounded to itself. -/
theorem roundMagnitude_eq {numerator denominator whole : Nat} (hpos : 0 < denominator)
    (hscaled : numerator * 2 ^ unitExponent = whole * denominator)
    (hspacing : spacing whole ∣ whole) (hfinite : whole < infinity) :
    roundMagnitude numerator denominator = whole := by
  obtain ⟨steps, hsteps⟩ := hspacing
  have hshift : numerator <<< unitExponent = whole * denominator := by
    rw [Nat.shiftLeft_eq, hscaled]
  have hquotient : numerator <<< unitExponent / denominator = whole := by
    rw [hshift, Nat.mul_div_cancel _ hpos]
  have hrounded : nearestEven (numerator <<< unitExponent) (denominator * spacing whole) =
      steps := by
    have hproduct : numerator <<< unitExponent = steps * (denominator * spacing whole) := by
      rw [hshift]
      nth_rewrite 1 [hsteps]
      ring
    rw [hproduct]
    exact nearestEven_mul steps (Nat.mul_pos hpos (spacing_pos whole))
  unfold roundMagnitude
  simp only [hquotient, hrounded]
  rw [Nat.mul_comm, ← hsteps]
  exact Nat.min_eq_left (Nat.le_of_lt hfinite)

/-- What can be held is not rounded. -/
theorem rounded_of_representable {number : Decimal} (hholds : number.Representable) :
    (number.rounded : ℚ) = number.value * 2 ^ unitExponent := by
  obtain ⟨significand, exponent, hsignificand, hfinite, hvalue⟩ := hholds
  have hpower : (10 : ℚ) ^ number.places ≠ 0 := by positivity
  have hscaled : number.numerator * 2 ^ unitExponent =
      significand * 2 ^ exponent * Nat.pow 10 number.places := by
    rw [abs_value, div_mul_eq_mul_div, div_eq_iff hpower] at hvalue
    exact_mod_cast hvalue
  have hmagnitude : roundMagnitude number.numerator (Nat.pow 10 number.places) =
      significand * 2 ^ exponent :=
    roundMagnitude_eq (Nat.pow_pos (by decide)) hscaled (spacing_dvd hsignificand exponent) hfinite
  rw [abs_value] at hvalue
  unfold rounded value
  simp only [hmagnitude]
  split <;> push_cast <;> rw [← hvalue] <;> ring

/-- Numbers that can be held share a key only if they are equal. -/
theorem value_eq_of_rounded_eq {first second : Decimal} (hfirst : first.Representable)
    (hsecond : second.Representable) (hrounded : first.rounded = second.rounded) :
    first.value = second.value := by
  have hunits : (2 : ℚ) ^ unitExponent ≠ 0 := by positivity
  apply mul_right_cancel₀ hunits
  rw [← rounded_of_representable hfirst, ← rounded_of_representable hsecond, hrounded]

theorem representable_of_whole {number : Decimal} {whole : Nat}
    (hnumerator : number.numerator = whole * 10 ^ number.places) (hwhole : whole ≤ 2 ^ precision) :
    number.Representable := by
  have hvalue := abs_value_eq_whole hnumerator
  have hinfinity : infinity = 2 ^ precision * 2 ^ (1024 + unitExponent - precision) := by
    rw [infinity, Nat.one_shiftLeft, ← Nat.pow_add, Nat.add_sub_of_le (by decide)]
  rcases Nat.lt_or_eq_of_le hwhole with hless | rfl
  · refine ⟨whole, unitExponent, hless, ?_, by rw [hvalue]⟩
    rw [hinfinity]
    exact Nat.mul_lt_mul_of_lt_of_le hless (Nat.pow_le_pow_right (by decide) (by decide))
      (by positivity)
  · -- One digit more than can be held, but the last one is zero.
    refine ⟨2 ^ (precision - 1), unitExponent + 1, Nat.pow_lt_pow_right (by decide) (by decide),
      ?_, ?_⟩
    · rw [hinfinity]
      exact Nat.mul_lt_mul_of_lt_of_le (Nat.pow_lt_pow_right (by decide) (by decide))
        (Nat.pow_le_pow_right (by decide) (by decide)) (by positivity)
    · rw [hvalue]
      push_cast
      rw [pow_succ, precision]
      ring

theorem nearestEven_error (numerator : Nat) {denominator : Nat} (hpos : 0 < denominator) :
    |(nearestEven numerator denominator : ℚ) - numerator / denominator| ≤ 1 / 2 := by
  have hparts : (numerator : ℚ) =
      denominator * (numerator / denominator : Nat) + (numerator % denominator : Nat) := by
    exact_mod_cast (Nat.div_add_mod numerator denominator).symm
  have hless : ((numerator % denominator : Nat) : ℚ) < denominator := by
    exact_mod_cast Nat.mod_lt numerator hpos
  have hdenominator : (0 : ℚ) < denominator := by exact_mod_cast hpos
  suffices hscaled : |(nearestEven numerator denominator : ℚ) * denominator - numerator| ≤
      denominator / 2 by
    rw [sub_div' hdenominator.ne', abs_div, abs_of_pos hdenominator, div_le_iff₀ hdenominator]
    linarith
  rw [abs_le]
  unfold nearestEven
  simp only
  generalize numerator / denominator = quotient at *
  generalize numerator % denominator = remainder at *
  split_ifs with hdown hup
  · have hdown : (2 : ℚ) * remainder < denominator := by exact_mod_cast hdown
    have hzero : (0 : ℚ) ≤ remainder := by positivity
    constructor <;> rw [hparts] <;> linarith
  · have hup : (denominator : ℚ) < 2 * remainder := by exact_mod_cast hup
    push_cast
    constructor <;> rw [hparts] <;> linarith
  · -- Halfway, so either neighbour will do.
    have hhalf : (2 : ℚ) * remainder = denominator := by
      exact_mod_cast (show 2 * remainder = denominator by omega)
    rcases Nat.mod_two_eq_zero_or_one quotient with heven | hodd
    · rw [heven]
      push_cast
      constructor <;> rw [hparts] <;> linarith
    · rw [hodd]
      push_cast
      constructor <;> rw [hparts] <;> linarith

/-- The spacing is a unit, or it is small against the magnitude. -/
theorem spacing_mul_le (whole : Nat) :
    spacing whole * 2 ^ (precision - 1) ≤ whole + 2 ^ (precision - 1) := by
  rw [spacing, Nat.one_shiftLeft]
  by_cases hsmall : whole.log2 + 1 ≤ precision
  · rw [Nat.sub_eq_zero_of_le hsmall]
    omega
  · have hwhole : whole ≠ 0 := by
      rintro rfl
      exact hsmall (by decide)
    have hdigits : whole.log2 + 1 - precision + (precision - 1) = whole.log2 := by
      have : 1 ≤ precision := by decide
      omega
    rw [← Nat.pow_add, hdigits]
    exact Nat.le_add_right_of_le (Nat.log2_self_le hwhole)

/-- Below infinity a magnitude and its rounding are half the spacing apart at most. -/
theorem roundMagnitude_error {numerator denominator : Nat} {units : ℚ} (hpos : 0 < denominator)
    (hunits : (numerator : ℚ) * 2 ^ unitExponent = units * denominator)
    (hfinite : units ≤ infinity) :
    |(roundMagnitude numerator denominator : ℚ) - units| ≤
      spacing (numerator <<< unitExponent / denominator) / 2 := by
  have hscaled : ((numerator <<< unitExponent : Nat) : ℚ) = units * denominator := by
    rw [Nat.shiftLeft_eq, ← hunits]
    push_cast
    rfl
  unfold roundMagnitude
  simp only
  generalize numerator <<< unitExponent = scaled at hscaled
  have hpositive := spacing_pos (scaled / denominator)
  generalize spacing (scaled / denominator) = step at hpositive
  have hstep : (0 : ℚ) < step := by exact_mod_cast hpositive
  have hsteps : |(nearestEven scaled (denominator * step) : ℚ) - units / step| ≤ 1 / 2 := by
    have hdenominator : (0 : ℚ) < denominator := by exact_mod_cast hpos
    have hquotient : (scaled : ℚ) / (denominator * step : Nat) = units / step := by
      rw [hscaled]
      push_cast
      field_simp
    exact hquotient ▸ nearestEven_error scaled (Nat.mul_pos hpos hpositive)
  generalize nearestEven scaled (denominator * step) = steps at hsteps
  have hproduct : ((steps * step : Nat) : ℚ) - units = (steps - units / step) * step := by
    push_cast
    field_simp
  have huncapped : |((steps * step : Nat) : ℚ) - units| ≤ step / 2 := by
    rw [hproduct, abs_mul, abs_of_pos hstep]
    linarith [mul_le_mul_of_nonneg_right hsteps hstep.le]
  -- Infinity is on the way from what is above it to the magnitude.
  rcases Nat.le_total (steps * step) infinity with hbelow | habove
  · rwa [Nat.min_eq_left hbelow]
  · have habove' : (infinity : ℚ) ≤ (steps * step : Nat) := by exact_mod_cast habove
    rw [Nat.min_eq_right habove, abs_of_nonneg (by linarith)]
    linarith [le_abs_self (((steps * step : Nat) : ℚ) - units)]

/-- Rounding changes a magnitude by one part in `2 ^ precision` at most, or by half a unit. -/
theorem roundMagnitude_relative_error {numerator denominator : Nat} {units : ℚ}
    (hpos : 0 < denominator) (hunits : (numerator : ℚ) * 2 ^ unitExponent = units * denominator)
    (hfinite : units ≤ infinity) :
    |(roundMagnitude numerator denominator : ℚ) - units| * 2 ^ precision ≤
      units + 2 ^ (precision - 1) := by
  have herror := roundMagnitude_error hpos hunits hfinite
  set whole := numerator <<< unitExponent / denominator with hdivided
  have hwhole : (whole : ℚ) ≤ units := by
    have hdenominator : (0 : ℚ) < denominator := by exact_mod_cast hpos
    have hquotient : (whole : ℚ) ≤ (numerator <<< unitExponent : Nat) / denominator :=
      Nat.cast_div_le
    rwa [Nat.shiftLeft_eq, Nat.cast_mul, Nat.cast_pow, Nat.cast_ofNat, hunits,
      mul_div_cancel_right₀ _ hdenominator.ne'] at hquotient
  have hspacing : (spacing whole : ℚ) * 2 ^ (precision - 1) ≤ whole + 2 ^ (precision - 1) := by
    exact_mod_cast spacing_mul_le whole
  have hpower : (2 : ℚ) ^ precision = 2 * 2 ^ (precision - 1) := (pow_succ' _ _)
  calc |(roundMagnitude numerator denominator : ℚ) - units| * 2 ^ precision
      ≤ spacing whole / 2 * (2 * 2 ^ (precision - 1)) := by
        rw [hpower]
        exact mul_le_mul_of_nonneg_right herror (by positivity)
    _ = spacing whole * 2 ^ (precision - 1) := by ring
    _ ≤ units + 2 ^ (precision - 1) := by linarith

/-- Rounding changes a number by one part in `2 ^ precision` at most, or by half a unit. -/
theorem rounded_error (number : Decimal)
    (hfinite : |number.value| * 2 ^ unitExponent ≤ infinity) :
    |(number.rounded : ℚ) - number.value * 2 ^ unitExponent| * 2 ^ precision ≤
      |number.value| * 2 ^ unitExponent + 2 ^ (precision - 1) := by
  have hpower : (10 : ℚ) ^ number.places ≠ 0 := by positivity
  have hunits : (number.numerator : ℚ) * 2 ^ unitExponent =
      |number.value| * 2 ^ unitExponent * (Nat.pow 10 number.places : Nat) := by
    rw [abs_value, Nat.pow_eq]
    push_cast
    rw [mul_right_comm, div_mul_cancel₀ _ hpower]
  have hsigned : |(number.rounded : ℚ) - number.value * 2 ^ unitExponent| =
      |(roundMagnitude number.numerator (Nat.pow 10 number.places) : ℚ) -
        |number.value| * 2 ^ unitExponent| := by
    rw [abs_value]
    unfold rounded value
    simp only
    split
    · rw [← abs_neg]
      push_cast
      congr 1
      ring
    · push_cast
      rw [one_mul]
  rw [hsigned]
  exact roundMagnitude_relative_error (Nat.pow_pos (by decide)) hunits hfinite

/-- Numbers with the same key differ by one part in `2 ^ precision` of both at most, or by a
unit. -/
theorem sub_le_of_rounded_eq {first second : Decimal}
    (hfirst : |first.value| * 2 ^ unitExponent ≤ infinity)
    (hsecond : |second.value| * 2 ^ unitExponent ≤ infinity)
    (hrounded : first.rounded = second.rounded) :
    |first.value - second.value| * 2 ^ precision ≤
      |first.value| + |second.value| + 2 ^ precision / 2 ^ unitExponent := by
  have hfirst_error := rounded_error first hfirst
  have hsecond_error := rounded_error second hsecond
  rw [hrounded, abs_sub_comm] at hfirst_error
  have hunits : (0 : ℚ) < 2 ^ unitExponent := by positivity
  have hpower : (2 : ℚ) ^ precision = 2 * 2 ^ (precision - 1) := (pow_succ' _ _)
  refine le_of_mul_le_mul_right ?_ hunits
  calc |first.value - second.value| * 2 ^ precision * 2 ^ unitExponent
      = |first.value * 2 ^ unitExponent - second.value * 2 ^ unitExponent| * 2 ^ precision := by
        rw [← sub_mul, abs_mul, abs_of_pos hunits, mul_right_comm]
    _ ≤ (|first.value * 2 ^ unitExponent - second.rounded| +
          |second.rounded - second.value * 2 ^ unitExponent|) * 2 ^ precision :=
        mul_le_mul_of_nonneg_right (abs_sub_le _ _ _) (by positivity)
    _ ≤ (|first.value| + |second.value|) * 2 ^ unitExponent + 2 ^ precision := by
        linarith
    _ = (|first.value| + |second.value| + 2 ^ precision / 2 ^ unitExponent) *
          2 ^ unitExponent := by
        rw [add_mul _ (2 ^ precision / _), div_mul_cancel₀ _ hunits.ne']

/-- Places behind the point at which decimal digits are told apart. -/
def finestPlace : Nat := 323

/-- A number is below infinity and a multiple of `10 ^ -finestPlace`, and it has 15 decimal digits
at most, with zeros behind them. -/
def Short (number : Decimal) : Prop :=
  ∃ (significand : ℤ) (exponent : Nat), |significand| < 10 ^ 15 ∧
    |number.value| * 2 ^ unitExponent < infinity ∧
    number.value * 10 ^ finestPlace = significand * 10 ^ exponent

/-- Multiples of a step that differ are a step apart. -/
theorem le_abs_sub_of_multiples {step first second : ℚ} {times others : ℤ}
    (hfirst : first = times * step) (hsecond : second = others * step) (hne : first ≠ second) :
    |step| ≤ |first - second| := by
  have hcounts : times - others ≠ 0 := by
    intro hsame
    rw [hfirst, hsecond, Int.sub_eq_zero.mp hsame] at hne
    exact hne rfl
  have hone : (1 : ℚ) ≤ |(times : ℚ) - others| := by
    exact_mod_cast Int.one_le_abs hcounts
  rw [hfirst, hsecond, ← sub_mul, abs_mul]
  exact le_mul_of_one_le_left (abs_nonneg _) hone

theorem abs_le_of_digits {value : ℚ} {significand : ℤ} {exponent : Nat}
    (hdigits : |significand| < 10 ^ 15)
    (hvalue : value * 10 ^ finestPlace = significand * 10 ^ exponent) :
    |value| * 10 ^ finestPlace ≤ 10 ^ 15 * 10 ^ exponent := by
  have hbound : |(significand : ℚ)| ≤ 10 ^ 15 := by exact_mod_cast hdigits.le
  have hscale : (0 : ℚ) < 10 ^ finestPlace := by positivity
  have hstep : (0 : ℚ) < 10 ^ exponent := by positivity
  have habs := congrArg abs hvalue
  rw [abs_mul, abs_mul, abs_of_pos hscale, abs_of_pos hstep] at habs
  rw [habs]
  exact mul_le_mul_of_nonneg_right hbound hstep.le

/-- A unit is less than half of the finest decimal step. -/
theorem unit_le_finest :
    2 ^ precision / 2 ^ unitExponent * (10 : ℚ) ^ finestPlace ≤ 2 ^ (precision - 1) := by
  have hscales : (10 : ℚ) ^ finestPlace * 2 ≤ 2 ^ unitExponent := by
    exact_mod_cast (show 10 ^ finestPlace * 2 ≤ 2 ^ unitExponent by decide +kernel)
  have hpower : (2 : ℚ) ^ precision = 2 * 2 ^ (precision - 1) := (pow_succ' _ _)
  rw [div_mul_eq_mul_div, div_le_iff₀ (by positivity), hpower]
  calc 2 * 2 ^ (precision - 1) * (10 : ℚ) ^ finestPlace
      = 2 ^ (precision - 1) * (10 ^ finestPlace * 2) := by ring
    _ ≤ 2 ^ (precision - 1) * 2 ^ unitExponent :=
        mul_le_mul_of_nonneg_left hscales (by positivity)

/-- Numbers with 15 digits share a key only if they are equal. -/
theorem value_eq_of_rounded_eq_of_short {first second : Decimal} (hfirst : first.Short)
    (hsecond : second.Short) (hrounded : first.rounded = second.rounded) :
    first.value = second.value := by
  obtain ⟨significand, exponent, hdigits, hfinite, hvalue⟩ := hfirst
  obtain ⟨significand', exponent', hdigits', hfinite', hvalue'⟩ := hsecond
  wlog horder : exponent ≤ exponent'
    generalizing first second significand exponent significand' exponent'
  · exact (this hrounded.symm significand' exponent' hdigits' hfinite' hvalue' significand
      exponent hdigits hfinite hvalue (Nat.le_of_not_le horder)).symm
  by_contra hne
  have hscale : (0 : ℚ) < 10 ^ finestPlace := by positivity
  have hstep : (1 : ℚ) ≤ 10 ^ exponent := one_le_pow₀ (by norm_num)
  have hgap : (10 : ℚ) ^ exponent ≤ |first.value - second.value| * 10 ^ finestPlace := by
    have hmultiple : second.value * 10 ^ finestPlace =
        (significand' * 10 ^ (exponent' - exponent) : ℤ) * 10 ^ exponent := by
      rw [hvalue']
      push_cast
      rw [mul_assoc, ← pow_add, Nat.sub_add_cancel horder]
    have hdiffer : first.value * 10 ^ finestPlace ≠ second.value * 10 ^ finestPlace :=
      fun hsame => hne (mul_right_cancel₀ hscale.ne' hsame)
    have hapart := le_abs_sub_of_multiples hvalue hmultiple hdiffer
    rwa [abs_of_nonneg (by linarith), ← sub_mul, abs_mul, abs_of_pos hscale] at hapart
  have hmagnitude := abs_le_of_digits hdigits hvalue
  have hother : |second.value| * 10 ^ finestPlace ≤
      (|first.value| + |first.value - second.value|) * 10 ^ finestPlace := by
    refine mul_le_mul_of_nonneg_right ?_ hscale.le
    rw [abs_sub_comm]
    linarith [abs_sub_abs_le_abs_sub second.value first.value]
  have hnear := mul_le_mul_of_nonneg_right (sub_le_of_rounded_eq hfinite.le hfinite'.le hrounded)
    hscale.le
  -- The step is too large a part of the first number for what both lost in rounding.
  rw [add_mul, add_mul, mul_right_comm] at hnear
  rw [add_mul] at hother
  have hhalf : (2 : ℚ) ^ (precision - 1) = 4503599627370496 := by norm_num [precision]
  have hfull : (2 : ℚ) ^ precision = 2 * 4503599627370496 := by norm_num [precision]
  have hunit := unit_le_finest
  rw [hhalf] at hunit
  rw [hfull] at hnear hunit
  linarith

theorem short_of_numerator_lt {number : Decimal} (hdigits : number.numerator < 10 ^ 15)
    (hplaces : number.places ≤ finestPlace) : number.Short := by
  have hfinite : |number.value| * 2 ^ unitExponent < infinity := by
    have hwhole : |number.value| ≤ number.numerator := by
      rw [abs_value]
      exact div_le_self (by positivity) (one_le_pow₀ (by norm_num))
    have hbound : (number.numerator : ℚ) < 10 ^ 15 := by exact_mod_cast hdigits
    have hinfinity : (10 : ℚ) ^ 15 * 2 ^ unitExponent ≤ infinity := by
      exact_mod_cast (show 10 ^ 15 * 2 ^ unitExponent ≤ infinity by decide +kernel)
    refine lt_of_lt_of_le ?_ hinfinity
    exact mul_lt_mul_of_pos_right (lt_of_le_of_lt hwhole hbound) (by positivity)
  have hscale : (10 : ℚ) ^ finestPlace =
      10 ^ number.places * 10 ^ (finestPlace - number.places) := by
    rw [← pow_add, Nat.add_sub_cancel' hplaces]
  have hpower : (10 : ℚ) ^ number.places ≠ 0 := by positivity
  refine ⟨(if number.negative then -1 else 1) * number.numerator, finestPlace - number.places,
    ?_, hfinite, ?_⟩
  · have hsign : |(if number.negative then -1 else 1 : ℤ)| = 1 := by split <;> rfl
    rw [abs_mul, hsign, one_mul]
    exact_mod_cast hdigits
  · rw [hscale, value]
    push_cast
    field_simp

end RecordBuffer.Decimal

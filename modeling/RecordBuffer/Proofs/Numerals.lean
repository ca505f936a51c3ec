import RecordBuffer.Proofs.Rounding

/-!
# The number that a payload denotes

A numeral is a text of blanks, a sign, digits, and a point with digits behind it,
all of them optional, and its value is read off its parts. A payload denotes the
value of the longest numeral that it starts with. There is exactly one such value,
and it is that of the leading number: cutting the payload part by part never stops
in front of a byte that would make the numeral longer.
-/

namespace RecordBuffer

/-- The parts of a decimal number as it is written. -/
structure Numeral where
  blanks : Bytes
  sign : Option UInt8
  whole : Bytes
  /-- What stands behind the point; none if there is no point. -/
  fraction : Option Bytes
  blanks_form : ∀ byte ∈ blanks, byte = 0x20 ∨ byte = 0x09
  sign_form : ∀ byte ∈ sign, byte = 0x2b ∨ byte = 0x2d
  whole_form : ∀ byte ∈ whole, 0x30 ≤ byte ∧ byte ≤ 0x39
  fraction_form : ∀ digits ∈ fraction, ∀ byte ∈ digits, 0x30 ≤ byte ∧ byte ≤ 0x39

namespace Numeral

/-- The number that ASCII digits stand for in positional notation. -/
def positional (digits : Bytes) : Nat :=
  Nat.ofDigits 10 (digits.map fun digit => digit.toNat - 0x30).reverse

theorem positional_append (first second : Bytes) :
    positional (first ++ second) =
      positional first * 10 ^ second.length + positional second := by
  simp only [positional, List.map_append, List.reverse_append, Nat.ofDigits_append,
    List.length_reverse, List.length_map]
  ring

/-- The point and the digits behind it. -/
def pointed : Option Bytes → Bytes
  | none => []
  | some digits => 0x2e :: digits

/-- The parts one after another. -/
def text (numeral : Numeral) : Bytes :=
  numeral.blanks ++ numeral.sign.toList ++ numeral.whole ++ pointed numeral.fraction

/-- The exact value. Parts without digits count as zero. -/
def value (numeral : Numeral) : ℚ :=
  let digits := numeral.fraction.getD []
  (if numeral.sign = some 0x2d then -1 else 1) *
    (positional numeral.whole + positional digits / 10 ^ digits.length)

/-- A payload starts with a numeral, and with no longer one. -/
structure Longest (numeral : Numeral) (payload : Bytes) : Prop where
  starts : numeral.text <+: payload
  longest : ∀ other : Numeral, other.text <+: payload → other.text.length ≤ numeral.text.length

end Numeral

/-- A payload denotes the value of the longest numeral that it starts with. -/
def Denotes (payload : Bytes) (value : ℚ) : Prop :=
  ∃ numeral : Numeral, numeral.Longest payload ∧ numeral.value = value

namespace Decimal

theorem isBlank_iff {byte : UInt8} : isBlank byte = true ↔ byte = 0x20 ∨ byte = 0x09 := by
  simp [isBlank]

theorem isDigit_iff {byte : UInt8} : isDigit byte = true ↔ 0x30 ≤ byte ∧ byte ≤ 0x39 := by
  simp [isDigit]

theorem ofDigits_eq (digits : Bytes) : ofDigits digits = Numeral.positional digits := by
  induction digits using List.reverseRecOn with
  | nil => rfl
  | append_singleton digits digit ih =>
      rw [Numeral.positional, List.map_append, List.reverse_append, ofDigits, List.foldl_append]
      simp only [List.map_cons, List.map_nil, List.reverse_singleton, List.singleton_append,
        List.foldl_cons, List.foldl_nil, Nat.ofDigits_cons]
      rw [← Numeral.positional, ← ih, ofDigits]
      ring

/-- A run of bytes with a property is cut off where the next byte does not have it. -/
theorem cut_append {property : UInt8 → Bool} {front rest : Bytes}
    (hfront : ∀ byte ∈ front, property byte = true)
    (hrest : ∀ byte ∈ rest.head?, property byte = false) :
    (front ++ rest).takeWhile property = front ∧ (front ++ rest).dropWhile property = rest := by
  rw [List.takeWhile_append_of_pos hfront, List.dropWhile_append_of_pos hfront]
  cases rest with
  | nil => simp
  | cons byte rest => simp [hrest byte rfl]

end Decimal

namespace Numeral

open Decimal

variable {numeral : Numeral} {payload rest : Bytes} {byte : UInt8}

/-! ## The byte behind the longest numeral -/

/-- With the byte behind it, the longest numeral is no numeral. -/
theorem Longest.text_ne (hlongest : numeral.Longest (numeral.text ++ byte :: rest))
    (other : Numeral) : other.text ≠ numeral.text ++ [byte] := by
  intro htext
  have hstarts : other.text <+: numeral.text ++ byte :: rest :=
    ⟨rest, by simp [htext]⟩
  have hlength := hlongest.longest other hstarts
  simp [htext] at hlength

theorem Longest.not_digit (hlongest : numeral.Longest (numeral.text ++ byte :: rest)) :
    isDigit byte = false := by
  rw [Bool.eq_false_iff]
  intro hbyte
  have hdigit := isDigit_iff.mp hbyte
  obtain ⟨blanks, sign, whole, fraction, hblanks, hsign, hwhole, hfraction⟩ := numeral
  cases fraction with
  | none =>
      have hlonger : ∀ other ∈ whole ++ [byte], 0x30 ≤ other ∧ other ≤ 0x39 := by
        simpa [or_imp, forall_and, hdigit] using hwhole
      apply hlongest.text_ne ⟨blanks, sign, whole ++ [byte], none, hblanks, hsign, hlonger, nofun⟩
      simp [text, pointed]
  | some digits =>
      have hlonger : ∀ more ∈ some (digits ++ [byte]), ∀ other ∈ more,
          0x30 ≤ other ∧ other ≤ 0x39 := by
        simpa [or_imp, forall_and, hdigit] using hfraction
      apply hlongest.text_ne ⟨blanks, sign, whole, some (digits ++ [byte]), hblanks, hsign, hwhole,
        hlonger⟩
      simp [text, pointed]

theorem Longest.not_point (hlongest : numeral.Longest (numeral.text ++ byte :: rest))
    (hfraction : numeral.fraction = none) : byte ≠ 0x2e := by
  rintro rfl
  apply hlongest.text_ne { numeral with fraction := some [], fraction_form := by simp }
  simp [text, pointed, hfraction]

/-- What may only come first is not behind a numeral that has nothing else yet. -/
theorem Longest.not_first (hlongest : numeral.Longest (numeral.text ++ byte :: rest))
    (hsign : numeral.sign = none) (hwhole : numeral.whole = [])
    (hfraction : numeral.fraction = none) :
    isBlank byte = false ∧ byte ≠ 0x2b ∧ byte ≠ 0x2d := by
  have hno_sign : ¬ (byte = 0x2b ∨ byte = 0x2d) := by
    intro hbyte
    apply hlongest.text_ne { numeral with sign := some byte, sign_form := by simpa using hbyte }
    simp [text, pointed, hsign, hwhole, hfraction]
  refine ⟨?_, not_or.mp hno_sign⟩
  rw [Bool.eq_false_iff]
  intro hbyte
  have hblanks : ∀ other ∈ numeral.blanks ++ [byte], other = 0x20 ∨ other = 0x09 := by
    intro other hother
    rcases List.mem_append.mp hother with hblank | hlast
    · exact numeral.blanks_form other hblank
    · rw [List.mem_singleton.mp hlast]
      exact isBlank_iff.mp hbyte
  apply hlongest.text_ne { numeral with blanks := numeral.blanks ++ [byte], blanks_form := hblanks }
  simp [text, pointed, hsign, hwhole, hfraction]

/-! ## The parts that are cut off -/

section Parts

variable (hlongest : numeral.Longest (numeral.text ++ rest))

include hlongest

theorem Longest.head_pointed :
    ∀ byte ∈ (pointed numeral.fraction ++ rest).head?, isDigit byte = false := by
  intro byte hhead
  cases hfraction : numeral.fraction with
  | some digits =>
      obtain rfl : 0x2e = byte := by simpa [hfraction, pointed] using hhead
      rfl
  | none =>
      cases rest with
      | nil => simp [hfraction, pointed] at hhead
      | cons first rest =>
          obtain rfl : first = byte := by simpa [hfraction, pointed] using hhead
          exact hlongest.not_digit

theorem Longest.fractionDigits_eq :
    fractionDigits (pointed numeral.fraction ++ rest) = numeral.fraction.getD [] := by
  cases hfraction : numeral.fraction with
  | some digits =>
      have hdigits : ∀ byte ∈ digits, isDigit byte = true := fun byte hbyte =>
        isDigit_iff.mpr (numeral.fraction_form digits hfraction byte hbyte)
      apply (cut_append hdigits _).1
      intro byte hhead
      cases rest with
      | nil => cases hhead
      | cons first rest =>
          cases hhead
          exact hlongest.not_digit
  | none =>
      cases rest with
      | nil => rfl
      | cons first rest =>
          have hpoint := hlongest.not_point hfraction
          simp only [pointed, List.nil_append, Option.getD_none]
          unfold fractionDigits
          split
          next heq => exact absurd (List.cons.inj heq).1 hpoint
          next => rfl

/-- Behind the blanks, if there is no sign, comes nothing that may only come first. -/
theorem Longest.head_unsigned (hsign : numeral.sign = none) :
    ∀ byte ∈ (numeral.whole ++ (pointed numeral.fraction ++ rest)).head?,
      isBlank byte = false ∧ byte ≠ 0x2b ∧ byte ≠ 0x2d := by
  intro byte hhead
  cases hwhole : numeral.whole with
  | cons digit digits =>
      obtain rfl : digit = byte := by simpa [hwhole] using hhead
      have hdigit := (numeral.whole_form digit (by simp [hwhole])).1
      refine ⟨?_, ?_, ?_⟩
      · rw [Bool.eq_false_iff]
        intro hblank
        rcases isBlank_iff.mp hblank with rfl | rfl <;> exact absurd hdigit (by decide)
      · rintro rfl
        exact absurd hdigit (by decide)
      · rintro rfl
        exact absurd hdigit (by decide)
  | nil =>
      cases hfraction : numeral.fraction with
      | some digits =>
          obtain rfl : 0x2e = byte := by simpa [hwhole, hfraction, pointed] using hhead
          decide
      | none =>
          cases rest with
          | nil => simp [hwhole, hfraction, pointed] at hhead
          | cons first rest =>
              obtain rfl : first = byte := by simpa [hwhole, hfraction, pointed] using hhead
              exact hlongest.not_first hsign hwhole hfraction

theorem Longest.splitSign_eq :
    splitSign (numeral.sign.toList ++ (numeral.whole ++ (pointed numeral.fraction ++ rest))) =
      (decide (numeral.sign = some 0x2d),
        numeral.whole ++ (pointed numeral.fraction ++ rest)) := by
  cases hsign : numeral.sign with
  | some byte => rcases numeral.sign_form byte hsign with rfl | rfl <;> rfl
  | none =>
      have hhead := hlongest.head_unsigned hsign
      generalize numeral.whole ++ (pointed numeral.fraction ++ rest) = unsigned at hhead
      simp only [Option.toList_none, List.nil_append]
      unfold splitSign
      split
      next => exact absurd rfl (hhead _ rfl).2.2
      next => exact absurd rfl (hhead _ rfl).2.1
      next => rfl

theorem Longest.head_signed :
    ∀ byte ∈ (numeral.sign.toList ++
        (numeral.whole ++ (pointed numeral.fraction ++ rest))).head?, isBlank byte = false := by
  intro byte hhead
  cases hsign : numeral.sign with
  | some first =>
      obtain rfl : first = byte := by simpa [hsign] using hhead
      rcases numeral.sign_form first hsign with rfl | rfl <;> rfl
  | none =>
      rw [hsign] at hhead
      exact (hlongest.head_unsigned hsign byte hhead).1

end Parts

theorem Longest.leading_eq (hlongest : numeral.Longest payload) :
    leading payload =
      ⟨decide (numeral.sign = some 0x2d), ofDigits (numeral.whole ++ numeral.fraction.getD []),
        (numeral.fraction.getD []).length⟩ := by
  obtain ⟨rest, rfl⟩ := hlongest.starts
  have hblanks : ∀ byte ∈ numeral.blanks, isBlank byte = true := fun byte hbyte =>
    isBlank_iff.mpr (numeral.blanks_form byte hbyte)
  have hdigits : ∀ byte ∈ numeral.whole, isDigit byte = true := fun byte hbyte =>
    isDigit_iff.mpr (numeral.whole_form byte hbyte)
  obtain ⟨hwhole, hpointed⟩ := cut_append hdigits hlongest.head_pointed
  unfold leading
  simp only [text, List.append_assoc, (cut_append hblanks hlongest.head_signed).2,
    hlongest.splitSign_eq, hwhole, hpointed, hlongest.fractionDigits_eq]

/-- The leading number has the value of the longest numeral. -/
theorem Longest.value_eq (hlongest : numeral.Longest payload) :
    numeral.value = (leading payload).value := by
  rw [hlongest.leading_eq, Decimal.value, value, ofDigits_eq, positional_append]
  have hpower : (10 : ℚ) ^ (numeral.fraction.getD []).length ≠ 0 := by positivity
  simp only [decide_eq_true_eq]
  push_cast
  rw [add_div, mul_div_cancel_right₀ _ hpower]

theorem exists_longest (payload : Bytes) : ∃ numeral : Numeral, numeral.Longest payload := by
  let Reaches (length : Nat) : Prop :=
    ∃ numeral : Numeral, numeral.text <+: payload ∧ numeral.text.length = length
  classical
  have hempty : Reaches 0 :=
    ⟨⟨[], none, [], none, nofun, nofun, nofun, nofun⟩, List.nil_prefix, rfl⟩
  obtain ⟨numeral, hstarts, hlength⟩ := Nat.findGreatest_spec (Nat.zero_le payload.length) hempty
  refine ⟨numeral, hstarts, fun other hother => ?_⟩
  rw [hlength]
  exact Nat.le_findGreatest hother.length_le ⟨other, hother, rfl⟩

end Numeral

/-- Every payload denotes one number, which is the leading one. -/
theorem denotes_iff {payload : Bytes} {value : ℚ} :
    Denotes payload value ↔ value = (Decimal.leading payload).value := by
  constructor
  · rintro ⟨numeral, hlongest, rfl⟩
    exact hlongest.value_eq
  · rintro rfl
    obtain ⟨numeral, hlongest⟩ := Numeral.exists_longest payload
    exact ⟨numeral, hlongest, hlongest.value_eq⟩

/-- A half below zero, with a tab in front and a second point behind. -/
example : Denotes [0x09, 0x2d, 0x2e, 0x35, 0x2e] (-1 / 2) := by
  have hleading : Decimal.leading [0x09, 0x2d, 0x2e, 0x35, 0x2e] = ⟨true, 5, 1⟩ := by decide
  rw [denotes_iff, hleading]
  norm_num [Decimal.value]

end RecordBuffer

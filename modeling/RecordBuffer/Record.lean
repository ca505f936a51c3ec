import RecordBuffer.Fault
import RecordBuffer.Limits
import RecordBuffer.Memory

/-!
# Length-prefixed records

A record is a header of four bytes, the length of its payload with the most
significant byte first, followed by the payload. Records are packed back to
back. `split?_encode_append` says that an encoding can be told from whatever
follows it.
-/

namespace RecordBuffer.Record

/-- Bytes in front of every payload. -/
def headerSize : Nat := 4

/-- Bytes that a record with a payload of the given length occupies. -/
def size (length : Nat) : Nat := headerSize + length

/-- The size of a record, if it is a size at all. -/
def checkedSize (length : Nat) : Except Fault Nat :=
  if Limits.maxSize < size length then .error .sizeOverflow else .ok (size length)

/-- The number written with four digits of base 256. -/
def ofDigits (a b c d : UInt8) : Nat :=
  ((a.toNat * 256 + b.toNat) * 256 + c.toNat) * 256 + d.toNat

/-- The header for a payload of the given length, which has to be below `Limits.payloadBound`. -/
def header (length : Nat) : Bytes :=
  [.ofNat (length / 0x1000000), .ofNat (length / 0x10000), .ofNat (length / 0x100), .ofNat length]

/-- A payload as a record. -/
def encode (payload : Bytes) : Bytes := header payload.length ++ payload

/-- Payloads as records packed back to back. -/
def encodeAll (payloads : List Bytes) : Bytes := payloads.flatMap encode

/-- The payload length that a string of bytes declares at its start. -/
def length? : Bytes → Option Nat
  | a :: b :: c :: d :: _ => some (ofDigits a b c d)
  | _ => none

/-- The payload of the record that a string of bytes starts with, and the bytes behind it. -/
def split? : Bytes → Option (Bytes × Bytes)
  | a :: b :: c :: d :: rest =>
      let length := ofDigits a b c d
      let payload := rest.take length
      if payload.length = length then some (payload, rest.drop length) else none
  | _ => none

/-- The payload of the record that a string of bytes starts with. -/
def payload? (data : Bytes) : Option Bytes := (split? data).map Prod.fst

/-- The whole record that a string of bytes starts with. -/
def raw? (data : Bytes) : Option Bytes :=
  (payload? data).map fun payload => data.take (size payload.length)

/-- Replace the first bytes of a string by the header for a payload length. A length without
a header is refused before a string too short for one. -/
def putHeader (target : Bytes) (length : Nat) : Except Fault Bytes :=
  if Limits.payloadBound ≤ length then .error (.payloadTooLong length)
  else if target.length < headerSize then .error .outOfBounds
  else .ok (header length ++ target.drop headerSize)

theorem ofDigits_lt (a b c d : UInt8) : ofDigits a b c d < Limits.payloadBound := by
  have := a.toNat_lt; have := b.toNat_lt; have := c.toNat_lt; have := d.toNat_lt
  simp only [ofDigits, Limits.payloadBound]
  omega

theorem checkedSize_of_le {length : Nat} (hword : size length ≤ Limits.maxSize) :
    checkedSize length = .ok (size length) :=
  if_neg (Nat.not_lt_of_le hword)

theorem checkedSize_eq_ok {length result : Nat} (hsized : checkedSize length = .ok result) :
    size length = result := by
  unfold checkedSize at hsized
  split at hsized
  next => cases hsized
  next => exact Except.ok.inj hsized

/-- The size of a record is a size wherever its payload has a header. -/
theorem size_le_of_short {length : Nat} (hshort : length < Limits.payloadBound) :
    size length ≤ Limits.maxSize := by
  simp only [size, headerSize, Limits.payloadBound, Limits.maxSize] at hshort ⊢
  omega

theorem checkedSize_of_short {length : Nat} (hshort : length < Limits.payloadBound) :
    checkedSize length = .ok (size length) :=
  checkedSize_of_le (size_le_of_short hshort)

/-- The header of every length below the bound declares that length. -/
theorem length?_header_append {length : Nat} (bounded : length < Limits.payloadBound)
    (rest : Bytes) : length? (header length ++ rest) = some length := by
  simp only [Limits.payloadBound] at bounded
  simp [header, length?, ofDigits]
  omega

@[simp]
theorem length_header (length : Nat) : (header length).length = headerSize := rfl

@[simp]
theorem length_encode (payload : Bytes) :
    (encode payload).length = size payload.length := by
  simp [encode, size]

/-- A record is split off whatever follows it. -/
theorem split?_encode_append {payload : Bytes}
    (bounded : payload.length < Limits.payloadBound) (rest : Bytes) :
    split? (encode payload ++ rest) = some (payload, rest) := by
  have declared := length?_header_append bounded (payload ++ rest)
  simp only [header, length?, List.cons_append, Option.some.injEq] at declared
  simp only [encode, header, List.cons_append, List.nil_append, split?, declared]
  simp

/-- Four bytes are the header for the length that they declare. -/
theorem header_ofDigits (a b c d : UInt8) : header (ofDigits a b c d) = [a, b, c, d] := by
  have := a.toNat_lt; have := b.toNat_lt; have := c.toNat_lt; have := d.toNat_lt
  simp only [header, ofDigits, List.cons.injEq, and_true]
  refine ⟨?_, ?_, ?_, ?_⟩ <;> apply UInt8.toNat_inj.mp <;> simp <;> omega

/-- What is split off is a record, and nothing else is taken. -/
theorem eq_encode_append_of_split? {data payload rest : Bytes}
    (read : split? data = some (payload, rest)) : data = encode payload ++ rest := by
  match data with
  | [] | [_] | [_, _] | [_, _, _] => simp [split?] at read
  | a :: b :: c :: d :: tail =>
      simp only [split?] at read
      split at read
      next whole =>
        obtain ⟨rfl, rfl⟩ := Prod.mk.inj (Option.some.inj read)
        simp [encode, whole, header_ofDigits]
      next => simp at read

end RecordBuffer.Record

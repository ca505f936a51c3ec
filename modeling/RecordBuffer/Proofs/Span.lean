import RecordBuffer.Memory

/-!
# Spans of memory

A change to memory is described by the span that it may touch and by the bytes
that lie in a span afterwards. Everything else about memory is framing: what
holds on a span survives every change outside it.
-/

namespace RecordBuffer.Memory

variable {memory before after : Memory}

/-- Nothing outside the span from `start` to `stop` differs. -/
def SameOutside (before after : Memory) (start stop : Nat) : Prop :=
  ∀ address, address < start ∨ stop ≤ address → after.get address = before.get address

/-- A string of bytes lies at an address. -/
def Holds (memory : Memory) (start : Nat) (bytes : Bytes) : Prop :=
  memory.slice start bytes.length = bytes

namespace SameOutside

theorem refl (memory : Memory) (start stop : Nat) : SameOutside memory memory start stop :=
  fun _ _ => rfl

theorem trans {middle : Memory} {start stop : Nat} (hfirst : SameOutside before middle start stop)
    (hsecond : SameOutside middle after start stop) : SameOutside before after start stop :=
  fun address haddress => (hsecond address haddress).trans (hfirst address haddress)

theorem mono {start stop low high : Nat} (hsame : SameOutside before after low high)
    (hlow : start ≤ low) (hhigh : high ≤ stop) : SameOutside before after start stop := by
  intro address haddress
  apply hsame
  omega

theorem slice {start stop : Nat} (hsame : SameOutside before after start stop) {other count : Nat}
    (hdisjoint : other + count ≤ start ∨ stop ≤ other) :
    after.slice other count = before.slice other count := by
  apply slice_congr
  intro address hlow hhigh
  apply hsame
  omega

theorem holds {start stop other : Nat} {bytes : Bytes} (hsame : SameOutside before after start stop)
    (hdisjoint : other + bytes.length ≤ start ∨ stop ≤ other) (hholds : before.Holds other bytes) :
    after.Holds other bytes := by
  rw [Holds, hsame.slice hdisjoint]
  exact hholds

end SameOutside

/-- A write touches the span of the bytes that it puts. -/
theorem sameOutside_write (memory : Memory) (start : Nat) (bytes : Bytes) :
    SameOutside memory (memory.write start bytes) start (start + bytes.length) := by
  intro address haddress
  rw [get_write]
  split
  next hstart =>
    have hpast : bytes.length ≤ address - start := by omega
    rw [List.getD_eq_getElem?_getD, List.getElem?_eq_none hpast, Option.getD_none]
  next => rfl

theorem holds_write (memory : Memory) (start : Nat) (bytes : Bytes) :
    (memory.write start bytes).Holds start bytes :=
  slice_write memory start bytes

@[simp]
theorem holds_nil (memory : Memory) (start : Nat) : memory.Holds start [] := rfl

/-- Memories that hold the same bytes agree on their span. -/
theorem Holds.get_eq {left right : Memory} {start address : Nat} {bytes : Bytes}
    (hleft : left.Holds start bytes) (hright : right.Holds start bytes) (hlow : start ≤ address)
    (hhigh : address < start + bytes.length) : left.get address = right.get address := by
  obtain ⟨gap, rfl⟩ := Nat.exists_eq_add_of_le hlow
  have hgap : gap < bytes.length := by omega
  have hslices : left.slice start bytes.length = right.slice start bytes.length :=
    hleft.trans hright.symm
  have hbyte := congrArg (fun slice => slice[gap]?) hslices
  simpa [slice, hgap] using hbyte

theorem holds_append {start : Nat} {left right : Bytes} :
    memory.Holds start (left ++ right) ↔
      memory.Holds start left ∧ memory.Holds (start + left.length) right := by
  rw [Holds, List.length_append, slice_add]
  constructor
  · intro heq
    exact List.append_inj heq (length_slice memory start left.length)
  · rintro ⟨hleft, hright⟩
    rw [hleft, hright]

end RecordBuffer.Memory

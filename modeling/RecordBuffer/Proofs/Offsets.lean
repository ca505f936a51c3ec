import RecordBuffer.Proofs.Sizes

/-!
# Offsets that stay

Whatever is added to a buffer takes the span that starts at the cursor, and the
next one takes the span behind it. Growth on the way moves none of the bytes
below the cursor, so an offset that was handed out leads to the same bytes for as
long as bytes are only added, and a span may be filled at any time.
-/

namespace RecordBuffer

/-- Spans side by side, from one offset to another. -/
def Adjacent (stop : Nat) : Nat → List Span → Prop
  | start, [] => start = stop
  | start, span :: rest => span.start = start ∧ Adjacent stop span.stop rest

namespace Adjacent

variable {start stop : Nat} {spans : List Span}

theorem le (hadjacent : Adjacent stop start spans) : start ≤ stop := by
  induction spans generalizing start with
  | nil => exact Nat.le_of_eq hadjacent
  | cons span rest ih =>
      obtain ⟨rfl, hrest⟩ := hadjacent
      exact Nat.le_trans (Nat.le_add_right _ _) (ih hrest)

theorem bounds (hadjacent : Adjacent stop start spans) {span : Span} (hspan : span ∈ spans) :
    start ≤ span.start ∧ span.stop ≤ stop := by
  induction spans generalizing start with
  | nil => cases hspan
  | cons first rest ih =>
      obtain ⟨rfl, hrest⟩ := hadjacent
      rcases List.mem_cons.mp hspan with rfl | hspan
      · exact ⟨Nat.le_refl _, hrest.le⟩
      · obtain ⟨hlow, hhigh⟩ := ih hrest hspan
        exact ⟨Nat.le_trans (Nat.le_add_right _ _) hlow, hhigh⟩

/-- No two of the spans overlap. -/
theorem pairwise (hadjacent : Adjacent stop start spans) :
    spans.Pairwise fun first second => first.stop ≤ second.start := by
  induction spans generalizing start with
  | nil => exact List.Pairwise.nil
  | cons span rest ih =>
      obtain ⟨-, hrest⟩ := hadjacent
      exact List.pairwise_cons.mpr ⟨fun other hother => (hrest.bounds hother).1, ih hrest⟩

end Adjacent

namespace Buffer

variable {buffer after : Buffer} {operations : List Operation}
  {replies : List (Except StorageError Reply)}

/-- Operations carried out in order, and the spans that they take one by one. -/
inductive TakesAll :
    Buffer → List Operation → List (Except StorageError Reply) → List Span → Buffer → Prop where
  | nil (buffer : Buffer) : TakesAll buffer [] [] [] buffer
  | cons {before middle after : Buffer} {operation : Operation} {operations : List Operation}
      {reply : Except StorageError Reply} {replies : List (Except StorageError Reply)}
      {span : Span} {spans : List Span} (performed : before.perform operation = .ok (middle, reply))
      (first : before.Takes operation reply span) (moved : middle.cursor = span.stop)
      (rest : TakesAll middle operations replies spans after) :
      TakesAll before (operation :: operations) (reply :: replies) (span :: spans) after

theorem TakesAll.adjacent {spans : List Span}
    (htakes : TakesAll buffer operations replies spans after) :
    Adjacent after.cursor buffer.cursor spans := by
  induction htakes with
  | nil => rfl
  | cons _ hfirst hmoved _ ih => exact ⟨hfirst.start_eq, hmoved ▸ ih⟩

/-- What a run takes is all that it touches. -/
theorem performAll_takes (hwell : buffer.WellFormed)
    (hadds : ∀ operation ∈ operations, operation.adds)
    (hrun : buffer.performAll operations = .ok (after, replies)) :
    ∃ spans count, TakesAll buffer operations replies spans after ∧
      buffer.Advanced after count := by
  induction operations generalizing buffer replies with
  | nil =>
      cases hrun
      exact ⟨[], 0, .nil _, Advanced.refl hwell⟩
  | cons operation rest ih =>
      obtain ⟨middle, reply, others, hstep, hrest, rfl⟩ := performAll_cons.mp hrun
      obtain ⟨hfirst, hothers⟩ := List.forall_mem_cons.mp hadds
      obtain ⟨span, htakes, hadvanced⟩ := perform_takes hwell hfirst hstep
      obtain ⟨spans, count, hspans, hbehind⟩ := ih hadvanced.wellFormed hothers hrest
      have hmoved : middle.cursor = span.stop := by
        rw [hadvanced.cursor_eq, Span.stop, htakes.start_eq]
      exact ⟨span :: spans, _, .cons hstep htakes hmoved hspans, hadvanced.trans hbehind⟩

/-- What is put into a span below the cursor is found there for as long as bytes are only added. -/
theorem readSpan_of_writeSpan (hwell : buffer.WellFormed) {span : Span} {bytes : Bytes}
    (hbelow : span.stop ≤ buffer.cursor) (hbytes : bytes.length = span.count) :
    ∃ written, buffer.writeSpan bytes span.start = .ok written ∧
      ∀ operations later replies, (∀ operation ∈ operations, operation.adds) →
        written.performAll operations = .ok (later, replies) →
        later.readSpan span.count span.start = .ok bytes := by
  have hcapacity := hwell.cursor_le_capacity
  have hstop : span.start + bytes.length ≤ buffer.cursor := hbytes ▸ hbelow
  refine ⟨buffer.overwrite span.start bytes,
    bind_eq_ok.mpr ⟨(), if_pos (Nat.le_trans hstop hcapacity), rfl⟩, ?_⟩
  intro operations later replies hadds hrun
  have hwritten := overwrite_evolved hwell (Nat.le_trans hstop hcapacity)
  obtain ⟨-, count, -, hadvanced⟩ := performAll_takes hwritten.wellFormed hadds hrun
  have hholds := hadvanced.holds hstop (Memory.holds_write buffer.memory span.start bytes)
  have hroom := Nat.le_trans (Nat.le_trans hstop hcapacity)
    (Nat.le_trans hwritten.capacity_le hadvanced.capacity_le)
  rw [← hbytes]
  exact bind_eq_ok.mpr ⟨(), if_pos hroom, congrArg Except.ok hholds⟩

/-- Adding to a buffer leaves every byte below the cursor as it was, whatever put it there and
however often the capacity grows. Every operation takes the span at the cursor, and the offset in
its reply is where that starts. The spans lie side by side from the old cursor to the new one, so no
two of them overlap, and a string of bytes put into one of them is read back from the same offset
after any further additions. -/
theorem offsets_survive_growth (hreached : Session.Reached buffer)
    (hadds : ∀ operation ∈ operations, operation.adds)
    (hrun : buffer.performAll operations = .ok (after, replies)) :
    (∀ address < buffer.cursor, after.memory.get address = buffer.memory.get address) ∧
    ∃ spans, TakesAll buffer operations replies spans after ∧
      Adjacent after.cursor buffer.cursor spans ∧
      (spans.Pairwise fun first second => first.stop ≤ second.start) ∧
      ∀ span ∈ spans, buffer.cursor ≤ span.start ∧ span.stop ≤ after.cursor ∧
        ∀ bytes : Bytes, bytes.length = span.count →
          ∃ written, after.writeSpan bytes span.start = .ok written ∧
            ∀ others later otherReplies, (∀ operation ∈ others, operation.adds) →
              written.performAll others = .ok (later, otherReplies) →
              later.readSpan span.count span.start = .ok bytes := by
  obtain ⟨disk, hsound⟩ := hreached.sound
  obtain ⟨spans, count, htakes, hadvanced⟩ := performAll_takes hsound.wellFormed hadds hrun
  have hadjacent := htakes.adjacent
  refine ⟨hadvanced.kept, spans, htakes, hadjacent, hadjacent.pairwise, fun span hspan => ?_⟩
  obtain ⟨hlow, hhigh⟩ := hadjacent.bounds hspan
  exact ⟨hlow, hhigh, fun bytes hbytes =>
    readSpan_of_writeSpan hadvanced.wellFormed hhigh hbytes⟩

/-- Room for sixteen bytes is handed out behind three, which makes the capacity grow. The sixteen are
filled in behind the next record, and outlast another growth. -/
theorem offsets_survive_growth_behind_three_bytes :
    let buffer : Buffer := ⟨.heap, Memory.blank.write 1 [1, 2, 3], 8, 4, 8, 256⟩
    let late : Bytes := List.replicate 16 7
    ∃ after replies written later, Session.Reached buffer ∧
      buffer.performAll [.advance 16, .appendRecord [9]] = .ok (after, replies) ∧
      after.cursor = 25 ∧ after.capacity = 32 ∧ after.memory.get 3 = buffer.memory.get 3 ∧
      after.writeSpan late 4 = .ok written ∧
      written.performAll [.append (List.replicate 40 0)] = .ok (later, [.ok (.count 40)]) ∧
      later.readSpan 16 4 = .ok late := by
  intro buffer late
  have hreached : Session.Reached buffer :=
    .intro (.create (Disk.empty "") 8 256 .heap (by decide) rfl)
      (.single (.operate (.append [1, 2, 3]) (.reply (.count 3)) rfl)) rfl
  let written : Buffer := ⟨.heap, (((Memory.blank.write 1 [1, 2, 3]).truncate 4).write 20
    (Record.header 1)).write 24 [9], 32, 25, 32, 256⟩
  have hrun : buffer.performAll [.advance 16, .appendRecord [9]] =
      .ok (written, [.ok (.count 4), .ok (.count 20)]) := rfl
  obtain ⟨hkept, spans, htakes, -, -, hspans⟩ :=
    offsets_survive_growth hreached (by decide) hrun
  obtain ⟨-, -, hwrite⟩ := hspans ⟨4, 16⟩ (by
    cases htakes with
    | cons _ hfirst _ _ => cases hfirst; exact List.mem_cons_self)
  obtain ⟨filled, hfilled, hlater⟩ := hwrite late rfl
  cases hfilled
  exact ⟨written, _, _, _, hreached, hrun, rfl, rfl, hkept 3 (by decide), rfl, rfl,
    hlater [.append (List.replicate 40 0)] _ _ (by decide) rfl⟩

end Buffer

end RecordBuffer

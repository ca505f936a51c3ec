import Mathlib
import RecordBuffer.Proofs.Making
import RecordBuffer.Proofs.Upkeep
import RecordBuffer.Session

/-!
# Sizes stay in order

A buffer and its disk are followed from the making of the buffer through any
number of operations, while something else may change the disk around the
buffer's file. The cursor stays below the capacity and the capacity below the
maximum size, the backing is as large as the capacity, and so words of 64 bits
never wrap around when room is made.
-/

namespace RecordBuffer

/-! ## Words of 64 bits -/

/-- The difference of two words, which wraps around below zero. -/
def wrappingSub (left right : Nat) : Nat :=
  (left + (Limits.maxSize + 1) - right) % (Limits.maxSize + 1)

/-- The sum of two words, which wraps around at 64 bits. -/
def wrappingAdd (left right : Nat) : Nat := (left + right) % (Limits.maxSize + 1)

/-- The sum of two words, or the largest word if there is none. -/
def saturatingAdd (left right : Nat) : Nat := min (left + right) Limits.maxSize

/-- The sum of two words, refused if it is none. -/
def checkedAdd (left right : Nat) : Except Fault Nat :=
  if Limits.maxSize < left + right then .error .sizeOverflow else .ok (left + right)

theorem wrappingSub_eq {left right : Nat} (hle : right ≤ left) (hleft : left ≤ Limits.maxSize) :
    wrappingSub left right = left - right := by
  rw [wrappingSub, Nat.sub_add_comm hle, Nat.add_mod_right, Nat.mod_eq_of_lt]
  omega

theorem wrappingAdd_eq {left right : Nat} (hsum : left + right ≤ Limits.maxSize) :
    wrappingAdd left right = left + right :=
  Nat.mod_eq_of_lt (Nat.lt_succ_of_le hsum)

theorem checkedAdd_eq {left right : Nat} (hsum : left + right ≤ Limits.maxSize) :
    checkedAdd left right = .ok (left + right) :=
  if_neg (Nat.not_lt_of_le hsum)

namespace Buffer

variable {buffer after : Buffer} {count : Nat}

/-- Make room and move the cursor, with all sizes computed in words. -/
def allocateInWords (buffer : Buffer) (count : Nat) : Except Fault (Nat × Buffer) :=
  let step := max (min (saturatingAdd buffer.capacity count) longestStep) count
  let capacity := min (saturatingAdd buffer.capacity step) buffer.maxSize
  let grown :=
    if wrappingSub buffer.maxSize buffer.cursor < count then
      .error (.bufferFull buffer.maxSize buffer.cursor count)
    else if count < wrappingSub buffer.capacity buffer.cursor then .ok buffer
    else if capacity = buffer.capacity then .ok buffer
    else buffer.extend capacity
  grown.map fun buffer => (buffer.cursor, { buffer with cursor := wrappingAdd buffer.cursor count })

/-- Where the sizes are in order, no difference goes below zero and no sum is cut. -/
theorem allocateInWords_eq (hwell : buffer.WellFormed) (hmax : buffer.maxSize ≤ Limits.maxSize) :
    buffer.allocateInWords count = buffer.allocate count := by
  have hcursor := hwell.cursor_le_capacity
  have hcapacity := hwell.capacity_le_maxSize
  have hroom := wrappingSub_eq (Nat.le_trans hcursor hcapacity) hmax
  have hfree := wrappingSub_eq hcursor (Nat.le_trans hcapacity hmax)
  -- Where a saturated sum differs, the maximum size or the longest step is smaller anyway.
  have hgrown : min (saturatingAdd buffer.capacity
      (max (min (saturatingAdd buffer.capacity count) longestStep) count)) buffer.maxSize =
        buffer.grownCapacity count := by
    simp only [saturatingAdd, grownCapacity, longestStep, Limits.maxSize] at hmax ⊢
    omega
  have hwords : buffer.allocateInWords count = (buffer.grow count).map fun grown =>
      (grown.cursor, { grown with cursor := wrappingAdd grown.cursor count }) := by
    unfold allocateInWords grow
    simp only [hroom, hfree, hgrown]
  rw [hwords, allocate]
  cases hgrow : buffer.grow count with
  | error fault => rfl
  | ok grown =>
      obtain ⟨hadvanced, hfits⟩ := grow_advanced hwell hgrow
      have hlimit := hadvanced.wellFormed.capacity_le_maxSize
      rw [hadvanced.maxSize_eq] at hlimit
      have hsum : wrappingAdd grown.cursor count = grown.cursor + count := by
        apply wrappingAdd_eq
        rw [hadvanced.cursor_eq]
        omega
      simp only [Except.map, hsum]
      rfl

end Buffer

/-! ## Uses of a buffer -/

/-- A disk and the buffer that was just made on it, from sizes that are words. -/
inductive Made : Disk → Buffer → Prop where
  | new {buffer : Buffer} (disk : Disk) (size : Nat) (made : Buffer.new size = .ok buffer) :
      Made disk buffer
  | create {after : Disk} {buffer : Buffer} (before : Disk) (size maxSize : Nat) (kind : Kind)
      (word : maxSize ≤ Limits.maxSize)
      (made : Buffer.create before size maxSize kind = .ok (after, .ok buffer)) : Made after buffer
  | mapPath {after : Disk} {buffer : Buffer} (before : Disk) (name : FileName)
      (size maxSize startOffset : Nat) (word : maxSize ≤ Limits.maxSize)
      (made : Buffer.mapPath before name size maxSize startOffset = .ok (after, .ok buffer)) :
      Made after buffer
  | build {after : Disk} {buffer : Buffer} (before : Disk) (settings : Settings)
      (word : settings.maxSize ≤ Limits.maxSize)
      (made : settings.build before = .ok (after, .ok buffer)) : Made after buffer

/-- A buffer of sizes in order, as its disk knows it. -/
structure Sound (disk : Disk) (buffer : Buffer) : Prop where
  wellFormed : buffer.WellFormed
  shown : buffer.ShownOn disk
  maxSize_le : buffer.maxSize ≤ Limits.maxSize

theorem Made.sound {disk : Disk} {buffer : Buffer} (hmade : Made disk buffer) :
    Sound disk buffer := by
  have hdefault : Buffer.defaultMaxSize ≤ Limits.maxSize := by decide
  cases hmade with
  | new disk size hmade =>
      obtain ⟨hwell, -, hheap, hmax⟩ := Buffer.new_made hmade
      refine ⟨hwell, ?_, Nat.le_of_eq hmax⟩
      intro number name hmapped
      rw [hheap] at hmapped
      cases hmapped
  | create before size maxSize kind hword hmade =>
      obtain ⟨hwell, -, hshown, hmax⟩ := Buffer.create_made hmade
      exact ⟨hwell, hshown, hmax ▸ Buffer.orDefault_le hdefault hword⟩
  | mapPath before name size maxSize startOffset hword hmade =>
      obtain ⟨hwell, hshown, hmax⟩ := Buffer.mapPath_made hmade
      exact ⟨hwell, hshown, hmax ▸ Buffer.orDefault_le hdefault hword⟩
  | build before settings hword hmade =>
      obtain ⟨hwell, hshown, hmax⟩ := Buffer.build_made hmade
      exact ⟨hwell, hshown, hmax ▸ Buffer.orDefault_le hdefault hword⟩

/-- The machine has agreed to map a mapped buffer as far as it may grow. -/
theorem Made.maps {disk : Disk} {buffer : Buffer} {number : Nat} {name : FileName}
    (hmade : Made disk buffer) (hbacking : buffer.backing = .mapped number name) :
    disk.Maps buffer.maxSize := by
  cases hmade with
  | new disk size hmade =>
      rw [(Buffer.new_made hmade).2.2.1] at hbacking
      cases hbacking
  | create before size maxSize kind _ hmade => exact Buffer.create_maps hmade hbacking
  | mapPath before name size maxSize startOffset _ hmade => exact Buffer.mapPath_maps hmade
  | build before settings _ hmade =>
      obtain ⟨-, flaw, hflaw⟩ | ⟨name, -, hmapped⟩ | ⟨-, hcreated⟩ := Buffer.build_cases hmade
      · cases hflaw
      · exact Buffer.mapPath_maps hmapped
      · exact Buffer.create_maps hcreated hbacking

namespace Session

/-- An operation on the open buffer, or a change of the disk by something else that leaves the
buffer's file alone. -/
inductive Step : Session → Session → Prop where
  | operate {session after : Session} (operation : Operation) (outcome : Outcome)
      (performed : session.operate operation = .ok (after, outcome)) : Step session after
  | elsewhere (session : Session) (disk : Disk)
      (left_alone : ∀ buffer number name, session.buffer? = some buffer →
        buffer.backing = .mapped number name → disk.load? number = session.disk.load? number) :
      Step session { session with disk }

/-- Steps one after another. -/
abbrev Steps : Session → Session → Prop := Relation.ReflTransGen Step

/-- A mapped buffer that was used shows on the disk as soon as it is published. -/
theorem publish_shown {before after : Buffer} {disk : Disk} (hshown : before.ShownOn disk)
    (hevolved : before.Evolved after) : after.ShownOn (after.publish disk) := by
  intro number name hbacking
  have hbefore := hshown number name (hevolved.backing_eq ▸ hbacking)
  rw [hevolved.maxSize_eq]
  refine ⟨?_, hbefore.2⟩
  simp only [Buffer.publish, hbacking]
  rw [Disk.load?_store, hbefore.1, hevolved.wellFormed.backed_eq_capacity]
  rfl

theorem Step.sound {session after : Session} {buffer : Buffer} (hstep : Step session after)
    (hopen : session.buffer? = some buffer) (hsound : Sound session.disk buffer) :
    ∃ used, after.buffer? = some used ∧ Sound after.disk used ∧ buffer.Evolved used := by
  cases hstep with
  | operate operation outcome hperformed =>
      simp only [Session.operate, hopen] at hperformed
      obtain ⟨⟨used, result⟩, hperform, hperformed⟩ := bind_eq_ok.mp hperformed
      cases hperformed
      have hevolved := Buffer.perform_evolved hsound.wellFormed hperform
      exact ⟨used, rfl, ⟨hevolved.wellFormed, publish_shown hsound.shown hevolved,
        hevolved.maxSize_eq ▸ hsound.maxSize_le⟩, hevolved⟩
  | elsewhere disk hleft =>
      refine ⟨buffer, hopen, ⟨hsound.wellFormed, ?_, hsound.maxSize_le⟩,
        Buffer.Evolved.refl hsound.wellFormed⟩
      intro number name hbacking
      simp only
      rw [hleft buffer number name hopen hbacking]
      exact hsound.shown number name hbacking

theorem Steps.sound {session after : Session} {buffer : Buffer} (hsteps : Steps session after)
    (hopen : session.buffer? = some buffer) (hsound : Sound session.disk buffer) :
    ∃ used, after.buffer? = some used ∧ Sound after.disk used ∧ buffer.Evolved used := by
  induction hsteps with
  | refl => exact ⟨buffer, hopen, hsound, Buffer.Evolved.refl hsound.wellFormed⟩
  | tail _ hstep ih =>
      obtain ⟨middle, hmiddle, hbetween, hfirst⟩ := ih
      obtain ⟨used, hused, hafter, hsecond⟩ := hstep.sound hmiddle hbetween
      exact ⟨used, hused, hafter, hfirst.trans hsecond⟩

/-- A buffer that was made and then used, on whatever disk and next to whatever else. -/
inductive Reached : Buffer → Prop where
  | intro {disk : Disk} {made buffer : Buffer} {session : Session} (origin : Made disk made)
      (steps : Steps ⟨disk, some made⟩ session) (opened : session.buffer? = some buffer) :
      Reached buffer

theorem Reached.sound {buffer : Buffer} (hreached : Reached buffer) :
    ∃ disk, Sound disk buffer := by
  obtain ⟨hmade, hsteps, hopened⟩ := hreached
  obtain ⟨used, hused, hsound, -⟩ := hsteps.sound rfl hmade.sound
  rw [hopened] at hused
  cases hused
  exact ⟨_, hsound⟩

/-- From the making of a buffer on, its sizes are in order and held by words. Memory of its own or
its file is exactly as large as the capacity, the file is mapped as far as the maximum size, the
capacity never shrinks and the maximum size stays. So neither an operation nor the way through one
computes a size that words cannot hold. -/
theorem sizes_in_order {disk : Disk} {made : Buffer} {session : Session} (hmade : Made disk made)
    (hsteps : Steps ⟨disk, some made⟩ session) :
    ∃ buffer, session.buffer? = some buffer ∧
      (1 ≤ buffer.cursor ∧ buffer.cursor ≤ buffer.capacity ∧ buffer.capacity ≤ buffer.maxSize ∧
        buffer.maxSize ≤ Limits.maxSize) ∧
      buffer.backed = buffer.capacity ∧
      (∀ number name, buffer.backing = .mapped number name →
        session.disk.load? number = some ⟨buffer.memory, buffer.capacity⟩ ∧
          disk.Maps buffer.maxSize) ∧
      (∀ later, Steps session later → ∃ used, later.buffer? = some used ∧
        buffer.capacity ≤ used.capacity ∧ used.maxSize = buffer.maxSize) ∧
      ∀ used count, buffer.Evolved used → used.allocateInWords count = used.allocate count := by
  obtain ⟨buffer, hbuffer, hsound, hevolved⟩ := hsteps.sound rfl hmade.sound
  have hwell := hsound.wellFormed
  refine ⟨buffer, hbuffer, ⟨hwell.one_le_cursor, hwell.cursor_le_capacity,
    hwell.capacity_le_maxSize, hsound.maxSize_le⟩, hwell.backed_eq_capacity, ?_, ?_, ?_⟩
  · intro number name hbacking
    have hmaps := hmade.maps (hevolved.backing_eq ▸ hbacking)
    exact ⟨(hsound.shown number name hbacking).1, hevolved.maxSize_eq ▸ hmaps⟩
  · intro later hlater
    obtain ⟨used, hused, -, hevolved⟩ := hlater.sound hbuffer hsound
    exact ⟨used, hused, hevolved.capacity_le, hevolved.maxSize_eq⟩
  · intro used count hevolved
    exact Buffer.allocateInWords_eq hevolved.wellFormed (hevolved.maxSize_eq ▸ hsound.maxSize_le)

/-- A file with more bytes than asked for is mapped, and grows past them. -/
theorem sizes_in_order_resumed :
    let bytes : Memory := (Memory.blank.write 0 [1, 2, 3, 4, 5, 6, 7, 8]).truncate 8
    let made : Buffer := ⟨.mapped 0 (.path "log"), bytes, 8, 8, 8, 64⟩
    let before := ((Disk.empty "").addFile [.given "log"] (.ofBytes [1, 2, 3, 4, 5, 6, 7, 8])).1
    ∃ disk session outcome buffer,
      Buffer.mapPath before "log" 2 64 5 = .ok (disk, .ok made) ∧
      Session.operate ⟨disk, some made⟩ (.appendRecord [9, 9]) = .ok (session, outcome) ∧
      session.buffer? = some buffer ∧ buffer.cursor ≤ 22 ∧
      session.disk.load? 0 = some ⟨buffer.memory, 22⟩ := by
  intro bytes made before
  have hmade : Buffer.mapPath before "log" 2 64 5 =
      .ok (before.store 0 ⟨bytes, 8⟩, .ok made) := rfl
  obtain ⟨⟨session, outcome⟩, hoperate⟩ : ∃ result,
      Session.operate ⟨before.store 0 ⟨bytes, 8⟩, some made⟩ (.appendRecord [9, 9]) = .ok result :=
    exists_eq_ok_of_isOk (by cbv)
  have hused : (Session.operate ⟨before.store 0 ⟨bytes, 8⟩, some made⟩ (.appendRecord [9, 9])).map
      (fun result => result.1.buffer?.map fun buffer => (buffer.backing, buffer.capacity)) =
        .ok (some (made.backing, 22)) := by cbv
  obtain ⟨buffer, hbuffer, ⟨-, hcursor, -, -⟩, -, hfile, -, -⟩ :=
    sizes_in_order (.mapPath before "log" 2 64 5 (by decide) hmade)
      (Relation.ReflTransGen.single (.operate _ _ hoperate))
  simp only [hoperate, Except.map, hbuffer, Option.map_some, Except.ok.injEq, Option.some.injEq,
    Prod.mk.injEq] at hused
  have hshown := (hfile 0 (.path "log") hused.1).1
  rw [hused.2] at hcursor hshown
  exact ⟨_, session, outcome, buffer, hmade, hoperate, hbuffer, hcursor, hshown⟩

end Session

end RecordBuffer

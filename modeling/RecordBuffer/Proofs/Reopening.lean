import RecordBuffer.Proofs.RecordList
import RecordBuffer.Proofs.Sizes
import RecordBuffer.Proofs.Written

/-!
# Files that are kept and opened again

The cursor of a mapped buffer is written nowhere. It is found again in the
length of the file, which persistence cuts at the cursor. So a buffer that is
kept and opened again by its name goes on like one that was never closed, whatever
sizes it is opened with, as long as they leave room and the machine agrees to map
them.
-/

namespace RecordBuffer

namespace Buffer

variable {disk before after : Disk} {buffer used : Buffer} {number size maxSize startOffset : Nat}
  {name : FileName}

/-! ## Buffers in use -/

/-- A mapped buffer and the disk it is used on. The name of its file leads to the file, which shows
the bytes of the buffer and is as long as its capacity. -/
structure Placed (buffer : Buffer) (disk : Disk) (number : Nat) (name : FileName) : Prop where
  wellFormed : buffer.WellFormed
  backing_eq : buffer.backing = .mapped number name
  addressable : buffer.maxSize ≤ Limits.maxExtent
  shown : ∃ location, disk.locateNamed name = .ok location ∧
    disk.find? location = some (.file number ⟨buffer.memory, buffer.capacity⟩)

/-- A file that is opened and stored at once is placed. -/
theorem placed_of_stored {location : Location} {data : FileData} (hwell : buffer.WellFormed)
    (hbacking : buffer.backing = .mapped number name) (hmax : buffer.maxSize ≤ Limits.maxExtent)
    (hlocate : disk.locateNamed name = .ok location)
    (hfind : disk.find? location = some (.file number data)) :
    buffer.Placed (disk.store number ⟨buffer.memory, buffer.capacity⟩) number name := by
  exact ⟨hwell, hbacking, hmax, location, (disk.keeps_store _ _).locateNamed hlocate,
    Disk.find?_store_self hfind _⟩

theorem Placed.publish (hplaced : buffer.Placed disk number name) (hevolved : buffer.Evolved used) :
    used.Placed (used.publish disk) number name := by
  obtain ⟨-, hbacking, hmax, location, hlocate, hfind⟩ := hplaced
  have hused := hevolved.backing_eq.trans hbacking
  have hpublish : used.publish disk = disk.store number ⟨used.memory, used.capacity⟩ := by
    simp only [Buffer.publish, hused, hevolved.wellFormed.backed_eq_capacity]
  rw [hpublish]
  exact placed_of_stored hevolved.wellFormed hused (hevolved.maxSize_eq ▸ hmax) hlocate hfind

theorem Placed.of_backing {other : Nat} {otherName : FileName}
    (hplaced : buffer.Placed disk number name)
    (hbacking : buffer.backing = .mapped other otherName) :
    buffer.Placed disk other otherName := by
  obtain ⟨rfl, rfl⟩ := Backing.mapped.inj (hplaced.backing_eq.symm.trans hbacking)
  exact hplaced

theorem create_placed {kind : Kind}
    (hmade : Buffer.create before size maxSize kind = .ok (after, .ok buffer))
    (hbacking : buffer.backing = .mapped number name) : buffer.Placed after number name := by
  have hwell := (create_made hmade).1
  obtain ⟨-, backing, rfl, ⟨-, rfl, -⟩ | ⟨-, rfl, hmaps, directory, hdirectory, hnothing, rfl⟩⟩ :=
    create_cases hmade
  · cases hbacking
  · cases hbacking
    exact ⟨hwell, rfl, hmaps.1, _, Disk.temporary_added hdirectory hnothing _⟩

theorem mapPath_placed
    (hmade : Buffer.mapPath before name size maxSize startOffset = .ok (after, .ok buffer)) :
    ∃ number, buffer.Placed after number name := by
  have hwell := (mapPath_made hmade).1
  obtain ⟨-, -, opened, location, number, data, hopened, hmapped⟩ := mapPath_eq_ok hmade
  obtain ⟨-, hmaps, rfl, rfl⟩ := mapFile_eq_ok hmapped
  -- The file is stored as long as it is backed, which is as long as the capacity.
  have hplaced := placed_of_stored hwell rfl hmaps.1 hopened.named_after hopened.found
  rw [← hwell.backed_eq_capacity] at hplaced
  exact ⟨number, hplaced⟩

theorem mapPath_placed_backing {opened : FileName}
    (hmade : Buffer.mapPath before opened size maxSize startOffset = .ok (after, .ok buffer))
    (hbacking : buffer.backing = .mapped number name) : buffer.Placed after number name := by
  obtain ⟨_, hplaced⟩ := mapPath_placed hmade
  exact hplaced.of_backing hbacking

/-! ## Closing and opening again -/

/-- Sizes and a start that a buffer can be opened with again. They leave room for what was written,
and the machine agrees to map the maximum size. -/
structure Reopens (buffer : Buffer) (disk : Disk) (size maxSize startOffset : Nat) : Prop where
  size_le : orDefault defaultInitialSize size ≤ orDefault defaultMaxSize maxSize
  cursor_le : buffer.cursor ≤ orDefault defaultMaxSize maxSize
  start_le : startOffset ≤ buffer.cursor
  maps : disk.Maps (orDefault defaultMaxSize maxSize)

/-- The file of a kept buffer is cut at the cursor. -/
theorem Placed.persist (hplaced : buffer.Placed disk number name) :
    ∃ location, (buffer.persist disk).locateNamed name = .ok location ∧
      (buffer.persist disk).find? location =
        some (.file number ⟨buffer.memory.truncate buffer.cursor, buffer.cursor⟩) := by
  obtain ⟨hwell, hbacking, -, location, hlocate, hfind⟩ := hplaced
  have hcut : min buffer.backed buffer.cursor = buffer.cursor := by
    rw [hwell.backed_eq_capacity]
    exact Nat.min_eq_right hwell.cursor_le_capacity
  refine ⟨location, ?_, ?_⟩
  · simp only [persist_eq, keep, hbacking]
    exact (disk.keeps_store _ _).locateNamed hlocate
  · simp only [persist_eq, keep, hbacking]
    rw [Disk.find?_store_self hfind]
    simp only [FileData.resize, hcut]

/-- A buffer of nothing but whole records stands for their payloads. -/
theorem WholeRecords.represents {payloads : List Bytes}
    (hwhole : buffer.WholeRecords 1 buffer.cursor payloads) (hwell : buffer.WellFormed) :
    buffer.Represents payloads := by
  have hone := hwell.one_le_cursor
  obtain ⟨hpacked, hcursor⟩ := hwhole.packed (by omega)
  rw [Nat.min_self] at hcursor
  exact ⟨hwell, hpacked, hcursor⟩

theorem persist_grants (buffer : Buffer) (disk : Disk) :
    (buffer.persist disk).grants = disk.grants := by
  rw [persist_eq, keep]
  split <;> rfl

/-- A buffer that is opened again has what was written, and the sizes it was opened with. -/
theorem Placed.reopen (hplaced : buffer.Placed disk number name)
    (hreopens : buffer.Reopens disk size maxSize startOffset) :
    ∃ after reopened,
      mapPath (buffer.persist disk) name size maxSize startOffset = .ok (after, .ok reopened) ∧
      reopened.Placed after number name ∧ buffer.SameWritten reopened ∧
      reopened.capacity = max (orDefault defaultInitialSize size) buffer.cursor ∧
      reopened.maxSize = orDefault defaultMaxSize maxSize := by
  obtain ⟨hsize, hcursor, hstart, hmaps⟩ := hreopens
  obtain ⟨location, hlocate, hfind⟩ := hplaced.persist
  have hone := hplaced.wellFormed.one_le_cursor
  have hextent := hmaps.1
  have hlength : max buffer.cursor (max (orDefault defaultInitialSize size) startOffset) =
      max (orDefault defaultInitialSize size) buffer.cursor := by omega
  have hcheckLength : checkLength name (max (orDefault defaultInitialSize size) buffer.cursor) =
      .ok () := if_neg (by omega)
  have hcheckMapping : ∀ data, checkMapping ((buffer.persist disk).store number data) name
      (orDefault defaultMaxSize maxSize) = .ok () := fun data =>
    checkMapping_eq_ok.mpr ⟨hextent, (congrFun (persist_grants buffer disk) _).trans hmaps.2⟩
  have hopened : (buffer.persist disk).openNamed name =
      .ok (buffer.persist disk, number, ⟨buffer.memory.truncate buffer.cursor, buffer.cursor⟩) :=
    bind_eq_ok.mpr ⟨location, hlocate, Disk.openAt_eq_ok.mpr (.inl ⟨rfl, hfind⟩)⟩
  have hkept : min buffer.cursor (max (orDefault defaultInitialSize size) buffer.cursor) =
      buffer.cursor := Nat.min_eq_left (Nat.le_max_right _ _)
  have hresumed : max (max startOffset buffer.cursor) 1 = buffer.cursor := by omega
  have hcapacity : max (max (orDefault defaultInitialSize size) buffer.cursor) buffer.cursor =
      max (orDefault defaultInitialSize size) buffer.cursor :=
    Nat.max_eq_left (Nat.le_max_right _ _)
  obtain ⟨after, hmade⟩ : ∃ after,
      mapPath (buffer.persist disk) name size maxSize startOffset = .ok (after, .ok
        ⟨.mapped number name, (buffer.memory.truncate buffer.cursor).truncate buffer.cursor,
          max (orDefault defaultInitialSize size) buffer.cursor, buffer.cursor,
          max (orDefault defaultInitialSize size) buffer.cursor,
          orDefault defaultMaxSize maxSize⟩) := by
    unfold mapPath mapFile
    simp only [hopened, if_neg (Nat.not_lt_of_le hsize), if_neg (Nat.not_lt_of_le hcursor),
      if_neg (Nat.not_lt_of_le (Nat.le_trans hstart hcursor)), hlength, hcheckLength,
      hcheckMapping, FileData.resize, hkept, hresumed, hcapacity]
    exact ⟨_, rfl⟩
  refine ⟨after, _, hmade, mapPath_placed_backing hmade rfl, ⟨rfl, ?_⟩, rfl, rfl⟩
  intro address haddress
  simp only [Memory.get_truncate, if_pos haddress]

end Buffer

/-- However a mapped buffer was made, it has its place. -/
theorem Made.placed {disk : Disk} {buffer : Buffer} {number : Nat} {name : FileName}
    (hmade : Made disk buffer) (hbacking : buffer.backing = .mapped number name) :
    buffer.Placed disk number name := by
  cases hmade with
  | new disk size hmade =>
      rw [(Buffer.new_made hmade).2.2.1] at hbacking
      cases hbacking
  | create before size maxSize kind _ hmade => exact Buffer.create_placed hmade hbacking
  | mapPath before opened size maxSize startOffset _ hmade =>
      exact Buffer.mapPath_placed_backing hmade hbacking
  | build before settings _ hmade =>
      obtain ⟨-, flaw, hflaw⟩ | ⟨opened, -, hmapped⟩ | ⟨-, hcreated⟩ := Buffer.build_cases hmade
      · cases hflaw
      · exact Buffer.mapPath_placed_backing hmapped hbacking
      · exact Buffer.create_placed hcreated hbacking

/-! ## Going on -/

/-- A use of the open buffer. -/
inductive Use where
  | operate (operation : Operation)
  /-- Keep the file and open it again by its name. -/
  | reopen (size maxSize startOffset : Nat)

/-- A use that leaves the buffer open. -/
def Use.isOperation : Use → Bool
  | operate _ => true
  | reopen _ _ _ => false

namespace Buffer

variable {buffer left right : Buffer} {disk other : Disk} {number : Nat} {name : FileName}
  {bytes payload : Bytes} {operation : Operation}

/-- What can be done as well with a buffer that may grow up to a limit of its own: adding what both
have room for, and sorting whole records. -/
inductive Continues (limit : Nat) (buffer : Buffer) : Operation → Prop where
  | append (bytes : Bytes) (room : buffer.cursor + bytes.length ≤ min limit buffer.maxSize) :
      Continues limit buffer (.append bytes)
  | appendRecord (payload : Bytes)
      (room : buffer.cursor + Record.size payload.length ≤ min limit buffer.maxSize) :
      Continues limit buffer (.appendRecord payload)
  | sort (compare : Comparator) (payloads : List Bytes)
      (whole : buffer.WholeRecords 1 buffer.cursor payloads) :
      Continues limit buffer (.sort compare)
  | sortRange (compare : Comparator) (start stop chunkSize : Nat) (payloads : List Bytes)
      (whole : buffer.WholeRecords start stop payloads) :
      Continues limit buffer (.sortRange compare start stop chunkSize)

/-- A use after which a buffer is still like one that was never closed and may grow up to a
limit. -/
def Fits (limit : Nat) (disk : Disk) (buffer : Buffer) : Use → Prop
  | .operate operation => buffer.Continues limit operation
  | .reopen size maxSize startOffset => buffer.Reopens disk size maxSize startOffset

/-- Memory is never refused to a mapped buffer. -/
theorem Placed.affords (hplaced : buffer.Placed disk number name) (size : Nat) :
    buffer.Affords size := by
  intro hheap
  rw [hplaced.backing_eq] at hheap
  cases hheap

/-- A payload without a header is refused for its length where there would be room for it. -/
theorem appendRecord_too_long (hwell : buffer.WellFormed)
    (hlong : Limits.payloadBound ≤ payload.length)
    (hfits : buffer.cursor + Record.size payload.length ≤ buffer.maxSize)
    (hmax : buffer.maxSize ≤ Limits.maxSize)
    (haffords : buffer.Affords (buffer.cursor + Record.size payload.length)) :
    buffer.appendRecord payload = .error (.payloadTooLong payload.length) :=
  bind_eq_error.mpr (.inl
    (allocateRecord_too_long hwell hlong (by omega) hfits haffords))

/-- What a buffer goes on with, one with the same written bytes goes on with as well. -/
theorem SameWritten.perform (hsame : left.SameWritten right)
    (hleft : left.Placed disk number name) (hright : right.Placed other number name)
    (hcontinues : left.Continues right.maxSize operation) :
    Lockstep (fun first second => first.1.SameWritten second.1 ∧ first.2 = second.2)
      (left.perform operation) (right.perform operation) := by
  have hcursor := hsame.cursor_eq
  have hleftWell := hleft.wellFormed
  have hrightWell := hright.wellFormed
  cases hcontinues with
  | append bytes hroom =>
      obtain ⟨leftAfter, hleftAppend⟩ := append_ok hleftWell
        (Nat.le_trans hroom (Nat.min_le_right _ _)) (hleft.affords _)
      obtain ⟨rightAfter, hrightAppend⟩ := append_ok hrightWell
        (hcursor ▸ Nat.le_trans hroom (Nat.min_le_left _ _)) (hright.affords _)
      obtain ⟨hleftAdvanced, hleftHolds⟩ := append_advanced hleftWell hleftAppend
      obtain ⟨hrightAdvanced, hrightHolds⟩ := append_advanced hrightWell hrightAppend
      simp only [Buffer.perform, hleftAppend, hrightAppend]
      exact .ok ⟨hsame.advanced hleftAdvanced hrightAdvanced hleftHolds hrightHolds, rfl⟩
  | appendRecord payload hroom =>
      have hleftRoom := Nat.le_trans hroom (Nat.min_le_right _ _)
      have hrightRoom := hcursor ▸ Nat.le_trans hroom (Nat.min_le_left _ _)
      have hword : Limits.maxExtent ≤ Limits.maxSize := by decide
      rcases Nat.lt_or_ge payload.length Limits.payloadBound with hshort | hlong
      · obtain ⟨leftOffset, leftAfter, hleftAppend⟩ :=
          appendRecord_ok hleftWell hshort hleftRoom (hleft.affords _)
        obtain ⟨rightOffset, rightAfter, hrightAppend⟩ :=
          appendRecord_ok hrightWell hshort hrightRoom (hright.affords _)
        obtain ⟨rfl, -, hleftAdvanced, hleftHolds⟩ := appendRecord_advanced hleftWell hleftAppend
        obtain ⟨rfl, -, hrightAdvanced, hrightHolds⟩ :=
          appendRecord_advanced hrightWell hrightAppend
        rw [← Record.length_encode] at hleftAdvanced hrightAdvanced
        simp only [Buffer.perform, hleftAppend, hrightAppend]
        exact .ok ⟨hsame.advanced hleftAdvanced hrightAdvanced hleftHolds hrightHolds,
          by rw [hcursor]⟩
      · have hleftRefused := appendRecord_too_long hleftWell hlong hleftRoom
          (Nat.le_trans hleft.addressable hword) (hleft.affords _)
        have hrightRefused := appendRecord_too_long hrightWell hlong hrightRoom
          (Nat.le_trans hright.addressable hword) (hright.affords _)
        simp only [Buffer.perform, hleftRefused, hrightRefused]
        exact .fault _
  | sort compare payloads hwhole =>
      have hsort := hsame.sortRange hleftWell.cursor_le_capacity hrightWell.cursor_le_capacity
        hwhole compare defaultChunkSize
      simp only [Buffer.perform, Buffer.sort, ← hcursor]
      exact hsort.bind fun _ _ _ _ hsorted => .ok ⟨hsorted, rfl⟩
  | sortRange compare start stop chunkSize payloads hwhole =>
      have hsort := hsame.sortRange hleftWell.cursor_le_capacity hrightWell.cursor_le_capacity
        hwhole compare chunkSize
      exact hsort.bind fun _ _ _ _ hsorted => .ok ⟨hsorted, rfl⟩

end Buffer

namespace Session

variable {session after other : Session} {buffer : Buffer} {number limit : Nat} {name : FileName}
  {outcomes : List Outcome}

/-- Keep the file of the open buffer and open it again by its name. -/
def reopen (session : Session) (size maxSize startOffset : Nat) :
    Except Fault (Session × Outcome) :=
  match session.buffer?.bind Buffer.file? with
  | none => .ok (session, .noBuffer)
  | some name =>
      session.persist.1.replace fun disk => Buffer.mapPath disk name size maxSize startOffset

/-- Use the open buffer, and say how the operation ended if it was one. -/
def use (session : Session) : Use → Except Fault (Session × List Outcome)
  | .operate operation => do
      let (after, outcome) ← session.operate operation
      return (after, [outcome])
  | .reopen size maxSize startOffset => do
      let (after, _) ← session.reopen size maxSize startOffset
      return (after, [])

/-- Use the open buffer again and again. -/
def useAll (session : Session) : List Use → Except Fault (Session × List Outcome)
  | [] => .ok (session, [])
  | use :: rest => do
      let (middle, outcomes) ← session.use use
      let (after, others) ← middle.useAll rest
      return (after, outcomes ++ others)

/-- Uses after each of which the buffer is still like one that was never closed. -/
def FitsAll (limit : Nat) (session : Session) : List Use → Prop
  | [] => True
  | use :: rest => (∀ buffer, session.buffer? = some buffer → buffer.Fits limit session.disk use) ∧
      ∀ after outcomes, session.use use = .ok (after, outcomes) → after.FitsAll limit rest

/-- The open buffer is well formed, and a mapped one has its place. -/
def Tracked (session : Session) : Prop :=
  ∀ buffer, session.buffer? = some buffer → buffer.WellFormed ∧
    ∀ number name, buffer.backing = .mapped number name → buffer.Placed session.disk number name

theorem operate_eq {operation : Operation} (hopen : session.buffer? = some buffer) :
    session.operate operation = buffer.perform operation >>= fun performed =>
      pure (⟨performed.1.publish session.disk, some performed.1⟩, match performed.2 with
        | .ok reply => .reply reply
        | .error error => .failed error) := by
  obtain ⟨disk, opened?⟩ := session
  cases hopen
  rfl

theorem Tracked.operate {operation : Operation} {outcome : Outcome} (htracked : session.Tracked)
    (hoperate : session.operate operation = .ok (after, outcome)) : after.Tracked := by
  cases hopen : session.buffer? with
  | none =>
      simp only [Session.operate, hopen] at hoperate
      cases hoperate
      exact htracked
  | some buffer =>
      obtain ⟨hwell, hplaced⟩ := htracked buffer hopen
      rw [operate_eq hopen] at hoperate
      obtain ⟨⟨used, result⟩, hperform, hoperate⟩ := bind_eq_ok.mp hoperate
      cases hoperate
      have hevolved := Buffer.perform_evolved hwell hperform
      rintro _ ⟨⟩
      refine ⟨hevolved.wellFormed, fun number name hbacking => ?_⟩
      exact (hplaced number name (hevolved.backing_eq ▸ hbacking)).publish hevolved

theorem Tracked.reopen {size maxSize startOffset : Nat} {outcome : Outcome}
    (htracked : session.Tracked)
    (hreopen : session.reopen size maxSize startOffset = .ok (after, outcome)) : after.Tracked := by
  unfold Session.reopen at hreopen
  split at hreopen
  next =>
    cases hreopen
    exact htracked
  next name hname =>
    obtain ⟨⟨disk, made⟩, hmade, hreopen⟩ := bind_eq_ok.mp hreopen
    cases made with
    | error error =>
        cases hreopen
        rintro _ ⟨⟩
    | ok buffer =>
        cases hreopen
        obtain ⟨number, hplaced⟩ := Buffer.mapPath_placed hmade
        rintro _ ⟨⟩
        exact ⟨hplaced.wellFormed, fun _ _ hbacking => hplaced.of_backing hbacking⟩

/-- Whatever is done with a buffer, its file keeps its place. -/
theorem Tracked.useAll {uses : List Use} (htracked : session.Tracked)
    (huses : session.useAll uses = .ok (after, outcomes)) : after.Tracked := by
  induction uses generalizing session outcomes with
  | nil =>
      cases huses
      exact htracked
  | cons use rest ih =>
      obtain ⟨⟨middle, first⟩, huse, huses⟩ := bind_eq_ok.mp huses
      obtain ⟨⟨last, others⟩, hrest, huses⟩ := bind_eq_ok.mp huses
      cases huses
      refine ih ?_ hrest
      cases use with
      | operate operation =>
          obtain ⟨⟨_, outcome⟩, hoperate, huse⟩ := bind_eq_ok.mp huse
          cases huse
          exact htracked.operate hoperate
      | reopen size maxSize startOffset =>
          obtain ⟨⟨_, outcome⟩, hreopen, huse⟩ := bind_eq_ok.mp huse
          cases huse
          exact htracked.reopen hreopen

/-- A session whose buffer has the same written bytes as that of another, which may grow up to a
limit. -/
def Resumes (number : Nat) (name : FileName) (limit : Nat) (session other : Session) : Prop :=
  ∃ left right, session.buffer? = some left ∧ other.buffer? = some right ∧
    left.Placed session.disk number name ∧ right.Placed other.disk number name ∧
    left.SameWritten right ∧ right.maxSize = limit

theorem Resumes.operate {operation : Operation} (hresumes : Resumes number name limit session other)
    (hcontinues : ∀ buffer, session.buffer? = some buffer → buffer.Continues limit operation) :
    Lockstep (fun first second => Resumes number name limit first.1 second.1 ∧ first.2 = second.2)
      (session.operate operation) (other.operate operation) := by
  obtain ⟨left, right, hleft, hright, hleftPlaced, hrightPlaced, hsame, rfl⟩ := hresumes
  rw [operate_eq hleft, operate_eq hright]
  refine (hsame.perform hleftPlaced hrightPlaced (hcontinues left hleft)).bind ?_
  rintro ⟨leftAfter, result⟩ ⟨rightAfter, _⟩ hleftPerform hrightPerform ⟨hafter, rfl⟩
  have hleftEvolved := Buffer.perform_evolved hleftPlaced.wellFormed hleftPerform
  have hrightEvolved := Buffer.perform_evolved hrightPlaced.wellFormed hrightPerform
  exact .ok ⟨⟨leftAfter, rightAfter, rfl, rfl, hleftPlaced.publish hleftEvolved,
    hrightPlaced.publish hrightEvolved, hafter, hrightEvolved.maxSize_eq⟩, rfl⟩

/-- A mapped buffer is opened again as it was closed. -/
theorem reopen_ok {size maxSize startOffset : Nat} (hopen : session.buffer? = some buffer)
    (hplaced : buffer.Placed session.disk number name)
    (hreopens : buffer.Reopens session.disk size maxSize startOffset) :
    ∃ disk reopened, session.reopen size maxSize startOffset =
        .ok (⟨disk, some reopened⟩, .reply .done) ∧
      reopened.Placed disk number name ∧ buffer.SameWritten reopened ∧
      reopened.capacity = max (Buffer.orDefault Buffer.defaultInitialSize size) buffer.cursor ∧
      reopened.maxSize = Buffer.orDefault Buffer.defaultMaxSize maxSize := by
  obtain ⟨disk, reopened, hmade, hafter⟩ := hplaced.reopen hreopens
  have hfile : session.buffer?.bind Buffer.file? = some name := by
    rw [hopen, Option.bind_some, Buffer.file?, hplaced.backing_eq]
  have hkept : session.persist = (⟨buffer.persist session.disk, none⟩, .reply .done) := by
    simp only [persist, hopen]
  refine ⟨disk, reopened, ?_, hafter⟩
  simp only [reopen, hfile, hkept]
  exact bind_eq_ok.mpr ⟨_, hmade, rfl⟩

theorem useAll_of_use {use : Use} {rest : List Use}
    (huse : session.use use = .ok (after, [])) :
    session.useAll (use :: rest) = after.useAll rest := by
  have hsteps : session.useAll (use :: rest) = session.use use >>= fun used =>
      used.1.useAll rest >>= fun others => pure (others.1, used.2 ++ others.2) := rfl
  rw [hsteps, huse]
  exact bind_pure (after.useAll rest)

/-- The uses of a session, and those among them that leave the buffer open in another one, go on
in step. -/
theorem Resumes.useAll {uses : List Use} (hresumes : Resumes number name limit session other)
    (hfits : session.FitsAll limit uses) :
    Lockstep (fun first second => Resumes number name limit first.1 second.1 ∧ first.2 = second.2)
      (session.useAll uses) (other.useAll (uses.filter Use.isOperation)) := by
  induction uses generalizing session other with
  | nil => exact .ok ⟨hresumes, rfl⟩
  | cons use rest ih =>
      obtain ⟨hfirst, hrest⟩ := hfits
      cases use with
      | operate operation =>
          have huse : Lockstep (fun first second =>
              Resumes number name limit first.1 second.1 ∧ first.2 = second.2)
              (session.use (.operate operation)) (other.use (.operate operation)) :=
            (hresumes.operate hfirst).bind fun _ _ _ _ hboth => .ok ⟨hboth.1, by rw [hboth.2]⟩
          rw [List.filter_cons_of_pos rfl]
          refine huse.bind ?_
          rintro ⟨leftMiddle, first⟩ ⟨rightMiddle, _⟩ hleft - ⟨hmiddle, rfl⟩
          refine (ih hmiddle (hrest _ _ hleft)).bind ?_
          rintro ⟨leftAfter, others⟩ ⟨rightAfter, _⟩ - - ⟨hafter, rfl⟩
          exact .ok ⟨hafter, rfl⟩
      | reopen size maxSize startOffset =>
          obtain ⟨left, right, hleft, hright, hleftPlaced, hrightPlaced, hsame, hlimit⟩ := hresumes
          obtain ⟨disk, reopened, hreopen, hplaced, hkept, -, -⟩ :=
            reopen_ok hleft hleftPlaced (hfirst left hleft)
          have huse : session.use (.reopen size maxSize startOffset) =
              .ok (⟨disk, some reopened⟩, []) := bind_eq_ok.mpr ⟨_, hreopen, rfl⟩
          have hmiddle : Resumes number name limit ⟨disk, some reopened⟩ other :=
            ⟨reopened, right, rfl, hright, hplaced, hrightPlaced, hkept.symm.trans hsame, hlimit⟩
          rw [List.filter_cons_of_neg Bool.false_ne_true, useAll_of_use huse]
          exact ih hmiddle (hrest _ _ huse)

end Session

end RecordBuffer

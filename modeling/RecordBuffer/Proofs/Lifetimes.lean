import RecordBuffer.Proofs.Openings

/-!
# Lifetimes of buffers

Buffers are made, used and given up one after another in one tree of files. The
temporary files that are there at any time are that of the open buffer and those
of the buffers that were persisted. One that is opened again by its name belongs
to the buffer that it was opened for, and ends or stays with it. A mapped buffer
that is given up takes its own file with it, and no step touches any other file
unless it names it.
-/

namespace RecordBuffer

/-- Nothing new is found in a file that was left alone. -/
theorem Buffer.Placed.refresh_eq {buffer : Buffer} {disk : Disk} {number : Nat} {name : FileName}
    (hplaced : buffer.Placed disk number name) (horderly : disk.Orderly) :
    buffer.refresh disk = buffer := by
  obtain ⟨hwell, hbacking, -, location, -, hfind⟩ := hplaced
  have hload := horderly.load?_eq hfind
  obtain ⟨_, memory, backed, cursor, capacity, maxSize⟩ := buffer
  obtain rfl : _ = Backing.mapped number name := hbacking
  obtain rfl : backed = capacity := hwell.backed_eq_capacity
  simp only [Buffer.refresh, hload]

/-- The name that a step asks to open a file by. -/
def Command.opens? : Command → Option FileName
  | .mapPath name _ _ _ => some name
  | .build changes => (Settings.ofList changes).file
  | _ => none

namespace Session

variable {session after : Session} {numbers : List Nat} {named : Location → Prop}

/-- Carry out a step and go on. A step that is refused for good gives up the open buffer. -/
def advance (session : Session) (command : Command) : Session :=
  match session.perform command with
  | .ok (after, _) => after
  | .error _ => session.discard.1

/-- Carry out steps one after another. -/
def run (session : Session) (commands : List Command) : Session :=
  commands.foldl advance session

/-- A step names a location if it opens a file by a name that leads there, or changes from outside
what is there. -/
def Names (session : Session) (location : Location) : Command → Prop
  | .mapPath name _ _ _ => session.disk.locateNamed name = .ok location
  | .build changes => ∃ name, (Settings.ofList changes).file = some name ∧
      session.disk.locateNamed name = .ok location
  | .putFile path _ => session.disk.locateFile path = .ok location
  | .deleteFile path => session.disk.locate path = .ok location
  | _ => False

/-- What is done from outside is not done to the file of the open buffer. -/
def Spares (session : Session) : Command → Prop
  | .putFile path _ | .deleteFile path => ∀ location number data,
      session.disk.locate path = .ok location →
      session.disk.find? location = some (.file number data) → ¬ session.Occupies number
  | _ => True

/-- The temporary file that a step opens by its name and cannot map. -/
def leaves (session : Session) (command : Command) : List Nat :=
  match command.opens?, session.perform command with
  | some (.temporary number), .ok (_, .failed error) => if error.leavesFile then [number] else []
  | _, _ => []

/-- The temporary files that are kept after a step. One that is mapped again belongs to its new
buffer. -/
def keptAfter (session : Session) (numbers : List Nat) (command : Command) : List Nat :=
  numbers.filter (fun number => decide (¬ (session.advance command).Uses number)) ++
    (session.keeps command ++ session.leaves command)

/-- The temporary files that are kept after steps, if some were kept before. -/
def kept (session : Session) (numbers : List Nat) : List Command → List Nat
  | [] => numbers
  | command :: rest => (session.advance command).kept (session.keptAfter numbers command) rest

/-- Some of the steps names a location. -/
def NamedBy (session : Session) (location : Location) : List Command → Prop
  | [] => False
  | command :: rest =>
      session.Names location command ∨ (session.advance command).NamedBy location rest

/-- None of the steps is done to the file of the open buffer from outside. -/
def Undisturbed (session : Session) : List Command → Prop
  | [] => True
  | command :: rest => session.Spares command ∧ (session.advance command).Undisturbed rest

namespace Accounted

/-! ## Changes from outside -/

/-- What is done from outside adds no temporary file and removes none, and leaves the file of the
open buffer alone. -/
theorem changed_outside (haccounted : session.Accounted numbers) {disk : Disk}
    (horderly : disk.Orderly) (hfollows : session.disk.Follows disk)
    (htemporary : ∀ directory number,
      (disk.find? (directory ++ [.temporary number])).isSome =
        (session.disk.find? (directory ++ [.temporary number])).isSome)
    (hkept : ∀ place number data, session.disk.find? place = some (.file number data) →
      session.Occupies number ∨ ¬ named place → disk.find? place = some (.file number data)) :
    Carried named session ⟨disk, session.buffer?.map fun buffer => buffer.refresh disk⟩
      numbers := by
  have htracked : Tracked ⟨disk, session.buffer?⟩ := by
    intro buffer hopen
    obtain ⟨hwell, hplaced⟩ := haccounted.tracked buffer hopen
    refine ⟨hwell, fun number name hbacking => ?_⟩
    obtain ⟨-, -, hmax, location, hlocate, hfind⟩ := hplaced number name hbacking
    exact ⟨hwell, hbacking, hmax, location, hfollows.locateNamed hlocate,
      hkept _ _ _ hfind (Or.inl ⟨buffer, name, hopen, hbacking⟩)⟩
  have hrefresh : (session.buffer?.map fun buffer => buffer.refresh disk) = session.buffer? := by
    cases hopen : session.buffer? with
    | none => rfl
    | some buffer =>
        cases hbacking : buffer.backing with
        | heap => simp only [Option.map_some, Buffer.refresh, hbacking]
        | mapped number name =>
            have hplaced := (htracked buffer hopen).2 number name hbacking
            rw [Option.map_some, hplaced.refresh_eq horderly]
  rw [hrefresh]
  exact ⟨haccounted.transfer horderly hfollows htracked htemporary (fun _ => Iff.rfl)
    haccounted.apart, fun place number data hfind hfree hunnamed =>
      ⟨hkept place number data hfind (Or.inr hunnamed), hfree⟩⟩

/-- A file at a path is changed from outside. -/
theorem changed_at (haccounted : session.Accounted numbers) {disk : Disk} {location : Location}
    (hchanged : session.disk.ChangedAt disk location) (hspelled : Disk.Spelled location)
    (hnamed : named location)
    (hspares : ∀ number data, session.disk.find? location = some (.file number data) →
      ¬ session.Occupies number) :
    Carried named session ⟨disk, session.buffer?.map fun buffer => buffer.refresh disk⟩
      numbers := by
  refine haccounted.changed_outside hchanged.orderly hchanged.follows
    (hchanged.isSome_temporary (Or.inl hspelled)) ?_
  intro place number data hfind hplace
  rw [hchanged.elsewhere]
  · exact hfind
  · rintro rfl
    rcases hplace with hoccupies | hunnamed
    · exact hspares number data hfind hoccupies
    · exact hunnamed hnamed

end Accounted

/-! ## Steps -/

theorem discard_buffer? (session : Session) : session.discard.1.buffer? = none := by
  unfold Session.discard
  split
  next hnone => exact hnone
  next => rfl

/-- A step that opens a buffer in place of another one ends with what was made on the disk that the
other one left. -/
theorem advance_of_replace {command : Command}
    {make : Disk → Except Fault (Disk × Except StorageError Buffer)}
    (hperform : session.perform command = session.replace make) :
    (session.advance command = session.discard.1 ∧
        ∃ fault, session.perform command = .error fault) ∨
      ∃ disk made, make session.discard.1.disk = .ok (disk, made) ∧
        session.advance command = ⟨disk, made.toOption⟩ ∧
        session.perform command = .ok (⟨disk, made.toOption⟩, match made with
          | .ok _ => .reply .done
          | .error error => .failed error) := by
  unfold Session.advance
  rw [hperform]
  unfold Session.replace
  cases hmade : make session.discard.1.disk with
  | error fault => exact Or.inl ⟨rfl, fault, rfl⟩
  | ok result =>
      obtain ⟨disk, error | buffer⟩ := result <;> exact Or.inr ⟨disk, _, rfl, rfl, rfl⟩

/-- A step that asks to open a file opens it by its name or does nothing to it. -/
theorem perform_of_opens (session : Session) {command : Command} {name : FileName}
    (hopens : command.opens? = some name) :
    ∃ make, session.perform command = session.replace make ∧
      ∀ before after made, before.Orderly → make before = .ok (after, made) →
        Buffer.OpensBy before after name made ∧ Tracked ⟨after, made.toOption⟩ := by
  have hmapped : ∀ size maxSize startOffset before after made, before.Orderly →
      Buffer.mapPath before name size maxSize startOffset = .ok (after, made) →
      Buffer.OpensBy before after name made ∧ Tracked ⟨after, made.toOption⟩ := by
    intro size maxSize startOffset before after made horderly hmake
    refine ⟨Buffer.mapPath_opensBy horderly hmake, ?_⟩
    cases made with
    | error error => exact tracked_of_none rfl
    | ok buffer =>
        rintro _ ⟨⟩
        exact ⟨(Buffer.mapPath_made hmake).1,
          fun _ _ hbacking => Buffer.mapPath_placed_backing hmake hbacking⟩
  cases command with
  | mapPath opened size maxSize startOffset =>
      cases hopens
      exact ⟨_, rfl, hmapped size maxSize startOffset⟩
  | build changes =>
      refine ⟨_, rfl, fun before after made horderly hmake => ?_⟩
      obtain ⟨rfl, flaw, rfl⟩ | ⟨opened, hopened, hmake⟩ | ⟨hnone, -⟩ := Buffer.build_cases hmake
      · exact ⟨Or.inl ⟨rfl, _, rfl, rfl⟩, tracked_of_none rfl⟩
      · cases hopens.symm.trans hopened
        exact hmapped _ _ _ _ _ _ horderly hmake
      · cases hopens.symm.trans hnone
  | _ => cases hopens

theorem mem_leaves {command : Command} {number : Nat} :
    number ∈ session.leaves command ↔ command.opens? = some (.temporary number) ∧
      ∃ after error, session.perform command = .ok (after, .failed error) ∧
        error.leavesFile = true := by
  unfold leaves
  split
  next opened after error hopens hperform =>
    rw [hopens, Option.some.injEq, FileName.temporary.injEq]
    constructor
    · intro hnumber
      split at hnumber
      next hleaves =>
        exact ⟨(List.mem_singleton.mp hnumber).symm, after, error, hperform, hleaves⟩
      next => cases hnumber
    · rintro ⟨rfl, _, other, hother, hleaves⟩
      cases hperform.symm.trans hother
      rw [if_pos hleaves]
      exact List.mem_singleton_self _
  next hother =>
    refine iff_of_false List.not_mem_nil ?_
    rintro ⟨hopens, after, error, hperform, -⟩
    exact hother _ _ _ hopens hperform

theorem mem_keptAfter {command : Command} {number : Nat} :
    number ∈ session.keptAfter numbers command ↔
      number ∈ numbers ∧ ¬ (session.advance command).Uses number ∨
        number ∈ session.keeps command ∨ number ∈ session.leaves command := by
  simp only [keptAfter, List.mem_append, List.mem_filter, decide_eq_true_iff]

namespace Accounted

/-- A step after which the temporary files are accounted for, and of those that were kept before only
the one that it opens by its name belongs to a buffer. -/
structure Stepped (session : Session) (command : Command) (numbers : List Nat) : Prop where
  carried : Carried (fun place => session.Names place command) session (session.advance command)
    (session.keptAfter numbers command)
  taken : ∀ number ∈ numbers, (session.advance command).Uses number →
    command.opens? = some (.temporary number)

/-- A step that opens no file by its name adds to the temporary files that are kept. -/
theorem Stepped.of_carried {command : Command} (hopens : command.opens? = none)
    (hcarried : Carried (fun place => session.Names place command) session
      (session.advance command) (numbers ++ session.keeps command)) :
    Stepped session command numbers := by
  have hfree : ∀ number ∈ numbers, ¬ (session.advance command).Uses number :=
    fun number hnumber huses =>
      hcarried.accounted.apart number huses (List.mem_append_left _ hnumber)
  refine ⟨hcarried.congr fun number => ?_, fun number hnumber huses =>
    absurd huses (hfree number hnumber)⟩
  rw [mem_keptAfter, List.mem_append, and_iff_left_of_imp (hfree number), mem_leaves, hopens]
  simp only [reduceCtorEq, false_and, or_false]

/-- A step that opens a file by its name. -/
theorem stepped_of_opens (haccounted : session.Accounted numbers) {command : Command}
    {name : FileName} (hopens : command.opens? = some name)
    (hnames : ∀ place, session.disk.locateNamed name = .ok place → session.Names place command) :
    Stepped session command numbers := by
  obtain ⟨hdiscard, hnone, hfollows⟩ :
      Carried (fun place => session.Names place command) session session.discard.1 numbers ∧
        _ ∧ _ := haccounted.discard
  have hdiscarded := hdiscard.accounted
  have hkeeps : session.keeps command = [] := keeps_of_ne (by rintro rfl; cases hopens)
  obtain ⟨make, hreplace, hmakes⟩ := session.perform_of_opens hopens
  obtain ⟨hadvance, fault, hfault⟩ | ⟨disk, made, hmake, hadvance, hperform⟩ :=
    advance_of_replace hreplace
  · -- Nothing is opened, so nothing belongs to a buffer now.
    have hunused := (Unmapped.of_none hnone).not_uses
    rw [← hadvance] at hdiscard hunused
    refine ⟨hdiscard.congr fun number => ?_, fun number _ huses => absurd huses (hunused number)⟩
    rw [mem_keptAfter, mem_leaves, hkeeps, hfault, and_iff_left (hunused number)]
    simp
  · obtain ⟨hopened, htracked⟩ := hmakes _ _ _ hdiscarded.orderly hmake
    have hothers : ∀ number, number ∈ session.keptAfter numbers command ↔
        number ∈ numbers ∧ ¬ Uses ⟨disk, made.toOption⟩ number ∨
          name = .temporary number ∧ ∃ error, made = .error error ∧ error.leavesFile = true := by
      intro number
      rw [mem_keptAfter, mem_leaves, hkeeps, hadvance, hopens, hperform]
      cases made <;> simp
    have hmade := (hdiscarded.made_by_name hnone hopened htracked hothers).mono
      fun place hplace => hnames place (hfollows.locateNamed hplace)
    refine ⟨?_, fun number _ huses => ?_⟩
    · rw [hadvance]
      exact hdiscard.trans hmade
    · rw [hadvance] at huses
      obtain ⟨-, error, rfl, -⟩ | ⟨location, _, _, -, -, -, houtcome⟩ := hopened
      · exact absurd huses ((Unmapped.of_none rfl).not_uses number)
      · rw [hopens, houtcome.eq_of_uses huses]

/-- The open buffer goes out of use before another one is made. -/
theorem replace (haccounted : session.Accounted numbers) {command : Command}
    {make : Disk → Except Fault (Disk × Except StorageError Buffer)}
    (hperform : session.perform command = session.replace make)
    (hmake : ∀ disk made, session.discard.1.Accounted numbers →
      make session.discard.1.disk = .ok (disk, made) →
      Carried named session.discard.1 ⟨disk, made.toOption⟩ numbers) :
    Carried named session (session.advance command) numbers := by
  obtain ⟨hdiscard, -, -⟩ := haccounted.discard
  obtain ⟨hadvance, -⟩ | ⟨disk, made, hmade, hadvance, -⟩ := advance_of_replace hperform
  · rw [hadvance]
    exact hdiscard
  · rw [hadvance]
    exact hdiscard.trans (hmake disk made hdiscard.accounted hmade)

/-- A step that opens no file by its name. -/
theorem carried_of_not_opens (haccounted : session.Accounted numbers) {command : Command}
    (hopens : command.opens? = none) (hspares : session.Spares command) :
    Carried (fun place => session.Names place command) session (session.advance command)
      (numbers ++ session.keeps command) := by
  have hnone := discard_buffer? session
  obtain ⟨hdiscard, -, -⟩ :
      Carried (fun place => session.Names place command) session session.discard.1 numbers ∧
        _ ∧ _ := haccounted.discard
  rcases eq_or_ne command .persist with rfl | hpersist
  · exact haccounted.persist
  rw [keeps_of_ne hpersist, List.append_nil]
  cases command with
  | persist => exact absurd rfl hpersist
  | mapPath name size maxSize startOffset => cases hopens
  | new size =>
      refine haccounted.replace (by rw [Session.perform]) fun disk made hdiscarded hmake => ?_
      obtain ⟨buffer, hnew, hmade⟩ := bind_eq_ok.mp hmake
      cases hmade
      obtain ⟨hwell, -, hheap, -⟩ := Buffer.new_made hnew
      exact hdiscarded.made_in_memory hnone hwell hheap
  | create size maxSize kind =>
      refine haccounted.replace (by rw [Session.perform]) fun disk made hdiscarded hmake => ?_
      exact hdiscarded.made_by_create hnone hmake
  | build changes =>
      refine haccounted.replace (by rw [Session.perform]) fun disk made hdiscarded hmake => ?_
      obtain ⟨rfl, flaw, rfl⟩ | ⟨name, hfile, -⟩ | ⟨-, hcreated⟩ := Buffer.build_cases hmake
      · exact hdiscarded.carried_closed (Unmapped.of_none hnone)
      · cases hopens.symm.trans hfile
      · exact hdiscarded.made_by_create hnone hcreated
  | discard =>
      exact hdiscard
  | release =>
      have hrelease : session.release.1 = session.discard.1 := by
        unfold Session.release Session.discard
        split <;> rfl
      show Carried _ session session.release.1 numbers
      rw [hrelease]
      exact hdiscard
  | operate operation =>
      cases hoperate : session.operate operation with
      | error fault =>
          simp only [Session.advance, Session.perform, hoperate]
          exact hdiscard
      | ok result =>
          simp only [Session.advance, Session.perform, hoperate]
          exact haccounted.operate hoperate
  | putFile path bytes =>
      simp only [Session.advance, Session.perform, Session.changeDisk]
      cases hwrite : session.disk.write path bytes with
      | error cause => exact Carried.refl haccounted
      | ok disk =>
          obtain ⟨location, hlocate, hchanged⟩ := haccounted.orderly.changedAt_write hwrite
          have hfound := (Disk.locateFile_eq_ok.mp hlocate).1
          exact haccounted.changed_at hchanged (Disk.locate_spelled hfound) hlocate
            fun number data hfind => hspares location number data hfound hfind
  | deleteFile path =>
      simp only [Session.advance, Session.perform, Session.changeDisk]
      cases hremove : session.disk.remove path with
      | error cause => exact Carried.refl haccounted
      | ok disk =>
          obtain ⟨location, hlocate, hchanged⟩ := haccounted.orderly.changedAt_remove hremove
          exact haccounted.changed_at hchanged (Disk.locate_spelled hlocate) hlocate
            fun number data hfind => hspares location number data hlocate hfind
  | makeDirectory path =>
      obtain ⟨horderly, htemporary, hnext, hkept, hunspelled⟩ :=
        haccounted.orderly.widened_makeDirectories path
      refine haccounted.changed_outside horderly
        ⟨htemporary, Nat.le_of_eq hnext.symm, fun place _ => hkept place _⟩ ?_
        fun place number data hfind _ => hkept place _ hfind
      intro directory number
      rw [hunspelled _ fun hspelled => hspelled number (by simp)]

/-- One step. -/
theorem advance (haccounted : session.Accounted numbers) {command : Command}
    (hspares : session.Spares command) : Stepped session command numbers := by
  cases hopens : command.opens? with
  | none => exact .of_carried hopens (haccounted.carried_of_not_opens hopens hspares)
  | some name =>
      refine haccounted.stepped_of_opens hopens fun place hplace => ?_
      cases command with
      | mapPath =>
          cases hopens
          exact hplace
      | build => exact ⟨name, hopens, hplace⟩
      | _ => cases hopens

/-- Steps one after another. -/
theorem run {commands : List Command} (haccounted : session.Accounted numbers)
    (hundisturbed : session.Undisturbed commands) :
    Carried (fun place => session.NamedBy place commands) session (session.run commands)
      (session.kept numbers commands) := by
  induction commands generalizing session numbers with
  | nil => exact Carried.refl haccounted
  | cons command rest ih =>
      obtain ⟨hspares, hrest⟩ := hundisturbed
      have hfirst := (haccounted.advance hspares).carried
      exact (hfirst.mono fun _ hplace => Or.inl hplace).trans
        ((ih hfirst.accounted hrest).mono fun _ hplace => Or.inr hplace)

end Accounted

end Session

end RecordBuffer

import RecordBuffer.Proofs.Accounted

/-!
# Buffers opened among files that are accounted for

A new buffer has its own memory, a temporary file that is made for it, or a file
that it opens by its name. In each case the temporary files stay accounted for.
One that is opened by its name belongs to the buffer that maps it, and stays where
it is when it cannot be mapped.
-/

namespace RecordBuffer

/-- A file that was opened stays where it is when its length or its mapping is refused. -/
def StorageError.leavesFile : StorageError → Bool
  | truncate _ _ _ | map _ _ _ => true
  | _ => false

namespace Buffer

variable {buffer : Buffer} {disk after : Disk} {number : Nat} {name : FileName}

/-- A mapped buffer of a file, or an error after which the file is left where it was opened. -/
def MapsOrLeaves (made : Except StorageError Buffer) (number : Nat) (name : FileName) : Prop :=
  (∃ buffer, made = .ok buffer ∧ buffer.backing = .mapped number name) ∨
    ∃ error, made = .error error ∧ error.leavesFile = true

/-- An opened file that is not too long may get another length. It is mapped under its own number, if
at all. -/
theorem mapFile_changedAt {location : Location} {data : FileData}
    {size maxSize startOffset : Nat} {made : Except StorageError Buffer}
    (horderly : disk.Orderly) (hfind : disk.find? location = some (.file number data))
    (hmapped : mapFile disk name number data size maxSize startOffset = (after, made)) :
    (after = disk ∧ data.length ≠ 0 ∧ ∃ error, made = .error error ∧ error.leavesFile = false) ∨
      disk.ChangedAt after location ∧
        (∃ stored, after.find? location = some (.file number stored)) ∧
        MapsOrLeaves made number name := by
  have hsame := Disk.ChangedAt.refl horderly (Disk.ne_directory_of_file hfind)
  have hstored := horderly.changedAt_store hfind
  have hfound := Disk.find?_store_self hfind
  unfold mapFile at hmapped
  simp only at hmapped
  split at hmapped
  next hexceeds =>
    cases hmapped
    exact Or.inl ⟨rfl, by omega, _, rfl, rfl⟩
  split at hmapped
  next hlength =>
    cases hmapped
    obtain rfl := checkLength_eq_error hlength
    exact Or.inr ⟨hsame, ⟨_, hfind⟩, Or.inr ⟨_, rfl, rfl⟩⟩
  split at hmapped
  next hmapping =>
    cases hmapped
    obtain ⟨cause, rfl⟩ := checkMapping_eq_error hmapping
    exact Or.inr ⟨hstored _, ⟨_, hfound _⟩, Or.inr ⟨_, rfl, rfl⟩⟩
  next =>
    cases hmapped
    exact Or.inr ⟨hstored _, ⟨_, hfound _⟩, Or.inl ⟨_, rfl, rfl⟩⟩

theorem MapsOrLeaves.backing_eq {made : Except StorageError Buffer}
    (houtcome : MapsOrLeaves made number name) (hopen : made.toOption = some buffer) :
    buffer.backing = .mapped number name := by
  obtain ⟨_, rfl, hmapped⟩ | ⟨_, rfl, -⟩ := houtcome
  · cases hopen
    exact hmapped
  · cases hopen

/-- Only a temporary file that is opened by its name comes to belong to the buffer. -/
theorem MapsOrLeaves.eq_of_uses {made : Except StorageError Buffer} {other : Nat}
    (houtcome : MapsOrLeaves made number name)
    (huses : Session.Uses ⟨disk, made.toOption⟩ other) : name = .temporary other := by
  obtain ⟨buffer, hopen, -⟩ := Option.bind_eq_some_iff.mp huses
  exact (Session.uses_iff hopen (houtcome.backing_eq hopen)).mp huses

/-- How the file with a name is opened. It is refused with nothing touched, or it stays where the name
leads, mapped or not. -/
def OpensBy (disk after : Disk) (name : FileName) (made : Except StorageError Buffer) : Prop :=
  (after = disk ∧ ∃ error, made = .error error ∧ error.leavesFile = false) ∨
    ∃ location number data, disk.locateNamed name = .ok location ∧
      disk.ChangedAt after location ∧ after.find? location = some (.file number data) ∧
      MapsOrLeaves made number name

theorem mapPath_opensBy {size maxSize startOffset : Nat} {made : Except StorageError Buffer}
    (horderly : disk.Orderly)
    (hmake : mapPath disk name size maxSize startOffset = .ok (after, made)) :
    OpensBy disk after name made := by
  obtain ⟨rfl, ⟨flaw, rfl⟩ | ⟨cause, rfl⟩⟩ |
    ⟨-, -, opened, location, number, data, hopened, hmapped⟩ := mapPath_cases hmake
  · exact Or.inl ⟨rfl, _, rfl, rfl⟩
  · exact Or.inl ⟨rfl, _, rfl, rfl⟩
  have hchanged := horderly.changedAt_opened hopened
  obtain ⟨rfl, hlength, hrefused⟩ | ⟨hmore, ⟨stored, hstored⟩, houtcome⟩ :=
    mapFile_changedAt hchanged.orderly hopened.found hmapped
  · exact Or.inl ⟨hopened.eq_of_length hlength, hrefused⟩
  · exact Or.inr ⟨location, number, stored, hopened.named, hchanged.trans hmore, hstored, houtcome⟩

end Buffer

namespace Session

variable {session after : Session} {numbers : List Nat} {named : Location → Prop}

namespace Accounted

variable {buffer : Buffer}

/-- A buffer of its own memory is made. -/
theorem made_in_memory (haccounted : session.Accounted numbers) (hnone : session.buffer? = none)
    (hwell : buffer.WellFormed) (hheap : buffer.backing = .heap) :
    Carried named session ⟨session.disk, some buffer⟩ numbers := by
  refine haccounted.carried_unmapped (Unmapped.of_none hnone) ?_ (Unmapped.of_heap rfl hheap)
  rintro _ ⟨⟩
  exact hwell

/-- A buffer is mapped to a temporary file that is made for it. -/
theorem made_temporary (haccounted : session.Accounted numbers) (hnone : session.buffer? = none)
    {directory : Location} {data : FileData}
    (hdirectory : session.disk.temporaryLocation = .ok directory)
    (hnothing : session.disk.find? (directory ++ [.temporary session.disk.nextNumber]) = none)
    (hafter : after.disk =
      (session.disk.addFile (directory ++ [.temporary session.disk.nextNumber]) data).1)
    (hopen : after.buffer? = some buffer)
    (hbacking : buffer.backing =
      .mapped session.disk.nextNumber (.temporary session.disk.nextNumber))
    (htracked : after.Tracked) : Carried named session after numbers := by
  have horderly := haccounted.orderly
  have hadd := fun place =>
    Disk.find?_addFile session.disk _ place data (Disk.ne_nil_of_find? hnothing)
  have hchanged := horderly.changedAt_addFile hnothing
    (fun other number hplace => by
      obtain ⟨rfl, hnumber⟩ := List.append_inj' hplace rfl
      cases hnumber
      exact ⟨Nat.le_refl _, hdirectory⟩) data
  rw [← hafter] at hadd hchanged
  have hfollows := hchanged.follows
  have huses : ∀ number, after.Uses number ↔ number = session.disk.nextNumber := by
    intro number
    rw [uses_iff hopen hbacking, FileName.temporary.injEq, eq_comm]
  have hunused := (Unmapped.of_none hnone).not_uses
  refine ⟨⟨hchanged.orderly, htracked, ?_, ?_, ?_⟩, ?_⟩
  · rintro number (hnumber | hnumber)
    · obtain ⟨other, hother, hthere⟩ := haccounted.there number (Or.inl hnumber)
      refine ⟨other, hfollows.temporaryLocation hother, ?_⟩
      rw [hadd]
      split
      next => rfl
      next => exact hthere
    · obtain rfl := (huses number).mp hnumber
      refine ⟨directory, hfollows.temporaryLocation hdirectory, ?_⟩
      rw [hadd, if_pos rfl]
      rfl
  · intro other number hthere
    rw [hadd] at hthere
    split at hthere
    next hplace =>
      obtain ⟨rfl, hnumber⟩ := List.append_inj' hplace rfl
      cases hnumber
      exact Or.inr ((huses _).mpr rfl)
    next =>
      exact Or.inl ((haccounted.known other number hthere).resolve_right (hunused number))
  · intro number hnumber hkept
    obtain rfl := (huses number).mp hnumber
    obtain ⟨other, hother, hthere⟩ := haccounted.there _ (Or.inl hkept)
    obtain ⟨entry, hentry⟩ := Option.isSome_iff_exists.mp hthere
    exact Nat.lt_irrefl _ (horderly.temporary_lt _ _ _ hentry (by simp))
  · intro place number old hplace _ _
    refine ⟨hchanged.find?_of_ne hplace ?_, fun hoccupies => ?_⟩
    · intro hfile
      cases hnothing.symm.trans hfile
    · obtain rfl := (occupies_iff hopen hbacking).mp hoccupies
      exact Nat.lt_irrefl _ (horderly.file_lt _ _ _ hplace)

/-- A buffer is made without a path. -/
theorem made_by_create (haccounted : session.Accounted numbers) (hnone : session.buffer? = none)
    {size maxSize : Nat} {kind : Kind} {disk : Disk} {made : Except StorageError Buffer}
    (hmake : Buffer.create session.disk size maxSize kind = .ok (disk, made)) :
    Carried named session ⟨disk, made.toOption⟩ numbers := by
  cases made with
  | error error =>
      rw [Buffer.create_failed hmake]
      exact haccounted.carried_closed (Unmapped.of_none hnone)
  | ok buffer =>
      have hwell := (Buffer.create_made hmake).1
      obtain ⟨-, backing, rfl, ⟨-, rfl, rfl⟩ | ⟨-, rfl, -, directory, hdirectory, hnothing,
        hdisk⟩⟩ := Buffer.create_cases hmake
      · exact haccounted.made_in_memory hnone hwell rfl
      · refine haccounted.made_temporary hnone hdirectory hnothing hdisk rfl rfl ?_
        rintro _ ⟨⟩
        exact ⟨hwell, fun _ _ hbacking => Buffer.create_placed hmake hbacking⟩

/-- A file is opened by its name, and a temporary one belongs to the buffer that maps it. -/
theorem made_by_name (haccounted : session.Accounted numbers) (hnone : session.buffer? = none)
    {name : FileName} {disk : Disk} {made : Except StorageError Buffer} {others : List Nat}
    (hmake : Buffer.OpensBy session.disk disk name made)
    (htracked : Tracked ⟨disk, made.toOption⟩)
    (hothers : ∀ number, number ∈ others ↔
      number ∈ numbers ∧ ¬ Uses ⟨disk, made.toOption⟩ number ∨
        name = .temporary number ∧ ∃ error, made = .error error ∧ error.leavesFile = true) :
    Carried (fun place => session.disk.locateNamed name = .ok place) session
      ⟨disk, made.toOption⟩ others := by
  have hunused := (Unmapped.of_none hnone).not_uses
  obtain ⟨rfl, error, rfl, hleaves⟩ |
    ⟨location, number, data, hlocate, hchanged, hfind, houtcome⟩ := hmake
  · refine (haccounted.carried_closed (Unmapped.of_none hnone)).congr fun number => ?_
    rw [hothers, and_iff_left ((Unmapped.of_none rfl).not_uses number), or_iff_left]
    rintro ⟨-, _, ⟨⟩, hfile⟩
    cases hleaves.symm.trans hfile
  have hplaced : ∀ directory other, directory ++ [.temporary other] = location →
      name = .temporary other := by
    rintro directory other rfl
    exact (Disk.locateNamed_last hlocate List.getLast?_concat).1
  have huses : ∀ other, Uses ⟨disk, made.toOption⟩ other → name = .temporary other :=
    fun _ => houtcome.eq_of_uses
  refine ⟨⟨hchanged.orderly, htracked, ?_, ?_, ?_⟩, ?_⟩
  · intro other hother
    by_cases hname : name = .temporary other
    · subst hname
      obtain ⟨-, directory, hdirectory, rfl⟩ := Disk.locateNamed_temporary.mp hlocate
      exact ⟨directory, hchanged.follows.temporaryLocation hdirectory, by rw [hfind]; rfl⟩
    · have hnumber : other ∈ numbers := by
        rcases hother with hother | hother
        · exact (((hothers other).mp hother).resolve_right fun hleft => hname hleft.1).1
        · exact absurd (huses other hother) hname
      obtain ⟨directory, hdirectory, hthere⟩ := haccounted.there other (Or.inl hnumber)
      refine ⟨directory, hchanged.follows.temporaryLocation hdirectory, ?_⟩
      rw [hchanged.elsewhere _ fun hplace => hname (hplaced directory other hplace)]
      exact hthere
  · intro directory other hthere
    by_cases hplace : directory ++ [.temporary other] = location
    · have hname := hplaced directory other hplace
      obtain ⟨buffer, rfl, hmapped⟩ | hleft := houtcome
      · exact Or.inr ((uses_iff rfl hmapped).mpr hname)
      · exact Or.inl ((hothers other).mpr (Or.inr ⟨hname, hleft⟩))
    · rw [hchanged.elsewhere _ hplace] at hthere
      have hnumber := (haccounted.known directory other hthere).resolve_right (hunused other)
      by_cases hused : Uses ⟨disk, made.toOption⟩ other
      · exact Or.inr hused
      · exact Or.inl ((hothers other).mpr (Or.inl ⟨hnumber, hused⟩))
  · intro other hused hother
    obtain ⟨-, hfree⟩ | ⟨-, error, rfl, -⟩ := (hothers other).mp hother
    · exact hfree hused
    · exact (Unmapped.of_none rfl).not_uses other hused
  · intro place other old hplace _ hunnamed
    have hne : place ≠ location := by
      rintro rfl
      exact hunnamed hlocate
    have hkept := (hchanged.elsewhere place hne).trans hplace
    refine ⟨hkept, ?_⟩
    rintro ⟨buffer, opened, hopen, hmapped⟩
    cases (houtcome.backing_eq hopen).symm.trans hmapped
    exact hne (hchanged.orderly.distinct _ _ _ _ _ hkept hfind)

end Accounted

end Session

end RecordBuffer

import RecordBuffer.Proofs.Orderly

/-!
# Files of buffers accounted for

The temporary files that are there are that of the open buffer and some that were
kept. This stays so while the open buffer is used and when it is given up, and
any other file stays as it is. A buffer that is given up takes its own file with
it, or keeps the bytes below the cursor in it.
-/

namespace RecordBuffer

/-- No number is handed out by the destructor. -/
theorem Buffer.drop_nextNumber (buffer : Buffer) (disk : Disk) :
    (buffer.drop disk).nextNumber = disk.nextNumber := by
  unfold Buffer.drop Buffer.free
  split
  next => rfl
  next number name _ =>
    simp only
    split
    next => rfl
    next hremove => exact (Disk.removeNamed_nextNumber hremove :)

namespace Session

variable {session before middle after : Session} {numbers : List Nat} {named : Location → Prop}

/-- The open buffer is mapped to the file with a number. -/
def Occupies (session : Session) (number : Nat) : Prop :=
  ∃ buffer name, session.buffer? = some buffer ∧ buffer.backing = .mapped number name

/-- The open buffer is mapped to the temporary file with a number in its name. -/
def Uses (session : Session) (number : Nat) : Prop :=
  session.buffer?.bind Buffer.file? = some (.temporary number)

instance (session : Session) (number : Nat) : Decidable (session.Uses number) :=
  inferInstanceAs (Decidable (_ = _))

/-- No file is mapped by the open buffer. -/
def Unmapped (session : Session) : Prop :=
  ∀ number, ¬ session.Occupies number

/-- The temporary file that a step keeps for good. -/
def keeps (session : Session) : Command → List Nat
  | .persist =>
      match session.buffer?.bind Buffer.file? with
      | some (.temporary number) => [number]
      | _ => []
  | _ => []

/-- The temporary files that are there are those that were kept and that of the open buffer. -/
structure Accounted (session : Session) (numbers : List Nat) : Prop where
  orderly : session.disk.Orderly
  tracked : session.Tracked
  there : ∀ number, number ∈ numbers ∨ session.Uses number →
    ∃ directory, session.disk.temporaryLocation = .ok directory ∧
      (session.disk.find? (directory ++ [.temporary number])).isSome
  known : ∀ directory number, (session.disk.find? (directory ++ [.temporary number])).isSome →
    number ∈ numbers ∨ session.Uses number
  apart : ∀ number, session.Uses number → number ∉ numbers

/-- What is kept between two sessions: the temporary files are accounted for, and files that are
neither named nor those of a buffer stay as they are. -/
structure Carried (named : Location → Prop) (before after : Session) (numbers : List Nat) :
    Prop where
  accounted : after.Accounted numbers
  others : ∀ place number data, before.disk.find? place = some (.file number data) →
    ¬ before.Occupies number → ¬ named place →
      after.disk.find? place = some (.file number data) ∧ ¬ after.Occupies number

theorem Accounted.congr {others : List Nat} (haccounted : session.Accounted numbers)
    (hsame : ∀ number, number ∈ others ↔ number ∈ numbers) : session.Accounted others where
  orderly := haccounted.orderly
  tracked := haccounted.tracked
  there number hnumber := haccounted.there number (hnumber.imp_left (hsame number).mp)
  known directory number hthere :=
    (haccounted.known directory number hthere).imp_left (hsame number).mpr
  apart number huses hnumber := haccounted.apart number huses ((hsame number).mp hnumber)

namespace Carried

theorem congr {others : List Nat} (hcarried : Carried named before after numbers)
    (hsame : ∀ number, number ∈ others ↔ number ∈ numbers) : Carried named before after others :=
  ⟨hcarried.accounted.congr hsame, hcarried.others⟩

theorem refl (haccounted : session.Accounted numbers) :
    Carried named session session numbers :=
  ⟨haccounted, fun _ _ _ hfind hfree _ => ⟨hfind, hfree⟩⟩

theorem trans {between : List Nat} (hfirst : Carried named before middle between)
    (hsecond : Carried named middle after numbers) : Carried named before after numbers := by
  refine ⟨hsecond.accounted, fun place number data hfind hfree hnamed => ?_⟩
  obtain ⟨hfind, hfree⟩ := hfirst.others place number data hfind hfree hnamed
  exact hsecond.others place number data hfind hfree hnamed

theorem mono {more : Location → Prop} (hcarried : Carried named before after numbers)
    (hmore : ∀ place, named place → more place) : Carried more before after numbers :=
  ⟨hcarried.accounted, fun place number data hfind hfree hnamed =>
    hcarried.others place number data hfind hfree fun hplace => hnamed (hmore place hplace)⟩

end Carried

theorem uses_iff {buffer : Buffer} {number other : Nat} {name : FileName}
    (hopen : session.buffer? = some buffer) (hbacking : buffer.backing = .mapped other name) :
    session.Uses number ↔ name = .temporary number := by
  rw [Uses, hopen, Option.bind_some, Buffer.file?, hbacking, Option.some.injEq]

theorem occupies_iff {buffer : Buffer} {number other : Nat} {name : FileName}
    (hopen : session.buffer? = some buffer) (hbacking : buffer.backing = .mapped other name) :
    session.Occupies number ↔ number = other := by
  constructor
  · rintro ⟨opened, openedName, hopened, hmapped⟩
    cases hopen.symm.trans hopened
    cases hbacking.symm.trans hmapped
    rfl
  · rintro rfl
    exact ⟨buffer, name, hopen, hbacking⟩

theorem tracked_of_none (hnone : session.buffer? = none) : session.Tracked := by
  intro buffer hopen
  rw [hnone] at hopen
  cases hopen

namespace Unmapped

theorem of_none (hnone : session.buffer? = none) : session.Unmapped := by
  rintro number ⟨buffer, name, hopen, -⟩
  rw [hnone] at hopen
  cases hopen

theorem of_heap {buffer : Buffer} (hopen : session.buffer? = some buffer)
    (hheap : buffer.backing = .heap) : session.Unmapped := by
  rintro number ⟨other, name, hother, hbacking⟩
  cases hopen.symm.trans hother
  rw [hheap] at hbacking
  cases hbacking

theorem not_uses (hunmapped : session.Unmapped) (number : Nat) : ¬ session.Uses number := by
  intro huses
  obtain ⟨buffer, hopen, hfile⟩ := Option.bind_eq_some_iff.mp huses
  cases hbacking : buffer.backing with
  | heap =>
      rw [Buffer.file?, hbacking] at hfile
      cases hfile
  | mapped other name => exact hunmapped other ⟨buffer, name, hopen, hbacking⟩

end Unmapped

/-! ## Use and end of a buffer -/

theorem mem_keeps_persist {number : Nat} :
    number ∈ session.keeps .persist ↔ session.Uses number := by
  unfold keeps Uses
  simp only
  split
  next other hfile => simp [hfile, eq_comm]
  next hother =>
    exact iff_of_false List.not_mem_nil (hother number)

theorem keeps_of_ne {command : Command} (hcommand : command ≠ .persist) :
    session.keeps command = [] := by
  cases command <;> first | rfl | exact absurd rfl hcommand

namespace Accounted

variable {buffer : Buffer} {number : Nat} {name : FileName} {others : List Nat}

/-- A step that adds no temporary file and removes none. -/
theorem transfer (haccounted : session.Accounted numbers) (horderly : after.disk.Orderly)
    (hfollows : session.disk.Follows after.disk) (htracked : after.Tracked)
    (htemporary : ∀ directory number,
      (after.disk.find? (directory ++ [.temporary number])).isSome =
        (session.disk.find? (directory ++ [.temporary number])).isSome)
    (hin : ∀ number, number ∈ others ∨ after.Uses number ↔ number ∈ numbers ∨ session.Uses number)
    (hapart : ∀ number, after.Uses number → number ∉ others) : after.Accounted others := by
  refine ⟨horderly, htracked, ?_, ?_, hapart⟩
  · intro number hnumber
    obtain ⟨directory, hdirectory, hthere⟩ := haccounted.there number ((hin number).mp hnumber)
    exact ⟨directory, hfollows.temporaryLocation hdirectory, htemporary directory number ▸ hthere⟩
  · intro directory number hthere
    rw [htemporary] at hthere
    exact (hin number).mpr (haccounted.known directory number hthere)

/-- The file of the open buffer receives other bytes. -/
theorem carried_own (haccounted : session.Accounted numbers)
    (hopen : session.buffer? = some buffer) (hbacking : buffer.backing = .mapped number name)
    {stored : FileData} (hdisk : after.disk = session.disk.store number stored)
    (htracked : after.Tracked) (hfree : ∀ other, after.Occupies other → other = number)
    (hin : ∀ number, number ∈ others ∨ after.Uses number ↔ number ∈ numbers ∨ session.Uses number)
    (hapart : ∀ number, after.Uses number → number ∉ others) :
    Carried named session after others := by
  obtain ⟨-, -, -, location, -, hfind⟩ := (haccounted.tracked buffer hopen).2 number name hbacking
  have hchanged := haccounted.orderly.changedAt_store hfind stored
  rw [← hdisk] at hchanged
  have hsome : (after.disk.find? location).isSome = (session.disk.find? location).isSome := by
    rw [hdisk, Disk.find?_store, Option.isSome_map]
  refine ⟨haccounted.transfer hchanged.orderly hchanged.follows htracked
    (hchanged.isSome_temporary (Or.inr hsome)) hin hapart, ?_⟩
  intro place other data hplace hother _
  have hne : other ≠ number := fun heq => hother ((occupies_iff hopen hbacking).mpr heq)
  refine ⟨hchanged.find?_of_ne hplace ?_, fun hoccupies => hne (hfree other hoccupies)⟩
  rw [hfind]
  rintro ⟨⟩
  exact hne rfl

/-- Nothing but the open buffer differs, and neither before nor after it is mapped. -/
theorem carried_unmapped (haccounted : session.Accounted numbers) (hbefore : session.Unmapped)
    {opened? : Option Buffer} (hwell : ∀ buffer, opened? = some buffer → buffer.WellFormed)
    (hafter : Unmapped ⟨session.disk, opened?⟩) :
    Carried named session ⟨session.disk, opened?⟩ numbers := by
  have huses : ∀ number, Uses ⟨session.disk, opened?⟩ number ↔ session.Uses number := fun number =>
    iff_of_false (hafter.not_uses number) (hbefore.not_uses number)
  refine ⟨haccounted.transfer haccounted.orderly (Disk.Follows.refl _) ?_ (fun _ _ => rfl)
    (fun number => or_congr Iff.rfl (huses number))
    (fun number hnumber => absurd hnumber (hafter.not_uses number)),
    fun place number data hfind _ _ => ⟨hfind, hafter number⟩⟩
  intro buffer hopen
  exact ⟨hwell buffer hopen, fun number name hbacking =>
    absurd ⟨buffer, name, hopen, hbacking⟩ (hafter number)⟩

/-- A buffer of its own memory is given up. -/
theorem carried_closed (haccounted : session.Accounted numbers) (hunmapped : session.Unmapped) :
    Carried named session ⟨session.disk, none⟩ numbers := by
  refine haccounted.carried_unmapped hunmapped ?_ (Unmapped.of_none rfl)
  rintro buffer ⟨⟩

/-- The open buffer is used. -/
theorem operate {operation : Operation} {outcome : Outcome}
    (haccounted : session.Accounted numbers)
    (hoperate : session.operate operation = .ok (after, outcome)) :
    Carried named session after numbers := by
  have htracked := haccounted.tracked.operate hoperate
  cases hopen : session.buffer? with
  | none =>
      simp only [Session.operate, hopen] at hoperate
      cases hoperate
      exact Carried.refl haccounted
  | some buffer =>
      rw [operate_eq hopen] at hoperate
      obtain ⟨⟨used, result⟩, hperform, hoperate⟩ := bind_eq_ok.mp hoperate
      cases hoperate
      have hwell := (haccounted.tracked buffer hopen).1
      have hevolved := Buffer.perform_evolved hwell hperform
      have hused := hevolved.backing_eq
      cases hbacking : buffer.backing with
      | heap =>
          rw [hbacking] at hused
          have hdisk : used.publish session.disk = session.disk := by
            simp only [Buffer.publish, hused]
          rw [hdisk]
          refine haccounted.carried_unmapped (Unmapped.of_heap hopen hbacking) ?_
            (Unmapped.of_heap rfl hused)
          rintro _ ⟨⟩
          exact hevolved.wellFormed
      | mapped number name =>
          rw [hbacking] at hused
          have hdisk : used.publish session.disk =
              session.disk.store number ⟨used.memory, used.backed⟩ := by
            simp only [Buffer.publish, hused]
          have huses : ∀ other, Uses ⟨used.publish session.disk, some used⟩ other ↔
              session.Uses other := fun other =>
            (uses_iff rfl hused).trans (uses_iff hopen hbacking).symm
          refine haccounted.carried_own hopen hbacking hdisk htracked ?_ ?_ ?_
          · exact fun other hother => (occupies_iff rfl hused).mp hother
          · exact fun other => or_congr Iff.rfl (huses other)
          · exact fun other hother => haccounted.apart other ((huses other).mp hother)

/-- The open buffer is given up, and its file is kept. -/
theorem persist (haccounted : session.Accounted numbers) :
    Carried named session session.persist.1 (numbers ++ session.keeps .persist) := by
  cases hopen : session.buffer? with
  | none =>
      have hkeeps : session.keeps .persist = [] := by simp only [keeps, hopen, Option.bind_none]
      rw [hkeeps, List.append_nil]
      simp only [Session.persist, hopen]
      exact Carried.refl haccounted
  | some buffer =>
      simp only [Session.persist, hopen]
      cases hbacking : buffer.backing with
      | heap =>
          have hkeeps : session.keeps .persist = [] := by
            simp only [keeps, hopen, Option.bind_some, Buffer.file?, hbacking]
          have hdisk : buffer.persist session.disk = session.disk := by
            simp only [Buffer.persist_eq, Buffer.keep, hbacking]
          rw [hkeeps, List.append_nil, hdisk]
          exact haccounted.carried_closed (Unmapped.of_heap hopen hbacking)
      | mapped number name =>
          have hunmapped : Unmapped ⟨buffer.persist session.disk, none⟩ := Unmapped.of_none rfl
          refine haccounted.carried_own hopen hbacking
            (by simp only [Buffer.persist_eq, Buffer.keep, hbacking]; rfl) (tracked_of_none rfl)
            (fun other hother => absurd hother (hunmapped other)) (fun other => ?_)
            (fun other hother => absurd hother (hunmapped.not_uses other))
          rw [List.mem_append, mem_keeps_persist, or_iff_left (hunmapped.not_uses other)]

/-- The open buffer is given up with its file, whether or not anyone would learn of a failure. There
is none. -/
theorem release (haccounted : session.Accounted numbers) (hopen : session.buffer? = some buffer)
    (hbacking : buffer.backing = .mapped number name) :
    ∃ location gone, session.disk.locateNamed name = .ok location ∧
      session.disk.find? location = some (.file number ⟨buffer.memory, buffer.capacity⟩) ∧
      session.release = (⟨gone, none⟩, .reply .done) ∧
      session.discard = (⟨gone, none⟩, .reply .done) ∧
      session.disk.ChangedAt gone location ∧ gone.find? location = none := by
  obtain ⟨-, -, -, location, hlocate, hfind⟩ :=
    (haccounted.tracked buffer hopen).2 number name hbacking
  have hemptied := haccounted.orderly.changedAt_store hfind .empty
  obtain ⟨hremoved, hnothing⟩ :=
    hemptied.orderly.changedAt_erase (Disk.find?_store_self hfind .empty)
  have hrelease := Buffer.release_of_file hbacking hlocate hfind
  refine ⟨location, _, hlocate, hfind, ?_, ?_, hemptied.trans hremoved, hnothing⟩
  · simp only [Session.release, hopen, hrelease]
  · rw [Buffer.release_eq] at hrelease
    simp only [Session.discard, hopen, Buffer.drop, hrelease]

/-- The file of the open buffer goes with it. -/
theorem carried_gone {gone : Disk} {location : Location} {data : FileData}
    (haccounted : session.Accounted numbers) (hopen : session.buffer? = some buffer)
    (hbacking : buffer.backing = .mapped number name)
    (hlocate : session.disk.locateNamed name = .ok location)
    (hfind : session.disk.find? location = some (.file number data))
    (hchanged : session.disk.ChangedAt gone location) (hnothing : gone.find? location = none) :
    Carried named session ⟨gone, none⟩ numbers := by
  have htemporary : ∀ directory other, session.disk.temporaryLocation = .ok directory →
      session.Uses other → directory ++ [.temporary other] = location := by
    intro directory other hdirectory huses
    rw [uses_iff hopen hbacking] at huses
    subst huses
    obtain ⟨-, found, hfound, rfl⟩ := Disk.locateNamed_temporary.mp hlocate
    rw [Except.ok.inj (hdirectory.symm.trans hfound)]
  have hunmapped : Unmapped ⟨gone, none⟩ := Unmapped.of_none rfl
  refine ⟨⟨hchanged.orderly, tracked_of_none rfl, ?_, ?_,
    fun other hother => absurd hother (hunmapped.not_uses other)⟩, ?_⟩
  · intro other hother
    have hkept : other ∈ numbers := hother.resolve_right (hunmapped.not_uses other)
    obtain ⟨directory, hdirectory, hthere⟩ := haccounted.there other (Or.inl hkept)
    refine ⟨directory, hchanged.follows.temporaryLocation hdirectory, ?_⟩
    rw [hchanged.elsewhere]
    · exact hthere
    · -- Where a name leads that ends in a number, the buffer uses that number.
      rintro rfl
      have hname := (Disk.locateNamed_last hlocate List.getLast?_concat).1
      exact haccounted.apart other ((uses_iff hopen hbacking).mpr hname) hkept
  · intro directory other hthere
    have hplace : directory ++ [.temporary other] ≠ location := by
      intro heq
      rw [heq, hnothing] at hthere
      cases hthere
    rw [hchanged.elsewhere _ hplace] at hthere
    obtain ⟨entry, hentry⟩ := Option.isSome_iff_exists.mp hthere
    have hdirectory := haccounted.orderly.received directory other entry hentry
    exact Or.inl ((haccounted.known directory other hthere).resolve_right fun huses =>
      hplace (htemporary directory other hdirectory huses))
  · intro place other old hplace hother _
    refine ⟨hchanged.find?_of_ne hplace ?_, hunmapped other⟩
    rw [hfind]
    rintro ⟨⟩
    exact hother ((occupies_iff hopen hbacking).mpr rfl)

/-- The open buffer goes out of use, and its file with it. -/
theorem discard (haccounted : session.Accounted numbers) :
    Carried named session session.discard.1 numbers ∧ session.discard.1.buffer? = none ∧
      session.discard.1.disk.Follows session.disk := by
  cases hopen : session.buffer? with
  | none =>
      have hdiscard : session.discard.1 = session := by
        simp only [Session.discard, hopen]
      rw [hdiscard]
      exact ⟨Carried.refl haccounted, hopen, Disk.Follows.refl _⟩
  | some buffer =>
      cases hbacking : buffer.backing with
      | heap =>
          have hdiscard : session.discard.1 = ⟨session.disk, none⟩ := by
            simp only [Session.discard, hopen, Buffer.drop, Buffer.free, hbacking]
          rw [hdiscard]
          exact ⟨haccounted.carried_closed (Unmapped.of_heap hopen hbacking), rfl,
            Disk.Follows.refl _⟩
      | mapped number name =>
          obtain ⟨location, gone, hlocate, hfind, -, hdiscard, hchanged, hnothing⟩ :=
            haccounted.release hopen hbacking
          have hnext : session.discard.1.disk.nextNumber = session.disk.nextNumber := by
            simp only [Session.discard, hopen, Buffer.drop_nextNumber]
          rw [hdiscard] at hnext ⊢
          refine ⟨haccounted.carried_gone hopen hbacking hlocate hfind hchanged hnothing, rfl,
            hchanged.temporaryPath_eq.symm, Nat.le_of_eq hnext, fun place _ hplace => ?_⟩
          rw [← hchanged.elsewhere]
          · exact hplace
          · rintro rfl
            rw [hnothing] at hplace
            cases hplace

end Accounted

end Session

end RecordBuffer

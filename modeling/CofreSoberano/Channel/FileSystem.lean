import CofreSoberano.Std.Crash
import CofreSoberano.Audit.Rotation

/-!
# Publishing log files

Files are staged under a temporary name, written byte by byte, synced, and moved
to their place by an atomic rename. Every operating system call can fail; which
one does is an argument. A failed call leaves no temporary file behind, a crash
may.
-/

namespace CofreSoberano.Channel

open CofreSoberano.Std CofreSoberano.Audit

/-- A path, as the configuration spells it. -/
abbrev Path := String

/-- The files, by path. -/
abbrev Disk := Path → Option (List UInt8)

/-- Put a file at a path. -/
def Disk.put (disk : Disk) (path : Path) (bytes : List UInt8) : Disk :=
  fun other => if other = path then some bytes else disk other

/-- Delete the file at a path. -/
def Disk.remove (disk : Disk) (path : Path) : Disk :=
  fun other => if other = path then none else disk other

/-- Atomically move a file, replacing what was at its target. -/
def Disk.rename (disk : Disk) (source target : Path) : Disk :=
  match disk source with
  | none => disk
  | some bytes => (disk.remove source).put target bytes

/-- A program on files; failures are texts. -/
abbrev FileScript (V : Type) := Crashable Disk String V

/-- A call that fails with the given text, if any. -/
def call (fault : Option String) : FileScript Unit :=
  .ended (match fault with
    | none => .ok ()
    | some message => .error message)

/-- A call that deletes a staged file before it fails. -/
def callOrRemove (temp : Path) (fault : Option String) : FileScript Unit :=
  match fault with
  | none => .ended (.ok ())
  | some message => do
      Crashable.step (·.remove temp)
      Crashable.ended (.error message)

/-- Append bytes to a file, one atomic step each. -/
def appendBytes (path : Path) : List UInt8 → FileScript Unit
  | [] => .ended (.ok ())
  | byte :: rest => do
      Crashable.step fun disk => disk.put path (((disk path).getD []) ++ [byte])
      appendBytes path rest

/-- Where staging fails, with the texts of the errors: creating the file, after
some bytes of it, or syncing it. -/
structure StageFaults where
  create : Option String
  write : Option (Nat × String)
  sync : Option String

/-- The same faults under the texts that a caller gives them. -/
def StageFaults.describe (faults : StageFaults) (create write sync : String → String) :
    StageFaults where
  create := faults.create.map create
  write := faults.write.map fun (written, message) => (written, write message)
  sync := faults.sync.map sync

/-- Write the bytes of a staged file, up to a failure. -/
def writeStaged (temp : Path) (bytes : List UInt8) (fault : Option (Nat × String)) :
    FileScript Unit :=
  match fault with
  | none => appendBytes temp bytes
  | some (written, message) => do
      appendBytes temp (bytes.take written)
      callOrRemove temp (some message)

/-- Stage a complete, synced file under a temporary name. -/
def stageFile (temp : Path) (bytes : List UInt8) (faults : StageFaults) : FileScript Unit := do
  call faults.create
  Crashable.step (·.put temp [])
  writeStaged temp bytes faults.write
  callOrRemove temp faults.sync

/-- Where `AuditLog::save` fails. The temporary name is the one it draws. -/
structure SaveFaults where
  temp : Path
  metadata : Option String
  stage : StageFaults
  persist : Option String
  syncDir : Option String

/-- The same faults under the text that a caller gives them. -/
def SaveFaults.describe (faults : SaveFaults) (text : String → String) : SaveFaults where
  temp := faults.temp
  metadata := faults.metadata.map text
  stage := faults.stage.describe text text text
  persist := faults.persist.map text
  syncDir := faults.syncDir.map text

/-- `AuditLog::save`. An error from syncing the directory comes after the file
was replaced. -/
def save (bytes : List UInt8) (path : Path) (faults : SaveFaults) : FileScript Unit := do
  call faults.metadata
  stageFile faults.temp bytes faults.stage
  callOrRemove faults.temp faults.persist
  Crashable.step (·.rename faults.temp path)
  call faults.syncDir

/-- `persist_noclobber`: fails if the target exists. -/
def persistNoclobber (temp path : Path) (fault : Option String) (text : String → String) :
    FileScript Unit := do
  let exists? ← Crashable.query fun disk => .ok (disk path).isSome
  if exists? then callOrRemove temp (some (text "File exists (os error 17)"))
  else do
    callOrRemove temp (fault.map text)
    Crashable.step (·.rename temp path)

/-- What stands at the two paths that matter. -/
def Disk.Shows (current archive : Path) (atCurrent atArchive : Option (List UInt8)) (disk : Disk) :
    Prop :=
  disk current = atCurrent ∧ disk archive = atArchive

/-- A temporary name that is neither of the two paths. -/
def Aside (current archive temp : Path) : Prop := temp ≠ current ∧ temp ≠ archive

section Scripts

variable {current archive temp : Path} {atCurrent atArchive : Option (List UInt8)} {disk : Disk}

theorem Disk.Shows.put (shows : Disk.Shows current archive atCurrent atArchive disk)
    (aside : Aside current archive temp) (bytes : List UInt8) :
    Disk.Shows current archive atCurrent atArchive (disk.put temp bytes) := by
  refine ⟨?_, ?_⟩
  · rw [Disk.put, if_neg (Ne.symm aside.1)]
    exact shows.1
  · rw [Disk.put, if_neg (Ne.symm aside.2)]
    exact shows.2

theorem Disk.Shows.remove (shows : Disk.Shows current archive atCurrent atArchive disk)
    (aside : Aside current archive temp) :
    Disk.Shows current archive atCurrent atArchive (disk.remove temp) := by
  refine ⟨?_, ?_⟩
  · rw [Disk.remove, if_neg (Ne.symm aside.1)]
    exact shows.1
  · rw [Disk.remove, if_neg (Ne.symm aside.2)]
    exact shows.2

/-- A call changes nothing. -/
theorem call_triple {pre crash : Disk → Prop} (fault : Option String) :
    Crashable.Triple pre crash (fun _ => pre) (call fault) :=
  .ended fun _ _ holds _ => holds

/-- A failing call deletes only the staged file. -/
theorem callOrRemove_triple {crash : Disk → Prop} (fault : Option String) {staged : Disk → Prop}
    (removed : ∀ disk, staged disk → crash (disk.remove temp)) :
    Crashable.Triple staged crash (fun _ => staged) (callOrRemove temp fault) := by
  cases fault with
  | none => exact .ended fun _ _ holds _ => holds
  | some message =>
      refine .andThen (fun _ _ => True)
        (.step fun disk holds => ⟨removed disk holds, trivial⟩) ?_
      exact fun _ => .ended fun _ _ _ ended => by cases ended

/-- Appending to a staged file touches neither path. -/
theorem appendBytes_triple (aside : Aside current archive temp) (bytes before : List UInt8) :
    Crashable.Triple
      (fun disk => Disk.Shows current archive atCurrent atArchive disk ∧ disk temp = some before)
      (Disk.Shows current archive atCurrent atArchive)
      (fun _ disk => Disk.Shows current archive atCurrent atArchive disk ∧
        disk temp = some (before ++ bytes))
      (appendBytes temp bytes) := by
  induction bytes generalizing before with
  | nil => exact .ended fun _ _ holds _ => by simpa using holds
  | cons byte rest inductionHypothesis =>
      rw [appendBytes]
      refine .andThen (fun _ disk => Disk.Shows current archive atCurrent atArchive disk ∧
        disk temp = some (before ++ [byte])) (.step ?_) fun _ => ?_
      · rintro disk ⟨shows, content⟩
        exact ⟨shows.put aside _, shows.put aside _, by simp [Disk.put, content]⟩
      · simpa using inductionHypothesis (before ++ [byte])

/-- A staged file is complete, and staging touches neither path. -/
theorem stageFile_triple (aside : Aside current archive temp) (bytes : List UInt8)
    (faults : StageFaults) :
    Crashable.Triple (Disk.Shows current archive atCurrent atArchive)
      (Disk.Shows current archive atCurrent atArchive)
      (fun _ disk => Disk.Shows current archive atCurrent atArchive disk ∧ disk temp = some bytes)
      (stageFile temp bytes faults) := by
  have removing : ∀ content disk, Disk.Shows current archive atCurrent atArchive disk ∧
      disk temp = some content →
      Disk.Shows current archive atCurrent atArchive (disk.remove temp) :=
    fun _ _ staged => staged.1.remove aside
  rw [stageFile]
  refine .andThen (fun _ => Disk.Shows current archive atCurrent atArchive)
    (call_triple _) fun _ => ?_
  refine .andThen (fun _ disk => Disk.Shows current archive atCurrent atArchive disk ∧
    disk temp = some []) (.step ?_) fun _ => ?_
  · intro disk shows
    exact ⟨shows.put aside [], shows.put aside [], by simp [Disk.put]⟩
  · refine .andThen (fun _ disk => Disk.Shows current archive atCurrent atArchive disk ∧
      disk temp = some bytes) ?_ fun _ => callOrRemove_triple _ (removing bytes)
    cases faults.write with
    | none => exact appendBytes_triple aside bytes []
    | some fault =>
        obtain ⟨written, message⟩ := fault
        refine .andThen _ (appendBytes_triple aside (bytes.take written) []) fun _ => ?_
        refine .andThen (fun _ _ => True)
          (.step fun disk staged => ⟨removing _ disk staged, trivial⟩) ?_
        exact fun _ => .ended fun _ _ _ ended => by cases ended

/-- Moving a staged file to the current path replaces what is there. -/
theorem rename_current (aside : Aside current archive temp) (apart : archive ≠ current)
    {bytes : List UInt8} (shows : Disk.Shows current archive atCurrent atArchive disk)
    (staged : disk temp = some bytes) :
    Disk.Shows current archive (some bytes) atArchive (disk.rename temp current) := by
  simp only [Disk.rename, staged]
  refine ⟨by simp [Disk.put], ?_⟩
  rw [Disk.put, if_neg apart]
  exact (shows.remove aside).2

/-- Moving a staged file to the archive path puts it there. -/
theorem rename_archive (aside : Aside current archive temp) (apart : archive ≠ current)
    {bytes : List UInt8} (shows : Disk.Shows current archive atCurrent atArchive disk)
    (staged : disk temp = some bytes) :
    Disk.Shows current archive atCurrent (some bytes) (disk.rename temp archive) := by
  simp only [Disk.rename, staged]
  refine ⟨?_, by simp [Disk.put]⟩
  rw [Disk.put, if_neg (Ne.symm apart)]
  exact (shows.remove aside).1

/-- Saving replaces the current file at once or not at all. -/
theorem save_triple (faults : SaveFaults) (aside : Aside current archive faults.temp)
    (apart : archive ≠ current) (bytes : List UInt8) :
    Crashable.Triple (Disk.Shows current archive atCurrent atArchive)
      (fun disk => Disk.Shows current archive atCurrent atArchive disk ∨
        Disk.Shows current archive (some bytes) atArchive disk)
      (fun _ => Disk.Shows current archive (some bytes) atArchive)
      (save bytes current faults) := by
  rw [save]
  refine .andThen (fun _ => Disk.Shows current archive atCurrent atArchive)
    (call_triple _) fun _ => ?_
  refine .andThen _ ((stageFile_triple aside bytes faults.stage).weaken fun _ => .inl) fun _ => ?_
  refine .andThen _ (callOrRemove_triple _ fun _ staged => .inl (staged.1.remove aside)) fun _ => ?_
  refine .andThen _ (.step ?_) fun _ => call_triple _
  rintro disk ⟨shows, staged⟩
  have replaced := rename_current aside apart shows staged
  exact ⟨.inr replaced, replaced⟩

/-- A save that returns has moved its temporary file away. -/
theorem save_clears (faults : SaveFaults) (aside : Aside current archive faults.temp)
    (bytes : List UInt8) :
    Crashable.Triple (Disk.Shows current archive atCurrent atArchive) (fun _ => True)
      (fun _ disk => disk faults.temp = none) (save bytes current faults) := by
  rw [save]
  refine .andThen (fun _ => Disk.Shows current archive atCurrent atArchive)
    (call_triple _) fun _ => ?_
  refine .andThen _ ((stageFile_triple aside bytes faults.stage).weaken fun _ _ => trivial)
    fun _ => ?_
  refine .andThen _ (callOrRemove_triple _ fun _ _ => trivial) fun _ => ?_
  refine .andThen _ (.step ?_) fun _ => call_triple _
  rintro disk ⟨_, staged⟩
  refine ⟨trivial, ?_⟩
  simp [Disk.rename, staged, Disk.put, Disk.remove, aside.1]

/-- A save whose directory is synced fails only before it replaces the file. -/
theorem save_stops (faults : SaveFaults) (synced : faults.syncDir = none)
    (aside : Aside current archive faults.temp) (bytes : List UInt8) :
    Crashable.Stops (Disk.Shows current archive atCurrent atArchive)
      (Disk.Shows current archive atCurrent atArchive) (save bytes current faults) := by
  have untouched : ∀ disk, Disk.Shows current archive atCurrent atArchive disk →
      Disk.Shows current archive atCurrent atArchive disk := fun _ shows => shows
  have metadata := @call_triple (Disk.Shows current archive atCurrent atArchive)
    (Disk.Shows current archive atCurrent atArchive) faults.metadata
  have staging := @stageFile_triple _ _ _ atCurrent atArchive aside bytes faults.stage
  have persisting := @callOrRemove_triple faults.temp
    (Disk.Shows current archive atCurrent atArchive) faults.persist
    (fun disk => Disk.Shows current archive atCurrent atArchive disk ∧
      disk faults.temp = some bytes)
    fun _ staged => staged.1.remove aside
  rw [save]
  refine .andThen _ (metadata.stops untouched untouched) metadata fun _ => ?_
  refine .andThen _ (staging.stops untouched untouched) staging fun _ => ?_
  refine .andThen _ (persisting.stops (fun _ staged => staged.1) untouched) persisting fun _ => ?_
  intro disk _ failure failed
  rw [synced] at failed
  cases failed

/-- Publishing puts the staged file at the archive path if nothing is there, and
otherwise leaves it alone. -/
theorem persistNoclobber_triple (aside : Aside current archive temp) (apart : archive ≠ current)
    (bytes : List UInt8) (fault : Option String) (text : String → String) :
    Crashable.Triple
      (fun disk => Disk.Shows current archive atCurrent atArchive disk ∧ disk temp = some bytes)
      (fun disk => Disk.Shows current archive atCurrent atArchive disk ∨
        atArchive = none ∧ Disk.Shows current archive atCurrent (some bytes) disk)
      (fun _ disk => atArchive = none ∧ Disk.Shows current archive atCurrent (some bytes) disk)
      (persistNoclobber temp archive fault text) := by
  rw [persistNoclobber]
  refine .andThen (fun exists? disk => (Disk.Shows current archive atCurrent atArchive disk ∧
    disk temp = some bytes) ∧ exists? = atArchive.isSome) (.query ?_) fun exists? => ?_
  · rintro disk exists? ⟨shows, staged⟩ ⟨⟩
    exact ⟨⟨shows, staged⟩, by rw [shows.2]⟩
  · cases exists? with
    | true =>
        rw [if_pos rfl]
        refine .andThen (fun _ _ => True)
          (.step fun disk staged => ⟨.inl (staged.1.1.remove aside), trivial⟩) ?_
        exact fun _ => .ended fun _ _ _ ended => by cases ended
    | false =>
        rw [if_neg (by decide)]
        refine .andThen _ (callOrRemove_triple _ fun _ staged => .inl (staged.1.1.remove aside))
          fun _ => ?_
        refine .step ?_
        rintro disk ⟨⟨shows, staged⟩, absent⟩
        have none : atArchive = none := by simpa using absent.symm
        have published := rename_archive aside apart shows staged
        exact ⟨.inr ⟨none, published⟩, none, published⟩

/-- Staging without faults. -/
def StageFaults.none : StageFaults := { create := .none, write := .none, sync := .none }

/-- Saving without faults. -/
def SaveFaults.none (temp : Path) : SaveFaults :=
  { temp, metadata := .none, stage := .none, persist := .none, syncDir := .none }

/-- A save that cannot create its temporary file. -/
def fullDisk : SaveFaults :=
  { SaveFaults.none "audit.tmp" with stage := { StageFaults.none with create := some "ENOSPC" } }

theorem appendBytes_outcome (path : Path) (bytes : List UInt8) (disk : Disk) :
    (appendBytes path bytes disk).outcome = .ok () := by
  induction bytes generalizing disk with
  | nil => rfl
  | cons byte rest inductionHypothesis => exact inductionHypothesis _

/-- Staging without faults ends with the complete file. -/
theorem stageFile_returns (aside : Aside current archive temp) (bytes : List UInt8) :
    Crashable.Returns (Disk.Shows current archive atCurrent atArchive)
      (fun _ disk => Disk.Shows current archive atCurrent atArchive disk ∧ disk temp = some bytes)
      (stageFile temp bytes .none) := by
  refine (stageFile_triple aside bytes .none).returns fun disk => ⟨(), ?_⟩
  have written := appendBytes_outcome temp bytes (disk.put temp [])
  simp only [stageFile, bind, Crashable.andThen, call, StageFaults.none, Crashable.ended,
    Crashable.step, Crashable.final, writeStaged, callOrRemove, List.getLast?_nil,
    List.getLast?_singleton, Option.getD_none, Option.getD_some, written]

/-- Saving without faults returns. -/
theorem save_returns (aside : Aside current archive temp) (apart : archive ≠ current)
    (bytes : List UInt8) :
    Crashable.Returns (Disk.Shows current archive atCurrent atArchive)
      (fun _ => Disk.Shows current archive (some bytes) atArchive)
      (save bytes current (.none temp)) := by
  rw [save]
  refine .andThen (fun _ => Disk.Shows current archive atCurrent atArchive)
    (fun disk shows => ⟨(), rfl, shows⟩) fun _ => ?_
  refine .andThen _ (stageFile_returns aside bytes) fun _ => ?_
  refine .andThen (fun _ disk => Disk.Shows current archive atCurrent atArchive disk ∧
    disk temp = some bytes) (fun disk staged => ⟨(), rfl, staged⟩) fun _ => ?_
  refine .andThen (fun _ => Disk.Shows current archive (some bytes) atArchive) ?_
    fun _ disk shows => ⟨(), rfl, shows⟩
  rintro disk ⟨shows, staged⟩
  exact ⟨(), rfl, rename_current aside apart shows staged⟩

/-- Saving without faults puts the file at the current path. -/
theorem save_passes (aside : Aside current archive temp) (apart : archive ≠ current)
    (bytes : List UInt8) :
    Crashable.Passes (Disk.Shows current archive atCurrent atArchive)
      (fun disk => disk current = some bytes) (save bytes current (.none temp)) := by
  rw [save]
  refine .later (fun _ => Disk.Shows current archive atCurrent atArchive)
    (fun disk shows => ⟨(), rfl, shows⟩) fun _ => ?_
  refine .later _ (stageFile_returns aside bytes) fun _ => ?_
  refine .later (fun _ disk => Disk.Shows current archive atCurrent atArchive disk ∧
    disk temp = some bytes) (fun disk staged => ⟨(), rfl, staged⟩) fun _ => ?_
  refine .first (.step ?_)
  rintro disk ⟨shows, staged⟩
  exact (rename_current aside apart shows staged).1

/-- Publishing without faults to a path where nothing is returns. -/
theorem persistNoclobber_returns (aside : Aside current archive temp) (apart : archive ≠ current)
    (bytes : List UInt8) (text : String → String) :
    Crashable.Returns
      (fun disk => Disk.Shows current archive atCurrent none disk ∧ disk temp = some bytes)
      (fun _ => Disk.Shows current archive atCurrent (some bytes))
      (persistNoclobber temp archive none text) := by
  rw [persistNoclobber]
  refine .andThen (fun exists? disk => (Disk.Shows current archive atCurrent none disk ∧
    disk temp = some bytes) ∧ exists? = false) ?_ fun exists? => ?_
  · rintro disk ⟨shows, staged⟩
    exact ⟨false, by simp [Crashable.query, shows.2], ⟨shows, staged⟩, rfl⟩
  · rintro disk ⟨⟨shows, staged⟩, rfl⟩
    exact ⟨(), rfl, rename_archive aside apart shows staged⟩

/-- Publishing without faults to a path where nothing is puts the file there. -/
theorem persistNoclobber_passes (aside : Aside current archive temp) (apart : archive ≠ current)
    (bytes : List UInt8) (text : String → String) :
    Crashable.Passes
      (fun disk => Disk.Shows current archive atCurrent none disk ∧ disk temp = some bytes)
      (fun disk => disk archive = some bytes) (persistNoclobber temp archive none text) := by
  rw [persistNoclobber]
  refine .later (fun exists? disk => (Disk.Shows current archive atCurrent none disk ∧
    disk temp = some bytes) ∧ exists? = false) ?_ fun exists? => ?_
  · rintro disk ⟨shows, staged⟩
    exact ⟨false, by simp [Crashable.query, shows.2], ⟨shows, staged⟩, rfl⟩
  · rintro disk ⟨staged, rfl⟩
    refine Crashable.Passes.later (fun _ disk => Disk.Shows current archive atCurrent none disk ∧
      disk temp = some bytes) (fun disk staged => ⟨(), rfl, staged⟩)
      (fun _ => .step ?_) disk staged
    rintro disk ⟨shows, content⟩
    exact (rename_archive aside apart shows content).2

end Scripts

end CofreSoberano.Channel

import CofreSoberano.Channel.Rotation
import CofreSoberano.Std.Threads

/-!
# Saving and rotating among other writers

The writers of several logs use one file system at the same time, so the file
operations of `save` and `perform_rotation` are threads here: between any two of them
the files of others can change. Undisturbed they do what the scripts do. A writer's
own files are safe from all others because a temporary name is drawn where no file
is and because an archive is published only where no file is.
-/

namespace CofreSoberano.Channel

open CofreSoberano.Std CofreSoberano.Audit

/-- A program on files that others use too. It announces the archives that it
publishes. -/
abbrev FileThread (V : Type) := Thread Disk Path String V

namespace FileThread

/-- A call that fails with the given text, if any. -/
def call (fault : Option String) : FileThread Unit :=
  .ended (match fault with
    | none => .ok ()
    | some message => .error message)

/-- A call that deletes a staged file before it fails. -/
def callOrRemove (temp : Path) (fault : Option String) : FileThread Unit :=
  match fault with
  | none => .ended (.ok ())
  | some message => do
      Thread.step (·.remove temp)
      Thread.ended (.error message)

/-- Append bytes to a file, one action each. -/
def appendBytes (path : Path) : List UInt8 → FileThread Unit
  | [] => .ended (.ok ())
  | byte :: rest => do
      Thread.step fun disk => disk.put path (((disk path).getD []) ++ [byte])
      appendBytes path rest

/-- `NamedTempFile::new_in`: the name that is drawn is one where no file is. -/
def createTemp (temp : Path) : FileThread Unit :=
  .act (fun disk => (disk temp).isNone) (·.put temp []) (fun _ => []) fun _ => .ended (.ok ())

/-- Write the bytes of a staged file, up to a failure. -/
def writeStaged (temp : Path) (bytes : List UInt8) (fault : Option (Nat × String)) :
    FileThread Unit :=
  match fault with
  | none => appendBytes temp bytes
  | some (written, message) => do
      appendBytes temp (bytes.take written)
      callOrRemove temp (some message)

/-- Stage a complete, synced file under a temporary name. -/
def stageFile (temp : Path) (bytes : List UInt8) (faults : StageFaults) : FileThread Unit := do
  call faults.create
  createTemp temp
  writeStaged temp bytes faults.write
  callOrRemove temp faults.sync

/-- `AuditLog::save`. -/
def save (bytes : List UInt8) (path : Path) (faults : SaveFaults) : FileThread Unit := do
  call faults.metadata
  stageFile faults.temp bytes faults.stage
  callOrRemove faults.temp faults.persist
  Thread.step (·.rename faults.temp path)
  call faults.syncDir

/-- `persist_noclobber`: the look at the target and the move are one action. -/
def persistNoclobber (temp path : Path) (fault : Option String) (text : String → String) :
    FileThread Unit :=
  .act (fun _ => true)
    (fun disk => if (disk path).isSome ∨ fault.isSome then disk else disk.rename temp path)
    (fun disk => if (disk path).isSome ∨ fault.isSome then [] else [path])
    fun disk =>
      if (disk path).isSome then callOrRemove temp (some (text "File exists (os error 17)"))
      else callOrRemove temp (fault.map text)

/-- Publish the sealed log without clobbering, then replace the current file. -/
def publishSegments (codec : LogCodec) (current : Path) (req : RotationRequest) (env : RotationEnv)
    (closed newOpen : AuditLog) : FileThread Unit := do
  stageFile env.archiveTemp (closed.saveTo codec) (env.stage.describe
    (fun failure => s!"stage archive {req.archivePath}: {failure}")
    (fun failure => s!"write archive {req.archivePath}: {failure}")
    (fun failure => s!"sync archive: {failure}"))
  persistNoclobber env.archiveTemp req.archivePath env.publish
    fun failure => s!"publish archive {req.archivePath}: {failure}"
  call (env.syncArchiveDir.map fun failure => s!"sync archive directory: {failure}")
  save (newOpen.saveTo codec) current
    (env.saving.describe fun failure => s!"save new log to {current}: {failure}")

/-- The fallible part of `perform_rotation`, returning the log to commit. -/
def rotation (crates : Crates) (codec : LogCodec) (hasFactory : Bool) (log : AuditLog)
    (current : Path) (req : RotationRequest) (env : RotationEnv) : FileThread AuditLog := do
  Thread.query fun disk =>
    if (disk req.archivePath).isSome then
      .error s!"archive_path {req.archivePath} already exists; refusing to overwrite"
    else if hasFactory then .ok ()
    else .error "channel was spawned without a SignerFactory; rotation unsupported"
  let (closed, newOpen) ← Thread.ended (prepareRotation crates codec log req env)
  publishSegments codec current req env closed newOpen
  return newOpen

end FileThread

section Silence

theorem callOrRemove_silent (temp : Path) (fault : Option String) :
    (FileThread.callOrRemove temp fault).Silent := by
  cases fault with
  | none => trivial
  | some message => exact .andThen (.step _) fun _ => trivial

theorem appendBytes_silent (path : Path) (bytes : List UInt8) :
    (FileThread.appendBytes path bytes).Silent := by
  induction bytes with
  | nil => trivial
  | cons byte rest inductionHypothesis => exact .andThen (.step _) fun _ => inductionHypothesis

/-- A save publishes no archive. -/
theorem save_silent (bytes : List UInt8) (path : Path) (faults : SaveFaults) :
    (FileThread.save bytes path faults).Silent := by
  refine .andThen trivial fun _ => .andThen ?_ fun _ => .andThen (callOrRemove_silent _ _) fun _ =>
    .andThen (.step _) fun _ => trivial
  refine .andThen trivial fun _ => .andThen (fun _ => ⟨rfl, trivial⟩) fun _ =>
    .andThen ?_ fun _ =>
    callOrRemove_silent _ _
  cases faults.stage.write with
  | none => exact appendBytes_silent _ _
  | some fault => exact .andThen (appendBytes_silent _ _) fun _ => callOrRemove_silent _ _

end Silence

section Undisturbed

variable {disk : Disk}

theorem call_mirrors (fault : Option String) : (FileThread.call fault).Mirrors (call fault) disk :=
  .ended _ disk

theorem callOrRemove_mirrors (temp : Path) (fault : Option String) :
    (FileThread.callOrRemove temp fault).Mirrors (callOrRemove temp fault) disk := by
  cases fault with
  | none => exact .ended _ disk
  | some message => exact .andThen (.step _ disk) fun _ _ => .ended _ _

theorem appendBytes_mirrors (path : Path) (bytes : List UInt8) (disk : Disk) :
    (FileThread.appendBytes path bytes).Mirrors (appendBytes path bytes) disk := by
  induction bytes generalizing disk with
  | nil => exact .ended _ disk
  | cons byte rest inductionHypothesis =>
      exact .andThen (.step _ disk) fun _ _ => inductionHypothesis _

/-- Staging under a name where no file is. -/
theorem stageFile_mirrors {temp : Path} (free : disk temp = none) (bytes : List UInt8)
    (faults : StageFaults) :
    (FileThread.stageFile temp bytes faults).Mirrors (stageFile temp bytes faults) disk := by
  refine .andThen (call_mirrors _) fun _ _ => .andThen ?_ fun _ _ => .andThen ?_ fun _ _ =>
    callOrRemove_mirrors _ _
  · have unchanged : (call faults.create).final disk = disk := rfl
    rw [unchanged, Thread.Mirrors, FileThread.createTemp, Thread.alone, free]
    rfl
  · cases faults.write with
    | none => exact appendBytes_mirrors _ _ _
    | some fault => exact .andThen (appendBytes_mirrors _ _ _) fun _ _ => callOrRemove_mirrors _ _

/-- Undisturbed, a save does what its script does. -/
theorem save_mirrors {faults : SaveFaults} (free : disk faults.temp = none) (bytes : List UInt8)
    (path : Path) : (FileThread.save bytes path faults).Mirrors (save bytes path faults) disk := by
  refine .andThen (call_mirrors _) fun _ _ => .andThen (stageFile_mirrors free _ _) fun _ _ => ?_
  refine .andThen (callOrRemove_mirrors _ _) fun _ _ => ?_
  exact .andThen (.step _ _) fun _ _ => call_mirrors _

/-- Publishing does what its script does. -/
theorem persistNoclobber_mirrors (temp path : Path) (fault : Option String)
    (text : String → String) :
    (FileThread.persistNoclobber temp path fault text).Mirrors
      (persistNoclobber temp path fault text) disk := by
  rw [Thread.Mirrors, FileThread.persistNoclobber, persistNoclobber, Thread.alone]
  cases there : (disk path).isSome with
  | true =>
      simp only [true_or, if_true]
      rw [callOrRemove_mirrors]
      simp [bind, Crashable.andThen, Crashable.query, Crashable.final, there]
  | false =>
      cases fault with
      | none =>
          simp [bind, Crashable.andThen, Crashable.query, Crashable.final,
            there, FileThread.callOrRemove, callOrRemove, Crashable.ended, Crashable.step]
      | some message =>
          simp only [Option.isSome_some, or_true, if_true, Bool.false_eq_true, if_false,
            Option.map_some]
          rw [callOrRemove_mirrors]
          simp [bind, Crashable.andThen, Crashable.query, Crashable.final, there, callOrRemove,
            Crashable.ended, Crashable.step]

/-- Undisturbed, a rotation does what its script does if no other process creates a
file at the archive path. -/
theorem rotation_mirrors (crates : Crates) (codec : LogCodec) (hasFactory : Bool) (log : AuditLog)
    (current : Path) {req : RotationRequest} {env : RotationEnv} (quiet : env.appears = none)
    (freeStage : disk env.archiveTemp = none) (freeSave : disk env.saving.temp = none)
    (aside : Aside env.saving.temp req.archivePath env.archiveTemp)
    (apart : req.archivePath ≠ env.saving.temp) :
    (FileThread.rotation crates codec hasFactory log current req env).Mirrors
      (rotationScript crates codec hasFactory log current req env) disk := by
  refine .andThen (.query _ disk) fun _ _ => .andThen (.ended _ _) ?_
  rintro ⟨closed, newOpen⟩ _
  refine .andThen ?_ fun _ _ => .ended _ _
  change Thread.Mirrors _ (publishSegments codec current req env closed newOpen) disk
  rw [publishSegments, quiet]
  refine .idle rfl (.andThen (stageFile_mirrors freeStage _ _) fun _ staged => ?_)
  -- The second temporary name is still free after the archive is published.
  have shows := (stageFile_triple aside (closed.saveTo codec) _ disk
    (⟨freeSave, rfl⟩ : Disk.Shows _ _ none (disk req.archivePath) disk)).2 _ staged
  refine .andThen (persistNoclobber_mirrors _ _ _ _) fun _ published => ?_
  have still := ((persistNoclobber_triple aside apart _ _ _ _ shows).2 _ published).2.1
  refine .andThen (call_mirrors _) fun _ _ => save_mirrors ?_ _ _
  exact still

end Undisturbed

section Renaming

variable {disk : Disk} {temp path : Path} {content : List UInt8}

theorem Disk.rename_target (written : disk temp = some content) :
    disk.rename temp path path = some content := by
  simp [Disk.rename, written, Disk.put]

theorem Disk.rename_other (written : disk temp = some content) {other : Path}
    (notTemp : other ≠ temp)
    (different : other ≠ path) : disk.rename temp path other = disk other := by
  simp only [Disk.rename, written, Disk.put, if_neg different, Disk.remove, if_neg notTemp]

end Renaming

/-- A condition on the files of a writer: it depends on nothing else, and all these
files stand. -/
structure Owning (base : Set Path) (holds : Disk → Prop) : Prop where
  stable : ∀ {before after}, Agree base before after → holds before → holds after
  present : ∀ {disk}, holds disk → ∀ path ∈ base, (disk path).isSome

/-- Without a temporary file. -/
structure Settled (base : Set Path) (holds : Disk → Prop) (archives announced : List Path)
    (owned : Set Path) (disk : Disk) : Prop where
  announced : announced = archives
  owned : owned = base
  holds : holds disk

/-- With a temporary file of the given content. -/
structure Staging (base : Set Path) (holds : Disk → Prop) (archives : List Path) (temp : Path)
    (content : List UInt8) (announced : List Path) (owned : Set Path) (disk : Disk) : Prop where
  announced : announced = archives
  owned : owned = insert temp base
  apart : temp ∉ base
  holds : holds disk
  content : disk temp = some content

namespace Staging

variable {base owned : Set Path} {holds : Disk → Prop} {archives announced : List Path}
    {temp : Path}
  {content : List UInt8} {disk found : Disk}

theorem stable (staging : Staging base holds archives temp content announced owned disk)
    (owning : Owning base holds) (agree : Agree owned disk found) :
    Staging base holds archives temp content announced owned found := by
  obtain ⟨rfl, rfl, apart, held, written⟩ := staging
  refine ⟨rfl, rfl, apart, owning.stable ?_ held, ?_⟩
  · exact fun path member => agree path (Set.mem_insert_of_mem temp member)
  · rw [agree temp (Set.mem_insert temp base), written]

/-- Changing the temporary file. -/
theorem rewritten (staging : Staging base holds archives temp content announced owned disk)
    (owning : Owning base holds) (later : List UInt8) :
    Local owned owned disk (disk.put temp later) ∧
      Staging base holds archives temp later announced owned (disk.put temp later) := by
  obtain ⟨rfl, rfl, apart, held, written⟩ := staging
  have agree : Agree base disk (disk.put temp later) := by
    intro path member
    rw [Disk.put, if_neg]
    rintro rfl
    exact apart member
  refine ⟨⟨fun path inside outside => absurd inside outside, ?_, ?_⟩,
    ⟨rfl, rfl, apart, owning.stable agree held, by simp [Disk.put]⟩⟩
  · intro path outside _
    rw [Disk.put, if_neg]
    rintro rfl
    exact outside (Set.mem_insert path base)
  · rintro path (rfl | member)
    · simp [Disk.put]
    · rw [agree path member]
      exact owning.present held path member

/-- Deleting the temporary file. -/
theorem removed (staging : Staging base holds archives temp content announced owned disk)
    (owning : Owning base holds) :
    Local owned base disk (disk.remove temp) ∧
      Settled base holds archives announced base (disk.remove temp) := by
  obtain ⟨rfl, rfl, apart, held, written⟩ := staging
  have agree : Agree base disk (disk.remove temp) := by
    intro path member
    rw [Disk.remove, if_neg]
    rintro rfl
    exact apart member
  refine ⟨⟨?_, ?_, ?_⟩, ⟨rfl, rfl, owning.stable agree held⟩⟩
  · exact fun path inside outside => absurd (Set.mem_insert_of_mem temp inside) outside
  · intro path outside _
    rw [Disk.remove, if_neg]
    rintro rfl
    exact outside (Set.mem_insert path base)
  · intro path member
    rw [agree path member]
    exact owning.present held path member

/-- Moving the temporary file over one of the writer's files. -/
theorem moved (staging : Staging base holds archives temp content announced owned disk)
    (owning : Owning base holds) {path : Path} (inside : path ∈ base) :
    Local owned base disk (disk.rename temp path) ∧ disk.rename temp path path = some content ∧
      ∀ other ∈ base, other ≠ path → disk.rename temp path other = disk other := by
  obtain ⟨rfl, rfl, apart, held, written⟩ := staging
  have notTemp : ∀ other ∈ base, other ≠ temp := by
    rintro other member rfl
    exact apart member
  refine ⟨⟨?_, ?_, ?_⟩, Disk.rename_target written,
    fun other member => Disk.rename_other written (notTemp other member)⟩
  · exact fun other member outside => absurd (Set.mem_insert_of_mem temp member) outside
  · intro other outside _
    refine Disk.rename_other written ?_ ?_
    · rintro rfl
      exact outside (Set.mem_insert other base)
    · rintro rfl
      exact outside (Set.mem_insert_of_mem temp inside)
  · intro other member
    by_cases same : other = path
    · rw [same, Disk.rename_target written]
      rfl
    · rw [Disk.rename_other written (notTemp other member) same]
      exact owning.present held other member

/-- Moving the temporary file to a path where no file is. -/
theorem published (staging : Staging base holds archives temp content announced owned disk)
    (owning : Owning base holds) {path : Path} (free : disk path = none) :
    Local owned (insert path base) disk (disk.rename temp path) ∧
      disk.rename temp path path = some content ∧ Agree base disk (disk.rename temp path) := by
  obtain ⟨rfl, rfl, apart, held, written⟩ := staging
  have agree : Agree base disk (disk.rename temp path) := by
    intro other member
    refine Disk.rename_other written ?_ ?_
    · rintro rfl
      exact apart member
    · rintro rfl
      have something := owning.present held other member
      rw [free] at something
      cases something
  refine ⟨⟨?_, ?_, ?_⟩, Disk.rename_target written, agree⟩
  · rintro other (rfl | member) outside
    · exact free
    · exact absurd (Set.mem_insert_of_mem temp member) outside
  · intro other outside notClaimed
    refine Disk.rename_other written ?_ ?_
    · rintro rfl
      exact outside (Set.mem_insert other base)
    · rintro rfl
      exact notClaimed (Set.mem_insert other base)
  · rintro other (rfl | member)
    · rw [Disk.rename_target written]
      rfl
    · rw [agree other member]
      exact owning.present held other member

end Staging

section Threads

variable {invariant : List Path → Set Path → Disk → Prop} {base owned : Set Path}
  {holds : Disk → Prop} {archives announced : List Path} {temp : Path} {content : List UInt8}
  {disk : Disk}

/-- A call never fails halfway. -/
theorem call_keeps {later : List Path → Set Path → Disk → Prop} (fault : Option String)
    (here : later announced owned disk) :
    (FileThread.call fault).Keeps invariant (Thread.Ends (fun _ => later) later) announced owned
      disk := by
  cases fault <;> exact here

/-- A call that fails deletes only the temporary file. -/
theorem fail_keeps {returned : Unit → List Path → Set Path → Disk → Prop}
    (owning : Owning base holds)
    (covers : ∀ {owned disk}, base ⊆ owned → holds disk → invariant archives owned disk)
    (message : String) (staging : Staging base holds archives temp content announced owned disk) :
    (FileThread.callOrRemove temp (some message)).Keeps invariant
      (Thread.Ends returned (Settled base holds archives)) announced owned disk := by
  refine .andThen (fun _ => Settled base holds archives) (Settled base holds archives)
    (.step fun found agree => ?_) (fun _ _ _ _ settled => settled) (fun _ _ _ _ settled => settled)
  obtain ⟨isLocal, settled⟩ := (staging.stable owning agree).removed owning
  refine ⟨base, isLocal, ?_, settled⟩
  rw [settled.announced]
  exact covers (Set.Subset.refl base) settled.holds

theorem callOrRemove_keeps (owning : Owning base holds)
    (covers : ∀ {owned disk}, base ⊆ owned → holds disk → invariant archives owned disk)
    (fault : Option String)
    (staging : Staging base holds archives temp content announced owned disk) :
    (FileThread.callOrRemove temp fault).Keeps invariant
      (Thread.Ends (fun _ => Staging base holds archives temp content)
        (Settled base holds archives))
      announced owned disk := by
  cases fault with
  | none => exact staging
  | some message => exact fail_keeps owning covers message staging

/-- Appending to the temporary file. -/
theorem appendBytes_keeps (owning : Owning base holds)
    (covers : ∀ {owned disk}, base ⊆ owned → holds disk → invariant archives owned disk)
    (bytes : List UInt8) (staging : Staging base holds archives temp content announced owned disk) :
    (FileThread.appendBytes temp bytes).Keeps invariant
      (Thread.Ends (fun _ => Staging base holds archives temp (content ++ bytes))
        (Settled base holds archives)) announced owned disk := by
  induction bytes generalizing content announced owned disk with
  | nil =>
      rw [List.append_nil]
      exact staging
  | cons byte rest inductionHypothesis =>
      refine .andThen (fun _ => Staging base holds archives temp (content ++ [byte]))
        (Settled base holds archives) (.step fun found agree => ?_)
        (fun _ announced owned disk later => ?_) (fun _ _ _ _ settled => settled)
      · have found := staging.stable owning agree
        obtain ⟨isLocal, later⟩ := found.rewritten owning (content ++ [byte])
        rw [found.content, Option.getD_some]
        refine ⟨owned, isLocal, ?_, later⟩
        rw [later.announced]
        refine covers ?_ later.holds
        rw [later.owned]
        exact Set.subset_insert temp base
      · simpa using inductionHypothesis later

/-- Staging a file under a name where no file is. -/
theorem stageFile_keeps (owning : Owning base holds)
    (covers : ∀ {owned disk}, base ⊆ owned → holds disk → invariant archives owned disk)
    (bytes : List UInt8) (faults : StageFaults)
    (settled : Settled base holds archives announced owned disk) :
    (FileThread.stageFile temp bytes faults).Keeps invariant
      (Thread.Ends (fun _ => Staging base holds archives temp bytes) (Settled base holds archives))
      announced owned disk := by
  refine .andThen _ _ (call_keeps _ settled) (fun _ announced owned disk settled => ?_)
    (fun _ _ _ _ settled => settled)
  refine .andThen (fun _ => Staging base holds archives temp []) (Settled base holds archives) ?_
    (fun _ announced owned disk staging => ?_)
    (fun _ _ _ _ settled => settled)
  · intro (found : Disk) agree free
    have absent : found temp = none := by simpa using free
    obtain ⟨rfl, rfl, held⟩ := settled
    have stillHeld := owning.stable agree held
    have apart : temp ∉ owned := by
      intro member
      have something := owning.present stillHeld temp member
      rw [absent] at something
      cases something
    have others : ∀ path, path ≠ temp → found.put temp [] path = found path :=
      fun path different => if_neg different
    have unchanged : Agree owned found (found.put temp []) :=
      fun path member => others path fun same => apart (same ▸ member)
    have later := owning.stable unchanged stillHeld
    rw [List.append_nil]
    refine ⟨insert temp owned, ⟨?_, ?_, ?_⟩, covers (Set.subset_insert temp owned) later,
      ⟨rfl, rfl, apart, later, by simp [Disk.put]⟩⟩
    · rintro path (rfl | member) outside
      · exact absent
      · exact absurd member outside
    · intro path _ notClaimed
      refine others path ?_
      rintro rfl
      exact notClaimed (Set.mem_insert path owned)
    · rintro path (rfl | member)
      · simp [Disk.put]
      · exact (congrArg Option.isSome (unchanged path member)).trans
          (owning.present stillHeld path member)
  refine .andThen (fun _ => Staging base holds archives temp bytes) (Settled base holds archives) ?_
    (fun _ announced owned disk staging => callOrRemove_keeps owning covers _ staging)
    (fun _ _ _ _ settled => settled)
  cases faults.write with
  | none => exact appendBytes_keeps owning covers bytes staging
  | some fault =>
      refine .andThen _ _ (appendBytes_keeps owning covers (bytes.take fault.1) staging)
        (fun _ announced owned disk staging => ?_) (fun _ _ _ _ settled => settled)
      exact fail_keeps owning covers fault.2 staging

/-- A save replaces the file at once or not at all. -/
theorem save_keeps {replaced : Disk → Prop} {path : Path} {bytes : List UInt8}
    (owning : Owning base holds)
    (covers : ∀ {owned disk}, base ⊆ owned → holds disk → invariant archives owned disk)
    (coversReplaced : ∀ {disk}, replaced disk → invariant archives base disk)
    (inside : path ∈ base)
    (replaces : ∀ {before now : Disk}, holds before → now path = some bytes →
      (∀ other ∈ base, other ≠ path → now other = before other) → replaced now)
    (faults : SaveFaults) (settled : Settled base holds archives announced owned disk) :
    (FileThread.save bytes path faults).Keeps invariant
      (Thread.Ends (fun _ => Settled base replaced archives) (fun announced owned disk =>
        Settled base holds archives announced owned disk ∨
          Settled base replaced archives announced owned disk)) announced owned disk := by
  refine .andThen _ _ (call_keeps _ settled) (fun _ announced owned disk settled => ?_)
    (fun _ _ _ _ settled => .inl settled)
  refine .andThen _ _ (stageFile_keeps owning covers bytes faults.stage settled)
    (fun _ announced owned disk staging => ?_) (fun _ _ _ _ settled => .inl settled)
  refine .andThen _ _ (callOrRemove_keeps owning covers faults.persist staging)
    (fun _ announced owned disk staging => ?_) (fun _ _ _ _ settled => .inl settled)
  refine .andThen (fun _ => Settled base replaced archives) (Settled base replaced archives)
    (.step fun found agree => ?_) (fun _ announced owned disk settled => ?_)
    (fun _ _ _ _ settled => .inr settled)
  · have staged := staging.stable owning agree
    obtain ⟨isLocal, target, others⟩ := staged.moved owning inside
    have after := replaces staged.holds target others
    rw [staged.announced]
    exact ⟨base, isLocal, coversReplaced after, ⟨rfl, rfl, after⟩⟩
  · refine (call_keeps faults.syncDir settled).mono (fun _ _ _ holds => holds) ?_
    intro outcome announced owned disk ends
    cases outcome with
    | ok _ => exact ends
    | error _ => exact .inr ends

/-- Publishing puts the temporary file where no file is, or deletes it. -/
theorem persistNoclobber_keeps {grown : Disk → Prop} {path : Path} (owning : Owning base holds)
    (covers : ∀ {owned disk}, base ⊆ owned → holds disk → invariant archives owned disk)
    (coversGrown : ∀ {disk}, grown disk → invariant (archives ++ [path])
      (insert path base) disk)
    (publishes : ∀ {before now : Disk}, holds before → before path = none →
      now path = some content → Agree base before now → grown now)
    (fault : Option String) (text : String → String)
    (staging : Staging base holds archives temp content announced owned disk) :
    (FileThread.persistNoclobber temp path fault text).Keeps invariant
      (Thread.Ends (fun _ => Settled (insert path base) grown (archives ++ [path]))
        (Settled base holds archives)) announced owned disk := by
  intro (found : Disk) agree _
  have staged := staging.stable owning agree
  obtain rfl := staged.announced
  obtain rfl := staged.owned
  have held := staged.holds
  by_cases there : (found path).isSome ∨ fault.isSome
  · simp only [if_pos there, List.append_nil]
    refine ⟨insert temp base, ⟨?_, fun _ _ _ => rfl, ?_⟩, ?_, ?_⟩
    · exact fun _ inside outside => absurd inside outside
    · rintro other (rfl | member)
      · rw [staged.content]
        rfl
      · exact owning.present held other member
    · exact covers (Set.subset_insert temp base) held
    · split
      · exact fail_keeps owning covers _ staged
      · obtain ⟨message, rfl⟩ := Option.isSome_iff_exists.mp (there.resolve_left ‹_›)
        exact fail_keeps owning covers _ staged
  · have free : found path = none := by simpa using fun exists? => there (.inl exists?)
    have sound : fault = none := by simpa using fun fails => there (.inr fails)
    obtain ⟨isLocal, target, others⟩ := staged.published owning free
    have after := publishes held free target others
    simp only [if_neg there]
    refine ⟨insert path base, isLocal, coversGrown after, ?_⟩
    rw [if_neg (by simp [free]), sound]
    exact ⟨rfl, rfl, after⟩

end Threads

end CofreSoberano.Channel

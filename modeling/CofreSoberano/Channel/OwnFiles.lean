import CofreSoberano.Channel.Errand

/-!
# The files of one writer among others

What a writer has saved stands in its current file or in one of its archives, and
these files hold only its own entries. A save and a rotation keep that at each of
their file operations, whatever others do to other files in between.
-/

namespace CofreSoberano.Channel

open CofreSoberano.Std CofreSoberano.Audit

/-- What holds of the files of a writer that has the given live entries and saved
some: nothing saved is lost, and everything in the files is its own. -/
structure Files (crates : Crates) (codec : LogCodec) (path : Path) (own : LogEntry → Prop)
    (saved live : List LogEntry) (archives : List Path) (owned : Set Path) (disk : Disk) :
    Prop where
  current : path ∈ owned
  archived : ∀ archive ∈ archives, archive ∈ owned
  apart : path ∉ archives
  /-- What is saved and not archived is still in memory, for the next save. -/
  kept : ∀ entry ∈ saved, entry ∈ live ∨ ∃ archive ∈ archives,
    disk.Holds crates codec archive entry
  standing : ∀ entry ∈ saved, ∃ file ∈ path :: archives, disk.Holds crates codec file entry
  own : ∀ file ∈ path :: archives, ∀ entry, disk.Holds crates codec file entry → own entry

/-- What a file holds depends on that file only. -/
theorem Disk.Holds.congr {crates : Crates} {codec : LogCodec} {before after : Disk} {path : Path}
    {entry : LogEntry} (same : after path = before path)
    (holds : before.Holds crates codec path entry) : after.Holds crates codec path entry := by
  obtain ⟨bytes, log, written, read, member⟩ := holds
  exact ⟨bytes, log, same.trans written, read, member⟩

/-- A file written from a log with a valid header holds its entries. -/
theorem Disk.holds_saved (crates : Crates) {codec : LogCodec} {disk : Disk} {path : Path}
    {log : AuditLog} (valid : validateHeader log.header = .ok ())
    (written : disk path = some (log.saveTo codec)) {entry : LogEntry} :
    disk.Holds crates codec path entry ↔ entry ∈ log.entries := by
  have read := AuditLog.readFrom_saveTo crates codec log
  rw [valid] at read
  constructor
  · rintro ⟨bytes, opened, found, isRead, member⟩
    rw [written] at found
    obtain rfl := Option.some.inj found
    rw [read] at isRead
    obtain rfl := Except.ok.inj isRead
    exact member
  · intro member
    exact ⟨_, _, written, read, member⟩

/-- The successor of a rotation has a valid header if its signer's key is well-formed. -/
theorem prepareRotation_valid {crates : Crates} {codec : LogCodec} {log closed newOpen : AuditLog}
    {req : RotationRequest} {env : RotationEnv}
    (wellFormed : ∀ signer, env.newSigner = .ok signer →
      signer.publicKey.bytes.length = publicKeyLen)
    (prepared : prepareRotation crates codec log req env = .ok (closed, newOpen)) :
    validateHeader newOpen.header = .ok () := by
  obtain ⟨_, newSigner, _, made, _, _, _, _, _, rotated⟩ := prepareRotation_cases prepared
  obtain ⟨_, _, _, _, _, _, _, _, _, rfl⟩ := AuditLog.rotateTo_cases rotated
  simp [AuditLog.opening, AuditLog.commit, AuditLog.successor, validateHeader, PublicKey.fromBytes,
    wellFormed newSigner made, Except.map]

namespace Files

variable {crates : Crates} {codec : LogCodec} {path : Path} {own : LogEntry → Prop}
  {saved live : List LogEntry} {archives : List Path} {base owned : Set Path}
  {disk before now : Disk}

theorem stable (files : Files crates codec path own saved live archives owned before)
    (agree : Agree owned before now) :
    Files crates codec path own saved live archives owned now := by
  have inside : ∀ file ∈ path :: archives, file ∈ owned := by
    intro file member
    rcases List.mem_cons.mp member with rfl | archive
    · exact files.current
    · exact files.archived file archive
  refine ⟨files.current, files.archived, files.apart, ?_, ?_, ?_⟩
  · intro entry member
    refine (files.kept entry member).imp_right ?_
    rintro ⟨archive, listed, holds⟩
    exact ⟨archive, listed, holds.congr (agree archive (files.archived archive listed))⟩
  · intro entry member
    obtain ⟨file, listed, holds⟩ := files.standing entry member
    exact ⟨file, listed, holds.congr (agree file (inside file listed))⟩
  · intro file listed entry holds
    exact files.own file listed entry (holds.congr (agree file (inside file listed)).symm)

/-- More entries are live, and more of them are own. -/
theorem mono {wider : LogEntry → Prop} {longer : List LogEntry}
    (files : Files crates codec path own saved live archives owned disk)
    (owns : ∀ entry, own entry → wider entry) (lives : ∀ entry ∈ live, entry ∈ longer) :
    Files crates codec path wider saved longer archives owned disk :=
  ⟨files.current, files.archived, files.apart,
    fun entry member => (files.kept entry member).imp_left (lives entry), files.standing,
    fun file listed entry holds => owns entry (files.own file listed entry holds)⟩

theorem grow (files : Files crates codec path own saved live archives base disk)
    (within : base ⊆ owned) : Files crates codec path own saved live archives owned disk :=
  ⟨within files.current, fun archive listed => within (files.archived archive listed),
    files.apart, files.kept, files.standing, files.own⟩

/-- What the current file holds counts as saved from now on. -/
theorem save (files : Files crates codec path own saved live archives owned disk)
    (holds : ∀ entry ∈ live, disk.Holds crates codec path entry) :
    Files crates codec path own (saved ++ live) live archives owned disk := by
  refine ⟨files.current, files.archived, files.apart, ?_, ?_, files.own⟩
  · intro entry member
    rcases List.mem_append.mp member with old | new
    · exact files.kept entry old
    · exact .inl new
  · intro entry member
    rcases List.mem_append.mp member with old | new
    · exact files.standing entry old
    · exact ⟨path, List.mem_cons_self, holds entry new⟩

/-- The current file is replaced by a log of own entries, and what is saved is in that
log or in an archive. -/
theorem replace {log : AuditLog}
    (files : Files crates codec path own saved live archives base before)
    (valid : validateHeader log.header = .ok ()) (owns : ∀ entry ∈ log.entries, own entry)
    (keeps : ∀ entry ∈ saved, entry ∈ log.entries ∨
      ∃ archive ∈ archives, before.Holds crates codec archive entry)
    (written : now path = some (log.saveTo codec))
    (others : ∀ other ∈ base, other ≠ path → now other = before other) :
    Files crates codec path own saved live archives base now := by
  have archive : ∀ file ∈ archives, now file = before file := by
    intro file listed
    refine others file (files.archived file listed) ?_
    rintro rfl
    exact files.apart listed
  have holds := @Disk.holds_saved crates codec now path log valid written
  refine ⟨files.current, files.archived, files.apart, ?_, ?_, ?_⟩
  · intro entry member
    refine (files.kept entry member).imp_right ?_
    rintro ⟨file, listed, held⟩
    exact ⟨file, listed, held.congr (archive file listed)⟩
  · intro entry member
    rcases keeps entry member with inLog | ⟨file, listed, held⟩
    · exact ⟨path, List.mem_cons_self, holds.mpr inLog⟩
    · exact ⟨file, List.mem_cons_of_mem _ listed, held.congr (archive file listed)⟩
  · intro file member entry held
    rcases List.mem_cons.mp member with rfl | listed
    · exact owns entry (holds.mp held)
    · exact files.own file member entry (held.congr (archive file listed).symm)

/-- With every file of the writer standing. -/
def Standing (crates : Crates) (codec : LogCodec) (path : Path) (own : LogEntry → Prop)
    (saved live : List LogEntry) (archives : List Path) (base : Set Path) (disk : Disk) : Prop :=
  Files crates codec path own saved live archives base disk ∧
  ∀ file ∈ base, (disk file).isSome

theorem Standing.stable (standing : Standing crates codec path own saved live archives base before)
    (agree : Agree base before now) :
    Standing crates codec path own saved live archives base now := by
  refine ⟨standing.1.stable agree, fun file member => ?_⟩
  rw [agree file member]
  exact standing.2 file member

theorem owning (crates : Crates) (codec : LogCodec) (path : Path) (own : LogEntry → Prop)
    (saved live : List LogEntry) (archives : List Path) (base : Set Path) :
    Owning base (Standing crates codec path own saved live archives base) :=
  ⟨fun agree standing => standing.stable agree, fun standing => standing.2⟩

/-- The save of a flush. -/
theorem Standing.flush_keeps {log : AuditLog}
    (standing : Standing crates codec path own saved log.entries archives base disk)
    (valid : validateHeader log.header = .ok ()) (owns : ∀ entry ∈ log.entries, own entry)
    (faults : SaveFaults) :
    (FileThread.save (log.saveTo codec) path faults).Keeps
      (Files crates codec path own saved log.entries)
      (fun outcome archives owned (disk : Disk) =>
        Files crates codec path own saved log.entries archives owned disk ∧
          (outcome.isOk = true → ∀ entry ∈ log.entries, disk.Holds crates codec path entry))
      archives base disk := by
  have replaces : ∀ {before now : Disk},
      Standing crates codec path own saved log.entries archives base before →
      now path = some (log.saveTo codec) →
      (∀ other ∈ base, other ≠ path → now other = before other) →
      Files crates codec path own saved log.entries archives base now ∧
        ∀ entry ∈ log.entries, now.Holds crates codec path entry := by
    rintro before now ⟨files, _⟩ written others
    exact ⟨files.replace valid owns files.kept written others,
      fun entry => (Disk.holds_saved crates valid written).mpr⟩
  refine (save_keeps (owning crates codec path own saved log.entries archives base)
    (fun within holds => holds.1.grow within) And.left standing.1.current replaces faults
    ⟨rfl, rfl, standing⟩).mono (fun _ _ _ holds => holds) ?_
  intro outcome announced owned disk ends
  cases outcome with
  | ok _ =>
      obtain ⟨rfl, rfl, files, holds⟩ := ends
      exact ⟨files, fun _ => holds⟩
  | error _ =>
      rcases ends with ⟨rfl, rfl, files, _⟩ | ⟨rfl, rfl, files, _⟩
      · exact ⟨files, by rintro ⟨⟩⟩
      · exact ⟨files, by rintro ⟨⟩⟩

/-- What a rotation leaves behind if it returns its new log. -/
structure Switched (crates : Crates) (codec : LogCodec) (path : Path) (own : LogEntry → Prop)
    (saved : List LogEntry) (newOpen : AuditLog) (archives : List Path) (owned : Set Path)
    (disk : Disk) : Prop where
  files : Files crates codec path own saved newOpen.entries archives owned disk
  valid : validateHeader newOpen.header = .ok ()
  owns : ∀ entry ∈ newOpen.entries, own entry
  holds : ∀ entry ∈ newOpen.entries, disk.Holds crates codec path entry

/-- A writer that has archived its live entries. -/
structure Archived (crates : Crates) (codec : LogCodec) (path : Path) (own : LogEntry → Prop)
    (saved live : List LogEntry) (archive : Path) (archives : List Path) (base : Set Path)
    (disk : Disk) : Prop where
  standing : Standing crates codec path own saved live (archives ++ [archive]) (insert archive base)
    disk
  holds : ∀ entry ∈ live, disk.Holds crates codec archive entry

/-- Publishing the sealed log where no file is. -/
theorem Standing.publish {log closed : AuditLog} {archive : Path}
    (standing : Standing crates codec path own saved log.entries archives base before)
    (valid : validateHeader closed.header = .ok ())
    (includes : ∀ entry ∈ log.entries, entry ∈ closed.entries)
    (owns : ∀ entry ∈ closed.entries, own entry) (free : before archive = none)
    (written : now archive = some (closed.saveTo codec)) (agree : Agree base before now) :
    Archived crates codec path own saved log.entries archive archives base now := by
  obtain ⟨files, present⟩ := standing.stable agree
  have holds := @Disk.holds_saved crates codec now archive closed valid written
  have notCurrent : path ≠ archive := by
    rintro rfl
    have something := standing.2 path files.current
    rw [free] at something
    cases something
  refine ⟨⟨⟨?_, ?_, ?_, ?_, ?_, ?_⟩, ?_⟩, fun entry member => holds.mpr
    (includes entry member)⟩
  · exact Set.mem_insert_of_mem archive files.current
  · intro file listed
    rcases List.mem_append.mp listed with old | new
    · exact Set.mem_insert_of_mem archive (files.archived file old)
    · rw [List.mem_singleton.mp new]
      exact Set.mem_insert archive base
  · simp [files.apart, notCurrent]
  · intro entry member
    refine (files.kept entry member).imp_right ?_
    rintro ⟨file, listed, held⟩
    exact ⟨file, List.mem_append_left _ listed, held⟩
  · intro entry member
    obtain ⟨file, listed, held⟩ := files.standing entry member
    exact ⟨file, List.mem_append_left [archive] listed, held⟩
  · intro file listed entry held
    rcases List.mem_append.mp (show file ∈ (path :: archives) ++ [archive] from listed)
      with old | new
    · exact files.own file old entry held
    · rw [List.mem_singleton.mp new] at held
      exact owns entry (holds.mp held)
  · rintro file (rfl | member)
    · rw [written]
      rfl
    · exact present file member

/-- Replacing the current file by the new log once the old one is archived. -/
theorem Archived.switch {newOpen : AuditLog} {archive : Path}
    (archived : Archived crates codec path own saved live archive archives base before)
    (valid : validateHeader newOpen.header = .ok ())
    (owns : ∀ entry ∈ newOpen.entries, own entry)
    (written : now path = some (newOpen.saveTo codec))
    (others : ∀ other ∈ insert archive base, other ≠ path → now other = before other) :
    Files crates codec path own saved live (archives ++ [archive]) (insert archive base) now ∧
      Switched crates codec path own saved newOpen (archives ++ [archive]) (insert archive base)
        now := by
  have files := archived.standing.1
  -- Everything that was saved is in an archive by now.
  have safe : ∀ entry ∈ saved, ∃ file ∈ archives ++ [archive],
      before.Holds crates codec file entry := by
    intro entry member
    rcases files.kept entry member with inLive | inArchive
    · exact ⟨archive, by simp, archived.holds entry inLive⟩
    · exact inArchive
  have replaced := files.replace valid owns (fun entry member => .inr (safe entry member)) written
    others
  have stillSafe : ∀ entry ∈ saved, ∃ file ∈ archives ++ [archive],
      now.Holds crates codec file entry := by
    intro entry member
    obtain ⟨file, listed, held⟩ := safe entry member
    refine ⟨file, listed, held.congr (others file (files.archived file listed) ?_)⟩
    rintro rfl
    exact files.apart listed
  refine ⟨replaced, ⟨replaced.current, replaced.archived, replaced.apart, ?_, replaced.standing,
    replaced.own⟩, valid, owns, fun entry => (Disk.holds_saved crates valid written).mpr⟩
  exact fun entry member => .inr (stillSafe entry member)

theorem Archived.owning (crates : Crates) (codec : LogCodec) (path : Path) (own : LogEntry → Prop)
    (saved live : List LogEntry) (archive : Path) (archives : List Path) (base : Set Path) :
    Owning (insert archive base)
      (Archived crates codec path own saved live archive archives base) := by
  refine ⟨?_, fun archived => archived.standing.2⟩
  intro before after agree archived
  refine ⟨archived.standing.stable agree, fun entry member => ?_⟩
  exact (archived.holds entry member).congr (agree archive (Set.mem_insert archive base))

/-- A look at the files. -/
theorem Standing.query_keeps {V : Type} (look : Disk → Except String V)
    (standing : Standing crates codec path own saved live archives base disk) :
    (Thread.query look : FileThread V).Keeps (Files crates codec path own saved live)
      (Thread.Ends (fun _ => Settled base (Standing crates codec path own saved live archives base)
        archives) (Files crates codec path own saved live)) archives base disk := by
  refine .query standing.2 fun found agree => ?_
  have still := standing.stable agree
  refine ⟨still.1, ?_⟩
  cases look found with
  | ok _ => exact ⟨rfl, rfl, still⟩
  | error _ => exact still.1

/-- The sealed log is an archive before the current file is replaced, so what is saved
stands in one of the two at any time. -/
theorem Standing.publishSegments_keeps {log closed newOpen : AuditLog}
    (standing : Standing crates codec path own saved log.entries archives base disk)
    (valid : validateHeader closed.header = .ok ())
    (includes : ∀ entry ∈ log.entries, entry ∈ closed.entries)
    (owns : ∀ entry ∈ closed.entries, own entry)
    (validOpen : validateHeader newOpen.header = .ok ())
    (ownsOpen : ∀ entry ∈ newOpen.entries, own entry)
    (req : RotationRequest) (env : RotationEnv) :
    (FileThread.publishSegments codec path req env closed newOpen).Keeps
      (Files crates codec path own saved log.entries)
      (Thread.Ends (fun _ => Switched crates codec path own saved newOpen)
        (Files crates codec path own saved log.entries)) archives base disk := by
  have owning := Files.owning crates codec path own saved log.entries archives base
  have covers : ∀ {owned : Set Path} {disk : Disk}, base ⊆ owned →
      Standing crates codec path own saved log.entries archives base disk →
      Files crates codec path own saved log.entries archives owned disk :=
    fun within standing => standing.1.grow within
  have unpublished : ∀ (announced : List Path) (owned : Set Path) (disk : Disk),
      Settled base (Standing crates codec path own saved log.entries archives base)
        archives announced
        owned disk → Files crates codec path own saved log.entries announced owned disk := by
    rintro _ _ disk ⟨rfl, rfl, standing⟩
    exact standing.1
  have unswitched : ∀ (announced : List Path) (owned : Set Path) (disk : Disk),
      Settled (insert req.archivePath base) (Archived crates codec path own saved log.entries
        req.archivePath archives base) (archives ++ [req.archivePath]) announced owned disk →
      Files crates codec path own saved log.entries announced owned disk := by
    rintro _ _ disk ⟨rfl, rfl, archived⟩
    exact archived.standing.1
  refine .andThen _ _ (stageFile_keeps owning covers (closed.saveTo codec) _
    ⟨rfl, rfl, standing⟩) (fun _ announced owned disk staging => ?_) fun _ => unpublished
  refine .andThen _ _ (persistNoclobber_keeps owning covers (fun archived => archived.standing.1)
    (fun standing free written agree =>
      Standing.publish standing valid includes owns free written agree) env.publish _ staging)
    (fun _ announced owned disk settled => ?_) fun _ => unpublished
  refine .andThen _ _ (call_keeps _ settled) (fun _ announced owned disk settled => ?_)
    fun _ => unswitched
  refine (save_keeps (Archived.owning crates codec path own saved log.entries
    req.archivePath archives base) (fun within archived => archived.standing.1.grow within) And.left
    settled.holds.standing.1.current (fun archived written others =>
      archived.switch validOpen ownsOpen written others) _ settled).mono
    (fun _ _ _ holds => holds) ?_
  intro outcome announced owned disk ends
  cases outcome with
  | ok _ =>
      obtain ⟨rfl, rfl, _, switched⟩ := ends
      exact switched
  | error _ =>
      rcases ends with settled | ⟨rfl, rfl, files, _⟩
      · exact unswitched _ _ _ settled
      · exact files

/-- A rotation. -/
theorem Standing.rotation_keeps {log : AuditLog} {req : RotationRequest} {env : RotationEnv}
    (standing : Standing crates codec path own saved log.entries archives base disk)
    (valid : validateHeader log.header = .ok ()) (owns : ∀ entry ∈ log.entries, own entry)
    (sentinels : ∀ entry : LogEntry, entry.event.action = rotationCloseAction ∨
      entry.event.action = rotationOpenAction → own entry)
    (wellFormed : ∀ signer, env.newSigner = .ok signer →
      signer.publicKey.bytes.length = publicKeyLen) (hasFactory : Bool) :
    (FileThread.rotation crates codec hasFactory log path req env).Keeps
      (Files crates codec path own saved log.entries)
      (Thread.Ends (fun newOpen announced owned disk => (∃ closed,
          prepareRotation crates codec log req env = .ok (closed, newOpen)) ∧
          Switched crates codec path own saved newOpen announced owned disk)
        (Files crates codec path own saved log.entries)) archives base disk := by
  refine .andThen _ _ (standing.query_keeps _) (fun _ announced owned disk settled => ?_)
    fun _ _ _ _ files => files
  obtain ⟨rfl, rfl, standing⟩ := settled
  cases prepared : prepareRotation crates codec log req env with
  | error failure => exact standing.1
  | ok segments =>
      obtain ⟨closed, newOpen⟩ := segments
      obtain ⟨sameHeader, ⟨last, closedEntries, closing⟩,
        ⟨first, openEntries, opening⟩, _, _⟩ :=
        prepareRotation_rotates prepared
      have ownsOpen : ∀ entry ∈ newOpen.entries, own entry := by
        intro entry member
        rw [openEntries, List.mem_singleton] at member
        exact sentinels entry (.inr (member ▸ opening))
      have ownsClosed : ∀ entry ∈ closed.entries, own entry := by
        intro entry member
        rw [closedEntries, List.mem_append, List.mem_singleton] at member
        rcases member with old | rfl
        · exact owns entry old
        · exact sentinels entry (.inl closing)
      have includes : ∀ entry ∈ log.entries, entry ∈ closed.entries := by
        intro entry member
        rw [closedEntries]
        exact List.mem_append_left _ member
      change (FileThread.publishSegments codec path req env closed newOpen >>= fun _ =>
        pure newOpen).Keeps _ _ _ _ _
      refine .andThen _ _ (standing.publishSegments_keeps (sameHeader ▸ valid) includes ownsClosed
        (prepareRotation_valid wellFormed prepared) ownsOpen req env) (fun _ _ _ _ switched => ?_)
        fun _ _ _ _ files => files
      exact ⟨⟨closed, rfl⟩, switched⟩

end Files

end CofreSoberano.Channel

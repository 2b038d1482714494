import CofreSoberano.Audit.Chain

/-!
# Sealed logs

What can happen to a log after a rotation sealed it. In memory the seal is the
missing signer, in the file it is only the last event: whoever holds the key can
read the file, bind a signer again and append, with the library or with `qaudit
append`. As long as its key is not used again, a sealed log and its file stay as
they are, and every chain that holds it stays accepted; whoever uses the key adds
an entry.
-/

namespace CofreSoberano.Audit

open CofreSoberano.Std

/-- The arguments of `qaudit append` that make up the event, and the log's path. -/
structure AppendArgs where
  log : String
  actor : String
  action : String
  resource : String
  outcome : String
  metas : List (String × String)

/-- The event that `qaudit append` builds at time `now`. -/
def AppendArgs.event (args : AppendArgs) (now : Timestamp) : AuditEvent :=
  let builder : EventBuilder :=
    { actor := some args.actor, action := some args.action, resource := some args.resource
      outcome := some args.outcome }
  (args.metas.foldl (fun builder pair => builder.withMeta pair.1 pair.2) builder).build now

/-- How far `AuditLog::save` gets. -/
inductive SaveEnd where
  /-- It fails before the file is replaced. -/
  | unwritten
  /-- It fails behind that, at opening or syncing the directory. -/
  | unsynced
  | saved
deriving DecidableEq

/-- The file at the path is the new one. -/
def SaveEnd.replaces : SaveEnd → Bool
  | .unwritten => false
  | .unsynced => true
  | .saved => true

/-- `cmd_append` on the bytes of the log file: the bytes it leaves there, and the
context of its error, if any. `keys` is what the key files hold. -/
def cmdAppend (crates : Crates) (codec : LogCodec) (args : AppendArgs) (keys : Except String Signer)
    (sign : SignCall) (clock : Clock) (ended : SaveEnd) (file : List UInt8) :
    List UInt8 × Except String Unit :=
  match AuditLog.readFrom crates codec file with
  | .error _ => (file, .error s!"opening log {args.log}")
  | .ok log =>
    match log.verify crates with
    | .error _ => (file, .error "existing log failed verification; refusing to append")
    | .ok () =>
      match keys with
      | .error failure => (file, .error failure)
      | .ok keypair =>
        if keypair.publicKey.bytes ≠ log.header.pubkey.bytes then
          (file, .error
            "supplied --pk does not match the log's stored public key; refusing to append")
        else match log.bindSigner crates keypair with
        | (_, .error _) => (file, .error "rebinding signing keypair to loaded log")
        | (bound, .ok ()) =>
          match bound.append crates (args.event (clock 0)) sign (clock 1) with
          | (_, .error _) => (file, .error "signing & appending entry")
          | (longer, .ok _) =>
            (if ended.replaces then longer.saveTo codec else file,
              if ended = .saved then .ok () else .error s!"rewriting log {args.log}")

/-- A sealed log in memory and in its file. -/
structure SealedRun where
  log : AuditLog
  file : Option (List UInt8)

/-- What can be done with a sealed log. -/
inductive SealedOp where
  /-- `append` to the log in memory. -/
  | append (event : AuditEvent) (sign : SignCall) (now : Timestamp)
  /-- `save`, which may fail, or `save_to`. -/
  | save (ended : SaveEnd)
  /-- `open` or `read_from`. -/
  | reopen
  /-- `bind_signer` or `bind_keypair`. -/
  | bind (signer : Signer)
  /-- `qaudit append` on the file. -/
  | command (args : AppendArgs) (keys : Except String Signer) (sign : SignCall) (clock : Clock)
      (ended : SaveEnd)

/-- One operation. Reopening needs a file that decodes. -/
def sealedStep (crates : Crates) (codec : LogCodec) (run : SealedRun) :
    SealedOp → Option SealedRun
  | .append event sign now => some { run with log := (run.log.append crates event sign now).1 }
  | .save ended =>
      some { run with file := if ended.replaces then some (run.log.saveTo codec) else run.file }
  | .reopen =>
      run.file.bind fun bytes =>
        match AuditLog.readFrom crates codec bytes with
        | .ok log => some { run with log }
        | .error _ => none
  | .bind signer => some { run with log := (run.log.bindSigner crates signer).1 }
  | .command args keys sign clock ended =>
      run.file.map fun bytes =>
        { run with file := some (cmdAppend crates codec args keys sign clock ended bytes).1 }

/-- A sealed log is what a rotation returned first. -/
def sealedMachine (crates : Crates) (codec : LogCodec) : Machine where
  State := SealedRun
  Label := SealedOp
  Initial run := run.file = none ∧ ∃ (log next : AuditLog) (newSigner : Signer)
    (newLabel newLogIdHex : String) (draws : RotationDraws), log.Built crates codec ∧
      log.rotateTo crates newSigner newLabel newLogIdHex draws = .ok (run.log, next)
  step := sealedStep crates codec

/-- The key of a sealed log is not used on it any more: it is neither bound nor given
to `qaudit append`. -/
def KeyUnused (closed : AuditLog) (_ : SealedRun) : SealedOp → Prop
  | .bind signer => signer.publicKey.bytes ≠ closed.header.pubkey.bytes
  | .command _ keys _ _ _ =>
      ∀ keypair, keys = .ok keypair → keypair.publicKey.bytes ≠ closed.header.pubkey.bytes
  | _ => True

namespace AuditLog

/-- The frontier of a log is that of its entries. -/
def Rebuilt (crates : Crates) (log : AuditLog) : Prop :=
  log.tree = .ofContents crates (contents crates log.entries)

/-- Reading a written log back gives the log without its signer, if anything. -/
theorem unsigned_of_readFrom {crates : Crates} {codec : LogCodec} {log read : AuditLog}
    (rebuilt : log.Rebuilt crates) (isRead : readFrom crates codec (log.saveTo codec) = .ok read) :
    read = log.unsigned := by
  rw [readFrom_saveTo] at isRead
  cases header : validateHeader log.header with
  | error failure =>
      rw [header] at isRead
      cases isRead
  | ok valid =>
      rw [header] at isRead
      cases isRead
      rw [reopened, ← rebuilt]
      rfl

/-- A rotation returns the sealed log without a signer. -/
theorem unsigned_of_rotateTo {crates : Crates} {log closed next : AuditLog} {newSigner : Signer}
    {newLabel newLogIdHex : String} {draws : RotationDraws}
    (rotated : log.rotateTo crates newSigner newLabel newLogIdHex draws = .ok (closed, next)) :
    closed.unsigned = closed := by
  obtain ⟨_, _, _, _, _, _, _, rfl, _, _⟩ := rotateTo_cases rotated
  rfl

/-- A log without a signer cannot be appended to. -/
theorem append_unsigned {crates : Crates} {log : AuditLog} (unsigned : log.unsigned = log)
    (event : AuditEvent) (sign : SignCall) (now : Timestamp) :
    (log.append crates event sign now).1 = log := by
  rw [← unsigned]
  rfl

/-- A key that is not the log's is not bound. -/
theorem bindSigner_of_ne {crates : Crates} {log : AuditLog} {signer : Signer}
    (other : signer.publicKey.bytes ≠ log.header.pubkey.bytes) :
    (log.bindSigner crates signer).1 = log := by
  rw [bindSigner, if_pos other]

end AuditLog

/-- `qaudit append` with keys that are not the log's leaves the file alone. -/
theorem cmdAppend_of_ne {crates : Crates} (codec : LogCodec) {log : AuditLog}
    (rebuilt : log.Rebuilt crates) (args : AppendArgs) {keys : Except String Signer}
    (others : ∀ keypair, keys = .ok keypair →
      keypair.publicKey.bytes ≠ log.header.pubkey.bytes)
    (sign : SignCall) (clock : Clock) (ended : SaveEnd) :
    (cmdAppend crates codec args keys sign clock ended (log.saveTo codec)).1 =
    log.saveTo codec := by
  simp only [cmdAppend]
  split
  · rfl
  rename_i read isRead
  obtain rfl := AuditLog.unsigned_of_readFrom rebuilt isRead
  split
  · rfl
  split
  · rfl
  rename_i keypair
  have other : keypair.publicKey.bytes ≠ log.unsigned.header.pubkey.bytes := others _ rfl
  rw [if_pos other]

/-- The log in memory is the sealed one, and its file holds nothing else. -/
structure SealedRun.Sealed (codec : LogCodec) (closed : AuditLog) (run : SealedRun) : Prop where
  log : run.log = closed
  file : ∀ bytes, run.file = some bytes → bytes = closed.saveTo codec

/-- A sealed log stays as it is where its key is not used. -/
theorem SealedRun.Sealed.step {crates : Crates} {codec : LogCodec} {closed : AuditLog}
    {run next : SealedRun} {op : SealedOp} (rebuilt : closed.Rebuilt crates)
    (unsigned : closed.unsigned = closed) (isSealed : run.Sealed codec closed)
    (unused : KeyUnused closed run op) (moved : sealedStep crates codec run op = some next) :
    next.Sealed codec closed := by
  obtain ⟨log, file⟩ := run
  obtain ⟨rfl, onDisk⟩ := isSealed
  cases op with
  | append event sign now =>
      cases moved
      exact ⟨AuditLog.append_unsigned unsigned event sign now, onDisk⟩
  | save ended =>
      cases moved
      refine ⟨rfl, fun bytes stored => ?_⟩
      cases replaced : ended.replaces with
      | false => exact onDisk bytes (by simpa [replaced] using stored)
      | true => simpa [replaced] using stored.symm
  | reopen =>
      obtain ⟨bytes, stored, moved⟩ := Option.bind_eq_some_iff.mp moved
      obtain rfl := onDisk bytes stored
      split at moved
      · rename_i read isRead
        cases moved
        exact ⟨(AuditLog.unsigned_of_readFrom rebuilt isRead).trans unsigned, onDisk⟩
      · cases moved
  | bind signer =>
      cases moved
      exact ⟨AuditLog.bindSigner_of_ne unused, onDisk⟩
  | command args keys sign clock ended =>
      obtain ⟨bytes, stored, rfl⟩ := Option.map_eq_some_iff.mp moved
      obtain rfl := onDisk bytes stored
      refine ⟨rfl, ?_⟩
      rintro written ⟨⟩
      exact cmdAppend_of_ne codec rebuilt args unused sign clock ended

/-- `qaudit append` with the log's own keys writes to a sealed log as to any other. -/
theorem cmdAppend_succeeds {crates : Crates} (codec : LogCodec) {log : AuditLog}
    (rebuilt : log.Rebuilt crates) (verified : log.verify crates = .ok ()) (args : AppendArgs)
    {keypair : Signer} {sign : SignCall} (clock : Clock) {ended : SaveEnd}
    (replaced : ended.replaces = true)
    (sameKey : keypair.publicKey.bytes = log.header.pubkey.bytes)
    (signs : { log with signer := some keypair }.signs crates (args.event (clock 0)) sign = true) :
    ∃ signature, sign (AuditLog.entryPayload crates log.header.logId
        (log.nextEntry crates (args.event (clock 0)) (clock 1) signature)) = .ok signature ∧
      (cmdAppend crates codec args (.ok keypair) sign clock ended (log.saveTo codec)).1 =
        (log.commit crates
          (log.nextEntry crates (args.event (clock 0)) (clock 1) signature)).saveTo codec := by
  obtain ⟨_, valid, _⟩ := bind_eq_ok.mp verified
  have read : AuditLog.readFrom crates codec (log.saveTo codec) = .ok log.unsigned := by
    rw [AuditLog.readFrom_saveTo, valid, ← show log.reopened crates = log.unsigned by
      rw [AuditLog.reopened, ← rebuilt]; rfl]
    rfl
  have outcome := AuditLog.append_isOk crates { log with signer := some keypair }
    (args.event (clock 0)) sign (clock 1)
  rw [signs] at outcome
  rcases AuditLog.append_cases crates { log with signer := some keypair }
      (args.event (clock 0)) sign (clock 1) with
        ⟨_, failed⟩ | ⟨_, signature, _, signed, committed⟩
  · rw [failed] at outcome
    cases outcome
  refine ⟨signature, signed, ?_⟩
  have again : log.unsigned.verify crates = .ok () := verified
  have same : ¬ keypair.publicKey.bytes ≠ log.unsigned.header.pubkey.bytes := not_not.mpr sameKey
  have bound : AuditLog.bindSigner crates log.unsigned keypair =
      ({ log with signer := some keypair }, .ok ()) := by
    rw [AuditLog.bindSigner, if_neg same, again]
    rfl
  simp only [cmdAppend, read, again, if_neg same, bound, committed, replaced, if_true]
  rfl

/-- Whoever has the key of a sealed log can add an entry: by binding it and appending,
or with `qaudit append`, even if that reports an error. -/
structure SealedRun.OpenToKey (crates : Crates) (codec : LogCodec) (closed : AuditLog)
    (run : SealedRun) : Prop where
  bound : ∀ (signer : Signer) (event : AuditEvent) (sign : SignCall) (now : Timestamp),
    signer.publicKey.bytes = closed.header.pubkey.bytes →
    { closed with signer := some signer }.signs crates event sign = true →
    ∃ entry after, (sealedMachine crates codec).exec run [.bind signer, .append event sign now] =
      some after ∧ after.log.entries = closed.entries ++ [entry]
  command : ∀ (args : AppendArgs) (keypair : Signer) (sign : SignCall) (clock : Clock)
    (ended : SaveEnd), run.file.isSome = true → ended.replaces = true →
    keypair.publicKey.bytes = closed.header.pubkey.bytes →
    { closed with signer := some keypair }.signs crates (args.event (clock 0)) sign = true →
    ∃ entry after, sealedStep crates codec run (.command args (.ok keypair) sign clock ended) =
      some after ∧ after.file = some ((closed.commit crates entry).saveTo codec)

/-- As long as it is sealed, a log that verifies is open to its key. -/
theorem SealedRun.Sealed.openToKey {crates : Crates} {codec : LogCodec} {closed : AuditLog}
    {run : SealedRun} (rebuilt : closed.Rebuilt crates) (verified : closed.verify crates = .ok ())
    (isSealed : run.Sealed codec closed) : run.OpenToKey crates codec closed where
  bound := by
    intro signer event sign now sameKey signs
    have bound : closed.bindSigner crates signer =
        ({ closed with signer := some signer }, .ok ()) := by
      rw [AuditLog.bindSigner, if_neg (not_not.mpr sameKey), verified]
    have outcome := AuditLog.append_isOk crates { closed with signer := some signer } event sign now
    rw [signs] at outcome
    rcases AuditLog.append_cases crates { closed with signer := some signer } event sign now with
      ⟨_, failed⟩ | ⟨_, signature, _, _, committed⟩
    · rw [failed] at outcome
      cases outcome
    · let entry := closed.nextEntry crates event now signature
      let grown : AuditLog := { closed with signer := some signer }
      refine ⟨entry, { run with log := grown.commit crates entry }, ?_, rfl⟩
      simp only [Machine.exec, sealedMachine, sealedStep, isSealed.log, bound, committed,
        Option.bind_some]
      rfl
  command := by
    intro args keypair sign clock ended stored replaced sameKey signs
    obtain ⟨bytes, stored⟩ := Option.isSome_iff_exists.mp stored
    obtain rfl := isSealed.file bytes stored
    obtain ⟨signature, _, written⟩ :=
      cmdAppend_succeeds codec rebuilt verified args clock replaced sameKey signs
    let entry := closed.nextEntry crates (args.event (clock 0)) (clock 1) signature
    refine ⟨entry, { run with file := some ((closed.commit crates entry).saveTo codec) },
      ?_, rfl⟩
    rw [sealedStep, stored, Option.map_some, written]

/-- From its sealing on, a log whose key is not used keeps its entries, in memory and
in its file, and every chain that `verify_chain` accepted with it is accepted with
what it is now. The condition is tight: wherever such a run has led a log that
verifies, using the key adds an entry. -/
theorem sealed_log_stays_sealed (crates : Crates) (codec : LogCodec) {log closed next : AuditLog}
    {newSigner : Signer} {newLabel newLogIdHex : String} {draws : RotationDraws}
    (built : log.Built crates codec)
    (rotated : log.rotateTo crates newSigner newLabel newLogIdHex draws = .ok (closed, next))
    {labels : List SealedOp} {after : SealedRun}
    (run : (sealedMachine crates codec).Runs (KeyUnused closed) ⟨closed, none⟩ labels after) :
    (after.log.entries = closed.entries ∧
      (∀ bytes, after.file = some bytes → bytes = closed.saveTo codec) ∧
      ∀ before later, AuditLog.verifyChain crates (before ++ closed :: later) = .ok () →
        AuditLog.verifyChain crates (before ++ after.log :: later) = .ok ()) ∧
      (closed.verify crates = .ok () → after.OpenToKey crates codec closed) := by
  have rebuilt : closed.Rebuilt crates := (AuditLog.Built.closed built rotated).tree
  have unsigned := AuditLog.unsigned_of_rotateTo rotated
  have isSealed : after.Sealed codec closed := by
    refine run.invariant (SealedRun.Sealed codec closed) ⟨rfl, by simp⟩ ?_
    intro state label next holds unused moved
    exact holds.step rebuilt unsigned unused moved
  refine ⟨⟨congrArg _ isSealed.log, isSealed.file, ?_⟩, fun verified =>
    isSealed.openToKey rebuilt verified⟩
  intro before later accepted
  rw [isSealed.log]
  exact accepted

/-- What `qaudit append` is asked to append to the sealed log of `plainDraws`. -/
def lateArgs : AppendArgs where
  log := "audit.qa"
  actor := "user:ana"
  action := "login"
  resource := ""
  outcome := "ok"
  metas := []

/-- The rotation that seals the log of `plainDraws`, and the signature its key would
still make for it. -/
theorem plainRotation_signs :
    ∃ closed next, plainLog.rotateTo plainCrates plainSigner "gateway-1" "" plainDraws =
        .ok (closed, next) ∧ closed.Sound plainCrates ∧ closed.header = plainLog.header ∧
      AuditLog.verifyChain plainCrates [closed, next] = .ok () ∧
      { closed with signer := some plainSigner }.signs plainCrates
        (lateArgs.event "2026-05-01T00:00:10Z") plainSign = true := by
  have evaluated :
      ((plainLog.rotateTo plainCrates plainSigner "gateway-1" "" plainDraws).toOption.any
      fun logs => { logs.1 with signer := some plainSigner }.signs plainCrates
        (lateArgs.event "2026-05-01T00:00:10Z") plainSign) = true := by
    decide +kernel
  obtain ⟨⟨closed, next⟩, rotated, signs⟩ := (Option.any_eq_true _ _).mp evaluated
  have rotated := eq_ok_of_toOption rotated
  have root : plainLog.RootLog plainCrates cborCodec := .created _ _ _ plainSigner_wellFormed
  have closeHonours : plainDraws.signClose.Honours plainCrates plainLog.header.pubkey :=
    plainSign_honours
  obtain ⟨closedSound, nextSound⟩ := root.sound.rotateTo plainSigner_wellFormed closeHonours
    plainSign_honours rotated
  obtain ⟨header, _⟩ := AuditLog.closed_of_rotateTo rotated
  refine ⟨closed, next, rotated, closedSound, header, ?_, signs⟩
  refine verifyChain_of_linked ?_ (header ▸ root.root) ?_
  · exact forall_mem_pair ⟨closedSound.verify, nextSound.verify⟩
  · exact List.isChain_cons_cons.mpr ⟨AuditLog.linked_of_rotateTo rotated, .singleton _⟩

/-- A signer with another key. -/
def strangeSigner : Signer where
  publicKey := ⟨List.replicate publicKeyLen 8⟩
  provenance := "soft:in-memory"

/-- A sealed log is saved with an error, refuses an append, is not bound to another key
and not written with it. -/
theorem runs_strange (crates : Crates) (codec : LogCodec) {closed : AuditLog}
    (strange : strangeSigner.publicKey.bytes ≠ closed.header.pubkey.bytes) :
    ∃ after, after.file.isSome = true ∧ (sealedMachine crates codec).Runs (KeyUnused closed)
      (⟨closed, none⟩ : SealedRun) ([] ++ [.save .unsynced] ++
        [.append loginEvent plainSign "2026-05-01T00:00:10Z"] ++ [.bind strangeSigner] ++
        [.command lateArgs (.ok strangeSigner) plainSign (fun _ => "2026-05-01T00:00:11Z") .saved])
      after := by
  refine ⟨_, ?_, .snoc (.snoc (.snoc (.snoc .nil trivial rfl) trivial rfl) strange rfl) ?_ rfl⟩
  · rfl
  · rintro keypair ⟨⟩
    exact strange

/-- A sealed log of the transparent primitives: it refuses an append and another key, and
with its own keys `qaudit append` adds an entry although it cannot sync the directory. -/
theorem sealed_log_stays_sealed_refusing :
    ∃ closed next : AuditLog, ∃ (after : SealedRun) (entry : LogEntry) (reopened : SealedRun),
      plainLog.rotateTo plainCrates plainSigner "gateway-1" "" plainDraws = .ok (closed, next) ∧
      after.file = some (closed.saveTo cborCodec) ∧ after.log.entries = closed.entries ∧
      AuditLog.verifyChain plainCrates [after.log, next] = .ok () ∧
      sealedStep plainCrates cborCodec after (.command lateArgs (.ok plainSigner) plainSign
        (fun _ => "2026-05-01T00:00:10Z") .unsynced) = some reopened ∧
      reopened.file = some ((closed.commit plainCrates entry).saveTo cborCodec) := by
  obtain ⟨closed, next, rotated, sound, header, accepted, signs⟩ := plainRotation_signs
  have sameKey : plainSigner.publicKey.bytes = closed.header.pubkey.bytes := by
    rw [header]
    rfl
  have strange : strangeSigner.publicKey.bytes ≠ closed.header.pubkey.bytes := by
    rw [← sameKey]
    decide
  obtain ⟨after, stored, run⟩ := runs_strange plainCrates cborCodec strange
  obtain ⟨⟨entries, file, chains⟩, openToKey⟩ :=
    sealed_log_stays_sealed plainCrates cborCodec (.created _ _ _ _) rotated run
  obtain ⟨entry, reopened, moved, written⟩ :=
    (openToKey sound.verify).command lateArgs plainSigner
    plainSign (fun _ => "2026-05-01T00:00:10Z") .unsynced stored rfl sameKey signs
  obtain ⟨bytes, isStored⟩ := Option.isSome_iff_exists.mp stored
  have same := file bytes isStored
  exact ⟨closed, next, after, entry, reopened, rotated, same ▸ isStored, entries,
    chains [] [next] accepted, moved, written⟩

/-- A log is saved, written by `qaudit append` with its own keys and opened again. -/
theorem rewritten_by_command {crates : Crates} (codec : LogCodec) {log : AuditLog}
    (sound : log.Sound crates) (args : AppendArgs) {keypair : Signer}
    {sign : SignCall} (clock : Clock) (sameKey : keypair.publicKey = log.header.pubkey)
    (honours : sign.Honours crates log.header.pubkey)
    (signs : { log with signer := some keypair }.signs crates (args.event (clock 0)) sign = true) :
    ∃ signature, ∃ labels : List SealedOp, ∃ after : SealedRun,
      (sealedMachine crates codec).Runs (sealedMachine crates codec).Free
        (⟨log, none⟩ : SealedRun) labels after ∧
      after.log.entries = log.entries ++
        [log.nextEntry crates (args.event (clock 0)) (clock 1) signature] := by
  obtain ⟨signature, signed, written⟩ :=
    cmdAppend_succeeds codec sound.tree sound.verify args clock
    (rfl : SaveEnd.saved.replaces = true) (congrArg PublicKey.bytes sameKey) signs
  have longer := sound.commit (sound.links (honours _ _ signed))
  obtain ⟨opened, read, same, _⟩ := longer.readFrom codec
  let saved : SealedRun := ⟨log, some (log.saveTo codec)⟩
  let extended : SealedRun := ⟨log, some ((log.commit crates
    (log.nextEntry crates (args.event (clock 0)) (clock 1) signature)).saveTo codec)⟩
  have commanded : sealedStep crates codec saved (.command args (.ok keypair) sign clock .saved) =
      some extended := by
    simp only [sealedStep, saved, Option.map_some, written]
    rfl
  have reopened : sealedStep crates codec extended .reopen =
      some { extended with log := opened } := by
    simp only [sealedStep, extended, Option.bind_some, read]
  refine ⟨signature, [] ++ [.save .saved] ++ [.command args (.ok keypair) sign clock .saved] ++
    [.reopen], { extended with log := opened }, ?_, ?_⟩
  · exact .snoc (.snoc (.snoc .nil trivial
      (rfl : sealedStep crates codec ⟨log, none⟩ (.save .saved) = some saved))
      trivial commanded) trivial reopened
  · rw [same]
    rfl

/-- A sealed log is saved, `qaudit append` adds an entry to its file, and the chain
that was accepted with it is rejected. -/
theorem sealed_log_reopened :
    ∃ closed next : AuditLog, ∃ labels : List SealedOp, ∃ after : SealedRun,
      plainLog.rotateTo plainCrates plainSigner "gateway-1" "" plainDraws = .ok (closed, next) ∧
      (sealedMachine plainCrates cborCodec).Runs (sealedMachine plainCrates cborCodec).Free
        (⟨closed, none⟩ : SealedRun) labels after ∧
      AuditLog.verifyChain plainCrates [closed, next] = .ok () ∧
      after.log.entries.length = closed.entries.length + 1 ∧
      AuditLog.verifyChain plainCrates [after.log, next] ≠ .ok () := by
  obtain ⟨closed, next, rotated, sound, header, accepted, signs⟩ := plainRotation_signs
  have sameKey : plainSigner.publicKey = closed.header.pubkey := by
    rw [header]
    rfl
  have honours : plainSign.Honours plainCrates closed.header.pubkey := sameKey ▸ plainSign_honours
  obtain ⟨signature, labels, after, run, entries⟩ :=
    rewritten_by_command cborCodec sound lateArgs
    (fun _ => "2026-05-01T00:00:10Z") sameKey honours signs
  refine ⟨closed, next, labels, after, rotated, run, accepted, by simp [entries], ?_⟩
  intro stillAccepted
  -- The last event of the log is now the late one, which seals nothing.
  obtain ⟨linked, _⟩ := List.isChain_cons_cons.mp (linked_of_verifyChain stillAccepted).2
  obtain ⟨last, isLast, closeAction, _⟩ := linked.closed
  rw [entries, List.getLast?_concat] at isLast
  cases isLast
  have different : (lateArgs.event "2026-05-01T00:00:10Z").action ≠ rotationCloseAction := by
    decide
  exact different closeAction

end CofreSoberano.Audit

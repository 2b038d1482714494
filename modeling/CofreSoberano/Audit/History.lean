import CofreSoberano.Audit.Format
import CofreSoberano.Std.Machine

/-!
# Histories of one audit log

Everything that can happen to an audit log between its creation and now: appends
whose signer may fail at any call, saving, reopening the saved file, and binding
a signer to a reopened log. Two results hold over every such history: the log is
sound whatever failed before, and whoever presents entries under its id and key
presents a prefix of it.
-/

namespace CofreSoberano.Audit

open CofreSoberano.Std

/-- A log with the record of its history: how many appends to it succeeded, which
payloads were signed, and the file last saved with the appends it holds. -/
structure LogRun where
  log : AuditLog
  appended : Nat
  signed : List (List UInt8)
  image : Option (List UInt8 × Nat)

/-- The operations on a log. -/
inductive LogOp where
  /-- `append`; `sign` is what the bound signer returns at this call. -/
  | append (event : AuditEvent) (sign : SignCall) (now : Timestamp)
  /-- `save_to`. -/
  | save
  /-- `read_from` the saved file. -/
  | reopen
  /-- `bind_signer`. -/
  | bind (signer : Signer)

/-- One operation. A reopening needs a file and fails if it does not decode. -/
def logStep (crates : Crates) (codec : LogCodec) (run : LogRun) : LogOp → Option LogRun
  | .append event sign now =>
      match run.log.append crates event sign now with
      | (log, .ok entry) =>
          some { run with
            log, appended := run.appended + 1
            signed := run.signed ++ [AuditLog.entryPayload crates log.header.logId entry] }
      | (log, .error _) => some { run with log }
  | .save => some { run with image := some (run.log.saveTo codec, run.appended) }
  | .reopen =>
      run.image.bind fun (bytes, appended) =>
        match AuditLog.readFrom crates codec bytes with
        | .ok log => some { run with log, appended }
        | .error _ => none
  | .bind signer => some { run with log := (run.log.bindSigner crates signer).1 }

/-- Histories start with `create_with_signer` and a well-formed public key. -/
def logMachine (crates : Crates) (codec : LogCodec) : Machine where
  State := LogRun
  Label := LogOp
  Initial run := ∃ signer label logId now, signer.publicKey.bytes.length = publicKeyLen ∧
    run = { log := .createWithSigner signer label logId now
            appended := 0
            signed := []
            image := none }
  step := logStep crates codec

/-- The bound signer keeps the contract of the `Signer` trait at this call. -/
def KeepsContract (crates : Crates) (run : LogRun) : LogOp → Prop
  | .append _ sign _ =>
      ∀ signer, run.log.signer = some signer → sign.Honours crates signer.publicKey
  | _ => True

/-- The log is sound and as long as its history says, and so was the log that the
saved file holds. -/
structure LogRun.Faithful (crates : Crates) (codec : LogCodec) (run : LogRun) : Prop where
  sound : run.log.Sound crates
  length : run.log.entries.length = run.appended
  saved : ∀ bytes appended, run.image = some (bytes, appended) →
    ∃ log : AuditLog, log.Sound crates ∧ bytes = log.saveTo codec ∧
      log.entries.length = appended

/-- Every operation under the contract keeps a history faithful. -/
theorem LogRun.Faithful.step {crates : Crates} {codec : LogCodec} {run next : LogRun} {op : LogOp}
    (faithful : run.Faithful crates codec) (contract : KeepsContract crates run op)
    (moved : logStep crates codec run op = some next) : next.Faithful crates codec := by
  cases op with
  | append event sign now =>
      simp only [logStep] at moved
      rcases run.log.append_cases crates event sign now with
        ⟨failure, failed⟩ | ⟨signer, signature, bound, signed, committed⟩
      · rw [failed] at moved
        cases moved
        exact faithful
      · rw [committed] at moved
        cases moved
        have honours := faithful.sound.bound signer bound ▸ contract signer bound
        refine ⟨faithful.sound.commit (faithful.sound.links (honours _ _ signed)), ?_,
          faithful.saved⟩
        simp [AuditLog.commit, faithful.length]
  | save =>
      cases moved
      refine ⟨faithful.sound, faithful.length, ?_⟩
      rintro bytes appended ⟨⟩
      exact ⟨run.log, faithful.sound, rfl, faithful.length⟩
  | reopen =>
      obtain ⟨⟨bytes, appended⟩, stored, moved⟩ := Option.bind_eq_some_iff.mp moved
      obtain ⟨log, sound, rfl, length⟩ := faithful.saved bytes appended stored
      obtain ⟨opened, read, same, openedSound⟩ := sound.readFrom codec
      simp only [read, Option.some.injEq] at moved
      subst moved
      exact ⟨openedSound, by rw [same, length], faithful.saved⟩
  | bind signer =>
      cases moved
      refine ⟨faithful.sound.bindSigner signer, ?_, faithful.saved⟩
      rcases run.log.bindSigner_cases crates signer with ⟨_, unchanged⟩ | ⟨_, _, changed⟩
      · rw [unchanged, faithful.length]
      · rw [changed, faithful.length]

/-- Every history under the contract is faithful. -/
theorem faithful_of_reachable {crates : Crates} {codec : LogCodec} {run : LogRun}
    (reachable : (logMachine crates codec).Reachable (KeepsContract crates) run) :
    run.Faithful crates codec := by
  refine reachable.invariant (LogRun.Faithful crates codec) ?_ ?_
  · rintro start ⟨signer, label, logId, now, wellFormed, rfl⟩
    exact ⟨AuditLog.sound_createWithSigner crates label logId now wellFormed, rfl, by simp⟩
  · intro state label next holds contract moved
    exact holds.step contract moved

/-- Over every history of a log, its four representations stay in step: it
verifies, it is as long as the appends that succeeded, its entries are numbered
by position, and its root is the last signed one and the one of its content
hashes. An append that fails changes nothing. -/
theorem auditLog_history_sound (crates : Crates) (codec : LogCodec) {run : LogRun}
    (reachable : (logMachine crates codec).Reachable (KeepsContract crates) run) :
    run.log.verify crates = .ok () ∧ run.log.len = run.appended ∧
      (∀ (i : Nat) (entry : LogEntry), run.log.entries[i]? = some entry → entry.index = i) ∧
      run.log.currentRoot crates = (run.log.entries.getLast?.map LogEntry.newRoot).getD zeroHash ∧
      run.log.currentRoot crates =
        (MerkleTree.ofContents crates (contents crates run.log.entries)).root crates ∧
      ∀ event sign now failure, (run.log.append crates event sign now).2 = .error failure →
        (run.log.append crates event sign now).1 = run.log := by
  have faithful := faithful_of_reachable reachable
  refine ⟨faithful.sound.verify, faithful.length, ?_, faithful.sound.currentRoot_eq, ?_, ?_⟩
  · exact fun i entry found => (faithful.sound.links_getElem? found).index
  · rw [AuditLog.currentRoot, faithful.sound.tree]
  · intro event sign now failure failed
    rcases run.log.append_cases crates event sign now with
      ⟨_, unchanged⟩ | ⟨_, _, _, _, committed⟩
    · rw [unchanged]
    · rw [committed] at failed
      cases failed

/-- The log right after its creation. -/
def plainStart : LogRun where
  log := plainLog
  appended := 0
  signed := []
  image := none

theorem plainStart_initial : (logMachine plainCrates cborCodec).Initial plainStart :=
  ⟨plainSigner, "gateway", _, "2026-05-01T00:00:00Z", plainSigner_wellFormed, rfl⟩

/-- A reopening that continues the one history: the file holds the log as it is
now. Reopening an older file would start a second history from the middle of the
first. -/
def SingleHistory (codec : LogCodec) (run : LogRun) : LogOp → Prop
  | .reopen => ∃ appended, run.image = some (run.log.saveTo codec, appended)
  | _ => True

/-- The signatures of a single history are those of its entries. -/
structure LogRun.Single (crates : Crates) (codec : LogCodec) (run : LogRun) : Prop where
  faithful : run.Faithful crates codec
  signed : run.signed = run.log.entries.map (AuditLog.entryPayload crates run.log.header.logId)

/-- Every operation on a single history signs at most its next entry. -/
theorem LogRun.Single.step {crates : Crates} {codec : LogCodec} {run next : LogRun} {op : LogOp}
    (single : run.Single crates codec) (contract : KeepsContract crates run op)
    (continues : SingleHistory codec run op) (moved : logStep crates codec run op = some next) :
    next.Single crates codec := by
  refine ⟨single.faithful.step contract moved, ?_⟩
  cases op with
  | append event sign now =>
      simp only [logStep] at moved
      rcases run.log.append_cases crates event sign now with
        ⟨failure, failed⟩ | ⟨signer, signature, bound, signed, committed⟩
      · rw [failed] at moved
        cases moved
        exact single.signed
      · rw [committed] at moved
        cases moved
        simp [AuditLog.commit, single.signed]
  | save =>
      cases moved
      exact single.signed
  | reopen =>
      obtain ⟨appended, stored⟩ := continues
      obtain ⟨opened, read, same, _⟩ := single.faithful.sound.readFrom codec
      simp only [logStep, stored, Option.bind_some, read, Option.some.injEq] at moved
      subst moved
      rw [same]
      exact single.signed
  | bind signer =>
      cases moved
      rcases run.log.bindSigner_cases crates signer with ⟨_, unchanged⟩ | ⟨_, _, changed⟩
      · rw [unchanged]
        exact single.signed
      · rw [changed]
        exact single.signed

/-- Every run that continues one history under the contract signs its entries. -/
theorem single_of_reachable {crates : Crates} {codec : LogCodec} {run : LogRun}
    (honest : (logMachine crates codec).Reachable
      (fun run op => KeepsContract crates run op ∧ SingleHistory codec run op) run) :
    run.Single crates codec := by
  refine honest.invariant (LogRun.Single crates codec) ?_ ?_
  · rintro start ⟨signer, label, logId, now, wellFormed, rfl⟩
    exact ⟨⟨AuditLog.sound_createWithSigner crates label logId now wellFormed,
      rfl, by simp⟩, rfl⟩
  · intro state label next holds admitted moved
    exact holds.step admitted.1 admitted.2 moved

/-- What a verifier learns from an entry: everything but the time it was appended
and the bytes of its signature. -/
def LogEntry.history (entry : LogEntry) : Nat × AuditEvent × Hash × Hash :=
  (entry.index, entry.event, entry.prevRoot, entry.newRoot)

/-- Whatever entries verify under the key of a single honest history are a prefix
of it, whatever header they come with. Signatures are unforgeable: those
presented verify only messages that the history signed. The hash does not
confuse an event presented with a different honest one. -/
theorem verified_history_prefix (crates : Crates) (codec : LogCodec) {run : LogRun}
    (honest : (logMachine crates codec).Reachable
      (fun run op => KeepsContract crates run op ∧ SingleHistory codec run op) run)
    {header : LogHeader} {entries : List LogEntry}
    (sameKey : header.pubkey = run.log.header.pubkey)
    (unforgeable : ∀ entry ∈ entries, ∀ msg,
      crates.mlDsaVerify run.log.header.pubkey.bytes msg entry.signature.bytes sigContext = true →
        msg ∈ run.signed)
    (collisionFree : ∀ entry ∈ entries, ∀ genuine ∈ run.log.entries,
      entry.event.contentHash crates = genuine.event.contentHash crates →
        entry.event = genuine.event)
    (accepted : AuditLog.verifyWithPubkey crates header entries = .ok ()) :
    entries.map LogEntry.history <+: run.log.entries.map LogEntry.history := by
  have single := single_of_reachable honest
  obtain ⟨_, _, linked⟩ := bind_eq_ok.mp accepted
  rw [List.prefix_iff_getElem?]
  intro i inside
  rw [List.length_map] at inside
  have found : entries[i]? = some entries[i] := List.getElem?_eq_getElem inside
  have links := links_of_accepted linked found
  have presented := List.getElem_mem inside
  -- The signature of the entry was made for the payload of an honest entry.
  have verified := mlDsaVerify_of_verifySig links.signature
  rw [sameKey] at verified
  have signed := unforgeable _ presented _ verified
  rw [single.signed] at signed
  obtain ⟨genuine, member, samePayload⟩ := List.mem_map.mp signed
  obtain ⟨position, stands⟩ := List.mem_iff_getElem?.mp member
  have samePosition := (single.faithful.sound.links_getElem? stands).index
  obtain ⟨_, index, prevRoot, eventHash, newRoot⟩ := payloadBytes_inj samePayload
  have event := collisionFree _ presented _ member eventHash.symm
  have here : run.log.entries[i]? = some genuine := by
    rw [← links.index, ← index, samePosition, stands]
  rw [List.getElem?_map, List.getElem_map, here]
  simp [LogEntry.history, index, event, prevRoot, newRoot]

/-- A record of an event that is signed. -/
theorem logStep_record {codec : LogCodec} {run : LogRun} {event : AuditEvent}
    (signs : run.log.signs plainCrates event plainSign = true) :
    ∃ next, (logMachine plainCrates codec).step run
        (.append event plainSign "2026-05-01T00:00:02Z") = some next ∧
        next.log = run.log.plainRecord [event] ∧ next.appended = run.appended + 1 ∧
      next.image = run.image := by
  have outcome := run.log.append_isOk plainCrates event plainSign "2026-05-01T00:00:02Z"
  rw [signs] at outcome
  simp only [logMachine, logStep, AuditLog.plainRecord, List.foldl_cons, List.foldl_nil]
  split
  · rename_i log entry appended
    exact ⟨_, rfl, by rw [appended], rfl, rfl⟩
  · rename_i log failure failed
    rw [failed] at outcome
    cases outcome

/-- A signer that is out of service changes nothing. -/
theorem logStep_fail {codec : LogCodec} (run : LogRun) (event : AuditEvent) :
    (logMachine plainCrates codec).step run (.append event failingSign "2026-05-01T00:00:02Z") =
      some run := by
  rcases run.log.append_cases plainCrates event failingSign "2026-05-01T00:00:02Z" with
    ⟨_, failed⟩ | ⟨_, _, _, signed, _⟩
  · simp only [logMachine, logStep, failed]
  · cases signed

/-- Binding its signer again to a log that was reopened gives the log as it was. -/
theorem bindSigner_reopened {log : AuditLog} (sound : log.Sound plainCrates)
    (bound : log.signer = some plainSigner) :
    ({ log with signer := none }.bindSigner plainCrates plainSigner).1 = log := by
  have sameKey : plainSigner.publicKey.bytes = log.header.pubkey.bytes :=
    congrArg PublicKey.bytes (sound.bound plainSigner bound)
  have verified : { log with signer := none }.verify plainCrates = .ok () := sound.verify
  rw [AuditLog.bindSigner, if_neg (not_not.mpr sameKey), verified]
  simp only [← bound]

/-- A history under the contract that reopens its log as it is. -/
def Continued (run : LogRun) (op : LogOp) : Prop :=
  KeepsContract plainCrates run op ∧ SingleHistory cborCodec run op

/-- Two visits, with the log saved, reopened and bound again after the first login, and a
signer that is out of service for a while. -/
theorem reachable_visits :
    ∃ run : LogRun, (logMachine plainCrates cborCodec).Reachable Continued run ∧
      run.log = plainLog.plainRecord [loginEvent, logoutEvent, loginEvent] ∧
      run.appended = 3 := by
  have honours : ∀ (run : LogRun) (event : AuditEvent), run.log.signer = some plainSigner →
      Continued run (.append event plainSign "2026-05-01T00:00:02Z") := by
    intro run event bound
    refine ⟨fun signer isBound => ?_, trivial⟩
    rw [bound] at isBound
    cases isBound
    exact plainSign_honours
  have signs : plainLog.signs plainCrates loginEvent plainSign = true ∧
      (plainLog.plainRecord [loginEvent]).signs plainCrates logoutEvent plainSign = true ∧
      (plainLog.plainRecord [loginEvent, logoutEvent]).signs plainCrates
        loginEvent plainSign = true ∧
      (plainLog.plainRecord [loginEvent]).signer = some plainSigner ∧
      (plainLog.plainRecord [loginEvent, logoutEvent]).signer = some plainSigner := by
    decide +kernel
  obtain ⟨signsFirst, signsSecond, signsThird, boundFirst, boundSecond⟩ := signs
  have started : (logMachine plainCrates cborCodec).Reachable Continued plainStart :=
    ⟨plainStart, [], plainStart_initial, .nil⟩
  obtain ⟨first, firstMoved, isFirst, one, _⟩ :=
    @logStep_record cborCodec plainStart loginEvent signsFirst
  have bound : plainStart.log.signer = some plainSigner := by
    simp only [plainStart, plainLog, AuditLog.createWithSigner]
  have afterFirst := started.step (honours plainStart loginEvent bound) firstMoved
  have isFirst : first.log = plainLog.plainRecord [loginEvent] := isFirst
  let saved : LogRun := { first with image := some (first.log.saveTo cborCodec, first.appended) }
  have afterSave := afterFirst.step (show Continued first .save from ⟨trivial, trivial⟩)
    (rfl : logStep plainCrates cborCodec first .save = some saved)
  have sound := (faithful_of_reachable (afterSave.mono fun _ _ => And.left)).sound
  obtain ⟨opened, read, isOpened, _⟩ := sound.readFrom cborCodec
  let reopened : LogRun := { saved with log := opened }
  have reopens : logStep plainCrates cborCodec saved .reopen = some reopened := by
    simp only [logStep, saved, Option.bind_some, read]
    rfl
  have afterReopen := afterSave.step
    (show Continued saved .reopen from ⟨trivial, first.appended, rfl⟩) reopens
  have binds : logStep plainCrates cborCodec reopened (.bind plainSigner) = some saved := by
    simp only [logStep, reopened, isOpened]
    rw [bindSigner_reopened sound (isFirst ▸ boundFirst)]
  have afterBind := afterReopen.step
    (show Continued reopened (.bind plainSigner) from ⟨trivial, trivial⟩) binds
  have afterFailure := afterBind.step
    (show Continued saved (.append loginEvent failingSign "2026-05-01T00:00:02Z") from
      ⟨fun _ _ => failingSign_honours plainCrates _, trivial⟩) (logStep_fail saved loginEvent)
  obtain ⟨second, secondMoved, isSecond, two, _⟩ := @logStep_record cborCodec saved logoutEvent
    (isFirst ▸ signsSecond)
  have afterSecond :=
    afterFailure.step (honours saved logoutEvent (isFirst ▸ boundFirst)) secondMoved
  have isSecond : second.log = plainLog.plainRecord [loginEvent, logoutEvent] := by
    rw [isSecond, show saved.log = _ from isFirst, AuditLog.plainRecord_plainRecord,
      List.singleton_append]
  obtain ⟨third, thirdMoved, isThird, three, _⟩ := @logStep_record cborCodec second loginEvent
    (isSecond ▸ signsThird)
  have afterThird :=
    afterSecond.step (honours second loginEvent (isSecond ▸ boundSecond)) thirdMoved
  refine ⟨third, afterThird, ?_, ?_⟩
  · rw [isThird, isSecond, AuditLog.plainRecord_plainRecord, List.cons_append,
      List.singleton_append]
  · rw [three, two, show saved.appended = _ from one]
    rfl

/-- A history that fails to sign, is saved, reopened and bound again. -/
theorem auditLog_history_sound_visits :
    ∃ run : LogRun, run.log.verify plainCrates = .ok () ∧ run.log.len = 3 ∧
      (run.log.append plainCrates loginEvent failingSign "2026-05-01T00:00:05Z").1 = run.log := by
  obtain ⟨run, reachable, _, three⟩ := reachable_visits
  obtain ⟨verified, length, _, _, _, unchanged⟩ := auditLog_history_sound plainCrates cborCodec
    (reachable.mono fun _ _ => And.left)
  refine ⟨run, verified, length.trans three, ?_⟩
  rcases run.log.append_cases plainCrates loginEvent failingSign "2026-05-01T00:00:05Z" with
    ⟨failure, failed⟩ | ⟨_, _, _, signed, _⟩
  · exact unchanged _ _ _ failure (by rw [failed])
  · cases signed

/-- The beginning of a log under another label and at another time, as somebody may
present it. -/
def AuditLog.presented (log : AuditLog) (count : Nat) : LogHeader × List LogEntry :=
  ({ log.header with label := "elsewhere" },
    (log.entries.take count).map fun entry => { entry with appendedAt := "2027-01-01T00:00:00Z" })

/-- Neither the label nor the times are signed: what is presented of a sound log verifies. -/
theorem AuditLog.Sound.presented {crates : Crates} {log : AuditLog} (sound : log.Sound crates)
    (count : Nat) :
    verifyWithPubkey crates (log.presented count).1 (log.presented count).2 = .ok () := by
  refine bind_eq_ok.mpr ⟨(), sound.header, verifyEntries_new_iff.mpr ?_⟩
  intro before entry after split
  obtain ⟨front, back, isTaken, rfl, isBack⟩ := List.map_eq_append_iff.mp split
  obtain ⟨genuine, rest, rfl, rfl, _⟩ := List.map_eq_cons_iff.mp isBack
  have whole : log.entries = front ++ genuine :: (rest ++ log.entries.drop count) := by
    refine (List.take_append_drop count log.entries).symm.trans ?_
    rw [isTaken, List.append_assoc, List.cons_append]
  have links := verifyEntries_new_iff.mp sound.linked front genuine _ whole
  have same : contents crates (front.map fun entry : LogEntry =>
      { entry with appendedAt := "2027-01-01T00:00:00Z" }) = contents crates front := by
    rw [contents, contents, List.map_map]
    rfl
  rw [List.length_map, same]
  exact ⟨links.index, links.prevRoot, links.newRoot, links.signature⟩

/-- In the transparent primitives a signature of a single history verifies nothing but the
payload of its entry. -/
theorem LogRun.Single.unforgeable {run : LogRun} (single : run.Single plainCrates cborCodec)
    {genuine : LogEntry} (isGenuine : genuine ∈ run.log.entries) {msg : List UInt8}
    (verified : plainCrates.mlDsaVerify run.log.header.pubkey.bytes msg genuine.signature.bytes
      sigContext = true) : msg ∈ run.signed := by
  obtain ⟨position, stands⟩ := List.mem_iff_getElem?.mp isGenuine
  have links := single.faithful.sound.links_getElem? stands
  rw [plainCrates_verify_unique verified (mlDsaVerify_of_verifySig links.signature), single.signed]
  exact List.mem_map_of_mem isGenuine

/-- The first two of three entries, presented under another label and with other times. -/
theorem verified_history_prefix_visits :
    ∃ run : LogRun, run.log.entries.map LogEntry.event = [loginEvent, logoutEvent, loginEvent] ∧
      (run.log.presented 2).2.length = 2 ∧
      AuditLog.verifyWithPubkey plainCrates (run.log.presented 2).1 (run.log.presented 2).2 =
        .ok () ∧
      (run.log.presented 2).2.map LogEntry.history <+: run.log.entries.map LogEntry.history := by
  obtain ⟨run, honest, isLog, _⟩ := reachable_visits
  have single := single_of_reachable honest
  have accepted := single.faithful.sound.presented 2
  have events : run.log.entries.map LogEntry.event = [loginEvent, logoutEvent, loginEvent] := by
    rw [isLog]
    decide +kernel
  have length : (run.log.presented 2).2.length = 2 := by
    have three := congrArg List.length events
    simp only [List.length_map] at three
    simp [AuditLog.presented, three]
  have genuine_of_presented : ∀ entry ∈ (run.log.presented 2).2,
      ∃ genuine ∈ run.log.entries,
        entry = { genuine with appendedAt := "2027-01-01T00:00:00Z" } := by
    intro entry member
    obtain ⟨genuine, isGenuine, rfl⟩ := List.mem_map.mp member
    exact ⟨genuine, List.mem_of_mem_take isGenuine, rfl⟩
  have apart : ∀ left ∈ [loginEvent, logoutEvent, loginEvent],
      ∀ right ∈ [loginEvent, logoutEvent, loginEvent],
        left.contentHash plainCrates = right.contentHash plainCrates → left = right := by
    decide +kernel
  refine ⟨run, events, length, accepted, ?_⟩
  refine verified_history_prefix plainCrates cborCodec honest
    (show (run.log.presented 2).1.pubkey = run.log.header.pubkey from rfl) ?_ ?_ accepted
  · intro entry presented msg verified
    obtain ⟨genuine, isGenuine, rfl⟩ := genuine_of_presented entry presented
    exact single.unforgeable isGenuine verified
  · intro entry presented other isOther
    obtain ⟨genuine, isGenuine, rfl⟩ := genuine_of_presented entry presented
    have isEvent : genuine.event ∈ run.log.entries.map LogEntry.event :=
      List.mem_map_of_mem isGenuine
    have isOtherEvent : other.event ∈ run.log.entries.map LogEntry.event :=
      List.mem_map_of_mem isOther
    rw [events] at isEvent isOtherEvent
    exact apart _ isEvent _ isOtherEvent

end CofreSoberano.Audit

import CofreSoberano.Audit.Rotation

/-!
# What an accepted chain shows

`verify_chain` accepts exactly the sequences of verified logs that are `Linked`
throughout. A verifier wants more: that both ends of every link are signed events.
The root that an opening event signs is not among the things that are compared, so
it is the root of the sealed log only where it agrees with the unsigned header.
-/

namespace CofreSoberano.Audit

open CofreSoberano.Std

/-- Logs that the operations of the crate build, from a signer or from a file. -/
inductive AuditLog.Built (crates : Crates) (codec : LogCodec) : AuditLog → Prop where
  | created (signer : Signer) (label : String) (logId : LogId) (now : Timestamp) :
      Built crates codec (.createWithSigner signer label logId now)
  | appended {log : AuditLog} (built : Built crates codec log) (event : AuditEvent)
      (sign : SignCall) (now : Timestamp) : Built crates codec (log.append crates event sign now).1
  | bound {log : AuditLog} (built : Built crates codec log) (signer : Signer) :
      Built crates codec (log.bindSigner crates signer).1
  /-- `AuditLog::override_pubkey`. -/
  | overridden {log : AuditLog} (built : Built crates codec log) (pk : PublicKey) :
      Built crates codec { log with header := { log.header with pubkey := pk } }
  | opened {input : List UInt8} {log : AuditLog}
      (read : AuditLog.readFrom crates codec input = .ok log) : Built crates codec log
  | closed {log closed next : AuditLog} (built : Built crates codec log) {newSigner : Signer}
      {newLabel newLogIdHex : String} {draws : RotationDraws}
      (rotated : log.rotateTo crates newSigner newLabel newLogIdHex draws = .ok (closed, next)) :
      Built crates codec closed
  | successor {log closed next : AuditLog} (built : Built crates codec log) {newSigner : Signer}
      {newLabel newLogIdHex : String} {draws : RotationDraws}
      (rotated : log.rotateTo crates newSigner newLabel newLogIdHex draws = .ok (closed, next)) :
      Built crates codec next

/-- Committing an entry keeps the frontier that of the entries. -/
theorem AuditLog.commit_tree {crates : Crates} {log : AuditLog} {entry : LogEntry}
    (tree : log.tree = .ofContents crates (contents crates log.entries)) :
    (log.commit crates entry).tree =
      .ofContents crates (contents crates (log.commit crates entry).entries) := by
  simp [AuditLog.commit, contents, tree]

/-- The frontier of every log is that of its entries. -/
theorem AuditLog.Built.tree {crates : Crates} {codec : LogCodec} {log : AuditLog}
    (built : log.Built crates codec) :
    log.tree = .ofContents crates (contents crates log.entries) := by
  induction built with
  | created => rfl
  | @appended log _ event sign now inductionHypothesis =>
      rcases log.append_cases crates event sign now with
        ⟨failure, failed⟩ | ⟨signer, signature, _, _, committed⟩
      · rw [failed]
        exact inductionHypothesis
      · rw [committed]
        exact commit_tree inductionHypothesis
  | @bound log _ signer inductionHypothesis =>
      rcases log.bindSigner_cases crates signer with ⟨_, unchanged⟩ | ⟨_, _, changed⟩
      · rw [unchanged]
        exact inductionHypothesis
      · rw [changed]
        exact inductionHypothesis
  | overridden _ _ inductionHypothesis => exact inductionHypothesis
  | opened read =>
      obtain ⟨_, _, _, _, _, _, _, rfl⟩ := AuditLog.readFrom_eq_ok read
      rfl
  | closed _ rotated inductionHypothesis =>
      obtain ⟨_, _, _, _, _, _, _, rfl, _, _⟩ := rotateTo_cases rotated
      exact commit_tree inductionHypothesis
  | successor _ rotated _ =>
      obtain ⟨_, _, _, _, _, _, _, _, _, rfl⟩ := rotateTo_cases rotated
      rfl

/-- Two neighbours pass the checks of `verify_chain` only if they are linked. -/
theorem linked_of_checkLink {crates : Crates} {prev next : AuditLog}
    (checked : AuditLog.checkLink crates prev next = .ok ()) : Linked crates prev next := by
  simp only [AuditLog.checkLink] at checked
  split at checked
  · cases checked
  rename_i last isLast
  split at checked
  · cases checked
  rename_i closeAction
  split at checked
  · cases checked
  rename_i claimed isClaimed
  split at checked
  · cases checked
  rename_i sameId
  split at checked
  · cases checked
  rename_i id isId
  split at checked
  · cases checked
  rename_i samePrev
  split at checked
  · cases checked
  rename_i root isRoot
  split at checked
  · cases checked
  rename_i sameRoot
  split at checked
  · cases checked
  rename_i first isFirst
  split at checked
  · cases checked
  rename_i openAction
  split at checked
  · cases checked
  rename_i metaPrev isMeta
  split at checked
  · cases checked
  rename_i sameMeta
  rw [not_not] at closeAction sameId samePrev sameRoot openAction sameMeta
  subst sameId samePrev sameRoot sameMeta
  exact ⟨⟨last, isLast, closeAction, isClaimed⟩, isId, isRoot,
    ⟨first, isFirst, openAction, isMeta⟩⟩

/-- An accepted chain consists of verified logs and is linked throughout. -/
theorem linked_of_verifyChain {crates : Crates} {logs : List AuditLog}
    (accepted : AuditLog.verifyChain crates logs = .ok ()) :
    (∀ log ∈ logs, log.verify crates = .ok ()) ∧ logs.IsChain (Linked crates) := by
  have pairs : ∀ {prev : AuditLog} {others : List AuditLog},
      AuditLog.verifyPairs crates prev others = .ok () →
        (∀ log ∈ others, log.verify crates = .ok ()) ∧
        (prev :: others).IsChain (Linked crates) := by
    intro prev others
    induction others generalizing prev with
    | nil => exact fun _ => ⟨by simp, .singleton _⟩
    | cons next rest inductionHypothesis =>
        intro accepted
        obtain ⟨_, verified, accepted⟩ := bind_eq_ok.mp accepted
        obtain ⟨_, checked, later⟩ := bind_eq_ok.mp accepted
        obtain ⟨restVerified, chain⟩ := inductionHypothesis later
        refine ⟨?_, List.isChain_cons_cons.mpr ⟨linked_of_checkLink checked, chain⟩⟩
        intro log member
        rcases List.mem_cons.mp member with rfl | later
        · exact mapError_eq_ok.mp verified
        · exact restVerified log later
  cases logs with
  | nil => cases accepted
  | cons first rest =>
      obtain ⟨_, verified, accepted⟩ := bind_eq_ok.mp accepted
      split at accepted
      · cases accepted
      · obtain ⟨restVerified, chain⟩ := pairs accepted
        refine ⟨?_, chain⟩
        intro log member
        rcases List.mem_cons.mp member with rfl | later
        · exact mapError_eq_ok.mp verified
        · exact restVerified log later

/-- The signature of an entry is good under the key of its log. -/
def LogEntry.Signed (crates : Crates) (header : LogHeader) (entry : LogEntry) : Prop :=
  verifySig crates header.pubkey (AuditLog.entryPayload crates header.logId entry) entry.signature
    entry.index = .ok ()

/-- Every entry of a verified log is signed. -/
theorem AuditLog.signed_of_verify {crates : Crates} {log : AuditLog}
    (verified : log.verify crates = .ok ()) {entry : LogEntry} (member : entry ∈ log.entries) :
    entry.Signed crates log.header := by
  obtain ⟨_, _, accepted⟩ := bind_eq_ok.mp verified
  obtain ⟨i, found⟩ := List.mem_iff_getElem?.mp member
  exact (links_of_accepted accepted found).signature

/-- Two neighbours whose link rests on signed events: the sealed log ends with an
event that names its successor, and the successor begins with one that names the
sealed log and the root of all its entries. -/
structure SignedLink (crates : Crates) (prev next : AuditLog) : Prop where
  closed : ∃ last, prev.entries.getLast? = some last ∧ last.Signed crates prev.header ∧
    last.event.action = rotationCloseAction ∧
    last.event.metadata.get? "new_log_id" = some (hexEncode next.header.logId.1)
  opened : ∃ first, next.entries.head? = some first ∧ first.Signed crates next.header ∧
    first.event.action = rotationOpenAction ∧
    first.event.metadata.get? "prev_log_id" = some (hexEncode prev.header.logId.1) ∧
    first.event.metadata.get? "prev_log_final_root" =
      some (hexEncode ((MerkleTree.ofContents crates (contents crates prev.entries)).root crates).1)

/-- The first event of a log carries the previous root of the log's own header. -/
def AuditLog.OpensAsHeader (log : AuditLog) : Prop :=
  ∀ first, log.entries.head? = some first →
    first.event.metadata.get? "prev_log_final_root" =
      log.header.prevLogFinalRoot.map fun root => hexEncode root.1

/-- A link between verified logs rests on signed events exactly if the successor's
first event carries the root of its header. -/
theorem Linked.signed_iff {crates : Crates} {prev next : AuditLog}
    (linked : Linked crates prev next)
    (tree : prev.tree = .ofContents crates (contents crates prev.entries))
    (prevVerified : prev.verify crates = .ok ()) (nextVerified : next.verify crates = .ok ()) :
    SignedLink crates prev next ↔ next.OpensAsHeader := by
  obtain ⟨last, isLast, closeAction, newLogId⟩ := linked.closed
  obtain ⟨first, isFirst, openAction, prevId⟩ := linked.opened
  rw [AuditLog.OpensAsHeader, linked.prevRoot, Option.map_some, tree]
  constructor
  · rintro ⟨_, ⟨found, isFound, _, _, _, root⟩⟩ other isOther
    rw [isFound] at isOther
    cases isOther
    exact root
  · intro agrees
    refine ⟨⟨last, isLast, ?_, closeAction, newLogId⟩,
      ⟨first, isFirst, ?_, openAction, prevId, agrees first isFirst⟩⟩
    · exact AuditLog.signed_of_verify prevVerified (List.mem_of_getLast? isLast)
    · exact AuditLog.signed_of_verify nextVerified (List.mem_of_head? isFirst)

/-- The links of an accepted chain rest on signed events exactly if every log
after the first opens with the root of its own header. -/
theorem verifyChain_signed_iff (crates : Crates) (codec : LogCodec) {logs : List AuditLog}
    (built : ∀ log ∈ logs, log.Built crates codec)
    (accepted : AuditLog.verifyChain crates logs = .ok ()) :
    logs.IsChain (SignedLink crates) ↔ ∀ log ∈ logs.tail, log.OpensAsHeader := by
  obtain ⟨verified, chain⟩ := linked_of_verifyChain accepted
  clear accepted
  induction logs with
  | nil => simp
  | cons first rest inductionHypothesis =>
      cases rest with
      | nil => simp
      | cons next others =>
          obtain ⟨linked, chain⟩ := List.isChain_cons_cons.mp chain
          have pair := linked.signed_iff (built first (by simp)).tree (verified first (by simp))
            (verified next (by simp))
          have later := inductionHypothesis
            (fun log member => built log (List.mem_cons_of_mem _ member))
            (fun log member => verified log (List.mem_cons_of_mem _ member)) chain
          rw [List.isChain_cons_cons, pair, later]
          simp

/-- A rotation opens the successor with the root of its header. -/
theorem AuditLog.opensAsHeader_of_rotateTo {crates : Crates} {log closed next : AuditLog}
    {newSigner : Signer} {newLabel newLogIdHex : String} {draws : RotationDraws}
    (rotated : log.rotateTo crates newSigner newLabel newLogIdHex draws = .ok (closed, next)) :
    next.OpensAsHeader := by
  obtain ⟨newLogId, _, _, _, _, _, _, _, _, rfl⟩ := rotateTo_cases rotated
  rintro first ⟨⟩
  simp [AuditLog.opening, AuditLog.nextEntry, AuditLog.openEvent, AuditLog.commit,
    AuditLog.successor, EventBuilder.build, EventBuilder.withMeta, OrderedMap.get?_insert]

/-- A statement about both of two values. -/
theorem forall_mem_pair {V : Type} {left right : V} {holds : V → Prop}
    (both : holds left ∧ holds right) : ∀ value ∈ [left, right], holds value :=
  List.forall_mem_cons.mpr ⟨both.1, List.forall_mem_singleton.mpr both.2⟩

/-- What a rotation of the transparent primitives draws. -/
def plainDraws : RotationDraws where
  logId := .replicate 16 2
  clock _ := "2026-05-01T00:00:09Z"
  signClose := plainSign
  signOpen := plainSign

/-- The logs of an honest rotation, and their links. -/
theorem verifyChain_signed_iff_rotated :
    ∃ closed next, plainLog.rotateTo plainCrates plainSigner "gateway-1" "" plainDraws =
      .ok (closed, next) ∧ AuditLog.verifyChain plainCrates [closed, next] = .ok () ∧
        [closed, next].IsChain (SignedLink plainCrates) := by
  have succeeds :
      (plainLog.rotateTo plainCrates plainSigner "gateway-1" "" plainDraws).isOk = true := by
    decide +kernel
  cases rotated : plainLog.rotateTo plainCrates plainSigner "gateway-1" "" plainDraws with
  | error failure =>
      rw [rotated] at succeeds
      cases succeeds
  | ok logs =>
      obtain ⟨closed, next⟩ := logs
      have created : plainLog.Built plainCrates cborCodec := .created _ _ _ _
      have sound : plainLog.Sound plainCrates :=
        AuditLog.sound_createWithSigner plainCrates _ _ _ plainSigner_wellFormed
      have closeHonours : plainDraws.signClose.Honours plainCrates plainLog.header.pubkey :=
        plainSign_honours
      obtain ⟨closedSound, nextSound⟩ := sound.rotateTo plainSigner_wellFormed closeHonours
        plainSign_honours rotated
      have root : closed.header.prevLogId = none ∧ closed.header.prevLogFinalRoot = none := by
        obtain ⟨_, _, _, _, _, _, _, rfl, _, _⟩ := AuditLog.rotateTo_cases rotated
        exact ⟨rfl, rfl⟩
      have accepted : AuditLog.verifyChain plainCrates [closed, next] = .ok () := by
        refine verifyChain_of_linked ?_ root ?_
        · exact forall_mem_pair ⟨closedSound.verify, nextSound.verify⟩
        · exact List.isChain_cons_cons.mpr ⟨AuditLog.linked_of_rotateTo rotated, .singleton _⟩
      refine ⟨closed, next, rfl, accepted, ?_⟩
      refine (verifyChain_signed_iff plainCrates cborCodec ?_ accepted).mpr ?_
      · exact forall_mem_pair ⟨.closed created rotated, .successor created rotated⟩
      · exact List.forall_mem_singleton.mpr (AuditLog.opensAsHeader_of_rotateTo rotated)

/-- A log of the transparent primitives that was sealed by a rotation. -/
def plainSealed : AuditLog :=
  (plainLog.append plainCrates (plainLog.closeEvent plainDraws.logId "gateway-1"
    "2026-05-01T00:00:09Z") plainSign "2026-05-01T00:00:09Z").1

/-- The start of its successor. -/
def plainSuccessor : AuditLog :=
  plainSealed.successor plainCrates plainSigner "gateway-1" plainDraws.logId "2026-05-01T00:00:09Z"

/-- An opening event that names the sealed log, but another root. -/
def forgedOpenEvent : AuditEvent :=
  let builder : EventBuilder := { action := some rotationOpenAction, actor := some "system:qaudit" }
  ((builder.withMeta "prev_log_id" (hexEncode plainLog.header.logId.1)).withMeta
    "prev_log_final_root" "00").build "2026-05-01T00:00:09Z"

/-- The successor that the holder of its key opens with that event. -/
def forgedLog : AuditLog :=
  (plainSuccessor.append plainCrates forgedOpenEvent plainSign "2026-05-01T00:00:09Z").1

theorem plainSealed_sound : plainSealed.Sound plainCrates :=
  (AuditLog.sound_createWithSigner plainCrates _ _ _ plainSigner_wellFormed).append
    plainSign_honours

theorem plainSuccessor_entries : plainSuccessor.entries = [] := rfl

theorem plainSuccessor_sound : plainSuccessor.Sound plainCrates := by
  refine ⟨?_, rfl, rfl, ?_⟩
  · simp [plainSuccessor, AuditLog.successor, validateHeader, PublicKey.fromBytes,
      plainSigner_wellFormed, Except.map]
  · rintro signer ⟨⟩
    rfl

/-- Both signatures are made. -/
theorem forgedLog_entries :
    ∃ closing opening, plainSealed = plainLog.commit plainCrates closing ∧
      closing.event = plainLog.closeEvent plainDraws.logId "gateway-1" "2026-05-01T00:00:09Z" ∧
      forgedLog = plainSuccessor.commit plainCrates opening ∧
      opening.event = forgedOpenEvent := by
  have signsClose : plainLog.signs plainCrates
      (plainLog.closeEvent plainDraws.logId "gateway-1" "2026-05-01T00:00:09Z")
        plainSign = true := by
    decide +kernel
  have signsOpen : plainSuccessor.signs plainCrates forgedOpenEvent plainSign = true := by
    decide +kernel
  rw [← AuditLog.append_isOk plainCrates _ _ plainSign "2026-05-01T00:00:09Z"]
    at signsClose signsOpen
  rcases plainLog.append_cases plainCrates
      (plainLog.closeEvent plainDraws.logId "gateway-1" "2026-05-01T00:00:09Z") plainSign
      "2026-05-01T00:00:09Z" with ⟨_, failed⟩ | ⟨_, closeSignature, _, _, closed⟩
  · rw [failed] at signsClose
    cases signsClose
  · rcases plainSuccessor.append_cases plainCrates forgedOpenEvent plainSign
        "2026-05-01T00:00:09Z" with ⟨_, failed⟩ | ⟨_, openSignature, _, _, opened⟩
    · rw [failed] at signsOpen
      cases signsOpen
    · exact ⟨_, _, congrArg Prod.fst closed, rfl, congrArg Prod.fst opened, rfl⟩

/-- A chain is accepted although the root in the opening event of its second log is
not the root of its first log. -/
theorem verifyChain_accepts_forged_root :
    (∀ log ∈ [plainSealed, { forgedLog with signer := none }],
      log.Built plainCrates cborCodec) ∧
      AuditLog.verifyChain plainCrates [plainSealed, { forgedLog with signer := none }] = .ok () ∧
      ¬ [plainSealed, { forgedLog with signer := none }].IsChain (SignedLink plainCrates) := by
  obtain ⟨closing, opening, closed, closeEvent, opened, openEvent⟩ := forgedLog_entries
  have forgedSound : forgedLog.Sound plainCrates := plainSuccessor_sound.append plainSign_honours
  obtain ⟨read, isRead, same, readSound⟩ := forgedSound.readFrom cborCodec
  rw [← same]
  have header : plainSealed.header = plainLog.header := by
    rw [closed]
    rfl
  have linked : Linked plainCrates plainSealed read := by
    refine ⟨⟨closing, by rw [closed, AuditLog.commit, List.getLast?_concat], ?_⟩, ?_, ?_,
      ⟨opening, by rw [same, opened, AuditLog.commit, plainSuccessor_entries]; rfl, ?_⟩⟩
    · rw [closeEvent, same, opened]
      exact AuditLog.closeEvent_names plainLog plainDraws.logId "gateway-1" "2026-05-01T00:00:09Z"
    · rw [same, opened]
      rfl
    · rw [same, opened]
      rfl
    · rw [openEvent, header]
      exact ⟨rfl, by decide +kernel⟩
  have accepted : AuditLog.verifyChain plainCrates [plainSealed, read] = .ok () := by
    refine verifyChain_of_linked ?_ ?_ (List.isChain_cons_cons.mpr ⟨linked, .singleton _⟩)
    · exact forall_mem_pair ⟨plainSealed_sound.verify, readSound.verify⟩
    · rw [header]
      exact ⟨rfl, rfl⟩
  refine ⟨?_, accepted, ?_⟩
  · exact forall_mem_pair ⟨.appended (.created _ _ _ _) _ _ _, .opened isRead⟩
  · intro chain
    obtain ⟨⟨_, ⟨first, isFirst, _, _, _, root⟩⟩, _⟩ := List.isChain_cons_cons.mp chain
    rw [same, opened] at isFirst
    cases isFirst
    rw [openEvent, ← plainSealed_sound.tree] at root
    have different : forgedOpenEvent.metadata.get? "prev_log_final_root" ≠
        some (hexEncode (plainSealed.tree.root plainCrates).1) := by
      decide +kernel
    exact different root

end CofreSoberano.Audit

import CofreSoberano.Std.Cbor
import CofreSoberano.Std.Fallible

/-!
# The CSPQ record layer

Sealing and opening of records under directional nonces, and the account of what
the two endpoints of a session have sealed. An ideal AEAD opens only what one of
them sealed under the same key and nonce; since the nonce holds the direction and
a counter, what a receiver opens next is the next record of its peer.
-/

namespace CofreSoberano.Transport

open CofreSoberano.Std

/-- Errors of the byte stream below, as `io::Error` has them. -/
inductive IoErrorKind where
  | unexpectedEof
  | invalidData
  | notConnected
  | writeZero
  | other
deriving DecidableEq

/-- An `io::Error`. -/
structure IoError where
  kind : IoErrorKind
  message : String
deriving DecidableEq

/-- All errors of the transport but those of identity files. -/
inductive Error where
  | io (error : IoError)
  | protocol (message : String)
  | crypto (message : String)
  | untrustedPeer (peerId : String)
  | nonceOverflow
  | unsupportedSuite (suite : UInt16)
  | frameTooLarge (got max : Nat)
  | mlDsa (message : String)
deriving DecidableEq

/-- The `Display` texts of the errors. -/
def Error.display : Error → String
  | .io error => s!"io: {error.message}"
  | .protocol message => s!"protocol: {message}"
  | .crypto message => s!"crypto: {message}"
  | .untrustedPeer peerId => s!"untrusted peer identity {peerId}"
  | .nonceOverflow => "nonce counter overflow"
  | .unsupportedSuite suite => s!"unsupported suite 0x{hexEncode (Cbor.bigEndian 2 suite.toNat)}"
  | .frameTooLarge got max => s!"frame too large: {got} bytes, max {max}"
  | .mlDsa message => s!"ml-dsa: {message}"

/-- `MAX_PLAINTEXT`. -/
def maxPlaintext : Nat := 16 * 1024

/-- `TAG_LEN`. -/
def tagLen : Nat := 16

/-- `MAX_FRAME`. -/
def maxFrame : Nat := 64 * 1024

/-- `READ_BODY_HARD_CAP`. -/
def readBodyHardCap : Nat := maxPlaintext + tagLen + 64

/-- `DIR_C2S`. -/
def dirC2s : Octets 4 := ⟨[0, 0, 0, 0], rfl⟩

/-- `DIR_S2C`. -/
def dirS2c : Octets 4 := ⟨[0, 0, 0, 1], rfl⟩

/-- An AEAD key. -/
abbrev Key := Octets 32

/-- An AEAD nonce. -/
abbrev Nonce := Octets 12

/-- What `ChaCha20Poly1305` answers to one call, for each key, nonce and text. -/
structure Aead where
  encrypt : Key → Nonce → List UInt8 → Option (List UInt8)
  decrypt : Key → Nonce → List UInt8 → Option (List UInt8)

/-- One direction of a session: its key, record counter and nonce prefix. -/
structure DirectionState where
  key : Key
  counter : Nat
  dir : Octets 4
deriving DecidableEq

/-- The nonce of a record: four bytes of direction and a big-endian counter. -/
def nonceOf (dir : Octets 4) (counter : Nat) : Nonce :=
  ⟨dir.1 ++ Cbor.bigEndian 8 counter, by
    rw [List.length_append, dir.2, Cbor.bigEndian_length]⟩

/-- `u64::MAX`. -/
def counterMax : Nat := 2 ^ 64 - 1

namespace DirectionState

/-- `DirectionState::new`. -/
def new (key : Key) (dir : Octets 4) : DirectionState := { key, counter := 0, dir }

/-- `DirectionState::next_nonce`. -/
def nextNonce (state : DirectionState) : DirectionState × Except Error Nonce :=
  if state.counter = counterMax then (state, .error .nonceOverflow)
  else ({ state with counter := state.counter + 1 }, .ok (nonceOf state.dir state.counter))

/-- `DirectionState::seal`. -/
def sealRecord (aead : Aead) (state : DirectionState) (plaintext : List UInt8) :
    DirectionState × Except Error (List UInt8) :=
  match state.nextNonce with
  | (next, .error failure) => (next, .error failure)
  | (next, .ok nonce) =>
      match aead.encrypt state.key nonce plaintext with
      | none => (next, .error (.crypto "AEAD seal failed"))
      | some ciphertext => (next, .ok ciphertext)

/-- `DirectionState::open`. -/
def openRecord (aead : Aead) (state : DirectionState) (ciphertext : List UInt8) :
    DirectionState × Except Error (List UInt8) :=
  match state.nextNonce with
  | (next, .error failure) => (next, .error failure)
  | (next, .ok nonce) =>
      match aead.decrypt state.key nonce ciphertext with
      | none => (next, .error (.crypto "AEAD open failed (bad tag or replay)"))
      | some plaintext => (next, .ok plaintext)

/-- Opening uses up the nonce of the next record, whether it succeeds or not; it
succeeds if the AEAD accepts the text under that nonce. -/
theorem openRecord_eq_ok {aead : Aead} {state next : DirectionState}
    {ciphertext plaintext : List UInt8}
    (opened : state.openRecord aead ciphertext = (next, .ok plaintext)) :
    state.counter ≠ counterMax ∧ next = { state with counter := state.counter + 1 } ∧
      aead.decrypt state.key (nonceOf state.dir state.counter) ciphertext = some plaintext := by
  by_cases overflow : state.counter = counterMax
  · simp [openRecord, nextNonce, overflow] at opened
  · simp only [openRecord, nextNonce, if_neg overflow] at opened
    cases decrypted : aead.decrypt state.key (nonceOf state.dir state.counter) ciphertext with
    | none => simp [decrypted] at opened
    | some text =>
        simp only [decrypted, Prod.mk.injEq, Except.ok.injEq] at opened
        exact ⟨overflow, opened.1.symm, by rw [opened.2]⟩

end DirectionState

/-- A nonce determines its direction and counter. -/
theorem nonceOf_injective {left right : Octets 4} {first second : Nat} (leftFits : first < 256 ^ 8)
    (rightFits : second < 256 ^ 8) (same : nonceOf left first = nonceOf right second) :
    left = right ∧ first = second := by
  have bytes : left.1 ++ Cbor.bigEndian 8 first = right.1 ++ Cbor.bigEndian 8 second :=
    congrArg Subtype.val same
  obtain ⟨sameDir, sameCounter⟩ := List.append_inj bytes (left.2.trans right.2.symm)
  refine ⟨Subtype.ext sameDir, ?_⟩
  rw [← Cbor.ofBigEndian_bigEndian leftFits, sameCounter, Cbor.ofBigEndian_bigEndian rightFits]

/-- A record that an endpoint sealed. -/
structure SealedRecord where
  counter : Nat
  plaintext : List UInt8
  ciphertext : List UInt8
deriving DecidableEq

/-- The sending directions of the two endpoints, as a receiver sees them, and what
each of them has sealed, oldest first. -/
structure Session where
  peer : DirectionState
  own : DirectionState
  records : List SealedRecord
  ownRecords : List SealedRecord

namespace Session

/-- The endpoints of a client right after its handshake. -/
def newClient (keyC2s keyS2c : Key) : Session where
  peer := .new keyS2c dirS2c
  own := .new keyC2s dirC2s
  records := []
  ownRecords := []

/-- The endpoints of a server right after its handshake. -/
def newServer (keyC2s keyS2c : Key) : Session where
  peer := .new keyC2s dirC2s
  own := .new keyS2c dirS2c
  records := []
  ownRecords := []

/-- The peer seals a record, by whichever of its operations. -/
def peerSeals (aead : Aead) (session : Session) (plaintext : List UInt8) : Session :=
  match session.peer.sealRecord aead plaintext with
  | (peer, .error _) => { session with peer }
  | (peer, .ok ciphertext) =>
      { session with
        peer, records := session.records ++ [⟨session.peer.counter, plaintext, ciphertext⟩] }

/-- The receiving endpoint seals a record of its own direction. -/
def ownSeals (aead : Aead) (session : Session) (plaintext : List UInt8) : Session :=
  match session.own.sealRecord aead plaintext with
  | (own, .error _) => { session with own }
  | (own, .ok ciphertext) =>
      { session with
        own, ownRecords := session.ownRecords ++
        [⟨session.own.counter, plaintext, ciphertext⟩] }

/-- One of the endpoints sealed this text under this key and nonce. -/
def HasSealed (session : Session) (key : Key) (nonce : Nonce)
    (plaintext ciphertext : List UInt8) : Prop :=
  (session.peer.key = key ∧ ∃ record ∈ session.records,
    nonceOf session.peer.dir record.counter = nonce ∧
    record.plaintext = plaintext ∧ record.ciphertext = ciphertext) ∨
  (session.own.key = key ∧ ∃ record ∈ session.ownRecords,
    nonceOf session.own.dir record.counter = nonce ∧
    record.plaintext = plaintext ∧ record.ciphertext = ciphertext)

/-- The plaintext that the peer sealed before its first empty record. -/
def beforeEof (session : Session) : List UInt8 :=
  ((session.records.map SealedRecord.plaintext).takeWhile (· ≠ [])).flatten

/-- The peer sealed the end-of-stream marker. -/
def SealedEof (session : Session) : Prop := [] ∈ session.records.map SealedRecord.plaintext

/-- The two directions differ, and each endpoint numbered its records in order. -/
structure Ordered (session : Session) : Prop where
  apart : session.own.dir ≠ session.peer.dir
  increasing : session.records.Pairwise fun left right => left.counter < right.counter
  peerBound : ∀ record ∈ session.records, record.counter < session.peer.counter
  ownBound : ∀ record ∈ session.ownRecords, record.counter < session.own.counter
  peerCounter : session.peer.counter ≤ counterMax
  ownCounter : session.own.counter ≤ counterMax

theorem ordered_newClient (keyC2s keyS2c : Key) : (newClient keyC2s keyS2c).Ordered where
  apart := show dirC2s ≠ dirS2c by decide
  increasing := .nil
  peerBound := by simp [newClient]
  ownBound := by simp [newClient]
  peerCounter := Nat.zero_le _
  ownCounter := Nat.zero_le _

theorem ordered_newServer (keyC2s keyS2c : Key) : (newServer keyC2s keyS2c).Ordered where
  apart := show dirS2c ≠ dirC2s by decide
  increasing := .nil
  peerBound := by simp [newServer]
  ownBound := by simp [newServer]
  peerCounter := Nat.zero_le _
  ownCounter := Nat.zero_le _

end Session

/-- Sealing keeps the key and the direction and uses up at most one counter; a
record that it returns was sealed under the counter before. -/
theorem DirectionState.sealRecord_cases (aead : Aead) (state : DirectionState)
    (plaintext : List UInt8) :
    (∃ failure, state.sealRecord aead plaintext = (state, .error failure)) ∨
      state.counter ≠ counterMax ∧
        ∃ outcome, state.sealRecord aead plaintext =
          ({ state with counter := state.counter + 1 }, outcome) := by
  by_cases overflow : state.counter = counterMax
  · exact .inl ⟨.nonceOverflow, by simp [sealRecord, nextNonce, overflow]⟩
  · refine .inr ⟨overflow, ?_⟩
    simp only [sealRecord, nextNonce, if_neg overflow]
    split
    · exact ⟨_, rfl⟩
    · exact ⟨_, rfl⟩

namespace Session.Ordered

variable {session : Session}

theorem peerSeals (ordered : session.Ordered) (aead : Aead) (plaintext : List UInt8) :
    (session.peerSeals aead plaintext).Ordered := by
  rw [Session.peerSeals]
  rcases session.peer.sealRecord_cases aead plaintext with
    ⟨failure, failed⟩ | ⟨notMax, outcome, sealed⟩
  · rw [failed]
    exact ⟨ordered.apart, ordered.increasing, ordered.peerBound, ordered.ownBound,
      ordered.peerCounter, ordered.ownCounter⟩
  · have bound := ordered.peerCounter
    have counter : session.peer.counter + 1 ≤ counterMax := by omega
    have older : ∀ record ∈ session.records, record.counter < session.peer.counter + 1 := by
      intro record member
      have below := ordered.peerBound record member
      omega
    rw [sealed]
    cases outcome with
    | error failure =>
        exact ⟨ordered.apart, ordered.increasing, older, ordered.ownBound,
          counter, ordered.ownCounter⟩
    | ok ciphertext =>
        refine ⟨ordered.apart, ?_, ?_, ordered.ownBound, counter, ordered.ownCounter⟩
        · refine List.pairwise_append.mpr ⟨ordered.increasing, List.pairwise_singleton _ _, ?_⟩
          intro record member new isNew
          rw [List.mem_singleton.mp isNew]
          exact ordered.peerBound record member
        · intro record member
          rcases List.mem_append.mp member with old | new
          · exact older record old
          · rw [List.mem_singleton.mp new]
            exact Nat.lt_succ_self _

theorem ownSeals (ordered : session.Ordered) (aead : Aead) (plaintext : List UInt8) :
    (session.ownSeals aead plaintext).Ordered := by
  rw [Session.ownSeals]
  rcases session.own.sealRecord_cases aead plaintext with
    ⟨failure, failed⟩ | ⟨notMax, outcome, sealed⟩
  · rw [failed]
    exact ⟨ordered.apart, ordered.increasing, ordered.peerBound, ordered.ownBound,
      ordered.peerCounter, ordered.ownCounter⟩
  · have bound := ordered.ownCounter
    have counter : session.own.counter + 1 ≤ counterMax := by omega
    have older : ∀ record ∈ session.ownRecords, record.counter < session.own.counter + 1 := by
      intro record member
      have below := ordered.ownBound record member
      omega
    rw [sealed]
    cases outcome with
    | error failure =>
        exact ⟨ordered.apart, ordered.increasing, ordered.peerBound, older, ordered.peerCounter,
          counter⟩
    | ok ciphertext =>
        refine ⟨ordered.apart, ordered.increasing, ordered.peerBound, ?_,
          ordered.peerCounter, counter⟩
        intro record member
        rcases List.mem_append.mp member with old | new
        · exact older record old
        · rw [List.mem_singleton.mp new]
          exact Nat.lt_succ_self _

/-- The record at a position has at least that counter. -/
theorem le_counter (ordered : session.Ordered) {i : Nat} {record : SealedRecord}
    (found : session.records[i]? = some record) : i ≤ record.counter := by
  induction i generalizing record with
  | zero => exact Nat.zero_le _
  | succ i inductionHypothesis =>
      obtain ⟨inside, rfl⟩ := List.getElem?_eq_some_iff.mp found
      have earlier := inductionHypothesis (List.getElem?_eq_getElem (Nat.lt_of_succ_lt inside))
      have less := List.pairwise_iff_getElem.mp ordered.increasing i (i + 1)
        (Nat.lt_of_succ_lt inside) inside (Nat.lt_succ_self i)
      omega

end Session.Ordered

/-- An AEAD that opens only what was sealed under the same key and nonce. -/
def Aead.Ideal (aead : Aead) (session : Session) : Prop :=
  ∀ key nonce ciphertext plaintext, aead.decrypt key nonce ciphertext = some plaintext →
    session.HasSealed key nonce plaintext ciphertext

/-- A receiver of the peer's direction has opened exactly the first records of its
peer, none of them empty, and `taken` is their plaintext. -/
structure Session.Tracks (session : Session) (recv : DirectionState) (taken : List UInt8) :
    Prop where
  key : recv.key = session.peer.key
  dir : recv.dir = session.peer.dir
  enough : recv.counter ≤ session.records.length
  counters : ∀ i record, i < recv.counter → session.records[i]? = some record →
    record.counter = i
  nonempty : ∀ record ∈ session.records.take recv.counter, record.plaintext ≠ []
  taken : taken = (session.records.take recv.counter).flatMap SealedRecord.plaintext

namespace Session.Tracks

variable {session : Session} {recv : DirectionState} {taken : List UInt8}

/-- More records do not disturb a receiver. -/
theorem mono (tracks : session.Tracks recv taken) {later : Session}
    (sameKey : later.peer.key = session.peer.key) (sameDir : later.peer.dir = session.peer.dir)
    (grown : session.records <+: later.records) : later.Tracks recv taken := by
  obtain ⟨more, records⟩ := grown
  have same : later.records.take recv.counter = session.records.take recv.counter := by
    rw [← records, List.take_append_of_le_length tracks.enough]
  refine ⟨tracks.key.trans sameKey.symm, tracks.dir.trans sameDir.symm, ?_, ?_, ?_, ?_⟩
  · rw [← records, List.length_append]
    exact Nat.le_add_right_of_le tracks.enough
  · intro i record below found
    rw [← records, List.getElem?_append_left (Nat.lt_of_lt_of_le below tracks.enough)] at found
    exact tracks.counters i record below found
  · rw [same]
    exact tracks.nonempty
  · rw [same]
    exact tracks.taken

/-- A receiver's counter is no further than a counter can go. -/
theorem counter_le (tracks : session.Tracks recv taken) (ordered : session.Ordered) :
    recv.counter ≤ counterMax := by
  cases counter : recv.counter with
  | zero => exact Nat.zero_le _
  | succ last =>
      have inside : last < session.records.length := by
        have enough := tracks.enough
        omega
      have own := ordered.le_counter (List.getElem?_eq_getElem inside)
      have below := ordered.peerBound _ (List.getElem_mem inside)
      have bound := ordered.peerCounter
      omega

/-- What an ideal AEAD opens next is the next record of the peer. -/
theorem opened (tracks : session.Tracks recv taken) (ordered : session.Ordered) {aead : Aead}
    (ideal : aead.Ideal session) {next : DirectionState} {ciphertext plaintext : List UInt8}
    (opens : recv.openRecord aead ciphertext = (next, .ok plaintext)) :
    next = { recv with counter := recv.counter + 1 } ∧ ∃ record,
      session.records[recv.counter]? = some record ∧ record.counter = recv.counter ∧
        record.plaintext = plaintext := by
  obtain ⟨notMax, advanced, decrypted⟩ := DirectionState.openRecord_eq_ok opens
  refine ⟨advanced, ?_⟩
  have fits : ∀ {counter : Nat}, counter < counterMax → counter < 256 ^ 8 :=
    fun below => Nat.lt_of_lt_of_le below (by decide)
  have recvFits := fits (Nat.lt_of_le_of_ne (tracks.counter_le ordered) notMax)
  rcases ideal _ _ _ _ decrypted with
    ⟨_, record, member, sameNonce, samePlain, _⟩ | ⟨_, record, member, sameNonce, _, _⟩
  · -- Strictly increasing counters put the record right after those opened.
    have recordFits :=
      fits (Nat.lt_of_lt_of_le (ordered.peerBound record member) ordered.peerCounter)
    have sameCounter := (nonceOf_injective recordFits recvFits sameNonce).2
    obtain ⟨i, found⟩ := List.mem_iff_getElem?.mp member
    have above := ordered.le_counter found
    have position : i = recv.counter := by
      by_cases below : i < recv.counter
      · have earlier := tracks.counters i record below found
        omega
      · omega
    exact ⟨record, position ▸ found, sameCounter, samePlain⟩
  · -- A record of the own direction has another nonce.
    have recordFits := fits (Nat.lt_of_lt_of_le (ordered.ownBound record member) ordered.ownCounter)
    have sameDir := (nonceOf_injective recordFits recvFits sameNonce).1
    exact absurd (sameDir.trans tracks.dir) ordered.apart

/-- A receiver goes on with a record that is not empty. -/
theorem advance (tracks : session.Tracks recv taken) {record : SealedRecord}
    (found : session.records[recv.counter]? = some record) (counter : record.counter = recv.counter)
    (nonempty : record.plaintext ≠ []) :
    session.Tracks { recv with counter := recv.counter + 1 } (taken ++ record.plaintext) := by
  have front : session.records.take (recv.counter + 1) =
      session.records.take recv.counter ++ [record] := by
    rw [List.take_add_one, found]
    rfl
  obtain ⟨inside, _⟩ := List.getElem?_eq_some_iff.mp found
  refine ⟨tracks.key, tracks.dir, inside, ?_, ?_, ?_⟩
  · intro i other below foundOther
    rcases Nat.lt_succ_iff_lt_or_eq.mp below with earlier | rfl
    · exact tracks.counters i other earlier foundOther
    · rw [found] at foundOther
      cases foundOther
      exact counter
  · intro other member
    rw [front] at member
    rcases List.mem_append.mp member with old | new
    · exact tracks.nonempty other old
    · rw [List.mem_singleton.mp new]
      exact nonempty
  · rw [front, List.flatMap_append, tracks.taken, List.flatMap_singleton]

/-- What the peer sealed before its end of stream is what was taken and what comes
before the next empty record. -/
theorem beforeEof_eq (tracks : session.Tracks recv taken) :
    session.beforeEof = taken ++ (((session.records.drop recv.counter).map
      SealedRecord.plaintext).takeWhile (· ≠ [])).flatten := by
  have split : session.records.map SealedRecord.plaintext =
      (session.records.take recv.counter).map SealedRecord.plaintext ++
        (session.records.drop recv.counter).map SealedRecord.plaintext := by
    rw [← List.map_append, List.take_append_drop]
  have opened : ∀ text ∈ (session.records.take recv.counter).map SealedRecord.plaintext,
      decide (text ≠ []) = true := by
    intro text member
    obtain ⟨record, inside, rfl⟩ := List.mem_map.mp member
    exact decide_eq_true (tracks.nonempty record inside)
  rw [Session.beforeEof, split, List.takeWhile_append_of_pos opened, List.flatten_append,
    tracks.taken, List.flatMap_def]

/-- What was taken is the beginning of what the peer sealed before its end of
stream. -/
theorem taken_isPrefix (tracks : session.Tracks recv taken) : taken <+: session.beforeEof := by
  rw [tracks.beforeEof_eq]
  exact List.prefix_append _ _

/-- At an empty record, everything before it was taken. -/
theorem complete (tracks : session.Tracks recv taken) {record : SealedRecord}
    (found : session.records[recv.counter]? = some record) (empty : record.plaintext = []) :
    session.SealedEof ∧ taken = session.beforeEof := by
  obtain ⟨inside, isRecord⟩ := List.getElem?_eq_some_iff.mp found
  refine ⟨?_, ?_⟩
  · rw [SealedEof, ← empty, ← isRecord]
    exact List.mem_map_of_mem (List.getElem_mem inside)
  · rw [tracks.beforeEof_eq, List.drop_eq_getElem_cons inside, isRecord, List.map_cons, empty]
    simp

end Session.Tracks

end CofreSoberano.Transport

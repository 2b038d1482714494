import CofreSoberano.Transport.Parties

/-!
# Completion of the handshake

Two parties that trust each other's keys, with signers that honour their contract,
complete the handshake when each reads what the other one wrote, and return the
same keys.
-/

namespace CofreSoberano.Transport

open CofreSoberano.Std
open CofreSoberano.Audit (Hash PublicKey SignCall Signature publicKeyLen signatureLen verifySig)

/-- A frame on the wire, arriving in one piece. -/
def delivery (buf : List UInt8) : List Arrival :=
  pushBack (Cbor.bigEndian 4 buf.length ++ buf) []

/-- Bytes that have arrived are read at once. -/
theorem readExact_pushBack (bytes more : List UInt8) (rest : List Arrival) :
    readExact (pushBack (bytes ++ more) rest) bytes.length = .done bytes (pushBack more rest) := by
  cases bytes with
  | nil => simp [readExact]
  | cons first tail =>
      simp only [List.cons_append, pushBack, List.length_cons, readExact]
      split
      · simp
      · rename_i whole
        have nothing : more = [] := by
          rw [List.length_append, Nat.not_lt] at whole
          exact List.length_eq_zero_iff.mp (by omega)
        simp [nothing, readExact]

/-- A frame within the limits is read as it was written. -/
theorem readFrame_delivery {buf : List UInt8} {max : Nat} (fits : buf.length ≤ min max maxFrame) :
    readFrame (delivery buf) max = some ([], .ok buf) := by
  have number : buf.length < 256 ^ 4 := by
    simp only [maxFrame] at fits
    omega
  have header := readExact_pushBack (Cbor.bigEndian 4 buf.length) buf []
  rw [Cbor.bigEndian_length] at header
  have body := readExact_pushBack buf [] []
  rw [List.append_nil] at body
  simp only [readFrame, delivery, header, Cbor.ofBigEndian_bigEndian number, Nat.not_lt.mpr fits,
    if_false, body]
  rfl

/-- Two parties that trust each other and whose primitives answer. -/
structure Meeting (prims : Primitives) where
  client : IdentityKey
  server : IdentityKey
  clientPolicy : PeerPolicy
  serverPolicy : PeerPolicy
  keyCoins : Coins
  clientEnvironment : Environment
  serverEnvironment : Environment
  dk : DecapsKey
  exchange : Exchange
  serverSig : Signature
  clientSig : Signature
  clientWrites : clientEnvironment.write = none
  serverWrites : serverEnvironment.write = none
  clientTrusts : clientPolicy.accepts server.publicKey = true
  serverTrusts : serverPolicy.accepts client.publicKey = true
  suite : exchange.suite = suiteId
  generated : prims.kem.tryKeygen keyCoins = .ok (exchange.clientKemPk, dk)
  parsesEk : prims.kem.parseEk exchange.clientKemPk = .ok ()
  encapsulated : prims.kem.tryEncaps exchange.clientKemPk serverEnvironment.coins =
    .ok (exchange.shared, exchange.ct)
  parsesCt : prims.kem.parseCt exchange.ct = .ok ()
  serverSigns : serverEnvironment.sign (exchange.serverTranscript prims server.publicKey).1 =
    .ok serverSig
  serverVerifies : verifySig prims.crates server.publicKey
    (exchange.serverTranscript prims server.publicKey).1 serverSig 0 = .ok ()
  clientSigns : clientEnvironment.sign
    (exchange.transcript prims server.publicKey client.publicKey).1 = .ok clientSig
  clientVerifies : verifySig prims.crates client.publicKey
    (exchange.transcript prims server.publicKey client.publicKey).1 clientSig 0 = .ok ()

/-- An accepted signature has the length of one. -/
theorem length_of_verifySig {prims : Primitives} {pk : PublicKey}
    {msg : List UInt8} {sig : Signature} (verified : verifySig prims.crates pk msg sig 0 = .ok ()) :
    sig.bytes.length = signatureLen := by
  simp only [verifySig] at verified
  split at verified
  · cases verified
  · split at verified
    · cases verified
    · rename_i fits
      exact not_not.mp fits

/-- A policy that accepts a key is not empty. -/
theorem PeerPolicy.isEmpty_eq_false {policy : PeerPolicy} {pk : PublicKey}
    (trusted : policy.accepts pk = true) : policy.isEmpty = false := by
  have member := of_decide_eq_true trusted
  exact decide_eq_false fun empty => by simp [empty] at member

namespace Meeting

variable {prims : Primitives} (meeting : Meeting prims)

/-- The CLIENT_HELLO of the meeting. -/
def clientHello : List UInt8 :=
  msgClientHello :: (Cbor.bigEndian 2 suiteId.toNat ++ meeting.exchange.clientKemPk.1)

/-- The SERVER_HELLO of the meeting. -/
def serverHello : List UInt8 :=
  msgServerHello ::
    (meeting.exchange.ct.1 ++ meeting.server.publicKey.bytes ++ meeting.serverSig.bytes)

/-- The CLIENT_FINISH of the meeting. -/
def clientFinish : List UInt8 :=
  msgClientFinish :: (meeting.client.publicKey.bytes ++ meeting.clientSig.bytes)

theorem clientHello_length : meeting.clientHello.length = clientHelloLen := by
  simp [clientHello, clientHelloLen, meeting.exchange.clientKemPk.2]
  omega

theorem serverHello_length : meeting.serverHello.length = serverHelloLen := by
  simp [serverHello, serverHelloLen, meeting.exchange.ct.2, meeting.server.wellFormed,
    length_of_verifySig meeting.serverVerifies]
  omega

theorem clientFinish_length : meeting.clientFinish.length = clientFinishLen := by
  simp [clientFinish, clientFinishLen, meeting.client.wellFormed,
    length_of_verifySig meeting.clientVerifies]
  omega

theorem connectHello_eq : connectHello prims meeting.clientPolicy meeting.keyCoins =
    .ok ((meeting.exchange.clientKemPk, meeting.dk), meeting.clientHello) := by
  refine bind_eq_ok.mpr ⟨(), ensure_eq_ok.mpr ?_, ?_⟩
  · exact PeerPolicy.isEmpty_eq_false meeting.clientTrusts
  · exact bind_eq_ok.mpr ⟨_, mapError_eq_ok.mpr meeting.generated, rfl⟩

/-- The server reads the suite and the encapsulation key out of the CLIENT_HELLO. -/
theorem clientHello_fields :
    UInt16.ofNat (Cbor.ofBigEndian ((meeting.clientHello.drop 1).take 2) 0) = suiteId ∧
      meeting.clientHello.drop 3 = meeting.exchange.clientKemPk.1 := by
  have suiteBytes : (meeting.clientHello.drop 1).take 2 = Cbor.bigEndian 2 suiteId.toNat :=
    List.take_left' (Cbor.bigEndian_length 2 _)
  have kemPk : meeting.clientHello.drop 3 = meeting.exchange.clientKemPk.1 :=
    List.drop_left' (Cbor.bigEndian_length 2 _)
  rw [suiteBytes]
  exact ⟨by decide, kemPk⟩

/-- The client reads the ciphertext, the identity and the signature out of the
SERVER_HELLO. -/
theorem serverHello_fields : (meeting.serverHello.drop 1).take ctLen = meeting.exchange.ct.1 ∧
    (meeting.serverHello.drop (1 + ctLen)).take publicKeyLen = meeting.server.publicKey.bytes ∧
    meeting.serverHello.drop (1 + ctLen + publicKeyLen) = meeting.serverSig.bytes := by
  have afterType : meeting.serverHello.drop 1 = meeting.exchange.ct.1 ++
      (meeting.server.publicKey.bytes ++ meeting.serverSig.bytes) := List.append_assoc _ _ _
  have afterCt : meeting.serverHello.drop (1 + ctLen) =
      meeting.server.publicKey.bytes ++ meeting.serverSig.bytes := by
    rw [← List.drop_drop, afterType, List.drop_left' meeting.exchange.ct.2]
  refine ⟨?_, ?_, ?_⟩
  · rw [afterType, List.take_left' meeting.exchange.ct.2]
  · rw [afterCt, List.take_left' meeting.server.wellFormed]
  · rw [← List.drop_drop, afterCt, List.drop_left' meeting.server.wellFormed]

/-- The server reads the identity and the signature out of the CLIENT_FINISH. -/
theorem clientFinish_fields :
    (meeting.clientFinish.drop 1).take publicKeyLen = meeting.client.publicKey.bytes ∧
      meeting.clientFinish.drop (1 + publicKeyLen) = meeting.clientSig.bytes := by
  have afterType : meeting.clientFinish.drop 1 =
      meeting.client.publicKey.bytes ++ meeting.clientSig.bytes := rfl
  refine ⟨?_, ?_⟩
  · rw [afterType, List.take_left' meeting.client.wellFormed]
  · rw [← List.drop_drop, afterType, List.drop_left' meeting.client.wellFormed]

theorem acceptHello_eq :
    acceptHello prims meeting.server meeting.serverEnvironment meeting.clientHello =
      .ok (meeting.exchange, meeting.serverHello) := by
  obtain ⟨suite, kemPk⟩ := meeting.clientHello_fields
  refine bind_eq_ok.mpr ⟨(), ensure_eq_ok.mpr meeting.clientHello_length, ?_⟩
  refine bind_eq_ok.mpr ⟨(), ensure_eq_ok.mpr rfl, ?_⟩
  refine bind_eq_ok.mpr ⟨(), ensure_eq_ok.mpr suite, ?_⟩
  refine bind_eq_ok.mpr ⟨meeting.exchange.clientKemPk, tryInto_eq_ok.mpr kemPk.symm, ?_⟩
  refine bind_eq_ok.mpr ⟨(), mapError_eq_ok.mpr meeting.parsesEk, ?_⟩
  refine bind_eq_ok.mpr ⟨_, mapError_eq_ok.mpr meeting.encapsulated, ?_⟩
  have signs := meeting.serverSigns
  rw [Exchange.serverTranscript, Exchange.serverInput, meeting.suite] at signs
  rw [suite]
  refine bind_eq_ok.mpr ⟨meeting.serverSig, mapError_eq_ok.mpr signs, ?_⟩
  rw [← meeting.suite]
  rfl

theorem connectFinish_eq (correct : prims.kem.Correct) :
    connectFinish prims meeting.client meeting.clientPolicy
      (meeting.exchange.clientKemPk, meeting.dk)
        meeting.clientEnvironment meeting.serverHello =
      .ok (⟨meeting.exchange, meeting.server.publicKey⟩, meeting.clientFinish) := by
  obtain ⟨ct, serverId, serverSig⟩ := meeting.serverHello_fields
  have decoded : PublicKey.fromBytes meeting.server.publicKey.bytes =
      .ok meeting.server.publicKey :=
    Audit.PublicKey.fromBytes_eq_ok.mpr ⟨meeting.server.wellFormed, rfl⟩
  have signature : Signature.fromBytes meeting.serverSig.bytes = .ok meeting.serverSig :=
    Audit.Signature.fromBytes_eq_ok.mpr ⟨length_of_verifySig meeting.serverVerifies, rfl⟩
  have verifies := meeting.serverVerifies
  have signs := meeting.clientSigns
  rw [Exchange.serverTranscript, Exchange.serverInput, meeting.suite] at verifies
  rw [Exchange.transcript, Exchange.input, meeting.suite] at signs
  simp only [connectFinish, ct, serverId, serverSig]
  refine bind_eq_ok.mpr ⟨(), ensure_eq_ok.mpr meeting.serverHello_length, ?_⟩
  refine bind_eq_ok.mpr ⟨(), ensure_eq_ok.mpr rfl, ?_⟩
  refine bind_eq_ok.mpr ⟨_, mapError_eq_ok.mpr decoded, ?_⟩
  refine bind_eq_ok.mpr ⟨_, mapError_eq_ok.mpr signature, ?_⟩
  refine bind_eq_ok.mpr ⟨(), ensure_eq_ok.mpr meeting.clientTrusts, ?_⟩
  refine bind_eq_ok.mpr ⟨(), mapError_eq_ok.mpr verifies, ?_⟩
  refine bind_eq_ok.mpr ⟨meeting.exchange.ct, tryInto_eq_ok.mpr rfl, ?_⟩
  refine bind_eq_ok.mpr ⟨(), mapError_eq_ok.mpr meeting.parsesCt, ?_⟩
  refine bind_eq_ok.mpr
    ⟨_, mapError_eq_ok.mpr (correct meeting.generated meeting.encapsulated), ?_⟩
  refine bind_eq_ok.mpr ⟨meeting.clientSig, mapError_eq_ok.mpr signs, ?_⟩
  rw [← meeting.suite]
  rfl

theorem acceptFinish_eq :
    acceptFinish prims meeting.server meeting.serverPolicy meeting.exchange meeting.clientFinish =
      .ok (meeting.exchange.keys prims meeting.server.publicKey meeting.client.publicKey,
        meeting.client.publicKey) := by
  obtain ⟨clientId, clientSig⟩ := meeting.clientFinish_fields
  have decoded : PublicKey.fromBytes meeting.client.publicKey.bytes =
      .ok meeting.client.publicKey :=
    Audit.PublicKey.fromBytes_eq_ok.mpr ⟨meeting.client.wellFormed, rfl⟩
  have signature : Signature.fromBytes meeting.clientSig.bytes = .ok meeting.clientSig :=
    Audit.Signature.fromBytes_eq_ok.mpr ⟨length_of_verifySig meeting.clientVerifies, rfl⟩
  simp only [acceptFinish, clientId, clientSig]
  refine bind_eq_ok.mpr ⟨(), ensure_eq_ok.mpr meeting.clientFinish_length, ?_⟩
  refine bind_eq_ok.mpr ⟨(), ensure_eq_ok.mpr rfl, ?_⟩
  refine bind_eq_ok.mpr ⟨_, mapError_eq_ok.mpr decoded, ?_⟩
  refine bind_eq_ok.mpr ⟨_, mapError_eq_ok.mpr signature, ?_⟩
  refine bind_eq_ok.mpr ⟨(), ensure_eq_ok.mpr meeting.serverTrusts, ?_⟩
  exact bind_eq_ok.mpr ⟨(), mapError_eq_ok.mpr meeting.clientVerifies, rfl⟩

/-- The keys of the meeting. -/
def keys : DirectionalKeys :=
  meeting.exchange.keys prims meeting.server.publicKey meeting.client.publicKey

/-- The client while it awaits the SERVER_HELLO. -/
def greeting (inner : List Arrival) : ConnectRun where
  identity := meeting.client
  policy := meeting.clientPolicy
  inner := inner
  written := [meeting.clientHello]
  wrote := .ok ()
  ephemeral := some (meeting.exchange.clientKemPk, meeting.dk)
  answer := none
  result := none

/-- The client after it has returned. -/
def connected : ConnectRun where
  identity := meeting.client
  policy := meeting.clientPolicy
  inner := []
  written := [meeting.clientHello, meeting.clientFinish]
  wrote := .ok ()
  ephemeral := some (meeting.exchange.clientKemPk, meeting.dk)
  answer := some ⟨meeting.exchange, meeting.server.publicKey⟩
  result := some (.ok (.newClient [] meeting.keys meeting.server.publicKey))

/-- The server while it awaits the CLIENT_HELLO. -/
def listening (inner : List Arrival) : AcceptRun where
  identity := meeting.server
  policy := meeting.serverPolicy
  inner := inner
  written := []
  exchange := none
  result := none

/-- The server while it awaits the CLIENT_FINISH. -/
def offering (inner : List Arrival) : AcceptRun where
  identity := meeting.server
  policy := meeting.serverPolicy
  inner := inner
  written := [meeting.serverHello]
  exchange := some meeting.exchange
  result := none

/-- The server after it has returned. -/
def accepted : AcceptRun where
  identity := meeting.server
  policy := meeting.serverPolicy
  inner := []
  written := [meeting.serverHello]
  exchange := some meeting.exchange
  result := some (.ok (.newServer [] meeting.keys meeting.client.publicKey))

/-- What the server signs. -/
def serverSigning : Signing :=
  (meeting.server.publicKey, (meeting.exchange.serverTranscript prims meeting.server.publicKey).1)

/-- What the client signs. -/
def clientSigning : Signing :=
  (meeting.client.publicKey,
    (meeting.exchange.transcript prims meeting.server.publicKey meeting.client.publicKey).1)

theorem connect_begins :
    ConnectRun.begins prims meeting.client meeting.clientPolicy meeting.keyCoins none =
      meeting.greeting [] := by
  have fits : ¬ maxFrame < meeting.clientHello.length := by
    rw [meeting.clientHello_length]
    decide
  simp [ConnectRun.begins, meeting.connectHello_eq, writeFrame, fits, greeting]

theorem accept_begins :
    AcceptRun.begins meeting.server meeting.serverPolicy = meeting.listening [] := by
  simp [AcceptRun.begins, PeerPolicy.isEmpty_eq_false meeting.serverTrusts, listening]

theorem clientHello_read : readFrame (delivery meeting.clientHello) 4096 =
    some ([], .ok meeting.clientHello) := by
  apply readFrame_delivery
  rw [meeting.clientHello_length]
  decide

theorem serverHello_read : readFrame (delivery meeting.serverHello) (16 * 1024) =
    some ([], .ok meeting.serverHello) := by
  apply readFrame_delivery
  rw [meeting.serverHello_length]
  decide

theorem clientFinish_read : readFrame (delivery meeting.clientFinish) (16 * 1024) =
    some ([], .ok meeting.clientFinish) := by
  apply readFrame_delivery
  rw [meeting.clientFinish_length]
  decide

/-- The server answers the CLIENT_HELLO. -/
theorem listening_poll :
    (meeting.listening (delivery meeting.clientHello)).poll prims meeting.serverEnvironment =
      some (meeting.offering [], [meeting.serverSigning]) := by
  have fits : ¬ maxFrame < meeting.serverHello.length := by
    rw [meeting.serverHello_length]
    decide
  simp [AcceptRun.poll, AcceptRun.frame, AcceptRun.resume, listening, meeting.clientHello_read,
    meeting.acceptHello_eq, writeFrame, fits, meeting.serverWrites, offering, serverSigning]

/-- The client answers the SERVER_HELLO and returns. -/
theorem greeting_poll (correct : prims.kem.Correct) :
    (meeting.greeting (delivery meeting.serverHello)).poll prims meeting.clientEnvironment =
      some (meeting.connected, [meeting.clientSigning]) := by
  have fits : ¬ maxFrame < meeting.clientFinish.length := by
    rw [meeting.clientFinish_length]
    decide
  simp [ConnectRun.poll, ConnectRun.frame, ConnectRun.resume, greeting, meeting.serverHello_read,
    meeting.connectFinish_eq correct, writeFrame, fits, meeting.clientWrites, connected, keys,
    clientSigning]

/-- The server takes the CLIENT_FINISH and returns. -/
theorem offering_poll (environment : Environment) :
    (meeting.offering (delivery meeting.clientFinish)).poll prims environment =
      some (meeting.accepted, []) := by
  simp [AcceptRun.poll, AcceptRun.frame, AcceptRun.resume, offering, meeting.clientFinish_read,
    meeting.acceptFinish_eq, accepted, keys, Except.map]

end Meeting

/-- A client, a server, and what was signed. -/
def pair (prims : Primitives) (client : ConnectRun) (server : AcceptRun) (signed : List Signing) :
    Pool (handshakeRole prims) where
  runs := [.connecting client, .accepting server]
  log := signed

/-- Both parties after the meeting. -/
def Meeting.pool {prims : Primitives} (meeting : Meeting prims) : Pool (handshakeRole prims) :=
  pair prims meeting.connected meeting.accepted [meeting.serverSigning, meeting.clientSigning]

section

variable {prims : Primitives} {honest : PublicKey → Prop} {signed : List Signing} {party : Party}
  {inner : List Arrival} {frame : List UInt8} {environment : Environment}

/-- A signature is that of one signing only, as far as honest keys go. -/
def Binds (prims : Primitives) (honest : PublicKey → Prop) (sig : Signature) (signing : Signing) :
    Prop :=
  ∀ pk msg, honest pk → verifySig prims.crates pk msg sig 0 = .ok () → (pk, msg) = signing

/-- A frame that is too short for a signature holds no forged one. -/
theorem unforgeable_of_short (read : party.frame = some (inner, .ok frame))
    (short : frame.length < signatureLen) :
    Unforgeable prims honest signed party (.poll environment) := by
  intro otherInner other otherRead pk msg sig _ isSuffix verified
  rw [read] at otherRead
  cases otherRead
  have bound := isSuffix.length_le
  rw [length_of_verifySig verified] at bound
  omega

/-- A frame that ends with a signature of the log holds no forged one. -/
theorem unforgeable_of_binds (read : party.frame = some (inner, .ok frame)) {sig : Signature}
    {signing : Signing} (last : sig.bytes <:+ frame) (length : sig.bytes.length = signatureLen)
    (binds : Binds prims honest sig signing) (member : signing ∈ signed) :
    Unforgeable prims honest signed party (.poll environment) := by
  intro otherInner other otherRead pk msg found isHonest isSuffix verified
  rw [read] at otherRead
  cases otherRead
  have lengths := (length_of_verifySig verified).trans length.symm
  have sameBytes : found.bytes = sig.bytes :=
    (List.suffix_of_suffix_length_le isSuffix last (Nat.le_of_eq lengths)).eq_of_length lengths
  obtain ⟨foundBytes⟩ := found
  cases sameBytes
  rw [binds pk msg isHonest verified]
  exact member

/-- The runs of a pool against the attacker. -/
abbrev Attacked (prims : Primitives) (honest : PublicKey → Prop) :
    Pool (handshakeRole prims) → List (PoolMove (handshakeRole prims)) →
      Pool (handshakeRole prims) → Prop :=
  (handshakeRole prims).machine.Runs ((handshakeRole prims).admits (Unforgeable prims honest))

/-- The server of a pair reads a frame that arrives. -/
theorem attacked_server {client : ConnectRun} {server next : AcceptRun} {arrivals : List Arrival}
    {entries : List Signing} (polled : { server with inner := server.inner ++ arrivals }.poll prims
      environment = some (next, entries))
    (unforged : Unforgeable prims honest signed
      (.accepting { server with inner := server.inner ++ arrivals }) (.poll environment)) :
    Attacked prims honest (pair prims client server signed)
      [.turn 1 (.arrive arrivals), .turn 1 (.poll environment)]
      (pair prims client next (signed ++ entries)) := by
  have arrived : (pair prims client server signed).step (.turn 1 (.arrive arrivals)) =
      some (pair prims client { server with inner := server.inner ++ arrivals } (signed ++ [])) :=
    Pool.step_turn rfl rfl
  rw [List.append_nil] at arrived
  have turned : Party.turn prims (.accepting { server with inner := server.inner ++ arrivals })
      (.poll environment) = some (.accepting next, entries) := by
    simp [Party.turn, polled]
  refine .cons (fun _ _ => trivial) arrived (.cons ?_ (Pool.step_turn rfl turned) .nil)
  intro run found
  cases found
  exact unforged

/-- The client of a pair reads a frame that arrives. -/
theorem attacked_client {client next : ConnectRun} {server : AcceptRun} {arrivals : List Arrival}
    {entries : List Signing} (polled : { client with inner := client.inner ++ arrivals }.poll prims
      environment = some (next, entries))
    (unforged : Unforgeable prims honest signed
      (.connecting { client with inner := client.inner ++ arrivals }) (.poll environment)) :
    Attacked prims honest (pair prims client server signed)
      [.turn 0 (.arrive arrivals), .turn 0 (.poll environment)]
      (pair prims next server (signed ++ entries)) := by
  have arrived : (pair prims client server signed).step (.turn 0 (.arrive arrivals)) =
      some (pair prims { client with inner := client.inner ++ arrivals } server (signed ++ [])) :=
    Pool.step_turn rfl rfl
  rw [List.append_nil] at arrived
  have turned : Party.turn prims (.connecting { client with inner := client.inner ++ arrivals })
      (.poll environment) = some (.connecting next, entries) := by
    simp [Party.turn, polled]
  refine .cons (fun _ _ => trivial) arrived (.cons ?_ (Pool.step_turn rfl turned) .nil)
  intro run found
  cases found
  exact unforged

/-- The meeting is a run against the attacker, who in this one forwards every frame. -/
theorem Meeting.reachable (meeting : Meeting prims) (honest : PublicKey → Prop)
    (correct : prims.kem.Correct)
    (serverBinds : Binds prims honest meeting.serverSig meeting.serverSigning)
    (clientBinds : Binds prims honest meeting.clientSig meeting.clientSigning) :
    (handshakeRole prims).machine.Reachable
      ((handshakeRole prims).admits (Unforgeable prims honest)) meeting.pool := by
  have begun : Attacked prims honest ⟨[], []⟩
      [.begins (.connect meeting.client meeting.clientPolicy meeting.keyCoins none),
        .begins (.accept meeting.server meeting.serverPolicy)]
      (pair prims (meeting.greeting []) (meeting.listening []) []) := by
    rw [← meeting.connect_begins, ← meeting.accept_begins]
    exact .cons trivial rfl (.cons trivial rfl .nil)
  have offered : Attacked prims honest
      (pair prims (meeting.greeting []) (meeting.listening []) [])
      [.turn 1 (.arrive (delivery meeting.clientHello)), .turn 1 (.poll meeting.serverEnvironment)]
      (pair prims (meeting.greeting []) (meeting.offering []) [meeting.serverSigning]) := by
    refine attacked_server meeting.listening_poll ?_
    refine unforgeable_of_short meeting.clientHello_read ?_
    rw [meeting.clientHello_length]
    decide
  have answered : Attacked prims honest
      (pair prims (meeting.greeting []) (meeting.offering []) [meeting.serverSigning])
      [.turn 0 (.arrive (delivery meeting.serverHello)), .turn 0 (.poll meeting.clientEnvironment)]
      (pair prims meeting.connected (meeting.offering [])
        [meeting.serverSigning, meeting.clientSigning]) := by
    refine attacked_client (meeting.greeting_poll correct) ?_
    refine unforgeable_of_binds meeting.serverHello_read ?_
      (length_of_verifySig meeting.serverVerifies) serverBinds (List.mem_singleton_self _)
    rw [← meeting.serverHello_fields.2.2]
    exact List.drop_suffix _ _
  have finished : Attacked prims honest
      (pair prims meeting.connected (meeting.offering [])
        [meeting.serverSigning, meeting.clientSigning])
      [.turn 1 (.arrive (delivery meeting.clientFinish)), .turn 1 (.poll meeting.serverEnvironment)]
      meeting.pool := by
    refine attacked_server (meeting.offering_poll meeting.serverEnvironment) ?_
    refine unforgeable_of_binds meeting.clientFinish_read ?_
      (length_of_verifySig meeting.clientVerifies) clientBinds (by simp)
    rw [← meeting.clientFinish_fields.2]
    exact List.drop_suffix _ _
  exact ⟨_, _, rfl, ((begun.trans offered).trans answered).trans finished⟩

end

/-! ## A meeting with transparent primitives -/

/-- Bytes cut or filled up to a length. -/
def padded (count : Nat) (bytes : List UInt8) : Octets count :=
  ⟨(bytes ++ List.replicate count 0).take count, by simp⟩

/-- A transparent KEM: the ciphertext shows the secret. -/
def plainKem : Kem where
  tryKeygen coins := .ok (padded ekLen coins, padded dkLen coins)
  parseEk _ := .ok ()
  tryEncaps _ coins := .ok (padded 32 coins, padded ctLen (padded 32 coins).1)
  parseCt _ := .ok ()
  tryDecaps _ ct := .ok ⟨ct.1.take 32, by rw [List.length_take, ct.2]; rfl⟩

theorem plainKem_correct : plainKem.Correct := by
  intro keyCoins coins ek dk shared ct generated encapsulated
  cases encapsulated
  have shown : (padded ctLen (padded 32 coins).1).1.take 32 = (padded 32 coins).1 := by
    conv_lhs => rw [padded]
    rw [List.take_take, Nat.min_eq_left (by decide), List.take_left' (padded 32 coins).2]
  exact congrArg Except.ok (Subtype.ext shown)

/-- Transparent primitives: a hash that tells lengths apart, signatures that show the
key and the message, and keys that show the secret and the transcript. -/
def plainPrimitives : Primitives where
  crates :=
    { blake3 := fun input => ⟨Cbor.bigEndian 32 input.length, Cbor.bigEndian_length _ _⟩
      mlDsaDecodes := fun _ => .ok ()
      mlDsaVerify := fun pk msg sig _ => decide (sig.take publicKeyLen = pk ∧
        (Cbor.bytes.decode (sig.drop publicKeyLen)).map Prod.fst = some msg) }
  kem := plainKem
  hkdf _ shared hash := ⟨shared.1 ++ hash.1, by rw [List.length_append, shared.2, hash.2]⟩

theorem plainPrimitives_blake3 (input : List UInt8) :
    (plainPrimitives.crates.blake3 input).1 = Cbor.bigEndian 32 input.length := rfl

/-- The signature that shows a key and a message. -/
def plainSignature (identity : IdentityKey) (msg : List UInt8) : Signature :=
  let framed := Cbor.bytes.encode msg
  ⟨identity.publicKey.bytes ++
    (framed ++ List.replicate (signatureLen - publicKeyLen - framed.length) 0)⟩

/-- A signer of the transparent primitives. -/
def plainSigner (identity : IdentityKey) : SignCall := fun msg => .ok (plainSignature identity msg)

theorem verifySig_plainSignature (identity : IdentityKey) (hash : Hash) :
    verifySig plainPrimitives.crates identity.publicKey hash.1 (plainSignature identity hash.1) 0 =
      .ok () := by
  have framed : (Cbor.bytes.encode hash.1).length = 34 := by
    simp [Cbor.bytes, WireFormat.list, WireFormat.byte, hash.2]
    decide
  have length : (plainSignature identity hash.1).bytes.length = signatureLen := by
    simp only [plainSignature, List.length_append, List.length_replicate,
      identity.wellFormed, framed]
    decide
  have verified : plainPrimitives.crates.mlDsaVerify identity.publicKey.bytes hash.1
      (plainSignature identity hash.1).bytes Audit.sigContext = true := by
    simp only [plainPrimitives, plainSignature, decide_eq_true_eq]
    rw [List.take_left' identity.wellFormed, List.drop_left' identity.wellFormed,
      Cbor.bytes.decode_encode]
    exact ⟨rfl, rfl⟩
  have decodes : plainPrimitives.crates.mlDsaDecodes identity.publicKey.bytes = .ok () := rfl
  simp [verifySig, identity.wellFormed, length, decodes, verified]

/-- A transparent signature is that of one key and one message. -/
theorem binds_of_verifySig {honest : PublicKey → Prop} {pk : PublicKey} {msg : List UInt8}
    {sig : Signature} (verified : verifySig plainPrimitives.crates pk msg sig 0 = .ok ()) :
    Binds plainPrimitives honest sig (pk, msg) := by
  intro otherPk otherMsg _ otherVerified
  obtain ⟨isKey, isMsg⟩ := of_decide_eq_true (Audit.mlDsaVerify_of_verifySig verified)
  obtain ⟨isOtherKey, isOtherMsg⟩ :=
    of_decide_eq_true (Audit.mlDsaVerify_of_verifySig otherVerified)
  have sameKey : otherPk = pk := PublicKey.ext (isOtherKey.symm.trans isKey)
  rw [sameKey, Option.some.inj (isOtherMsg.symm.trans isMsg)]

/-- An identity whose key consists of one repeated byte. -/
def plainIdentity (byte : UInt8) : IdentityKey where
  publicKey := ⟨List.replicate publicKeyLen byte⟩
  wellFormed := List.length_replicate

/-- The exchange of a meeting with transparent primitives. -/
def plainExchange : Exchange where
  suite := suiteId
  clientKemPk := padded ekLen [1]
  ct := padded ctLen (padded 32 [2]).1
  shared := padded 32 [2]

/-- A client and a server that trust exactly each other. -/
def plainMeeting : Meeting plainPrimitives where
  client := plainIdentity 1
  server := plainIdentity 2
  clientPolicy := .single (plainIdentity 2).publicKey
  serverPolicy := .single (plainIdentity 1).publicKey
  keyCoins := [1]
  clientEnvironment := { coins := [], sign := plainSigner (plainIdentity 1), write := none }
  serverEnvironment := { coins := [2], sign := plainSigner (plainIdentity 2), write := none }
  dk := padded dkLen [1]
  exchange := plainExchange
  serverSig := plainSignature (plainIdentity 2)
    (plainExchange.serverTranscript plainPrimitives (plainIdentity 2).publicKey).1
  clientSig := plainSignature (plainIdentity 1) (plainExchange.transcript plainPrimitives
    (plainIdentity 2).publicKey (plainIdentity 1).publicKey).1
  clientWrites := rfl
  serverWrites := rfl
  clientTrusts := by simp [PeerPolicy.single, PeerPolicy.fromKeys, PeerPolicy.accepts]
  serverTrusts := by simp [PeerPolicy.single, PeerPolicy.fromKeys, PeerPolicy.accepts]
  suite := rfl
  generated := rfl
  parsesEk := rfl
  encapsulated := rfl
  parsesCt := rfl
  serverSigns := rfl
  serverVerifies := verifySig_plainSignature _ _
  clientSigns := rfl
  clientVerifies := verifySig_plainSignature _ _

end CofreSoberano.Transport

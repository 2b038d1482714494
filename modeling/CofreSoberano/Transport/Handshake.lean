import Mathlib.Data.Finset.Dedup
import Mathlib.Data.Finset.Empty
import CofreSoberano.Audit.Log
import CofreSoberano.Transport.Reader

/-!
# The CSPQ handshake

`accept` and `connect`, cut where they await a frame. Between two awaits the code
is a function of the frame that was read, of the identity and the policy, and of
what its environment answers: the random coins, the signer and the outcome of a
write.
-/

namespace CofreSoberano.Transport

open CofreSoberano.Std
open CofreSoberano.Audit (Crates Hash PublicKey SignCall Signature publicKeyLen
    signatureLen verifySig)

/-- `SUITE_ID`. -/
def suiteId : UInt16 := 0x0001

/-- `MSG_CLIENT_HELLO`. -/
def msgClientHello : UInt8 := 1

/-- `MSG_SERVER_HELLO`. -/
def msgServerHello : UInt8 := 2

/-- `MSG_CLIENT_FINISH`. -/
def msgClientFinish : UInt8 := 3

/-- `ml_kem_1024::EK_LEN`. -/
def ekLen : Nat := 1568

/-- `ml_kem_1024::DK_LEN`. -/
def dkLen : Nat := 3168

/-- `ml_kem_1024::CT_LEN`. -/
def ctLen : Nat := 1568

/-- An ML-KEM-1024 encapsulation key. -/
abbrev EncapsKey := Octets ekLen

/-- An ML-KEM-1024 decapsulation key. -/
abbrev DecapsKey := Octets dkLen

/-- An ML-KEM-1024 ciphertext. -/
abbrev CipherText := Octets ctLen

/-- An ML-KEM-1024 shared secret. -/
abbrev SharedSecret := Octets 32

/-- Random bytes of the operating system, as one call draws them. -/
abbrev Coins := List UInt8

/-- The `fips203` crate. -/
structure Kem where
  /-- `KG::try_keygen`. -/
  tryKeygen : Coins → Except String (EncapsKey × DecapsKey)
  /-- `EncapsKey::try_from_bytes`. -/
  parseEk : EncapsKey → Except String Unit
  /-- `try_encaps`. -/
  tryEncaps : EncapsKey → Coins → Except String (SharedSecret × CipherText)
  /-- `CipherText::try_from_bytes`. -/
  parseCt : CipherText → Except String Unit
  /-- `try_decaps`. -/
  tryDecaps : DecapsKey → CipherText → Except String SharedSecret

/-- Decapsulation recovers what was encapsulated to the key of the same pair. -/
def Kem.Correct (kem : Kem) : Prop :=
  ∀ {keyCoins coins ek dk shared ct}, kem.tryKeygen keyCoins = .ok (ek, dk) →
    kem.tryEncaps ek coins = .ok (shared, ct) → kem.tryDecaps dk ct = .ok shared

/-- The primitives of other crates that the handshake uses. -/
structure Primitives where
  crates : Crates
  kem : Kem
  /-- HKDF-SHA3-256 of a salt, a secret and an info text, expanded to 64 bytes. -/
  hkdf : List UInt8 → SharedSecret → Hash → Octets 64

/-- An identity. Its public key comes from `generate` or from `PublicKey::from_bytes`,
which leave no other length. -/
structure IdentityKey where
  publicKey : PublicKey
  wellFormed : publicKey.bytes.length = publicKeyLen

/-- Peer trust policy: the public keys that are accepted. -/
structure PeerPolicy where
  allowed : Finset (List UInt8)

namespace PeerPolicy

/-- `PeerPolicy::from_keys`. -/
def fromKeys (keys : List PublicKey) : PeerPolicy := ⟨(keys.map PublicKey.bytes).toFinset⟩

/-- `PeerPolicy::single`. -/
def single (pk : PublicKey) : PeerPolicy := fromKeys [pk]

/-- `PeerPolicy::accepts`. -/
def accepts (policy : PeerPolicy) (pk : PublicKey) : Bool := decide (pk.bytes ∈ policy.allowed)

/-- `PeerPolicy::is_empty`. -/
def isEmpty (policy : PeerPolicy) : Bool := decide (policy.allowed = ∅)

end PeerPolicy

/-- The keys of the two directions. -/
structure DirectionalKeys where
  keyC2s : Key
  keyS2c : Key
deriving DecidableEq

/-- A session after its handshake. Its write state is that of a stream on which
nothing was written. -/
structure CspqStream where
  inner : List Arrival
  send : DirectionState
  recv : DirectionState
  peerId : PublicKey
  readState : ReadState
deriving DecidableEq

namespace CspqStream

/-- `CspqStream::new_client`. -/
def newClient (inner : List Arrival) (keys : DirectionalKeys) (peerId : PublicKey) :
    CspqStream where
  inner := inner
  send := .new keys.keyC2s dirC2s
  recv := .new keys.keyS2c dirS2c
  peerId := peerId
  readState := .idle

/-- `CspqStream::new_server`. -/
def newServer (inner : List Arrival) (keys : DirectionalKeys) (peerId : PublicKey) :
    CspqStream where
  inner := inner
  send := .new keys.keyS2c dirS2c
  recv := .new keys.keyC2s dirC2s
  peerId := peerId
  readState := .idle

end CspqStream

/-- What the server hashes for the transcript that it signs. -/
def serverInput (suite : UInt16) (clientKemPk ct serverId : List UInt8) : List UInt8 :=
  Cbor.bigEndian 2 suite.toNat ++ clientKemPk ++ ct ++ serverId

/-- What `transcript` hashes. -/
def transcriptInput (suite : UInt16) (clientKemPk ct serverId clientId : List UInt8) : List UInt8 :=
  serverInput suite clientKemPk ct serverId ++ clientId

/-- `transcript`. -/
def transcript (prims : Primitives) (suite : UInt16)
    (clientKemPk ct serverId clientId : List UInt8) : Hash :=
  prims.crates.blake3 (transcriptInput suite clientKemPk ct serverId clientId)

/-- The salt of the key schedule. -/
def keySalt : List UInt8 := Cbor.utf8 "cspq-transport-v1"

/-- `derive_keys`. -/
def deriveKeys (prims : Primitives) (shared : SharedSecret) (transcript : Hash) : DirectionalKeys :=
  let keys := prims.hkdf keySalt shared transcript
  { keyC2s := ⟨keys.1.take 32, by rw [List.length_take, keys.2]; rfl⟩
    keyS2c := ⟨keys.1.drop 32, by rw [List.length_drop, keys.2]⟩ }

/-- What the two sides of a handshake exchange before they are authenticated, with
the secret that one of them encapsulates and the other one recovers. -/
@[ext] structure Exchange where
  suite : UInt16
  clientKemPk : EncapsKey
  ct : CipherText
  shared : SharedSecret
deriving DecidableEq

namespace Exchange

variable (prims : Primitives) (exchange : Exchange) (serverId clientId : PublicKey)

/-- What a server of this identity hashes. -/
def serverInput : List UInt8 :=
  Transport.serverInput exchange.suite exchange.clientKemPk.1 exchange.ct.1 serverId.bytes

/-- What the two identities hash for the transcript of both. -/
def input : List UInt8 :=
  transcriptInput exchange.suite exchange.clientKemPk.1 exchange.ct.1 serverId.bytes clientId.bytes

/-- The transcript that the server signs. -/
def serverTranscript : Hash := prims.crates.blake3 (exchange.serverInput serverId)

/-- The transcript that the client signs and the keys are bound to. -/
def transcript : Hash := prims.crates.blake3 (exchange.input serverId clientId)

/-- The keys that `derive_keys` gives for the exchange. -/
def keys : DirectionalKeys :=
  deriveKeys prims exchange.shared (exchange.transcript prims serverId clientId)

end Exchange

/-- What the environment answers while the code runs up to its next await. -/
structure Environment where
  coins : Coins
  sign : SignCall
  /-- The failure of a write, if it fails. The frame may have been sent even so. -/
  write : Option IoError

/-- `write_frame`, with the outcome of the writes below it. -/
def writeFrame (buf : List UInt8) (failure : Option IoError) : Except Error Unit :=
  if maxFrame < buf.length then .error (.frameTooLarge buf.length maxFrame)
  else match failure with
  | some error => .error (.io error)
  | none => .ok ()

/-- A conversion of a slice into an array. -/
def tryInto (count : Nat) (bytes : List UInt8) (failure : Error) : Except Error (Octets count) :=
  if fits : bytes.length = count then .ok ⟨bytes, fits⟩ else .error failure

theorem tryInto_eq_ok {count : Nat} {bytes : List UInt8} {failure : Error} {octets : Octets count} :
    tryInto count bytes failure = .ok octets ↔ octets.1 = bytes := by
  obtain ⟨stored, rfl⟩ := octets
  by_cases fits : bytes.length = stored.length
  · simp [tryInto, fits, Subtype.ext_iff, eq_comm]
  · refine ⟨fun converted => by simp [tryInto, fits] at converted, fun same => ?_⟩
    exact absurd (congrArg List.length same).symm fits

/-- `Error::from` of the errors of the audit core. -/
def Error.ofAudit (error : Audit.Error) : Error := .mlDsa error.display

/-- The length of a CLIENT_HELLO. -/
def clientHelloLen : Nat := 1 + 2 + ekLen

/-- The length of a SERVER_HELLO. -/
def serverHelloLen : Nat := 1 + ctLen + publicKeyLen + signatureLen

/-- The length of a CLIENT_FINISH. -/
def clientFinishLen : Nat := 1 + publicKeyLen + signatureLen

/-- `accept` from a CLIENT_HELLO to its SERVER_HELLO. -/
def acceptHello (prims : Primitives) (identity : IdentityKey) (environment : Environment)
    (ch : List UInt8) : Except Error (Exchange × List UInt8) := do
  ensure (ch.length = clientHelloLen)
    (.protocol s!"CLIENT_HELLO size {ch.length} (expected {clientHelloLen})")
  let msgType := ch.headD 0
  ensure (msgType = msgClientHello) (.protocol s!"bad msg_type {msgType}")
  let suite := UInt16.ofNat (Cbor.ofBigEndian ((ch.drop 1).take 2) 0)
  ensure (suite = suiteId) (.unsupportedSuite suite)
  let clientKemPk ← tryInto ekLen (ch.drop 3) (.protocol "CLIENT_HELLO KEM size mismatch")
  (prims.kem.parseEk clientKemPk).mapError fun e => .crypto s!"ML-KEM-1024 EK parse: {e}"
  let (shared, ct) ← (prims.kem.tryEncaps clientKemPk environment.coins).mapError
    fun e => .crypto s!"ML-KEM-1024 encaps: {e}"
  let serverTranscript := prims.crates.blake3
    (serverInput suite clientKemPk.1 ct.1 identity.publicKey.bytes)
  let serverSig ← (environment.sign serverTranscript.1).mapError Error.ofAudit
  return ({ suite, clientKemPk, ct, shared },
    msgServerHello :: (ct.1 ++ identity.publicKey.bytes ++ serverSig.bytes))

/-- `accept` from a CLIENT_FINISH to its end: the keys and the client's identity. -/
def acceptFinish (prims : Primitives) (identity : IdentityKey) (policy : PeerPolicy)
    (exchange : Exchange) (cf : List UInt8) : Except Error (DirectionalKeys × PublicKey) := do
  ensure (cf.length = clientFinishLen)
    (.protocol s!"CLIENT_FINISH size {cf.length} (expected {clientFinishLen})")
  let msgType := cf.headD 0
  ensure (msgType = msgClientFinish) (.protocol s!"bad msg_type {msgType} in CLIENT_FINISH")
  let clientIdBytes := (cf.drop 1).take publicKeyLen
  let clientId ← (PublicKey.fromBytes clientIdBytes).mapError Error.ofAudit
  let clientSig ← (Signature.fromBytes (cf.drop (1 + publicKeyLen))).mapError Error.ofAudit
  ensure (policy.accepts clientId = true) (.untrustedPeer (hexEncode (clientIdBytes.take 16)))
  let finalTranscript := transcript prims exchange.suite exchange.clientKemPk.1 exchange.ct.1
    identity.publicKey.bytes clientIdBytes
  (verifySig prims.crates clientId finalTranscript.1 clientSig 0).mapError
    fun _ => .crypto "client signature verify failed"
  return (deriveKeys prims exchange.shared finalTranscript, clientId)

/-- `connect` up to its CLIENT_HELLO. -/
def connectHello (prims : Primitives) (policy : PeerPolicy) (coins : Coins) :
    Except Error ((EncapsKey × DecapsKey) × List UInt8) := do
  ensure (policy.isEmpty = false)
    (.protocol "client server_policy is empty; refusing to dial any server")
  let (ek, dk) ← (prims.kem.tryKeygen coins).mapError fun e => .crypto s!"ML-KEM-1024 keygen: {e}"
  return ((ek, dk), msgClientHello :: (Cbor.bigEndian 2 suiteId.toNat ++ ek.1))

/-- The server that a client has verified, and their exchange. -/
structure Answer where
  exchange : Exchange
  serverId : PublicKey
deriving DecidableEq

/-- `connect` from a SERVER_HELLO to its CLIENT_FINISH. -/
def connectFinish (prims : Primitives) (identity : IdentityKey) (policy : PeerPolicy)
    (ephemeral : EncapsKey × DecapsKey) (environment : Environment) (sh : List UInt8) :
    Except Error (Answer × List UInt8) := do
  ensure (sh.length = serverHelloLen)
    (.protocol s!"SERVER_HELLO size {sh.length} (expected {serverHelloLen})")
  let msgType := sh.headD 0
  ensure (msgType = msgServerHello) (.protocol s!"bad msg_type {msgType} in SERVER_HELLO")
  let ctBytes := (sh.drop 1).take ctLen
  let serverIdBytes := (sh.drop (1 + ctLen)).take publicKeyLen
  let serverId ← (PublicKey.fromBytes serverIdBytes).mapError Error.ofAudit
  let serverSig ← (Signature.fromBytes (sh.drop (1 + ctLen + publicKeyLen))).mapError
      Error.ofAudit
  ensure (policy.accepts serverId = true) (.untrustedPeer (hexEncode (serverIdBytes.take 16)))
  let serverTranscript := prims.crates.blake3
    (serverInput suiteId ephemeral.1.1 ctBytes serverIdBytes)
  (verifySig prims.crates serverId serverTranscript.1 serverSig 0).mapError
    fun _ => .crypto "server signature verify failed"
  let ct ← tryInto ctLen ctBytes (.protocol "ciphertext size mismatch")
  (prims.kem.parseCt ct).mapError fun e => .crypto s!"ML-KEM-1024 CT parse: {e}"
  let shared ← (prims.kem.tryDecaps ephemeral.2 ct).mapError
    fun e => .crypto s!"ML-KEM-1024 decaps: {e}"
  let finalTranscript := transcript prims suiteId ephemeral.1.1 ctBytes serverIdBytes
    identity.publicKey.bytes
  let clientSig ← (environment.sign finalTranscript.1).mapError Error.ofAudit
  return (⟨{ suite := suiteId, clientKemPk := ephemeral.1, ct, shared }, serverId⟩,
    msgClientFinish :: (identity.publicKey.bytes ++ clientSig.bytes))

/-! ## Transcripts determine what they are transcripts of -/

namespace Exchange

variable {left right : Exchange} {leftServer rightServer leftClient rightClient : PublicKey}

/-- Suite, encapsulation key and ciphertext have a fixed length in front of the
identities. -/
theorem serverInput_inj (same : left.serverInput leftServer = right.serverInput rightServer) :
    left.suite = right.suite ∧ left.clientKemPk = right.clientKemPk ∧ left.ct = right.ct ∧
      leftServer = rightServer := by
  simp only [serverInput, Transport.serverInput, List.append_assoc] at same
  obtain ⟨sameSuite, same⟩ := List.append_inj same (by simp)
  obtain ⟨sameKemPk, same⟩ :=
    List.append_inj same (left.clientKemPk.2.trans right.clientKemPk.2.symm)
  obtain ⟨sameCt, same⟩ := List.append_inj same (left.ct.2.trans right.ct.2.symm)
  refine ⟨UInt16.toNat.inj ?_, Subtype.ext sameKemPk, Subtype.ext sameCt, PublicKey.ext same⟩
  have number := congrArg (Cbor.ofBigEndian · 0) sameSuite
  rwa [Cbor.ofBigEndian_bigEndian left.suite.toNat_lt,
    Cbor.ofBigEndian_bigEndian right.suite.toNat_lt] at number

/-- The transcript of both identities is that of the server and the client. -/
theorem input_eq (exchange : Exchange) (serverId clientId : PublicKey) :
    exchange.input serverId clientId = exchange.serverInput serverId ++ clientId.bytes := rfl

theorem serverInput_length (exchange : Exchange) (serverId : PublicKey) :
    (exchange.serverInput serverId).length = 2 + ekLen + ctLen + serverId.bytes.length := by
  simp only [serverInput, Transport.serverInput, List.length_append, Cbor.bigEndian_length,
    exchange.clientKemPk.2, exchange.ct.2]

theorem input_inj (leftFormed : leftServer.bytes.length = publicKeyLen)
    (rightFormed : rightServer.bytes.length = publicKeyLen)
    (same : left.input leftServer leftClient = right.input rightServer rightClient) :
    left.suite = right.suite ∧ left.clientKemPk = right.clientKemPk ∧ left.ct = right.ct ∧
      leftServer = rightServer ∧ leftClient = rightClient := by
  rw [input_eq, input_eq] at same
  have lengths : (left.serverInput leftServer).length = (right.serverInput rightServer).length := by
    rw [serverInput_length, serverInput_length, leftFormed, rightFormed]
  obtain ⟨sameServer, sameClient⟩ := List.append_inj same lengths
  obtain ⟨suite, kemPk, ct, server⟩ := serverInput_inj sameServer
  exact ⟨suite, kemPk, ct, server, PublicKey.ext sameClient⟩

/-- What a server signs is never what a client signs. -/
theorem serverInput_ne_input (leftFormed : leftServer.bytes.length = publicKeyLen)
    (rightFormed : rightServer.bytes.length = publicKeyLen)
    (clientFormed : rightClient.bytes.length = publicKeyLen) :
    left.serverInput leftServer ≠ right.input rightServer rightClient := by
  intro same
  have lengths := congrArg List.length same
  rw [input_eq, List.length_append, serverInput_length, serverInput_length, leftFormed, rightFormed,
    clientFormed] at lengths
  simp only [publicKeyLen] at lengths
  omega

end Exchange

/-- The two keys are the whole output of the key schedule. -/
theorem hkdf_eq_of_deriveKeys_eq {prims : Primitives} {leftSecret rightSecret : SharedSecret}
    {leftHash rightHash : Hash}
    (same : deriveKeys prims leftSecret leftHash = deriveKeys prims rightSecret rightHash) :
    prims.hkdf keySalt leftSecret leftHash = prims.hkdf keySalt rightSecret rightHash := by
  simp only [deriveKeys, DirectionalKeys.mk.injEq, Subtype.mk.injEq] at same
  apply Subtype.ext
  rw [← List.take_append_drop 32 (prims.hkdf keySalt leftSecret leftHash).1, same.1, same.2,
    List.take_append_drop]

/-! ## What the parts of the handshake have checked when they succeed -/

section

variable {prims : Primitives} {identity : IdentityKey} {policy : PeerPolicy}
  {environment : Environment}

/-- A server that answers has encapsulated to the client's key and signed its
transcript of the exchange. -/
theorem acceptHello_eq_ok {ch sh : List UInt8} {exchange : Exchange}
    (accepted : acceptHello prims identity environment ch = .ok (exchange, sh)) :
    exchange.suite = suiteId ∧
      prims.kem.tryEncaps exchange.clientKemPk environment.coins =
      .ok (exchange.shared, exchange.ct) ∧
      ∃ sig, environment.sign (exchange.serverTranscript prims identity.publicKey).1 =
        .ok sig := by
  obtain ⟨_, _, accepted⟩ := bind_eq_ok.mp accepted
  obtain ⟨_, _, accepted⟩ := bind_eq_ok.mp accepted
  obtain ⟨_, sameSuite, accepted⟩ := bind_eq_ok.mp accepted
  obtain ⟨clientKemPk, _, accepted⟩ := bind_eq_ok.mp accepted
  obtain ⟨_, _, accepted⟩ := bind_eq_ok.mp accepted
  obtain ⟨⟨shared, ct⟩, encapsulated, accepted⟩ := bind_eq_ok.mp accepted
  obtain ⟨sig, signed, accepted⟩ := bind_eq_ok.mp accepted
  cases accepted
  exact ⟨ensure_eq_ok.mp sameSuite, mapError_eq_ok.mp encapsulated, sig,
    mapError_eq_ok.mp signed⟩

/-- A server that returns has verified a client of its policy, by a signature at the
end of the frame. -/
theorem acceptFinish_eq_ok {exchange : Exchange} {cf : List UInt8} {keys : DirectionalKeys}
    {clientId : PublicKey}
    (accepted : acceptFinish prims identity policy exchange cf = .ok (keys, clientId)) :
    policy.accepts clientId = true ∧ clientId.bytes.length = publicKeyLen ∧
      keys = exchange.keys prims identity.publicKey clientId ∧
      ∃ sig : Signature, sig.bytes <:+ cf ∧ verifySig prims.crates clientId
        (exchange.transcript prims identity.publicKey clientId).1 sig 0 = .ok () := by
  obtain ⟨_, _, accepted⟩ := bind_eq_ok.mp accepted
  obtain ⟨_, _, accepted⟩ := bind_eq_ok.mp accepted
  obtain ⟨id, decoded, accepted⟩ := bind_eq_ok.mp accepted
  obtain ⟨sig, signature, accepted⟩ := bind_eq_ok.mp accepted
  obtain ⟨_, trusted, accepted⟩ := bind_eq_ok.mp accepted
  obtain ⟨_, verified, accepted⟩ := bind_eq_ok.mp accepted
  cases accepted
  obtain ⟨length, rfl⟩ := PublicKey.fromBytes_eq_ok.mp (mapError_eq_ok.mp decoded)
  obtain ⟨_, rfl⟩ := Signature.fromBytes_eq_ok.mp (mapError_eq_ok.mp signature)
  exact ⟨ensure_eq_ok.mp trusted, length, rfl, _, List.drop_suffix _ _,
    mapError_eq_ok.mp verified⟩

/-- A client that says hello has generated its ephemeral keys. -/
theorem connectHello_eq_ok {coins : Coins} {ephemeral : EncapsKey × DecapsKey} {ch : List UInt8}
    (greeted : connectHello prims policy coins = .ok (ephemeral, ch)) :
    prims.kem.tryKeygen coins = .ok ephemeral := by
  obtain ⟨_, _, greeted⟩ := bind_eq_ok.mp greeted
  obtain ⟨_, generated, greeted⟩ := bind_eq_ok.mp greeted
  cases greeted
  exact mapError_eq_ok.mp generated

/-- A client that finishes has verified a server of its policy, by a signature at the
end of the frame, recovered the secret and signed the transcript of both. -/
theorem connectFinish_eq_ok {ephemeral : EncapsKey × DecapsKey}
    {sh cf : List UInt8} {answer : Answer}
    (finished : connectFinish prims identity policy ephemeral environment sh = .ok (answer, cf)) :
    answer.exchange.suite = suiteId ∧ answer.exchange.clientKemPk = ephemeral.1 ∧
      prims.kem.tryDecaps ephemeral.2 answer.exchange.ct = .ok answer.exchange.shared ∧
      policy.accepts answer.serverId = true ∧ answer.serverId.bytes.length = publicKeyLen ∧
      (∃ sig : Signature, sig.bytes <:+ sh ∧ verifySig prims.crates answer.serverId
        (answer.exchange.serverTranscript prims answer.serverId).1 sig 0 = .ok ()) ∧
      ∃ sig, environment.sign
        (answer.exchange.transcript prims answer.serverId identity.publicKey).1 = .ok sig := by
  obtain ⟨_, _, finished⟩ := bind_eq_ok.mp finished
  obtain ⟨_, _, finished⟩ := bind_eq_ok.mp finished
  obtain ⟨id, decoded, finished⟩ := bind_eq_ok.mp finished
  obtain ⟨sig, signature, finished⟩ := bind_eq_ok.mp finished
  obtain ⟨_, trusted, finished⟩ := bind_eq_ok.mp finished
  obtain ⟨_, verified, finished⟩ := bind_eq_ok.mp finished
  obtain ⟨ct, converted, finished⟩ := bind_eq_ok.mp finished
  obtain ⟨_, _, finished⟩ := bind_eq_ok.mp finished
  obtain ⟨shared, recovered, finished⟩ := bind_eq_ok.mp finished
  obtain ⟨clientSig, signed, finished⟩ := bind_eq_ok.mp finished
  cases finished
  obtain ⟨length, rfl⟩ := PublicKey.fromBytes_eq_ok.mp (mapError_eq_ok.mp decoded)
  obtain ⟨_, rfl⟩ := Signature.fromBytes_eq_ok.mp (mapError_eq_ok.mp signature)
  have sameCt := tryInto_eq_ok.mp converted
  rw [← sameCt] at verified signed
  exact ⟨rfl, rfl, mapError_eq_ok.mp recovered, ensure_eq_ok.mp trusted, length,
    ⟨_, List.drop_suffix _ _, mapError_eq_ok.mp verified⟩, clientSig,
    mapError_eq_ok.mp signed⟩

end

end CofreSoberano.Transport

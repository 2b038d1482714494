import CofreSoberano.Transport.Handshake
import CofreSoberano.Transport.Writer
import CofreSoberano.Std.Machine

/-!
# Nonces of a session

The two endpoints of a session under every sequence of calls. Each endpoint has
encrypted under the nonces of its direction and of the counters below its own, once
each; the directions differ, so no nonce occurs twice, whatever the keys are.
-/

namespace CofreSoberano.Transport

open CofreSoberano.Std

/-- The two endpoints of a session. -/
inductive Side where
  | client
  | server
deriving DecidableEq

/-- One endpoint. `split` hands out its two halves, which share no state. -/
structure Endpoint where
  reader : Reader
  writer : Writer
  halved : Bool
deriving DecidableEq

/-- A stream as an endpoint on which nothing was written. -/
def CspqStream.endpoint (stream : CspqStream) : Endpoint where
  reader := { inner := stream.inner, recv := stream.recv, state := stream.readState }
  writer := .new stream.send
  halved := false

/-- The calls on one endpoint, and the arrivals of its byte stream. -/
inductive EndpointCall where
  | split
  | sendRecord (aead : Aead) (plaintext : List UInt8) (answers : List InnerAnswer)
  | sendEof (aead : Aead) (answers : List InnerAnswer)
  | pollWrite (aead : Aead) (buf : List UInt8) (answers : List InnerAnswer)
  | pollFlush (answers : List InnerAnswer)
  | pollShutdown (aead : Aead) (answers : List InnerAnswer)
  | arrive (arrival : Arrival)
  | pollRead (aead : Aead) (cap : Nat)
  | recvRecord (aead : Aead)

/-- What a call does to its endpoint. A stream is split once; a `recv_record` that
still awaits its frame changes nothing. -/
def Endpoint.call (endpoint : Endpoint) : EndpointCall → Option Endpoint
  | .split => if endpoint.halved then none else some { endpoint with halved := true }
  | .sendRecord aead plaintext answers =>
      some { endpoint with writer := (endpoint.writer.sendRecord aead plaintext answers).1 }
  | .sendEof aead answers =>
      some { endpoint with writer := (endpoint.writer.sendEof aead answers).1 }
  | .pollWrite aead buf answers =>
      some { endpoint with writer := (endpoint.writer.pollWriteMachine aead buf answers).writer }
  | .pollFlush answers =>
      some { endpoint with writer := (endpoint.writer.pollFlushMachine answers).writer }
  | .pollShutdown aead answers =>
      some { endpoint with writer := (endpoint.writer.pollShutdownMachine aead answers).writer }
  | .arrive arrival =>
      some { endpoint with
        reader := { endpoint.reader with inner := endpoint.reader.inner ++ [arrival] } }
  | .pollRead aead cap =>
      some { endpoint with reader := (endpoint.reader.pollReadMachine aead cap).1 }
  | .recvRecord aead =>
      (endpoint.reader.recvRecord aead).map fun received => { endpoint with reader := received.1 }

/-- The endpoints of one session. -/
structure Endpoints where
  client : Endpoint
  server : Endpoint
deriving DecidableEq

namespace Endpoints

/-- The endpoint of a side. -/
def endpoint (endpoints : Endpoints) : Side → Endpoint
  | .client => endpoints.client
  | .server => endpoints.server

/-- Replace the endpoint of a side. -/
def update (endpoints : Endpoints) : Side → Endpoint → Endpoints
  | .client, client => { endpoints with client }
  | .server, server => { endpoints with server }

/-- All calls of `encrypt` in the session. -/
def encrypted (endpoints : Endpoints) : List Encryption :=
  endpoints.client.writer.encrypted ++ endpoints.server.writer.encrypted

end Endpoints

/-- A session: both endpoints hold the streams that the handshake returned under one
pair of keys. -/
def endpointsMachine : Machine where
  State := Endpoints
  Label := Side × EndpointCall
  Initial endpoints := ∃ (clientInner serverInner : List Arrival) (keys : DirectionalKeys)
    (clientPeer serverPeer : Audit.PublicKey), endpoints =
      { client := (CspqStream.newClient clientInner keys clientPeer).endpoint
        server := (CspqStream.newServer serverInner keys serverPeer).endpoint }
  step endpoints := fun (side, call) =>
    ((endpoints.endpoint side).call call).map (endpoints.update side)

/-- A writer has used the nonces of its direction up to its counter, once each and in
order. -/
structure Writer.Numbered (dir : Octets 4) (writer : Writer) : Prop where
  direction : writer.send.dir = dir
  bound : writer.send.counter ≤ counterMax
  nonces : writer.encrypted.map Encryption.nonce =
    (List.range writer.send.counter).map (nonceOf dir)

theorem Writer.numbered_new (key : Key) (dir : Octets 4) :
    (Writer.new (.new key dir)).Numbered dir :=
  ⟨rfl, Nat.zero_le _, rfl⟩

/-- Without a nonce a seal fails and encrypts nothing. -/
theorem Writer.sealRecord_overflow {writer : Writer} (overflow : writer.send.counter = counterMax)
    (aead : Aead) (plaintext : List UInt8) :
    writer.sealRecord aead plaintext = (writer, .error .nonceOverflow) := by
  simp [sealRecord, DirectionState.sealRecord, DirectionState.encryptions,
    DirectionState.nextNonce, overflow]

/-- With a nonce a seal encrypts once under it. -/
theorem Writer.sealRecord_advance {writer : Writer} (nonceLeft : writer.send.counter ≠ counterMax)
    (aead : Aead) (plaintext : List UInt8) :
    (writer.sealRecord aead plaintext).1.send =
    { writer.send with counter := writer.send.counter + 1 } ∧
      (writer.sealRecord aead plaintext).1.encrypted = writer.encrypted ++
        [⟨writer.send.key, nonceOf writer.send.dir writer.send.counter, plaintext⟩] := by
  simp only [sealRecord, DirectionState.sealRecord, DirectionState.encryptions,
    DirectionState.nextNonce, if_neg nonceLeft, and_true]
  split
  · rfl
  · rfl

/-- A seal keeps a writer numbered. -/
theorem Writer.Numbered.sealRecord {dir : Octets 4} {writer : Writer}
    (numbered : writer.Numbered dir) (aead : Aead) (plaintext : List UInt8) :
    (writer.sealRecord aead plaintext).1.Numbered dir := by
  by_cases overflow : writer.send.counter = counterMax
  · rw [sealRecord_overflow overflow]
    exact numbered
  · obtain ⟨send, encrypted⟩ := sealRecord_advance overflow aead plaintext
    have bound := numbered.bound
    refine ⟨?_, ?_, ?_⟩
    · rw [send]
      exact numbered.direction
    · rw [send]
      show writer.send.counter + 1 ≤ counterMax
      omega
    · rw [send, encrypted, List.map_append, numbered.nonces, List.range_succ, List.map_append,
        ← numbered.direction]
      rfl

theorem Writer.Numbered.sameSeals {dir : Octets 4} {before after : Writer}
    (numbered : before.Numbered dir) (same : before.SameSeals after) : after.Numbered dir := by
  refine ⟨?_, ?_, ?_⟩
  · rw [same.send]
    exact numbered.direction
  · rw [same.send]
    exact numbered.bound
  · rw [same.send, same.encrypted]
    exact numbered.nonces

/-- What seals at most one record keeps a writer numbered and does not turn its
counter back. -/
theorem Writer.Numbered.step {dir : Octets 4} {aead : Aead} {before after : Writer}
    (numbered : before.Numbered dir) (sealed : SealStep aead before after) :
    after.Numbered dir ∧ before.send.counter ≤ after.send.counter := by
  rcases sealed with same | ⟨plaintext, same⟩
  · exact ⟨numbered.sameSeals same, by rw [same.send]⟩
  · refine ⟨(numbered.sealRecord aead plaintext).sameSeals same, ?_⟩
    rw [same.send]
    by_cases overflow : before.send.counter = counterMax
    · rw [sealRecord_overflow overflow]
    · rw [(sealRecord_advance overflow aead plaintext).1]
      exact Nat.le_succ _

/-- Every call seals at most one record. -/
theorem Endpoint.call_sealStep {endpoint next : Endpoint} {call : EndpointCall}
    (called : endpoint.call call = some next) :
    ∃ aead, Writer.SealStep aead endpoint.writer next.writer := by
  have silent : ∀ {writer : Writer}, writer = endpoint.writer →
      ∃ aead, Writer.SealStep aead endpoint.writer writer := by
    rintro _ rfl
    exact ⟨⟨fun _ _ _ => none, fun _ _ _ => none⟩, .inl ⟨rfl, rfl⟩⟩
  cases call with
  | split =>
      simp only [Endpoint.call] at called
      split at called
      · cases called
      · cases called
        exact silent rfl
  | sendRecord aead plaintext answers =>
      cases called
      exact ⟨aead, Writer.sendRecord_sealStep _ _ _ _⟩
  | sendEof aead answers =>
      cases called
      exact ⟨aead, Writer.sendSealed_sealStep _ _ _ _⟩
  | pollWrite aead buf answers =>
      cases called
      exact ⟨aead, Writer.pollWriteMachine_sealStep _ _ _ _⟩
  | pollFlush answers =>
      cases called
      exact ⟨⟨fun _ _ _ => none, fun _ _ _ => none⟩, Writer.pollFlushMachine_sealStep _ _ _⟩
  | pollShutdown aead answers =>
      cases called
      exact ⟨aead, Writer.pollShutdownMachine_sealStep _ _ _⟩
  | arrive arrival =>
      cases called
      exact silent rfl
  | pollRead aead cap =>
      cases called
      exact silent rfl
  | recvRecord aead =>
      obtain ⟨received, _, rfl⟩ := Option.map_eq_some_iff.mp called
      exact silent rfl

/-- The direction in which a side sends. -/
def Side.dir : Side → Octets 4
  | .client => dirC2s
  | .server => dirS2c

/-- Both writers of a session are numbered. -/
def Endpoints.Numbered (endpoints : Endpoints) : Prop :=
  ∀ side : Side, (endpoints.endpoint side).writer.Numbered side.dir

@[simp] theorem Endpoints.endpoint_update (endpoints : Endpoints) (side other : Side)
    (endpoint : Endpoint) :
    (endpoints.update side endpoint).endpoint other =
      if other = side then endpoint else endpoints.endpoint other := by
  cases side <;> cases other <;> rfl

/-- A call keeps both writers numbered and turns no counter back. -/
theorem Endpoints.Numbered.step {endpoints next : Endpoints} {side : Side} {call : EndpointCall}
    (numbered : endpoints.Numbered)
    (moved : endpointsMachine.step endpoints (side, call) = some next) :
    next.Numbered ∧ ∀ side : Side, (endpoints.endpoint side).writer.send.counter ≤
      (next.endpoint side).writer.send.counter := by
  obtain ⟨endpoint, called, rfl⟩ := Option.map_eq_some_iff.mp moved
  obtain ⟨aead, sealed⟩ := Endpoint.call_sealStep called
  obtain ⟨stays, grows⟩ := (numbered side).step sealed
  constructor
  · intro other
    rw [endpoint_update]
    by_cases same : other = side
    · rw [if_pos same, same]
      exact stays
    · rw [if_neg same]
      exact numbered other
  · intro other
    rw [endpoint_update]
    by_cases same : other = side
    · rw [if_pos same, same]
      exact grows
    · rw [if_neg same]

/-- The nonces of a direction up to a counter are different. -/
theorem nodup_nonces (dir : Octets 4) {counter : Nat} (bound : counter ≤ counterMax) :
    ((List.range counter).map (nonceOf dir)).Nodup := by
  refine List.Nodup.map_on ?_ List.nodup_range
  intro first firstBelow second secondBelow same
  rw [List.mem_range] at firstBelow secondBelow
  have fits : counterMax < 256 ^ 8 := by decide
  exact (nonceOf_injective (by omega) (by omega) same).2

/-- The nonces of numbered writers are different throughout the session. -/
theorem Endpoints.Numbered.nodup {endpoints : Endpoints} (numbered : endpoints.Numbered) :
    (endpoints.encrypted.map Encryption.nonce).Nodup := by
  have client := numbered .client
  have server := numbered .server
  rw [encrypted, List.map_append]
  refine List.nodup_append.mpr ⟨?_, ?_, ?_⟩
  · rw [show endpoints.client.writer.encrypted.map _ = _ from client.nonces]
    exact nodup_nonces _ client.bound
  · rw [show endpoints.server.writer.encrypted.map _ = _ from server.nonces]
    exact nodup_nonces _ server.bound
  · -- The directions differ in their last byte.
    intro left leftMember right rightMember same
    rw [show endpoints.client.writer.encrypted.map _ = _ from client.nonces] at leftMember
    rw [show endpoints.server.writer.encrypted.map _ = _ from server.nonces] at rightMember
    obtain ⟨first, firstBelow, rfl⟩ := List.mem_map.mp leftMember
    obtain ⟨second, secondBelow, rfl⟩ := List.mem_map.mp rightMember
    rw [List.mem_range] at firstBelow secondBelow
    have fits : counterMax < 256 ^ 8 := by decide
    have clientBound := client.bound
    have serverBound := server.bound
    have sameDir := (nonceOf_injective (by omega) (by omega) same).1
    exact absurd sameDir (by decide)

/-- Over every sequence of calls on the two endpoints of a session no key and nonce
are used by two seals, and no nonce is, so not even if the keys of the directions
were equal. No counter passes its maximum or is turned back, and at the maximum a
seal fails without encrypting. -/
theorem session_nonces_unique {endpoints : Endpoints}
    (reachable : endpointsMachine.Reachable endpointsMachine.Free endpoints) :
    (endpoints.encrypted.map fun call => (call.key, call.nonce)).Nodup ∧
      (endpoints.encrypted.map Encryption.nonce).Nodup ∧
      (∀ side, (endpoints.endpoint side).writer.send.counter ≤ counterMax) ∧
      (∀ label next, endpointsMachine.step endpoints label = some next →
        ∀ side, (endpoints.endpoint side).writer.send.counter ≤
          (next.endpoint side).writer.send.counter) ∧
      ∀ side aead plaintext, (endpoints.endpoint side).writer.send.counter = counterMax →
        (endpoints.endpoint side).writer.sealRecord aead plaintext =
          ((endpoints.endpoint side).writer, .error .nonceOverflow) := by
  have numbered : endpoints.Numbered := by
    refine reachable.invariant Endpoints.Numbered ?_ ?_
    · rintro start ⟨clientInner, serverInner, keys, clientPeer, serverPeer, rfl⟩ side
      cases side with
      | client => exact Writer.numbered_new _ _
      | server => exact Writer.numbered_new _ _
    · rintro state ⟨side, call⟩ next holds _ moved
      exact (holds.step moved).1
  have nonces := numbered.nodup
  refine ⟨?_, nonces, fun side => (numbered side).bound, ?_, ?_⟩
  · refine List.Nodup.of_map Prod.snd ?_
    rw [List.map_map]
    exact nonces
  · rintro ⟨side, call⟩ next moved
    exact (numbered.step moved).2
  · intro side aead plaintext overflow
    exact Writer.sealRecord_overflow overflow aead plaintext

/-- An AEAD whose ciphertext is the plaintext with an empty tag. -/
def tagAead : Aead where
  encrypt _ _ plaintext := some (plaintext ++ List.replicate tagLen 0)
  decrypt _ _ ciphertext := some (ciphertext.take (ciphertext.length - tagLen))

/-- A session in which both directions have the same key. -/
def plainEndpoints : Endpoints :=
  let key : Key := .replicate 32 1
  { client := (CspqStream.newClient [] ⟨key, key⟩ ⟨[]⟩).endpoint
    server := (CspqStream.newServer [] ⟨key, key⟩ ⟨[]⟩).endpoint }

/-- The client's write is suspended within its frame, fails and is closed by a
shutdown; the server is split and sends two records. -/
theorem session_nonces_unique_suspended :
    ∃ endpoints : Endpoints, endpoints.encrypted.length = 3 ∧
      (endpoints.encrypted.map fun call => (call.key, call.nonce)).Nodup := by
  have evaluated : (endpointsMachine.exec plainEndpoints
      [(.client, .pollWrite tagAead [104, 105] [.ready 3, .pending]), (.server, .split),
        (.server, .sendRecord tagAead [111] [.ready 1, .pending]),
        (.client, .pollFlush [.failed ⟨.other, "reset"⟩]), (.client, .pollShutdown tagAead []),
        (.server, .sendEof tagAead [.ready 99])]).any
          (fun (endpoints : Endpoints) => endpoints.encrypted.length = 3) = true := by
    decide +kernel
  obtain ⟨endpoints, executed, three⟩ := (Option.any_eq_true _ _).mp evaluated
  have initial : endpointsMachine.Initial plainEndpoints := ⟨[], [], _, _, _, rfl⟩
  refine ⟨endpoints, of_decide_eq_true three, ?_⟩
  exact (session_nonces_unique (.of_exec initial executed)).1

end CofreSoberano.Transport

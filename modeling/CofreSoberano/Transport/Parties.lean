import CofreSoberano.Std.Sessions
import CofreSoberano.Transport.Handshake

/-!
# The parties of the handshake

Runs of `accept` and `connect`, and holders of identity keys that sign audit
payloads, as sessions over one log of what the identity keys have signed. The
network belongs to the attacker: whatever it likes arrives at a run, and a frame
that is read is limited by nothing but the signatures that it could not forge.
-/

namespace CofreSoberano.Transport

open CofreSoberano.Std
open CofreSoberano.Audit (PublicKey SignCall Signature SignedPayload payloadFormat
    publicKeyLen verifySig)

/-- A message and the identity key that signed it. -/
abbrev Signing := PublicKey × List UInt8

/-- A call of `accept`. -/
structure AcceptRun where
  identity : IdentityKey
  policy : PeerPolicy
  /-- What the network delivered and was not read yet. -/
  inner : List Arrival
  /-- The frames that the run wrote. -/
  written : List (List UInt8)
  /-- The exchange, once it is signed. -/
  exchange : Option Exchange
  result : Option (Except Error CspqStream)

namespace AcceptRun

/-- `accept` up to its first await. -/
def begins (identity : IdentityKey) (policy : PeerPolicy) : AcceptRun where
  identity := identity
  policy := policy
  inner := []
  written := []
  exchange := none
  result :=
    if policy.isEmpty then
      some (.error (.protocol "server peer policy is empty; refusing to accept any client"))
    else none

/-- The frame that the run awaits, if it has arrived. -/
def frame (run : AcceptRun) : Option (List Arrival × Except Error (List UInt8)) :=
  readFrame run.inner (if run.exchange.isNone then 4096 else 16 * 1024)

/-- Go on with the frame that was read. -/
def resume (prims : Primitives) (run : AcceptRun) (environment : Environment) (frame : List UInt8) :
    AcceptRun × List Signing :=
  match run.exchange with
  | none =>
      match acceptHello prims run.identity environment frame with
      | .error failure => ({ run with result := some (.error failure) }, [])
      | .ok (exchange, sh) =>
          ({ run with
              written := run.written ++ [sh]
              exchange := some exchange
              result := match writeFrame sh environment.write with
                | .error failure => some (.error failure)
                | .ok () => none },
            [(run.identity.publicKey,
              (exchange.serverTranscript prims run.identity.publicKey).1)])
  | some exchange =>
      ({ run with
          result := some ((acceptFinish prims run.identity run.policy exchange frame).map
            fun (keys, clientId) => .newServer run.inner keys clientId) }, [])

/-- Poll the run: it goes on if it has not returned and its frame has arrived. -/
def poll (prims : Primitives) (run : AcceptRun) (environment : Environment) :
    Option (AcceptRun × List Signing) :=
  match run.result, run.frame with
  | some _, _ => none
  | none, none => none
  | none, some (inner, .error failure) =>
      some ({ run with inner, result := some (.error failure) }, [])
  | none, some (inner, .ok frame) => some ({ run with inner }.resume prims environment frame)

/-- Everything that a poll can do. -/
inductive Polled (prims : Primitives) (run : AcceptRun) (environment : Environment) :
    AcceptRun → List Signing → Prop where
  | failed (inner : List Arrival) (failure : Error) :
      Polled prims run environment { run with inner, result := some (.error failure) } []
  | offered {inner : List Arrival} {ch sh : List UInt8} {exchange : Exchange}
      (failure : Option Error)
      (fresh : run.exchange = none) (accepted : acceptHello prims run.identity environment ch =
        .ok (exchange, sh)) :
      Polled prims run environment
        { run with
          inner, written := run.written ++ [sh], exchange := some exchange,
          result := failure.map .error }
        [(run.identity.publicKey, (exchange.serverTranscript prims run.identity.publicKey).1)]
  | returned {inner : List Arrival} {cf : List UInt8} {exchange : Exchange} {keys : DirectionalKeys}
      {clientId : PublicKey} (known : run.exchange = some exchange)
      (read : run.frame = some (inner, .ok cf))
      (accepted : acceptFinish prims run.identity run.policy exchange cf = .ok (keys, clientId)) :
      Polled prims run environment
        { run with inner, result := some (.ok (.newServer inner keys clientId)) } []

theorem poll_cases {prims : Primitives} {run next : AcceptRun} {environment : Environment}
    {signed : List Signing} (polled : run.poll prims environment = some (next, signed)) :
    run.Polled prims environment next signed := by
  simp only [poll] at polled
  split at polled
  · cases polled
  · cases polled
  · cases polled
    exact .failed _ _
  · rename_i inner frame _ read
    simp only [resume, Option.some.injEq] at polled
    split at polled
    · rename_i fresh
      split at polled
      · obtain ⟨rfl, rfl⟩ := polled
        exact .failed _ _
      · rename_i exchange sh accepted
        obtain ⟨rfl, rfl⟩ := polled
        split
        · rename_i failure _
          exact .offered (some failure) fresh accepted
        · exact .offered none fresh accepted
    · rename_i exchange known
      obtain ⟨rfl, rfl⟩ := polled
      cases accepted : acceptFinish prims run.identity run.policy exchange frame with
      | error failure => exact .failed _ _
      | ok established => exact .returned known read accepted

end AcceptRun

/-- A call of `connect`. -/
structure ConnectRun where
  identity : IdentityKey
  policy : PeerPolicy
  inner : List Arrival
  written : List (List UInt8)
  /-- The outcome of the last `write_frame`. -/
  wrote : Except Error Unit
  ephemeral : Option (EncapsKey × DecapsKey)
  /-- The verified answer of the server, once the transcript of both is signed. -/
  answer : Option Answer
  result : Option (Except Error CspqStream)

namespace ConnectRun

/-- `connect` up to its first await. -/
def begins (prims : Primitives) (identity : IdentityKey) (policy : PeerPolicy) (coins : Coins)
    (write : Option IoError) : ConnectRun :=
  match connectHello prims policy coins with
  | .error failure =>
      { identity, policy, inner := [], written := [], wrote := .ok (), ephemeral := none,
        answer := none, result := some (.error failure) }
  | .ok (ephemeral, ch) =>
      { identity, policy, inner := [], written := [ch], wrote := writeFrame ch write,
        ephemeral := some ephemeral, answer := none
        result := match writeFrame ch write with
          | .error failure => some (.error failure)
          | .ok () => none }

/-- The frame that the run awaits, if it has arrived. -/
def frame (run : ConnectRun) : Option (List Arrival × Except Error (List UInt8)) :=
  readFrame run.inner (16 * 1024)

/-- Go on with the frame that was read. -/
def resume (prims : Primitives) (run : ConnectRun) (ephemeral : EncapsKey × DecapsKey)
    (environment : Environment) (frame : List UInt8) : ConnectRun × List Signing :=
  match connectFinish prims run.identity run.policy ephemeral environment frame with
  | .error failure => ({ run with result := some (.error failure) }, [])
  | .ok (answer, cf) =>
      let clientId := run.identity.publicKey
      ({ run with
          written := run.written ++ [cf]
          wrote := writeFrame cf environment.write
          answer := some answer
          result := some (match writeFrame cf environment.write with
            | .error failure => .error failure
            | .ok () =>
                .ok (.newClient run.inner (answer.exchange.keys prims answer.serverId clientId)
                answer.serverId)) },
        [(clientId, (answer.exchange.transcript prims answer.serverId clientId).1)])

/-- Poll the run: it goes on if it has not returned and its frame has arrived. -/
def poll (prims : Primitives) (run : ConnectRun) (environment : Environment) :
    Option (ConnectRun × List Signing) :=
  match run.result, run.ephemeral, run.frame with
  | none, some _, some (inner, .error failure) =>
      some ({ run with inner, result := some (.error failure) }, [])
  | none, some ephemeral, some (inner, .ok frame) =>
      some ({ run with inner }.resume prims ephemeral environment frame)
  | _, _, _ => none

/-- Everything that a poll can do. -/
inductive Polled (prims : Primitives) (run : ConnectRun) (environment : Environment) :
    ConnectRun → List Signing → Prop where
  | failed (inner : List Arrival) (failure : Error) :
      Polled prims run environment { run with inner, result := some (.error failure) } []
  | answered {inner : List Arrival} {sh cf : List UInt8} {ephemeral : EncapsKey × DecapsKey}
      {answer : Answer} {result : Except Error CspqStream} (known : run.ephemeral = some ephemeral)
      (read : run.frame = some (inner, .ok sh))
      (finished : connectFinish prims run.identity run.policy ephemeral environment sh =
        .ok (answer, cf))
      (ended : result = .ok (.newClient inner
          (answer.exchange.keys prims answer.serverId run.identity.publicKey) answer.serverId) ∨
        ∃ failure, writeFrame cf environment.write = .error failure ∧ result = .error failure) :
      Polled prims run environment
        { run with
          inner, written := run.written ++ [cf], wrote := writeFrame cf environment.write
          answer := some answer, result := some result }
        [(run.identity.publicKey,
          (answer.exchange.transcript prims answer.serverId run.identity.publicKey).1)]

theorem poll_cases {prims : Primitives} {run next : ConnectRun} {environment : Environment}
    {signed : List Signing} (polled : run.poll prims environment = some (next, signed)) :
    run.result = none ∧ run.Polled prims environment next signed := by
  simp only [poll] at polled
  split at polled
  · rename_i unfinished _ _
    cases polled
    exact ⟨unfinished, .failed _ _⟩
  · rename_i ephemeral inner frame unfinished known read
    refine ⟨unfinished, ?_⟩
    simp only [resume, Option.some.injEq] at polled
    split at polled
    · obtain ⟨rfl, rfl⟩ := polled
      exact .failed _ _
    · rename_i answer cf finished
      obtain ⟨rfl, rfl⟩ := polled
      refine .answered known read finished ?_
      split
      · rename_i failure failed
        exact .inr ⟨failure, failed, rfl⟩
      · exact .inl rfl
  · cases polled

end ConnectRun

/-- A run of the handshake, or a holder of an identity key that keeps an audit log. -/
inductive Party where
  | accepting (run : AcceptRun)
  | connecting (run : ConnectRun)
  | auditing (publicKey : PublicKey)

/-- How a party begins. -/
inductive PartyConfig where
  | accept (identity : IdentityKey) (policy : PeerPolicy)
  | connect (identity : IdentityKey) (policy : PeerPolicy) (coins : Coins) (write : Option IoError)
  | audit (publicKey : PublicKey)

/-- What happens to a party. -/
inductive PartyInput where
  /-- The network delivers bytes, a failure or an end of stream. -/
  | arrive (arrivals : List Arrival)
  | poll (environment : Environment)
  /-- An audit payload is to be signed. -/
  | append (payload : SignedPayload) (sign : SignCall)

namespace Party

/-- The frame that a party awaits, if it has arrived. -/
def frame : Party → Option (List Arrival × Except Error (List UInt8))
  | .accepting run => run.frame
  | .connecting run => run.frame
  | .auditing _ => none

/-- How a party takes an input. -/
def turn (prims : Primitives) : Party → PartyInput → Option (Party × List Signing)
  | .accepting run, .arrive arrivals =>
      some (.accepting { run with inner := run.inner ++ arrivals }, [])
  | .accepting run, .poll environment =>
      (run.poll prims environment).map fun (next, signed) => (.accepting next, signed)
  | .connecting run, .arrive arrivals =>
      some (.connecting { run with inner := run.inner ++ arrivals }, [])
  | .connecting run, .poll environment =>
      (run.poll prims environment).map fun (next, signed) => (.connecting next, signed)
  | .auditing publicKey, .append payload sign =>
      match sign (payloadFormat.encode payload) with
      | .error _ => some (.auditing publicKey, [])
      | .ok _ => some (.auditing publicKey, [(publicKey, payloadFormat.encode payload)])
  | _, _ => none

end Party

/-- The code that every party runs. -/
def handshakeRole (prims : Primitives) : Role where
  Config := PartyConfig
  Run := Party
  Input := PartyInput
  Entry := Signing
  begins
    | .accept identity policy => .accepting (.begins identity policy)
    | .connect identity policy coins write =>
        .connecting (.begins prims identity policy coins write)
    | .audit publicKey => .auditing publicKey
  turn := Party.turn prims

/-- Signatures of honest keys cannot be forged: a signature at the end of a frame that
is read, if it verifies under such a key, is for a message that the key has signed. -/
def Unforgeable (prims : Primitives) (honest : PublicKey → Prop) (signed : List Signing)
    (party : Party) : PartyInput → Prop
  | .poll _ => ∀ inner frame, party.frame = some (inner, .ok frame) →
      ∀ pk msg (sig : Signature), honest pk → sig.bytes <:+ frame →
        verifySig prims.crates pk msg sig 0 = .ok () → (pk, msg) ∈ signed
  | _ => True

end CofreSoberano.Transport

import Mathlib.Data.Set.Function
import CofreSoberano.Transport.Completion

/-!
# Agreement of the handshake

What a run of `accept` or `connect` has verified when it returns, against an
attacker who owns the network and runs any number of sessions side by side. Every
signature that a run relies on is traced to the party that made it: lengths tell
apart what servers, clients and audit logs sign with the same keys.
-/

namespace CofreSoberano.Transport

open CofreSoberano.Std
open CofreSoberano.Audit (PublicKey Signature SignedPayload payloadFormat publicKeyLen verifySig)

/-- What a run of `accept` has established. -/
structure AcceptRun.Valid (prims : Primitives) (honest : PublicKey → Prop) (signed : List Signing)
    (run : AcceptRun) : Prop where
  exchanged : ∀ exchange, run.exchange = some exchange → exchange.suite = suiteId ∧
    ∃ coins, prims.kem.tryEncaps exchange.clientKemPk coins = .ok (exchange.shared, exchange.ct)
  returned : ∀ stream, run.result = some (.ok stream) → ∃ exchange inner,
    run.exchange = some exchange ∧
      stream = .newServer inner (exchange.keys prims run.identity.publicKey stream.peerId)
        stream.peerId ∧
      run.policy.accepts stream.peerId = true ∧ stream.peerId.bytes.length = publicKeyLen ∧
      (honest stream.peerId →
        (stream.peerId,
          (exchange.transcript prims run.identity.publicKey stream.peerId).1) ∈ signed)

/-- The run returned the error of its last write. -/
def ConnectRun.FailsWriting (run : ConnectRun) : Prop :=
  ∃ failure, run.wrote = .error failure ∧ run.result = some (.error failure)

/-- What a run of `connect` has established about the answer of its server, and how
the run ended: it returns the keys of the exchange unless its last write fails. -/
structure ConnectRun.Answered (prims : Primitives) (honest : PublicKey → Prop)
    (signed : List Signing) (run : ConnectRun) (answer : Answer) : Prop where
  suite : answer.exchange.suite = suiteId
  recovered : ∃ coins dk, prims.kem.tryKeygen coins = .ok (answer.exchange.clientKemPk, dk) ∧
    prims.kem.tryDecaps dk answer.exchange.ct = .ok answer.exchange.shared
  trusted : run.policy.accepts answer.serverId = true
  formed : answer.serverId.bytes.length = publicKeyLen
  authentic : honest answer.serverId →
    (answer.serverId, (answer.exchange.serverTranscript prims answer.serverId).1) ∈ signed
  ended : (∃ inner, run.result = some (.ok (.newClient inner
      (answer.exchange.keys prims answer.serverId run.identity.publicKey) answer.serverId))) ∨
    run.FailsWriting

/-- What a run of `connect` has established. -/
structure ConnectRun.Valid (prims : Primitives) (honest : PublicKey → Prop)
    (signed : List Signing) (run : ConnectRun) : Prop where
  generated : ∀ ephemeral, run.ephemeral = some ephemeral →
    ∃ coins, prims.kem.tryKeygen coins = .ok ephemeral
  answered : ∀ answer, run.answer = some answer → run.Answered prims honest signed answer
  returned : ∀ stream, run.result = some (.ok stream) → ∃ answer inner,
    run.answer = some answer ∧
    stream = .newClient inner (answer.exchange.keys prims answer.serverId run.identity.publicKey)
      answer.serverId

section

variable {prims : Primitives} {honest : PublicKey → Prop} {signed : List Signing}

namespace AcceptRun

variable {run next : AcceptRun}

theorem valid_begins (identity : IdentityKey) (policy : PeerPolicy) :
    (begins identity policy).Valid prims honest signed where
  exchanged exchange known := by cases known
  returned stream result := by
    simp only [begins] at result
    split at result <;> cases result

theorem Valid.mono (valid : run.Valid prims honest signed) (more : List Signing) :
    run.Valid prims honest (signed ++ more) where
  exchanged := valid.exchanged
  returned stream result := by
    obtain ⟨exchange, inner, known, isStream, trusted, formed, authentic⟩ :=
      valid.returned stream result
    exact ⟨exchange, inner, known, isStream, trusted, formed,
      fun isHonest => List.mem_append_left _ (authentic isHonest)⟩

/-- A poll that meets no forged signature keeps what is established. -/
theorem Valid.poll (valid : run.Valid prims honest signed) {environment : Environment}
    {entries : List Signing}
    (unforged : Unforgeable prims honest signed (.accepting run) (.poll environment))
    (polled : run.poll prims environment = some (next, entries)) :
    next.Valid prims honest (signed ++ entries) := by
  cases poll_cases polled with
  | failed inner failure => exact ⟨valid.exchanged, fun stream result => by cases result⟩
  | offered failure fresh accepted =>
      obtain ⟨suite, encapsulated, _⟩ := acceptHello_eq_ok accepted
      refine ⟨fun exchange known => ?_, fun stream result => ?_⟩
      · cases known
        exact ⟨suite, _, encapsulated⟩
      · cases failure <;> cases result
  | @returned inner cf exchange keys clientId known read accepted =>
      obtain ⟨trusted, formed, rfl, sig, inFrame, verified⟩ := acceptFinish_eq_ok accepted
      refine ⟨valid.exchanged, fun stream result => ?_⟩
      cases result
      refine ⟨exchange, inner, known, rfl, trusted, formed, fun isHonest => ?_⟩
      exact List.mem_append_left _ (unforged inner cf read _ _ sig isHonest inFrame verified)

end AcceptRun

namespace ConnectRun

variable {run next : ConnectRun}

theorem valid_begins (identity : IdentityKey) (policy : PeerPolicy) (coins : Coins)
    (write : Option IoError) : (begins prims identity policy coins write).Valid
      prims honest signed := by
  rw [begins]
  split
  · exact ⟨by simp, by simp, by simp⟩
  · rename_i ephemeral ch greeted
    refine ⟨fun _ known => ?_, by simp, fun stream result => ?_⟩
    · cases known
      exact ⟨coins, connectHello_eq_ok greeted⟩
    · dsimp only at result
      split at result <;> cases result

theorem Valid.mono (valid : run.Valid prims honest signed) (more : List Signing) :
    run.Valid prims honest (signed ++ more) where
  generated := valid.generated
  answered answer known :=
    { valid.answered answer known with
      authentic := fun isHonest =>
        List.mem_append_left _ ((valid.answered answer known).authentic isHonest) }
  returned := valid.returned

/-- A run that has not returned has verified no server. -/
theorem Valid.answer_eq_none (valid : run.Valid prims honest signed)
    (unfinished : run.result = none) : run.answer = none := by
  cases known : run.answer with
  | none => rfl
  | some answer =>
      rcases (valid.answered answer known).ended with ⟨_, result⟩ | ⟨_, _, result⟩
      · rw [unfinished] at result
        cases result
      · rw [unfinished] at result
        cases result

/-- A poll that meets no forged signature keeps what is established. -/
theorem Valid.poll (valid : run.Valid prims honest signed) {environment : Environment}
    {entries : List Signing}
    (unforged : Unforgeable prims honest signed (.connecting run) (.poll environment))
    (polled : run.poll prims environment = some (next, entries)) :
    next.Valid prims honest (signed ++ entries) := by
  obtain ⟨unfinished, moved⟩ := poll_cases polled
  have unanswered := valid.answer_eq_none unfinished
  cases moved with
  | failed inner failure =>
      refine ⟨valid.generated, fun answer known => ?_, fun stream result => by cases result⟩
      rw [unanswered] at known
      cases known
  | @answered inner sh cf ephemeral answer result known read finished ended =>
      obtain ⟨suite, sameKey, recovered, trusted, formed, ⟨sig, inFrame, verified⟩, _⟩ :=
        connectFinish_eq_ok finished
      obtain ⟨coins, generated⟩ := valid.generated ephemeral known
      refine ⟨valid.generated, fun other isAnswer => ?_, fun stream isResult => ?_⟩
      · cases isAnswer
        refine ⟨suite, ⟨coins, ephemeral.2, ?_, recovered⟩, trusted, formed,
          fun isHonest => ?_, ?_⟩
        · rw [sameKey]
          exact generated
        · exact List.mem_append_left _ (unforged inner sh read _ _ sig isHonest inFrame verified)
        · rcases ended with rfl | ⟨failure, failed, rfl⟩
          · exact .inl ⟨inner, rfl⟩
          · exact .inr ⟨failure, failed, rfl⟩
      · rcases ended with rfl | ⟨failure, _, rfl⟩
        · cases isResult
          exact ⟨answer, inner, rfl, rfl⟩
        · cases isResult

end ConnectRun

namespace Party

/-- What a party has established. -/
def Valid (prims : Primitives) (honest : PublicKey → Prop) (signed : List Signing) :
    Party → Prop
  | .accepting run => run.Valid prims honest signed
  | .connecting run => run.Valid prims honest signed
  | .auditing _ => True

/-- What a party has signed. -/
def Owns (prims : Primitives) : Party → Signing → Prop
  | .accepting run, (pk, msg) => run.identity.publicKey = pk ∧ ∃ exchange,
      run.exchange = some exchange ∧ msg = (exchange.serverTranscript prims pk).1
  | .connecting run, (pk, msg) => run.identity.publicKey = pk ∧ ∃ answer,
      run.answer = some answer ∧ msg = (answer.exchange.transcript prims answer.serverId pk).1
  | .auditing publicKey, (pk, msg) =>
      publicKey = pk ∧ ∃ payload, msg = payloadFormat.encode payload

variable {party next : Party} {input : PartyInput} {entries : List Signing}

/-- Everything that a turn of a party can do. -/
theorem turn_cases (turned : party.turn prims input = some (next, entries)) :
    (∃ run arrivals, party = .accepting run ∧ input = .arrive arrivals ∧
      next = .accepting { run with inner := run.inner ++ arrivals } ∧ entries = []) ∨
    (∃ run after environment, party = .accepting run ∧ input = .poll environment ∧
      run.poll prims environment = some (after, entries) ∧ next = .accepting after) ∨
    (∃ run arrivals, party = .connecting run ∧ input = .arrive arrivals ∧
      next = .connecting { run with inner := run.inner ++ arrivals } ∧ entries = []) ∨
    (∃ run after environment, party = .connecting run ∧ input = .poll environment ∧
      run.poll prims environment = some (after, entries) ∧ next = .connecting after) ∨
    (∃ publicKey, party = .auditing publicKey ∧ next = .auditing publicKey ∧
      ∀ entry ∈ entries, entry.1 = publicKey ∧
        ∃ payload, entry.2 = payloadFormat.encode payload) := by
  cases party with
  | accepting run =>
      cases input with
      | arrive arrivals =>
          cases turned
          exact .inl ⟨run, arrivals, rfl, rfl, rfl, rfl⟩
      | poll environment =>
          obtain ⟨⟨after, signed⟩, polled, moved⟩ := Option.map_eq_some_iff.mp turned
          cases moved
          exact .inr (.inl ⟨run, after, environment, rfl, rfl, polled, rfl⟩)
      | append payload sign => cases turned
  | connecting run =>
      cases input with
      | arrive arrivals =>
          cases turned
          exact .inr (.inr (.inl ⟨run, arrivals, rfl, rfl, rfl, rfl⟩))
      | poll environment =>
          obtain ⟨⟨after, signed⟩, polled, moved⟩ := Option.map_eq_some_iff.mp turned
          cases moved
          exact .inr (.inr (.inr (.inl ⟨run, after, environment, rfl, rfl, polled, rfl⟩)))
      | append payload sign => cases turned
  | auditing publicKey =>
      cases input with
      | arrive arrivals => cases turned
      | poll environment => cases turned
      | append payload sign =>
          refine .inr (.inr (.inr (.inr ⟨publicKey, rfl, ?_⟩)))
          simp only [turn] at turned
          split at turned
          · cases turned
            exact ⟨rfl, by simp⟩
          · cases turned
            exact ⟨rfl, by simp⟩

theorem Valid.turn (valid : party.Valid prims honest signed)
    (unforged : Unforgeable prims honest signed party input)
    (turned : party.turn prims input = some (next, entries)) :
    next.Valid prims honest (signed ++ entries) := by
  rcases turn_cases turned with ⟨run, arrivals, rfl, rfl, rfl, rfl⟩ |
    ⟨run, after, environment, rfl, rfl, polled, rfl⟩ | ⟨run, arrivals, rfl, rfl, rfl, rfl⟩ |
    ⟨run, after, environment, rfl, rfl, polled, rfl⟩ | ⟨publicKey, rfl, rfl, _⟩
  · rw [List.append_nil]
    exact ⟨valid.exchanged, valid.returned⟩
  · exact AcceptRun.Valid.poll valid unforged polled
  · rw [List.append_nil]
    exact ⟨valid.generated, fun answer known => { valid.answered answer known with },
      valid.returned⟩
  · exact ConnectRun.Valid.poll valid unforged polled
  · trivial

/-- What a party has signed stays its own. -/
theorem Owns.turn {signing : Signing} (valid : party.Valid prims honest signed)
    (turned : party.turn prims input = some (next, entries)) (owns : party.Owns prims signing) :
    next.Owns prims signing := by
  obtain ⟨pk, msg⟩ := signing
  rcases turn_cases turned with ⟨run, arrivals, rfl, rfl, rfl, rfl⟩ |
    ⟨run, after, environment, rfl, rfl, polled, rfl⟩ | ⟨run, arrivals, rfl, rfl, rfl, rfl⟩ |
    ⟨run, after, environment, rfl, rfl, polled, rfl⟩ | ⟨publicKey, rfl, rfl, _⟩
  · exact owns
  · obtain ⟨isKey, exchange, known, isMessage⟩ := owns
    cases AcceptRun.poll_cases polled with
    | failed inner failure => exact ⟨isKey, exchange, known, isMessage⟩
    | offered failure fresh accepted =>
        rw [fresh] at known
        cases known
    | returned _ read accepted => exact ⟨isKey, exchange, known, isMessage⟩
  · exact owns
  · obtain ⟨_, answer, known, _⟩ := owns
    obtain ⟨unfinished, _⟩ := ConnectRun.poll_cases polled
    rw [ConnectRun.Valid.answer_eq_none valid unfinished] at known
    cases known
  · exact owns

/-- What a turn adds to the log is the party's own. -/
theorem owns_of_mem {signing : Signing} (turned : party.turn prims input = some (next, entries))
    (member : signing ∈ entries) : next.Owns prims signing := by
  rcases turn_cases turned with ⟨run, arrivals, rfl, rfl, rfl, rfl⟩ |
    ⟨run, after, environment, rfl, rfl, polled, rfl⟩ | ⟨run, arrivals, rfl, rfl, rfl, rfl⟩ |
    ⟨run, after, environment, rfl, rfl, polled, rfl⟩ | ⟨publicKey, rfl, rfl, audited⟩
  · cases member
  · cases AcceptRun.poll_cases polled with
    | failed inner failure => cases member
    | offered failure fresh accepted =>
        cases List.mem_singleton.mp member
        exact ⟨rfl, _, rfl, rfl⟩
    | returned known read accepted => cases member
  · cases member
  · cases (ConnectRun.poll_cases polled).2 with
    | failed inner failure => cases member
    | answered known read finished ended =>
        cases List.mem_singleton.mp member
        exact ⟨rfl, _, rfl, rfl⟩
  · obtain ⟨isKey, payload, isMessage⟩ := audited signing member
    exact ⟨isKey.symm, payload, isMessage⟩

end Party

end

/-- The proof about single parties that holds in every interleaving. -/
def handshakeLocal (prims : Primitives) (honest : PublicKey → Prop) :
    (handshakeRole prims).Local (Unforgeable prims honest) where
  Valid := Party.Valid prims honest
  Owns := Party.Owns prims
  mono := by
    intro signed party more valid
    cases party with
    | accepting run => exact AcceptRun.Valid.mono valid more
    | connecting run => exact ConnectRun.Valid.mono valid more
    | auditing publicKey => trivial
  begins := by
    intro config signed
    cases config with
    | accept identity policy => exact AcceptRun.valid_begins identity policy
    | connect identity policy coins write =>
        exact ConnectRun.valid_begins identity policy coins write
    | audit publicKey => trivial
  turns := Party.Valid.turn
  keeps := Party.Owns.turn
  owns := Party.owns_of_mem

/-- `accept` returned a session with these keys and this client. -/
def AcceptRun.Returns (run : AcceptRun) (exchange : Exchange) (keys : DirectionalKeys)
    (clientId : PublicKey) : Prop :=
  run.exchange = some exchange ∧
  ∃ inner, run.result = some (.ok (.newServer inner keys clientId))

/-- `connect` returned a session with these keys and the server of its answer. -/
def ConnectRun.Returns (run : ConnectRun) (answer : Answer) (keys : DirectionalKeys) : Prop :=
  run.answer = some answer ∧
  ∃ inner, run.result = some (.ok (.newClient inner keys answer.serverId))

/-- What a party hashes for the transcripts that it signs or relies on. -/
inductive Party.Hashes : Party → List UInt8 → Prop where
  | offer {run : AcceptRun} {exchange : Exchange} (known : run.exchange = some exchange) :
      Hashes (.accepting run) (exchange.serverInput run.identity.publicKey)
  | accept {run : AcceptRun} {exchange : Exchange} {keys : DirectionalKeys} {clientId : PublicKey}
      (returned : run.Returns exchange keys clientId) :
      Hashes (.accepting run) (exchange.input run.identity.publicKey clientId)
  | answer {run : ConnectRun} {answer : Answer} (known : run.answer = some answer) :
      Hashes (.connecting run) (answer.exchange.serverInput answer.serverId)
  | finish {run : ConnectRun} {answer : Answer} (known : run.answer = some answer) :
      Hashes (.connecting run) (answer.exchange.input answer.serverId run.identity.publicKey)

/-- The secrets and transcripts from which a party derives keys. -/
inductive Party.Derives (prims : Primitives) : Party → SharedSecret × Audit.Hash → Prop where
  | accept {run : AcceptRun} {exchange : Exchange} {keys : DirectionalKeys} {clientId : PublicKey}
      (returned : run.Returns exchange keys clientId) :
      Derives prims (.accepting run)
        (exchange.shared, exchange.transcript prims run.identity.publicKey clientId)
  | connect {run : ConnectRun} {answer : Answer} {keys : DirectionalKeys}
      (returned : run.Returns answer keys) :
      Derives prims (.connecting run) (answer.exchange.shared,
        answer.exchange.transcript prims answer.serverId run.identity.publicKey)

/-- No two of the texts that the parties hash collide. -/
def CollisionFree (prims : Primitives) (parties : List Party) : Prop :=
  Set.InjOn prims.crates.blake3 {input | ∃ party ∈ parties, party.Hashes input}

/-- No two derivations of the parties give the same keys. -/
def ScheduleInjective (prims : Primitives) (parties : List Party) : Prop :=
  Set.InjOn (fun source => prims.hkdf keySalt source.1 source.2)
    {source | ∃ party ∈ parties, party.Derives prims source}

theorem CspqStream.newServer_inj {left right : List Arrival} {keys keys' : DirectionalKeys}
    {pk pk' : PublicKey} (same : newServer left keys pk = newServer right keys' pk') :
    keys = keys' ∧ pk = pk' := by
  obtain ⟨keyC2s, keyS2c⟩ := keys
  obtain ⟨keyC2s', keyS2c'⟩ := keys'
  simp only [newServer, DirectionState.new, mk.injEq, DirectionState.mk.injEq] at same
  simp [same]

theorem CspqStream.newClient_inj {left right : List Arrival} {keys keys' : DirectionalKeys}
    {pk pk' : PublicKey} (same : newClient left keys pk = newClient right keys' pk') :
    keys = keys' ∧ pk = pk' := by
  obtain ⟨keyC2s, keyS2c⟩ := keys
  obtain ⟨keyC2s', keyS2c'⟩ := keys'
  simp only [newClient, DirectionState.new, mk.injEq, DirectionState.mk.injEq] at same
  simp [same]

section

variable {prims : Primitives} {honest : PublicKey → Prop} {pool : Pool (handshakeRole prims)}

/-- A returned session of `accept` has the keys of its exchange. -/
theorem AcceptRun.Valid.returns {signed : List Signing} {run : AcceptRun}
    (valid : run.Valid prims honest signed) {exchange : Exchange} {keys : DirectionalKeys}
    {clientId : PublicKey} (returned : run.Returns exchange keys clientId) :
    keys = exchange.keys prims run.identity.publicKey clientId ∧
      run.policy.accepts clientId = true ∧ clientId.bytes.length = publicKeyLen ∧
      (honest clientId →
        (clientId, (exchange.transcript prims run.identity.publicKey clientId).1) ∈ signed) := by
  obtain ⟨known, inner, result⟩ := returned
  obtain ⟨other, _, otherKnown, isStream, rest⟩ := valid.returned _ result
  rw [known] at otherKnown
  cases otherKnown
  exact ⟨(CspqStream.newServer_inj isStream).1, rest⟩

/-- A returned session of `connect` has the keys of its exchange. -/
theorem ConnectRun.Valid.returns {signed : List Signing} {run : ConnectRun}
    (valid : run.Valid prims honest signed) {answer : Answer} {keys : DirectionalKeys}
    (returned : run.Returns answer keys) :
    keys = answer.exchange.keys prims answer.serverId run.identity.publicKey := by
  obtain ⟨known, inner, result⟩ := returned
  obtain ⟨other, _, otherKnown, isStream⟩ := valid.returned _ result
  rw [known] at otherKnown
  cases otherKnown
  exact (CspqStream.newClient_inj isStream).1

/-- A transcript of both identities that a key has signed was signed by a run of
`connect` under that key: a run of `accept` signs a shorter text, an audit log a
longer message. -/
theorem connecting_of_signed (holds : (handshakeLocal prims honest).Holds pool)
    (collisionFree : CollisionFree prims pool.runs) {exchange : Exchange}
    {serverId clientId : PublicKey} (serverFormed : serverId.bytes.length = publicKeyLen)
    (clientFormed : clientId.bytes.length = publicKeyLen)
    (hashed : ∃ party ∈ pool.runs, party.Hashes (exchange.input serverId clientId))
    (signed : (clientId, (exchange.transcript prims serverId clientId).1) ∈ pool.log) :
    ∃ run answer, .connecting run ∈ pool.runs ∧ run.identity.publicKey = clientId ∧
      run.answer = some answer ∧ answer.serverId = serverId ∧
      answer.exchange.suite = exchange.suite ∧
      answer.exchange.clientKemPk = exchange.clientKemPk ∧ answer.exchange.ct = exchange.ct := by
  obtain ⟨party, member, owns⟩ := holds.owned _ signed
  cases party with
  | accepting run =>
      obtain ⟨rfl, other, known, isMessage⟩ := owns
      have sameInput :=
        collisionFree ⟨_, member, .offer known⟩ hashed (Subtype.ext isMessage.symm)
      exact absurd sameInput
        (Exchange.serverInput_ne_input run.identity.wellFormed serverFormed clientFormed)
  | connecting run =>
      obtain ⟨rfl, answer, known, isMessage⟩ := owns
      have sameInput :=
        collisionFree ⟨_, member, .finish known⟩ hashed (Subtype.ext isMessage.symm)
      have valid : run.Valid prims honest pool.log := holds.valid _ member
      obtain ⟨suite, kemPk, ct, server, _⟩ :=
        Exchange.input_inj (valid.answered answer known).formed serverFormed sameInput
      exact ⟨run, answer, member, rfl, known, server, suite, kemPk, ct⟩
  | auditing publicKey =>
      obtain ⟨_, payload, isMessage⟩ := owns
      exact absurd isMessage (Audit.hash_ne_payload _ payload)

/-- A server's transcript that a key has signed was signed by a run of `accept` under
that key. -/
theorem accepting_of_signed (holds : (handshakeLocal prims honest).Holds pool)
    (collisionFree : CollisionFree prims pool.runs) {exchange : Exchange} {serverId : PublicKey}
    (serverFormed : serverId.bytes.length = publicKeyLen)
    (hashed : ∃ party ∈ pool.runs, party.Hashes (exchange.serverInput serverId))
    (signed : (serverId, (exchange.serverTranscript prims serverId).1) ∈ pool.log) :
    ∃ run other, .accepting run ∈ pool.runs ∧ run.identity.publicKey = serverId ∧
      run.exchange = some other ∧ other.suite = exchange.suite ∧
      other.clientKemPk = exchange.clientKemPk ∧ other.ct = exchange.ct := by
  obtain ⟨party, member, owns⟩ := holds.owned _ signed
  cases party with
  | accepting run =>
      obtain ⟨rfl, other, known, isMessage⟩ := owns
      have sameInput :=
        collisionFree ⟨_, member, .offer known⟩ hashed (Subtype.ext isMessage.symm)
      obtain ⟨suite, kemPk, ct, _⟩ := Exchange.serverInput_inj sameInput
      exact ⟨run, other, member, rfl, known, suite, kemPk, ct⟩
  | connecting run =>
      obtain ⟨rfl, answer, known, isMessage⟩ := owns
      have sameInput := collisionFree hashed ⟨_, member, .finish known⟩ (Subtype.ext isMessage)
      have valid : run.Valid prims honest pool.log := holds.valid _ member
      exact absurd sameInput (Exchange.serverInput_ne_input serverFormed
        (valid.answered answer known).formed run.identity.wellFormed)
  | auditing publicKey =>
      obtain ⟨_, payload, isMessage⟩ := owns
      exact absurd isMessage (Audit.hash_ne_payload _ payload)

/-- Runs of `accept` and `connect` over the same key and ciphertext recover the same
secret. -/
theorem shared_eq (correct : prims.kem.Correct) {signed : List Signing} {server : AcceptRun}
    {client : ConnectRun} (serverValid : server.Valid prims honest signed)
    (clientValid : client.Valid prims honest signed) {exchange : Exchange} {answer : Answer}
    (exchanged : server.exchange = some exchange) (answered : client.answer = some answer)
    (sameKemPk : answer.exchange.clientKemPk = exchange.clientKemPk)
    (sameCt : answer.exchange.ct = exchange.ct) : answer.exchange.shared = exchange.shared := by
  obtain ⟨_, coins, encapsulated⟩ := serverValid.exchanged exchange exchanged
  obtain ⟨keyCoins, dk, generated, recovered⟩ :=
    (clientValid.answered answer answered).recovered
  rw [sameKemPk] at generated
  rw [sameCt, correct generated encapsulated] at recovered
  exact (Except.ok.inj recovered).symm

/-- The honest client of a returned session of `accept` ran `connect` over the same
exchange. -/
theorem exists_connecting (holds : (handshakeLocal prims honest).Holds pool)
    (correct : prims.kem.Correct) (collisionFree : CollisionFree prims pool.runs)
    {server : AcceptRun} (member : .accepting server ∈ pool.runs) {exchange : Exchange}
    {keys : DirectionalKeys} {clientId : PublicKey}
    (returned : server.Returns exchange keys clientId) (isHonest : honest clientId) :
    ∃ client answer, .connecting client ∈ pool.runs ∧ client.identity.publicKey = clientId ∧
      client.answer = some answer ∧ answer.serverId = server.identity.publicKey ∧
      answer.exchange = exchange := by
  have serverValid : server.Valid prims honest pool.log := holds.valid _ member
  obtain ⟨_, _, formed, authentic⟩ := serverValid.returns returned
  obtain ⟨client, answer, clientMember, isClient, answered, isServer, suite, kemPk, ct⟩ :=
    connecting_of_signed holds collisionFree server.identity.wellFormed formed
      ⟨_, member, .accept returned⟩ (authentic isHonest)
  have clientValid : client.Valid prims honest pool.log := holds.valid _ clientMember
  have shared := shared_eq correct serverValid clientValid returned.1 answered kemPk ct
  refine ⟨client, answer, clientMember, isClient, answered, isServer, ?_⟩
  exact Exchange.ext suite kemPk ct shared

/-- The honest server of a returned session of `connect` ran `accept` over the same
exchange. -/
theorem exists_accepting (holds : (handshakeLocal prims honest).Holds pool)
    (correct : prims.kem.Correct) (collisionFree : CollisionFree prims pool.runs)
    {client : ConnectRun} (member : .connecting client ∈ pool.runs) {answer : Answer}
    (answered : client.answer = some answer) (isHonest : honest answer.serverId) :
    ∃ server exchange, .accepting server ∈ pool.runs ∧
      server.identity.publicKey = answer.serverId ∧ server.exchange = some exchange ∧
      exchange = answer.exchange := by
  have clientValid : client.Valid prims honest pool.log := holds.valid _ member
  have established := clientValid.answered answer answered
  obtain ⟨server, exchange, serverMember, isServer, exchanged, suite, kemPk, ct⟩ :=
    accepting_of_signed holds collisionFree established.formed ⟨_, member, .answer answered⟩
      (established.authentic isHonest)
  have serverValid : server.Valid prims honest pool.log := holds.valid _ serverMember
  have shared := shared_eq correct serverValid clientValid exchanged answered kemPk.symm ct.symm
  refine ⟨server, exchange, serverMember, isServer, exchanged, ?_⟩
  exact Exchange.ext suite kemPk ct shared.symm

/-- Sessions with the same keys agree on both identities. -/
theorem identities_eq (holds : (handshakeLocal prims honest).Holds pool)
    (collisionFree : CollisionFree prims pool.runs)
    (scheduleInjective : ScheduleInjective prims pool.runs)
    {server : AcceptRun} (serverMember : .accepting server ∈ pool.runs)
    {client : ConnectRun} (clientMember : .connecting client ∈ pool.runs) {exchange : Exchange}
    {keys : DirectionalKeys} {clientId : PublicKey} {answer : Answer}
    (accepted : server.Returns exchange keys clientId) (connected : client.Returns answer keys) :
    server.identity.publicKey = answer.serverId ∧ clientId = client.identity.publicKey := by
  have serverValid : server.Valid prims honest pool.log := holds.valid _ serverMember
  have clientValid : client.Valid prims honest pool.log := holds.valid _ clientMember
  have sameKeys := (serverValid.returns accepted).1.symm.trans (clientValid.returns connected)
  -- The key schedule is injective in the transcript, and so is the transcript.
  have sameSource := scheduleInjective ⟨_, serverMember, .accept accepted⟩
    ⟨_, clientMember, .connect connected⟩ (hkdf_eq_of_deriveKeys_eq sameKeys)
  have sameInput := collisionFree ⟨_, serverMember, .accept accepted⟩
    ⟨_, clientMember, .finish connected.1⟩ (Prod.mk.inj sameSource).2
  have formed := (clientValid.answered answer connected.1).formed
  obtain ⟨_, _, _, isServer, isClient⟩ :=
    Exchange.input_inj server.identity.wellFormed formed sameInput
  exact ⟨isServer, isClient⟩

end

/-- The parties of a meeting hash the same two transcripts. -/
theorem Meeting.eq_of_hashes {prims : Primitives} (meeting : Meeting prims) {party : Party}
    {input : List UInt8} (member : party ∈ meeting.pool.runs) (hashes : party.Hashes input) :
    input = meeting.exchange.serverInput meeting.server.publicKey ∨
      input = meeting.exchange.input meeting.server.publicKey meeting.client.publicKey := by
  rcases List.mem_pair.mp member with rfl | rfl
  · cases hashes with
    | answer known =>
        cases known
        exact .inl rfl
    | finish known =>
        cases known
        exact .inr rfl
  · cases hashes with
    | offer known =>
        cases known
        exact .inl rfl
    | accept returned =>
        obtain ⟨known, inner, result⟩ := returned
        cases known
        have isStream := Except.ok.inj (Option.some.inj result)
        rw [← (CspqStream.newServer_inj isStream).2]
        exact .inr rfl

/-- No texts of a meeting collide if its two transcripts do not. -/
theorem Meeting.collisionFree {prims : Primitives} (meeting : Meeting prims)
    (apart : meeting.exchange.serverTranscript prims meeting.server.publicKey ≠
      meeting.exchange.transcript prims meeting.server.publicKey meeting.client.publicKey) :
    CollisionFree prims meeting.pool.runs := by
  rintro left ⟨leftParty, leftMember, leftHashes⟩ right
    ⟨rightParty, rightMember, rightHashes⟩ same
  rcases meeting.eq_of_hashes leftMember leftHashes with rfl | rfl <;>
    rcases meeting.eq_of_hashes rightMember rightHashes with rfl | rfl
  · rfl
  · exact absurd same apart
  · exact absurd same.symm apart
  · rfl

theorem plainPrimitives_apart (exchange : Exchange) (server client : IdentityKey) :
    exchange.serverTranscript plainPrimitives server.publicKey ≠
      exchange.transcript plainPrimitives server.publicKey client.publicKey := by
  intro same
  have numbers := congrArg Subtype.val same
  rw [Exchange.serverTranscript, Exchange.transcript, plainPrimitives_blake3,
    plainPrimitives_blake3, Exchange.input_eq, List.length_append, Exchange.serverInput_length,
    server.wellFormed, client.wellFormed] at numbers
  exact absurd numbers (by decide)

theorem plainPrimitives_scheduleInjective (parties : List Party) :
    ScheduleInjective plainPrimitives parties := by
  rintro ⟨leftSecret, leftHash⟩ _ ⟨rightSecret, rightHash⟩ _ same
  have bytes : leftSecret.1 ++ leftHash.1 = rightSecret.1 ++ rightHash.1 :=
    congrArg Subtype.val same
  obtain ⟨secrets, hashes⟩ := List.append_inj bytes (leftSecret.2.trans rightSecret.2.symm)
  exact Prod.ext (Subtype.ext secrets) (Subtype.ext hashes)

/-- Agreement of the handshake, for any number of interleaved sessions under an
attacker who owns the network. A client that `accept` returns is in the policy and, if
its key is honest, ran `connect` over the same exchange with this server and derives
the same keys, which it returns unless the write of its last frame fails. A server that
`connect` returns is in the policy and, if its key is honest, ran `accept` over the same
exchange. Two sessions over the same key and ciphertext agree on both identities, or
their keys differ. -/
theorem handshake_agreement (prims : Primitives) (honest : PublicKey → Prop)
    (correct : prims.kem.Correct) {pool : Pool (handshakeRole prims)}
    (reachable : (handshakeRole prims).machine.Reachable
      ((handshakeRole prims).admits (Unforgeable prims honest)) pool)
    (collisionFree : CollisionFree prims pool.runs)
    (scheduleInjective : ScheduleInjective prims pool.runs) :
    (∀ server, .accepting server ∈ pool.runs →
      ∀ stream, server.result = some (.ok stream) →
      server.policy.accepts stream.peerId = true ∧
      ∃ exchange keys, server.Returns exchange keys stream.peerId ∧
        (honest stream.peerId → ∃ client answer, .connecting client ∈ pool.runs ∧
          client.identity.publicKey = stream.peerId ∧ client.answer = some answer ∧
          answer.serverId = server.identity.publicKey ∧ answer.exchange = exchange ∧
          answer.exchange.keys prims answer.serverId client.identity.publicKey = keys ∧
          (client.Returns answer keys ∨ client.FailsWriting))) ∧
    (∀ client, .connecting client ∈ pool.runs →
      ∀ stream, client.result = some (.ok stream) →
      client.policy.accepts stream.peerId = true ∧
      ∃ answer keys, client.Returns answer keys ∧ answer.serverId = stream.peerId ∧
        (honest stream.peerId → ∃ server exchange, .accepting server ∈ pool.runs ∧
          server.identity.publicKey = stream.peerId ∧ server.exchange = some exchange ∧
          exchange = answer.exchange)) ∧
    ∀ server, .accepting server ∈ pool.runs → ∀ client, .connecting client ∈ pool.runs →
      ∀ exchange serverKeys clientId answer clientKeys,
        server.Returns exchange serverKeys clientId → client.Returns answer clientKeys →
        exchange.clientKemPk = answer.exchange.clientKemPk → exchange.ct = answer.exchange.ct →
        server.identity.publicKey = answer.serverId ∧ clientId = client.identity.publicKey ∨
          serverKeys ≠ clientKeys := by
  have holds := (handshakeLocal prims honest).reachable reachable
  refine ⟨fun server member stream result => ?_, fun client member stream result => ?_, ?_⟩
  · have valid : server.Valid prims honest pool.log := holds.valid _ member
    obtain ⟨exchange, inner, known, isStream, trusted, _, _⟩ := valid.returned stream result
    have returned : server.Returns exchange
        (exchange.keys prims server.identity.publicKey stream.peerId) stream.peerId :=
      ⟨known, inner, by rw [result, ← isStream]⟩
    refine ⟨trusted, exchange, _, returned, fun isHonest => ?_⟩
    obtain ⟨client, answer, clientMember, isClient, answered, isServer, sameExchange⟩ :=
      exists_connecting holds correct collisionFree member returned isHonest
    have clientValid : client.Valid prims honest pool.log := holds.valid _ clientMember
    have ended := (clientValid.answered answer answered).ended
    rw [isServer, sameExchange, isClient] at ended
    refine ⟨client, answer, clientMember, isClient, answered, isServer, sameExchange, ?_, ?_⟩
    · rw [isServer, sameExchange, isClient]
    · rw [ConnectRun.Returns, isServer]
      exact ended.imp_left fun connected => ⟨answered, connected⟩
  · have valid : client.Valid prims honest pool.log := holds.valid _ member
    obtain ⟨answer, inner, answered, rfl⟩ := valid.returned stream result
    exact ⟨(valid.answered answer answered).trusted, answer, _,
      ⟨answered, inner, result⟩, rfl, exists_accepting holds correct
        collisionFree member answered⟩
  · intro server serverMember client clientMember exchange serverKeys clientId answer clientKeys
      accepted connected _ _
    by_cases sameKeys : serverKeys = clientKeys
    · subst clientKeys
      exact .inl (identities_eq holds collisionFree scheduleInjective serverMember clientMember
        accepted connected)
    · exact .inr sameKeys

/-- Both keys of a meeting are honest, and its server agrees with its client. -/
theorem handshake_agreement_plain :
    plainMeeting.serverPolicy.accepts plainMeeting.client.publicKey = true ∧
      ∃ exchange keys, plainMeeting.accepted.Returns exchange keys
        plainMeeting.client.publicKey ∧
        ∃ client answer, .connecting client ∈ plainMeeting.pool.runs ∧
          client.identity.publicKey = plainMeeting.client.publicKey ∧
          client.answer = some answer ∧
          answer.serverId = plainMeeting.server.publicKey ∧ answer.exchange = exchange ∧
          answer.exchange.keys plainPrimitives answer.serverId client.identity.publicKey = keys ∧
          (client.Returns answer keys ∨ client.FailsWriting) := by
  have reachable := plainMeeting.reachable (fun _ => True) plainKem_correct
    (binds_of_verifySig plainMeeting.serverVerifies)
    (binds_of_verifySig plainMeeting.clientVerifies)
  obtain ⟨trusted, exchange, keys, returned, agrees⟩ :=
    (handshake_agreement plainPrimitives (fun _ => True) plainKem_correct reachable
      (plainMeeting.collisionFree (plainPrimitives_apart _ _ _))
      (plainPrimitives_scheduleInjective _)).1
      plainMeeting.accepted (.tail _ (.head _)) _ rfl
  exact ⟨trusted, exchange, keys, returned, agrees trivial⟩

end CofreSoberano.Transport

import Mathlib.Data.List.TakeWhile
import CofreSoberano.Transport.Reader
import CofreSoberano.Std.Machine

/-!
# Integrity of the received stream

A receiver and the two sealing endpoints under an attacker who decides what
arrives, in which pieces and when. Whatever is delivered, by `poll_read` or by a
loop over `recv_record`, is the beginning of what the peer sealed, and an end of
stream is reported only after all of it.
-/

namespace CofreSoberano.Transport

open CofreSoberano.Std

/-- What a session has sealed only grows. -/
structure Session.Extends (before after : Session) : Prop where
  key : after.peer.key = before.peer.key
  dir : after.peer.dir = before.peer.dir
  records : before.records <+: after.records

namespace Session

variable {session later : Session}

theorem extends_peerSeals (aead : Aead) (plaintext : List UInt8) :
    session.Extends (session.peerSeals aead plaintext) := by
  rw [peerSeals]
  rcases session.peer.sealRecord_cases aead plaintext with
    ⟨failure, failed⟩ | ⟨_, outcome, sealed⟩
  · rw [failed]
    exact ⟨rfl, rfl, List.prefix_refl _⟩
  · rw [sealed]
    cases outcome with
    | error failure => exact ⟨rfl, rfl, List.prefix_refl _⟩
    | ok ciphertext => exact ⟨rfl, rfl, List.prefix_append _ _⟩

theorem extends_ownSeals (aead : Aead) (plaintext : List UInt8) :
    session.Extends (session.ownSeals aead plaintext) := by
  rw [ownSeals]
  split
  · exact ⟨rfl, rfl, List.prefix_refl _⟩
  · exact ⟨rfl, rfl, List.prefix_refl _⟩

/-- A sealed end of stream stays sealed. -/
theorem Extends.sealedEof (grown : session.Extends later) (sealed : session.SealedEof) :
    later.SealedEof :=
  (grown.records.map SealedRecord.plaintext).subset sealed

/-- What comes before the end of stream only grows, up to the end of stream. -/
theorem Extends.beforeEof (grown : session.Extends later) :
    session.beforeEof <+: later.beforeEof ∧
      (session.SealedEof → later.beforeEof = session.beforeEof) := by
  obtain ⟨more, records⟩ := grown.records
  simp only [Session.beforeEof, SealedEof, ← records, List.map_append, List.takeWhile_append]
  split
  · rename_i whole
    have all := List.takeWhile_eq_self_iff.mp ((List.takeWhile_prefix _).eq_of_length whole)
    refine ⟨?_, ?_⟩
    · rw [List.takeWhile_eq_self_iff.mpr all, List.flatten_append]
      exact List.prefix_append _ _
    · intro sealed
      simpa using all [] sealed
  · exact ⟨List.prefix_refl _, fun _ => rfl⟩

end Session

/-- The operations of the receiver: reading the stream, or receiving records. -/
inductive ReceiveApi where
  | stream
  | records
deriving DecidableEq

/-- A receiver with its session, what it has delivered, whether it has returned an
error, and whether it has reported a clean end of stream. -/
structure Receiver where
  session : Session
  reader : Reader
  delivered : List UInt8
  failed : Bool
  ended : Bool

/-- The moves of the endpoints, of the network and of the receiver. -/
inductive ReceiveMove where
  | peerSeals (aead : Aead) (plaintext : List UInt8)
  | ownSeals (aead : Aead) (plaintext : List UInt8)
  | arrive (arrival : Arrival)
  /-- `poll_read` into a buffer with `cap` bytes left. -/
  | pollRead (aead : Aead) (cap : Nat)
  /-- One turn of a loop over `recv_record`. -/
  | recvRecord (aead : Aead)

namespace Receiver

/-- One `poll_read`. A clean end of stream is an empty fill of a non-empty buffer
without an earlier error. -/
def pollRead (aead : Aead) (cap : Nat) (receiver : Receiver) : Option Receiver :=
  match receiver.reader.pollReadMachine aead cap with
  | (_, none) => none
  | (reader, some .pending) => some { receiver with reader }
  | (reader, some (.failed _)) => some { receiver with reader, failed := true }
  | (reader, some (.ready filled)) =>
      some { receiver with
        reader, delivered := receiver.delivered ++ filled
        ended := receiver.ended || (cap ≠ 0 && filled.isEmpty && !receiver.failed) }

/-- One turn of a loop over `recv_record`, which stops at its first error or empty
record. -/
def recvRecord (aead : Aead) (receiver : Receiver) : Option Receiver :=
  if receiver.failed || receiver.ended then none
  else match receiver.reader.recvRecord aead with
  | none => none
  | some (reader, .error _) => some { receiver with reader, failed := true }
  | some (reader, .ok pt) =>
      some { receiver with reader, delivered := receiver.delivered ++ pt, ended := pt.isEmpty }

end Receiver

/-- One move; a receiver keeps to one of the two ways of receiving. -/
def receiveStep (api : ReceiveApi) (receiver : Receiver) : ReceiveMove → Option Receiver
  | .peerSeals aead plaintext =>
      some { receiver with session := receiver.session.peerSeals aead plaintext }
  | .ownSeals aead plaintext =>
      some { receiver with session := receiver.session.ownSeals aead plaintext }
  | .arrive arrival =>
      some { receiver with
        reader := { receiver.reader with inner := receiver.reader.inner ++ [arrival] } }
  | .pollRead aead cap => if api = .stream then receiver.pollRead aead cap else none
  | .recvRecord aead => if api = .records then receiver.recvRecord aead else none

/-- A receiver right after a handshake. -/
def Receiver.new (session : Session) : Receiver where
  session := session
  reader := { inner := [], recv := .new session.peer.key session.peer.dir, state := .idle }
  delivered := []
  failed := false
  ended := false

/-- A poll is always answered. -/
theorem Receiver.pollRead_isSome (aead : Aead) (cap : Nat) (receiver : Receiver) :
    (receiver.pollRead aead cap).isSome = true := by
  have returns := receiver.reader.pollReadMachine_returns aead cap
  simp only [pollRead]
  split
  · rename_i unanswered
    simp [unanswered] at returns
  · rfl
  · rfl
  · rfl

/-- The receiver of a client or of a server. -/
def receiveMachine (api : ReceiveApi) : Machine where
  State := Receiver
  Label := ReceiveMove
  Initial receiver := ∃ keyC2s keyS2c, receiver = .new (.newClient keyC2s keyS2c) ∨
    receiver = .new (.newServer keyC2s keyS2c)
  step := receiveStep api

/-- The AEAD is ideal whenever the receiver opens something. -/
def IdealAead (receiver : Receiver) : ReceiveMove → Prop
  | .pollRead aead _ | .recvRecord aead => aead.Ideal receiver.session
  | _ => True

/-- How a turn or a whole poll can leave a reader that has not ended, whose caller
has `delivered` so far. -/
inductive PollOutcome (session : Session) (delivered : List UInt8) (next : Reader) :
    Option ReadPoll → Prop where
  | going (unended : next.state ≠ .eof)
      (tracks : session.Tracks next.recv (delivered ++ next.remainder)) :
      PollOutcome session delivered next none
  | pending (unended : next.state ≠ .eof)
      (tracks : session.Tracks next.recv (delivered ++ next.remainder)) :
      PollOutcome session delivered next (some .pending)
  | filled {bytes} (nonempty : bytes ≠ []) (unended : next.state ≠ .eof)
      (tracks : session.Tracks next.recv (delivered ++ bytes ++ next.remainder)) :
      PollOutcome session delivered next (some (.ready bytes))
  | failed {error} (closed : next.state = .eof) :
      PollOutcome session delivered next (some (.failed error))
  | ended (closed : next.state = .eof) (sealed : session.SealedEof)
      (complete : delivered = session.beforeEof) :
      PollOutcome session delivered next (some (.ready []))

section Polls

variable {aead : Aead} {cap : Nat} {session : Session} {reader : Reader} {delivered : List UInt8}

theorem Reader.InFrame.remainder (inFrame : reader.InFrame) : reader.remainder = [] := by
  cases state : reader.state <;> simp_all [Reader.InFrame, Reader.remainder]

theorem Reader.InFrame.ne_eof (inFrame : reader.InFrame) : reader.state ≠ .eof := by
  intro state
  simp [Reader.InFrame, state] at inFrame

/-- One turn under an ideal AEAD. -/
theorem Reader.Turn.outcome {next : Reader} {result : Option ReadPoll}
    (turn : Reader.Turn aead cap reader next result) (room : cap ≠ 0) (ordered : session.Ordered)
    (ideal : aead.Ideal session) (unended : reader.state ≠ .eof)
    (tracks : session.Tracks reader.recv (delivered ++ reader.remainder)) :
    PollOutcome session delivered next result := by
  cases turn with
  | atEof state => exact absurd state unended
  | @drained pt pos state all =>
      have empty : pt.drop pos = [] := List.drop_eq_nil_of_le (by omega)
      refine .going (by simp) ?_
      simpa [Reader.remainder, state, empty] using tracks
  | refused state full => exact absurd full room
  | @copied pt pos count next state positive inside after =>
      have nonempty : (pt.drop pos).take count ≠ [] := by
        rw [ne_eq, ← List.length_eq_zero_iff, List.length_take, List.length_drop]
        omega
      have split : (pt.drop pos).take count ++ pt.drop (pos + count) = pt.drop pos := by
        rw [← List.drop_drop, List.take_append_drop]
      have waiting : reader.remainder = pt.drop pos := by simp [Reader.remainder, state]
      rw [waiting, ← split, ← List.append_assoc] at tracks
      rcases after with ⟨rfl, last⟩ | rfl
      · rw [last, List.drop_length] at tracks
        exact .filled nonempty (by simp) tracks
      · exact .filled nonempty (by simp) tracks
  | started state =>
      refine .going (by simp) ?_
      simpa [Reader.remainder, state] using tracks
  | waited inFrame =>
      refine .pending inFrame.ne_eof ?_
      exact tracks
  | read inFrame shorter stays =>
      refine .going stays.ne_eof ?_
      rw [stays.remainder]
      rw [inFrame.remainder] at tracks
      exact tracks
  | failed => exact .failed rfl
  | @opened inner recv ct pt inFrame shorter opens nonempty =>
      rw [inFrame.remainder, List.append_nil] at tracks
      obtain ⟨rfl, record, found, counter, rfl⟩ := tracks.opened ordered ideal opens
      refine .going (by simp) ?_
      simpa [Reader.remainder] using tracks.advance found counter nonempty
  | marked inFrame opens =>
      rw [inFrame.remainder, List.append_nil] at tracks
      obtain ⟨rfl, record, found, _, empty⟩ := tracks.opened ordered ideal opens
      obtain ⟨sealed, complete⟩ := tracks.complete found empty
      exact .ended rfl sealed complete

/-- A whole poll under an ideal AEAD. -/
theorem Reader.loop_outcome (room : cap ≠ 0) (ordered : session.Ordered)
    (ideal : aead.Ideal session) (fuel : Nat) (unended : reader.state ≠ .eof)
    (tracks : session.Tracks reader.recv (delivered ++ reader.remainder)) :
    PollOutcome session delivered (Reader.loop aead cap fuel reader).1
      (Reader.loop aead cap fuel reader).2 := by
  induction fuel generalizing reader with
  | zero => exact .going unended tracks
  | succ fuel inductionHypothesis =>
      have outcome := (Reader.step_turn aead cap reader).outcome room ordered ideal unended tracks
      simp only [Reader.loop]
      cases stepped : reader.step aead cap with
      | mk next result =>
          rw [stepped] at outcome
          cases result with
          | some result => exact outcome
          | none =>
              cases outcome with
              | going unended tracks => exact inductionHypothesis unended tracks

end Polls

namespace Receiver

/-- What holds of a receiver throughout: it has opened the first records of its
peer and delivered what it does not hold back, or it is atEof. -/
structure Intact (receiver : Receiver) : Prop where
  ordered : receiver.session.Ordered
  delivered : receiver.delivered <+: receiver.session.beforeEof
  ended : receiver.ended = true →
    receiver.session.SealedEof ∧ receiver.delivered = receiver.session.beforeEof

/-- A stream reader is atEof once its state is `Eof`: then an error was returned, or
everything was delivered. -/
structure StreamOpen (receiver : Receiver) : Prop where
  tracks : receiver.reader.state ≠ .eof →
    receiver.session.Tracks receiver.reader.recv (receiver.delivered ++ receiver.reader.remainder)
  clean : receiver.reader.state = .eof → receiver.failed = false →
    receiver.session.SealedEof ∧ receiver.delivered = receiver.session.beforeEof
  failed : receiver.failed = true → receiver.reader.state = .eof
  ended : receiver.ended = true → receiver.reader.state = .eof ∧ receiver.failed = false

/-- A record loop is atEof once it returned an error or an empty record. -/
def RecordsOpen (receiver : Receiver) : Prop :=
  receiver.failed = false → receiver.ended = false →
    receiver.session.Tracks receiver.reader.recv receiver.delivered

/-- The invariant of the two ways of receiving. -/
def Open (api : ReceiveApi) (receiver : Receiver) : Prop :=
  match api with
  | .stream => receiver.StreamOpen
  | .records => receiver.RecordsOpen

variable {receiver next : Receiver} {api : ReceiveApi}

/-- Sealing more keeps the invariant. -/
theorem Intact.grow (intact : receiver.Intact) (isOpen : receiver.Open api) {later : Session}
    (grown : receiver.session.Extends later) (ordered : later.Ordered) :
    Intact { receiver with session := later } ∧ Open api { receiver with session := later } := by
  have complete : receiver.session.SealedEof ∧ receiver.delivered = receiver.session.beforeEof →
      later.SealedEof ∧ receiver.delivered = later.beforeEof := by
    rintro ⟨sealed, all⟩
    exact ⟨grown.sealedEof sealed, all.trans (grown.beforeEof.2 sealed).symm⟩
  refine ⟨⟨ordered, intact.delivered.trans grown.beforeEof.1,
    fun ended => complete (intact.ended ended)⟩, ?_⟩
  cases api with
  | stream =>
      refine ⟨fun unended => ?_, fun atEof clean => complete (isOpen.clean atEof clean),
        isOpen.failed, isOpen.ended⟩
      exact (isOpen.tracks unended).mono grown.key grown.dir grown.records
  | records =>
      intro unfailed unended
      exact (isOpen unfailed unended).mono grown.key grown.dir grown.records

/-- A receiver that has not ended and tracks its peer is intact. -/
theorem intact_of_tracks (ordered : receiver.session.Ordered) {recv : DirectionState}
    {held : List UInt8} (tracks : receiver.session.Tracks recv (receiver.delivered ++ held))
    (unended : receiver.ended = false) : receiver.Intact :=
  ⟨ordered, (List.prefix_append _ _).trans tracks.taken_isPrefix, fun ended => by
    simp [unended] at ended⟩

theorem streamOpen_of_tracks (unended : receiver.reader.state ≠ .eof)
    (tracks : receiver.session.Tracks receiver.reader.recv
      (receiver.delivered ++ receiver.reader.remainder))
    (unfailed : receiver.failed = false) (unreported : receiver.ended = false) :
    receiver.StreamOpen where
  tracks _ := tracks
  clean atEof := absurd atEof unended
  failed failed := by simp [unfailed] at failed
  ended ended := by simp [unreported] at ended

/-- A reader whose state is `Eof` reports the end of stream again. -/
theorem pollReadMachine_eof {reader : Reader} (atEof : reader.state = .eof)
    (aead : Aead) (cap : Nat) : reader.pollReadMachine aead cap = (reader, some (.ready [])) := by
  rw [Reader.pollReadMachine]
  split
  · rfl
  · simp only [Reader.loop, Reader.step, atEof]

/-- A poll of a reader that is atEof changes nothing but the report of the end. -/
theorem StreamOpen.pollRead_eof (streaming : receiver.StreamOpen) (intact : receiver.Intact)
    {aead : Aead} {cap : Nat} (atEof : receiver.reader.state = .eof)
    (moved : receiver.pollRead aead cap = some next) : next.Intact ∧ next.StreamOpen := by
  simp only [pollRead, pollReadMachine_eof atEof, List.append_nil, Option.some.injEq] at moved
  subst moved
  have reported : (receiver.ended || (decide (cap ≠ 0) && ([] : List UInt8).isEmpty &&
      !receiver.failed)) = true →
      receiver.failed = false := by
    intro ended
    rcases Bool.or_eq_true_iff.mp ended with before | now
    · exact (streaming.ended before).2
    · simpa using (Bool.and_eq_true_iff.mp now).2
  refine ⟨⟨intact.ordered, intact.delivered, fun ended => ?_⟩,
    ⟨streaming.tracks, streaming.clean, streaming.failed,
      fun ended => ⟨atEof, reported ended⟩⟩⟩
  exact streaming.clean atEof (reported ended)

/-- A poll keeps the invariant. -/
theorem StreamOpen.pollRead (streaming : receiver.StreamOpen) (intact : receiver.Intact)
    {aead : Aead} {cap : Nat} (ideal : aead.Ideal receiver.session)
    (moved : receiver.pollRead aead cap = some next) : next.Intact ∧ next.StreamOpen := by
  by_cases atEof : receiver.reader.state = .eof
  · exact streaming.pollRead_eof intact atEof moved
  · have unfailed : receiver.failed = false := by
      cases failed : receiver.failed with
      | false => rfl
      | true => exact absurd (streaming.failed failed) atEof
    have unended : receiver.ended = false := by
      cases ended : receiver.ended with
      | false => rfl
      | true => exact absurd (streaming.ended ended).1 atEof
    have tracks := streaming.tracks atEof
    by_cases room : cap = 0
    · have same : next = receiver := by
        simpa [Receiver.pollRead, Reader.pollReadMachine, room] using moved.symm
      rw [same]
      exact ⟨intact, streaming⟩
    · have outcome :=
        Reader.loop_outcome room intact.ordered ideal (receiver.reader.turns + 1) atEof tracks
      simp only [Receiver.pollRead, Reader.pollReadMachine, if_neg room] at moved
      cases polled : Reader.loop aead cap (receiver.reader.turns + 1) receiver.reader with
      | mk reader result =>
          simp only [polled] at moved outcome
          cases outcome with
          | going => cases moved
          | pending state tracks =>
              cases moved
              exact ⟨intact_of_tracks intact.ordered tracks unended,
                streamOpen_of_tracks state tracks unfailed unended⟩
          | @filled bytes nonempty state tracks =>
              have unreported : (receiver.ended || (decide (cap ≠ 0) && bytes.isEmpty &&
                  !receiver.failed)) = false := by
                simp [unended, nonempty]
              simp only [unreported] at moved
              cases moved
              exact ⟨intact_of_tracks intact.ordered tracks rfl,
                streamOpen_of_tracks state tracks unfailed rfl⟩
          | failed closed =>
              cases moved
              exact ⟨⟨intact.ordered, intact.delivered, intact.ended⟩,
                ⟨fun state => absurd closed state,
                fun _ clean => by simp at clean, fun _ => closed,
                fun ended => by simp [unended] at ended⟩⟩
          | ended closed sealed complete =>
              simp only [List.append_nil] at moved
              cases moved
              exact ⟨⟨intact.ordered, intact.delivered, fun _ => ⟨sealed, complete⟩⟩,
                ⟨fun state => absurd closed state, fun _ _ => ⟨sealed, complete⟩,
                  fun failed => by simp [unfailed] at failed, fun _ => ⟨closed, unfailed⟩⟩⟩

/-- Receiving a record keeps the invariant. -/
theorem RecordsOpen.recvRecord (receiving : receiver.RecordsOpen) (intact : receiver.Intact)
    {aead : Aead} (ideal : aead.Ideal receiver.session)
    (moved : receiver.recvRecord aead = some next) : next.Intact ∧ next.RecordsOpen := by
  simp only [Receiver.recvRecord] at moved
  split at moved
  · cases moved
  · rename_i running
    obtain ⟨unfailed, unended⟩ : receiver.failed = false ∧ receiver.ended = false := by
      simpa using running
    have tracks := receiving unfailed unended
    split at moved
    · cases moved
    · cases moved
      exact ⟨⟨intact.ordered, intact.delivered, intact.ended⟩,
        fun clean => by simp at clean⟩
    · rename_i reader pt received
      cases moved
      obtain ⟨ct, opens⟩ := Reader.recvRecord_eq_ok received
      obtain ⟨advanced, record, found, counter, rfl⟩ := tracks.opened intact.ordered ideal opens
      by_cases empty : record.plaintext = []
      · obtain ⟨sealed, complete⟩ := tracks.complete found empty
        refine ⟨⟨intact.ordered, ?_, fun _ => ⟨sealed, ?_⟩⟩,
          fun _ ended => by simp [empty] at ended⟩
        · simpa [empty] using intact.delivered
        · simpa [empty] using complete
      · have later := tracks.advance found counter empty
        rw [← advanced] at later
        have all : receiver.session.Tracks reader.recv
            (receiver.delivered ++ record.plaintext ++ []) := by
          rwa [List.append_nil]
        exact ⟨intact_of_tracks intact.ordered all (by simpa using empty), fun _ _ => later⟩

/-- Every move keeps the invariant. -/
theorem Intact.step (intact : receiver.Intact) (isOpen : receiver.Open api) {move : ReceiveMove}
    (ideal : IdealAead receiver move) (moved : receiveStep api receiver move = some next) :
    next.Intact ∧ next.Open api := by
  cases move with
  | peerSeals aead plaintext =>
      cases moved
      exact intact.grow isOpen (Session.extends_peerSeals aead plaintext)
        (intact.ordered.peerSeals aead plaintext)
  | ownSeals aead plaintext =>
      cases moved
      exact intact.grow isOpen (Session.extends_ownSeals aead plaintext)
        (intact.ordered.ownSeals aead plaintext)
  | arrive arrival =>
      cases moved
      refine ⟨⟨intact.ordered, intact.delivered, intact.ended⟩, ?_⟩
      cases api with
      | stream => exact ⟨isOpen.tracks, isOpen.clean, isOpen.failed, isOpen.ended⟩
      | records => exact isOpen
  | pollRead aead cap =>
      obtain ⟨rfl, moved⟩ := Option.ite_none_right_eq_some.mp moved
      exact StreamOpen.pollRead isOpen intact ideal moved
  | recvRecord aead =>
      obtain ⟨rfl, moved⟩ := Option.ite_none_right_eq_some.mp moved
      exact RecordsOpen.recvRecord isOpen intact ideal moved

/-- A receiver starts intact. -/
theorem intact_new (session : Session) (ordered : session.Ordered) :
    (Receiver.new session).Intact ∧ (Receiver.new session).Open api := by
  have tracks : session.Tracks (.new session.peer.key session.peer.dir) [] :=
    ⟨rfl, rfl, Nat.zero_le _, by simp [DirectionState.new], by simp [DirectionState.new],
      by simp [DirectionState.new]⟩
  refine ⟨⟨ordered, List.nil_prefix, by simp [Receiver.new]⟩, ?_⟩
  cases api with
  | stream => exact streamOpen_of_tracks (by simp [Receiver.new]) tracks rfl rfl
  | records => exact fun _ _ => tracks

end Receiver

/-- Under an ideal AEAD, whatever the network does and however the receiver polls:
what it delivers is the beginning of what its peer sealed before the first empty
record, and it reports a clean end of stream only if that record was sealed and
everything before it delivered. -/
theorem receiver_stream_integrity (api : ReceiveApi) {receiver : Receiver}
    (reachable : (receiveMachine api).Reachable IdealAead receiver) :
    receiver.delivered <+: receiver.session.beforeEof ∧
      (receiver.ended = true →
        receiver.session.SealedEof ∧ receiver.delivered = receiver.session.beforeEof) := by
  have kept : receiver.Intact ∧ receiver.Open api := by
    refine reachable.invariant (fun state => Receiver.Intact state ∧
      Receiver.Open api state) ?_ ?_
    · rintro start ⟨keyC2s, keyS2c, rfl | rfl⟩
      · exact Receiver.intact_new _ (Session.ordered_newClient keyC2s keyS2c)
      · exact Receiver.intact_new _ (Session.ordered_newServer keyC2s keyS2c)
    · intro state move next holds ideal moved
      exact holds.1.step holds.2 ideal moved
  exact ⟨kept.1.delivered, kept.1.ended⟩

/-- An AEAD without secrets: a ciphertext is the plaintext with an empty tag, and
it opens what the peer sealed. -/
def plainAead (session : Session) : Aead where
  encrypt _ _ plaintext := some (plaintext ++ List.replicate tagLen 0)
  decrypt key nonce ciphertext :=
    session.records.findSome? fun record =>
      if session.peer.key = key ∧ nonceOf session.peer.dir record.counter = nonce ∧
        record.ciphertext = ciphertext then some record.plaintext else none

theorem plainAead_ideal (session : Session) : (plainAead session).Ideal session := by
  intro key nonce ciphertext plaintext opened
  obtain ⟨record, member, matched⟩ := List.exists_of_findSome?_eq_some opened
  obtain ⟨⟨sameKey, sameNonce, sameText⟩, same⟩ := Option.ite_none_right_eq_some.mp matched
  exact .inl ⟨sameKey, record, member, sameNonce, Option.some.inj same, sameText⟩

/-- A `poll_read` under that AEAD. -/
def plainPoll (receiver : Receiver) : Option Receiver :=
  receiveStep .stream receiver (.pollRead (plainAead receiver.session) 8)

/-- A run goes on with such a poll. -/
theorem runs_plainPoll {start receiver next : Receiver} {moves : List ReceiveMove}
    (run : (receiveMachine .stream).Runs IdealAead start moves receiver)
    (polled : plainPoll receiver = some next) :
    (receiveMachine .stream).Runs IdealAead start
      (moves ++ [.pollRead (plainAead receiver.session) 8]) next :=
  .snoc run (plainAead_ideal receiver.session) polled

/-- Moves that open nothing. -/
def opensNothing (_ : Receiver) : ReceiveMove → Bool
  | .pollRead _ _ | .recvRecord _ => false
  | _ => true

theorem idealAead_of_opensNothing (receiver : Receiver) (move : ReceiveMove)
    (nothing : opensNothing receiver move = true) : IdealAead receiver move := by
  cases move <;> simp_all [opensNothing, IdealAead]

/-- The client of a session under two fixed keys. -/
def plainClient : Receiver :=
  .new (.newClient (.replicate 32 1) (.replicate 32 2))

/-- Two bytes and the end-of-stream marker, in two pieces that do not respect the
frames, are delivered with a clean end. -/
theorem receiver_stream_integrity_hi :
    ∃ receiver : Receiver, receiver.ended = true ∧ receiver.delivered = [104, 105] ∧
      receiver.session.SealedEof ∧ receiver.delivered = receiver.session.beforeEof := by
  have evaluated : ((receiveMachine .stream).execChecked opensNothing plainClient
      [.peerSeals (plainAead plainClient.session) [104, 105],
        .peerSeals (plainAead plainClient.session) [], .arrive (.chunk 0 [0, 0]), .arrive .pending,
        .arrive (.chunk 18 ([104, 105] ++ List.replicate 16 0 ++ [0, 0, 0, 16] ++
          List.replicate 16 0))]).any (fun (sent : Receiver) =>
      (((plainPoll sent).bind plainPoll).bind plainPoll).any (fun (receiver : Receiver) =>
        receiver.ended = true ∧ receiver.delivered = [104, 105])) = true := by
    decide +kernel
  obtain ⟨sent, executed, polled⟩ := (Option.any_eq_true _ _).mp evaluated
  obtain ⟨receiver, polls, facts⟩ := (Option.any_eq_true _ _).mp polled
  obtain ⟨second, polls, third⟩ := Option.bind_eq_some_iff.mp polls
  obtain ⟨first, polls, later⟩ := Option.bind_eq_some_iff.mp polls
  obtain ⟨ended, delivered⟩ := of_decide_eq_true facts
  have sending := (Machine.Runs.of_execChecked executed).mono idealAead_of_opensNothing
  have run := runs_plainPoll (runs_plainPoll (runs_plainPoll sending polls) later) third
  obtain ⟨_, complete⟩ :=
    receiver_stream_integrity .stream ⟨plainClient, _, ⟨_, _, .inl rfl⟩, run⟩
  exact ⟨receiver, ended, delivered, complete ended⟩

end CofreSoberano.Transport

import Mathlib.Data.List.Forall2
import CofreSoberano.Channel.Writer

/-!
# Where accepted events are

Every accepted event is in one place: the queue, the pending batch, the live log,
a sealed segment, or given up by a failed flush. A flush whose append fails gives
up the rest of its batch with a single count of the failure, so failures cover
the events given up only where it was the last event of a batch that failed.
-/

namespace CofreSoberano.Channel

open CofreSoberano.Std CofreSoberano.Audit

/-- The tickets of the events that a segment's entries were appended for. -/
def Segment.tickets (segment : Segment) : List Nat := segment.origins.filterMap id

/-- Each entry of a segment that has a ticket holds the event of that ticket. -/
def Segment.Matches (accepted : List AuditEvent) (segment : Segment) : Prop :=
  List.Forall₂ (fun origin entry => ∀ ticket, origin = some ticket →
    accepted[ticket]? = some entry.event) segment.origins segment.log.entries

/-- The tickets in all the places where an accepted event can be. -/
def Ledger.places (ledger : Ledger) : List Nat :=
  ledger.queue.map Accepted.ticket ++ ledger.pending.map Accepted.ticket ++ ledger.live.tickets ++
    ledger.sealed.flatMap Segment.tickets ++ ledger.dropped.map Accepted.ticket

/-- Every accepted event is in exactly one place, as the event it was, and the
failures of `flush` cover those given up. -/
structure Ledger.Accounted (ledger : Ledger) : Prop where
  places : ledger.places.Perm (List.range ledger.accepted.length)
  waiting : ∀ item ∈ ledger.queue ++ ledger.pending ++ ledger.dropped,
    ledger.accepted[item.ticket]? = some item.event
  logged : ∀ segment ∈ ledger.live :: ledger.sealed, segment.Matches ledger.accepted
  counted : ledger.dropped.length ≤ ledger.flushFailures

/-- If an append fails, it is for the last event of the batch. -/
def failsLast (crates : Crates) (writer : Writer) : WriterMove → Bool
  | .append sign _ =>
      match writer.ledger.pending with
      | [] => true
      | next :: rest => writer.ledger.live.log.signs crates next.event sign || rest.isEmpty
  | _ => true

/-- What was accepted stays where it is in the list. -/
theorem getElem?_of_isPrefix {before after : List AuditEvent} (grown : before <+: after) {i : Nat}
    {event : AuditEvent} (found : before[i]? = some event) : after[i]? = some event := by
  obtain ⟨inside, rfl⟩ := List.getElem?_eq_some_iff.mp found
  exact List.prefix_iff_getElem?.mp grown i inside

theorem Segment.Matches.mono {before after : List AuditEvent} {segment : Segment}
    (holds : segment.Matches before) (grown : before <+: after) : segment.Matches after := by
  refine List.Forall₂.imp ?_ holds
  intro origin entry same ticket found
  exact getElem?_of_isPrefix grown (same ticket found)

/-- An entry at the end of a segment, with its ticket if it has one. -/
theorem Segment.Matches.concat {accepted : List AuditEvent} {segment : Segment}
    (holds : segment.Matches accepted) {log : AuditLog} {entry : LogEntry} {origin : Option Nat}
    (entries : log.entries = segment.log.entries ++ [entry])
    (same : ∀ ticket, origin = some ticket → accepted[ticket]? = some entry.event) :
    Segment.Matches accepted { log, origins := segment.origins ++ [origin] } := by
  rw [Segment.Matches, entries]
  exact List.rel_append holds (.cons same .nil)

namespace Ledger.Accounted

variable {crates : Crates} {codec : LogCodec} {config : WriterConfig} {ledger : Ledger}

theorem accept (accounted : ledger.Accounted) (event : AuditEvent) :
    (ledger.accept event).Accounted := by
  have grown : ledger.accepted <+: ledger.accepted ++ [event] := List.prefix_append _ _
  refine ⟨?_, ?_, fun segment member => (accounted.logged segment member).mono grown,
    accounted.counted⟩
  · have added : (ledger.accept event).places.Perm
        (ledger.places ++ [ledger.accepted.length]) := by
      rw [List.perm_iff_count]
      intro ticket
      simp only [Ledger.places, Ledger.accept, List.map_append, List.map_cons, List.map_nil,
        List.count_append]
      omega
    simp only [Ledger.accept, List.length_append, List.length_singleton, List.range_succ]
    exact added.trans (accounted.places.append_right _)
  · intro item member
    have cases : item ∈ ledger.queue ++ ledger.pending ++ ledger.dropped ∨
        item = ⟨ledger.accepted.length, event⟩ := by
      simp only [Ledger.accept, List.mem_append, List.mem_singleton] at member ⊢
      tauto
    rcases cases with old | rfl
    · exact getElem?_of_isPrefix grown (accounted.waiting item old)
    · exact List.getElem?_concat_length

/-- Moving an event keeps the account, if its places and its event stay those that
were accepted. -/
theorem moved (accounted : ledger.Accounted) {after : Ledger}
    (sameAccepted : after.accepted = ledger.accepted) (samePlaces : after.places.Perm ledger.places)
    (waiting : ∀ item ∈ after.queue ++ after.pending ++ after.dropped,
      item ∈ ledger.queue ++ ledger.pending ++ ledger.dropped)
    (logged : ∀ segment ∈ after.live :: after.sealed, segment.Matches ledger.accepted)
    (counted : after.dropped.length ≤ after.flushFailures) : after.Accounted where
  places := sameAccepted ▸ samePlaces.trans accounted.places
  waiting := by
    intro item member
    rw [sameAccepted]
    exact accounted.waiting item (waiting item member)
  logged := by rwa [sameAccepted]
  counted := counted

theorem receive (accounted : ledger.Accounted) {next : Accepted} {rest : List Accepted}
    (queued : ledger.queue = next :: rest) : (ledger.receive next rest).Accounted := by
  refine accounted.moved rfl ?_ ?_ accounted.logged accounted.counted
  · rw [List.perm_iff_count]
    intro ticket
    simp only [Ledger.places, Ledger.receive, queued, List.map_append, List.map_cons, List.map_nil,
      List.count_append, List.count_cons, List.count_nil]
    omega
  · intro item member
    simp only [Ledger.receive, queued, List.mem_append, List.mem_cons,
      List.not_mem_nil] at member ⊢
    tauto

theorem appended (accounted : ledger.Accounted) {next : Accepted} {rest : List Accepted}
    (batch : ledger.pending = next :: rest) {log : AuditLog} {entry : LogEntry} {sign : SignCall}
    {now : Timestamp}
    (committed : ledger.live.log.append crates next.event sign now = (log, .ok entry)) :
    (ledger.appended log next rest).Accounted := by
  have own : ledger.accepted[next.ticket]? = some next.event :=
    accounted.waiting next (by simp [batch])
  refine accounted.moved rfl ?_ ?_ ?_ accounted.counted
  · rw [List.perm_iff_count]
    intro ticket
    simp only [Ledger.places, Ledger.appended, batch, Segment.tickets, List.filterMap_append,
      List.filterMap_cons, List.filterMap_nil, id, List.map_cons, List.count_append,
      List.count_cons, List.count_nil]
    omega
  · intro item member
    simp only [Ledger.appended, batch, List.mem_append, List.mem_cons] at member ⊢
    tauto
  · intro segment member
    rcases List.mem_cons.mp member with rfl | older
    · rcases ledger.live.log.append_cases crates next.event sign now with
        ⟨failure, failed⟩ | ⟨_, signature, _, _, same⟩
      · rw [failed] at committed
        cases committed
      · rw [same] at committed
        cases committed
        refine (accounted.logged _ List.mem_cons_self).concat rfl ?_
        rintro ticket ⟨⟩
        exact own
    · exact accounted.logged segment (List.mem_cons_of_mem _ older)

/-- A failed append keeps the account if it was for the last event of the batch. -/
theorem abandoned (accounted : ledger.Accounted) {next : Accepted}
    (batch : ledger.pending = [next]) {log : AuditLog} {failure : Error} {sign : SignCall}
    {now : Timestamp}
    (failed : ledger.live.log.append crates next.event sign now = (log, .error failure)) :
    (ledger.abandoned log [next]).Accounted := by
  refine accounted.moved rfl ?_ ?_ ?_ ?_
  · rw [List.perm_iff_count]
    intro ticket
    simp only [Ledger.places, Ledger.abandoned, batch, Segment.tickets,
      List.map_append, List.map_cons, List.map_nil, List.count_append, List.count_nil]
    omega
  · intro item member
    simp only [Ledger.abandoned, batch, List.mem_append, List.mem_cons,
      List.not_mem_nil] at member ⊢
    tauto
  · intro segment member
    rcases List.mem_cons.mp member with rfl | older
    · rcases ledger.live.log.append_cases crates next.event sign now with
        ⟨_, unchanged⟩ | ⟨_, _, _, _, same⟩
      · rw [unchanged] at failed
        cases failed
        exact accounted.logged _ List.mem_cons_self
      · rw [same] at failed
        cases failed
    · exact accounted.logged segment (List.mem_cons_of_mem _ older)
  · have counted := accounted.counted
    simp only [Ledger.abandoned, List.length_append, List.length_singleton]
    omega

theorem saved (accounted : ledger.Accounted) (path : Path) (faults : SaveFaults) :
    (ledger.save codec path faults).1.Accounted := by
  refine accounted.moved rfl (.refl _) (fun _ member => member) accounted.logged ?_
  refine accounted.counted.trans ?_
  simp only [Ledger.save]
  split <;> omega

theorem rotated (accounted : ledger.Accounted) (rotations : Nat) (req : RotationRequest)
    (env : RotationEnv) :
    (ledger.rotated crates codec config.path req env (performRotation crates codec
      config.hasFactory ledger.live.log rotations config.path req env ledger.disk)).Accounted := by
  rcases ledger.rotated_cases crates codec config rotations req env with
    ⟨files, after, _⟩ | ⟨closed, newOpen, files, prepared, after, _⟩
  · rw [after]
    exact accounted.moved rfl (.refl _) (fun _ member => member) accounted.logged accounted.counted
  · rw [after]
    refine accounted.moved rfl ?_ (fun _ member => member) ?_ accounted.counted
    · rw [List.perm_iff_count]
      intro ticket
      simp only [Ledger.places, Segment.tickets, List.flatMap_append,
        List.flatMap_cons, List.flatMap_nil, List.filterMap_append, List.filterMap_cons,
        List.filterMap_nil, id, List.append_nil, List.count_append]
      omega
    · have rotates := prepareRotation_rotates prepared
      obtain ⟨last, closing, _⟩ := rotates.closing
      obtain ⟨first, opening, _⟩ := rotates.opening
      intro segment member
      simp only [List.mem_cons, List.mem_append, List.not_mem_nil, or_false] at member
      rcases member with rfl | older | rfl
      · rw [Segment.Matches, opening]
        exact .cons (by simp) .nil
      · exact accounted.logged segment (List.mem_cons_of_mem _ older)
      · exact (accounted.logged _ List.mem_cons_self).concat closing (by simp)

/-- Every move keeps the account if an append fails only at the end of a batch. -/
theorem step {writer : Writer} {move : WriterMove} {after : Ledger}
    (accounted : writer.ledger.Accounted) (guarded : failsLast crates writer move = true)
    (moved : LedgerMove crates codec config move writer.ledger after) : after.Accounted := by
  cases moved with
  | idle => exact accounted
  | accept => exact accounted.accept _
  | receive queued => exact accounted.receive queued
  | appended batch committed => exact accounted.appended batch committed
  | @abandoned _ next rest _ _ sign now batch failed =>
      have unsigned : writer.ledger.live.log.signs crates next.event sign = false := by
        rw [← AuditLog.append_isOk crates _ _ _ now, failed]
        rfl
      have last : rest = [] := by simpa [failsLast, batch, unsigned] using guarded
      subst last
      exact accounted.abandoned batch failed
  | saved => exact accounted.saved _ _
  | rotated rotations req => exact accounted.rotated rotations req _

end Ledger.Accounted

/-- A channel that has just been spawned has nothing to account for. -/
theorem accounted_spawn (log : AuditLog) (disk : Disk) :
    (Writer.spawn log disk).ledger.Accounted where
  places := by
    simp [Ledger.places, Writer.spawn, Segment.tickets]
  waiting := by simp [Writer.spawn]
  logged := by
    intro segment member
    obtain rfl : segment = ⟨log, List.replicate log.entries.length none⟩ := by
      simpa [Writer.spawn] using member
    rw [Segment.Matches, List.forall₂_iff_get]
    refine ⟨List.length_replicate, ?_⟩
    simp
  counted := le_rfl

/-- In every run in which appends fail only for the last event of a batch, every
accepted event is in exactly one place at every point, and no more events were
given up than failures counted. -/
theorem auditChannel_accounted (crates : Crates) (codec : LogCodec) (config : WriterConfig)
    {writer : Writer}
    (reachable : (writerMachine crates codec config).Reachable
      (fun writer move => failsLast crates writer move = true) writer) :
    writer.ledger.Accounted := by
  obtain ⟨start, moves, ⟨log, disk, rfl⟩, run⟩ := reachable
  refine ledger_invariant Ledger.Accounted (accounted_spawn log disk) ?_ run
  intro writer move ledger accounted guarded moved
  exact accounted.step guarded moved

/-- A channel of the transparent primitives. -/
def plainConfig (batchSize : Nat) : WriterConfig :=
  { path := "audit.qa", capacity := 16, batchSize, hasFactory := true }

/-- That channel spawned on a new log without files. -/
def plainWriter : Writer := .spawn plainLog fun _ => none

/-- A batch of one event whose append fails. -/
theorem auditChannel_accounted_single :
    ∃ writer : Writer, writer.ledger.dropped.length = 1 ∧ writer.ledger.flushFailures = 1 ∧
      writer.ledger.Accounted := by
  have evaluated : ((writerMachine plainCrates cborCodec (plainConfig 1)).execChecked
      (failsLast plainCrates) plainWriter [.emit loginEvent, .pollRotation, .pollEvent, .fill,
        .append failingSign "2026-05-01T00:00:02Z"]).any (fun (writer : Writer) =>
          writer.ledger.dropped.length = 1 ∧ writer.ledger.flushFailures = 1) = true := by
    decide +kernel
  obtain ⟨writer, executed, counts⟩ := (Option.any_eq_true _ _).mp evaluated
  have counts := of_decide_eq_true counts
  exact ⟨writer, counts.1, counts.2, auditChannel_accounted plainCrates cborCodec (plainConfig 1)
    ⟨plainWriter, _, ⟨_, _, rfl⟩, .of_execChecked executed⟩⟩

/-- A batch of two events whose first append fails is given up whole, and counted
as one failure. -/
theorem auditChannel_drops_uncounted :
    ¬ ∀ writer : Writer, (writerMachine plainCrates cborCodec (plainConfig 2)).Reachable
      (writerMachine plainCrates cborCodec (plainConfig 2)).Free writer →
        writer.ledger.Accounted := by
  intro accounted
  have evaluated : ((writerMachine plainCrates cborCodec (plainConfig 2)).exec plainWriter
      [.emit loginEvent, .emit loginEvent, .pollRotation, .pollEvent, .fill, .fill,
        .append failingSign "2026-05-01T00:00:02Z"]).any (fun (writer : Writer) =>
          writer.ledger.dropped.length = 2 ∧ writer.ledger.flushFailures = 1) = true := by
    decide +kernel
  obtain ⟨writer, executed, counts⟩ := (Option.any_eq_true _ _).mp evaluated
  have counts := of_decide_eq_true counts
  have counted := (accounted writer (.of_exec ⟨_, _, rfl⟩ executed)).counted
  omega

end CofreSoberano.Channel

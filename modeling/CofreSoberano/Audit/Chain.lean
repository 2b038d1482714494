import CofreSoberano.Audit.History
import CofreSoberano.Audit.ChainLink
import Mathlib.Data.List.Chain

/-!
# Chains that rotation builds

A chain starts with one root log that a signer is bound to. Appends go to its open
end, rotations seal the open end and continue with a successor, and any sealed
segment may be written and read back at any time. Whatever the order, the segments
so far are a chain that `verify_chain` accepts, and so are the first of them.
-/

namespace CofreSoberano.Audit

open CofreSoberano.Std

/-- The sealed segments, oldest first, and the log that is open. -/
structure ChainRun where
  sealed : List AuditLog
  live : AuditLog

/-- All segments, oldest first. -/
def ChainRun.segments (run : ChainRun) : List AuditLog := run.sealed ++ [run.live]

/-- The operations on a chain. -/
inductive ChainOp where
  /-- `append` to the open log; `sign` is what its signer returns at this call. -/
  | append (event : AuditEvent) (sign : SignCall) (now : Timestamp)
  /-- `rotate_to` on the open log. -/
  | rotate (newSigner : Signer) (newLabel newLogIdHex : String) (draws : RotationDraws)
  /-- `save_to` of a sealed segment, and `read_from` what it wrote in its place. -/
  | reload (position : Nat)

/-- One operation. A failed append leaves the chain as it is, a failed rotation
consumes the open log and ends the run. -/
def chainStep (crates : Crates) (codec : LogCodec) (run : ChainRun) : ChainOp → Option ChainRun
  | .append event sign now => some { run with live := (run.live.append crates event sign now).1 }
  | .rotate newSigner newLabel newLogIdHex draws =>
      match run.live.rotateTo crates newSigner newLabel newLogIdHex draws with
      | .ok (closed, next) => some { sealed := run.sealed ++ [closed], live := next }
      | .error _ => none
  | .reload position =>
      run.sealed[position]?.bind fun segment =>
        match AuditLog.readFrom crates codec (segment.saveTo codec) with
        | .ok read => some { run with sealed := run.sealed.set position read }
        | .error _ => none

/-- The ways to a root log with a bound signer: a new log, or one that was read
from any file and accepted a signer. -/
inductive AuditLog.RootLog (crates : Crates) (codec : LogCodec) : AuditLog → Prop where
  | created {signer : Signer} (label : String) (logId : LogId) (now : Timestamp)
      (wellFormed : signer.publicKey.bytes.length = publicKeyLen) :
      RootLog crates codec (.createWithSigner signer label logId now)
  | bound {input : List UInt8} {opened log : AuditLog} {signer : Signer}
      (read : AuditLog.readFrom crates codec input = .ok opened)
      (root : opened.header.prevLogId = none ∧ opened.header.prevLogFinalRoot = none)
      (bound : opened.bindSigner crates signer = (log, .ok ())) : RootLog crates codec log

/-- Chains start with a root log that a signer is bound to. -/
def chainMachine (crates : Crates) (codec : LogCodec) : Machine where
  State := ChainRun
  Label := ChainOp
  Initial run := run.sealed = [] ∧ run.live.RootLog crates codec
  step := chainStep crates codec

/-- Keys are well formed, and every signature that is made verifies. -/
def ChainKeepsContract (crates : Crates) (run : ChainRun) : ChainOp → Prop
  | .append _ sign _ =>
      ∀ signer, run.live.signer = some signer → sign.Honours crates signer.publicKey
  | .rotate newSigner _ _ draws =>
      newSigner.publicKey.bytes.length = publicKeyLen ∧
        draws.signOpen.Honours crates newSigner.publicKey ∧
        ∀ signer, run.live.signer = some signer →
          draws.signClose.Honours crates signer.publicKey
  | .reload _ => True

/-- Sound segments, linked throughout, behind a root. -/
structure Chained (crates : Crates) (segments : List AuditLog) : Prop where
  sound : ∀ log ∈ segments, log.Sound crates
  root : ∀ first, segments.head? = some first →
    first.header.prevLogId = none ∧ first.header.prevLogFinalRoot = none
  linked : segments.IsChain (Linked crates)

/-- `verify_chain` accepts every such chain that is not empty. -/
theorem Chained.verifyChain {crates : Crates} {segments : List AuditLog}
    (chained : Chained crates segments) (nonempty : segments ≠ []) :
    AuditLog.verifyChain crates segments = .ok () := by
  cases segments with
  | nil => exact absurd rfl nonempty
  | cons first rest =>
      refine verifyChain_of_linked ?_ (chained.root first rfl) chained.linked
      exact fun log member => (chained.sound log member).verify

/-- The first segments of a chain are a chain. -/
theorem Chained.front {crates : Crates} {front segments : List AuditLog}
    (chained : Chained crates segments) (isFront : front <+: segments) : Chained crates front := by
  obtain ⟨back, rfl⟩ := isFront
  refine ⟨?_, ?_, chained.linked.left_of_append⟩
  · exact fun log member => chained.sound log (List.mem_append_left back member)
  · intro first isFirst
    exact chained.root first (by rw [List.head?_append, isFirst]; rfl)

/-- Entries may be added to the last segment, and its signer may change. -/
theorem Chained.extend {crates : Crates} {segments : List AuditLog} {log longer : AuditLog}
    (chained : Chained crates (segments ++ [log])) (sound : longer.Sound crates)
    (header : longer.header = log.header) (grown : log.entries <+: longer.entries) :
    Chained crates (segments ++ [longer]) := by
  have front : Chained crates segments := chained.front (List.prefix_append segments [log])
  refine ⟨?_, ?_, ?_⟩
  · exact List.forall_mem_append.mpr ⟨front.sound, List.forall_mem_singleton.mpr sound⟩
  · intro first isFirst
    cases segments with
    | nil =>
        cases isFirst
        rw [header]
        exact chained.root log rfl
    | cons head _ =>
        exact front.root first isFirst
  · have joints := List.isChain_append.mp chained.linked
    refine List.isChain_append.mpr ⟨joints.1, .singleton _, ?_⟩
    rintro last isLast next ⟨⟩
    exact (joints.2.2 last isLast log rfl).extend header grown

/-- A linked successor may follow the last segment. -/
theorem Chained.succeed {crates : Crates} {segments : List AuditLog} {last next : AuditLog}
    (chained : Chained crates (segments ++ [last])) (sound : next.Sound crates)
    (linked : Linked crates last next) : Chained crates (segments ++ [last] ++ [next]) := by
  refine ⟨?_, ?_, ?_⟩
  · exact List.forall_mem_append.mpr ⟨chained.sound, List.forall_mem_singleton.mpr sound⟩
  · intro first isFirst
    rw [List.head?_append_of_ne_nil _ (by simp)] at isFirst
    exact chained.root first isFirst
  · refine List.isChain_append.mpr ⟨chained.linked, .singleton _, ?_⟩
    rintro before isBefore after ⟨⟩
    rw [List.getLast?_concat] at isBefore
    cases isBefore
    exact linked

/-- A log without its signer, as it is read back. -/
def AuditLog.unsigned (log : AuditLog) : AuditLog := { log with signer := none }

/-- Losing its signer does not change the links of a log. -/
theorem linked_unsigned {crates : Crates} {prev next : AuditLog} :
    Linked crates prev.unsigned next.unsigned ↔ Linked crates prev next :=
  ⟨fun linked => ⟨linked.closed, linked.prevLogId, linked.prevRoot, linked.opened⟩,
    fun linked => ⟨linked.closed, linked.prevLogId, linked.prevRoot, linked.opened⟩⟩

/-- Any segment may lose its signer. -/
theorem Chained.unsign {crates : Crates} {segments : List AuditLog} {position : Nat}
    {segment : AuditLog} (chained : Chained crates segments)
    (found : segments[position]? = some segment) :
    Chained crates (segments.set position segment.unsigned) := by
  -- Without signers the two lists are the same.
  have same : (segments.set position segment.unsigned).map AuditLog.unsigned =
      segments.map AuditLog.unsigned := by
    rw [List.map_set]
    refine List.ext_getElem? fun i => ?_
    rw [List.getElem?_set]
    split
    · rename_i here
      obtain ⟨inside, _⟩ := List.getElem?_eq_some_iff.mp found
      rw [if_pos (by simpa using inside), ← here, List.getElem?_map, found]
      rfl
    · rfl
  refine ⟨?_, ?_, ?_⟩
  · intro log member
    rcases List.mem_or_eq_of_mem_set member with old | rfl
    · exact chained.sound log old
    · have sound := chained.sound segment (List.mem_of_getElem? found)
      exact ⟨sound.header, sound.linked, sound.tree, by simp [AuditLog.unsigned]⟩
  · intro first isFirst
    have heads := congrArg List.head? same
    rw [List.head?_map, List.head?_map, isFirst] at heads
    obtain ⟨old, isOld, sameHead⟩ := Option.map_eq_some_iff.mp heads.symm
    have header : old.unsigned.header = first.unsigned.header := congrArg AuditLog.header sameHead
    have header : old.header = first.header := header
    rw [← header]
    exact chained.root old isOld
  · have unsigned := List.isChain_map_of_isChain AuditLog.unsigned
      (fun _ _ => linked_unsigned.mpr) chained.linked
    rw [← same] at unsigned
    exact List.isChain_of_isChain_map AuditLog.unsigned (fun _ _ => linked_unsigned.mp) unsigned

/-- A rotation hands over a log with the header and the entries it had, and the
closing entry. -/
theorem AuditLog.closed_of_rotateTo {crates : Crates} {log closed next : AuditLog}
    {newSigner : Signer} {newLabel newLogIdHex : String} {draws : RotationDraws}
    (rotated : log.rotateTo crates newSigner newLabel newLogIdHex draws = .ok (closed, next)) :
    closed.header = log.header ∧ log.entries <+: closed.entries := by
  obtain ⟨_, _, _, _, _, _, _, rfl, _, _⟩ := rotateTo_cases rotated
  exact ⟨rfl, List.prefix_append _ _⟩

/-- A log that a signer was bound to after reading it is sound. -/
theorem AuditLog.RootLog.sound {crates : Crates} {codec : LogCodec} {log : AuditLog}
    (root : log.RootLog crates codec) : log.Sound crates := by
  cases root with
  | created label logId now wellFormed =>
      exact sound_createWithSigner crates label logId now wellFormed
  | @bound input opened _ signer read _ bound =>
      rcases opened.bindSigner_cases crates signer with
        ⟨_, failed⟩ | ⟨sameKey, verified, changed⟩
      · rw [failed] at bound
        cases bound
      · rw [changed] at bound
        cases bound
        obtain ⟨_, header, linked⟩ := bind_eq_ok.mp verified
        refine ⟨header, linked, (AuditLog.Built.opened read).tree, ?_⟩
        rintro bound ⟨⟩
        exact sameKey

/-- It refers to no earlier log. -/
theorem AuditLog.RootLog.root {crates : Crates} {codec : LogCodec} {log : AuditLog}
    (root : log.RootLog crates codec) :
    log.header.prevLogId = none ∧ log.header.prevLogFinalRoot = none := by
  cases root with
  | created label logId now wellFormed => exact ⟨rfl, rfl⟩
  | @bound input opened _ signer read root bound =>
      rcases opened.bindSigner_cases crates signer with ⟨_, failed⟩ | ⟨_, _, changed⟩
      · rw [failed] at bound
        cases bound
      · rw [changed] at bound
        cases bound
        exact root

/-- Every operation under the contract keeps the segments a chain. -/
theorem Chained.step {crates : Crates} {codec : LogCodec} {run next : ChainRun} {op : ChainOp}
    (chained : Chained crates run.segments) (contract : ChainKeepsContract crates run op)
    (moved : chainStep crates codec run op = some next) : Chained crates next.segments := by
  have sound : run.live.Sound crates := chained.sound run.live (by simp [ChainRun.segments])
  cases op with
  | append event sign now =>
      cases moved
      rcases run.live.append_cases crates event sign now with
        ⟨_, failed⟩ | ⟨signer, signature, bound, signed, committed⟩
      · rw [failed]
        exact chained
      · rw [committed]
        have honours := sound.bound signer bound ▸ contract signer bound
        refine chained.extend (sound.commit (sound.links (honours _ _ signed))) rfl ?_
        exact List.prefix_append _ _
  | rotate newSigner newLabel newLogIdHex draws =>
      simp only [chainStep] at moved
      split at moved
      · rename_i closed opened rotated
        cases moved
        obtain ⟨wellFormed, openHonours, closeHonours⟩ := contract
        obtain ⟨_, _, _, signer, _, bound, _⟩ := AuditLog.rotateTo_cases rotated
        obtain ⟨closedSound, openedSound⟩ := sound.rotateTo wellFormed
          (sound.bound signer bound ▸ closeHonours signer bound) openHonours rotated
        obtain ⟨header, grown⟩ := AuditLog.closed_of_rotateTo rotated
        exact (chained.extend closedSound header grown).succeed openedSound
          (AuditLog.linked_of_rotateTo rotated)
      · cases moved
  | reload position =>
      obtain ⟨segment, found, moved⟩ := Option.bind_eq_some_iff.mp moved
      have member : segment ∈ run.segments :=
        List.mem_append_left _ (List.mem_of_getElem? found)
      obtain ⟨opened, read, same, _⟩ := (chained.sound segment member).readFrom codec
      simp only [read, Option.some.injEq] at moved
      subst moved
      obtain ⟨inside, _⟩ := List.getElem?_eq_some_iff.mp found
      have here : run.segments[position]? = some segment := by
        rw [ChainRun.segments, List.getElem?_append_left inside, found]
      have unsigned := chained.unsign here
      rw [ChainRun.segments, List.set_append_left _ _ inside] at unsigned
      rw [same]
      exact unsigned

/-- The segments of every run under the contract are a chain. -/
theorem chained_of_reachable {crates : Crates} {codec : LogCodec} {run : ChainRun}
    (reachable : (chainMachine crates codec).Reachable (ChainKeepsContract crates) run) :
    Chained crates run.segments := by
  refine reachable.invariant (fun run : ChainRun => Chained crates run.segments) ?_ ?_
  · rintro ⟨sealed, live⟩ ⟨rfl, root⟩
    refine ⟨List.forall_mem_singleton.mpr root.sound, ?_, .singleton _⟩
    rintro first ⟨⟩
    exact root.root
  · intro state label next holds contract moved
    exact holds.step contract moved

/-- After any appends, rotations and readings of sealed segments, `verify_chain`
accepts the sealed segments followed by the open log, and the first of them up to
any point. Every sealed segment can be read back. -/
theorem rotation_chain_verifies (crates : Crates) (codec : LogCodec) {run : ChainRun}
    (reachable : (chainMachine crates codec).Reachable (ChainKeepsContract crates) run) :
    AuditLog.verifyChain crates (run.sealed ++ [run.live]) = .ok () ∧
      (∀ front, front <+: run.sealed ++ [run.live] → front ≠ [] →
        AuditLog.verifyChain crates front = .ok ()) ∧
      ∀ position < run.sealed.length,
        (chainStep crates codec run (.reload position)).isSome = true := by
  have chained := chained_of_reachable reachable
  refine ⟨chained.verifyChain (by simp [ChainRun.segments]), ?_, ?_⟩
  · exact fun front isFront nonempty => (chained.front isFront).verifyChain nonempty
  · intro position inside
    have member : run.sealed[position] ∈ run.segments :=
      List.mem_append_left _ (List.getElem_mem inside)
    obtain ⟨opened, read, _⟩ := (chained.sound _ member).readFrom codec
    simp [chainStep, inside, read]

/-- One operation after a reachable state. -/
theorem chain_reachable_step {crates : Crates} {codec : LogCodec}
    {run next : ChainRun} {op : ChainOp}
    (reachable : (chainMachine crates codec).Reachable (ChainKeepsContract crates) run)
    (contract : ChainKeepsContract crates run op)
    (moved : chainStep crates codec run op = some next) :
    (chainMachine crates codec).Reachable (ChainKeepsContract crates) next := by
  obtain ⟨start, labels, initial, prior⟩ := reachable
  exact ⟨start, _, initial, .snoc prior contract moved⟩

/-- A chain of the transparent primitives that was rotated, and its first segment
then read back from its file. -/
theorem rotation_chain_verifies_reloaded :
    ∃ run : ChainRun, run.sealed.length = 1 ∧
      AuditLog.verifyChain plainCrates (run.sealed ++ [run.live]) = .ok () := by
  have start : (chainMachine plainCrates cborCodec).Reachable (ChainKeepsContract plainCrates)
      (⟨[], plainLog⟩ : ChainRun) :=
    ⟨_, [], ⟨rfl, .created _ _ _ plainSigner_wellFormed⟩, .nil⟩
  have contract : ChainKeepsContract plainCrates ⟨[], plainLog⟩
      (.rotate plainSigner "gateway-1" "" plainDraws) := by
    refine ⟨plainSigner_wellFormed, plainSign_honours, ?_⟩
    rintro signer ⟨⟩
    exact plainSign_honours
  have evaluated : (chainStep plainCrates cborCodec ⟨[], plainLog⟩
      (.rotate plainSigner "gateway-1" "" plainDraws)).any
        (fun run => run.sealed.length = 1) = true := by
    decide +kernel
  obtain ⟨rotated, moved, one⟩ := (Option.any_eq_true _ _).mp evaluated
  have one := of_decide_eq_true one
  have prior := chain_reachable_step start contract moved
  have readable := (rotation_chain_verifies plainCrates cborCodec prior).2.2 0 (by omega)
  obtain ⟨reloaded, again⟩ := Option.isSome_iff_exists.mp readable
  have unsigned : ChainKeepsContract plainCrates rotated (.reload 0) := trivial
  have reachable := chain_reachable_step prior unsigned again
  have length : reloaded.sealed.length = 1 := by
    obtain ⟨segment, _, again⟩ := Option.bind_eq_some_iff.mp again
    split at again
    · cases again
      rw [List.length_set, one]
    · cases again
  exact ⟨reloaded, length, (rotation_chain_verifies plainCrates cborCodec reachable).1⟩

end CofreSoberano.Audit

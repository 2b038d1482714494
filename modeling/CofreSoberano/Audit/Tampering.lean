import CofreSoberano.Audit.History
import CofreSoberano.Audit.MerkleRoot

/-!
# What a final root commits to

An auditor who trusts nothing but the last root of a log can still tell whether
another list of entries is the same history, even a longer or a shorter one, under
any header. Only the hashes that the two lists lead to have to be free of
collisions: a function to 32 bytes cannot be injective on all inputs.
-/

namespace CofreSoberano.Audit

open CofreSoberano.Std

/-- The root that a list of entries ends with. -/
def finalRoot (entries : List LogEntry) : Hash :=
  (entries.getLast?.map LogEntry.newRoot).getD zeroHash

/-- The hashes on the way to the roots of two lists do not collide: not those of
their events, and not those of the leaves and nodes of the two trees, which also
differ from each other and from the hash of an empty tree. -/
structure CollisionFree (crates : Crates) (left right : List LogEntry) : Prop where
  content : ∀ entry ∈ left, ∀ other ∈ right,
    entry.event.contentHash crates = other.event.contentHash crates → entry.event = other.event
  tree : Unambiguous (leafHash crates) (nodeHash crates) zeroHash
    (fun content => content ∈ contents crates left ∨ content ∈ contents crates right)
    (fun pair =>
      pair ∈ mthJoins (leafHash crates) (nodeHash crates) zeroHash (contents crates left) ∨
        pair ∈ mthJoins (leafHash crates) (nodeHash crates) zeroHash (contents crates right))

/-- Accepted entries with the same content hashes at every position, as far as they
were appended before a position, have the same history there. -/
theorem history_eq_of_contents {crates : Crates} {left right : List LogEntry}
    {leftHeader rightHeader : LogHeader}
    (leftAccepted : AuditLog.verifyEntries crates leftHeader 0 .new zeroHash left = .ok ())
    (rightAccepted : AuditLog.verifyEntries crates rightHeader 0 .new zeroHash right = .ok ())
    (same : contents crates left = contents crates right) {i : Nat} {entry other : LogEntry}
    (found : left[i]? = some entry) (isOther : right[i]? = some other)
    (sameEvent : entry.event = other.event) : entry.history = other.history := by
  have links := links_of_accepted leftAccepted found
  have otherLinks := links_of_accepted rightAccepted isOther
  have earlier : contents crates (left.take i) = contents crates (right.take i) := by
    rw [contents, contents, List.map_take, List.map_take]
    exact congrArg (List.take i) same
  have index : entry.index = other.index := by rw [links.index, otherLinks.index]
  have prevRoot : entry.prevRoot = other.prevRoot := by
    rw [links.prevRoot, otherLinks.prevRoot, earlier]
  have newRoot : entry.newRoot = other.newRoot := by
    rw [links.newRoot, otherLinks.newRoot, earlier, sameEvent]
  rw [LogEntry.history, LogEntry.history, index, sameEvent, prevRoot, newRoot]

/-- Two accepted lists of entries with the same final root are as long as each
other and have the same indices, events and roots at every position, whatever their
headers are. -/
theorem finalRoot_commits (crates : Crates) {left right : List LogEntry}
    {leftHeader rightHeader : LogHeader} (collisionFree : CollisionFree crates left right)
    (leftAccepted : AuditLog.verifyWithPubkey crates leftHeader left = .ok ())
    (rightAccepted : AuditLog.verifyWithPubkey crates rightHeader right = .ok ())
    (sameRoot : finalRoot left = finalRoot right) :
    left.length = right.length ∧ left.map LogEntry.history = right.map LogEntry.history := by
  obtain ⟨_, _, leftLinked⟩ := bind_eq_ok.mp leftAccepted
  obtain ⟨_, _, rightLinked⟩ := bind_eq_ok.mp rightAccepted
  -- The roots are tree hashes, which determine the content hashes.
  have same : contents crates left = contents crates right := by
    rw [finalRoot, lastRoot_of_accepted leftLinked, finalRoot, lastRoot_of_accepted rightLinked,
      MerkleTree.root_ofContents, MerkleTree.root_ofContents] at sameRoot
    refine mth_inj collisionFree.tree ⟨fun content => .inl, fun pair => .inl⟩
      ⟨fun content => .inr, fun pair => .inr⟩ sameRoot
  have length : left.length = right.length := by
    simpa [contents] using congrArg List.length same
  refine ⟨length, List.ext_getElem (by simpa using length) ?_⟩
  intro i inLeft inRight
  rw [List.length_map] at inLeft inRight
  rw [List.getElem_map, List.getElem_map]
  have hashes : (left[i]).event.contentHash crates = (right[i]).event.contentHash crates := by
    have slots := congrArg (·[i]?) same
    simpa [contents, inLeft, inRight] using slots
  exact history_eq_of_contents leftLinked rightLinked same (List.getElem?_eq_getElem inLeft)
    (List.getElem?_eq_getElem inRight)
    (collisionFree.content _ (List.getElem_mem inLeft) _ (List.getElem_mem inRight) hashes)

/-- Two visits by the same user. -/
def visits : List AuditEvent := [loginEvent, logoutEvent, loginEvent]

/-- The log of the transparent primitives with another id, label and time. -/
def copyLog : AuditLog :=
  .createWithSigner plainSigner "copy" (.replicate 16 3) "2026-05-01T00:00:01Z"

theorem copyLog_sound : copyLog.Sound plainCrates :=
  AuditLog.sound_createWithSigner plainCrates _ _ _ plainSigner_wellFormed

/-- The two joins on the way to the root of three leaves. -/
theorem mthJoins_triple (crates : Crates) (first second third : Hash) :
    mthJoins (leafHash crates) (nodeHash crates) zeroHash [first, second, third] =
      [(nodeHash crates (leafHash crates first) (leafHash crates second), leafHash crates third),
        (leafHash crates first, leafHash crates second)] := by
  have three : splitPoint 3 = 2 := by decide
  have two : splitPoint 2 = 1 := by decide
  simp [mthJoins, mth_split, three, two]

/-- Three leaves, the first of which comes again, with hashes that are all different. -/
theorem unambiguous_of_nodup {crates : Crates} {first second : Hash}
    (distinct : [leafHash crates first, leafHash crates second,
      nodeHash crates (leafHash crates first) (leafHash crates second),
      nodeHash crates (nodeHash crates (leafHash crates first) (leafHash crates second))
        (leafHash crates first), zeroHash].Nodup) :
    Unambiguous (leafHash crates) (nodeHash crates) zeroHash (· ∈ [first, second, first])
      (· ∈ mthJoins (leafHash crates) (nodeHash crates) zeroHash [first, second, first]) := by
  rw [mthJoins_triple]
  simp only [List.nodup_cons, List.mem_cons, List.not_mem_nil, or_false, not_or] at distinct ⊢
  constructor <;> grind

/-- Two logs of the transparent primitives with different ids, labels and times that
recorded the same visits. -/
theorem finalRoot_commits_copies :
    ∃ original copy : AuditLog, original.header.logId ≠ copy.header.logId ∧
      original.entries.length = 3 ∧ finalRoot original.entries = finalRoot copy.entries ∧
      original.entries.map LogEntry.history = copy.entries.map LogEntry.history := by
  obtain ⟨original, header⟩ := plainLog_sound.plainRecord rfl visits
  obtain ⟨copy, copyHeader⟩ := copyLog_sound.plainRecord rfl visits
  have events : (plainLog.plainRecord visits).entries.map LogEntry.event = visits ∧
      (copyLog.plainRecord visits).entries.map LogEntry.event = visits := by
    decide +kernel
  have hashed : ∀ {entries : List LogEntry}, entries.map LogEntry.event = visits →
      contents plainCrates entries = [loginEvent.contentHash plainCrates,
        logoutEvent.contentHash plainCrates, loginEvent.contentHash plainCrates] := by
    intro entries recorded
    have mapped := congrArg (List.map (AuditEvent.contentHash plainCrates)) recorded
    rw [List.map_map] at mapped
    exact mapped
  have collisionFree : CollisionFree plainCrates (plainLog.plainRecord visits).entries
      (copyLog.plainRecord visits).entries := by
    constructor
    · have apart : ∀ left ∈ visits, ∀ right ∈ visits,
          left.contentHash plainCrates = right.contentHash plainCrates → left = right := by
        decide +kernel
      intro entry isLeft other isRight
      exact apart _ (events.1 ▸ List.mem_map_of_mem isLeft) _
        (events.2 ▸ List.mem_map_of_mem isRight)
    · simp only [hashed events.1, hashed events.2, or_self]
      exact unambiguous_of_nodup (by decide +kernel)
  have sameRoot : finalRoot (plainLog.plainRecord visits).entries =
      finalRoot (copyLog.plainRecord visits).entries := by
    rw [finalRoot, ← original.currentRoot_eq, finalRoot, ← copy.currentRoot_eq,
      AuditLog.currentRoot, AuditLog.currentRoot, original.tree, copy.tree, hashed events.1,
      hashed events.2]
  have committed := finalRoot_commits plainCrates collisionFree original.verify copy.verify sameRoot
  have three : (plainLog.plainRecord visits).entries.length = 3 := by
    rw [← List.length_map LogEntry.event, events.1]
    rfl
  refine ⟨_, _, ?_, three, sameRoot, committed.2⟩
  rw [header, copyHeader]
  decide

end CofreSoberano.Audit

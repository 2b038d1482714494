import CofreSoberano.Audit.ChainLink

/-!
# Whole and cut `.qa` files

A saved log is read back as it was. A file that ends early is read only if it ends
where an entry ends: what it then holds is the header and the entries up to there.
A cut inside the magic, the header or an entry is an error at every byte.
-/

namespace CofreSoberano.Audit

open CofreSoberano.Std

/-- Entries that are cut inside one are not read. -/
theorem readEntries_cut (codec : LogCodec) {whole : List LogEntry} {inside : List UInt8}
    (nonempty : inside ≠ []) (undecodable : codec.entry.decode inside = none) (fuel : Nat) :
    ∃ failure, readEntries codec fuel (whole.flatMap codec.entry.encode ++ inside) =
      .error (.cbor failure) := by
  induction whole generalizing fuel with
  | nil =>
      obtain ⟨first, rest, rfl⟩ := List.exists_cons_of_ne_nil nonempty
      rw [List.flatMap_nil, List.nil_append]
      cases fuel with
      | zero => exact ⟨_, rfl⟩
      | succ fuel =>
          simp only [readEntries, undecodable]
          exact ⟨_, rfl⟩
  | cons entry whole inductionHypothesis =>
      obtain ⟨first, tail, written⟩ := List.exists_cons_of_ne_nil (codec.entry_nonempty entry)
      have decoded := codec.entry.decode_encode entry (whole.flatMap codec.entry.encode ++ inside)
      rw [List.flatMap_cons, List.append_assoc, written, List.cons_append]
      rw [written, List.cons_append] at decoded
      cases fuel with
      | zero => exact ⟨_, rfl⟩
      | succ fuel =>
          obtain ⟨failure, failed⟩ := inductionHypothesis fuel
          simp only [readEntries, decoded, failed]
          exact ⟨failure, rfl⟩

namespace AuditLog

/-- The log with the first entries only, as it is read from a file. -/
def readBack (crates : Crates) (log : AuditLog) (count : Nat) : AuditLog where
  header := log.header
  entries := log.entries.take count
  tree := .ofContents crates (contents crates (log.entries.take count))
  signer := none

/-- Logs have the version and the suite of the crate, wherever they come from. -/
theorem Built.versioned {crates : Crates} {codec : LogCodec} {log : AuditLog}
    (built : log.Built crates codec) :
    log.header.wireVersion = wireVersion ∧ log.header.suite = suiteId := by
  induction built with
  | created => exact ⟨rfl, rfl⟩
  | @appended log _ event sign now inductionHypothesis =>
      rcases log.append_cases crates event sign now with
        ⟨failure, failed⟩ | ⟨signer, signature, _, _, committed⟩
      · rw [failed]
        exact inductionHypothesis
      · rw [committed]
        exact inductionHypothesis
  | @bound log _ signer inductionHypothesis =>
      rcases log.bindSigner_cases crates signer with ⟨_, unchanged⟩ | ⟨_, _, changed⟩
      · rw [unchanged]
        exact inductionHypothesis
      · rw [changed]
        exact inductionHypothesis
  | overridden _ _ inductionHypothesis => exact inductionHypothesis
  | opened read =>
      obtain ⟨_, _, _, _, _, valid, _, rfl⟩ := readFrom_eq_ok read
      exact (validateHeader_eq_ok.mp valid).1
  | closed _ rotated inductionHypothesis =>
      obtain ⟨_, _, _, _, _, _, _, rfl, _, _⟩ := rotateTo_cases rotated
      exact inductionHypothesis
  | successor _ rotated _ =>
      obtain ⟨_, _, _, _, _, _, _, _, _, rfl⟩ := rotateTo_cases rotated
      exact ⟨rfl, rfl⟩

/-- A log with a well-formed key reads back the entries up to any point that were
written. -/
theorem readFrom_readBack {crates : Crates} {codec : LogCodec} {log : AuditLog}
    (built : log.Built crates codec) (wellFormed : log.header.pubkey.bytes.length = publicKeyLen)
    (count : Nat) :
    readFrom crates codec ((log.readBack crates count).saveTo codec) =
      .ok (log.readBack crates count) := by
  have valid : validateHeader (log.readBack crates count).header = .ok () :=
    validateHeader_eq_ok.mpr ⟨built.versioned, wellFormed⟩
  rw [readFrom_saveTo, valid]
  rfl

/-- A cut file that is read ends after one of the entries. -/
theorem cut_of_readFrom {crates : Crates} {codec : LogCodec}
    (headerDelimited : codec.header.SelfDelimiting) (entryDelimited : codec.entry.SelfDelimiting)
    {log read : AuditLog} {front back : List UInt8} (cut : log.saveTo codec = front ++ back)
    (nonempty : back ≠ []) (isRead : readFrom crates codec front = .ok read) :
    ∃ count < log.entries.length, front = (log.readBack crates count).saveTo codec := by
  obtain ⟨header, rest, entries, isMagic, decoded, _, isEntries, _⟩ := readFrom_eq_ok isRead
  -- The magic is whole, so the cut is behind it.
  rw [← List.take_append_drop magic.length front, isMagic] at cut ⊢
  rw [saveTo, List.append_assoc, List.append_cancel_left_eq] at cut
  generalize front.drop magic.length = body at cut decoded ⊢
  have pastHeader : ∃ written, body = codec.header.encode log.header ++ written ∧
      log.entries.flatMap codec.entry.encode = written ++ back := by
    rcases List.append_eq_append_iff.mp cut with ⟨written, isBody, later⟩ |
      ⟨outside, inside, later⟩
    · exact ⟨written, isBody, later⟩
    · by_cases atEnd : outside = []
      · rw [atEnd, List.append_nil] at inside
        rw [atEnd, List.nil_append] at later
        exact ⟨[], by rw [inside, List.append_nil], by rw [later, List.nil_append]⟩
      · rw [headerDelimited log.header body outside inside atEnd] at decoded
        cases decoded
  obtain ⟨written, rfl, cutLater⟩ := pastHeader
  rw [codec.header.decode_encode] at decoded
  cases decoded
  obtain ⟨whole, later, inside, split, rfl, place⟩ := codec.entry.cut_flatMap cutLater
  rcases place with rfl | ⟨next, after, outside, _, isNext, someInside, someOutside⟩
  · rw [split, List.flatMap_append, List.append_nil, List.append_cancel_left_eq] at cutLater
    have someLater : later ≠ [] := by
      rintro rfl
      exact nonempty cutLater.symm
    have positive := List.length_pos_iff.mpr someLater
    refine ⟨whole.length, by rw [split, List.length_append]; omega, ?_⟩
    rw [List.append_nil, saveTo, readBack, split, List.take_left]
  · obtain ⟨failure, failed⟩ := @readEntries_cut codec whole _ someInside
      (entryDelimited next inside outside isNext someOutside)
      (whole.flatMap codec.entry.encode ++ inside).length
    rw [failed] at isEntries
    cases isEntries

/-- A saved log is read back with the same header, entries and frontier and without
a signer, and is then saved as the same bytes. From a file that was cut short, a log
is read exactly if the cut is behind the header or behind an entry; it has the same
header and the entries up to there. -/
theorem qa_roundtrip_and_truncation (crates : Crates) (codec : LogCodec)
    (headerDelimited : codec.header.SelfDelimiting) (entryDelimited : codec.entry.SelfDelimiting)
    {log : AuditLog} (built : log.Built crates codec)
    (wellFormed : log.header.pubkey.bytes.length = publicKeyLen) :
    (∃ read, readFrom crates codec (log.saveTo codec) = .ok read ∧ read.header = log.header ∧
      read.entries = log.entries ∧ read.tree = log.tree ∧ read.signer = none ∧
      read.saveTo codec = log.saveTo codec) ∧
    ∀ front back, log.saveTo codec = front ++ back → back ≠ [] → ∀ read,
      readFrom crates codec front = .ok read ↔
        ∃ count < log.entries.length,
          front = magic ++ (codec.header.encode log.header ++
            (log.entries.take count).flatMap codec.entry.encode) ∧
          read = { header := log.header, entries := log.entries.take count
                   tree := .ofContents crates (contents crates (log.entries.take count))
                   signer := none } := by
  constructor
  · have whole := readFrom_readBack built wellFormed log.entries.length
    have same : (log.readBack crates log.entries.length).saveTo codec = log.saveTo codec := by
      rw [saveTo, readBack, List.take_length, saveTo]
    rw [same] at whole
    refine ⟨_, whole, rfl, List.take_length, ?_, rfl, same⟩
    rw [readBack, List.take_length, built.tree]
  · intro front back cut nonempty read
    constructor
    · intro isRead
      obtain ⟨count, inside, rfl⟩ :=
        cut_of_readFrom headerDelimited entryDelimited cut nonempty isRead
      rw [readFrom_readBack built wellFormed] at isRead
      cases isRead
      exact ⟨count, inside, rfl, rfl⟩
    · rintro ⟨count, _, rfl, rfl⟩
      exact readFrom_readBack built wellFormed count

end AuditLog

theorem uint32Format_stable : uint32Format.Stable := Cbor.unsigned_stable.convert _

theorem metadataFormat_stable : metadataFormat.Stable :=
  ((Cbor.headFormat_stable 5).list (Cbor.text_stable.pair Cbor.text_stable)).convert _

theorem eventFormat_stable : eventFormat.Stable := by
  refine (Cbor.struct_stable ?_ 7).convert _
  exact (Cbor.field_stable uint32Format_stable _).pair <|
    (Cbor.field_stable Cbor.text_stable _).pair <| (Cbor.field_stable Cbor.text_stable _).pair <|
    (Cbor.field_stable Cbor.text_stable _).pair <| (Cbor.field_stable Cbor.text_stable _).pair <|
    (Cbor.field_stable Cbor.text_stable _).pair <| Cbor.field_stable metadataFormat_stable _

theorem bytesStruct_stable : bytesStruct.Stable :=
  Cbor.struct_stable (Cbor.field_stable Cbor.bytes_stable _) 1

theorem hashArray_stable : hashArray.Stable :=
  ((Cbor.unsigned_stable.convert _).repeated 32).marked _

theorem optionalOctets_stable (count : Nat) (apart : (Cbor.head 2 count).head? ≠ some 0xF6) :
    (optionalOctets count apart).Stable := (Cbor.octets_stable count).orByte _ _

theorem headerFormat_stable : headerFormat.Stable := by
  refine (Cbor.struct_stable ?_ 8).convert _
  exact (Cbor.field_stable uint32Format_stable _).pair <|
    (Cbor.field_stable Cbor.text_stable _).pair <| (Cbor.field_stable Cbor.text_stable _).pair <|
    (Cbor.field_stable (Cbor.octets_stable 16) _).pair <|
    (Cbor.field_stable bytesStruct_stable _).pair <| (Cbor.field_stable Cbor.text_stable _).pair <|
    (Cbor.field_stable (optionalOctets_stable 16 _) _).pair <|
    Cbor.field_stable (optionalOctets_stable 32 _) _

theorem entryFormat_stable : entryFormat.Stable := by
  refine (Cbor.struct_stable ?_ 6).convert _
  exact (Cbor.field_stable Cbor.unsigned_stable _).pair <|
    (Cbor.field_stable Cbor.text_stable _).pair <| (Cbor.field_stable eventFormat_stable _).pair <|
    (Cbor.field_stable hashArray_stable _).pair <| (Cbor.field_stable hashArray_stable _).pair <|
    Cbor.field_stable bytesStruct_stable _

/-- A log that recorded events is one that the crate builds. -/
theorem AuditLog.Built.plainRecord {codec : LogCodec} {log : AuditLog}
    (built : log.Built plainCrates codec) (events : List AuditEvent) :
    (log.plainRecord events).Built plainCrates codec := by
  induction events generalizing log with
  | nil => exact built
  | cons event rest inductionHypothesis => exact inductionHypothesis (built.appended event _ _)

/-- The log of a login and a logout. -/
theorem plainRecord_visit :
    ∃ first second, (plainLog.plainRecord [loginEvent, logoutEvent]).entries = [first, second] ∧
      100 < (cborCodec.entry.encode second).length := by
  have evaluated : (plainLog.plainRecord [loginEvent, logoutEvent]).entries.length = 2 ∧
      (plainLog.plainRecord [loginEvent, logoutEvent]).entries.all (fun entry =>
        100 < (cborCodec.entry.encode entry).length) = true := by
    decide +kernel
  obtain ⟨two, long⟩ := evaluated
  obtain ⟨first, second, entries⟩ := List.length_eq_two.mp two
  rw [entries] at long
  exact ⟨first, second, entries, of_decide_eq_true (List.all_eq_true.mp long second (by simp))⟩

/-- The file of a log with two entries: whole, cut behind the first entry, and cut inside
the second. -/
theorem qa_roundtrip_and_truncation_visit :
    ∃ (log : AuditLog) (first second : LogEntry) (inside outside : List UInt8),
      log.entries = [first, second] ∧ cborCodec.entry.encode second = inside ++ outside ∧
      inside.length = 100 ∧ outside ≠ [] ∧
      (∃ read, AuditLog.readFrom plainCrates cborCodec (log.saveTo cborCodec) = .ok read ∧
        read.entries = [first, second]) ∧
      (∃ read, AuditLog.readFrom plainCrates cborCodec
        (magic ++ (cborCodec.header.encode log.header ++
        cborCodec.entry.encode first)) = .ok read ∧ read.entries = [first]) ∧
      ∀ read, AuditLog.readFrom plainCrates cborCodec
        (magic ++ (cborCodec.header.encode log.header ++
        (cborCodec.entry.encode first ++ inside))) ≠ .ok read := by
  obtain ⟨first, second, entries, long⟩ := plainRecord_visit
  obtain ⟨_, header⟩ := plainLog_sound.plainRecord rfl [loginEvent, logoutEvent]
  have built : (plainLog.plainRecord [loginEvent, logoutEvent]).Built plainCrates cborCodec :=
    AuditLog.Built.plainRecord (.created _ _ _ _) _
  generalize plainLog.plainRecord [loginEvent, logoutEvent] = log at entries header built
  have wellFormed : log.header.pubkey.bytes.length = publicKeyLen := by
    rw [header]
    exact plainSigner_wellFormed
  obtain ⟨⟨read, isRead, _, same, _⟩, cuts⟩ :=
    AuditLog.qa_roundtrip_and_truncation plainCrates
    cborCodec headerFormat_stable.selfDelimiting entryFormat_stable.selfDelimiting built wellFormed
  have whole : log.saveTo cborCodec = magic ++ (cborCodec.header.encode log.header ++
      (cborCodec.entry.encode first ++ cborCodec.entry.encode second)) := by
    simp [AuditLog.saveTo, entries]
  have split := (List.take_append_drop 100 (cborCodec.entry.encode second)).symm
  have short : ((cborCodec.entry.encode second).take 100).length = 100 := by
    rw [List.length_take]
    omega
  have rest : (cborCodec.entry.encode second).drop 100 ≠ [] := by
    rw [← List.length_pos_iff, List.length_drop]
    omega
  refine ⟨log, first, second, _, _, entries, split, short, rest,
    ⟨read, isRead, same.trans entries⟩, ?_, ?_⟩
  · have behind :=
      cuts (magic ++ (cborCodec.header.encode log.header ++ cborCodec.entry.encode first))
      (cborCodec.entry.encode second) (by simp [whole]) (by rw [← List.length_pos_iff]; omega)
    refine ⟨_, (behind _).mpr ⟨1, by simp [entries], by simp [entries], rfl⟩,
      by simp [entries]⟩
  · intro shorter isShorter
    have amid := cuts (magic ++ (cborCodec.header.encode log.header ++
      (cborCodec.entry.encode first ++ (cborCodec.entry.encode second).take 100)))
      ((cborCodec.entry.encode second).drop 100) (by simp [whole]) rest
    obtain ⟨count, inside, front, _⟩ := (amid shorter).mp isShorter
    -- Neither the header alone nor the header with one entry is as long as what was read.
    rw [List.append_cancel_left_eq, List.append_cancel_left_eq, entries] at front
    have length := congrArg List.length front
    rw [List.length_append, short] at length
    rw [entries] at inside
    cases count with
    | zero => simp at length
    | succ earlier =>
        rw [List.length_cons, List.length_singleton] at inside
        obtain rfl : earlier = 0 := by omega
        simp at length

end CofreSoberano.Audit

import CofreSoberano.Transport.RoundTrip

/-!
# The two readers agree

`poll_read` and `recv_record` on one wire stream, well formed or not, in any two
chunkings of it. Both follow the records that are in the stream, the one turn by turn,
the other frame by frame.
-/

namespace CofreSoberano.Transport

open CofreSoberano.Std

/-- A script in which these bytes arrive in chunks, with `Pending` in between, and then
the end. -/
def Delivers (script : List Arrival) (bytes : List UInt8) (stop : StreamEnd) : Prop :=
  ∃ rest, Carries script bytes (stop.arrival :: rest)

/-- `read_exact` returns the next bytes if there are as many, and fails otherwise. -/
theorem Carries.readExact {script after : List Arrival} {bytes : List UInt8}
    (carries : Carries script bytes after) (closes : Over after) (count : Nat) :
    (count ≤ bytes.length ∧ ∃ rest, Transport.readExact script count =
      .done (bytes.take count) rest ∧
        Carries rest (bytes.drop count) after) ∨
      bytes.length < count ∧ ∃ error rest, Transport.readExact script count =
      .failed error rest := by
  induction carries generalizing count with
  | done after =>
      obtain ⟨stop, rest, rfl⟩ := closes
      cases count with
      | zero => exact .inl ⟨Nat.le_refl _, _, rfl, .done _⟩
      | succ count =>
          refine .inr ⟨Nat.succ_pos _, ?_⟩
          cases stop with
          | closed => exact ⟨_, _, rfl⟩
          | failed error => exact ⟨error, rest, rfl⟩
  | @pending script after bytes later inductionHypothesis =>
      cases count with
      | zero => exact .inl ⟨Nat.zero_le _, _, rfl, .pending later⟩
      | succ count => exact inductionHypothesis closes (count + 1)
  | @chunk script after bytes first more later inductionHypothesis =>
      cases count with
      | zero => exact .inl ⟨Nat.zero_le _, _, rfl, .chunk first more later⟩
      | succ count =>
          simp only [Transport.readExact]
          split
          · rename_i inside
            have within : count + 1 ≤ (first :: more).length := by
              rw [List.length_cons]
              omega
            refine .inl ⟨by rw [List.length_append]; omega,
              Transport.pushBack ((first :: more).drop (count + 1)) script, ?_, ?_⟩
            · rw [List.take_append_of_le_length within]
            · rw [List.drop_append_of_le_length within]
              exact later.pushBack _
          · rename_i beyond
            have past : count + 1 - (first :: more).length = count - more.length := by
              rw [List.length_cons]
              omega
            have all : (first :: more).length ≤ count + 1 := by
              rw [List.length_cons]
              omega
            rcases inductionHypothesis closes (count - more.length) with
              ⟨enough, rest, done, after⟩ | ⟨few, error, rest, failed⟩
            · refine .inl ⟨by rw [List.length_append]; omega, rest, ?_, ?_⟩
              · rw [done, List.take_append, past, List.take_of_length_le all]
              · rw [List.drop_append, past, List.drop_of_length_le all]
                exact after
            · refine .inr ⟨by rw [List.length_append, List.length_cons]; omega, error,
                rest, ?_⟩
              rw [failed]

/-- The same of a stream that ends after its bytes. -/
theorem Delivers.readExact {script : List Arrival} {bytes : List UInt8} {stop : StreamEnd}
    (delivers : Delivers script bytes stop) (count : Nat) :
    (count ≤ bytes.length ∧ ∃ rest, Transport.readExact script count =
      .done (bytes.take count) rest ∧
        Delivers rest (bytes.drop count) stop) ∨
      bytes.length < count ∧ ∃ error rest, Transport.readExact script count =
      .failed error rest := by
  obtain ⟨more, carries⟩ := delivers
  rcases carries.readExact ⟨stop, more, rfl⟩ count with ⟨enough, rest, read, later⟩ | short
  · exact .inl ⟨enough, rest, read, more, later⟩
  · exact .inr short

/-- An AEAD that opens no text shorter than a tag. -/
def Aead.RejectsShort (aead : Aead) : Prop :=
  ∀ key nonce text, text.length < tagLen → aead.decrypt key nonce text = none

/-- A text that is not opened because it is too short has used up a nonce. -/
theorem Aead.RejectsShort.openRecord_nil {aead : Aead} (rejects : aead.RejectsShort)
    (recv : DirectionState) : ∃ failure, (recv.openRecord aead []).2 = .error failure := by
  simp only [DirectionState.openRecord]
  split
  · exact ⟨_, rfl⟩
  · rw [rejects _ _ [] (by simp [tagLen])]
    exact ⟨_, rfl⟩

/-- How far a caller of `recv_record` has come. -/
inductive RecordRun where
  | receiving (reader : Reader) (plaintexts : List (List UInt8))
  | failed (reader : Reader) (error : Error) (plaintexts : List (List UInt8))
  | ended (reader : Reader) (plaintexts : List (List UInt8))
deriving DecidableEq

/-- Receiving records up to the first error or the first empty one. -/
def receiveToEnd (aead : Aead) : Nat → Reader → List (List UInt8) → RecordRun
  | 0, reader, plaintexts => .receiving reader plaintexts
  | calls + 1, reader, plaintexts =>
      match reader.recvRecord aead with
      | none => .receiving reader plaintexts
      | some (reader, .error failure) => .failed reader failure plaintexts
      | some (reader, .ok []) => .ended reader plaintexts
      | some (reader, .ok pt) => receiveToEnd aead calls reader (plaintexts ++ [pt])

section Records

variable {aead : Aead} {reader : Reader} {bytes : List UInt8} {stop : StreamEnd}

/-- A frame is read as the stream has it. The limit of `read_frame` is that of
`poll_read`. -/
theorem Delivers.readFrame {script : List Arrival} (delivers : Delivers script bytes stop) :
    match nextFrame bytes with
    | .broken => ∃ rest failure,
        Transport.readFrame script (maxPlaintext + tagLen + 64) = some (rest, .error failure)
    | .empty =>
        ∃ rest, Transport.readFrame script (maxPlaintext + tagLen + 64) = some (rest, .ok [])
    | .whole body left => ∃ rest,
        Transport.readFrame script (maxPlaintext + tagLen + 64) = some (rest, .ok body) ∧
          Delivers rest left stop := by
  have limit : min (maxPlaintext + tagLen + 64) maxFrame = readBodyHardCap := by decide
  simp only [nextFrame, Transport.readFrame, limit]
  rcases delivers.readExact 4 with ⟨enough, rest, header, later⟩ |
    ⟨few, error, rest, failed⟩
  · rw [if_neg (Nat.not_lt.mpr enough)]
    simp only [header]
    by_cases none : Cbor.ofBigEndian (bytes.take 4) 0 = 0
    · simp only [none, Transport.readExact, Nat.not_lt_zero, if_false]
      exact ⟨_, rfl⟩
    · rw [if_neg none]
      by_cases large : readBodyHardCap < Cbor.ofBigEndian (bytes.take 4) 0
      · simp only [if_pos large]
        exact ⟨_, _, rfl⟩
      · simp only [if_neg large]
        rcases later.readExact (Cbor.ofBigEndian (bytes.take 4) 0) with
          ⟨fits, left, body, after⟩ | ⟨short, error, left, failed⟩
        · rw [List.length_drop] at fits
          rw [if_neg (by omega)]
          simp only [body]
          rw [List.drop_drop] at after
          exact ⟨left, rfl, after⟩
        · rw [List.length_drop] at short
          rw [if_pos (by omega)]
          simp only [failed]
          exact ⟨_, _, rfl⟩
  · rw [if_pos few]
    simp only [failed]
    exact ⟨_, _, rfl⟩

/-- One call of `recv_record` on the next frame. -/
theorem Delivers.recvRecord (rejects : aead.RejectsShort)
    (delivers : Delivers reader.inner bytes stop) :
    match nextFrame bytes with
    | .broken => ∃ next failure, reader.recvRecord aead = some (next, .error failure) ∧
        next.recv = reader.recv
    | .empty => ∃ next failure, reader.recvRecord aead = some (next, .error failure) ∧
        next.recv = (reader.recv.openRecord aead []).1
    | .whole body left =>
        match openFrame aead reader.recv body with
        | (recv, .refused) =>
            ∃ next failure, reader.recvRecord aead = some (next, .error failure) ∧
            next.recv = recv
        | (recv, .marker) =>
            ∃ next, reader.recvRecord aead = some (next, .ok []) ∧ next.recv = recv
        | (recv, .text pt) => ∃ next, reader.recvRecord aead = some (next, .ok pt) ∧
            next.recv = recv ∧ Delivers next.inner left stop := by
  have framed := delivers.readFrame
  cases cut : nextFrame bytes with
  | broken =>
      rw [cut] at framed
      obtain ⟨rest, failure, framed⟩ := framed
      simp only [Reader.recvRecord, framed]
      exact ⟨_, _, rfl, rfl⟩
  | empty =>
      rw [cut] at framed
      obtain ⟨rest, framed⟩ := framed
      obtain ⟨failure, refused⟩ := rejects.openRecord_nil reader.recv
      simp only [Reader.recvRecord, framed]
      rcases opens : reader.recv.openRecord aead [] with ⟨recv, outcome⟩
      rw [opens] at refused
      cases refused
      exact ⟨_, _, rfl, rfl⟩
  | whole body left =>
      rw [cut] at framed
      obtain ⟨rest, framed, later⟩ := framed
      simp only [Reader.recvRecord, framed, openFrame]
      rcases reader.recv.openRecord aead body with ⟨recv, failure | text⟩
      · exact ⟨_, _, rfl, rfl⟩
      · cases text with
        | nil => exact ⟨_, rfl, rfl⟩
        | cons first more =>
            by_cases large : maxPlaintext < (first :: more).length
            · simp only [if_pos large]
              exact ⟨_, _, rfl, rfl⟩
            · simp only [if_neg large]
              exact ⟨_, rfl, rfl, later⟩

/-- The caller of `recv_record` stops at an error. -/
theorem receiveToEnd_failed {next : Reader} {failure : Error}
    (received : reader.recvRecord aead = some (next, .error failure))
    (before : List (List UInt8)) {calls : Nat} (positive : 0 < calls) :
    receiveToEnd aead calls reader before = .failed next failure before := by
  obtain ⟨calls, rfl⟩ := Nat.exists_eq_add_one_of_ne_zero (Nat.ne_of_gt positive)
  simp only [receiveToEnd, received]

/-- Repeated calls of `recv_record` follow the records of the stream. -/
theorem Decodes.receiveToEnd (rejects : aead.RejectsShort)
    {recv streamRecv recordRecv : DirectionState}
    {plaintexts : List (List UInt8)} {ending : RecordsEnd}
    (decodes : Decodes aead recv bytes plaintexts ending streamRecv recordRecv)
    (delivers : Delivers reader.inner bytes stop) (same : reader.recv = recv)
    (before : List (List UInt8)) :
    ∃ last, last.recv = recordRecv ∧
      (ending = .marker ∧ (∀ calls, plaintexts.length < calls →
          Transport.receiveToEnd aead calls reader before = .ended last (before ++ plaintexts)) ∨
        ending ≠ .marker ∧ ∃ failure, ∀ calls, plaintexts.length < calls →
          Transport.receiveToEnd aead calls reader before =
            .failed last failure (before ++ plaintexts)) := by
  induction decodes generalizing reader before with
  | broken cut =>
      have called := delivers.recvRecord rejects
      rw [cut] at called
      obtain ⟨next, failure, received, kept⟩ := called
      refine ⟨next, kept.trans same, .inr ⟨by simp, failure, ?_⟩⟩
      rw [List.append_nil]
      exact fun calls positive => receiveToEnd_failed received before positive
  | empty cut =>
      have called := delivers.recvRecord rejects
      rw [cut] at called
      obtain ⟨next, failure, received, kept⟩ := called
      refine ⟨next, by rw [kept, same], .inr ⟨by simp, failure, ?_⟩⟩
      rw [List.append_nil]
      exact fun calls positive => receiveToEnd_failed received before positive
  | refused cut opened =>
      have called := delivers.recvRecord rejects
      simp only [cut, same, opened] at called
      obtain ⟨next, failure, received, kept⟩ := called
      refine ⟨next, kept, .inr ⟨by simp, failure, ?_⟩⟩
      rw [List.append_nil]
      exact fun calls positive => receiveToEnd_failed received before positive
  | marker cut opened =>
      have called := delivers.recvRecord rejects
      simp only [cut, same, opened] at called
      obtain ⟨next, received, kept⟩ := called
      refine ⟨next, kept, .inl ⟨rfl, ?_⟩⟩
      intro calls positive
      obtain ⟨calls, rfl⟩ := Nat.exists_eq_add_one_of_ne_zero (Nat.ne_of_gt positive)
      simp only [Transport.receiveToEnd, received, List.append_nil]
  | @record recv next _ _ _ _ _ pt plaintexts ending cut opened later inductionHypothesis =>
      have called := delivers.recvRecord rejects
      simp only [cut, same, opened] at called
      obtain ⟨after, received, kept, rest⟩ := called
      obtain ⟨first, more, rfl⟩ := List.exists_cons_of_ne_nil (openFrame_text opened).2.1
      have goesOn : ∀ calls, Transport.receiveToEnd aead (calls + 1) reader before =
          Transport.receiveToEnd aead calls after (before ++ [first :: more]) := by
        intro calls
        simp only [Transport.receiveToEnd, received]
      obtain ⟨last, direction, outcome⟩ :=
        inductionHypothesis rest kept (before ++ [first :: more])
      rw [List.append_assoc, List.singleton_append] at outcome
      refine ⟨last, direction, ?_⟩
      rcases outcome with ⟨marker, ended⟩ | ⟨broken, failure, failed⟩
      · refine .inl ⟨marker, ?_⟩
        intro calls enough
        obtain ⟨calls, rfl⟩ :=
          Nat.exists_eq_add_one_of_ne_zero (Nat.ne_of_gt (Nat.zero_lt_of_lt enough))
        rw [goesOn, ended calls (Nat.lt_of_succ_lt_succ enough)]
      · refine .inr ⟨broken, failure, ?_⟩
        intro calls enough
        obtain ⟨calls, rfl⟩ :=
          Nat.exists_eq_add_one_of_ne_zero (Nat.ne_of_gt (Nat.zero_lt_of_lt enough))
        rw [goesOn, failed calls (Nat.lt_of_succ_lt_succ enough)]

end Records

/-- The two readers have come to the same end: the end of stream after an empty record,
or an error after an error, with the same bytes before it. They have used the same
nonces, unless `poll_read` failed before opening: then it has opened the records that
it delivered, and `recv_record` has tried to open the frame without a body. -/
inductive SameEnd (aead : Aead) (recv : DirectionState) (plaintexts : List (List UInt8))
    (final : Reader) : RecordRun → ReadRun → Prop where
  | ended {last : Reader} (same : final.recv = last.recv) :
      SameEnd aead recv plaintexts final (.ended last plaintexts) (.ended plaintexts.flatten)
  | failed {last : Reader} {failure : Error} {error : IoError}
      (nonces : final.recv = last.recv ∨
        error = emptyBodyError ∧ final.recv = recv.advance plaintexts.length ∧
          last.recv = (final.recv.openRecord aead []).1) :
      SameEnd aead recv plaintexts final (.failed last failure plaintexts)
        (.failed error plaintexts.flatten)

/-- `poll_read` on one script refines `recv_record` on the other: the calls of
`recv_record` come to an end; whatever the buffers, reading is still going on only if
there were too few polls, and has delivered the first bytes of the records, and
otherwise it has come to the same end. -/
def StreamRefines (aead : Aead) (recv : DirectionState) (streamScript recordScript : List Arrival) :
    Prop :=
  ∃ plaintexts records,
    (∀ calls, plaintexts.length < calls →
      receiveToEnd aead calls (.new recordScript recv) [] = records) ∧
    ∀ caps : List Nat, (∀ cap ∈ caps, cap ≠ 0) →
      (caps.length ≤ pendings streamScript + plaintexts.flatten.length ∧ ∃ reader delivered,
          readToEnd aead caps (.new streamScript recv) [] = .reading reader delivered ∧
            delivered <+: plaintexts.flatten) ∨
        SameEnd aead recv plaintexts (readerAfter aead caps (.new streamScript recv)) records
          (readToEnd aead caps (.new streamScript recv) [])

/-- The stream reader refines the record reader on every stream, well formed or not,
that is closed or fails at its end, in any two chunkings of it. -/
theorem stream_reader_refines_records {aead : Aead} (rejects : aead.RejectsShort)
    (recv : DirectionState) {bytes : List UInt8} {stop : StreamEnd}
    {streamScript recordScript : List Arrival} (streamed : Delivers streamScript bytes stop)
    (recorded : Delivers recordScript bytes stop) :
    StreamRefines aead recv streamScript recordScript := by
  obtain ⟨plaintexts, ending, streamRecv, recordRecv, decodes⟩ := Decodes.total aead recv bytes
  obtain ⟨rest, carries⟩ := streamed
  have follows : (Reader.new streamScript recv).Follows aead ending streamRecv plaintexts.flatten :=
    .idle rfl ⟨bytes, _, recordRecv, carries, fun _ => ⟨stop, rest, rfl⟩, decodes⟩
  have nonces := decodes.nonces
  have arrives : Delivers (Reader.new recordScript recv).inner bytes stop := recorded
  obtain ⟨last, direction, outcome⟩ := decodes.receiveToEnd rejects arrives rfl []
  rw [List.nil_append] at outcome
  rcases outcome with ⟨marker, received⟩ | ⟨broken, failure, received⟩
  · refine ⟨plaintexts, .ended last plaintexts, received, ?_⟩
    intro caps room
    rcases readToEnd_follows follows room [] with reading | run
    · exact .inl (by simpa [Reader.new] using reading)
    · refine .inr ?_
      rw [List.nil_append] at run
      generalize readToEnd aead caps (.new streamScript recv) [] = result at run
      cases run with
      | ended _ streamed =>
          refine .ended ?_
          rcases nonces with same | ⟨empty, _⟩
          · rw [streamed, same, direction]
          · simp [empty] at marker
      | failed notMarker => exact absurd marker notMarker
  · refine ⟨plaintexts, .failed last failure plaintexts, received, ?_⟩
    intro caps room
    rcases readToEnd_follows follows room [] with reading | run
    · exact .inl (by simpa [Reader.new] using reading)
    · refine .inr ?_
      rw [List.nil_append] at run
      generalize readToEnd aead caps (.new streamScript recv) [] = result at run
      cases run with
      | ended marker => exact absurd marker broken
      | failed _ streamed named =>
          refine .failed ?_
          rw [streamed, direction]
          rcases nonces with same | ⟨empty, opened, tried⟩
          · exact .inl same
          · exact .inr ⟨named empty, opened, tried⟩

/-- An AEAD whose ciphertext is the plaintext with a tag of zeros, which it checks. -/
def checkedAead : Aead where
  encrypt _ _ plaintext := some (plaintext ++ List.replicate tagLen 0)
  decrypt _ _ ciphertext :=
    if tagLen ≤ ciphertext.length ∧
        ciphertext.drop (ciphertext.length - tagLen) = List.replicate tagLen 0 then
      some (ciphertext.take (ciphertext.length - tagLen))
    else none

theorem checkedAead_rejectsShort : checkedAead.RejectsShort := by
  intro key nonce text short
  simp only [checkedAead]
  rw [if_neg]
  exact fun whole => absurd whole.1 (Nat.not_le.mpr short)

/-- A record and a frame without a body, in pieces. -/
def piecewiseScript : List Arrival :=
  [.chunk 0 [0], .pending, .chunk 0 [18, 104, 105, 0, 0, 0, 0, 0], .chunk 0 (List.replicate 10 0),
    .pending, .chunk 0 [0, 0], .chunk 0 [], .closed]

/-- The same bytes at once. -/
def wholeScript : List Arrival :=
  [.chunk 0 ([0, 0, 18, 104, 105] ++ List.replicate 20 0), .closed]

/-- Both readers deliver the record and fail on the frame after it. -/
theorem stream_reader_refines_records_empty_body :
    readToEnd checkedAead [1, 7, 1, 1, 1, 1] (.new piecewiseScript plainSend) [] =
        .failed emptyBodyError [104, 105] ∧
      StreamRefines checkedAead plainSend piecewiseScript wholeScript := by
  refine ⟨by decide +kernel, ?_⟩
  have streamed : Delivers piecewiseScript ([0, 0, 0, 18, 104, 105] ++ List.replicate 20 0)
      .closed := by
    refine ⟨[], ?_⟩
    exact .chunk 0 [0]
      (.pending (.chunk 0 [18, 104, 105, 0, 0, 0, 0, 0] (.chunk 0 (List.replicate 10 0)
      (.pending (.chunk 0 [0, 0] (.chunk 0 [] (.done _)))))))
  have recorded : Delivers wholeScript ([0, 0, 0, 18, 104, 105] ++ List.replicate 20 0) .closed :=
    ⟨[], .chunk 0 ([0, 0, 18, 104, 105] ++ List.replicate 20 0) (.done _)⟩
  exact stream_reader_refines_records checkedAead_rejectsShort plainSend streamed recorded

end CofreSoberano.Transport

import CofreSoberano.Transport.Nonces
import CofreSoberano.Transport.Sending

/-!
# Receiving a stream

What `poll_read` makes of the bytes that arrive, well formed or not. `Decodes` says what is
in them: their records up to the end-of-stream marker or to the first frame that cannot be
received. The reader follows it turn by turn, whatever chunks the bytes arrive in and
whatever buffers they are read into. What comes after the marker does not matter.
-/

namespace CofreSoberano.Transport

open CofreSoberano.Std

/-- A script in which these bytes arrive in chunks, with `Pending` in between, and that
goes on with `after`. -/
inductive Carries : List Arrival → List UInt8 → List Arrival → Prop where
  | done (after : List Arrival) : Carries after [] after
  | pending {script after : List Arrival} {bytes : List UInt8}
      (later : Carries script bytes after) :
      Carries (.pending :: script) bytes after
  | chunk {script after : List Arrival} {bytes : List UInt8} (first : UInt8) (more : List UInt8)
      (later : Carries script bytes after) :
      Carries (.chunk first more :: script) (first :: more ++ bytes) after

/-- The number of times a script is pending. -/
def pendings (script : List Arrival) : Nat := script.countP (· = .pending)

/-- Bytes that stay in the stream are delivered before the rest. -/
theorem Carries.pushBack {script after : List Arrival} {bytes : List UInt8}
    (later : Carries script bytes after) (left : List UInt8) :
    Carries (Transport.pushBack left script) (left ++ bytes) after := by
  cases left with
  | nil => exact later
  | cons first more => exact .chunk first more later

theorem pendings_pushBack (left : List UInt8) (script : List Arrival) :
    pendings (pushBack left script) = pendings script := by
  cases left <;> simp [pushBack, pendings]

/-- What a read from below can return: nothing yet, some of the bytes, or what comes after
them. -/
inductive InnerRead (script : List Arrival) (bytes : List UInt8)
    (after : List Arrival) (cap : Nat) : InnerPoll × List Arrival → Prop where
  | waits {rest : List Arrival} (later : Carries rest bytes after)
      (fewer : pendings script = pendings rest + 1) :
      InnerRead script bytes after cap (.pending, rest)
  | reads {rest : List Arrival} {first : UInt8} {more left : List UInt8}
      (split : bytes = first :: more ++ left) (room : (first :: more).length ≤ cap)
      (later : Carries rest left after) (same : pendings script = pendings rest) :
      InnerRead script bytes after cap (.ready (first :: more), rest)
  | done (empty : bytes = []) : InnerRead script bytes after cap (pollInner cap after)

theorem Carries.pollInner {script after : List Arrival} {bytes : List UInt8} {cap : Nat}
    (carries : Carries script bytes after) (room : 0 < cap) :
    InnerRead script bytes after cap (Transport.pollInner cap script) := by
  cases carries with
  | done => exact .done rfl
  | pending later => exact .waits later (by simp [pendings])
  | @chunk script _ bytes first more later =>
      obtain ⟨cap, rfl⟩ := Nat.exists_eq_add_one_of_ne_zero (Nat.ne_of_gt room)
      have split : first :: more ++ bytes = first :: more.take cap ++ (more.drop cap ++ bytes) := by
        simp [← List.append_assoc]
      refine .reads split (by simp) (later.pushBack (more.drop cap)) ?_
      exact (pendings_pushBack (first :: more) script).trans (pendings_pushBack _ script).symm

/-- How a byte stream ends. -/
inductive StreamEnd where
  | closed
  | failed (error : IoError)
deriving DecidableEq

/-- What arrives last. -/
def StreamEnd.arrival : StreamEnd → Arrival
  | closed => .closed
  | failed error => .failed error

/-- The stream ends here. -/
def Over (script : List Arrival) : Prop :=
  ∃ (stop : StreamEnd) (rest : List Arrival), script = stop.arrival :: rest

theorem Over.pollInner {script : List Arrival} (closes : Over script) (cap : Nat) :
    (∃ rest, Transport.pollInner cap script = (.ready [], rest)) ∨
      ∃ error rest, Transport.pollInner cap script = (.failed error, rest) := by
  obtain ⟨stop, rest, rfl⟩ := closes
  cases stop with
  | closed => exact .inl ⟨_, rfl⟩
  | failed error => exact .inr ⟨error, _, rfl⟩

/-- The next frame of a stream. -/
inductive FrameCut where
  /-- The stream ends within the frame, or the frame is larger than allowed. -/
  | broken
  /-- The frame has no body. -/
  | empty
  | whole (body rest : List UInt8)
deriving DecidableEq

/-- Cut the next frame off a stream. -/
def nextFrame (bytes : List UInt8) : FrameCut :=
  if bytes.length < 4 then .broken
  else
    let length := Cbor.ofBigEndian (bytes.take 4) 0
    if length = 0 then .empty
    else if readBodyHardCap < length then .broken
    else if bytes.length < 4 + length then .broken
    else .whole ((bytes.drop 4).take length) (bytes.drop (4 + length))

/-- What is in a frame. -/
inductive FrameText where
  /-- It does not open, or the text is larger than allowed. -/
  | refused
  | marker
  | text (pt : List UInt8)
deriving DecidableEq

/-- Open a frame. -/
def openFrame (aead : Aead) (recv : DirectionState) (body : List UInt8) :
    DirectionState × FrameText :=
  match recv.openRecord aead body with
  | (next, .error _) => (next, .refused)
  | (next, .ok []) => (next, .marker)
  | (next, .ok pt) => if maxPlaintext < pt.length then (next, .refused) else (next, .text pt)

/-- How the records of a stream end. -/
inductive RecordsEnd where
  | marker
  | broken
  /-- A frame without a body. -/
  | emptyBody
deriving DecidableEq

/-- The records of a stream and how they end, with the receiving directions in which
`poll_read` and `recv_record` are left. They differ after a frame without a body,
which `poll_read` does not open. -/
inductive Decodes (aead : Aead) : DirectionState → List UInt8 →
    List (List UInt8) → RecordsEnd → DirectionState → DirectionState → Prop where
  | broken {recv : DirectionState} {bytes : List UInt8} (cut : nextFrame bytes = .broken) :
      Decodes aead recv bytes [] .broken recv recv
  | empty {recv : DirectionState} {bytes : List UInt8} (cut : nextFrame bytes = .empty) :
      Decodes aead recv bytes [] .emptyBody recv (recv.openRecord aead []).1
  | refused {recv next : DirectionState} {bytes body rest : List UInt8}
      (cut : nextFrame bytes = .whole body rest)
      (opened : openFrame aead recv body = (next, .refused)) :
      Decodes aead recv bytes [] .broken next next
  | marker {recv next : DirectionState} {bytes body rest : List UInt8}
      (cut : nextFrame bytes = .whole body rest)
      (opened : openFrame aead recv body = (next, .marker)) :
      Decodes aead recv bytes [] .marker next next
  | record {recv next streamRecv recordRecv : DirectionState} {bytes body rest pt : List UInt8}
      {plaintexts : List (List UInt8)} {ending : RecordsEnd}
      (cut : nextFrame bytes = .whole body rest)
      (opened : openFrame aead recv body = (next, .text pt))
      (later : Decodes aead next rest plaintexts ending streamRecv recordRecv) :
      Decodes aead recv bytes (pt :: plaintexts) ending streamRecv recordRecv

/-- The next frame of a stream that has a whole length prefix. -/
theorem nextFrame_header {header : List UInt8} (rest : List UInt8) (four : header.length = 4) :
    nextFrame (header ++ rest) =
      let length := Cbor.ofBigEndian header 0
      if length = 0 then .empty
      else if readBodyHardCap < length then .broken
      else if rest.length < length then .broken
      else .whole (rest.take length) (rest.drop length) := by
  have taken : (header ++ rest).take 4 = header := List.take_left' four
  have dropped : (header ++ rest).drop 4 = rest := List.drop_left' four
  have enough : ¬ (header ++ rest).length < 4 := by
    rw [List.length_append]
    omega
  rw [nextFrame, if_neg enough]
  simp only [taken, dropped, ← List.drop_drop, List.length_append, four, Nat.add_lt_add_iff_left]

/-- A whole frame: what it is made of. -/
theorem nextFrame_whole {bytes body rest : List UInt8} (cut : nextFrame bytes = .whole body rest) :
    bytes = bytes.take 4 ++ (body ++ rest) ∧ (bytes.take 4).length = 4 ∧
      Cbor.ofBigEndian (bytes.take 4) 0 = body.length ∧ 0 < body.length ∧
      body.length ≤ readBodyHardCap := by
  simp only [nextFrame] at cut
  split at cut
  · cases cut
  · split at cut
    · cases cut
    · split at cut
      · cases cut
      · split at cut
        · cases cut
        · cases cut
          have length : ((bytes.drop 4).take (Cbor.ofBigEndian (bytes.take 4) 0)).length =
              Cbor.ofBigEndian (bytes.take 4) 0 := by
            rw [List.length_take, List.length_drop]
            omega
          refine ⟨?_, by rw [List.length_take]; omega, length.symm, by omega, by omega⟩
          rw [← List.drop_drop, List.take_append_drop, List.take_append_drop]

/-- Every stream has records and an end. -/
theorem Decodes.total (aead : Aead) (recv : DirectionState) (bytes : List UInt8) :
    ∃ plaintexts ending streamRecv recordRecv,
      Decodes aead recv bytes plaintexts ending streamRecv recordRecv := by
  induction measured : bytes.length using Nat.strongRecOn generalizing recv bytes with
  | _ size inductionHypothesis =>
      cases cut : nextFrame bytes with
      | broken => exact ⟨_, _, _, _, .broken cut⟩
      | empty => exact ⟨_, _, _, _, .empty cut⟩
      | whole body rest =>
          rcases opened : openFrame aead recv body with ⟨next, refused | marker | pt⟩
          · exact ⟨_, _, _, _, .refused cut opened⟩
          · exact ⟨_, _, _, _, .marker cut opened⟩
          · have shorter : rest.length < size := by
              obtain ⟨split, header, _, some, _⟩ := nextFrame_whole cut
              have lengths := congrArg List.length split
              simp only [List.length_append, header] at lengths
              omega
            obtain ⟨plaintexts, ending, streamRecv, recordRecv, later⟩ :=
              inductionHypothesis rest.length shorter next rest rfl
            exact ⟨_, _, _, _, .record cut opened later⟩

/-- A text that is delivered was opened; it has content and fits. -/
theorem openFrame_text {aead : Aead} {recv next : DirectionState} {body pt : List UInt8}
    (opened : openFrame aead recv body = (next, .text pt)) :
    recv.openRecord aead body = (next, .ok pt) ∧ pt ≠ [] ∧ pt.length ≤ maxPlaintext := by
  simp only [openFrame] at opened
  split at opened
  · cases opened
  · cases opened
  · rename_i text some opens
    split at opened
    · cases opened
    · rename_i fits
      cases opened
      exact ⟨opens, by simpa using some, Nat.not_lt.mp fits⟩

/-- The two directions are the same, unless a frame had no body. Then the stream reader
has opened the records that it delivered and nothing else. -/
theorem Decodes.nonces {aead : Aead} {recv streamRecv recordRecv : DirectionState}
    {bytes : List UInt8} {plaintexts : List (List UInt8)} {ending : RecordsEnd}
    (decodes : Decodes aead recv bytes plaintexts ending streamRecv recordRecv) :
    streamRecv = recordRecv ∨
      ending = .emptyBody ∧ streamRecv = recv.advance plaintexts.length ∧
        recordRecv = (streamRecv.openRecord aead []).1 := by
  induction decodes with
  | broken cut => exact .inl rfl
  | empty cut => exact .inr ⟨rfl, rfl, rfl⟩
  | refused cut opened => exact .inl rfl
  | marker cut opened => exact .inl rfl
  | @record recv next _ _ _ _ _ pt plaintexts _ cut opened later inductionHypothesis =>
      rcases inductionHypothesis with same | ⟨empty, stream, tried⟩
      · exact .inl same
      · refine .inr ⟨empty, ?_, tried⟩
        have advanced : next = recv.advance 1 :=
          (DirectionState.openRecord_eq_ok (openFrame_text opened).1).2.1
        rw [stream, advanced, DirectionState.advance_advance, List.length_cons, Nat.add_comm]

/-- The error of `poll_read` on a frame without a body. -/
def emptyBodyError : IoError := ⟨.invalidData, "CSPQ frame body is empty (missing AEAD tag)"⟩

/-- The records that a reader has ahead of it, when it has taken some bytes of the
first frame, and the direction in which they leave it. Without a marker the stream ends
after them. -/
def Coming (aead : Aead) (recv : DirectionState) (inner : List Arrival) (taken : List UInt8)
    (plaintexts : List (List UInt8)) (ending : RecordsEnd) (last : DirectionState) : Prop :=
  ∃ bytes after recordRecv, Carries inner bytes after ∧ (ending ≠ .marker → Over after) ∧
    Decodes aead recv (taken ++ bytes) plaintexts ending last recordRecv

/-- A reader that is going to deliver these bytes and then end as the stream does. -/
inductive Reader.Follows (aead : Aead) (ending : RecordsEnd)
    (last : DirectionState) (reader : Reader) : List UInt8 → Prop where
  | idle {plaintexts : List (List UInt8)} (state : reader.state = .idle)
      (coming : Coming aead reader.recv reader.inner [] plaintexts ending last) :
      Follows aead ending last reader plaintexts.flatten
  | len {filled : List UInt8} {plaintexts : List (List UInt8)} (state : reader.state = .len filled)
      (short : filled.length < 4)
      (coming : Coming aead reader.recv reader.inner filled plaintexts ending last) :
      Follows aead ending last reader plaintexts.flatten
  | body {header filled : List UInt8} {plaintexts : List (List UInt8)}
      (state : reader.state = .body (Cbor.ofBigEndian header 0) filled) (four : header.length = 4)
      (short : filled.length < Cbor.ofBigEndian header 0)
      (capped : Cbor.ofBigEndian header 0 ≤ readBodyHardCap)
      (coming : Coming aead reader.recv reader.inner (header ++ filled) plaintexts ending last) :
      Follows aead ending last reader plaintexts.flatten
  | drain {pt : List UInt8} {pos : Nat} {plaintexts : List (List UInt8)}
      (state : reader.state = .drain pt pos) (inside : pos ≤ pt.length)
      (coming : Coming aead reader.recv reader.inner [] plaintexts ending last) :
      Follows aead ending last reader (pt.drop pos ++ plaintexts.flatten)

/-- What a turn of the read loop, or a whole poll, does on the way to `rest`, with so
many pending answers ahead. -/
inductive Reader.FollowStep (aead : Aead) (ending : RecordsEnd) (last : DirectionState)
    (rest : List UInt8) (waiting : Nat) : Reader → Option ReadPoll → Prop where
  | goesOn {next : Reader} (follows : next.Follows aead ending last rest)
      (same : pendings next.inner = waiting) : FollowStep aead ending last rest waiting next none
  | waits {next : Reader} (follows : next.Follows aead ending last rest)
      (fewer : pendings next.inner + 1 = waiting) :
      FollowStep aead ending last rest waiting next (some .pending)
  | delivers {next : Reader} {first : UInt8} {more left : List UInt8}
      (split : rest = first :: more ++ left) (follows : next.Follows aead ending last left)
      (same : pendings next.inner = waiting) :
      FollowStep aead ending last rest waiting next (some (.ready (first :: more)))
  | ends {next : Reader} (empty : rest = []) (marker : ending = .marker) (state : next.state = .eof)
      (direction : next.recv = last) :
      FollowStep aead ending last rest waiting next (some (.ready []))
  | fails {next : Reader} {error : IoError} (empty : rest = []) (broken : ending ≠ .marker)
      (state : next.state = .eof) (direction : next.recv = last)
      (named : ending = .emptyBody → error = emptyBodyError) :
      FollowStep aead ending last rest waiting next (some (.failed error))

section Stream

variable {aead : Aead} {ending : RecordsEnd} {last : DirectionState} {reader : Reader} {cap : Nat}
  {plaintexts : List (List UInt8)}

/-- A frame that cannot be received is the last thing in the stream. -/
theorem Decodes.of_broken {recv recordRecv : DirectionState} {bytes : List UInt8}
    (decodes : Decodes aead recv bytes plaintexts ending last recordRecv)
    (cut : nextFrame bytes = .broken) : plaintexts = [] ∧ ending = .broken ∧ last = recv := by
  cases decodes with
  | broken => exact ⟨rfl, rfl, rfl⟩
  | empty other => simp [cut] at other
  | refused other => simp [cut] at other
  | marker other => simp [cut] at other
  | record other => simp [cut] at other

theorem Decodes.of_empty {recv recordRecv : DirectionState} {bytes : List UInt8}
    (decodes : Decodes aead recv bytes plaintexts ending last recordRecv)
    (cut : nextFrame bytes = .empty) : plaintexts = [] ∧ ending = .emptyBody ∧ last = recv := by
  cases decodes with
  | empty => exact ⟨rfl, rfl, rfl⟩
  | broken other => simp [cut] at other
  | refused other => simp [cut] at other
  | marker other => simp [cut] at other
  | record other => simp [cut] at other

/-- No marker follows a broken frame. -/
theorem Decodes.unmarked {recv recordRecv : DirectionState} {bytes : List UInt8}
    (decodes : Decodes aead recv bytes plaintexts ending last recordRecv)
    (cut : nextFrame bytes = .broken) : ending ≠ .marker := by
  rw [(decodes.of_broken cut).2.1]
  exact fun same => by cases same

/-- A broken frame fails the reader. -/
theorem Reader.FollowStep.of_broken {next : Reader} {error : IoError} {bytes : List UInt8}
    {recv recordRecv : DirectionState} {waiting : Nat}
    (decodes : Decodes aead recv bytes plaintexts ending last recordRecv)
    (cut : nextFrame bytes = .broken) (state : next.state = .eof) (direction : next.recv = recv) :
    FollowStep aead ending last plaintexts.flatten waiting next (some (.failed error)) := by
  obtain ⟨rfl, rfl, rfl⟩ := decodes.of_broken cut
  exact .fails rfl (by simp) state direction (by simp)

theorem Reader.stepDrain_follows {pt : List UInt8} {pos : Nat} (room : cap ≠ 0)
    (state : reader.state = .drain pt pos) (inside : pos ≤ pt.length)
    (coming : Coming aead reader.recv reader.inner [] plaintexts ending last) :
    FollowStep aead ending last (pt.drop pos ++ plaintexts.flatten) (pendings reader.inner)
      (reader.stepDrain cap pt pos).1 (reader.stepDrain cap pt pos).2 := by
  have turn : Turn aead cap reader (reader.stepDrain cap pt pos).1
      (reader.stepDrain cap pt pos).2 :=
    stepDrain_turn state
  have between : ¬ reader.InFrame := by simp [InFrame, state]
  generalize (reader.stepDrain cap pt pos).1 = next at turn
  generalize (reader.stepDrain cap pt pos).2 = result at turn
  cases turn with
  | atEof other => simp [state] at other
  | started other => simp [state] at other
  | waited inFrame => exact absurd inFrame between
  | read inFrame => exact absurd inFrame between
  | failed inFrame => exact absurd inFrame between
  | opened inFrame => exact absurd inFrame between
  | marked inFrame => exact absurd inFrame between
  | refused _ full => exact absurd full room
  | drained same all =>
      rw [state] at same
      cases same
      rw [List.drop_eq_nil_of_le (by omega), List.nil_append]
      exact .goesOn (.idle rfl coming) rfl
  | @copied _ _ count _ same positive bound after =>
      rw [state] at same
      cases same
      have some : (pt.drop pos).take count ≠ [] := by
        simp only [ne_eq, List.take_eq_nil_iff, List.drop_eq_nil_iff]
        omega
      obtain ⟨first, more, taken⟩ := List.exists_cons_of_ne_nil some
      have split : pt.drop pos ++ plaintexts.flatten =
          first :: more ++ (pt.drop (pos + count) ++ plaintexts.flatten) := by
        rw [← taken, ← List.drop_drop, ← List.append_assoc, List.take_append_drop]
      rw [taken]
      rcases after with ⟨rfl, whole⟩ | rfl
      · rw [whole, List.drop_length, List.nil_append] at split
        exact .delivers split (.idle rfl coming) rfl
      · exact .delivers split (.drain rfl bound coming) rfl

theorem Reader.stepLen_follows {filled : List UInt8} (short : filled.length < 4)
    (coming : Coming aead reader.recv reader.inner filled plaintexts ending last) :
    FollowStep aead ending last plaintexts.flatten (pendings reader.inner) (reader.stepLen filled).1
      (reader.stepLen filled).2 := by
  obtain ⟨bytes, after, recordRecv, carries, closes, decodes⟩ := coming
  have polled := carries.pollInner (show 0 < 4 - filled.length by omega)
  have cutShort : bytes = [] → nextFrame (filled ++ bytes) = .broken := by
    rintro rfl
    rw [List.append_nil, nextFrame, if_pos short]
  simp only [stepLen]
  generalize pollInner (4 - filled.length) reader.inner = answer at polled
  cases polled with
  | waits later fewer =>
      exact .waits (.len rfl short ⟨_, _, _, later, closes, decodes⟩) fewer.symm
  | done empty =>
      rcases (closes (decodes.unmarked (cutShort empty))).pollInner (4 - filled.length) with
        ⟨rest, closed⟩ | ⟨error, rest, failed⟩
      · rw [closed]
        exact .of_broken decodes (cutShort empty) rfl rfl
      · rw [failed]
        exact .of_broken decodes (cutShort empty) rfl rfl
  | @reads rest first more left split room later same =>
      subst split
      rw [← List.append_assoc] at decodes
      simp only
      by_cases shorter : (filled ++ first :: more).length < 4
      · rw [if_pos shorter]
        exact .goesOn (.len rfl shorter ⟨_, _, _, later, closes, decodes⟩) same.symm
      · rw [if_neg shorter]
        have four : (filled ++ first :: more).length = 4 := by
          rw [List.length_append] at shorter ⊢
          omega
        have cut := nextFrame_header left four
        simp only [stepLength]
        by_cases none : Cbor.ofBigEndian (filled ++ first :: more) 0 = 0
        · simp only [if_pos none] at cut ⊢
          obtain ⟨rfl, rfl, rfl⟩ := decodes.of_empty cut
          exact .fails rfl (by simp) rfl rfl (fun _ => rfl)
        · simp only [if_neg none] at cut ⊢
          by_cases large : readBodyHardCap < Cbor.ofBigEndian (filled ++ first :: more) 0
          · simp only [if_pos large] at cut ⊢
            exact .of_broken decodes cut rfl rfl
          · simp only [if_neg large]
            refine .goesOn (.body rfl four (Nat.pos_of_ne_zero none)
              (Nat.not_lt.mp large) ?_) same.symm
            rw [List.append_nil]
            exact ⟨_, _, _, later, closes, decodes⟩

/-- What `poll_read` does with a whole frame. -/
theorem Reader.stepOpen_cases (aead : Aead) (reader : Reader) (body : List UInt8) :
    match openFrame aead reader.recv body with
    | (recv, .refused) => ∃ error,
        reader.stepOpen aead body = ({ reader with recv, state := .eof }, some (.failed error))
    | (recv, .marker) =>
        reader.stepOpen aead body = ({ reader with recv, state := .eof }, some (.ready []))
    | (recv, .text pt) =>
        reader.stepOpen aead body = ({ reader with recv, state := .drain pt 0 }, none) := by
  simp only [stepOpen, openFrame]
  rcases reader.recv.openRecord aead body with ⟨recv, failure | text⟩
  · exact ⟨_, rfl⟩
  · cases text with
    | nil => rfl
    | cons first more =>
        by_cases large : maxPlaintext < (first :: more).length
        · simp only [if_pos large]
          exact ⟨_, rfl⟩
        · simp only [if_neg large]

/-- A frame is opened: it is drained, or it ends the stream. -/
theorem Reader.stepOpen_follows (reader : Reader) {bytes body rest : List UInt8}
    {after : List Arrival} {recordRecv : DirectionState}
    (decodes : Decodes aead reader.recv bytes plaintexts ending last recordRecv)
    (cut : nextFrame bytes = .whole body rest) (later : Carries reader.inner rest after)
    (closes : ending ≠ .marker → Over after) :
    FollowStep aead ending last plaintexts.flatten (pendings reader.inner)
      (reader.stepOpen aead body).1 (reader.stepOpen aead body).2 := by
  have stepped := reader.stepOpen_cases aead body
  cases decodes with
  | broken other => simp [cut] at other
  | empty other => simp [cut] at other
  | refused other opened =>
      rw [cut] at other
      cases other
      rw [opened] at stepped
      obtain ⟨error, stepped⟩ := stepped
      rw [stepped]
      exact .fails rfl (by simp) rfl rfl (by simp)
  | marker other opened =>
      rw [cut] at other
      cases other
      rw [opened] at stepped
      rw [stepped]
      exact .ends rfl rfl rfl rfl
  | record other opened others =>
      rw [cut] at other
      cases other
      rw [opened] at stepped
      rw [stepped, List.flatten_cons]
      exact .goesOn (.drain rfl (Nat.zero_le _) ⟨_, _, _, later, closes, others⟩) rfl

theorem Reader.stepBody_follows {header filled : List UInt8} (four : header.length = 4)
    (short : filled.length < Cbor.ofBigEndian header 0)
    (capped : Cbor.ofBigEndian header 0 ≤ readBodyHardCap)
    (coming : Coming aead reader.recv reader.inner (header ++ filled) plaintexts ending last) :
    FollowStep aead ending last plaintexts.flatten (pendings reader.inner)
      (reader.stepBody aead (Cbor.ofBigEndian header 0) filled).1
      (reader.stepBody aead (Cbor.ofBigEndian header 0) filled).2 := by
  obtain ⟨bytes, after, recordRecv, carries, closes, held⟩ := coming
  have polled := carries.pollInner (show 0 < Cbor.ofBigEndian header 0 - filled.length by omega)
  have cut := nextFrame_header (filled ++ bytes) four
  simp only [if_neg (show Cbor.ofBigEndian header 0 ≠ 0 by omega),
    if_neg (Nat.not_lt.mpr capped)] at cut
  have decodes := held
  rw [List.append_assoc] at decodes
  have cutShort : bytes = [] → nextFrame (header ++ (filled ++ bytes)) = .broken := by
    rintro rfl
    rw [cut, if_pos (by simpa using short)]
  simp only [stepBody]
  generalize pollInner (Cbor.ofBigEndian header 0 - filled.length) reader.inner = answer at polled
  cases polled with
  | waits later fewer =>
      exact .waits (.body rfl four short capped ⟨_, _, _, later, closes, held⟩) fewer.symm
  | done empty =>
      rcases (closes (decodes.unmarked (cutShort empty))).pollInner
        (Cbor.ofBigEndian header 0 - filled.length) with
          ⟨rest, closed⟩ | ⟨error, rest, failed⟩
      · rw [closed]
        exact .of_broken decodes (cutShort empty) rfl rfl
      · rw [failed]
        exact .of_broken decodes (cutShort empty) rfl rfl
  | @reads rest first more left split room later same =>
      subst split
      rw [← List.append_assoc filled] at decodes cut
      simp only
      by_cases shorter : (filled ++ first :: more).length < Cbor.ofBigEndian header 0
      · rw [if_pos shorter]
        rw [← List.append_assoc header] at decodes
        exact .goesOn (.body rfl four shorter capped ⟨_, _, _, later, closes, decodes⟩)
          same.symm
      · rw [if_neg shorter, same]
        have whole : (filled ++ first :: more).length = Cbor.ofBigEndian header 0 := by
          rw [List.length_append] at shorter ⊢
          omega
        rw [if_neg (by rw [List.length_append]; omega), List.take_left' whole,
          List.drop_left' whole] at cut
        exact stepOpen_follows { reader with inner := rest } decodes cut later closes

/-- Every turn of the loop follows the stream. -/
theorem Reader.step_follows {rest : List UInt8} (room : cap ≠ 0)
    (follows : reader.Follows aead ending last rest) :
    FollowStep aead ending last rest (pendings reader.inner) (reader.step aead cap).1
      (reader.step aead cap).2 := by
  cases follows with
  | idle state coming =>
      simp only [step, state]
      exact .goesOn (.len rfl (Nat.zero_lt_succ 3) coming) rfl
  | len state short coming =>
      simp only [step, state]
      exact stepLen_follows short coming
  | body state four short capped coming =>
      simp only [step, state]
      exact stepBody_follows four short capped coming
  | drain state inside coming =>
      simp only [step, state]
      exact stepDrain_follows room state inside coming

/-- A poll is pending, delivers the next bytes, or ends as the stream does. -/
theorem Reader.pollReadMachine_follows {rest : List UInt8} (room : cap ≠ 0)
    (follows : reader.Follows aead ending last rest) :
    ∃ next result, reader.pollReadMachine aead cap = (next, some result) ∧
      FollowStep aead ending last rest (pendings reader.inner) next (some result) := by
  have loops : ∀ (fuel : Nat) (reader : Reader), reader.Follows aead ending last rest →
      FollowStep aead ending last rest (pendings reader.inner) (loop aead cap fuel reader).1
        (loop aead cap fuel reader).2 := by
    intro fuel
    induction fuel with
    | zero => exact fun reader follows => .goesOn follows rfl
    | succ fuel inductionHypothesis =>
        intro reader follows
        have stepped := step_follows room follows
        rw [loop]
        generalize reader.step aead cap = result at stepped
        obtain ⟨next, result⟩ := result
        cases result with
        | some result => exact stepped
        | none =>
            cases stepped with
            | goesOn follows same =>
                rw [← same]
                exact inductionHypothesis next follows
  have returned := reader.pollReadMachine_returns aead cap
  rw [pollReadMachine, if_neg room] at returned ⊢
  obtain ⟨result, isResult⟩ := Option.isSome_iff_exists.mp returned
  refine ⟨_, result, Prod.ext rfl isResult, ?_⟩
  rw [← isResult]
  exact loops _ reader follows

/-- How far a caller that reads to the end has come. -/
inductive ReadRun where
  | reading (reader : Reader) (delivered : List UInt8)
  | failed (error : IoError) (delivered : List UInt8)
  | ended (delivered : List UInt8)
deriving DecidableEq

/-- Reading to the end of stream with one buffer after the other; a `Pending` is
polled again. -/
def readToEnd (aead : Aead) : List Nat → Reader → List UInt8 → ReadRun
  | [], reader, delivered => .reading reader delivered
  | cap :: caps, reader, delivered =>
      match reader.pollReadMachine aead cap with
      | (reader, none) => .reading reader delivered
      | (reader, some .pending) => readToEnd aead caps reader delivered
      | (_, some (.failed error)) => .failed error delivered
      | (_, some (.ready [])) => .ended delivered
      | (reader, some (.ready filled)) => readToEnd aead caps reader (delivered ++ filled)

/-- The peer of a stream before anything has arrived. -/
def Reader.new (inner : List Arrival) (recv : DirectionState) : Reader :=
  { inner, recv, state := .idle }

/-- The reader after one poll for each buffer. -/
def readerAfter (aead : Aead) (caps : List Nat) (reader : Reader) : Reader :=
  caps.foldl (fun reader cap => (reader.pollReadMachine aead cap).1) reader

/-- A reader at its end stays as it is. -/
theorem readerAfter_eof (caps : List Nat) (ended : reader.state = .eof) :
    readerAfter aead caps reader = reader := by
  induction caps with
  | nil => rfl
  | cons cap caps inductionHypothesis =>
      have stays : (reader.pollReadMachine aead cap).1 = reader := by
        simp only [Reader.pollReadMachine]
        split
        · rfl
        · simp only [Reader.loop, Reader.step, ended]
      rw [readerAfter, List.foldl_cons, stays]
      exact inductionHypothesis

/-- What `poll_read` makes of a stream: all bytes and the end of stream, or all bytes
and an error. -/
inductive StreamRun (ending : RecordsEnd) (last : DirectionState) (final : Reader)
    (delivered : List UInt8) : ReadRun → Prop where
  | ended (marker : ending = .marker) (direction : final.recv = last) :
      StreamRun ending last final delivered (.ended delivered)
  | failed {error : IoError} (broken : ending ≠ .marker) (direction : final.recv = last)
      (named : ending = .emptyBody → error = emptyBodyError) :
      StreamRun ending last final delivered (.failed error delivered)

/-- A reader that follows a stream delivers its bytes in order and then ends as the
stream does, after at most one poll for each byte and each pending answer, and one for
the end. -/
theorem readToEnd_follows {rest : List UInt8} (follows : reader.Follows aead ending last rest)
    {caps : List Nat} (room : ∀ cap ∈ caps, cap ≠ 0) (delivered : List UInt8) :
    (caps.length ≤ pendings reader.inner + rest.length ∧ ∃ next now,
        readToEnd aead caps reader delivered = .reading next (delivered ++ now) ∧
        now <+: rest) ∨
      StreamRun ending last (readerAfter aead caps reader) (delivered ++ rest)
        (readToEnd aead caps reader delivered) := by
  induction caps generalizing reader rest delivered with
  | nil => exact .inl ⟨Nat.zero_le _, reader, [], by simp [readToEnd], List.nil_prefix⟩
  | cons cap caps inductionHypothesis =>
      have laterRoom : ∀ other ∈ caps, other ≠ 0 :=
        fun other member => room other (List.mem_cons_of_mem _ member)
      obtain ⟨next, result, polled, stepped⟩ :=
        Reader.pollReadMachine_follows (room cap List.mem_cons_self) follows
      have after : readerAfter aead (cap :: caps) reader = readerAfter aead caps next := by
        rw [readerAfter, List.foldl_cons, polled]
        rfl
      simp only [readToEnd, polled, List.length_cons]
      cases stepped with
      | waits follows fewer =>
          rcases inductionHypothesis follows laterRoom delivered with ⟨bound, reading⟩ | run
          · exact .inl ⟨by omega, reading⟩
          · rw [after]
            exact .inr run
      | @delivers first more left split nextFollows same =>
          subst split
          simp only
          rcases inductionHypothesis nextFollows laterRoom (delivered ++ first :: more) with
            ⟨bound, final, now, reading, inOrder⟩ | run
          · refine .inl ⟨?_, final, first :: more ++ now, ?_, ?_⟩
            · simp only [List.length_append, List.length_cons]
              omega
            · rw [reading, List.append_assoc]
            · exact (List.prefix_append_right_inj _).mpr inOrder
          · rw [List.append_assoc] at run
            rw [after]
            exact .inr run
      | ends empty marker state direction =>
          refine .inr ?_
          rw [empty, List.append_nil, after, readerAfter_eof caps state]
          exact .ended marker direction
      | fails empty broken state direction named =>
          refine .inr ?_
          rw [empty, List.append_nil, after, readerAfter_eof caps state]
          exact .failed broken direction named

end Stream

end CofreSoberano.Transport

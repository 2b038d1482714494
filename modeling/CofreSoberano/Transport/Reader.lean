import CofreSoberano.Transport.Record

/-!
# Receiving records

The two ways of receiving: `poll_read`, a machine whose partial progress outlives
a `Pending`, and `recv_record`, which awaits a whole frame. The byte stream below
is whatever the network makes of it: a script of arrivals in any chunking.
-/

namespace CofreSoberano.Transport

open CofreSoberano.Std

/-- What the byte stream below answers next. -/
inductive Arrival where
  | pending
  | failed (error : IoError)
  /-- End of stream, which is final. -/
  | closed
  /-- At least one byte. -/
  | chunk (first : UInt8) (more : List UInt8)
deriving DecidableEq

/-- The result of polling the byte stream below. -/
inductive InnerPoll where
  | pending
  | failed (error : IoError)
  | ready (bytes : List UInt8)

/-- Bytes that stay in the stream in front of the rest. -/
def pushBack (bytes : List UInt8) (rest : List Arrival) : List Arrival :=
  match bytes with
  | [] => rest
  | first :: more => .chunk first more :: rest

/-- `poll_read` of the byte stream below into a buffer with `cap` bytes left. While
nothing has arrived it is pending. -/
def pollInner (cap : Nat) : List Arrival → InnerPoll × List Arrival
  | [] => (.pending, [])
  | .pending :: rest => (.pending, rest)
  | .failed error :: rest => (.failed error, rest)
  | .closed :: rest => (.ready [], .closed :: rest)
  | .chunk first more :: rest =>
      (.ready ((first :: more).take cap), pushBack ((first :: more).drop cap) rest)

/-- `ReadState`. Of a buffer that is being filled, the model keeps the bytes read. -/
inductive ReadState where
  | idle
  | len (filled : List UInt8)
  | body (length : Nat) (filled : List UInt8)
  | drain (pt : List UInt8) (pos : Nat)
  | eof
deriving DecidableEq

/-- The receiving half of a stream. -/
structure Reader where
  inner : List Arrival
  recv : DirectionState
  state : ReadState
deriving DecidableEq

/-- The result of a `poll_read`: the bytes filled into the caller's buffer. -/
inductive ReadPoll where
  | pending
  | failed (error : IoError)
  | ready (filled : List UInt8)
deriving DecidableEq

namespace Reader

/-- A fatal error: it is returned once, and further reads see the end of stream. -/
def fail (reader : Reader) (error : IoError) : Reader × Option ReadPoll :=
  ({ reader with state := .eof }, some (.failed error))

/-- The `Drain` arm. -/
def stepDrain (reader : Reader) (cap : Nat) (pt : List UInt8) (pos : Nat) :
    Reader × Option ReadPoll :=
  let remaining := pt.length - pos
  if remaining = 0 then ({ reader with state := .idle }, none)
  else if cap = 0 then ({ reader with state := .drain pt pos }, some (.ready []))
  else
    let toCopy := min remaining cap
    let copied := (pt.drop pos).take toCopy
    if pos + toCopy = pt.length then ({ reader with state := .idle }, some (.ready copied))
    else ({ reader with state := .drain pt (pos + toCopy) }, some (.ready copied))

/-- The checks on a complete length prefix. -/
def stepLength (reader : Reader) (filled : List UInt8) : Reader × Option ReadPoll :=
  let ctLen := Cbor.ofBigEndian filled 0
  if ctLen = 0 then
    reader.fail ⟨.invalidData, "CSPQ frame body is empty (missing AEAD tag)"⟩
  else if readBodyHardCap < ctLen then
    reader.fail ⟨.invalidData, s!"CSPQ frame too large: {ctLen}"⟩
  else ({ reader with state := .body ctLen [] }, none)

/-- The `Len` arm. -/
def stepLen (reader : Reader) (filled : List UInt8) : Reader × Option ReadPoll :=
  match pollInner (4 - filled.length) reader.inner with
  | (.pending, inner) => ({ reader with inner, state := .len filled }, some .pending)
  | (.failed error, inner) => { reader with inner }.fail error
  | (.ready [], inner) =>
      { reader with inner }.fail
        ⟨.unexpectedEof, "CSPQ transport closed without an authenticated EOF marker"⟩
  | (.ready bytes, inner) =>
      let filled := filled ++ bytes
      if filled.length < 4 then ({ reader with inner, state := .len filled }, none)
      else { reader with inner }.stepLength filled

/-- What becomes of a complete ciphertext. -/
def stepOpen (aead : Aead) (reader : Reader) (ct : List UInt8) : Reader × Option ReadPoll :=
  match reader.recv.openRecord aead ct with
  | (recv, .error failure) => { reader with recv }.fail ⟨.invalidData, failure.display⟩
  | (recv, .ok []) => ({ reader with recv, state := .eof }, some (.ready []))
  | (recv, .ok pt) =>
      if maxPlaintext < pt.length then
        { reader with recv }.fail ⟨.invalidData, s!"CSPQ plaintext too large: {pt.length}"⟩
      else ({ reader with recv, state := .drain pt 0 }, none)

/-- The `Body` arm. -/
def stepBody (aead : Aead) (reader : Reader) (length : Nat) (filled : List UInt8) :
    Reader × Option ReadPoll :=
  match pollInner (length - filled.length) reader.inner with
  | (.pending, inner) => ({ reader with inner, state := .body length filled }, some .pending)
  | (.failed error, inner) => { reader with inner }.fail error
  | (.ready [], inner) =>
      { reader with inner }.fail ⟨.unexpectedEof, "EOF while reading CSPQ frame body"⟩
  | (.ready bytes, inner) =>
      let filled := filled ++ bytes
      if filled.length < length then ({ reader with inner, state := .body length filled }, none)
      else { reader with inner }.stepOpen aead filled

/-- One turn of the loop of `poll_read_machine`, with its result if it returns. -/
def step (aead : Aead) (reader : Reader) (cap : Nat) : Reader × Option ReadPoll :=
  match reader.state with
  | .eof => (reader, some (.ready []))
  | .drain pt pos => reader.stepDrain cap pt pos
  | .idle => ({ reader with state := .len [] }, none)
  | .len filled => reader.stepLen filled
  | .body length filled => reader.stepBody aead length filled

/-- The loop, for at most `fuel` turns. -/
def loop (aead : Aead) (cap : Nat) : Nat → Reader → Reader × Option ReadPoll
  | 0, reader => (reader, none)
  | fuel + 1, reader =>
      match reader.step aead cap with
      | (next, some result) => (next, some result)
      | (next, none) => loop aead cap fuel next

/-- The bytes and answers left in a script. -/
def scriptWeight : List Arrival → Nat
  | [] => 0
  | .chunk _ more :: rest => more.length + 2 + scriptWeight rest
  | _ :: rest => 1 + scriptWeight rest

/-- A bound on the turns of the loop: a turn that does not return reads from below,
or leaves a drained record, or starts a new one. -/
def turns (reader : Reader) : Nat :=
  2 * scriptWeight reader.inner + match reader.state with
    | .drain pt pos => if pt.length - pos = 0 then 2 else 0
    | .idle => 1
    | _ => 0

/-- `poll_read_machine` into a buffer with `cap` bytes left. -/
def pollReadMachine (aead : Aead) (reader : Reader) (cap : Nat) : Reader × Option ReadPoll :=
  if cap = 0 then (reader, some (.ready []))
  else loop aead cap (reader.turns + 1) reader

end Reader

/-- Bytes read from below are gone from the script. -/
theorem scriptWeight_pollInner {cap : Nat} {script rest : List Arrival} {bytes : List UInt8}
    (polled : pollInner cap script = (.ready bytes, rest)) (some : bytes ≠ []) :
    Reader.scriptWeight rest < Reader.scriptWeight script := by
  cases script with
  | nil => simp [pollInner] at polled
  | cons arrival others =>
      cases arrival with
      | pending => simp [pollInner] at polled
      | failed error => simp [pollInner] at polled
      | closed =>
          simp only [pollInner, Prod.mk.injEq, InnerPoll.ready.injEq] at polled
          exact absurd polled.1.symm some
      | chunk first more =>
          simp only [pollInner, Prod.mk.injEq, InnerPoll.ready.injEq] at polled
          obtain ⟨rfl, rfl⟩ := polled
          have positive : cap ≠ 0 := by
            rintro rfl
            exact some rfl
          cases left : (first :: more).drop cap with
          | nil => simp only [pushBack, Reader.scriptWeight]; omega
          | cons next later =>
              have lengths := congrArg List.length left
              simp only [List.length_drop, List.length_cons] at lengths
              simp only [pushBack, Reader.scriptWeight]
              omega

namespace Reader

/-- The plaintext that waits to be copied to the caller. -/
def remainder (reader : Reader) : List UInt8 :=
  match reader.state with
  | .drain pt pos => pt.drop pos
  | _ => []

/-- In the middle of a frame. -/
def InFrame (reader : Reader) : Prop :=
  match reader.state with
  | .len _ | .body _ _ => True
  | _ => False

/-- What one turn of the loop does. -/
inductive Turn (aead : Aead) (cap : Nat) (reader : Reader) : Reader →
    Option ReadPoll → Prop where
  /-- The end of stream was reported before. -/
  | atEof (state : reader.state = .eof) : Turn aead cap reader reader (some (.ready []))
  /-- A record is used up. -/
  | drained {pt pos} (state : reader.state = .drain pt pos) (all : pt.length - pos = 0) :
      Turn aead cap reader { reader with state := .idle } none
  /-- The caller has no room. -/
  | refused {pt pos} (state : reader.state = .drain pt pos) (full : cap = 0) :
      Turn aead cap reader reader (some (.ready []))
  /-- Plaintext is copied to the caller. -/
  | copied {pt pos count next} (state : reader.state = .drain pt pos) (positive : 0 < count)
      (inside : pos + count ≤ pt.length)
      (after : next = .idle ∧ pos + count = pt.length ∨ next = .drain pt (pos + count)) :
      Turn aead cap reader { reader with state := next } (some (.ready ((pt.drop pos).take count)))
  /-- A record is begun. -/
  | started (state : reader.state = .idle) : Turn aead cap reader
      { reader with state := .len [] } none
  /-- Nothing has arrived. -/
  | waited {inner} (inFrame : reader.InFrame) :
      Turn aead cap reader { reader with inner } (some .pending)
  /-- Part of a frame is read. -/
  | read {inner state} (inFrame : reader.InFrame)
      (shorter : scriptWeight inner < scriptWeight reader.inner)
      (stays : { reader with inner, state }.InFrame) :
      Turn aead cap reader { reader with inner, state } none
  /-- Something fatal happened. -/
  | failed {inner recv error} (inFrame : reader.InFrame) :
      Turn aead cap reader { inner, recv, state := .eof } (some (.failed error))
  /-- A record is opened. -/
  | opened {inner recv ct pt} (inFrame : reader.InFrame)
      (shorter : scriptWeight inner < scriptWeight reader.inner)
      (opens : reader.recv.openRecord aead ct = (recv, .ok pt)) (nonempty : pt ≠ []) :
      Turn aead cap reader { inner, recv, state := .drain pt 0 } none
  /-- The end-of-stream marker is opened. -/
  | marked {inner recv ct} (inFrame : reader.InFrame)
      (opens : reader.recv.openRecord aead ct = (recv, .ok [])) :
      Turn aead cap reader { inner, recv, state := .eof } (some (.ready []))

section Turns

variable {aead : Aead} {cap : Nat} {reader : Reader}

theorem stepDrain_turn {pt : List UInt8} {pos : Nat} (state : reader.state = .drain pt pos) :
    Turn aead cap reader (reader.stepDrain cap pt pos).1 (reader.stepDrain cap pt pos).2 := by
  simp only [stepDrain]
  by_cases all : pt.length - pos = 0
  · rw [if_pos all]
    exact .drained state all
  · rw [if_neg all]
    by_cases full : cap = 0
    · rw [if_pos full, ← state]
      exact .refused state full
    · rw [if_neg full]
      by_cases last : pos + min (pt.length - pos) cap = pt.length
      · rw [if_pos last]
        exact .copied state (by omega) (by omega) (.inl ⟨rfl, last⟩)
      · rw [if_neg last]
        exact .copied state (by omega) (by omega) (.inr rfl)

theorem stepLen_turn {filled : List UInt8} (state : reader.state = .len filled) :
    Turn aead cap reader (reader.stepLen filled).1 (reader.stepLen filled).2 := by
  have inFrame : reader.InFrame := by simp [InFrame, state]
  simp only [stepLen]
  split
  · rw [← state]
    exact .waited inFrame
  · exact .failed inFrame
  · exact .failed inFrame
  · rename_i bytes inner some polled
    have shorter := scriptWeight_pollInner polled (by simpa using some)
    split
    · exact .read inFrame shorter trivial
    · simp only [stepLength]
      split
      · exact .failed inFrame
      · split
        · exact .failed inFrame
        · exact .read inFrame shorter trivial

theorem stepBody_turn {length : Nat} {filled : List UInt8}
    (state : reader.state = .body length filled) :
    Turn aead cap reader (reader.stepBody aead length filled).1
      (reader.stepBody aead length filled).2 := by
  have inFrame : reader.InFrame := by simp [InFrame, state]
  simp only [stepBody]
  split
  · rw [← state]
    exact .waited inFrame
  · exact .failed inFrame
  · exact .failed inFrame
  · rename_i bytes inner some polled
    have shorter := scriptWeight_pollInner polled (by simpa using some)
    split
    · exact .read inFrame shorter trivial
    · simp only [stepOpen]
      split
      · exact .failed inFrame
      · rename_i recv opens
        exact .marked inFrame opens
      · rename_i recv pt nonempty opens
        split
        · exact .failed inFrame
        · exact .opened inFrame shorter opens (by simpa using nonempty)

/-- Every turn of the loop does one of these things. -/
theorem step_turn (aead : Aead) (cap : Nat) (reader : Reader) :
    Turn aead cap reader (reader.step aead cap).1 (reader.step aead cap).2 := by
  simp only [step]
  split
  · rename_i state
    exact .atEof state
  · rename_i state
    exact stepDrain_turn state
  · rename_i state
    exact .started state
  · rename_i state
    exact stepLen_turn state
  · rename_i state
    exact stepBody_turn state

/-- A turn of the loop that does not return comes closer to the end. -/
theorem Turn.closer {next : Reader} (turn : Turn aead cap reader next none) :
    next.turns < reader.turns := by
  have frame : ∀ {other : Reader}, other.InFrame →
      other.turns = 2 * scriptWeight other.inner := by
    intro other inFrame
    cases state : other.state <;> simp_all [InFrame, turns]
  cases turn with
  | drained state all => simp [turns, state, all]
  | started state => simp [turns, state]
  | read inFrame shorter stays =>
      rw [frame inFrame, frame stays]
      exact Nat.mul_lt_mul_of_pos_left shorter (by decide)
  | @opened inner recv ct pt inFrame shorter opens nonempty =>
      have some : pt.length ≠ 0 := by simpa using nonempty
      rw [frame inFrame]
      simp only [turns, Nat.sub_zero, if_neg some]
      omega

end Turns

/-- `poll_read_machine` returns. -/
theorem pollReadMachine_returns (aead : Aead) (reader : Reader) (cap : Nat) :
    (reader.pollReadMachine aead cap).2.isSome = true := by
  have loops : ∀ fuel (reader : Reader), reader.turns < fuel →
      (loop aead cap fuel reader).2.isSome = true := by
    intro fuel
    induction fuel with
    | zero => exact fun reader enough => absurd enough (Nat.not_lt_zero _)
    | succ fuel inductionHypothesis =>
        intro reader enough
        simp only [loop]
        cases stepped : reader.step aead cap with
        | mk next result =>
            cases result with
            | some result => rfl
            | none =>
                refine inductionHypothesis next ?_
                have turn := step_turn aead cap reader
                rw [stepped] at turn
                have closer : next.turns < reader.turns := turn.closer
                omega
  rw [pollReadMachine]
  split
  · rfl
  · exact loops _ reader (Nat.lt_succ_self _)

end Reader

/-- The result of awaiting an exact number of bytes. -/
inductive Awaited where
  /-- Not all of them have arrived. -/
  | waiting
  | failed (error : IoError) (rest : List Arrival)
  | done (bytes : List UInt8) (rest : List Arrival)
deriving DecidableEq

/-- `read_exact`, which awaits through every `Pending`. -/
def readExact : List Arrival → Nat → Awaited
  | script, 0 => .done [] script
  | [], _ + 1 => .waiting
  | .pending :: rest, count + 1 => readExact rest (count + 1)
  | .failed error :: rest, _ + 1 => .failed error rest
  | .closed :: rest, _ + 1 => .failed ⟨.unexpectedEof, "early eof"⟩ (.closed :: rest)
  | .chunk first more :: rest, count + 1 =>
      if count < more.length then
        .done ((first :: more).take (count + 1)) (pushBack ((first :: more).drop (count + 1)) rest)
      else match readExact rest (count - more.length) with
      | .waiting => .waiting
      | .failed error rest => .failed error rest
      | .done bytes rest => .done (first :: more ++ bytes) rest

/-- `read_frame`: a length prefix and a body of at most `max` bytes. The outer
option is empty while the frame has not arrived. -/
def readFrame (script : List Arrival) (max : Nat) :
    Option (List Arrival × Except Error (List UInt8)) :=
  match readExact script 4 with
  | .waiting => none
  | .failed error rest => some (rest, .error (.io error))
  | .done lenBuf rest =>
      let len := Cbor.ofBigEndian lenBuf 0
      if min max maxFrame < len then some (rest, .error (.frameTooLarge len max))
      else match readExact rest len with
      | .waiting => none
      | .failed error rest => some (rest, .error (.io error))
      | .done buf rest => some (rest, .ok buf)

/-- `recv_record`. The outer option is empty while it awaits its frame. -/
def Reader.recvRecord (aead : Aead) (reader : Reader) :
    Option (Reader × Except Error (List UInt8)) :=
  match readFrame reader.inner (maxPlaintext + tagLen + 64) with
  | none => none
  | some (inner, .error failure) => some ({ reader with inner }, .error failure)
  | some (inner, .ok ct) =>
      match reader.recv.openRecord aead ct with
      | (recv, .error failure) => some ({ reader with inner, recv }, .error failure)
      | (recv, .ok pt) =>
          if maxPlaintext < pt.length then
            some ({ reader with inner, recv }, .error (.frameTooLarge pt.length maxPlaintext))
          else some ({ reader with inner, recv }, .ok pt)

/-- A record that is returned was opened. -/
theorem Reader.recvRecord_eq_ok {aead : Aead} {reader next : Reader} {pt : List UInt8}
    (received : reader.recvRecord aead = some (next, .ok pt)) :
    ∃ ct, reader.recv.openRecord aead ct = (next.recv, .ok pt) := by
  simp only [recvRecord] at received
  split at received
  · cases received
  · cases received
  · rename_i inner ct _
    split at received
    · cases received
    · rename_i recv plaintext opens
      split at received
      · cases received
      · cases received
        exact ⟨ct, opens⟩

end CofreSoberano.Transport

import CofreSoberano.Audit.Log

/-!
# The `.qa` file format

A magic, the header and the entries, each written by `ciborium`. How `ciborium`
reads arbitrary bytes is a parameter; what the format relies on is that it reads
back what it wrote and stops there.
-/

namespace CofreSoberano.Audit

open CofreSoberano.Std

/-- `ciborium` on headers and entries. No entry is written as nothing. -/
structure LogCodec where
  header : WireFormat LogHeader
  entry : WireFormat LogEntry
  entry_nonempty : ∀ value, entry.encode value ≠ []
  /-- The texts of the errors on what is not read. -/
  headerFailure : List UInt8 → String
  entryFailure : List UInt8 → String

/-- `MAGIC`. -/
def magic : List UInt8 := Cbor.utf8 "QAUDIT01"

/-- The `02x?` format of bytes. -/
def hexDebug (bytes : List UInt8) : String :=
  "[" ++ ", ".intercalate (bytes.map fun byte => hexEncode [byte]) ++ "]"

/-- The loop of `read_from`. A clean end is an end of input in front of an entry.
Each entry takes at least one byte, so the length of the input bounds the loop. -/
def readEntries (codec : LogCodec) : Nat → List UInt8 → Except Error (List LogEntry)
  | _, [] => .ok []
  | 0, first :: rest => .error (.cbor (codec.entryFailure (first :: rest)))
  | fuel + 1, first :: rest =>
      match codec.entry.decode (first :: rest) with
      | none => .error (.cbor (codec.entryFailure (first :: rest)))
      | some (entry, remaining) => do
          let entries ← readEntries codec fuel remaining
          return entry :: entries

namespace AuditLog

/-- `AuditLog::save_to`. -/
def saveTo (codec : LogCodec) (log : AuditLog) : List UInt8 :=
  magic ++ (codec.header.encode log.header ++ log.entries.flatMap codec.entry.encode)

/-- `AuditLog::read_from`: the frontier is rebuilt, no signer is bound. -/
def readFrom (crates : Crates) (codec : LogCodec) (input : List UInt8) : Except Error AuditLog :=
  if input.length < magic.length then .error (.io "failed to fill whole buffer")
  else if input.take magic.length ≠ magic then
    .error (.badHeader <|
      "bad magic: got " ++ hexDebug (input.take magic.length) ++ ", expected " ++ hexDebug magic)
  else match codec.header.decode (input.drop magic.length) with
  | none => .error (.cbor (codec.headerFailure (input.drop magic.length)))
  | some (header, rest) => do
      validateHeader header
      let entries ← readEntries codec rest.length rest
      return { header, entries
               tree := .ofContents crates (contents crates entries)
               signer := none }

end AuditLog

/-- What a successful `read_from` went through. -/
theorem AuditLog.readFrom_eq_ok {crates : Crates} {codec : LogCodec} {input : List UInt8}
    {log : AuditLog} (read : readFrom crates codec input = .ok log) :
    ∃ header rest entries, input.take magic.length = magic ∧
      codec.header.decode (input.drop magic.length) = some (header, rest) ∧
      validateHeader header = .ok () ∧ readEntries codec rest.length rest = .ok entries ∧
      log = { header, entries
              tree := .ofContents crates (contents crates entries)
              signer := none } := by
  simp only [AuditLog.readFrom] at read
  split at read
  · cases read
  split at read
  · cases read
  rename_i isMagic
  split at read
  · cases read
  rename_i header rest decoded
  obtain ⟨_, valid, read⟩ := bind_eq_ok.mp read
  obtain ⟨entries, isEntries, read⟩ := bind_eq_ok.mp read
  cases read
  exact ⟨header, rest, entries, not_not.mp isMagic, decoded, valid, isEntries, rfl⟩

/-- Written entries are read back to the end. -/
theorem readEntries_flatMap (codec : LogCodec) (entries : List LogEntry) (fuel : Nat)
    (enough : (entries.flatMap codec.entry.encode).length ≤ fuel) :
    readEntries codec fuel (entries.flatMap codec.entry.encode) = .ok entries := by
  induction entries generalizing fuel with
  | nil =>
      cases fuel <;> rfl
  | cons entry rest inductionHypothesis =>
      obtain ⟨first, tail, written⟩ := List.exists_cons_of_ne_nil (codec.entry_nonempty entry)
      have decoded := codec.entry.decode_encode entry (rest.flatMap codec.entry.encode)
      rw [List.flatMap_cons, written, List.cons_append] at enough ⊢
      rw [written, List.cons_append] at decoded
      cases fuel with
      | zero => simp at enough
      | succ fuel =>
          simp only [readEntries, decoded]
          rw [inductionHypothesis fuel (by simp at enough ⊢; omega)]
          rfl

/-- The bytes of a log determine its header and its entries. -/
theorem AuditLog.saveTo_inj {codec : LogCodec} {left right : AuditLog}
    (same : left.saveTo codec = right.saveTo codec) :
    left.header = right.header ∧ left.entries = right.entries := by
  rw [saveTo, saveTo, List.append_cancel_left_eq] at same
  obtain ⟨header, written⟩ := codec.header.append_inj same
  have leftRead := readEntries_flatMap codec left.entries _ le_rfl
  have rightRead := readEntries_flatMap codec right.entries _ le_rfl
  rw [written, rightRead] at leftRead
  exact ⟨header, (Except.ok.inj leftRead).symm⟩

/-- A log as it is read back: the frontier is rebuilt and no signer is bound. -/
def AuditLog.reopened (crates : Crates) (log : AuditLog) : AuditLog :=
  { log with tree := .ofContents crates (contents crates log.entries), signer := none }

/-- What was written is read back, if its header is valid. -/
theorem AuditLog.readFrom_saveTo (crates : Crates) (codec : LogCodec) (log : AuditLog) :
    readFrom crates codec (log.saveTo codec) =
      (validateHeader log.header).map fun _ => log.reopened crates := by
  have long : ¬ (log.saveTo codec).length < magic.length := by
    simp [saveTo]
  have front : (log.saveTo codec).take magic.length = magic := by simp [saveTo]
  have back : (log.saveTo codec).drop magic.length =
      codec.header.encode log.header ++ log.entries.flatMap codec.entry.encode := by simp [saveTo]
  simp only [readFrom]
  rw [if_neg long, if_neg (not_not.mpr front), back, codec.header.decode_encode]
  simp only
  rw [readEntries_flatMap codec log.entries _ le_rfl]
  cases validateHeader log.header <;> rfl

/-- Reading back a sound log gives a sound log. -/
theorem AuditLog.Sound.readFrom {crates : Crates} {log : AuditLog} (sound : log.Sound crates)
    (codec : LogCodec) :
    ∃ opened, AuditLog.readFrom crates codec (log.saveTo codec) = .ok opened ∧
      opened = { log with signer := none } ∧ opened.Sound crates := by
  refine ⟨log.reopened crates, ?_, ?_, ?_⟩
  · rw [readFrom_saveTo, sound.header]
    rfl
  · rw [reopened, ← sound.tree]
  · exact ⟨sound.header, sound.linked, rfl, by simp [reopened]⟩

/-- A struct with the single field `bytes`, as keys and signatures are written. -/
def bytesStruct : WireFormat (List UInt8) := Cbor.struct 1 (Cbor.field "bytes" Cbor.bytes)

/-- A byte as an unsigned integer. -/
def uint8Format : WireFormat UInt8 :=
  Cbor.unsigned.convert UInt8.toNat (fun n => some (UInt8.ofNat n)) (by simp)

/-- A hash without the byte-string attribute: an array of 32 integers. -/
def hashArray : WireFormat Hash := .marked (Cbor.head 4 32) (.repeated 32 uint8Format)

/-- A byte string of known length does not start like `null`. -/
def optionalOctets (count : Nat) (apart : (Cbor.head 2 count).head? ≠ some 0xF6) :
    WireFormat (Option (Octets count)) :=
  .orByte 0xF6 (Cbor.octets count) (by
    intro value
    obtain ⟨info, rest, _, split⟩ := Cbor.head_first 2 count
    refine ⟨_, rest ++ value.1, by simp only [Cbor.octets, WireFormat.marked, split]; rfl, ?_⟩
    intro same
    exact apart (by rw [split, same]; rfl))

/-- The CBOR layout of a header. -/
def headerFormat : WireFormat LogHeader :=
  (Cbor.struct 8
    (.pair (Cbor.field "wire_version" uint32Format)
    (.pair (Cbor.field "suite" Cbor.text)
    (.pair (Cbor.field "created_at" Cbor.text)
    (.pair (Cbor.field "log_id" (Cbor.octets 16))
    (.pair (Cbor.field "pubkey" bytesStruct)
    (.pair (Cbor.field "label" Cbor.text)
    (.pair (Cbor.field "prev_log_id" (optionalOctets 16 (by decide)))
      (Cbor.field "prev_log_final_root" (optionalOctets 32 (by decide)))))))))) ).convert
    (fun header => (header.wireVersion, header.suite, header.createdAt, header.logId,
      header.pubkey.bytes, header.label, header.prevLogId, header.prevLogFinalRoot))
    (fun (wireVersion, suite, createdAt, logId, pubkey, label, prevLogId, prevLogFinalRoot) =>
      some { wireVersion, suite, createdAt, logId, pubkey := ⟨pubkey⟩, label, prevLogId
             prevLogFinalRoot })
    (fun _ => rfl)

/-- The CBOR layout of an entry. -/
def entryFormat : WireFormat LogEntry :=
  (Cbor.struct 6
    (.pair (Cbor.field "index" Cbor.unsigned)
    (.pair (Cbor.field "appended_at" Cbor.text)
    (.pair (Cbor.field "event" eventFormat)
    (.pair (Cbor.field "prev_root" hashArray)
    (.pair (Cbor.field "new_root" hashArray)
      (Cbor.field "signature" bytesStruct))))))).convert
    (fun entry => (entry.index, entry.appendedAt, entry.event, entry.prevRoot, entry.newRoot,
      entry.signature.bytes))
    (fun (index, appendedAt, event, prevRoot, newRoot, signature) =>
      some { index, appendedAt, event, prevRoot, newRoot, signature := ⟨signature⟩ })
    (fun _ => rfl)

/-- A codec that reads exactly what `ciborium` writes. -/
def cborCodec : LogCodec where
  header := headerFormat
  entry := entryFormat
  entry_nonempty value := by
    obtain ⟨info, rest, _, split⟩ := Cbor.head_first 5 6
    simp only [entryFormat, WireFormat.convert, Cbor.struct, WireFormat.marked, split]
    exact List.cons_ne_nil _ _
  headerFailure _ := "Syntax(0)"
  entryFailure _ := "Syntax(0)"

end CofreSoberano.Audit

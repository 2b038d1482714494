import CofreSoberano.Audit.Event

/-!
# Hashing and signing

What the audit core takes from the `blake3` and `fips204` crates is a parameter
of the model. The checks around it, and the errors they raise, are the code's.
-/

namespace CofreSoberano.Audit

open CofreSoberano.Std

/-- 256-bit hash output. -/
abbrev Hash := Octets 32

/-- The hash of an empty tree. -/
def zeroHash : Hash := ⟨List.replicate 32 0, rfl⟩

/-- All errors of the audit core. -/
inductive Error where
  | io (message : String)
  | cbor (message : String)
  | badSignature (index : Nat)
  | badKey (message : String)
  | chainBroken (index : Nat) (expected got : String)
  | invalidEntry (index : Nat) (reason : String)
  | badHeader (message : String)
  | versionMismatch (found supported : UInt32)
  | internal (message : String)
deriving DecidableEq

/-- The `Display` texts of the errors. -/
def Error.display : Error → String
  | .io message => s!"io error: {message}"
  | .cbor message => s!"serialization error: {message}"
  | .badSignature index => s!"invalid signature at entry {index}"
  | .badKey message => s!"invalid key material: {message}"
  | .chainBroken index expected got =>
      s!"merkle chain broken at index {index}: prev_root expected {expected}, got {got}"
  | .invalidEntry index reason => s!"invalid entry at index {index}: {reason}"
  | .badHeader message => s!"invalid header: {message}"
  | .versionMismatch found supported =>
      s!"version mismatch: log is v{found}, library supports v{supported}"
  | .internal message => s!"internal error: {message}"

/-- The primitives of other crates. -/
structure Crates where
  /-- `blake3::hash`. -/
  blake3 : List UInt8 → Hash
  /-- `ml_dsa_87::PublicKey::try_from_bytes`: it succeeds, or the text of its error. -/
  mlDsaDecodes : List UInt8 → Except String Unit
  /-- `verify(message, signature, context)` under a public key. -/
  mlDsaVerify : List UInt8 → List UInt8 → List UInt8 → List UInt8 → Bool

/-- `AuditEvent::content_hash`. -/
def AuditEvent.contentHash (crates : Crates) (event : AuditEvent) : Hash :=
  crates.blake3 event.toCanonicalCbor

/-- Length of an ML-DSA-87 public key. -/
def publicKeyLen : Nat := 2592

/-- Length of an ML-DSA-87 signature. -/
def signatureLen : Nat := 4627

/-- `SIG_CONTEXT`, bound into every audit signature. -/
def sigContext : List UInt8 := Cbor.utf8 "cofre-soberano-pq/qaudit/v1"

/-- An ML-DSA-87 public key. -/
@[ext] structure PublicKey where
  bytes : List UInt8
deriving DecidableEq

/-- An ML-DSA-87 signature. -/
structure Signature where
  bytes : List UInt8
deriving DecidableEq

/-- `PublicKey::from_bytes`. -/
def PublicKey.fromBytes (bytes : List UInt8) : Except Error PublicKey :=
  if bytes.length ≠ publicKeyLen then
    .error (.badKey s!"public key must be {publicKeyLen} bytes, got {bytes.length}")
  else .ok ⟨bytes⟩

/-- `Signature::from_bytes`. -/
def Signature.fromBytes (bytes : List UInt8) : Except Error Signature :=
  if bytes.length ≠ signatureLen then .error (.badSignature (2 ^ 64 - 1)) else .ok ⟨bytes⟩

theorem PublicKey.fromBytes_eq_ok {bytes : List UInt8} {pk : PublicKey} :
    PublicKey.fromBytes bytes = .ok pk ↔ bytes.length = publicKeyLen ∧ pk = ⟨bytes⟩ := by
  by_cases fits : bytes.length = publicKeyLen <;> simp [PublicKey.fromBytes, fits, eq_comm]

theorem Signature.fromBytes_eq_ok {bytes : List UInt8} {sig : Signature} :
    Signature.fromBytes bytes = .ok sig ↔ bytes.length = signatureLen ∧ sig = ⟨bytes⟩ := by
  by_cases fits : bytes.length = signatureLen <;> simp [Signature.fromBytes, fits, eq_comm]

/-- `verify` of `signing.rs`. -/
def verifySig (crates : Crates) (pk : PublicKey) (msg : List UInt8) (sig : Signature)
    (index : Nat) : Except Error Unit :=
  if pk.bytes.length ≠ publicKeyLen then .error (.badKey "public key wrong length")
  else if sig.bytes.length ≠ signatureLen then .error (.badSignature index)
  else match crates.mlDsaDecodes pk.bytes with
  | .error failure => .error (.badKey s!"ML-DSA-87 pk decode: {failure}")
  | .ok () =>
      if crates.mlDsaVerify pk.bytes msg sig.bytes sigContext then .ok ()
      else .error (.badSignature index)

/-- A signature is accepted for one entry exactly when it is for any other. -/
theorem verifySig_index {crates : Crates} {pk : PublicKey} {msg : List UInt8} {sig : Signature}
    {index other : Nat} (verified : verifySig crates pk msg sig index = .ok ()) :
    verifySig crates pk msg sig other = .ok () := by
  simp only [verifySig] at verified ⊢
  split at verified
  · cases verified
  · split at verified
    · cases verified
    · split at verified
      · cases verified
      · split at verified <;> simp_all

/-- An accepted signature passed the ML-DSA verification. -/
theorem mlDsaVerify_of_verifySig {crates : Crates} {pk : PublicKey} {msg : List UInt8}
    {sig : Signature} {index : Nat} (verified : verifySig crates pk msg sig index = .ok ()) :
    crates.mlDsaVerify pk.bytes msg sig.bytes sigContext = true := by
  simp only [verifySig] at verified
  repeat' split at verified
  all_goals first | assumption | cases verified

/-- A signing backend: its public key and provenance tag. What its `sign` returns
can differ from call to call and is an argument of every signing operation. -/
structure Signer where
  publicKey : PublicKey
  provenance : String
deriving DecidableEq

/-- The outcome of one `sign` call, for each message it could be given. -/
abbrev SignCall := List UInt8 → Except Error Signature

/-- The contract of the `Signer` trait: what a call returns passes `verify` under
the signer's public key. -/
def SignCall.Honours (crates : Crates) (pk : PublicKey) (call : SignCall) : Prop :=
  ∀ msg sig, call msg = .ok sig → verifySig crates pk msg sig 0 = .ok ()

/-- Transparent primitives: a polynomial checksum as the hash, and signatures that
carry their message. -/
def plainCrates : Crates where
  blake3 input :=
    ⟨Cbor.bigEndian 32 (input.foldl (fun sum byte => (sum * 257 + byte.toNat + 1) % 256 ^ 32) 7),
      Cbor.bigEndian_length _ _⟩
  mlDsaDecodes _ := .ok ()
  mlDsaVerify _ msg sig _ := decide ((Cbor.bytes.decode sig).map Prod.fst = some msg)

/-- A signer of the transparent primitives. -/
def plainSigner : Signer where
  publicKey := ⟨List.replicate publicKeyLen 7⟩
  provenance := "soft:in-memory"

/-- Its signatures: the message, padded to the length of a signature. -/
def plainSign : SignCall := fun msg =>
  let framed := Cbor.bytes.encode msg
  if framed.length ≤ signatureLen then
    .ok ⟨framed ++ List.replicate (signatureLen - framed.length) 0⟩
  else .error (.internal "message too long")

/-- A signer that is out of service. -/
def failingSign : SignCall := fun _ => .error (.internal "HSM unavailable")

theorem failingSign_honours (crates : Crates) (pk : PublicKey) : failingSign.Honours crates pk := by
  rintro _ _ ⟨⟩

theorem plainSigner_wellFormed : plainSigner.publicKey.bytes.length = publicKeyLen :=
  List.length_replicate

theorem plainSign_honours : plainSign.Honours plainCrates plainSigner.publicKey := by
  intro msg sig signed
  simp only [plainSign] at signed
  split at signed
  · rename_i short
    cases signed
    have length : (Cbor.bytes.encode msg ++
        List.replicate (signatureLen - (Cbor.bytes.encode msg).length) 0).length =
        signatureLen := by
      rw [List.length_append, List.length_replicate, Nat.add_sub_cancel' short]
    simp only [verifySig, plainCrates, Cbor.bytes.decode_encode]
    rw [if_neg (not_not.mpr plainSigner_wellFormed), if_neg (not_not.mpr length)]
    simp
  · cases signed

/-- A signature of the transparent primitives determines its message. -/
theorem plainCrates_verify_unique {pk sig ctx left right : List UInt8}
    (leftVerified : plainCrates.mlDsaVerify pk left sig ctx = true)
    (rightVerified : plainCrates.mlDsaVerify pk right sig ctx = true) : left = right := by
  simp only [plainCrates, decide_eq_true_eq] at leftVerified rightVerified
  exact Option.some.inj (leftVerified.symm.trans rightVerified)

end CofreSoberano.Audit

import CofreSoberano.Channel.Tenants
import CofreSoberano.Channel.Exit
import CofreSoberano.Gateway.Daemon

/-!
# The audit logs of several tenants

`build_tenant_runtime` opens the `audit_log` of each tenant in turn and spawns its
writer; from then on all writers run side by side on the same files. Validation does
not compare the paths of two tenants. If no two tenants that sign with the same key
name the same file, every tenant's log is safe from all others.
-/

namespace CofreSoberano.Gateway

open CofreSoberano.Std CofreSoberano.Audit CofreSoberano.Channel

/-- What opening the logs finds: which file a path of the configuration names, the
peer directories, and the signers behind the `audit_signer` sections. -/
structure AuditHost where
  resolve : String → Path
  peerPolicy : String → Except String (List String)
  loadSigner : AuditSignerConfig → Except String Signer
  wellFormed : ∀ {config signer}, loadSigner config = .ok signer →
    signer.publicKey.bytes.length = publicKeyLen

/-- What opening one log draws. -/
structure OpenDraws where
  logId : LogId
  now : Timestamp
  saving : SaveFaults

/-- `create_with_signer` and the first save. -/
def createAuditLog (codec : LogCodec) (file : Path) (signer : Signer) (tenantName : String)
    (draws : OpenDraws) (disk : Channel.Disk) : Except String (AuditLog × Channel.Disk) :=
  let log := AuditLog.createWithSigner signer s!"qgateway/{tenantName}" draws.logId draws.now
  let script := save (log.saveTo codec) file draws.saving
  (script disk).outcome.map fun _ => (log, script.final disk)

/-- `bind_signer` on a log that was opened. -/
def bindOpened (crates : Crates) (signer : Signer) (log : AuditLog) : Except String AuditLog := do
  let (log, bound) := log.bindSigner crates signer
  bound.mapError Error.display
  return log

/-- `build_audit_log_softkey`. -/
def buildAuditLogSoftkey (crates : Crates) (codec : LogCodec) (path : String) (file : Path)
    (signer : Signer) (tenantName : String) (draws : OpenDraws) (disk : Channel.Disk) :
    Except String (AuditLog × Channel.Disk) :=
  match disk file with
  | some bytes => do
      let log ← withContext s!"opening existing audit log {path}"
        ((AuditLog.readFrom crates codec bytes).mapError Error.display)
      ensure (log.header.pubkey.bytes = signer.publicKey.bytes)
        (s!"audit log {path} was signed by a different audit identity; fingerprint on disk: " ++
          s!"{hexEncode (log.header.pubkey.bytes.take 16)} — refusing to extend")
      let log ← bindOpened crates signer log
      return (log, disk)
  | none => createAuditLog codec file signer tenantName draws disk

/-- `build_audit_log_pkcs11`, which leaves the comparison of keys to `bind_signer`. -/
def buildAuditLogPkcs11 (crates : Crates) (codec : LogCodec) (file : Path) (signer : Signer)
    (tenantName : String) (draws : OpenDraws) (disk : Channel.Disk) :
    Except String (AuditLog × Channel.Disk) :=
  match disk file with
  | some bytes => do
      let log ← (AuditLog.readFrom crates codec bytes).mapError Error.display
      let log ← bindOpened crates signer log
      return (log, disk)
  | none => createAuditLog codec file signer tenantName draws disk

/-- The tenant that `spawn_with_rotation` starts on its log. -/
def spawnTenantLog (file : Path) (log : AuditLog) : Tenant where
  config := { path := file, capacity := 256, batchSize := 16, hasFactory := true }
  writer := .spawn log fun _ => none
  errand := none
  opened := log.entries
  archives := []
  saved := log.entries

/-- `build_tenant_runtime`, as far as the audit log is concerned. -/
def openTenant (crates : Crates) (codec : LogCodec) (host : AuditHost) (cfg : Config)
    (t : TenantConfig) (draws : OpenDraws) (disk : Channel.Disk) :
    Except String (Tenant × Channel.Disk) := do
  let peers ← withContext s!"loading peer dir {t.peerPubDir}" (host.peerPolicy t.peerPubDir)
  nonemptyPeers t peers
  let config ← requireSigner cfg t
  let file := host.resolve t.auditLog
  match config with
  | .softkey secretKey publicKey =>
      let signer ← withContext s!"loading audit keypair (sk={secretKey} pk={publicKey})"
        (host.loadSigner config)
      let (log, disk) ← buildAuditLogSoftkey crates codec t.auditLog file signer t.name draws disk
      return (spawnTenantLog file log, disk)
  | .pkcs11 .. =>
      let signer ← withContext "PKCS#11 audit signer" (host.loadSigner config)
      let (log, disk) ← buildAuditLogPkcs11 crates codec file signer t.name draws disk
      return (spawnTenantLog file log, disk)

/-- The tenants opened so far, one after the other. A temporary name is drawn where
no file is, and is not the name of a log. -/
inductive Opening (crates : Crates) (codec : LogCodec) (host : AuditHost) (cfg : Config)
    (start : Channel.Disk) : List TenantConfig → List Tenant → Channel.Disk → Prop where
  | start : Opening crates codec host cfg start [] [] start
  | next {done tenants disk t draws tenant after}
      (prior : Opening crates codec host cfg start done tenants disk)
      (free : disk draws.saving.temp = none) (aside : draws.saving.temp ≠ host.resolve t.auditLog)
      (opened : openTenant crates codec host cfg t draws disk = .ok (tenant, after)) :
      Opening crates codec host cfg start (done ++ [t]) (tenants ++ [tenant]) after

/-- The writers of all tenants and the files they share. -/
structure AuditWriters where
  disk : Channel.Disk
  tenants : List Tenant

/-- One tenant moves. -/
def auditStep (crates : Crates) (codec : LogCodec) (state : AuditWriters) :
    Nat × TenantMove → Option AuditWriters
  | (i, move) => do
      let tenant ← state.tenants[i]?
      let (tenant, disk) ← tenantStep crates codec tenant state.disk move
      return { disk, tenants := state.tenants.set i tenant }

/-- The audit writers of a daemon that has started with a valid configuration. -/
def auditMachine (crates : Crates) (codec : LogCodec) (host : AuditHost) (cfg : Config) :
    Machine where
  State := AuditWriters
  Label := Nat × TenantMove
  Initial state := cfg.validate = .ok () ∧ ∃ start,
    Opening crates codec host cfg start cfg.tenants state.tenants state.disk
  step := auditStep crates codec

/-- The key that a tenant signs with. -/
def Config.auditKey (cfg : Config) (host : AuditHost) (t : TenantConfig) : Option PublicKey :=
  (cfg.effectiveSigner t).bind fun signer =>
    (host.loadSigner signer).toOption.map Signer.publicKey

/-- No two tenants that sign with the same key name the same file. -/
def Config.SeparateLogs (cfg : Config) (host : AuditHost) : Prop :=
  cfg.tenants.Pairwise fun t u => host.resolve t.auditLog = host.resolve u.auditLog →
    ∀ key, cfg.auditKey host t = some key → cfg.auditKey host u ≠ some key

/-- A log that was opened: it is what its file holds and is signed with the key that
extends it, and no file that stood before has changed. -/
structure OpensLog (crates : Crates) (codec : LogCodec) (file : Path) (signer : Signer)
    (before : Channel.Disk) (log : AuditLog) (after : Channel.Disk) : Prop where
  key : log.header.pubkey = signer.publicKey
  stands : ∃ bytes opened, after file = some bytes ∧
    AuditLog.readFrom crates codec bytes = .ok opened ∧ opened.header = log.header ∧
    opened.entries = log.entries
  others : ∀ path, (before path).isSome → after path = before path

section Opening

variable {crates : Crates} {codec : LogCodec} {host : AuditHost} {cfg : Config} {file : Path}
  {signer : Signer} {tenantName : String} {draws : OpenDraws} {disk after : Channel.Disk}
  {log : AuditLog}

theorem createAuditLog_opens (wellFormed : signer.publicKey.bytes.length = publicKeyLen)
    (absent : disk file = none) (free : disk draws.saving.temp = none)
    (aside : draws.saving.temp ≠ file)
    (created : createAuditLog codec file signer tenantName draws disk = .ok (log, after)) :
    OpensLog crates codec file signer disk log after := by
  simp only [createAuditLog] at created
  cases saved : (save ((AuditLog.createWithSigner signer s!"qgateway/{tenantName}" draws.logId
    draws.now).saveTo codec) file draws.saving disk).outcome with
  | error failure => simp [saved, Except.map] at created
  | ok done =>
      simp only [saved, Except.map, Except.ok.injEq, Prod.mk.injEq] at created
      obtain ⟨rfl, rfl⟩ := created
      have sound := AuditLog.sound_createWithSigner crates s!"qgateway/{tenantName}" draws.logId
        draws.now wellFormed
      obtain ⟨opened, read, same, _⟩ := sound.readFrom codec
      have written : ∀ {other}, other ≠ file → draws.saving.temp ≠ other →
          Channel.Disk.Shows file other _ (disk other) _ := fun apart notTemp =>
        (save_triple draws.saving ⟨aside, notTemp⟩ apart _ disk ⟨rfl, rfl⟩).2 done saved
      refine ⟨rfl, ⟨_, opened, ?_, read, by rw [same], by rw [same]⟩, ?_⟩
      · obtain ⟨other, apart, notTemp⟩ := exists_other_path file draws.saving.temp
        exact (written apart notTemp).1
      · intro path stood
        refine (written ?_ ?_).2
        · rintro rfl
          simp [absent] at stood
        · rintro rfl
          simp [free] at stood

/-- A log that is reopened leaves the files alone. -/
theorem bindOpened_opens {bytes : List UInt8} {opened : AuditLog} (stood : disk file = some bytes)
    (read : AuditLog.readFrom crates codec bytes = .ok opened)
    (bound : bindOpened crates signer opened = .ok log) :
    OpensLog crates codec file signer disk log disk := by
  rcases opened.bindSigner_cases crates signer with
    ⟨failure, failed⟩ | ⟨sameKey, _, changed⟩
  · simp only [bindOpened, failed] at bound
    cases bound
  · simp only [bindOpened, changed] at bound
    cases bound
    exact ⟨sameKey.symm, ⟨bytes, opened, stood, read, rfl, rfl⟩, fun _ _ => rfl⟩

/-- What an opened tenant is. -/
theorem openTenant_opens {t : TenantConfig} {tenant : Tenant} (free : disk draws.saving.temp = none)
    (aside : draws.saving.temp ≠ host.resolve t.auditLog)
    (opened : openTenant crates codec host cfg t draws disk = .ok (tenant, after)) :
    ∃ signer log, cfg.auditKey host t = some signer.publicKey ∧
      tenant = spawnTenantLog (host.resolve t.auditLog) log ∧
      OpensLog crates codec (host.resolve t.auditLog) signer disk log after := by
  simp only [openTenant] at opened
  obtain ⟨_, _, opened⟩ := bind_eq_ok.mp opened
  obtain ⟨_, _, opened⟩ := bind_eq_ok.mp opened
  obtain ⟨config, required, opened⟩ := bind_eq_ok.mp opened
  have effective : cfg.effectiveSigner t = some config := by
    simp only [requireSigner] at required
    split at required
    · cases required
      assumption
    · cases required
  have key : ∀ {signer}, host.loadSigner config = .ok signer →
      cfg.auditKey host t = some signer.publicKey := by
    intro signer loaded
    simp [Config.auditKey, effective, loaded, Except.toOption]
  cases config with
  | softkey secretKey publicKey =>
      obtain ⟨signer, loaded, opened⟩ := bind_eq_ok.mp opened
      rw [withContext_eq_ok] at loaded
      obtain ⟨⟨log, final⟩, built, same⟩ := bind_eq_ok.mp opened
      cases same
      refine ⟨signer, log, key loaded, rfl, ?_⟩
      simp only [buildAuditLogSoftkey] at built
      split at built
      · rename_i bytes stood
        obtain ⟨opened, read, built⟩ := bind_eq_ok.mp built
        rw [withContext_eq_ok, mapError_eq_ok] at read
        obtain ⟨_, _, built⟩ := bind_eq_ok.mp built
        obtain ⟨_, bound, built⟩ := bind_eq_ok.mp built
        cases built
        exact bindOpened_opens stood read bound
      · rename_i absent
        exact createAuditLog_opens (host.wellFormed loaded) absent free aside built
  | pkcs11 =>
      obtain ⟨signer, loaded, opened⟩ := bind_eq_ok.mp opened
      rw [withContext_eq_ok] at loaded
      obtain ⟨⟨log, final⟩, built, same⟩ := bind_eq_ok.mp opened
      cases same
      refine ⟨signer, log, key loaded, rfl, ?_⟩
      simp only [buildAuditLogPkcs11] at built
      split at built
      · rename_i bytes stood
        obtain ⟨opened, read, built⟩ := bind_eq_ok.mp built
        rw [mapError_eq_ok] at read
        obtain ⟨_, bound, built⟩ := bind_eq_ok.mp built
        cases built
        exact bindOpened_opens stood read bound
      · rename_i absent
        exact createAuditLog_opens (host.wellFormed loaded) absent free aside built

end Opening

/-- A tenant as it is after startup, on a log that its file holds. -/
def LogStarted (crates : Crates) (codec : LogCodec) (host : AuditHost) (cfg : Config)
    (disk : Channel.Disk) (t : TenantConfig) (tenant : Tenant) : Prop :=
  ∃ log bytes opened, tenant = spawnTenantLog (host.resolve t.auditLog) log ∧
    cfg.auditKey host t = some log.header.pubkey ∧ disk (host.resolve t.auditLog) = some bytes ∧
    AuditLog.readFrom crates codec bytes = .ok opened ∧ opened.header = log.header ∧
    opened.entries = log.entries

section Startup

variable {crates : Crates} {codec : LogCodec} {host : AuditHost} {cfg : Config}
  {start disk after : Channel.Disk} {done : List TenantConfig} {tenants : List Tenant}

/-- All opened tenants stand on their logs. -/
theorem Opening.started (opening : Opening crates codec host cfg start done tenants disk) :
    List.Forall₂ (LogStarted crates codec host cfg disk) done tenants := by
  induction opening with
  | start => exact .nil
  | @next done tenants disk t draws tenant after prior free aside opened inductionHypothesis =>
      obtain ⟨signer, log, key, rfl, opens⟩ := openTenant_opens free aside opened
      obtain ⟨bytes, reopened, stands, read, header, entries⟩ := opens.stands
      refine List.rel_append (inductionHypothesis.imp ?_) (.cons ⟨log, bytes, reopened, rfl,
        opens.key ▸ key, stands, read, header, entries⟩ .nil)
      rintro u other ⟨log, bytes, opened, same, key, stood, rest⟩
      refine ⟨log, bytes, opened, same, key, ?_, rest⟩
      rw [opens.others _ (by rw [stood]; rfl), stood]

/-- Tenants of one file sign with one key. -/
theorem LogStarted.same_key {t u : TenantConfig} {tenant other : Tenant}
    (first : LogStarted crates codec host cfg disk t tenant)
    (second : LogStarted crates codec host cfg disk u other)
    (sameFile : host.resolve t.auditLog = host.resolve u.auditLog) :
    ∃ key, cfg.auditKey host t = some key ∧ cfg.auditKey host u = some key := by
  obtain ⟨log, bytes, opened, _, key, stood, read, header, _⟩ := first
  obtain ⟨otherLog, otherBytes, otherOpened, _, otherKey, alsoStood, alsoRead,
    otherHeader, _⟩ := second
  rw [sameFile, alsoStood] at stood
  obtain rfl := Option.some.inj stood
  rw [alsoRead] at read
  obtain rfl := Except.ok.inj read
  exact ⟨_, key, by rw [otherKey, ← header, ← otherHeader]⟩

/-- Every tenant was opened for an entry of the configuration. -/
theorem LogStarted.declared
    (started : List.Forall₂ (LogStarted crates codec host cfg disk) done tenants)
    {tenant : Tenant} (member : tenant ∈ tenants) :
    ∃ t ∈ done, LogStarted crates codec host cfg disk t tenant := by
  induction started with
  | nil => cases member
  | cons first _ inductionHypothesis =>
      rcases List.mem_cons.mp member with rfl | later
      · exact ⟨_, List.mem_cons_self, first⟩
      · obtain ⟨t, declared, started⟩ := inductionHypothesis later
        exact ⟨t, List.mem_cons_of_mem _ declared, started⟩

/-- Under separate logs, no two tenants write to one file. -/
theorem LogStarted.apart
    (started : List.Forall₂ (LogStarted crates codec host cfg disk) done tenants)
    (separate : done.Pairwise fun t u => host.resolve t.auditLog = host.resolve u.auditLog →
      ∀ key, cfg.auditKey host t = some key → cfg.auditKey host u ≠ some key) :
    tenants.Pairwise fun first second => first.config.path ≠ second.config.path := by
  induction started with
  | nil => exact .nil
  | @cons t tenant _ _ first later inductionHypothesis =>
      obtain ⟨apart, separateRest⟩ := List.pairwise_cons.mp separate
      refine List.pairwise_cons.mpr ⟨?_, inductionHypothesis separateRest⟩
      intro other member same
      obtain ⟨u, declared, second⟩ := LogStarted.declared later member
      have sameFile : host.resolve t.auditLog = host.resolve u.auditLog := by
        obtain ⟨_, _, _, rfl, _⟩ := first
        obtain ⟨_, _, _, rfl, _⟩ := second
        exact same
      obtain ⟨key, firstKey, secondKey⟩ := first.same_key second sameFile
      exact apart u declared sameFile key firstKey secondKey

/-- A tenant is safe right after startup. -/
theorem LogStarted.safe {t : TenantConfig} {tenant : Tenant}
    (started : LogStarted crates codec host cfg disk t tenant) :
    tenant.Safe crates codec {tenant.config.path} disk ∧ (disk tenant.config.path).isSome := by
  obtain ⟨log, bytes, opened, rfl, _, stood, read, header, entries⟩ := started
  obtain ⟨_, _, _, _, _, valid, _, rfl⟩ := AuditLog.readFrom_eq_ok read
  have held : ∀ {entry}, disk.Holds crates codec (host.resolve t.auditLog) entry ↔
      entry ∈ log.entries := by
    intro entry
    constructor
    · rintro ⟨content, again, found, isRead, member⟩
      rw [stood] at found
      obtain rfl := Option.some.inj found
      rw [read] at isRead
      obtain rfl := Except.ok.inj isRead
      exact entries ▸ member
    · intro member
      exact ⟨bytes, _, stood, read, entries ▸ member⟩
  refine ⟨⟨⟨rfl, by simp [spawnTenantLog], by simp [spawnTenantLog], fun _ => .inl, ?_, ?_⟩,
    header ▸ valid, fun _ => .inl, by simp [spawnTenantLog, Writer.spawn], trivial⟩, ?_⟩
  · intro entry member
    exact ⟨_, List.mem_cons_self, held.mpr member⟩
  · intro file listed entry holds
    rw [spawnTenantLog, List.mem_singleton] at listed
    subst listed
    exact .inl (held.mp holds)
  · simp [spawnTenantLog, stood]

end Startup

/-- Every tenant has files of its own, and all are safe. -/
def AuditWriters.Separate (crates : Crates) (codec : LogCodec) (state : AuditWriters) : Prop :=
  ∃ owned : Nat → Set Path, Separated owned state.disk ∧
    ∀ i (tenant : Tenant), state.tenants[i]? = some tenant →
      tenant.Safe crates codec (owned i) state.disk

/-- What holds of the logs of all tenants at any time. -/
structure AuditWriters.Isolated (crates : Crates) (codec : LogCodec) (state : AuditWriters) :
    Prop where
  /-- What a tenant's writer has saved stands in its file or in an archive that it
  published. -/
  kept : ∀ tenant ∈ state.tenants, ∀ entry ∈ tenant.saved,
    ∃ file ∈ tenant.config.path :: tenant.archives, state.disk.Holds crates codec file entry
  /-- These files hold nothing but the tenant's own entries. -/
  own : ∀ tenant ∈ state.tenants, ∀ file ∈ tenant.config.path :: tenant.archives,
    ∀ entry, state.disk.Holds crates codec file entry → tenant.Own entry
  /-- No move of another tenant changes one of them. -/
  undisturbed : ∀ {i move next}, auditStep crates codec state (i, move) = some next →
    WellFormedSigner move → ∀ j tenant, j ≠ i → state.tenants[j]? = some tenant →
      ∀ file ∈ tenant.config.path :: tenant.archives, next.disk file = state.disk file

section System

variable {crates : Crates} {codec : LogCodec} {host : AuditHost} {cfg : Config}
  {state next : AuditWriters}

theorem AuditWriters.Separate.initially (separate : cfg.SeparateLogs host)
    (initial : (auditMachine crates codec host cfg).Initial state) :
    state.Separate crates codec := by
  obtain ⟨_, start, opening⟩ := initial
  have started := opening.started
  have apart := LogStarted.apart started separate
  refine ⟨fun i => { file | ∃ tenant, state.tenants[i]? = some tenant ∧
    file = tenant.config.path }, ⟨?_, ?_⟩, ?_⟩
  · rintro i j file ⟨first, foundFirst, rfl⟩ ⟨second, foundSecond, same⟩
    obtain ⟨inFirst, rfl⟩ := List.getElem?_eq_some_iff.mp foundFirst
    obtain ⟨inSecond, rfl⟩ := List.getElem?_eq_some_iff.mp foundSecond
    rcases Nat.lt_trichotomy i j with earlier | same | later
    · exact absurd same (List.pairwise_iff_getElem.mp apart i j inFirst inSecond earlier)
    · exact same
    · exact absurd same.symm (List.pairwise_iff_getElem.mp apart j i inSecond inFirst later)
  · rintro i file ⟨tenant, found, rfl⟩
    obtain ⟨_, _, started⟩ := LogStarted.declared started (List.mem_of_getElem? found)
    exact started.safe.2
  · intro i tenant found
    obtain ⟨_, _, started⟩ := LogStarted.declared started (List.mem_of_getElem? found)
    have same : { file | ∃ tenant, state.tenants[i]? = some tenant ∧
        file = tenant.config.path } = {tenant.config.path} := by
      ext file
      simp [found]
    simp only [same]
    exact started.safe.1

/-- A move of one tenant is local to its files. -/
theorem AuditWriters.Separate.actsLocally {owned : Nat → Set Path} {i : Nat} {move : TenantMove}
    (separated : Separated owned state.disk)
    (safe : ∀ i (tenant : Tenant), state.tenants[i]? = some tenant →
      tenant.Safe crates codec (owned i) state.disk) (wellFormed : WellFormedSigner move)
    (moved : auditStep crates codec state (i, move) = some next) :
    ∃ (tenant : Tenant) (claimed : Set Path), next.tenants = state.tenants.set i tenant ∧
      Local (owned i) claimed state.disk next.disk ∧
        tenant.Safe crates codec claimed next.disk := by
  obtain ⟨before, found, moved⟩ := Option.bind_eq_some_iff.mp moved
  obtain ⟨⟨tenant, disk⟩, stepped, same⟩ := Option.bind_eq_some_iff.mp moved
  cases same
  obtain ⟨claimed, isLocal, stillSafe⟩ :=
    (safe i before found).step (separated.present i) wellFormed stepped
  exact ⟨tenant, claimed, rfl, isLocal, stillSafe⟩

theorem AuditWriters.Separate.step {label : Nat × TenantMove}
    (separate : state.Separate crates codec) (wellFormed : WellFormedSigner label.2)
    (moved : auditStep crates codec state label = some next) : next.Separate crates codec := by
  obtain ⟨owned, separated, safe⟩ := separate
  obtain ⟨i, move⟩ := label
  obtain ⟨tenant, claimed, tenants, isLocal, stillSafe⟩ :=
    Separate.actsLocally separated safe wellFormed moved
  obtain ⟨stillSeparated, undisturbed⟩ := separated.act isLocal
  refine ⟨Function.update owned i claimed, stillSeparated, ?_⟩
  intro j other found
  rw [tenants, List.getElem?_set] at found
  by_cases same : i = j
  · obtain rfl := same
    rw [if_pos rfl] at found
    split at found
    · cases found
      rw [Function.update_self]
      exact stillSafe
    · cases found
  · rw [if_neg same] at found
    rw [Function.update_of_ne (Ne.symm same)]
    exact (safe j other found).stable (undisturbed j (Ne.symm same))

/-- Tenants with files of their own are isolated. -/
theorem AuditWriters.Separate.isolated (separate : state.Separate crates codec) :
    state.Isolated crates codec := by
  obtain ⟨owned, separated, safe⟩ := separate
  refine ⟨?_, ?_, ?_⟩
  · intro tenant member
    obtain ⟨i, found⟩ := List.mem_iff_getElem?.mp member
    exact (safe i tenant found).files.standing
  · intro tenant member
    obtain ⟨i, found⟩ := List.mem_iff_getElem?.mp member
    exact (safe i tenant found).files.own
  · intro i move next moved wellFormed j tenant different found file listed
    obtain ⟨_, _, _, isLocal, _⟩ := Separate.actsLocally separated safe wellFormed moved
    refine (separated.act isLocal).2 j different file ?_
    have files := (safe j tenant found).files
    rcases List.mem_cons.mp listed with rfl | archived
    · exact files.current
    · exact files.archived file archived

end System

/-- If no two tenants that sign with the same key name the same file, every entry that
a tenant's writer has saved stays in its file or in an archive that it published,
these files never hold another tenant's entries, and no other tenant's move changes
them, whatever the interleaving of their file operations. -/
theorem tenant_logs_isolated (crates : Crates) (codec : LogCodec) (host : AuditHost) (cfg : Config)
    (separate : cfg.SeparateLogs host) {state : AuditWriters}
    (reachable : (auditMachine crates codec host cfg).Reachable
      (fun _ label => WellFormedSigner label.2) state) : state.Isolated crates codec := by
  refine (reachable.invariant (fun state => AuditWriters.Separate crates codec state) ?_
    ?_).isolated
  · intro start initial
    exact .initially separate initial
  · intro state label next isSeparate wellFormed moved
    exact isSeparate.step wellFormed moved

section Runs

variable {crates : Crates} {codec : LogCodec} {host : AuditHost} {cfg : Config}
  {state : AuditWriters} {i : Nat} {tenant : Tenant}

/-- Runs of the audit writers with well-formed signers. -/
abbrev AuditRuns (crates : Crates) (codec : LogCodec) (host : AuditHost) (cfg : Config) :
    AuditWriters → List (Nat × TenantMove) → AuditWriters → Prop :=
  (auditMachine crates codec host cfg).Runs fun _ label => WellFormedSigner label.2

theorem runs_cons {label : Nat × TenantMove} {labels : List (Nat × TenantMove)}
    {next finish : AuditWriters} (moved : auditStep crates codec state label = some next)
    (wellFormed : WellFormedSigner label.2)
    (run : AuditRuns crates codec host cfg next labels finish) :
    AuditRuns crates codec host cfg state (label :: labels) finish :=
  Machine.Runs.cons wellFormed moved run

/-- One tenant is replaced. -/
def AuditWriters.withTenant (state : AuditWriters) (i : Nat) (tenant : Tenant)
    (disk : Channel.Disk) : AuditWriters :=
  { disk, tenants := state.tenants.set i tenant }

theorem AuditWriters.withTenant_self (found : state.tenants[i]? = some tenant) :
    state.withTenant i tenant state.disk = state := by
  obtain ⟨bound, rfl⟩ := List.getElem?_eq_some_iff.mp found
  simp [withTenant]

theorem AuditWriters.withTenant_found (found : state.tenants[i]? = some tenant) (after : Tenant)
    (disk : Channel.Disk) : (state.withTenant i after disk).tenants[i]? = some after := by
  obtain ⟨bound, rfl⟩ := List.getElem?_eq_some_iff.mp found
  simp [withTenant, bound]

@[simp] theorem AuditWriters.withTenant_twice (first second : Tenant) (disk after : Channel.Disk) :
    (state.withTenant i first disk).withTenant i second after =
    state.withTenant i second after := by
  simp [withTenant]

/-- A move of one tenant, among the other tenants. -/
theorem auditStep_of {move : TenantMove} {after : Tenant} {disk : Channel.Disk}
    (found : state.tenants[i]? = some tenant)
    (moved : tenantStep crates codec tenant state.disk move = some (after, disk)) :
    auditStep crates codec state (i, move) = some (state.withTenant i after disk) := by
  simp only [auditStep, found, moved, AuditWriters.withTenant, bind, Option.bind, pure]

/-- A run of the writer machine that touches no files, among the other tenants. -/
theorem runs_write {moves : List WriterMove} {writer : Writer}
    (found : state.tenants[i]? = some tenant)
    (plain : ∀ move ∈ moves, move.touchesFiles = false)
    (executed : (writerMachine crates codec tenant.config).exec tenant.writer moves = some writer) :
    AuditRuns crates codec host cfg state (moves.map fun move => (i, .write move))
      (state.withTenant i { tenant with writer } state.disk) := by
  induction moves generalizing state tenant with
  | nil =>
      cases executed
      rw [AuditWriters.withTenant_self found]
      exact .nil
  | cons move rest inductionHypothesis =>
      obtain ⟨next, moved, later⟩ := Option.bind_eq_some_iff.mp executed
      let middle : Tenant := { tenant with writer := next }
      have stepped : tenantStep crates codec tenant state.disk (.write move) =
          some (middle, state.disk) := by
        rw [tenantStep, if_neg (by simp [plain move List.mem_cons_self]),
          show writerStep crates codec tenant.config tenant.writer move = some next from moved]
        rfl
      have first := auditStep_of found stepped
      have others := inductionHypothesis (AuditWriters.withTenant_found found middle state.disk)
        (fun move member => plain move (List.mem_cons_of_mem _ member)) later
      rw [AuditWriters.withTenant_twice] at others
      exact runs_cons first trivial others

/-- The file operations of a save, one after the other. -/
theorem runs_acts {thread : FileThread Unit} {after : AfterFlush} {disk : Channel.Disk}
    {outcome : Except String Unit} (found : state.tenants[i]? = some tenant)
    (silent : thread.Silent) (onErrand : tenant.errand = some (.saving after thread))
    (undisturbed : thread.alone state.disk = some (disk, outcome)) :
    ∃ labels, AuditRuns crates codec host cfg state labels
      (state.withTenant i { tenant with errand := some (.saving after (.ended outcome)) }
        disk) := by
  induction thread generalizing state tenant with
  | ended ended =>
      cases undisturbed
      rw [← onErrand, AuditWriters.withTenant_self found]
      exact ⟨[], .nil⟩
  | act possible change announces next inductionHypothesis =>
      obtain ⟨isPossible, undisturbed⟩ := Option.ite_none_right_eq_some.mp undisturbed
      obtain ⟨nothing, laterSilent⟩ := silent state.disk
      let middle : Tenant := { tenant with errand := some (.saving after (next state.disk)) }
      have stepped : tenantStep crates codec tenant state.disk .act =
          some (middle, change state.disk) := by
        simp [tenantStep, onErrand, Thread.advance, isPossible, nothing, middle]
      have first := auditStep_of found stepped
      obtain ⟨labels, others⟩ := inductionHypothesis state.disk
        (AuditWriters.withTenant_found found middle (change state.disk)) laterSilent rfl undisturbed
      rw [AuditWriters.withTenant_twice] at others
      exact ⟨_, runs_cons first trivial others⟩

theorem save_succeeds {bytes : List UInt8} {path temp : Path} {disk : Channel.Disk} :
    (save bytes path (.none temp) disk).outcome = .ok () :=
  eq_ok_of_isOk (save_isOk bytes disk)

/-- A save without faults touches only its path. -/
theorem save_final_other {bytes : List UInt8} {path temp other : Path} {disk : Channel.Disk}
    (aside : temp ≠ path) (apart : other ≠ path) (notTemp : temp ≠ other) :
    (save bytes path (.none temp)).final disk other = disk other :=
  ((save_triple (.none temp) ⟨aside, notTemp⟩ apart bytes disk ⟨rfl, rfl⟩).2 ()
    save_succeeds).2

variable (crates codec host cfg) in
/-- A save without faults, undisturbed. -/
theorem runs_save {after : AfterFlush} {temp : Path} (found : state.tenants[i]? = some tenant)
    (phase : tenant.writer.phase = .saving after) (idle : tenant.errand = none)
    (free : state.disk temp = none) :
    ∃ labels, AuditRuns crates codec host cfg state labels (state.withTenant i
      { tenant with
        writer := tenant.writer.saveReturned after (.ok ())
        saved := tenant.saved ++ tenant.writer.ledger.live.log.entries }
      ((save (tenant.writer.ledger.live.log.saveTo codec) tenant.config.path (.none temp)).final
        state.disk)) := by
  let bytes := tenant.writer.ledger.live.log.saveTo codec
  let thread := FileThread.save bytes tenant.config.path (.none temp)
  let script := save bytes tenant.config.path (.none temp)
  let begun : Tenant := { tenant with errand := some (.saving after thread) }
  let ended : Tenant := { begun with errand := some (.saving after (.ended (.ok ()))) }
  let saved : Tenant := { tenant with
    writer := tenant.writer.saveReturned after (.ok ())
    saved := tenant.saved ++ tenant.writer.ledger.live.log.entries }
  have started : tenantStep crates codec tenant state.disk (.startSave (.none temp)) =
      some (begun, state.disk) := by
    simp [tenantStep, phase, idle, begun, thread, bytes]
  have first := auditStep_of found started
  have succeeded : (script state.disk).outcome = .ok () := save_succeeds
  have undisturbed : thread.alone state.disk = some (script.final state.disk, .ok ()) :=
    (save_mirrors free bytes tenant.config.path).trans (by rw [succeeded])
  obtain ⟨labels, acts⟩ := runs_acts (AuditWriters.withTenant_found found begun state.disk)
    (save_silent bytes tenant.config.path (.none temp)) rfl undisturbed
  rw [AuditWriters.withTenant_twice] at acts
  have returned : tenantStep crates codec ended (script.final state.disk) .finish =
      some (saved, script.final state.disk) := by
    simp [tenantStep, ended, begun, saved, idle, Except.isOk, Except.toBool]
  have last := auditStep_of (AuditWriters.withTenant_found found ended (script.final state.disk))
    returned
  rw [AuditWriters.withTenant_twice] at last
  have ends : AuditRuns crates codec host cfg (state.withTenant i ended (script.final state.disk))
      [(i, .finish)] (state.withTenant i saved (script.final state.disk)) :=
    runs_cons last trivial .nil
  exact ⟨_, runs_cons first trivial (acts.trans ends)⟩

variable (host cfg) in
/-- A flush: the writer moves until its save, and the save succeeds. -/
theorem runs_flush {moves : List WriterMove} {writer : Writer} {after : AfterFlush} {temp : Path}
    (found : state.tenants[i]? = some tenant) (idle : tenant.errand = none)
    (plain : ∀ move ∈ moves, move.touchesFiles = false)
    (executed : (writerMachine crates codec tenant.config).exec tenant.writer moves = some writer)
    (phase : writer.phase = .saving after) (free : state.disk temp = none) :
    ∃ labels, AuditRuns crates codec host cfg state labels (state.withTenant i
      { tenant with
        writer := writer.saveReturned after (.ok ())
        saved := tenant.saved ++ writer.ledger.live.log.entries }
      ((save (writer.ledger.live.log.saveTo codec) tenant.config.path (.none temp)).final
        state.disk)) := by
  let waiting : Tenant := { tenant with writer }
  have written : AuditRuns crates codec host cfg state _ (state.withTenant i waiting state.disk) :=
    runs_write found plain executed
  have saved := runs_save crates codec host cfg (AuditWriters.withTenant_found found waiting
    state.disk) phase idle free
  rw [AuditWriters.withTenant_twice] at saved
  obtain ⟨labels, saved⟩ := saved
  exact ⟨_, written.trans saved⟩

end Runs

theorem createAuditLog_succeeds {codec : LogCodec} {file temp : Path} {signer : Signer}
    {tenantName : String} {logId : LogId} {now : Timestamp} {disk : Channel.Disk} :
    createAuditLog codec file signer tenantName ⟨logId, now, .none temp⟩ disk =
      let log := AuditLog.createWithSigner signer s!"qgateway/{tenantName}" logId now
      .ok (log, (save (log.saveTo codec) file (.none temp)).final disk) := by
  simp only [createAuditLog, save_succeeds, Except.map]

/-- A serve-pq tenant with the given log. -/
def pqTenant (name auditLog : String) : TenantConfig where
  name := name
  listen := s!"{name}:9000"
  peerPq := none
  backend := some "app:80"
  peerPubDir := "peers"
  auditLog := auditLog
  tls := none
  sni := none
  auditSigner := none
  limits := none

/-- A configuration whose tenants share a signer. -/
def pqConfig (tenants : List TenantConfig) : Config where
  role := .servePq
  auditSigner := some (.softkey "audit.sk" "audit.pk")
  tenants := tenants

/-- A host of the transparent primitives. -/
def plainHost : AuditHost where
  resolve := id
  peerPolicy _ := .ok ["peer.cspqid.pub"]
  loadSigner _ := .ok plainSigner
  wellFormed := by
    rintro _ _ ⟨⟩
    exact plainSigner_wellFormed

/-- What opening a log draws there. -/
def plainDraws (temp : Path) : OpenDraws where
  logId := .replicate 16 1
  now := "2026-05-01T00:00:00Z"
  saving := .none temp

/-- The log that is created for a tenant. -/
def createdLog (name : String) : AuditLog :=
  .createWithSigner plainSigner s!"qgateway/{name}" (.replicate 16 1) "2026-05-01T00:00:00Z"

/-- An event of a tenant that is flushed once the timer has elapsed. -/
def flushMoves (event : AuditEvent) : List WriterMove :=
  [.emit event, .pollRotation, .pollEvent, .fill, .pollRotation, .pollEvent, .pollTimer true,
    .append plainSign "2026-05-01T00:00:02Z"]

/-- What the writer of a log holds when it is about to save the event. -/
def flushed (log : AuditLog) (event : AuditEvent) : Option Writer :=
  (writerMachine plainCrates cborCodec (spawnTenantLog "audit.qa" log).config).exec
    (spawnTenantLog "audit.qa" log).writer (flushMoves event)

/-- The tenant after it has saved the event. -/
def flushedTenant (log : AuditLog) (writer : Writer) : Tenant :=
  { spawnTenantLog "audit.qa" log with
    writer := writer.saveReturned .fill (.ok ())
    saved := log.entries ++ writer.ledger.live.log.entries }

/-- The files after a log was created in a file. -/
def createdDisk (name : String) (path temp : Path) (disk : Channel.Disk) : Channel.Disk :=
  (save ((createdLog name).saveTo cborCodec) path (.none temp)).final disk

/-- The log that is reopened for a second tenant of its file. -/
def reopenedLog (name : String) : AuditLog :=
  { (createdLog name).reopened plainCrates with signer := some plainSigner }

section Example

variable {disk : Channel.Disk} {temp : Path} {tenants : List TenantConfig} {name path : String}

/-- Opening a tenant whose log does not exist. -/
theorem openTenant_creates (absent : disk path = none) :
    openTenant plainCrates cborCodec plainHost (pqConfig tenants) (pqTenant name path)
      (plainDraws temp) disk =
        .ok (spawnTenantLog path (createdLog name), createdDisk name path temp disk) := by
  have created : createAuditLog cborCodec path plainSigner name (plainDraws temp) disk =
      .ok (createdLog name, createdDisk name path temp disk) := createAuditLog_succeeds
  simp [openTenant, plainHost, withContext, nonemptyPeers, requireSigner, Config.effectiveSigner,
    pqConfig, pqTenant, buildAuditLogSoftkey, absent, created, bind, Except.bind, pure, Except.pure]

/-- Opening a tenant whose log was just created for another one. -/
theorem openTenant_reopens {other : String}
    (stood : disk path = some ((createdLog other).saveTo cborCodec)) :
    openTenant plainCrates cborCodec plainHost (pqConfig tenants) (pqTenant name path)
      (plainDraws temp) disk = .ok (spawnTenantLog path (reopenedLog other), disk) := by
  have sound := AuditLog.sound_createWithSigner plainCrates s!"qgateway/{other}"
    (.replicate 16 1) "2026-05-01T00:00:00Z" plainSigner_wellFormed
  have read : AuditLog.readFrom plainCrates cborCodec ((createdLog other).saveTo cborCodec) =
      .ok ((createdLog other).reopened plainCrates) := by
    rw [AuditLog.readFrom_saveTo, show validateHeader (createdLog other).header = .ok () from
      sound.header]
    rfl
  have verified : ((createdLog other).reopened plainCrates).verify plainCrates = .ok () :=
    sound.verify
  have key : ((createdLog other).reopened plainCrates).header.pubkey.bytes =
      plainSigner.publicKey.bytes := rfl
  have bound : bindOpened plainCrates plainSigner ((createdLog other).reopened plainCrates) =
      .ok (reopenedLog other) := by
    simp only [bindOpened, AuditLog.bindSigner, key, ne_eq, not_true, if_false, verified]
    rfl
  simp [openTenant, plainHost, withContext, nonemptyPeers, requireSigner, Config.effectiveSigner,
    pqConfig, pqTenant, buildAuditLogSoftkey, stood, read, key, ensure, bound,
    bind, Except.bind, pure, Except.pure]

theorem opening_creates {done : List TenantConfig} {opened : List Tenant} {start : Channel.Disk}
    (prior : Opening plainCrates cborCodec plainHost (pqConfig tenants) start done opened disk)
    (absent : disk path = none) (free : disk temp = none) (aside : temp ≠ path) :
    Opening plainCrates cborCodec plainHost (pqConfig tenants) start (done ++ [pqTenant name path])
      (opened ++ [spawnTenantLog path (createdLog name)]) (createdDisk name path temp disk) :=
  .next prior free aside (openTenant_creates absent)

theorem opening_reopens {done : List TenantConfig} {opened : List Tenant} {start : Channel.Disk}
    {other : String}
    (prior : Opening plainCrates cborCodec plainHost (pqConfig tenants) start done opened disk)
    (stood : disk path = some ((createdLog other).saveTo cborCodec)) (free : disk temp = none)
    (aside : temp ≠ path) :
    Opening plainCrates cborCodec plainHost (pqConfig tenants) start (done ++ [pqTenant name path])
      (opened ++ [spawnTenantLog path (reopenedLog other)]) disk :=
  .next prior free aside (openTenant_reopens stood)

theorem createdDisk_other {other : Path} (aside : temp ≠ path) (apart : other ≠ path)
    (notTemp : temp ≠ other) : createdDisk name path temp disk other = disk other :=
  save_final_other aside apart notTemp

theorem runs_flushed (cfg : Config) {state : AuditWriters} {i : Nat} {log : AuditLog}
    {event : AuditEvent} {writer : Writer}
    (found : state.tenants[i]? = some (spawnTenantLog "audit.qa" log))
    (executed : flushed log event = some writer) (phase : writer.phase = .saving .fill)
    (free : state.disk temp = none) :
    ∃ labels, AuditRuns plainCrates cborCodec plainHost cfg state labels
      (state.withTenant i (flushedTenant log writer)
        ((save (writer.ledger.live.log.saveTo cborCodec) "audit.qa" (.none temp)).final
          state.disk)) := by
  refine runs_flush plainHost cfg found rfl ?_ executed phase free
  intro move member
  simp only [flushMoves, List.mem_cons, List.not_mem_nil, or_false] at member
  rcases member with rfl | rfl | rfl | rfl | rfl | rfl | rfl | rfl <;> rfl

/-- The flush of a tenant that was just started. -/
theorem reachable_flushed {cfg : Config} {state : AuditWriters} {i : Nat} {log : AuditLog}
    {event : AuditEvent} {writer : Writer}
    (reachable : (auditMachine plainCrates cborCodec plainHost cfg).Reachable
      (fun _ label => WellFormedSigner label.2) state)
    (found : state.tenants[i]? = some (spawnTenantLog "audit.qa" log))
    (executed : flushed log event = some writer) (phase : writer.phase = .saving .fill)
    (free : state.disk temp = none) :
    (auditMachine plainCrates cborCodec plainHost cfg).Reachable
      (fun _ label => WellFormedSigner label.2) (state.withTenant i (flushedTenant log writer)
        ((save (writer.ledger.live.log.saveTo cborCodec) "audit.qa" (.none temp)).final
          state.disk)) := by
  obtain ⟨start, labels, initial, run⟩ := reachable
  obtain ⟨later, flushes⟩ := runs_flushed cfg found executed phase free
  exact ⟨start, _, initial, run.trans flushes⟩

/-- A daemon that has just started. -/
theorem reachable_opened {cfg : Config} {start : Channel.Disk} {opened : List Tenant}
    (valid : cfg.validate = .ok ())
    (opening : Opening plainCrates cborCodec plainHost cfg start cfg.tenants opened disk) :
    (auditMachine plainCrates cborCodec plainHost cfg).Reachable
      (fun _ label => WellFormedSigner label.2) (⟨disk, opened⟩ : AuditWriters) :=
  ⟨_, [], ⟨valid, start, opening⟩, .nil⟩

/-- The first tenant flushes right after startup. -/
theorem reachable_first {cfg : Config} {start : Channel.Disk} {log : AuditLog} {rest : List Tenant}
    {event : AuditEvent} {writer : Writer} (valid : cfg.validate = .ok ())
    (opening : Opening plainCrates cborCodec plainHost cfg start cfg.tenants
      (spawnTenantLog "audit.qa" log :: rest) disk)
    (executed : flushed log event = some writer) (phase : writer.phase = .saving .fill)
    (free : disk temp = none) :
    (auditMachine plainCrates cborCodec plainHost cfg).Reachable
      (fun _ label => WellFormedSigner label.2)
      (AuditWriters.mk
        ((save (writer.ledger.live.log.saveTo cborCodec) "audit.qa" (.none temp)).final
        disk) (flushedTenant log writer :: rest)) := by
  have found : (AuditWriters.mk disk (spawnTenantLog "audit.qa" log :: rest)).tenants[0]? =
      some (spawnTenantLog "audit.qa" log) := List.getElem?_cons_zero
  have flushes := reachable_flushed (reachable_opened valid opening) found executed phase free
  simp only [AuditWriters.withTenant, List.set_cons_zero] at flushes
  exact flushes

/-- The second tenant flushes. -/
theorem reachable_second {cfg : Config} {first : Tenant} {log : AuditLog} {rest : List Tenant}
    {event : AuditEvent} {writer : Writer}
    (reachable : (auditMachine plainCrates cborCodec plainHost cfg).Reachable
      (fun _ label => WellFormedSigner label.2)
      (AuditWriters.mk disk (first :: spawnTenantLog "audit.qa" log :: rest)))
    (executed : flushed log event = some writer) (phase : writer.phase = .saving .fill)
    (free : disk temp = none) :
    (auditMachine plainCrates cborCodec plainHost cfg).Reachable
      (fun _ label => WellFormedSigner label.2)
      (AuditWriters.mk
        ((save (writer.ledger.live.log.saveTo cborCodec) "audit.qa" (.none temp)).final
        disk) (first :: flushedTenant log writer :: rest)) := by
  have found : (AuditWriters.mk disk (first :: spawnTenantLog "audit.qa" log :: rest)).tenants[1]? =
      some (spawnTenantLog "audit.qa" log) := by
    simp only [List.getElem?_cons_succ, List.getElem?_cons_zero]
  have flushes := reachable_flushed reachable found executed phase free
  simp only [AuditWriters.withTenant, List.set_cons_succ, List.set_cons_zero] at flushes
  exact flushes

end Example

/-- The writer of a created or reopened log gets to its save. -/
theorem flushed_created : (flushed (createdLog "alpha") loginEvent).any (fun writer =>
    writer.phase = .saving .fill ∧ writer.ledger.accepted = [loginEvent] ∧
      writer.ledger.live.log.entries.map LogEntry.event = [loginEvent]) = true := by
  decide +kernel

theorem flushed_reopened : (flushed (reopenedLog "alpha") logoutEvent).any (fun writer =>
    writer.phase = .saving .fill ∧ (validateHeader writer.ledger.live.log.header).isOk = true ∧
      writer.ledger.live.log.entries.map LogEntry.event = [logoutEvent]) = true := by
  decide +kernel

theorem separate_pair {host : AuditHost} {cfg : Config} {first second : TenantConfig}
    (pair : cfg.tenants = [first, second])
    (apart : host.resolve first.auditLog ≠ host.resolve second.auditLog) :
    cfg.SeparateLogs host := by
  rw [Config.SeparateLogs, pair]
  simp [apart]

/-- Two tenants with logs of their own. -/
def separateConfig : Config := pqConfig [pqTenant "alpha" "audit.qa", pqTenant "beta" "beta.qa"]

/-- Of two tenants with logs of their own, the first has saved an entry. -/
theorem tenant_logs_isolated_saved :
    ∃ state : AuditWriters, state.Isolated plainCrates cborCodec ∧
      ∃ alpha ∈ state.tenants, alpha.saved.map LogEntry.event = [loginEvent] := by
  have valid : separateConfig.validate = .ok () := by decide +kernel
  have separate : separateConfig.SeparateLogs plainHost := separate_pair rfl (by decide)
  obtain ⟨writer, executed, facts⟩ := (Option.any_eq_true _ _).mp flushed_created
  obtain ⟨phase, _, events⟩ := of_decide_eq_true facts
  let first := createdDisk "alpha" "audit.qa" "0.tmp" fun _ => none
  let second := createdDisk "beta" "beta.qa" "1.tmp" first
  have absent : first "beta.qa" = none := createdDisk_other (by decide) (by decide) (by decide)
  have freeFirst : first "1.tmp" = none := createdDisk_other (by decide) (by decide) (by decide)
  have opening : Opening plainCrates cborCodec plainHost separateConfig (fun _ => none)
      separateConfig.tenants (spawnTenantLog "audit.qa" (createdLog "alpha") ::
        [spawnTenantLog "beta.qa" (createdLog "beta")]) second :=
    opening_creates (opening_creates .start rfl rfl (by decide)) absent freeFirst (by decide)
  have free : second "2.tmp" = none :=
    (createdDisk_other (by decide) (by decide) (by decide)).trans
      (createdDisk_other (by decide) (by decide) (by decide))
  have reachable := reachable_first valid opening executed phase free
  exact ⟨_, tenant_logs_isolated plainCrates cborCodec plainHost
    separateConfig separate reachable, _, List.mem_cons_self, events⟩

/-- Two tenants with one log. -/
def sharedConfig : Config := pqConfig [pqTenant "alpha" "audit.qa", pqTenant "beta" "audit.qa"]

/-- Validation accepts two tenants with one log. The save of the second removes the
entry that the first has saved, and leaves its own in the first tenant's file. -/
theorem shared_log_loses_entry :
    ∃ (state : AuditWriters) (alpha : Tenant) (entry : LogEntry),
      (auditMachine plainCrates cborCodec plainHost sharedConfig).Reachable
        (fun _ label => WellFormedSigner label.2) state ∧
      alpha ∈ state.tenants ∧ entry ∈ alpha.saved ∧
      (∀ file ∈ alpha.config.path :: alpha.archives,
        ¬ state.disk.Holds plainCrates cborCodec file entry) ∧
      ∃ other, state.disk.Holds plainCrates cborCodec alpha.config.path other ∧
        ¬ alpha.Own other := by
  have valid : sharedConfig.validate = .ok () := by decide +kernel
  obtain ⟨writer, executed, facts⟩ := (Option.any_eq_true _ _).mp flushed_created
  obtain ⟨phase, accepted, events⟩ := of_decide_eq_true facts
  obtain ⟨second, alsoExecuted, alsoFacts⟩ := (Option.any_eq_true _ _).mp flushed_reopened
  obtain ⟨alsoPhase, header, alsoEvents⟩ := of_decide_eq_true alsoFacts
  let disk := createdDisk "alpha" "audit.qa" "0.tmp" fun _ => none
  have stood : disk "audit.qa" = some ((createdLog "alpha").saveTo cborCodec) :=
    save_final (by decide) _ _
  have free : disk "1.tmp" = none := createdDisk_other (by decide) (by decide) (by decide)
  have opening : Opening plainCrates cborCodec plainHost sharedConfig (fun _ => none)
      sharedConfig.tenants (spawnTenantLog "audit.qa" (createdLog "alpha") ::
        [spawnTenantLog "audit.qa" (reopenedLog "alpha")]) disk :=
    opening_reopens (opening_creates .start rfl rfl (by decide)) stood free (by decide)
  have saved := reachable_first valid opening executed phase free
  have stillFree : (save (writer.ledger.live.log.saveTo cborCodec) "audit.qa" (.none "1.tmp")).final
      disk "2.tmp" = none :=
    (save_final_other (by decide) (by decide) (by decide)).trans
      (createdDisk_other (by decide) (by decide) (by decide))
  have overwritten := reachable_second saved alsoExecuted alsoPhase stillFree
  have holds : ∀ before entry, Channel.Disk.Holds plainCrates cborCodec
      ((save (second.ledger.live.log.saveTo cborCodec) "audit.qa" (.none "2.tmp")).final before)
      "audit.qa" entry ↔ entry ∈ second.ledger.live.log.entries := by
    intro before entry
    exact Channel.Disk.holds_saved plainCrates (eq_ok_of_isOk header)
      (save_final (by decide) _ before)
  obtain ⟨entry, entries, isLogin⟩ := List.map_eq_singleton_iff.mp events
  obtain ⟨other, others, isLogout⟩ := List.map_eq_singleton_iff.mp alsoEvents
  have different : loginEvent ≠ logoutEvent := by decide +kernel
  refine ⟨_, flushedTenant (createdLog "alpha") writer, entry, overwritten,
    List.mem_cons_self, ?_, ?_, other, (holds _ other).mpr (by simp [others]), ?_⟩
  · exact List.mem_append_right _ (by simp [entries])
  · intro file listed held
    rw [List.mem_singleton.mp listed] at held
    have member := (holds _ entry).mp held
    rw [others, List.mem_singleton] at member
    exact different (by rw [← isLogin, ← isLogout, member])
  · obtain ⟨_, ledger⟩ := writer.saveReturned_ledger .fill (.ok ())
    have own : (flushedTenant (createdLog "alpha") writer).Own = BelongsTo [] [loginEvent] := by
      rw [Tenant.Own, flushedTenant, ledger, accepted]
      rfl
    have foreign : ¬ (logoutEvent ∈ [loginEvent] ∨ logoutEvent.action = rotationCloseAction ∨
        logoutEvent.action = rotationOpenAction) := by decide +kernel
    rw [own, BelongsTo, isLogout]
    simpa using foreign

end CofreSoberano.Gateway

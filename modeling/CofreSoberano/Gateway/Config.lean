import CofreSoberano.Std.KeyedMap
import CofreSoberano.Std.Fallible
import Mathlib.Data.List.Sort
import Mathlib.Data.List.Induction

/-!
# Daemon configuration

The parsed TOML configuration, its validation and the resolution of serve-tcp
tenants into listener groups. Paths and addresses are the strings of the file;
parsing TOML itself is not modelled.
-/

namespace CofreSoberano.Gateway

open CofreSoberano.Std

/-- Daemon role discriminant. -/
inductive Role where
  | serveTcp
  | servePq
deriving DecidableEq, Repr

/-- TLS termination of a serve-tcp tenant: certificate chain and private key. -/
structure TlsConfig where
  cert : String
  key : String
deriving DecidableEq, Repr

/-- Audit-signer configuration. -/
inductive AuditSignerConfig where
  | softkey (secretKey publicKey : String)
  | pkcs11 (modulePath : String) (slot : Nat) (pinEnv keyLabel : String)
      (pubLabel : Option String) (mechanismId : Option UInt64)
deriving DecidableEq, Repr

/-- Token bucket parameters of one source address. -/
structure RateLimitConfig where
  capacity : UInt32
  refillPerSec : UInt32
deriving DecidableEq, Repr

/-- Connection admission limits of a tenant. -/
structure TenantLimits where
  maxConcurrent : Option UInt32
  rateLimitPerSource : Option RateLimitConfig
deriving DecidableEq, Repr

/-- One `[[tenants]]` entry. -/
structure TenantConfig where
  name : String
  listen : String
  peerPq : Option String
  backend : Option String
  peerPubDir : String
  auditLog : String
  tls : Option TlsConfig
  sni : Option String
  auditSigner : Option AuditSignerConfig
  limits : Option TenantLimits
deriving DecidableEq, Repr

/-- The fields of the top-level configuration that tenant handling reads. -/
structure Config where
  role : Role
  auditSigner : Option AuditSignerConfig
  tenants : List TenantConfig
deriving DecidableEq, Repr

/-- Validation errors: a required field is missing, or fields conflict. -/
inductive ConfigError where
  | missing (message : String)
  | conflict (message : String)
deriving DecidableEq, Repr

/-- The `Display` texts of the errors. -/
def ConfigError.display : ConfigError → String
  | .missing message => s!"config missing field: {message}"
  | .conflict message => s!"config conflict: {message}"

/-- A resolved serve-tcp tenant. -/
structure ServeTcpTenant where
  name : String
  listen : String
  peerPq : String
  peerPubDir : String
  auditLog : String
  tls : Option TlsConfig
  auditSigner : AuditSignerConfig
  sni : Option String
  limits : Option TenantLimits
deriving DecidableEq, Repr

/-- A resolved serve-pq tenant. -/
structure ServePqTenant where
  name : String
  listen : String
  backend : String
  peerPubDir : String
  auditLog : String
  auditSigner : AuditSignerConfig
  limits : Option TenantLimits
deriving DecidableEq, Repr

/-- Whether a running daemon can apply a change of a field. -/
inductive TenantChangeKind where
  | hot
  | cold
deriving DecidableEq, Repr

/-- A field that differs between two configurations of one tenant. -/
structure TenantChange where
  field : String
  kind : TenantChangeKind
deriving DecidableEq, Repr

/-- A listener with the tenants that share its address. -/
structure TlsListenerGroup where
  listen : String
  sniDispatch : Bool
  tenants : List ServeTcpTenant
deriving DecidableEq, Repr

/-- The change of a field, if its two values differ. -/
def changedUnless (same : Bool) (field : String) (kind : TenantChangeKind) :
    List TenantChange :=
  if same then [] else [{ field, kind }]

/-- `Path::components` on Unix, with whether the path is rooted. Repeated and trailing
separators do not count, nor does `.`, unless a relative path starts with it. -/
def pathComponents (path : String) : Bool × List (List Char) :=
  let rooted := path.toList.head? = some '/'
  let names := path.toList.splitOn '/'
  let current := if !rooted && names.head? = some ['.'] then [['.']] else []
  (rooted, current ++ names.filter fun name => name ≠ [] && name ≠ ['.'])

/-- The equality of `PathBuf`: the components are the same. -/
def samePath (self other : String) : Bool := pathComponents self = pathComponents other

/-- `tls_eq`. -/
def tlsEq : Option TlsConfig → Option TlsConfig → Bool
  | none, none => true
  | some x, some y => samePath x.cert y.cert && samePath x.key y.key
  | _, _ => false

/-- `audit_signer_inner_eq`. -/
def auditSignerInnerEq : AuditSignerConfig → AuditSignerConfig → Bool
  | .softkey secretKey publicKey, .softkey otherSecret otherPublic =>
      samePath secretKey otherSecret && samePath publicKey otherPublic
  | .pkcs11 modulePath slot pinEnv keyLabel pubLabel mechanismId,
    .pkcs11 otherPath otherSlot otherEnv otherLabel otherPub otherMechanism =>
      samePath modulePath otherPath && slot = otherSlot && pinEnv = otherEnv &&
        keyLabel = otherLabel && pubLabel = otherPub && mechanismId = otherMechanism
  | _, _ => false

/-- `audit_signer_eq`. -/
def auditSignerEq : Option AuditSignerConfig → Option AuditSignerConfig → Bool
  | none, none => true
  | some x, some y => auditSignerInnerEq x y
  | _, _ => false

/-- `TenantConfig::material_changes`. `limits_eq` compares field by field. -/
def TenantConfig.materialChanges (self other : TenantConfig) : List TenantChange :=
  changedUnless (self.listen = other.listen) "listen" .cold ++
  changedUnless (self.peerPq = other.peerPq) "peer_pq" .cold ++
  changedUnless (self.backend = other.backend) "backend" .cold ++
  changedUnless (samePath self.peerPubDir other.peerPubDir) "peer_pub_dir" .cold ++
  changedUnless (samePath self.auditLog other.auditLog) "audit_log" .cold ++
  changedUnless (tlsEq self.tls other.tls) "tls" .cold ++
  changedUnless (self.sni = other.sni) "sni" .cold ++
  changedUnless (auditSignerEq self.auditSigner other.auditSigner) "audit_signer" .cold ++
  changedUnless (self.limits = other.limits) "limits" .hot

/-- A configuration differs in nothing from itself. -/
theorem TenantConfig.materialChanges_self (self : TenantConfig) :
    self.materialChanges self = [] := by
  have tls : tlsEq self.tls self.tls = true := by
    cases self.tls <;> simp [tlsEq, samePath]
  have signer : auditSignerEq self.auditSigner self.auditSigner = true := by
    cases self.auditSigner with
    | none => rfl
    | some signer => cases signer <;> simp [auditSignerEq, auditSignerInnerEq, samePath]
  simp [materialChanges, changedUnless, tls, signer, samePath]

-- One path in two spellings.
example : samePath "/var//log/./a.qa/" "/var/log/a.qa" = true := by decide +kernel

/-- The fields of a kind among some changes. -/
def TenantChange.fields (kind : TenantChangeKind) (changes : List TenantChange) : List String :=
  (changes.filter fun change => change.kind = kind).map TenantChange.field

/-- The one hot field is `limits`. -/
theorem TenantConfig.hot_materialChanges (self other : TenantConfig) :
    TenantChange.fields .hot (self.materialChanges other) =
      if self.limits = other.limits then [] else ["limits"] := by
  have quiet : ∀ (same : Bool) (field : String),
      (changedUnless same field .cold).filter (fun change => change.kind = .hot) = [] := by
    intro same field
    cases same <;> simp [changedUnless]
  simp only [TenantChange.fields, materialChanges, List.filter_append, quiet, List.nil_append]
  by_cases same : self.limits = other.limits <;> simp [changedUnless, same]

/-- `starts_with("*.")`. -/
def isWildcard (sni : String) : Bool := ['*', '.'].isPrefixOf sni.toList

/-- The wildcard shape check shared by validation and certificate resolution:
an asterisk may only stand as the leftmost label. -/
def invalidWildcard (sni : String) : Bool :=
  !isWildcard sni || (sni.toList.drop 2).contains '*'

/-- `map.entry(key).or_default().push(value)`. -/
def pushUnder {K V : Type} [DecidableEq K] (map : KeyedMap K (List V)) (key : K) (value : V) :
    KeyedMap K (List V) :=
  map.insert key (((map.get? key).getD []) ++ [value])

/-- Group values by a key, each group in the order of the list. -/
def groupByKey {K V : Type} [DecidableEq K] (key : V → K) (values : List V) :
    KeyedMap K (List V) :=
  values.foldl (fun map value => pushUnder map (key value) value) .empty

/-- The group of a key holds the values with that key, in the order of the
list; there are no empty groups. -/
theorem get?_groupByKey {K V : Type} [DecidableEq K] (key : V → K) (values : List V) (group : K) :
    (groupByKey key values).get? group =
      if values.filter (fun value => key value = group) = [] then none
      else some (values.filter fun value => key value = group) := by
  -- The fold is followed from its right end: the last value joins its group.
  induction values using List.reverseRecOn with
  | nil => rfl
  | append_singleton earlier last inductionHypothesis =>
      have pushed : groupByKey key (earlier ++ [last]) =
          pushUnder (groupByKey key earlier) (key last) last := by
        simp [groupByKey]
      rw [pushed, pushUnder, KeyedMap.get?_insert, List.filter_append]
      by_cases same : group = key last
      · subst group
        have stored : ((groupByKey key earlier).get? (key last)).getD [] =
            earlier.filter (fun value => key value = key last) := by
          rw [inductionHypothesis]
          split
          · rename_i alone
            rw [alone, Option.getD_none]
          · rfl
        rw [stored]
        simp
      · have apart : key last ≠ group := fun equal => same equal.symm
        simpa [same, apart] using inductionHypothesis

/-- The groups of distinct keys that cover a list are the list. -/
theorem flatMap_filter_perm {K V : Type} [DecidableEq K] (key : V → K)
    {keys : List K} {values : List V}
    (distinct : keys.Nodup) (covers : ∀ value ∈ values, key value ∈ keys) :
    (keys.flatMap fun group => values.filter fun value => key value = group).Perm values := by
  induction keys generalizing values with
  | nil =>
      cases values with
      | nil => exact .refl _
      | cons value rest => cases covers value (List.mem_cons_self ..)
  | cons first keys inductionHypothesis =>
      obtain ⟨fresh, distinct⟩ := List.nodup_cons.mp distinct
      have rest : ((keys.flatMap fun group => values.filter fun value => key value = group)).Perm
          (values.filter fun value => key value ≠ first) := by
        have others : (keys.flatMap fun group => values.filter fun value => key value = group) =
            keys.flatMap fun group =>
              (values.filter fun value => key value ≠ first).filter fun value =>
                key value = group := by
          refine List.flatMap_congr ?_
          intro group member
          rw [List.filter_filter]
          refine List.filter_congr ?_
          intro value _
          by_cases same : key value = group
          · have apart : key value ≠ first := by
              rintro rfl
              exact fresh (same ▸ member)
            simp [apart]
          · simp [same]
        rw [others]
        refine inductionHypothesis distinct ?_
        intro value member
        obtain ⟨listed, apart⟩ := List.mem_filter.mp member
        exact (List.mem_cons.mp (covers value listed)).resolve_left (by simpa using apart)
      rw [List.flatMap_cons]
      refine ((List.Perm.append_left _ rest)).trans ?_
      simpa using List.filter_append_perm (fun value => decide (key value = first)) values

namespace Config

/-- The role-dependent checks of one tenant. -/
def validateRole (role : Role) (t : TenantConfig) : Except ConfigError Unit :=
  match role with
  | .serveTcp =>
      if t.peerPq.isNone then
        .error (.missing s!"tenant {t.name}: peer_pq required for role = serve-tcp")
      else if t.backend.isSome then
        .error (.conflict s!"tenant {t.name}: backend must not be set when role = serve-tcp")
      else .ok ()
  | .servePq =>
      if t.backend.isNone then
        .error (.missing s!"tenant {t.name}: backend required for role = serve-pq")
      else if t.peerPq.isSome then
        .error (.conflict s!"tenant {t.name}: peer_pq must not be set when role = serve-pq")
      else if t.tls.isSome then
        .error (.conflict s!"tenant {t.name}: tls section only valid for role = serve-tcp")
      else .ok ()

/-- The first loop of `Config::validate`: distinct names, a resolvable audit
signer, and the role's fields. `seen` holds the names of earlier tenants. -/
def validateTenants (cfg : Config) (seen : List String) : List TenantConfig →
    Except ConfigError Unit
  | [] => .ok ()
  | t :: rest =>
      if t.name ∈ seen then .error (.conflict s!"duplicate tenant name: {t.name}")
      else if t.auditSigner.isNone && cfg.auditSigner.isNone then
        .error (.missing <|
          s!"tenant {t.name}: no audit_signer (declare [tenants.audit_signer] for this tenant " ++
          s!"or a top-level [audit_signer] as the default)")
      else do
        validateRole cfg.role t
        validateTenants cfg (t.name :: seen) rest

/-- The checks on the members of a listener shared by several tenants.
`tlsState` is whether the first member has TLS, `seen` the SNIs so far. -/
def validateMembers (listen : String) (size : Nat) :
    Option Bool → List String → List TenantConfig → Except ConfigError Unit
  | _, _, [] => .ok ()
  | tlsState, seen, t :: rest =>
      let hasTls := t.tls.isSome
      if tlsState = some !hasTls then
        .error (.conflict <|
          s!"listen {listen}: cannot mix tenants with and without [tenants.tls]" ++
          s!"                              — a single listen port is either fully " ++
          s!"TLS-terminated or not                              (tenant {t.name} disagrees)")
      else if !hasTls then
        .error (.conflict <|
          s!"listen {listen}: tenants sharing a listen must all have [tenants.tls]" ++
          s!"                          set (tenant {t.name} does not) — SNI dispatch is " ++
          s!"only possible at TLS                          handshake time")
      else match t.sni with
      | none =>
          .error (.missing <|
            s!"tenant {t.name}: shares listen {listen} with {size - 1} other tenant(s) but has " ++
            s!"no                          sni — SNI is mandatory for multi-tenant listeners")
      | some sni =>
          if sni.isEmpty then
            .error (.missing s!"tenant {t.name}: sni must be a non-empty hostname")
          else if sni.toList.contains '*' && invalidWildcard sni then
            .error (.conflict <|
              s!"tenant {t.name}: sni {sni.quote} is an invalid wildcard (must be " ++
              s!"'*.host.example.com' with the asterisk only as the leftmost label)")
          else if sni ∈ seen then
            .error (.conflict <|
              s!"listen {listen}: duplicate sni {sni.quote} (tenant {t.name} collides with " ++
              s!"another)")
          else validateMembers listen size (some hasTls) (sni :: seen) rest

/-- The checks on the tenants of one listen address. -/
def validateGroup (listen : String) (group : List TenantConfig) : Except ConfigError Unit :=
  match group with
  | [t] =>
      if t.sni.isSome then
        .error (.conflict <|
          s!"tenant {t.name}: sni is set but listen {listen} has only one tenant —" ++
          s!"                          remove sni or add a sibling tenant on the same listen")
      else .ok ()
  | _ => validateMembers listen group.length none [] group

/-- Zero limits are operator errors. -/
def validateLimits (t : TenantConfig) : Except ConfigError Unit :=
  match t.limits with
  | none => .ok ()
  | some limits =>
      if limits.maxConcurrent = some 0 then
        .error (.conflict <|
          s!"tenant {t.name}: limits.max_concurrent = 0 rejects every connection; omit the " ++
          s!"field or set ≥ 1")
      else match limits.rateLimitPerSource with
      | none => .ok ()
      | some rl =>
          if rl.capacity = 0 then
            .error (.conflict <|
              s!"tenant {t.name}: limits.rate_limit_per_source.capacity = 0 rejects every " ++
              s!"connection; omit the block or set ≥ 1")
          else if rl.refillPerSec = 0 then
            .error (.conflict <|
              s!"tenant {t.name}: limits.rate_limit_per_source.refill_per_sec = 0 means buckets " ++
              s!"never refill — sources exhaust permanently; omit the block or set ≥ 1")
          else .ok ()

/-- A serve-pq tenant declares no SNI. -/
def validateNoSni (t : TenantConfig) : Except ConfigError Unit :=
  if t.sni.isSome then
    .error (.conflict s!"tenant {t.name}: sni only meaningful for role = serve-tcp")
  else .ok ()

/-- `Config::validate_sni_groups`. The serve-pq branch returns before the limits
are looked at. The order in which the source's hash map yields the groups is
unspecified; here it is the order of first appearance. -/
def validateSniGroups (cfg : Config) : Except ConfigError Unit :=
  match cfg.role with
  | .servePq => cfg.tenants.forM validateNoSni
  | .serveTcp => do
      (groupByKey TenantConfig.listen cfg.tenants).entries.forM fun entry =>
        validateGroup entry.1 entry.2
      cfg.tenants.forM validateLimits

/-- `Config::validate`. -/
def validate (cfg : Config) : Except ConfigError Unit :=
  if cfg.tenants.isEmpty then
    .error (.missing "config must declare at least one [[tenants]] entry")
  else do
    validateTenants cfg [] cfg.tenants
    validateSniGroups cfg

/-- `Config::effective_signer`: the tenant's override or the daemon default. -/
def effectiveSigner (cfg : Config) (t : TenantConfig) : Option AuditSignerConfig :=
  t.auditSigner.or cfg.auditSigner

/-- `Config::resolve_one_serve_tcp`. -/
def resolveOneServeTcp (cfg : Config) (t : TenantConfig) : Except ConfigError ServeTcpTenant :=
  if cfg.role ≠ .serveTcp then
    .error (.conflict "resolve_one_serve_tcp called on non-serve-tcp config")
  else match cfg.effectiveSigner t with
  | none => .error (.missing s!"tenant {t.name}: no audit_signer")
  | some auditSigner =>
      match t.peerPq with
      | none => .error (.missing s!"tenant {t.name}: serve-tcp tenant must declare a peer_pq")
      | some peerPq =>
          .ok { name := t.name, listen := t.listen, peerPq, peerPubDir := t.peerPubDir,
                auditLog := t.auditLog, tls := t.tls, auditSigner, sni := t.sni,
                limits := t.limits }

/-- `Config::resolve_one_serve_pq`. -/
def resolveOneServePq (cfg : Config) (t : TenantConfig) : Except ConfigError ServePqTenant :=
  if cfg.role ≠ .servePq then
    .error (.conflict "resolve_one_serve_pq called on non-serve-pq config")
  else match cfg.effectiveSigner t with
  | none => .error (.missing s!"tenant {t.name}: no audit_signer")
  | some auditSigner =>
      match t.backend with
      | none => .error (.missing s!"tenant {t.name}: serve-pq tenant must declare a backend")
      | some backend =>
          .ok { name := t.name, listen := t.listen, backend, peerPubDir := t.peerPubDir,
                auditLog := t.auditLog, auditSigner, limits := t.limits }

/-- `Config::resolve_serve_pq`. -/
def resolveServePq (cfg : Config) : Except ConfigError (List ServePqTenant) :=
  if cfg.role ≠ .servePq then
    .error (.conflict "resolve_serve_pq called on non-serve-pq config")
  else cfg.tenants.mapM cfg.resolveOneServePq

/-- `Config::resolve_serve_tcp`. -/
def resolveServeTcp (cfg : Config) : Except ConfigError (List ServeTcpTenant) :=
  if cfg.role ≠ .serveTcp then
    .error (.conflict "resolve_serve_tcp called on non-serve-tcp config")
  else cfg.tenants.mapM cfg.resolveOneServeTcp

/-- `Config::resolve_serve_tcp_groups`: groups in the order of their listen
strings, as the source's `BTreeMap` yields them. -/
def resolveServeTcpGroups (cfg : Config) : Except ConfigError (List TlsListenerGroup) := do
  let flat ← cfg.resolveServeTcp
  let byListen := (groupByKey ServeTcpTenant.listen flat).entries
  return (byListen.insertionSort fun left right => left.1 ≤ right.1).map fun entry =>
    { listen := entry.1, sniDispatch := decide (1 < entry.2.length), tenants := entry.2 }

/-- Validation leaves no two tenants with one name. -/
theorem validateTenants_names {cfg : Config} {seen : List String} {tenants : List TenantConfig}
    (valid : validateTenants cfg seen tenants = .ok ()) :
    (tenants.map TenantConfig.name).Nodup ∧ ∀ t ∈ tenants, t.name ∉ seen := by
  induction tenants generalizing seen with
  | nil => simp
  | cons t rest inductionHypothesis =>
      simp only [validateTenants] at valid
      split at valid
      · cases valid
      · rename_i fresh
        split at valid
        · cases valid
        · obtain ⟨_, _, valid⟩ := bind_eq_ok.mp valid
          obtain ⟨nodup, apart⟩ := inductionHypothesis valid
          refine ⟨?_, ?_⟩
          · rw [List.map_cons, List.nodup_cons]
            refine ⟨?_, nodup⟩
            intro member
            obtain ⟨other, otherMember, sameName⟩ := List.mem_map.mp member
            exact apart other otherMember (by simp [sameName])
          · intro other member
            rcases List.mem_cons.mp member with rfl | later
            · exact fresh
            · exact fun earlier => apart other later (List.mem_cons_of_mem _ earlier)

/-- An accepted configuration has distinct tenant names. -/
theorem validate_names_nodup {cfg : Config} (valid : cfg.validate = .ok ()) :
    (cfg.tenants.map TenantConfig.name).Nodup := by
  simp only [validate] at valid
  split at valid
  · cases valid
  · obtain ⟨_, tenants, _⟩ := bind_eq_ok.mp valid
    exact (validateTenants_names tenants).1

/-- Resolution keeps what routing depends on. -/
theorem resolveOneServeTcp_spec {cfg : Config} {t : TenantConfig} {tenant : ServeTcpTenant}
    (resolved : cfg.resolveOneServeTcp t = .ok tenant) :
    tenant.name = t.name ∧ tenant.listen = t.listen ∧ tenant.sni = t.sni ∧
    tenant.tls = t.tls := by
  simp only [resolveOneServeTcp] at resolved
  repeat' split at resolved
  all_goals cases resolved
  exact ⟨rfl, rfl, rfl, rfl⟩

/-- Resolution keeps the address. -/
theorem resolveOneServePq_listen {cfg : Config} {t : TenantConfig} {tenant : ServePqTenant}
    (resolved : cfg.resolveOneServePq t = .ok tenant) : tenant.listen = t.listen := by
  simp only [resolveOneServePq] at resolved
  repeat' split at resolved
  all_goals cases resolved
  rfl

/-- Resolution keeps the names, in the order of the configuration. -/
theorem resolveServeTcp_names {cfg : Config} {flat : List ServeTcpTenant}
    (resolved : cfg.resolveServeTcp = .ok flat) :
    flat.map ServeTcpTenant.name = cfg.tenants.map TenantConfig.name := by
  simp only [resolveServeTcp] at resolved
  split at resolved
  · cases resolved
  · exact map_of_mapM_eq_ok (fun one => (resolveOneServeTcp_spec one).1) resolved

/-- The members of a listener group are resolved tenants of its address. -/
theorem resolveServeTcpGroups_spec {cfg : Config} {groups : List TlsListenerGroup}
    (resolved : cfg.resolveServeTcpGroups = .ok groups) :
    ∃ flat, cfg.resolveServeTcp = .ok flat ∧
      ∀ group ∈ groups, ∀ t ∈ group.tenants, t ∈ flat ∧ t.listen = group.listen := by
  obtain ⟨flat, flattened, resolved⟩ := bind_eq_ok.mp resolved
  cases resolved
  refine ⟨flat, flattened, ?_⟩
  intro group member t tenant
  obtain ⟨⟨listen, tenants⟩, sorted, rfl⟩ := List.mem_map.mp member
  have stored := KeyedMap.get?_eq_some_iff.mpr ((List.mem_insertionSort _).mp sorted)
  rw [get?_groupByKey] at stored
  split at stored
  · cases stored
  · cases stored
    simpa using tenant

/-- The tenants that listen at an address. -/
def tenantsAt (cfg : Config) (listen : String) : List TenantConfig :=
  cfg.tenants.filter fun t => t.listen = listen

theorem mem_tenantsAt {cfg : Config} {listen : String} {t : TenantConfig} :
    t ∈ cfg.tenantsAt listen ↔ t ∈ cfg.tenants ∧ t.listen = listen := by
  simp [tenantsAt]

/-- The listener groups are the addresses of the tenants, each with all tenants of
its address. -/
theorem resolveServeTcpGroups_members {cfg : Config} {groups : List TlsListenerGroup}
    (resolved : cfg.resolveServeTcpGroups = .ok groups) :
    cfg.role = .serveTcp ∧ (groups.map TlsListenerGroup.listen).Nodup ∧
      (∀ t ∈ cfg.tenants, ∃ group ∈ groups, group.listen = t.listen) ∧
      ∀ group ∈ groups, (cfg.tenantsAt group.listen).mapM cfg.resolveOneServeTcp =
        .ok group.tenants ∧
        group.tenants ≠ [] ∧ group.sniDispatch = decide (1 < group.tenants.length) := by
  obtain ⟨flat, flattened, resolved⟩ := bind_eq_ok.mp resolved
  cases resolved
  simp only [resolveServeTcp] at flattened
  split at flattened
  · cases flattened
  · rename_i role
    refine ⟨by simpa using role, ?_, ?_, ?_⟩
    · rw [List.map_map]
      exact ((List.perm_insertionSort _ _).map _).nodup_iff.mpr (KeyedMap.distinct _)
    · intro t declared
      obtain ⟨tenant, listed, converted⟩ := exists_mem_of_mapM_eq_ok flattened declared
      have address := (resolveOneServeTcp_spec converted).2.1
      have stored : (groupByKey ServeTcpTenant.listen flat).get? t.listen =
          some (flat.filter fun tenant => tenant.listen = t.listen) := by
        rw [get?_groupByKey, if_neg]
        intro none
        have member : tenant ∈ flat.filter fun tenant => tenant.listen = t.listen :=
          List.mem_filter.mpr ⟨listed, by simpa using address⟩
        rw [none] at member
        cases member
      refine ⟨_, List.mem_map.mpr ⟨_, (List.mem_insertionSort _).mpr
        (KeyedMap.get?_eq_some_iff.mp stored), rfl⟩, rfl⟩
    · intro group member
      obtain ⟨⟨listen, tenants⟩, sorted, rfl⟩ := List.mem_map.mp member
      have stored := KeyedMap.get?_eq_some_iff.mpr ((List.mem_insertionSort _).mp sorted)
      rw [get?_groupByKey] at stored
      split at stored
      · cases stored
      · rename_i nonempty
        cases stored
        exact ⟨filter_mapM_eq_ok (fun one => (resolveOneServeTcp_spec one).2.1) flattened _,
          nonempty, rfl⟩

/-- An accepted serve-tcp configuration has checked the tenants of every address. -/
theorem validate_group {cfg : Config} (valid : cfg.validate = .ok ()) (role : cfg.role = .serveTcp)
    {listen : String} (used : cfg.tenantsAt listen ≠ []) :
    validateGroup listen (cfg.tenantsAt listen) = .ok () := by
  simp only [validate] at valid
  split at valid
  · cases valid
  · obtain ⟨_, _, valid⟩ := bind_eq_ok.mp valid
    simp only [validateSniGroups, role] at valid
    obtain ⟨⟨⟩, groups, _⟩ := bind_eq_ok.mp valid
    have stored : (groupByKey TenantConfig.listen cfg.tenants).get? listen =
        some (cfg.tenantsAt listen) := by
      rw [get?_groupByKey]
      exact if_neg used
    exact of_forM_eq_ok groups (KeyedMap.get?_eq_some_iff.mp stored)

/-- A tenant alone at its address has no hostname. -/
theorem validate_alone {cfg : Config} (valid : cfg.validate = .ok ()) (role : cfg.role = .serveTcp)
    {listen : String} {t : TenantConfig} (alone : cfg.tenantsAt listen = [t]) : t.sni = none := by
  have checked := validate_group valid role (by simp [alone] : cfg.tenantsAt listen ≠ [])
  rw [alone] at checked
  simp only [validateGroup] at checked
  split at checked
  · cases checked
  · rename_i bare
    simpa using bare

/-- Every tenant of an accepted configuration passed the checks of the role. -/
theorem validateTenants_role {cfg : Config} {seen : List String} {tenants : List TenantConfig}
    (valid : validateTenants cfg seen tenants = .ok ()) :
    ∀ t ∈ tenants, validateRole cfg.role t = .ok () := by
  induction tenants generalizing seen with
  | nil => simp
  | cons t rest inductionHypothesis =>
      simp only [validateTenants] at valid
      split at valid
      · cases valid
      · split at valid
        · cases valid
        · obtain ⟨⟨⟩, now, valid⟩ := bind_eq_ok.mp valid
          intro other member
          rcases List.mem_cons.mp member with rfl | later
          · exact now
          · exact inductionHypothesis valid other later

/-- Every tenant of an accepted configuration has an audit signer. -/
theorem validateTenants_signer {cfg : Config} {seen : List String} {tenants : List TenantConfig}
    (valid : validateTenants cfg seen tenants = .ok ()) :
    ∀ t ∈ tenants, ∃ signer, cfg.effectiveSigner t = some signer := by
  induction tenants generalizing seen with
  | nil => simp
  | cons t rest inductionHypothesis =>
      simp only [validateTenants] at valid
      split at valid
      · cases valid
      · split at valid
        · cases valid
        · rename_i signed
          obtain ⟨⟨⟩, _, valid⟩ := bind_eq_ok.mp valid
          intro other member
          rcases List.mem_cons.mp member with rfl | later
          · cases own : other.auditSigner with
            | some signer => exact ⟨signer, by simp [effectiveSigner, own]⟩
            | none =>
                simp only [own, Option.isNone_none, Bool.true_and] at signed
                obtain ⟨signer, default⟩ :=
                  Option.ne_none_iff_exists'.mp (by simpa using signed)
                exact ⟨signer, by simp [effectiveSigner, own, default]⟩
          · exact inductionHypothesis valid other later

/-- A tenant of an accepted serve-tcp configuration resolves. -/
theorem validate_resolves {cfg : Config} (valid : cfg.validate = .ok ())
    (role : cfg.role = .serveTcp) {t : TenantConfig} (declared : t ∈ cfg.tenants) :
    ∃ resolved, cfg.resolveOneServeTcp t = .ok resolved := by
  simp only [validate] at valid
  split at valid
  · cases valid
  · obtain ⟨_, tenants, _⟩ := bind_eq_ok.mp valid
    have checked := validateTenants_role tenants t declared
    simp only [validateRole, role] at checked
    split at checked
    · cases checked
    · rename_i peer
      obtain ⟨peerPq, peerOf⟩ := Option.ne_none_iff_exists'.mp (by simpa using peer)
      obtain ⟨signer, signerOf⟩ := validateTenants_signer tenants t declared
      simp only [resolveOneServeTcp, role, ne_eq, not_true, if_false, signerOf, peerOf]
      exact ⟨_, rfl⟩

/-- A serve-pq tenant has neither TLS nor a hostname. -/
theorem validate_servePq {cfg : Config} (valid : cfg.validate = .ok ()) (role : cfg.role = .servePq)
    {t : TenantConfig} (declared : t ∈ cfg.tenants) : t.tls = none ∧ t.sni = none := by
  simp only [validate] at valid
  split at valid
  · cases valid
  · obtain ⟨_, tenants, valid⟩ := bind_eq_ok.mp valid
    simp only [validateSniGroups, role] at valid
    have roleChecked := validateTenants_role tenants t declared
    have sniChecked := of_forM_eq_ok valid declared
    constructor
    · simp only [validateRole, role] at roleChecked
      split at roleChecked
      · cases roleChecked
      · split at roleChecked
        · cases roleChecked
        · split at roleChecked
          · cases roleChecked
          · rename_i bare
            simpa using bare
    · simp only [validateNoSni] at sniChecked
      split at sniChecked
      · cases sniChecked
      · rename_i bare
        simpa using bare

end Config
end CofreSoberano.Gateway

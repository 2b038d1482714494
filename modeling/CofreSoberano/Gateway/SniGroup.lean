import CofreSoberano.Gateway.Sni
import CofreSoberano.Std.Machine

/-!
# SNI listener groups over daemon runs

An SNI group keeps the hostname-to-tenant map twice: as the certificate set of
its reload trigger, from which the acceptor's resolver is rebuilt, and as its
dispatch table. Three paths fill them (startup, the first tenant of a new group,
a tenant joining a running group); SIGHUP REMOVE and SIGUSR1 change them.

The paths disagree on the order of a certificate entry. The rebuild reads
`(sni, tenant_name, cfg)`; startup and the new-group path write it so, and
`add_sni_entry` pushes `(label, sni, cfg)` with the tenant name as label. The
two copies therefore stay equal as long as no step depends on the difference.
-/

namespace CofreSoberano.Gateway

open CofreSoberano.Std

/-- Reading and parsing certificate material, as one rebuild finds the disk. -/
structure Disk where
  loadCertChain : String → Except String (List (List UInt8))
  loadPrivateKey : String → Except String (List UInt8)
  anySupportedType : List UInt8 → Except String (List UInt8)

/-- `with_context`: an error is shown after the context it was given. -/
def withContext {V : Type} (context : String) : Except String V → Except String V
  | .ok value => .ok value
  | .error message => .error s!"{context}: {message}"

/-- A context changes no success. -/
@[simp] theorem withContext_eq_ok {V : Type} {context : String} {outcome : Except String V}
    {value : V} : withContext context outcome = .ok value ↔ outcome = .ok value := by
  cases outcome <;> simp [withContext]

/-- An entry of a group's certificate set, as `build_multi_sni_acceptor` reads
it: SNI hostname, tenant name, TLS configuration. -/
abbrev SniEntry := String × String × TlsConfig

/-- A certificate file without certificates is an error. -/
def nonemptyChain (tenantName : String) (cfg : TlsConfig) (chain : List (List UInt8)) :
    Except String (List (List UInt8)) :=
  if chain.isEmpty then .error s!"tenant {tenantName}: no certificates parsed from {cfg.cert}"
  else .ok chain

/-- One iteration of `build_multi_sni_acceptor`: load a tenant's material. -/
def certifyEntry (disk : Disk) : SniEntry → Except String SniTenantCert
  | (sni, tenantName, cfg) => do
      let chain ← withContext s!"loading cert chain for tenant {tenantName}"
        (disk.loadCertChain cfg.cert)
      let chain ← nonemptyChain tenantName cfg chain
      let key ← withContext s!"loading private key for tenant {tenantName}"
        (disk.loadPrivateKey cfg.key)
      let signingKey ← withContext s!"tenant {tenantName}: invalid signing key"
        (disk.anySupportedType key)
      return { sni, tenantName, certified := { files := cfg, chain, signingKey } }

/-- `build_multi_sni_acceptor`; the acceptor is kept as its resolver. -/
def buildMultiSniAcceptor (disk : Disk) (entries : List SniEntry) :
    Except String MultiSniCertResolver := do
  let certified ← entries.mapM (certifyEntry disk)
  MultiSniCertResolver.new certified

/-- The reload trigger of an SNI group: its certificate set, the acceptor it last
installed, and its label. -/
structure TlsReloadTrigger where
  entries : List SniEntry
  acceptor : MultiSniCertResolver
  label : String
deriving DecidableEq

namespace TlsReloadTrigger

/-- `TlsReloadTrigger::reload`: on success the new acceptor is installed and the
previous one returned, on failure the previous one stays. -/
def reload (disk : Disk) (trigger : TlsReloadTrigger) :
    TlsReloadTrigger × Except String MultiSniCertResolver :=
  match buildMultiSniAcceptor disk trigger.entries with
  | .ok acceptor => ({ trigger with acceptor }, .ok trigger.acceptor)
  | .error message =>
      (trigger, .error <|
        s!"rebuilding multi-SNI acceptor for group {trigger.label} " ++
        s!"(n_certs={trigger.entries.length}): {message}")

/-- `TlsReloadTrigger::add_sni_entry`. The pushed tuple starts with the label. -/
def addSniEntry (disk : Disk) (trigger : TlsReloadTrigger) (label sni : String) (cfg : TlsConfig) :
    TlsReloadTrigger × Except String MultiSniCertResolver :=
  if trigger.entries.any fun entry => entry.1 = label then
    (trigger, .error s!"tenant {label} already in multi-SNI group {trigger.label}")
  else
    let pushed := { trigger with entries := trigger.entries ++ [(label, sni, cfg)] }
    match pushed.reload disk with
    | (reloaded, .ok previous) => (reloaded, .ok previous)
    | (kept, .error message) =>
        ({ kept with entries := kept.entries.filter fun entry => entry.1 ≠ label },
          .error s!"add_sni_entry: rollback after rebuild failure: {message}")

/-- `TlsReloadTrigger::remove_sni_entry`: the first entry that starts with the
label goes; if the rebuild fails it comes back at the end. -/
def removeSniEntry (disk : Disk) (trigger : TlsReloadTrigger) (label : String) :
    TlsReloadTrigger × Except String MultiSniCertResolver :=
  match trigger.entries.find? fun entry => entry.1 = label with
  | none => (trigger, .error s!"tenant {label} not in multi-SNI group {trigger.label}")
  | some removed =>
      let rest := { trigger with entries := trigger.entries.eraseP fun entry => entry.1 = label }
      match rest.reload disk with
      | (reloaded, .ok previous) => (reloaded, .ok previous)
      | (kept, .error message) =>
          ({ kept with entries := kept.entries ++ [removed] },
            .error s!"remove_sni_entry: rollback after rebuild failure: {message}")

section Outcomes

variable {disk : Disk} {trigger next : TlsReloadTrigger} {label sni : String} {cfg : TlsConfig}

/-- A reload keeps the entries. -/
theorem reload_entries (disk : Disk) (trigger : TlsReloadTrigger) :
    (trigger.reload disk).1.entries = trigger.entries := by
  simp only [reload]
  split <;> rfl

/-- A reload of a set that can be built installs its acceptor. -/
theorem reload_of_built {acceptor : MultiSniCertResolver}
    (built : buildMultiSniAcceptor disk trigger.entries = .ok acceptor) :
    trigger.reload disk = ({ trigger with acceptor }, .ok trigger.acceptor) := by
  simp only [reload, built]

/-- A successful reload has built its set. -/
theorem built_of_reload {previous : MultiSniCertResolver}
    (reloaded : trigger.reload disk = (next, .ok previous)) :
    next.entries = trigger.entries ∧
      buildMultiSniAcceptor disk trigger.entries = .ok next.acceptor := by
  simp only [reload] at reloaded
  split at reloaded
  · rename_i acceptor built
    cases reloaded
    exact ⟨rfl, built⟩
  · cases reloaded

/-- A refused reload changes nothing. -/
theorem kept_of_reload {message : String} (refused : trigger.reload disk = (next, .error message)) :
    next = trigger := by
  simp only [reload] at refused
  split at refused
  · cases refused
  · cases refused
    rfl

/-- A successful addition appends its tuple to a set that builds with it. -/
theorem addSniEntry_ok {previous : MultiSniCertResolver}
    (added : trigger.addSniEntry disk label sni cfg = (next, .ok previous)) :
    (∀ entry ∈ trigger.entries, entry.1 ≠ label) ∧
      next.entries = trigger.entries ++ [(label, sni, cfg)] ∧
      buildMultiSniAcceptor disk next.entries = .ok next.acceptor := by
  simp only [addSniEntry] at added
  split at added
  · cases added
  · rename_i unused
    have apart : ∀ entry ∈ trigger.entries, entry.1 ≠ label := by
      intro entry member same
      exact unused (List.any_eq_true.mpr ⟨entry, member, by simpa using same⟩)
    split at added
    · rename_i reloaded
      cases added
      obtain ⟨entries, built⟩ := built_of_reload reloaded
      exact ⟨apart, entries, entries ▸ built⟩
    · cases added

/-- A refused addition leaves the trigger as it was: the rollback drops what was pushed,
and nothing else has that label. -/
theorem addSniEntry_error {message : String}
    (refused : trigger.addSniEntry disk label sni cfg = (next, .error message)) :
    next = trigger := by
  simp only [addSniEntry] at refused
  split at refused
  · cases refused
    rfl
  · rename_i unused
    split at refused
    · cases refused
    · rename_i reloaded
      cases refused
      have rolledBack : (trigger.entries ++ [(label, sni, cfg)]).filter
          (fun entry => entry.1 ≠ label) = trigger.entries := by
        rw [List.filter_append, List.filter_eq_self.mpr]
        · simp
        · intro entry member
          simp only [List.any_eq_true, decide_eq_true_eq, not_exists, not_and] at unused
          simpa using unused entry member
      rw [kept_of_reload reloaded, rolledBack]

/-- A successful removal drops the first entry of its label from a set that builds
without it. -/
theorem removeSniEntry_ok {previous : MultiSniCertResolver}
    (removed : trigger.removeSniEntry disk label = (next, .ok previous)) :
    (∃ entry ∈ trigger.entries, entry.1 = label) ∧
      next.entries = trigger.entries.eraseP (fun entry => entry.1 = label) ∧
      buildMultiSniAcceptor disk next.entries = .ok next.acceptor := by
  simp only [removeSniEntry] at removed
  split at removed
  · cases removed
  · rename_i leaving found
    have matched : leaving.1 = label := by simpa using List.find?_some found
    split at removed
    · rename_i reloaded
      cases removed
      obtain ⟨entries, built⟩ := built_of_reload reloaded
      exact ⟨⟨leaving, List.mem_of_find?_eq_some found, matched⟩,
        entries, entries ▸ built⟩
    · cases removed

/-- The first entry of a label, put back at the end. -/
theorem eraseP_append_perm {entries : List SniEntry} {leaving : SniEntry}
    (found : entries.find? (fun entry => entry.1 = label) = some leaving) :
    (entries.eraseP (fun entry => entry.1 = label) ++ [leaving]).Perm entries := by
  have matched : leaving.1 = label := by simpa using List.find?_some found
  obtain ⟨taken, before, after, apart, takenMatches, split, erased⟩ :=
    List.exists_of_eraseP (p := fun entry => decide (entry.1 = label))
      (List.mem_of_find?_eq_some found) (by simpa using matched)
  have same : leaving = taken := by
    rw [split, List.find?_append, List.find?_eq_none.mpr apart, Option.none_or, List.find?_cons,
      takenMatches] at found
    exact (Option.some.inj found).symm
  rw [erased, split, same]
  exact (List.perm_append_singleton _ _).trans List.perm_middle.symm

/-- A refused removal keeps the entries up to their order. -/
theorem removeSniEntry_error {message : String}
    (refused : trigger.removeSniEntry disk label = (next, .error message)) :
    next.entries.Perm trigger.entries ∧ next.acceptor = trigger.acceptor := by
  simp only [removeSniEntry] at refused
  split at refused
  · cases refused
    exact ⟨.refl _, rfl⟩
  · rename_i leaving found
    split at refused
    · cases refused
    · rename_i reloaded
      cases refused
      rw [kept_of_reload reloaded]
      exact ⟨eraseP_append_perm found, rfl⟩

/-- With distinct labels, erasing the first entry of a label erases the label. -/
theorem eraseP_label {entries : List SniEntry} (labels : (entries.map Prod.fst).Nodup)
    (label : String) :
    entries.eraseP (fun entry => entry.1 = label) = entries.filter fun entry =>
      entry.1 ≠ label := by
  induction entries with
  | nil => rfl
  | cons entry rest inductionHypothesis =>
      rw [List.map_cons, List.nodup_cons] at labels
      by_cases same : entry.1 = label
      · have untouched : rest.filter (fun entry => entry.1 ≠ label) = rest := by
          rw [List.filter_eq_self]
          intro other member
          have different : other.1 ≠ label := fun equal =>
            labels.1 (List.mem_map.mpr ⟨other, member, equal.trans same.symm⟩)
          simpa using different
        rw [List.eraseP_cons_of_pos (by simpa using same),
          List.filter_cons_of_neg (by simpa using same), untouched]
      · simp [same, inductionHypothesis labels.2]

end Outcomes

end TlsReloadTrigger

/-- `build_reloadable_multi_sni_acceptor`. -/
def buildReloadableMultiSniAcceptor (disk : Disk) (entries : List SniEntry) (label : String) :
    Except String TlsReloadTrigger := do
  let acceptor ← buildMultiSniAcceptor disk entries
  return { entries, acceptor, label }

/-- A running SNI group: what its acceptor handle and its hot-swappable dispatch
table currently hold. -/
structure SniGroup where
  trigger : TlsReloadTrigger
  dispatch : SniDispatchTable
deriving DecidableEq

/-- The state that tenant handling shares: the registered tenant names and the
SNI groups by listen address. -/
structure Listeners where
  tenantNames : List String
  groups : KeyedMap String SniGroup
deriving DecidableEq

/-- The certificate entry and the context of a member of a startup group. -/
def startupMember (t : ServeTcpTenant) : Except String (SniEntry × SniTenantContext) :=
  match t.sni with
  | none => .error "internal: multi-tenant group member has no sni"
  | some sni =>
      match t.tls with
      | none => .error "internal: multi-tenant group member has no tls"
      | some tls => .ok ((sni, t.name, tls), { tenant := t })

/-- The startup construction of one SNI group. -/
def startupGroup (disk : Disk) (group : TlsListenerGroup) : Except String SniGroup := do
  let members ← group.tenants.mapM startupMember
  let trigger ← withContext s!"multi-SNI acceptor for listen {group.listen}"
    (buildReloadableMultiSniAcceptor disk (members.map Prod.fst) s!"sni-group:{group.listen}")
  let dispatch ← withContext s!"SNI dispatch table for listen {group.listen}"
    (SniDispatchTable.new (members.map Prod.snd))
  return { trigger, dispatch }

/-- Startup of the groups in turn; single-tenant listeners have no group. -/
def startupGroups (disk : Disk) :
    KeyedMap String SniGroup → List TlsListenerGroup → Except String (KeyedMap String SniGroup)
  | groups, [] => .ok groups
  | groups, group :: rest =>
      if group.sniDispatch then do
        let built ← startupGroup disk group
        startupGroups disk (groups.insert group.listen built) rest
      else startupGroups disk groups rest

/-- Startup of the daemon on a loaded configuration. -/
def startup (disk : Disk) (cfg : Config) : Except String Listeners :=
  match cfg.validate with
  | .error rejected => .error rejected.display
  | .ok () =>
      match cfg.role with
      | .servePq => .ok { tenantNames := cfg.tenants.map TenantConfig.name, groups := .empty }
      | .serveTcp =>
          match cfg.resolveServeTcpGroups with
          | .error rejected => .error s!"resolve serve-tcp groups: {rejected.display}"
          | .ok listenerGroups => do
              let groups ← startupGroups disk .empty listenerGroups
              return { tenantNames := cfg.tenants.map TenantConfig.name, groups }

/-- SIGHUP ADD of the first tenant of a new group. -/
def newGroup (disk : Disk) (cfg : Config) (t : TenantConfig) (sni : String) (tls : TlsConfig) :
    Option SniGroup :=
  match cfg.resolveOneServeTcp t with
  | .error _ => none
  | .ok resolved =>
      match buildReloadableMultiSniAcceptor disk [(sni, t.name, tls)] s!"sni-group:{t.listen}" with
      | .error _ => none
      | .ok trigger =>
          match SniDispatchTable.new [{ tenant := resolved }] with
          | .error _ => none
          | .ok dispatch => some { trigger, dispatch }

/-- How a change of a running group ends: neither of its copies is touched, the trigger
is changed and rolled back, or both are replaced. -/
inductive GroupChange (Trigger : Type) where
  | refused
  | rolledBack (kept : Trigger)
  | replaced (next : Trigger) (dispatch : SniDispatchTable)

section GroupChanges

variable {Trigger : Type} (mutate : Trigger → Trigger × Except String MultiSniCertResolver)
  (trigger : Option Trigger)

/-- The change of a running group whose successor table is computed. The table is
installed after the certificate set was changed, and only then; `trigger` is what is
stored under the group's key. -/
def changeGroup (successor : SniDispatchTable) : GroupChange Trigger :=
  match trigger with
  | none => .refused
  | some found =>
      match mutate found with
      | (kept, .error _) => .rolledBack kept
      | (next, .ok _) => .replaced next successor

/-- SIGHUP ADD of a tenant into a running group. -/
def joinGroup (cfg : Config) (t : TenantConfig) (dispatch : SniDispatchTable) :
    GroupChange Trigger :=
  match cfg.resolveOneServeTcp t with
  | .error _ => .refused
  | .ok resolved =>
      match dispatch.withTenantAdded { tenant := resolved } with
      | .error _ => .refused
      | .ok successor => changeGroup mutate trigger successor

/-- SIGHUP REMOVE of a tenant from its group, if the table still has it. -/
def leaveGroup (name : String) (dispatch : SniDispatchTable) : Option (GroupChange Trigger) :=
  (dispatch.withTenantRemoved name).map (changeGroup mutate trigger)

variable {mutate : Trigger → Trigger × Except String MultiSniCertResolver}
    {trigger : Option Trigger}
  {next : Trigger} {successor dispatch : SniDispatchTable}

/-- A change is refused only for want of a trigger. -/
theorem changeGroup_refused :
    changeGroup mutate trigger successor = .refused ↔ trigger = none := by
  cases trigger with
  | none => simp [changeGroup]
  | some found =>
      simp only [changeGroup, reduceCtorEq, iff_false]
      split <;> simp

/-- A change is rolled back exactly if the certificate set refuses it. -/
theorem changeGroup_rolledBack :
    changeGroup mutate trigger successor = .rolledBack next ↔
      ∃ found message, trigger = some found ∧ mutate found = (next, .error message) := by
  cases trigger with
  | none => simp [changeGroup]
  | some found =>
      simp only [changeGroup, Option.some.injEq, exists_and_left, exists_eq_left']
      split
      · rename_i kept message refused
        simp [refused]
      · rename_i accepted
        simp [accepted]

/-- A change goes through exactly if the certificate set accepts it. -/
theorem changeGroup_replaced :
    changeGroup mutate trigger successor = .replaced next dispatch ↔
      successor = dispatch ∧
        ∃ found previous, trigger = some found ∧ mutate found = (next, .ok previous) := by
  cases trigger with
  | none => simp [changeGroup]
  | some found =>
      simp only [changeGroup, Option.some.injEq, exists_and_left, exists_eq_left']
      split
      · rename_i kept message refused
        simp [refused]
      · rename_i accepted
        simp [accepted, and_comm]

/-- A tenant joins exactly if it resolves, the dispatch table takes it and the certificate
set accepts its entry. -/
theorem joinGroup_replaced {cfg : Config} {t : TenantConfig} :
    joinGroup mutate trigger cfg t dispatch = .replaced next successor ↔
      ∃ resolved found previous, cfg.resolveOneServeTcp t = .ok resolved ∧
        dispatch.withTenantAdded { tenant := resolved } = .ok successor ∧
        trigger = some found ∧ mutate found = (next, .ok previous) := by
  simp only [joinGroup]
  cases resolution : cfg.resolveOneServeTcp t with
  | error rejected => simp
  | ok resolved =>
      cases added : dispatch.withTenantAdded { tenant := resolved } with
      | error refused => simp [added]
      | ok table =>
          simp only [changeGroup_replaced, Except.ok.injEq, exists_and_left, exists_eq_left', added]

/-- A join is rolled back only if the certificate set refuses the entry. -/
theorem joinGroup_rolledBack {cfg : Config} {t : TenantConfig}
    (ended : joinGroup mutate trigger cfg t dispatch = .rolledBack next) :
    ∃ found message, trigger = some found ∧ mutate found = (next, .error message) := by
  simp only [joinGroup] at ended
  split at ended
  · cases ended
  · split at ended
    · cases ended
    · exact changeGroup_rolledBack.mp ended

end GroupChanges

namespace SniGroup

/-- A group after a change. -/
def apply (group : SniGroup) : GroupChange TlsReloadTrigger → SniGroup
  | .refused => group
  | .rolledBack trigger => { group with trigger }
  | .replaced trigger dispatch => { trigger, dispatch }

/-- What is stored under the key of a group. The reload triggers are shared with the
single-tenant TLS listeners; `triggerFound` says whether the group's own is there. -/
def stored (group : SniGroup) (triggerFound : Bool) : Option TlsReloadTrigger :=
  if triggerFound then some group.trigger else none

/-- A stored trigger is the group's. -/
theorem eq_of_stored {group : SniGroup} {triggerFound : Bool} {found : TlsReloadTrigger}
    (located : group.stored triggerFound = some found) : found = group.trigger := by
  simp only [stored, Option.ite_none_right_eq_some, Option.some.injEq] at located
  exact located.2.symm

end SniGroup

/-- Where SIGHUP ADD puts a tenant. -/
inductive Placement (Group : Type) where
  /-- The accept loop of a serve-pq tenant. -/
  | servePq
  /-- An accept loop of its own, for a serve-tcp tenant without `sni`. -/
  | single
  /-- Nowhere: `sni` without TLS. -/
  | unsecured
  | newGroup (sni : String) (tls : TlsConfig)
  | member (sni : String) (tls : TlsConfig) (group : Group)

/-- The branches of SIGHUP ADD, given the groups by listen address. -/
def placement {Group : Type} (cfg : Config) (groups : KeyedMap String Group) (t : TenantConfig) :
    Placement Group :=
  match cfg.role with
  | .servePq => .servePq
  | .serveTcp =>
      match t.sni with
      | none => .single
      | some sni =>
          match t.tls with
          | none => .unsecured
          | some tls =>
              match groups.get? t.listen with
              | none => .newGroup sni tls
              | some group => .member sni tls group

section Placements

variable {Group : Type} {cfg : Config} {groups : KeyedMap String Group} {t : TenantConfig}
  {sni : String} {tls : TlsConfig} {group : Group}

theorem placement_servePq : placement cfg groups t = .servePq ↔ cfg.role = .servePq := by
  simp only [placement]
  grind

theorem placement_single :
    placement cfg groups t = .single ↔ cfg.role = .serveTcp ∧ t.sni = none := by
  simp only [placement]
  grind

theorem placement_newGroup : placement cfg groups t = .newGroup sni tls ↔
    cfg.role = .serveTcp ∧ t.sni = some sni ∧ t.tls = some tls ∧
      groups.get? t.listen = none := by
  simp only [placement]
  grind

theorem placement_member : placement cfg groups t = .member sni tls group ↔
    cfg.role = .serveTcp ∧ t.sni = some sni ∧ t.tls = some tls ∧
      groups.get? t.listen = some group := by
  simp only [placement]
  grind

end Placements

/-- SIGHUP ADD of one tenant: its name is registered first, whatever happens to
its listener. Tenants without `sni` get an accept loop of their own. -/
def addTenant (disk : Disk) (cfg : Config) (triggerFound : Bool) (listeners : Listeners)
    (t : TenantConfig) : Listeners :=
  let registered := { listeners with tenantNames := t.name :: listeners.tenantNames }
  match placement cfg listeners.groups t with
  | .newGroup sni tls =>
      match newGroup disk cfg t sni tls with
      | none => registered
      | some group => { registered with groups := listeners.groups.insert t.listen group }
  | .member sni tls group =>
      { registered with
        groups := listeners.groups.insert t.listen <| group.apply <|
          joinGroup (·.addSniEntry disk t.name sni tls) (group.stored triggerFound) cfg t
            group.dispatch }
  | _ => registered

/-- Forget a tenant's name. -/
def Listeners.unregister (listeners : Listeners) (name : String) : List String :=
  listeners.tenantNames.filter (· ≠ name)

/-- The first group whose dispatch table has a tenant of this name. -/
def sniTarget {Group : Type} (table : Group → SniDispatchTable) (groups : KeyedMap String Group)
    (name : String) : Option (String × Group) :=
  groups.entries.find? fun entry => (table entry.2).tenantNames.contains name

/-- A found group has the tenant. -/
theorem sniTarget_eq_some {Group : Type} {table : Group → SniDispatchTable}
    {groups : KeyedMap String Group} {name listen : String} {group : Group}
    (found : sniTarget table groups name = some (listen, group)) :
    (listen, group) ∈ groups.entries ∧ name ∈ (table group).tenantNames :=
  ⟨List.mem_of_find?_eq_some found, by simpa using List.find?_some found⟩

/-- Without a group, no table has the tenant. -/
theorem sniTarget_eq_none {Group : Type} {table : Group → SniDispatchTable}
    {groups : KeyedMap String Group} {name listen : String} {group : Group}
    (absent : sniTarget table groups name = none) (member : (listen, group) ∈ groups.entries) :
    name ∉ (table group).tenantNames := by
  simpa using List.find?_eq_none.mp absent (listen, group) member

/-- SIGHUP REMOVE of one tenant. An SNI tenant leaves its group's certificate set
and dispatch table; a group left without tenants is drained. Any other tenant
is forgotten if its accept loop drained in time. -/
def removeTenant (disk : Disk) (triggerFound drained : Bool) (listeners : Listeners)
    (name : String) : Listeners :=
  match sniTarget SniGroup.dispatch listeners.groups name with
  | some (listen, group) =>
      match leaveGroup (·.removeSniEntry disk name) (group.stored triggerFound) name
        group.dispatch with
      | none => listeners
      | some .refused => listeners
      | some (.rolledBack trigger) =>
          { listeners with groups := listeners.groups.insert listen { group with trigger } }
      | some (.replaced trigger dispatch) =>
          { tenantNames := listeners.unregister name
            groups :=
              if dispatch.tenantNames.isEmpty then listeners.groups.erase listen
              else listeners.groups.insert listen { trigger, dispatch } }
  | none =>
      if drained then { listeners with tenantNames := listeners.unregister name } else listeners

/-- SIGUSR1, for one trigger of the shared map: the group's acceptor is rebuilt
from its certificate set. -/
def reloadGroup (disk : Disk) (listeners : Listeners) (listen : String) : Listeners :=
  match listeners.groups.get? listen with
  | none => listeners
  | some group =>
      { listeners with
        groups := listeners.groups.insert listen
          { group with trigger := (group.trigger.reload disk).1 } }

/-- The signals a running daemon handles, with what they find on disk. -/
inductive ListenerLabel where
  /-- SIGHUP with an accepted configuration that has the new tenant `t`. -/
  | add (disk : Disk) (cfg : Config) (triggerFound : Bool) (t : TenantConfig)
  /-- SIGHUP with a configuration that no longer has the tenant. -/
  | remove (disk : Disk) (triggerFound drained : Bool) (name : String)
  /-- SIGUSR1 reaching the trigger of one group. -/
  | reload (disk : Disk) (listen : String)

/-- One signal, for one tenant or one trigger of it: a SIGHUP applies the
additions and then the removals one by one. A tenant is new if its name is not
registered. -/
def listenerStep (listeners : Listeners) : ListenerLabel → Option Listeners
  | .add disk cfg triggerFound t =>
      if cfg.validate = .ok () ∧ t ∈ cfg.tenants ∧ t.name ∉ listeners.tenantNames then
        some (addTenant disk cfg triggerFound listeners t)
      else none
  | .remove disk triggerFound drained name =>
      some (removeTenant disk triggerFound drained listeners name)
  | .reload disk listen => some (reloadGroup disk listeners listen)

/-- The daemon's SNI groups as a machine, started on any configuration. -/
def listenerMachine : Machine where
  State := Listeners
  Label := ListenerLabel
  Initial listeners := ∃ disk cfg, startup disk cfg = .ok listeners
  step := listenerStep

end CofreSoberano.Gateway

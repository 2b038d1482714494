import CofreSoberano.Gateway.SniGroup

/-!
# Certificates and dispatch agree

What a group's acceptor presents for a hostname and what its dispatch table
answers are compared over every run of the daemon. Both copies are related to
one map of routes (`Backed`); a step keeps the relation if the label it writes
or looks up in the certificate set is the hostname there (`SettledLabels`).
-/

namespace CofreSoberano.Gateway

open CofreSoberano.Std

/-- For every hostname, the acceptor presents the certificate of the tenant the
dispatch table answers with, and none if it answers with none. -/
def SniGroup.Agrees (group : SniGroup) : Prop :=
  ∀ host, (group.trigger.acceptor.resolve (some host)).map
    (fun certified => some certified.files) =
    (group.dispatch.lookup host).map (fun ctx => ctx.tenant.tls)

/-- Two maps with matching images route every hostname to matching images. -/
theorem map_route {V W R : Type} {left : KeyedMap String V} {right : KeyedMap String W}
    {leftImage : V → R} {rightImage : W → R}
    (matching : ∀ sni, (left.get? sni).map leftImage = (right.get? sni).map rightImage)
    (host : String) : (route left host).map leftImage = (route right host).map rightImage := by
  have wildcard : ((wildcardOf host).bind left.get?).map leftImage =
      ((wildcardOf host).bind right.get?).map rightImage := by
    cases wildcardOf host with
    | none => rfl
    | some sni => exact matching sni
  simp only [route, Option.map_or, matching host, wildcard]

/-- The hostname and the files of every certificate entry, as they are read. -/
def sources (entries : List SniEntry) : List (String × TlsConfig) :=
  entries.map fun entry => (entry.1, entry.2.2)

/-- Pairs of hostnames and files are those of the routes. -/
def Mirrors (pairs : List (String × TlsConfig))
    (routes : KeyedMap String SniTenantContext) : Prop :=
  ∀ sni tls, (sni, tls) ∈ pairs ↔ ∃ ctx, (sni, ctx) ∈ routes.entries ∧
    ctx.tenant.tls = some tls

/-- A resolver presents, under each hostname, the files of the routes. -/
def Presents (acceptor : MultiSniCertResolver) (routes : KeyedMap String SniTenantContext) : Prop :=
  ∃ certs, Represents acceptor certs ∧
    Mirrors (certs.entries.map fun entry => (entry.1, entry.2.files)) routes

/-- The two copies of a group and the routes they both stand for. -/
structure Backed (group : SniGroup) (routes : KeyedMap String SniTenantContext) : Prop where
  dispatch : Represents group.dispatch routes
  keyed : ∀ sni ctx, (sni, ctx) ∈ routes.entries → ctx.tenant.sni = some sni
  secured : ∀ sni ctx, (sni, ctx) ∈ routes.entries → ∃ tls, ctx.tenant.tls = some tls
  labels : (group.trigger.entries.map Prod.fst).Nodup
  certificates : Mirrors (sources group.trigger.entries) routes
  acceptor : Presents group.trigger.acceptor routes

/-- A group whose copies stand for the same routes agrees on every hostname. -/
theorem Backed.agrees {group : SniGroup} {routes : KeyedMap String SniTenantContext}
    (backed : Backed group routes) : group.Agrees := by
  intro host
  obtain ⟨certs, represents, mirrors⟩ := backed.acceptor
  simp only [MultiSniCertResolver.resolve, SniDispatchTable.lookup, Option.bind_some]
  rw [HostTable.find_eq_route represents, HostTable.find_eq_route backed.dispatch]
  apply map_route
  intro sni
  cases found : routes.get? sni with
  | some ctx =>
      have member := KeyedMap.get?_eq_some_iff.mp found
      obtain ⟨tls, secured⟩ := backed.secured sni ctx member
      have pair := (mirrors sni tls).mpr ⟨ctx, member, secured⟩
      obtain ⟨⟨pattern, certified⟩, stored, same⟩ := List.mem_map.mp pair
      cases same
      rw [KeyedMap.get?_eq_some_iff.mpr stored]
      simp [secured]
  | none =>
      have absent : certs.get? sni = none := by
        rw [KeyedMap.get?_eq_none_iff]
        intro certified stored
        have pair := (mirrors sni certified.files).mp
          (List.mem_map.mpr ⟨(sni, certified), stored, rfl⟩)
        obtain ⟨ctx, member, _⟩ := pair
        exact KeyedMap.get?_eq_none_iff.mp found ctx member
      simp [absent]

/-- Loading an entry keeps its hostname and remembers its files. -/
theorem certifyEntry_spec {disk : Disk} {entry : SniEntry} {cert : SniTenantCert}
    (certified : certifyEntry disk entry = .ok cert) :
    cert.sni = entry.1 ∧ cert.certified.files = entry.2.2 := by
  obtain ⟨sni, tenantName, cfg⟩ := entry
  simp only [certifyEntry] at certified
  obtain ⟨chain, _, certified⟩ := bind_eq_ok.mp certified
  obtain ⟨_, _, certified⟩ := bind_eq_ok.mp certified
  obtain ⟨key, _, certified⟩ := bind_eq_ok.mp certified
  obtain ⟨signingKey, _, certified⟩ := bind_eq_ok.mp certified
  cases certified
  exact ⟨rfl, rfl⟩

/-- A rebuilt acceptor presents the certificate set it was built from. -/
theorem buildMultiSniAcceptor_spec {disk : Disk} {entries : List SniEntry}
    {acceptor : MultiSniCertResolver} {routes : KeyedMap String SniTenantContext}
    (mirrors : Mirrors (sources entries) routes)
    (built : buildMultiSniAcceptor disk entries = .ok acceptor) :
    (entries.map Prod.fst).Nodup ∧ Presents acceptor routes := by
  obtain ⟨certified, loaded, built⟩ := bind_eq_ok.mp built
  obtain ⟨nodup, certs, represents, members⟩ := MultiSniCertResolver.new_spec built
  have hostnames : certified.map SniTenantCert.sni = entries.map Prod.fst :=
    map_of_mapM_eq_ok (fun one => (certifyEntry_spec one).1) loaded
  have pairs : certified.map (fun cert => (cert.sni, cert.certified.files)) = sources entries :=
    map_of_mapM_eq_ok (fun one => by simp [certifyEntry_spec one]) loaded
  refine ⟨hostnames ▸ nodup, certs, represents, ?_⟩
  intro sni tls
  rw [← mirrors sni tls, ← pairs]
  simp only [List.mem_map, Prod.exists, members, Prod.mk.injEq]
  constructor
  · rintro ⟨_, _, ⟨cert, member, rfl, rfl⟩, rfl, rfl⟩
    exact ⟨cert, member, rfl, rfl⟩
  · rintro ⟨cert, member, rfl, rfl⟩
    exact ⟨_, _, ⟨cert, member, rfl, rfl⟩, rfl, rfl⟩

/-- Copies that list the same members stand for the same routes. -/
theorem backed_of_members {disk : Disk} (members : List (SniEntry × SniTenantContext))
    {label : String} {trigger : TlsReloadTrigger} {dispatch : SniDispatchTable}
    (paired : ∀ {entry ctx}, (entry, ctx) ∈ members →
      ctx.tenant.sni = some entry.1 ∧ ctx.tenant.tls = some entry.2.2)
    (certified : buildReloadableMultiSniAcceptor disk (members.map Prod.fst) label = .ok trigger)
    (dispatched : SniDispatchTable.new (members.map Prod.snd) = .ok dispatch) :
    ∃ routes, Backed { trigger, dispatch } routes ∧
      ∀ ctx ∈ dispatch.contexts, ctx ∈ members.map Prod.snd := by
  obtain ⟨routes, represents, _, contexts⟩ := SniDispatchTable.new_spec dispatched
  have routed : ∀ sni ctx, (sni, ctx) ∈ routes.entries ↔
      ∃ entry, (entry, ctx) ∈ members ∧ entry.1 = sni := by
    intro sni ctx
    rw [contexts]
    constructor
    · rintro ⟨_, listed, pair⟩
      obtain ⟨⟨entry, context⟩, member, rfl⟩ := List.mem_map.mp listed
      simp only [SniDispatchTable.pairOf, (paired member).1, Option.map_some,
        Option.some.injEq, Prod.mk.injEq] at pair
      obtain ⟨rfl, rfl⟩ := pair
      exact ⟨entry, member, rfl⟩
    · rintro ⟨entry, member, rfl⟩
      refine ⟨ctx, List.mem_map.mpr ⟨_, member, rfl⟩, ?_⟩
      simp [SniDispatchTable.pairOf, (paired member).1]
  obtain ⟨acceptor, built, certified⟩ := bind_eq_ok.mp certified
  cases certified
  have mirrors : Mirrors (sources (members.map Prod.fst)) routes := by
    intro sni tls
    simp only [sources, List.map_map, List.mem_map, Function.comp_apply, Prod.mk.injEq]
    constructor
    · rintro ⟨⟨entry, ctx⟩, member, rfl, rfl⟩
      exact ⟨ctx, (routed _ _).mpr ⟨entry, member, rfl⟩, (paired member).2⟩
    · rintro ⟨ctx, routedTo, secured⟩
      obtain ⟨entry, member, rfl⟩ := (routed _ _).mp routedTo
      refine ⟨(entry, ctx), member, rfl, ?_⟩
      exact Option.some.inj ((paired member).2.symm.trans secured)
  obtain ⟨labels, presents⟩ := buildMultiSniAcceptor_spec mirrors built
  refine ⟨routes, ⟨represents, ?_, ?_, labels, mirrors, presents⟩, ?_⟩
  · intro sni ctx routedTo
    obtain ⟨entry, member, rfl⟩ := (routed _ _).mp routedTo
    exact (paired member).1
  · intro sni ctx routedTo
    obtain ⟨entry, member, rfl⟩ := (routed _ _).mp routedTo
    exact ⟨_, (paired member).2⟩
  · intro ctx member
    obtain ⟨sni, route⟩ := (SniDispatchTable.mem_contexts represents).mp member
    obtain ⟨entry, member, _⟩ := (routed _ _).mp route
    exact List.mem_map.mpr ⟨_, member, rfl⟩

namespace Backed

variable {group : SniGroup} {routes : KeyedMap String SniTenantContext}

/-- Reloading keeps the routes. -/
theorem reload (backed : Backed group routes) (disk : Disk) :
    Backed { group with trigger := (group.trigger.reload disk).1 } routes := by
  cases reloaded : group.trigger.reload disk with
  | mk next outcome =>
      cases outcome with
      | error message =>
          rw [TlsReloadTrigger.kept_of_reload reloaded]
          exact backed
      | ok previous =>
          obtain ⟨entries, built⟩ := TlsReloadTrigger.built_of_reload reloaded
          refine ⟨backed.dispatch, backed.keyed, backed.secured, ?_, ?_,
            (buildMultiSniAcceptor_spec backed.certificates built).2⟩
          · simpa only [entries] using backed.labels
          · simpa only [entries] using backed.certificates

/-- A tenant that joins under its own name as hostname joins both copies, or
none. -/
theorem join (backed : Backed group routes) (disk : Disk) (cfg : Config) (triggerFound : Bool)
    {t : TenantConfig} {tls : TlsConfig} (hostname : t.sni = some t.name)
    (secure : t.tls = some tls) :
    ∃ next arrival, Backed (group.apply (joinGroup (·.addSniEntry disk t.name t.name tls)
        (group.stored triggerFound) cfg t group.dispatch)) next ∧
      (∀ ctx ∈ arrival, ctx.tenant.name = t.name) ∧
      ∀ sni ctx, (sni, ctx) ∈ next.entries → (sni, ctx) ∈ routes.entries ∨
        arrival = some ctx := by
  have unchanged : ∃ next arrival, Backed group next ∧
      (∀ ctx ∈ arrival, ctx.tenant.name = t.name) ∧
      ∀ sni ctx, (sni, ctx) ∈ next.entries → (sni, ctx) ∈ routes.entries ∨
        arrival = some ctx :=
    ⟨routes, none, backed, by simp, fun _ _ member => .inl member⟩
  cases ended : joinGroup (·.addSniEntry disk t.name t.name tls) (group.stored triggerFound) cfg t
    group.dispatch with
  | refused => exact unchanged
  | rolledBack kept =>
      obtain ⟨found, message, located, refused⟩ := joinGroup_rolledBack ended
      obtain rfl := SniGroup.eq_of_stored located
      obtain rfl := TlsReloadTrigger.addSniEntry_error refused
      exact unchanged
  | replaced trigger dispatch =>
      obtain ⟨resolved, found, previous, resolution, added, located, mutated⟩ :=
        joinGroup_replaced.mp ended
      obtain rfl := SniGroup.eq_of_stored located
      obtain ⟨apart, entries, built⟩ := TlsReloadTrigger.addSniEntry_ok mutated
      obtain ⟨name, _, resolvedSni, resolvedTls⟩ := Config.resolveOneServeTcp_spec resolution
      obtain ⟨sni, ctx, pair, fresh, represents⟩ :=
        SniDispatchTable.addContext_spec backed.dispatch added
      simp only [SniDispatchTable.pairOf, resolvedSni, hostname, Option.map_some,
        Option.some.injEq, Prod.mk.injEq] at pair
      obtain ⟨rfl, rfl⟩ := pair
      have mirrors : Mirrors (sources trigger.entries)
          (routes.insert t.name { tenant := resolved }) := by
        intro sni files
        simp only [entries, sources, List.map_append, List.map_cons, List.map_nil, List.mem_append,
          List.mem_singleton, Represents.mem_insert_fresh fresh]
        have earlier := backed.certificates sni files
        simp only [sources] at earlier
        rw [earlier]
        constructor
        · rintro (⟨ctx, member, secured⟩ | same)
          · exact ⟨ctx, .inr member, secured⟩
          · cases same
            exact ⟨_, .inl rfl, resolvedTls.trans secure⟩
        · rintro ⟨ctx, same | member, secured⟩
          · cases same
            rw [resolvedTls.trans secure] at secured
            cases secured
            exact .inr rfl
          · exact .inl ⟨ctx, member, secured⟩
      obtain ⟨labels, presents⟩ := buildMultiSniAcceptor_spec mirrors built
      refine ⟨_, some { tenant := resolved },
        ⟨represents, ?_, ?_, labels, mirrors, presents⟩, by simpa using name, ?_⟩
      · intro sni ctx member
        rcases (Represents.mem_insert_fresh fresh _).mp member with same | member
        · cases same
          exact resolvedSni.trans hostname
        · exact backed.keyed sni ctx member
      · intro sni ctx member
        rcases (Represents.mem_insert_fresh fresh _).mp member with same | member
        · cases same
          exact ⟨tls, resolvedTls.trans secure⟩
        · exact backed.secured sni ctx member
      · intro sni ctx member
        rcases (Represents.mem_insert_fresh fresh _).mp member with same | member
        · cases same
          exact .inr rfl
        · exact .inl member

/-- A tenant leaves both copies, given that its name is no other tenant's hostname: the
routes of the other tenants are left. -/
theorem remove (backed : Backed group routes) {name : String} {dispatch : SniDispatchTable}
    {disk : Disk} {trigger : TlsReloadTrigger} {previous : MultiSniCertResolver}
    (unique : ∀ {sni other ctx next}, (sni, ctx) ∈ routes.entries →
      (other, next) ∈ routes.entries → ctx.tenant.name = next.tenant.name → ctx = next)
    (settled : ∀ ctx, (name, ctx) ∈ routes.entries → ctx.tenant.name = name)
    (removed : group.dispatch.withTenantRemoved name = some dispatch)
    (mutated : group.trigger.removeSniEntry disk name = (trigger, .ok previous)) :
    Backed { trigger, dispatch } (routes.retain fun _ ctx => ctx.tenant.name ≠ name) := by
  obtain ⟨⟨entry, member, rfl⟩, entries, built⟩ :=
    TlsReloadTrigger.removeSniEntry_ok mutated
  rw [TlsReloadTrigger.eraseP_label backed.labels] at entries
  obtain ⟨leaving, leavingMember, _⟩ := (backed.certificates entry.1 entry.2.2).mp
    (List.mem_map.mpr ⟨entry, member, rfl⟩)
  -- The hostname of the removed entry belongs to the tenant of that name.
  have sameTenant : ∀ sni ctx, (sni, ctx) ∈ routes.entries →
      (sni ≠ entry.1 ↔ ctx.tenant.name ≠ entry.1) := by
    intro sni ctx route
    constructor
    · intro different named
      have equal := unique route leavingMember (named.trans (settled leaving leavingMember).symm)
      subst equal
      have keys := (backed.keyed _ _ route).symm.trans (backed.keyed _ _ leavingMember)
      exact different (Option.some.inj keys)
    · rintro different rfl
      exact different (settled ctx route)
  have mirrors : Mirrors (sources trigger.entries)
      (routes.retain fun _ ctx => ctx.tenant.name ≠ entry.1) := by
    intro sni tls
    have earlier := backed.certificates sni tls
    simp only [sources, List.mem_map, Prod.mk.injEq] at earlier
    simp only [entries, sources, List.mem_map, List.mem_filter, Prod.mk.injEq, KeyedMap.mem_retain,
      decide_eq_true_eq]
    constructor
    · rintro ⟨kept, ⟨keptMember, different⟩, rfl, rfl⟩
      obtain ⟨ctx, route, secured⟩ := earlier.mp ⟨kept, keptMember, rfl, rfl⟩
      exact ⟨ctx, ⟨route, (sameTenant _ _ route).mp different⟩, secured⟩
    · rintro ⟨ctx, ⟨route, different⟩, secured⟩
      obtain ⟨kept, keptMember, rfl, rfl⟩ := earlier.mpr ⟨ctx, route, secured⟩
      exact ⟨kept, ⟨keptMember, (sameTenant _ _ route).mpr different⟩, rfl, rfl⟩
  obtain ⟨labels, presents⟩ := buildMultiSniAcceptor_spec mirrors built
  refine ⟨SniDispatchTable.withTenantRemoved_spec backed.dispatch removed,
    ?_, ?_, labels, mirrors, presents⟩
  · exact fun sni ctx member => backed.keyed sni ctx (KeyedMap.mem_retain.mp member).1
  · exact fun sni ctx member => backed.secured sni ctx (KeyedMap.mem_retain.mp member).1

/-- The order of the certificate set does not matter. -/
theorem reorder (backed : Backed group routes) {trigger : TlsReloadTrigger}
    (perm : trigger.entries.Perm group.trigger.entries)
    (acceptor : trigger.acceptor = group.trigger.acceptor) :
    Backed { group with trigger } routes := by
  refine ⟨backed.dispatch, backed.keyed, backed.secured, ?_, ?_, ?_⟩
  · exact (perm.map Prod.fst).nodup_iff.mpr backed.labels
  · intro sni tls
    rw [← backed.certificates sni tls]
    exact (perm.map fun entry => (entry.1, entry.2.2)).mem_iff
  · simpa only [acceptor] using backed.acceptor

end Backed

namespace Listeners

/-- A group of the daemon answers with a context. -/
def Serves (listeners : Listeners) (listen : String) (ctx : SniTenantContext) : Prop :=
  ∃ group, (listen, group) ∈ listeners.groups.entries ∧ ctx ∈ group.dispatch.contexts

/-- Every group is backed by routes, and every context belongs to a registered
tenant that no other context belongs to. -/
structure Consistent (listeners : Listeners) : Prop where
  backed : ∀ listen group, (listen, group) ∈ listeners.groups.entries →
    ∃ routes, Backed group routes
  registered : ∀ listen ctx, listeners.Serves listen ctx →
    ctx.tenant.name ∈ listeners.tenantNames
  single : ∀ {listen other ctx next}, listeners.Serves listen ctx →
    listeners.Serves other next →
    ctx.tenant.name = next.tenant.name → listen = other ∧ ctx = next

/-- The contexts served after a group was installed. -/
theorem serves_insert {names : List String} {groups : KeyedMap String SniGroup} {listen : String}
    {group : SniGroup} {other : String} {ctx : SniTenantContext} :
    Serves { tenantNames := names, groups := groups.insert listen group } other ctx ↔
      (other = listen ∧ ctx ∈ group.dispatch.contexts) ∨
        (other ≠ listen ∧ Serves { tenantNames := names, groups } other ctx) := by
  simp only [Serves, KeyedMap.mem_insert, Prod.mk.injEq]
  constructor
  · rintro ⟨found, (⟨rfl, rfl⟩ | ⟨member, different⟩), answers⟩
    · exact .inl ⟨rfl, answers⟩
    · exact .inr ⟨different, found, member, answers⟩
  · rintro (⟨rfl, answers⟩ | ⟨different, found, member, answers⟩)
    · exact ⟨group, .inl ⟨rfl, rfl⟩, answers⟩
    · exact ⟨found, .inr ⟨member, different⟩, answers⟩

/-- Installing a group keeps consistency if it answers with what the old one
answered with and at most one context of a new tenant. -/
theorem Consistent.install {listeners : Listeners} (consistent : listeners.Consistent)
    {names : List String} {listen : String} {group : SniGroup} (arrival : Option SniTenantContext)
    (backed : ∃ routes, Backed group routes)
    (fresh : ∀ ctx ∈ arrival, ctx.tenant.name ∉ listeners.tenantNames)
    (answers : ∀ ctx ∈ group.dispatch.contexts, listeners.Serves listen ctx ∨
      arrival = some ctx)
    (registered : ∀ other ctx,
      Serves { tenantNames := names, groups := listeners.groups.insert listen group } other ctx →
        ctx.tenant.name ∈ names) :
    Consistent { tenantNames := names, groups := listeners.groups.insert listen group } := by
  have origin : ∀ {other ctx},
      Serves { tenantNames := names, groups := listeners.groups.insert listen group } other ctx →
        listeners.Serves other ctx ∨ (other = listen ∧ arrival = some ctx) := by
    intro other ctx serves
    rcases serves_insert.mp serves with ⟨rfl, member⟩ | ⟨_, old⟩
    · exact (answers ctx member).imp_right fun arrived => ⟨rfl, arrived⟩
    · exact .inl old
  refine ⟨?_, registered, ?_⟩
  · intro other found member
    rcases KeyedMap.mem_insert.mp member with same | ⟨old, _⟩
    · cases same
      exact backed
    · exact consistent.backed other found old
  · intro first second ctx next serves alsoServes sameName
    rcases origin serves with old | ⟨rfl, arrived⟩ <;>
      rcases origin alsoServes with alsoOld | ⟨rfl, alsoArrived⟩
    · exact consistent.single old alsoOld sameName
    · have known := consistent.registered _ _ old
      exact absurd (sameName ▸ known) (fresh next alsoArrived)
    · have known := consistent.registered _ _ alsoOld
      exact absurd (sameName.symm ▸ known) (fresh ctx arrived)
    · exact ⟨rfl, Option.some.inj (arrived.symm.trans alsoArrived)⟩

/-- Changing the registered names keeps consistency if the served tenants stay
registered. -/
theorem Consistent.rename {listeners : Listeners} (consistent : listeners.Consistent)
    {names : List String}
    (registered : ∀ listen ctx, listeners.Serves listen ctx → ctx.tenant.name ∈ names) :
    Consistent { listeners with tenantNames := names } :=
  ⟨consistent.backed, registered, consistent.single⟩

end Listeners

/-- A step does not depend on the order of a certificate entry: a tenant joins a
running group under a hostname that is its name, and a removed tenant's name is
no other hostname of its group. -/
def SettledLabels (listeners : Listeners) : ListenerLabel → Prop
  | .add _ _ _ t =>
      (listeners.groups.get? t.listen).isSome → ∀ sni, t.sni = some sni → sni = t.name
  | .remove _ _ _ name =>
      ∀ listen group, (listen, group) ∈ listeners.groups.entries →
        name ∈ group.dispatch.tenantNames →
          ∀ ctx ∈ group.dispatch.contexts, ctx.tenant.sni = some name → ctx.tenant.name = name
  | .reload _ _ => True

/-- A new group is backed by the route of its first tenant. -/
theorem newGroup_backed {disk : Disk} {cfg : Config} {t : TenantConfig} {sni : String}
    {tls : TlsConfig} {group : SniGroup} (hostname : t.sni = some sni) (secure : t.tls = some tls)
    (built : newGroup disk cfg t sni tls = some group) :
    ∃ routes arrival, Backed group routes ∧ arrival.tenant.name = t.name ∧
      ∀ ctx ∈ group.dispatch.contexts, arrival = ctx := by
  simp only [newGroup] at built
  split at built
  · cases built
  · rename_i resolved resolution
    obtain ⟨name, _, resolvedSni, resolvedTls⟩ := Config.resolveOneServeTcp_spec resolution
    split at built
    · cases built
    · rename_i trigger certified
      split at built
      · cases built
      · rename_i dispatch dispatched
        cases built
        obtain ⟨routes, backed, contexts⟩ := backed_of_members
          [((sni, t.name, tls), { tenant := resolved })]
          (by
            intro entry ctx member
            cases List.mem_singleton.mp member
            exact ⟨resolvedSni.trans hostname, resolvedTls.trans secure⟩)
          certified dispatched
        refine ⟨routes, { tenant := resolved }, backed, name, ?_⟩
        intro ctx member
        exact (List.mem_singleton.mp (contexts ctx member)).symm

/-- A tenant that joins under its own name keeps the groups consistent. -/
theorem addTenant_consistent {disk : Disk} {cfg : Config} {triggerFound : Bool}
    {listeners : Listeners} {t : TenantConfig} (consistent : listeners.Consistent)
    (unregistered : t.name ∉ listeners.tenantNames)
    (settled : (listeners.groups.get? t.listen).isSome → ∀ sni, t.sni = some sni →
      sni = t.name) :
    (addTenant disk cfg triggerFound listeners t).Consistent := by
  have known : ∀ listen ctx, listeners.Serves listen ctx →
      ctx.tenant.name ∈ t.name :: listeners.tenantNames :=
    fun listen ctx serves => List.mem_cons_of_mem _ (consistent.registered listen ctx serves)
  simp only [addTenant]
  split
  · rename_i sni tls placed
    obtain ⟨_, hostname, secure, _⟩ := placement_newGroup.mp placed
    split
    · exact consistent.rename known
    · rename_i group built
      obtain ⟨routes, arrival, backed, name, only⟩ := newGroup_backed hostname secure built
      refine consistent.install (some arrival) ⟨routes, backed⟩ ?_ ?_ ?_
      · simpa [name] using unregistered
      · exact fun ctx member => .inr (by rw [only ctx member])
      · intro other ctx serves
        rcases Listeners.serves_insert.mp serves with ⟨_, member⟩ | ⟨_, old⟩
        · rw [← only ctx member, name]
          exact List.mem_cons_self
        · exact known other ctx old
  · rename_i sni tls group placed
    obtain ⟨_, hostname, secure, found⟩ := placement_member.mp placed
    obtain rfl := settled (by simp [found]) sni hostname
    have member := KeyedMap.get?_eq_some_iff.mp found
    obtain ⟨routes, backed⟩ := consistent.backed _ _ member
    obtain ⟨next, arrival, joined, names, origin⟩ :=
      backed.join disk cfg triggerFound hostname secure
    have answers : ∀ ctx ∈ (group.apply (joinGroup (·.addSniEntry disk t.name t.name tls)
        (group.stored triggerFound) cfg t group.dispatch)).dispatch.contexts,
        listeners.Serves t.listen ctx ∨ arrival = some ctx := by
      intro ctx answered
      obtain ⟨sni, route⟩ := (SniDispatchTable.mem_contexts joined.dispatch).mp answered
      rcases origin sni ctx route with old | arrived
      · exact .inl ⟨group, member,
          (SniDispatchTable.mem_contexts backed.dispatch).mpr ⟨sni, old⟩⟩
      · exact .inr arrived
    refine consistent.install arrival ⟨next, joined⟩ ?_ answers ?_
    · intro ctx arrived
      rw [names ctx arrived]
      exact unregistered
    · intro other ctx serves
      rcases Listeners.serves_insert.mp serves with ⟨rfl, answered⟩ | ⟨_, old⟩
      · rcases answers ctx answered with old | arrived
        · exact known _ ctx old
        · rw [names ctx arrived]
          exact List.mem_cons_self
      · exact known other ctx old
  · exact consistent.rename known

/-- Removing a tenant whose name is no other hostname of its group keeps the
groups consistent. -/
theorem removeTenant_consistent {disk : Disk} {triggerFound drained : Bool} {listeners : Listeners}
    {name : String} (consistent : listeners.Consistent)
    (settled : ∀ listen group, (listen, group) ∈ listeners.groups.entries →
      name ∈ group.dispatch.tenantNames →
        ∀ ctx ∈ group.dispatch.contexts, ctx.tenant.sni = some name →
          ctx.tenant.name = name) :
    (removeTenant disk triggerFound drained listeners name).Consistent := by
  simp only [removeTenant]
  split
  · rename_i listen group target
    obtain ⟨member, named⟩ := sniTarget_eq_some target
    obtain ⟨routes, backed⟩ := consistent.backed _ _ member
    have serves : ∀ {sni ctx}, (sni, ctx) ∈ routes.entries → listeners.Serves listen ctx :=
      fun route =>
        ⟨group, member, (SniDispatchTable.mem_contexts backed.dispatch).mpr ⟨_, route⟩⟩
    split
    · exact consistent
    · exact consistent
    · rename_i trigger ended
      obtain ⟨_, _, ended⟩ := Option.map_eq_some_iff.mp ended
      obtain ⟨found, message, located, refused⟩ := changeGroup_rolledBack.mp ended
      obtain rfl := SniGroup.eq_of_stored located
      obtain ⟨perm, acceptor⟩ := TlsReloadTrigger.removeSniEntry_error refused
      refine consistent.install none ⟨routes, backed.reorder perm acceptor⟩ (by simp) ?_ ?_
      · exact fun ctx answered => .inl ⟨group, member, answered⟩
      · intro other ctx served
        rcases Listeners.serves_insert.mp served with ⟨rfl, answered⟩ | ⟨_, old⟩
        · exact consistent.registered _ ctx ⟨group, member, answered⟩
        · exact consistent.registered other ctx old
    · rename_i trigger _ ended
      obtain ⟨dispatch, removed, ended⟩ := Option.map_eq_some_iff.mp ended
      obtain ⟨rfl, found, previous, located, mutated⟩ := changeGroup_replaced.mp ended
      obtain rfl := SniGroup.eq_of_stored located
      have left := backed.remove
        (fun route other same => (consistent.single (serves route) (serves other) same).2)
        (fun ctx route => settled listen group member named ctx
          ((SniDispatchTable.mem_contexts backed.dispatch).mpr ⟨_, route⟩)
          (backed.keyed _ _ route)) removed mutated
      have remaining : ∀ ctx ∈ dispatch.contexts,
          listeners.Serves listen ctx ∧ ctx.tenant.name ≠ name := by
        intro ctx answered
        obtain ⟨sni, route⟩ := (SniDispatchTable.mem_contexts left.dispatch).mp answered
        have both := KeyedMap.mem_retain.mp route
        exact ⟨serves both.1, by simpa using both.2⟩
      -- No other group serves a tenant of this name.
      have elsewhere : ∀ {other ctx}, other ≠ listen → listeners.Serves other ctx →
          ctx.tenant.name ≠ name := by
        intro other ctx different served same
        obtain ⟨leaving, answered, leavingName⟩ := List.mem_map.mp named
        have located := consistent.single served ⟨group, member, answered⟩
          (same.trans leavingName.symm)
        exact different located.1
      have stays : ∀ {other ctx}, listeners.Serves other ctx → ctx.tenant.name ≠ name →
          ctx.tenant.name ∈ listeners.unregister name := by
        intro other ctx served different
        rw [Listeners.unregister, List.mem_filter]
        exact ⟨consistent.registered _ _ served, by simpa using different⟩
      split
      · refine ⟨?_, ?_, ?_⟩
        · exact fun other found member =>
            consistent.backed other found (KeyedMap.mem_retain.mp member).1
        · rintro other ctx ⟨found, member, answered⟩
          obtain ⟨old, different⟩ := KeyedMap.mem_retain.mp member
          have served : listeners.Serves other ctx := ⟨found, old, answered⟩
          exact stays served (elsewhere (by simpa using different) served)
        · rintro first second ctx next ⟨found, member, answered⟩
            ⟨other, alsoMember, also⟩ same
          exact consistent.single ⟨found, (KeyedMap.mem_retain.mp member).1, answered⟩
            ⟨other, (KeyedMap.mem_retain.mp alsoMember).1, also⟩ same
      · refine consistent.install none ⟨_, left⟩ (by simp) ?_ ?_
        · exact fun ctx answered => .inl (remaining ctx answered).1
        · intro other ctx served
          rcases Listeners.serves_insert.mp served with ⟨rfl, answered⟩ | ⟨different, old⟩
          · exact stays (remaining ctx answered).1 (remaining ctx answered).2
          · exact stays old (elsewhere different old)
  · rename_i absent
    split
    · refine consistent.rename ?_
      rintro listen ctx ⟨group, member, answered⟩
      rw [Listeners.unregister, List.mem_filter]
      refine ⟨consistent.registered listen ctx ⟨group, member, answered⟩, ?_⟩
      have different : ctx.tenant.name ≠ name := by
        rintro rfl
        exact sniTarget_eq_none absent member (List.mem_map.mpr ⟨ctx, answered, rfl⟩)
      simpa using different
    · exact consistent

/-- Reloading a group keeps the groups consistent. -/
theorem reloadGroup_consistent {disk : Disk} {listeners : Listeners} {listen : String}
    (consistent : listeners.Consistent) : (reloadGroup disk listeners listen).Consistent := by
  simp only [reloadGroup]
  split
  · exact consistent
  · rename_i group found
    have member := KeyedMap.get?_eq_some_iff.mp found
    obtain ⟨routes, backed⟩ := consistent.backed _ _ member
    refine consistent.install none ⟨routes, backed.reload disk⟩ (by simp) ?_ ?_
    · exact fun ctx answered => .inl ⟨group, member, answered⟩
    · intro other ctx served
      rcases Listeners.serves_insert.mp served with ⟨rfl, answered⟩ | ⟨_, old⟩
      · exact consistent.registered _ ctx ⟨group, member, answered⟩
      · exact consistent.registered other ctx old

/-- The step lemma: a step with settled labels keeps the groups consistent. -/
theorem listenerStep_consistent {listeners next : Listeners} {label : ListenerLabel}
    (consistent : listeners.Consistent) (settled : SettledLabels listeners label)
    (moved : listenerStep listeners label = some next) : next.Consistent := by
  cases label with
  | add disk cfg triggerFound t =>
      simp only [listenerStep] at moved
      split at moved
      · rename_i accepted
        cases moved
        exact addTenant_consistent consistent accepted.2.2 settled
      · cases moved
  | remove disk triggerFound drained name =>
      cases moved
      exact removeTenant_consistent consistent settled
  | reload disk listen =>
      cases moved
      exact reloadGroup_consistent consistent

/-- A startup group is backed by the routes of its members. -/
theorem startupGroup_backed {disk : Disk} {group : TlsListenerGroup} {built : SniGroup}
    (started : startupGroup disk group = .ok built) :
    (∃ routes, Backed built routes) ∧ ∀ ctx ∈ built.dispatch.contexts,
    ctx.tenant ∈ group.tenants := by
  obtain ⟨members, listed, started⟩ := bind_eq_ok.mp started
  obtain ⟨trigger, certified, started⟩ := bind_eq_ok.mp started
  obtain ⟨dispatch, dispatched, started⟩ := bind_eq_ok.mp started
  cases started
  have origin : ∀ {entry ctx}, (entry, ctx) ∈ members →
      ctx.tenant ∈ group.tenants ∧ ctx.tenant.sni = some entry.1 ∧
        ctx.tenant.tls = some entry.2.2 := by
    intro entry ctx member
    obtain ⟨t, tenant, converted⟩ := exists_of_mem_mapM_eq_ok listed member
    simp only [startupMember] at converted
    split at converted
    · cases converted
    · rename_i sni hostname
      split at converted
      · cases converted
      · rename_i tls secure
        cases converted
        exact ⟨tenant, hostname, secure⟩
  obtain ⟨routes, backed, contexts⟩ :=
    backed_of_members members (fun member => (origin member).2)
    (withContext_eq_ok.mp certified) (withContext_eq_ok.mp dispatched)
  refine ⟨⟨routes, backed⟩, ?_⟩
  intro ctx answered
  obtain ⟨⟨entry, same⟩, member, rfl⟩ := List.mem_map.mp (contexts ctx answered)
  exact (origin member).1

/-- Startup backs every group and serves each resolved tenant at its own
address. -/
theorem startupGroups_backed {disk : Disk} {flat : List ServeTcpTenant}
    {pending : List TlsListenerGroup} {groups result : KeyedMap String SniGroup}
    (members : ∀ group ∈ pending, ∀ t ∈ group.tenants, t ∈ flat ∧
      t.listen = group.listen)
    (earlier : ∀ listen group, (listen, group) ∈ groups.entries →
      (∃ routes, Backed group routes) ∧
      ∀ ctx ∈ group.dispatch.contexts, ctx.tenant ∈ flat ∧ ctx.tenant.listen = listen)
    (started : startupGroups disk groups pending = .ok result) :
    ∀ listen group, (listen, group) ∈ result.entries → (∃ routes, Backed group routes) ∧
      ∀ ctx ∈ group.dispatch.contexts, ctx.tenant ∈ flat ∧ ctx.tenant.listen = listen := by
  induction pending generalizing groups with
  | nil =>
      cases started
      exact earlier
  | cons group rest inductionHypothesis =>
      have later : ∀ group ∈ rest, ∀ t ∈ group.tenants, t ∈ flat ∧
          t.listen = group.listen :=
        fun other member => members other (List.mem_cons_of_mem _ member)
      simp only [startupGroups] at started
      split at started
      · obtain ⟨built, groupStarted, started⟩ := bind_eq_ok.mp started
        obtain ⟨backed, contexts⟩ := startupGroup_backed groupStarted
        refine inductionHypothesis later ?_ started
        intro listen found member
        rcases KeyedMap.mem_insert.mp member with same | ⟨old, _⟩
        · cases same
          exact ⟨backed, fun ctx answered =>
            members group List.mem_cons_self ctx.tenant (contexts ctx answered)⟩
        · exact earlier listen found old
      · exact inductionHypothesis later earlier started

/-- The daemon starts with consistent groups. -/
theorem startup_consistent {disk : Disk} {cfg : Config} {listeners : Listeners}
    (started : startup disk cfg = .ok listeners) : listeners.Consistent := by
  simp only [startup] at started
  split at started
  · cases started
  · rename_i valid
    split at started
    · cases started
      exact ⟨by simp [KeyedMap.empty], by simp [Listeners.Serves, KeyedMap.empty],
        by simp [Listeners.Serves, KeyedMap.empty]⟩
    · split at started
      · cases started
      · rename_i listenerGroups resolved
        obtain ⟨groups, grouped, started⟩ := bind_eq_ok.mp started
        cases started
        obtain ⟨flat, flattened, members⟩ := Config.resolveServeTcpGroups_spec resolved
        have served := startupGroups_backed members (by simp [KeyedMap.empty]) grouped
        have names := Config.resolveServeTcp_names flattened
        have distinct : (flat.map ServeTcpTenant.name).Nodup := by
          rw [names]
          exact Config.validate_names_nodup valid
        refine ⟨fun listen group member => (served listen group member).1, ?_, ?_⟩
        · rintro listen ctx ⟨group, member, answered⟩
          rw [← names]
          exact List.mem_map.mpr ⟨ctx.tenant,
            ((served listen group member).2 ctx answered).1, rfl⟩
        · rintro listen other ctx next ⟨group, member, answered⟩
            ⟨found, alsoMember, also⟩ sameName
          obtain ⟨flatMember, address⟩ := (served listen group member).2 ctx answered
          obtain ⟨alsoFlat, alsoAddress⟩ := (served other found alsoMember).2 next also
          have sameTenant := List.inj_on_of_nodup_map distinct flatMember alsoFlat sameName
          refine ⟨?_, ?_⟩
          · rw [← address, ← alsoAddress, sameTenant]
          · cases ctx
            cases next
            exact congrArg SniTenantContext.mk sameTenant

/-- In every run of the daemon whose steps have settled labels, the acceptor of
every SNI group presents, for every hostname, the certificate of exactly the
tenant that the group's dispatch table answers with. -/
theorem sniGroup_agrees_of_settled {listeners : Listeners} {listen : String} {group : SniGroup}
    (reachable : listenerMachine.Reachable SettledLabels listeners)
    (member : (listen, group) ∈ listeners.groups.entries) : group.Agrees := by
  have consistent : listeners.Consistent := by
    refine reachable.invariant Listeners.Consistent ?_ ?_
    · rintro start ⟨disk, cfg, started⟩
      exact startup_consistent started
    · intro state label next holds settled moved
      exact listenerStep_consistent holds settled moved
  obtain ⟨routes, backed⟩ := consistent.backed listen group member
  exact backed.agrees

/-- A serve-tcp tenant of one TLS listener. -/
def sniTenant (name sni : String) : TenantConfig where
  name := name
  listen := "0.0.0.0:443"
  peerPq := some "peer:9000"
  backend := none
  peerPubDir := "peers"
  auditLog := s!"{name}.qa"
  tls := some { cert := s!"{name}.pem", key := s!"{name}.key" }
  sni := some sni
  auditSigner := some (.softkey "audit.sk" "audit.pk")
  limits := none

/-- A configuration of the given tenants. -/
def sniConfig (tenants : List TenantConfig) : Config where
  role := .serveTcp
  auditSigner := none
  tenants := tenants

/-- A disk on which every certificate and key loads. -/
def loadingDisk : Disk where
  loadCertChain path := .ok [path.toUTF8.toList]
  loadPrivateKey path := .ok path.toUTF8.toList
  anySupportedType key := .ok key

/-- The tenants of the startup configuration. -/
def startupTenants : List TenantConfig :=
  [sniTenant "alpha" "a.example", sniTenant "beta" "*.b.example"]

/-- The group of the listener after a startup and the SIGHUP ADD of a third
tenant. -/
def groupAfterJoin (joining : TenantConfig) : Option SniGroup :=
  (startup loadingDisk (sniConfig startupTenants)).toOption.bind fun started =>
    (listenerStep started
      (.add loadingDisk (sniConfig (startupTenants ++ [joining])) true joining)).bind fun next =>
        next.groups.get? "0.0.0.0:443"

/-- The run behind `groupAfterJoin`. -/
theorem reachable_groupAfterJoin {admits : Listeners → ListenerLabel → Prop}
    {joining : TenantConfig} {group : SniGroup}
    (admitted : ∀ listeners cfg, admits listeners (.add loadingDisk cfg true joining))
    (joined : groupAfterJoin joining = some group) :
    ∃ listeners, listenerMachine.Reachable admits listeners ∧
      ("0.0.0.0:443", group) ∈ listeners.groups.entries := by
  simp only [groupAfterJoin, Option.bind_eq_some_iff] at joined
  obtain ⟨started, initial, next, moved, found⟩ := joined
  have startedOk : startup loadingDisk (sniConfig startupTenants) = .ok started := by
    cases outcome : startup loadingDisk (sniConfig startupTenants) with
    | error message => simp [outcome, Except.toOption] at initial
    | ok listeners => simpa [outcome, Except.toOption] using initial
  exact ⟨next, ⟨started, _, ⟨_, _, startedOk⟩, .snoc .nil (admitted _ _) moved⟩,
    KeyedMap.get?_eq_some_iff.mp found⟩

/-- A tenant named like its hostname joins both copies of the running group. -/
theorem sniGroup_agrees_after_settled_join :
    ∃ listeners group, listenerMachine.Reachable SettledLabels listeners ∧
      ("0.0.0.0:443", group) ∈ listeners.groups.entries ∧ group.Agrees ∧
      (group.dispatch.lookup "c.example").isSome = true := by
  have evaluated : (groupAfterJoin (sniTenant "c.example" "c.example")).any
      (fun group => (group.dispatch.lookup "c.example").isSome) = true := by decide +kernel
  cases joined : groupAfterJoin (sniTenant "c.example" "c.example") with
  | none => simp [joined] at evaluated
  | some group =>
      rw [joined] at evaluated
      have settled : ∀ listeners cfg, SettledLabels listeners
          (.add loadingDisk cfg true (sniTenant "c.example" "c.example")) :=
        fun _ _ _ _ hostname => (Option.some.inj hostname).symm
      obtain ⟨listeners, reachable, member⟩ := reachable_groupAfterJoin settled joined
      exact ⟨listeners, group, reachable, member,
        sniGroup_agrees_of_settled reachable member, evaluated⟩

/-- A tenant whose name is not its hostname is dispatched to after joining a
running group, and no certificate is presented for it. -/
theorem sniGroup_disagrees_after_join :
    ¬ ∀ listeners listen group, listenerMachine.Reachable listenerMachine.Free listeners →
      (listen, group) ∈ listeners.groups.entries → group.Agrees := by
  have evaluated : (groupAfterJoin (sniTenant "gamma" "c.example")).any
      (fun group => (group.dispatch.lookup "c.example").isSome &&
        (group.trigger.acceptor.resolve (some "c.example")).isNone) = true := by decide +kernel
  intro agrees
  cases joined : groupAfterJoin (sniTenant "gamma" "c.example") with
  | none => simp [joined] at evaluated
  | some group =>
      rw [joined, Option.any_some, Bool.and_eq_true, Option.isNone_iff_eq_none,
        Option.isSome_iff_exists] at evaluated
      obtain ⟨⟨ctx, answered⟩, unpresented⟩ := evaluated
      obtain ⟨listeners, reachable, member⟩ :
          ∃ listeners, listenerMachine.Reachable listenerMachine.Free listeners ∧
            ("0.0.0.0:443", group) ∈ listeners.groups.entries :=
        reachable_groupAfterJoin (fun _ _ => trivial) joined
      have same := agrees listeners _ group reachable member "c.example"
      simp [answered, unpresented] at same

end CofreSoberano.Gateway

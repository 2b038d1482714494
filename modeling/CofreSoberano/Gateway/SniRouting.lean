import CofreSoberano.Gateway.CertificateSet

/-!
# What a set of hostname patterns routes

A `RouteSet` is a list of tenants with distinct names and distinct patterns of the
shape that validation accepts. `RouteSet.answer` is what it is for: the tenant of
the exact pattern, otherwise that of the covering wildcard. A dispatch table keeps
to it however it came by its tenants, and so does a certificate resolver built from
the tenants in any order.
-/

namespace CofreSoberano.Gateway

open CofreSoberano.Std

/-- Tenants with distinct names and distinct patterns, each of an accepted shape. -/
structure RouteSet where
  contexts : List SniTenantContext
  shapes : ∀ ctx ∈ contexts, ∃ sni, ctx.tenant.sni = some sni ∧ acceptsPattern sni = true
  patterns : (contexts.map (·.tenant.sni)).Nodup
  names : (contexts.map (·.tenant.name)).Nodup

namespace RouteSet

/-- The tenant with the given pattern. -/
def withPattern (routes : RouteSet) (pattern : String) : Option SniTenantContext :=
  routes.contexts.find? fun ctx => ctx.tenant.sni = some pattern

/-- The tenant of the exact pattern if there is one, otherwise the tenant of the
pattern that is the hostname with its first label replaced by an asterisk. -/
def answer (routes : RouteSet) (host : String) : Option SniTenantContext :=
  (routes.withPattern host).or ((wildcardOf host).bind routes.withPattern)

/-- The set without the tenant of the given name. -/
def without (routes : RouteSet) (name : String) : RouteSet where
  contexts := routes.contexts.filter fun ctx => ctx.tenant.name ≠ name
  shapes := fun ctx member => routes.shapes ctx (List.mem_of_mem_filter member)
  patterns := routes.patterns.sublist (List.filter_sublist.map _)
  names := routes.names.sublist (List.filter_sublist.map _)

variable {routes : RouteSet}

/-- A pattern finds the one tenant that has it. -/
theorem withPattern_eq_some_iff {pattern : String} {ctx : SniTenantContext} :
    routes.withPattern pattern = some ctx ↔
      ctx ∈ routes.contexts ∧ ctx.tenant.sni = some pattern := by
  constructor
  · intro found
    exact ⟨List.mem_of_find?_eq_some found, by simpa using List.find?_some found⟩
  · rintro ⟨member, hostname⟩
    cases found : routes.withPattern pattern with
    | none => simpa [hostname] using List.find?_eq_none.mp found ctx member
    | some other =>
        have otherHostname : other.tenant.sni = some pattern := by simpa using List.find?_some found
        have same :=
          List.inj_on_of_nodup_map routes.patterns (List.mem_of_find?_eq_some found) member
          (otherHostname.trans hostname.symm)
        rw [same]

/-- The answer depends on which tenants the set has, not on their order. -/
theorem answer_congr {other : RouteSet}
    (same : ∀ ctx, ctx ∈ other.contexts ↔ ctx ∈ routes.contexts) (host : String) :
    other.answer host = routes.answer host := by
  have patterns : other.withPattern = routes.withPattern := by
    funext pattern
    apply Option.ext
    intro ctx
    rw [withPattern_eq_some_iff, withPattern_eq_some_iff, same]
  simp only [answer, patterns]

/-- The answer without one tenant differs only where that tenant was the answer. -/
theorem answer_without (routes : RouteSet) (name host : String)
    (elsewhere : ∀ ctx, routes.answer host = some ctx → ctx.tenant.name ≠ name) :
    (routes.without name).answer host = routes.answer host := by
  have pattern_without : ∀ pattern, (∀ ctx, routes.withPattern pattern = some ctx →
      ctx.tenant.name ≠ name) →
      (routes.without name).withPattern pattern = routes.withPattern pattern := by
    intro pattern kept
    apply Option.ext
    intro ctx
    rw [withPattern_eq_some_iff, withPattern_eq_some_iff]
    simp only [without, List.mem_filter, decide_eq_true_eq]
    constructor
    · rintro ⟨⟨member, _⟩, hostname⟩
      exact ⟨member, hostname⟩
    · rintro ⟨member, hostname⟩
      exact ⟨⟨member, kept ctx (withPattern_eq_some_iff.mpr ⟨member, hostname⟩)⟩,
        hostname⟩
  have exact : (routes.without name).withPattern host = routes.withPattern host := by
    apply pattern_without
    intro ctx found
    exact elsewhere ctx (by simp [answer, found])
  simp only [answer, exact]
  cases found : routes.withPattern host with
  | some ctx => rfl
  | none =>
      cases covering : wildcardOf host with
      | none => rfl
      | some pattern =>
          simp only [Option.bind_some, Option.none_or]
          apply pattern_without
          intro ctx wild
          exact elsewhere ctx (by simp [answer, found, covering, wild])

end RouteSet

namespace SniDispatchTable

/-- A table made by `new` and any number of successful additions and removals, with
the tenants that this history leaves in it. -/
inductive Obtained : SniDispatchTable → List SniTenantContext → Prop
  | new {contexts : List SniTenantContext} {table : SniDispatchTable}
      (built : new contexts = .ok table) : Obtained table contexts
  | added {contexts : List SniTenantContext} {table next : SniDispatchTable}
      {ctx : SniTenantContext}
      (before : Obtained table contexts) (accepted : table.withTenantAdded ctx = .ok next) :
      Obtained next (contexts ++ [ctx])
  | removed {contexts : List SniTenantContext} {table next : SniDispatchTable} {tenantName : String}
      (before : Obtained table contexts) (left : table.withTenantRemoved tenantName = some next) :
      Obtained next (contexts.filter fun ctx => ctx.tenant.name ≠ tenantName)

/-- A context of a fresh pattern can be added. -/
theorem addContext_fresh {wildcardText exactText sni : String} {table : SniDispatchTable}
    {routes : KeyedMap String SniTenantContext} (ctx : SniTenantContext)
    (represents : Represents table routes) (hostname : ctx.tenant.sni = some sni)
    (fresh : Represents.Fresh routes sni) :
    ∃ next, addContext wildcardText exactText table ctx = .ok next := by
  simp only [addContext, hostname]
  split
  · rename_i wild
    obtain ⟨next, inserted⟩ := represents.insertWildcard_fresh wild fresh ctx
    simp only [inserted]
    exact ⟨next, rfl⟩
  · obtain ⟨next, inserted⟩ := represents.insertExact_fresh fresh ctx
    simp only [inserted]
    exact ⟨next, rfl⟩

/-- Distinct patterns that no route has can all be added. -/
theorem foldlM_addContext_succeeds {wildcardText exactText : String}
    {contexts : List SniTenantContext} {table : SniDispatchTable}
    {routes : KeyedMap String SniTenantContext} (represents : Represents table routes)
    (hostnames : ∀ ctx ∈ contexts, ∃ sni, ctx.tenant.sni = some sni ∧
      Represents.Fresh routes sni)
    (distinct : (contexts.map (·.tenant.sni)).Nodup) :
    ∃ next, contexts.foldlM (addContext wildcardText exactText) table = .ok next := by
  induction contexts generalizing table routes with
  | nil => exact ⟨table, rfl⟩
  | cons ctx rest inductionHypothesis =>
      obtain ⟨sni, hostname, fresh⟩ := hostnames ctx List.mem_cons_self
      obtain ⟨middle, added⟩ : ∃ middle, addContext wildcardText exactText
        table ctx = .ok middle :=
        addContext_fresh ctx represents hostname fresh
      obtain ⟨pattern, value, pair, _, inserted⟩ := addContext_spec represents added
      simp only [pairOf, hostname, Option.map_some, Option.some.injEq, Prod.mk.injEq] at pair
      obtain ⟨rfl, rfl⟩ := pair
      rw [List.map_cons, List.nodup_cons] at distinct
      have later : ∀ other ∈ rest, ∃ hostname, other.tenant.sni = some hostname ∧
          Represents.Fresh (routes.insert sni ctx) hostname := by
        intro other member
        obtain ⟨otherSni, otherHostname, unused⟩ :=
          hostnames other (List.mem_cons_of_mem _ member)
        refine ⟨otherSni, otherHostname, ?_⟩
        intro stored inside
        rcases (Represents.mem_insert_fresh fresh _).mp inside with same | old
        · cases same
          exact distinct.1 (List.mem_map.mpr ⟨other, member, otherHostname.trans hostname.symm⟩)
        · exact unused stored old
      obtain ⟨next, built⟩ := inductionHypothesis inserted later distinct.2
      exact ⟨next, bind_eq_ok.mpr ⟨middle, added, built⟩⟩

/-- A table routes to exactly the tenants that its history leaves in it. -/
theorem Obtained.represents {table : SniDispatchTable} {contexts : List SniTenantContext}
    (obtained : Obtained table contexts) :
    ∃ routes, Represents table routes ∧
      ∀ entry, entry ∈ routes.entries ↔ ∃ ctx ∈ contexts, pairOf ctx = some entry := by
  induction obtained with
  | new built =>
      obtain ⟨routes, represents, _, members⟩ := new_spec built
      exact ⟨routes, represents, members⟩
  | added before accepted inductionHypothesis =>
      obtain ⟨routes, represents, members⟩ := inductionHypothesis
      obtain ⟨sni, value, pair, fresh, inserted⟩ := addContext_spec represents accepted
      refine ⟨_, inserted, ?_⟩
      intro entry
      rw [Represents.mem_insert_fresh fresh, members]
      simp only [List.mem_append, List.mem_singleton, or_and_right, exists_or, exists_eq_left, pair,
        Option.some.injEq]
      rw [or_comm, eq_comm]
  | @removed contexts table next tenantName before left inductionHypothesis =>
      obtain ⟨routes, represents, members⟩ := inductionHypothesis
      refine ⟨_, withTenantRemoved_spec represents left, ?_⟩
      intro entry
      simp only [KeyedMap.mem_retain, members, List.mem_filter, decide_eq_true_eq]
      constructor
      · rintro ⟨⟨ctx, member, pair⟩, kept⟩
        obtain ⟨sni, _, rfl⟩ := Option.map_eq_some_iff.mp pair
        exact ⟨ctx, ⟨member, kept⟩, pair⟩
      · rintro ⟨ctx, ⟨member, kept⟩, pair⟩
        obtain ⟨sni, _, rfl⟩ := Option.map_eq_some_iff.mp pair
        exact ⟨⟨ctx, member, pair⟩, kept⟩

/-- A table answers as the set of the tenants that its history leaves in it. -/
theorem Obtained.lookup {table : SniDispatchTable} {contexts : List SniTenantContext}
    {routes : RouteSet} (obtained : Obtained table contexts)
    (same : ∀ ctx, ctx ∈ contexts ↔ ctx ∈ routes.contexts) (host : String) :
    table.lookup host = routes.answer host := by
  obtain ⟨stored, represents, members⟩ := obtained.represents
  have patterns : stored.get? = routes.withPattern := by
    funext pattern
    apply Option.ext
    intro ctx
    rw [KeyedMap.get?_eq_some_iff, members, RouteSet.withPattern_eq_some_iff]
    constructor
    · rintro ⟨other, member, pair⟩
      obtain ⟨sni, hostname, equal⟩ := Option.map_eq_some_iff.mp pair
      cases equal
      exact ⟨(same ctx).mp member, hostname⟩
    · rintro ⟨member, hostname⟩
      exact ⟨ctx, (same ctx).mpr member, by simp [pairOf, hostname]⟩
  rw [SniDispatchTable.lookup, HostTable.find_eq_route represents, route, patterns, RouteSet.answer]

/-- The tenants of a route set make a table in any order. -/
theorem new_succeeds {routes : RouteSet} {contexts : List SniTenantContext}
    (order : contexts.Perm routes.contexts) : ∃ table, new contexts = .ok table := by
  apply foldlM_addContext_succeeds Represents.empty
  · intro ctx member
    obtain ⟨sni, hostname, _⟩ := routes.shapes ctx (order.mem_iff.mp member)
    exact ⟨sni, hostname, fun value stored => by cases stored⟩
  · exact (order.map _).nodup_iff.mpr routes.patterns

end SniDispatchTable

/-- The certificate entry of a tenant, whatever certificate it has. -/
def SniTenantContext.certificate (certOf : SniTenantContext → CertifiedKey)
    (ctx : SniTenantContext) : Option SniTenantCert :=
  ctx.tenant.sni.map fun sni => { sni, tenantName := ctx.tenant.name, certified := certOf ctx }

namespace RouteSet

variable {routes : RouteSet} {certOf : SniTenantContext → CertifiedKey}

/-- The certificate entries of the tenants. -/
def certificates (routes : RouteSet) (certOf : SniTenantContext → CertifiedKey) :
    List SniTenantCert :=
  routes.contexts.filterMap (SniTenantContext.certificate certOf)

/-- A certificate entry is that of a tenant of the set. -/
theorem mem_certificates {entry : SniTenantCert} :
    entry ∈ routes.certificates certOf ↔
      ∃ ctx ∈ routes.contexts, ctx.tenant.sni = some entry.sni ∧
        entry.tenantName = ctx.tenant.name ∧ entry.certified = certOf ctx := by
  simp only [certificates, List.mem_filterMap, SniTenantContext.certificate, Option.map_eq_some_iff]
  constructor
  · rintro ⟨ctx, member, sni, hostname, rfl⟩
    exact ⟨ctx, member, hostname, rfl, rfl⟩
  · rintro ⟨ctx, member, hostname, name, certified⟩
    refine ⟨ctx, member, entry.sni, hostname, ?_⟩
    rw [← name, ← certified]

/-- The entries have the patterns of the tenants, in the same order. -/
theorem certificates_patterns (routes : RouteSet) (certOf : SniTenantContext → CertifiedKey) :
    (routes.certificates certOf).map SniTenantCert.sni =
      routes.contexts.filterMap (·.tenant.sni) := by
  simp only [certificates, List.map_filterMap]
  congr 1
  funext ctx
  simp [SniTenantContext.certificate, Function.comp_def]

/-- The patterns of the entries are distinct. -/
theorem certificates_nodup (routes : RouteSet) (certOf : SniTenantContext → CertifiedKey) :
    ((routes.certificates certOf).map SniTenantCert.sni).Nodup := by
  have present : routes.contexts.filterMap (·.tenant.sni) =
      (routes.contexts.map (·.tenant.sni)).filterMap id := by
    rw [List.filterMap_map]
    rfl
  rw [certificates_patterns, present]
  apply routes.patterns.filterMap
  intro first second sni firstIs secondIs
  exact (Option.mem_def.mp firstIs).trans (Option.mem_def.mp secondIs).symm

/-- The certificate entries make a resolver in any order. -/
theorem resolver_succeeds {entries : List SniTenantCert} (nonempty : routes.contexts ≠ [])
    (order : entries.Perm (routes.certificates certOf)) :
    ∃ resolver, MultiSniCertResolver.new entries = .ok resolver := by
  rw [MultiSniCertResolver.new_ok_iff]
  refine ⟨?_, (order.map _).nodup_iff.mpr (routes.certificates_nodup certOf), ?_⟩
  · rintro rfl
    obtain ⟨ctx, member⟩ := List.exists_mem_of_ne_nil _ nonempty
    obtain ⟨sni, hostname, _⟩ := routes.shapes ctx member
    have entry : { sni, tenantName := ctx.tenant.name, certified := certOf ctx } ∈
        routes.certificates certOf := mem_certificates.mpr ⟨ctx, member, hostname, rfl, rfl⟩
    simpa using order.mem_iff.mpr entry
  · intro entry listed
    obtain ⟨ctx, member, hostname, _⟩ := mem_certificates.mp (order.mem_iff.mp listed)
    obtain ⟨sni, ownHostname, accepted⟩ := routes.shapes ctx member
    rw [hostname] at ownHostname
    cases ownHostname
    exact accepted

/-- A resolver built from the certificate entries presents the certificate of the
tenant that the set answers. -/
theorem resolve_eq_answer {entries : List SniTenantCert} {resolver : MultiSniCertResolver}
    (order : entries.Perm (routes.certificates certOf))
    (built : MultiSniCertResolver.new entries = .ok resolver) (host : String) :
    resolver.resolve (some host) = (routes.answer host).map certOf := by
  obtain ⟨_, stored, represents, members⟩ := MultiSniCertResolver.new_spec built
  have patterns : ∀ pattern, stored.get? pattern = (routes.withPattern pattern).map certOf := by
    intro pattern
    apply Option.ext
    intro certified
    rw [KeyedMap.get?_eq_some_iff, members, Option.map_eq_some_iff]
    constructor
    · rintro ⟨entry, listed, pair⟩
      cases pair
      obtain ⟨ctx, member, hostname, _, certified⟩ :=
        mem_certificates.mp (order.mem_iff.mp listed)
      exact ⟨ctx, withPattern_eq_some_iff.mpr ⟨member, hostname⟩, certified.symm⟩
    · rintro ⟨ctx, found, rfl⟩
      obtain ⟨member, hostname⟩ := withPattern_eq_some_iff.mp found
      refine ⟨{ sni := pattern, tenantName := ctx.tenant.name, certified := certOf ctx },
        ?_, rfl⟩
      exact order.mem_iff.mpr (mem_certificates.mpr ⟨ctx, member, hostname, rfl, rfl⟩)
  have wildcard : (wildcardOf host).bind stored.get? =
      ((wildcardOf host).bind routes.withPattern).map certOf := by
    cases wildcardOf host with
    | none => rfl
    | some pattern => exact patterns pattern
  change resolver.find host = _
  rw [HostTable.find_eq_route represents, route, patterns, wildcard, answer, Option.map_or]

/-- A table and a resolver of one set of tenants answer every hostname with the same
tenant, the one the patterns ask for. Neither the order of the tenants nor the
history of the table matters, and a removal changes the answer only for hostnames
that the removed tenant had. -/
theorem sni_routing (routes : RouteSet) (certOf : SniTenantContext → CertifiedKey) :
    (∀ contexts, contexts.Perm routes.contexts →
      ∃ table, SniDispatchTable.new contexts = .ok table) ∧
    (∀ table contexts, SniDispatchTable.Obtained table contexts →
      (∀ ctx, ctx ∈ contexts ↔ ctx ∈ routes.contexts) →
        (∀ host, table.lookup host = routes.answer host) ∧
        ∀ name next, table.withTenantRemoved name = some next →
          ∀ host, next.lookup host ≠ table.lookup host →
            ∃ ctx, table.lookup host = some ctx ∧ ctx.tenant.name = name) ∧
    (∀ entries, entries.Perm (routes.certificates certOf) → routes.contexts ≠ [] →
      ∃ resolver, MultiSniCertResolver.new entries = .ok resolver ∧
        ∀ host, resolver.resolve (some host) = (routes.answer host).map certOf) ∧
    (∀ other : RouteSet, (∀ ctx, ctx ∈ other.contexts ↔ ctx ∈ routes.contexts) →
      ∀ host, other.answer host = routes.answer host) := by
  refine ⟨fun contexts order => SniDispatchTable.new_succeeds order, ?_, ?_,
    fun other same host => answer_congr same host⟩
  · intro table contexts obtained same
    have lookup := obtained.lookup same
    refine ⟨lookup, ?_⟩
    intro name next left host changed
    have remaining : ∀ ctx, ctx ∈ contexts.filter (fun ctx => ctx.tenant.name ≠ name) ↔
        ctx ∈ (routes.without name).contexts := by
      intro ctx
      simp only [without, List.mem_filter, same]
    have nextLookup := (SniDispatchTable.Obtained.removed obtained left).lookup remaining host
    by_contra elsewhere
    apply changed
    rw [nextLookup, lookup host]
    apply routes.answer_without
    intro ctx found named
    exact elsewhere ⟨ctx, (lookup host).trans found, named⟩
  · intro entries order nonempty
    obtain ⟨resolver, built⟩ := resolver_succeeds nonempty order
    exact ⟨resolver, built, resolve_eq_answer order built⟩

end RouteSet

namespace Config

/-- The tenants of a shared address have certificates and distinct, well-formed
hostnames. -/
theorem validateMembers_ok {listen : String} {size : Nat} {tlsState : Option Bool}
    {seen : List String} {tenants : List TenantConfig}
    (valid : validateMembers listen size tlsState seen tenants = .ok ()) :
    (∀ t ∈ tenants, ∃ sni tls, t.sni = some sni ∧ t.tls = some tls ∧
      acceptsPattern sni = true ∧ sni ∉ seen) ∧ (tenants.map TenantConfig.sni).Nodup := by
  induction tenants generalizing tlsState seen with
  | nil => simp
  | cons t rest inductionHypothesis =>
      simp only [validateMembers] at valid
      split at valid
      · cases valid
      · split at valid
        · cases valid
        · rename_i secure
          obtain ⟨tls, tlsOf⟩ := Option.ne_none_iff_exists'.mp (by simpa using secure)
          split at valid
          · cases valid
          · rename_i sni sniOf
            split at valid
            · cases valid
            · split at valid
              · cases valid
              · rename_i shape
                split at valid
                · cases valid
                · rename_i unseen
                  obtain ⟨later, distinct⟩ := inductionHypothesis valid
                  have accepted : acceptsPattern sni = true := by
                    cases starred : sni.toList.contains '*' <;>
                      simp_all [acceptsPattern]
                  constructor
                  · intro other member
                    rcases List.mem_cons.mp member with rfl | member
                    · exact ⟨sni, tls, sniOf, tlsOf, accepted, unseen⟩
                    · obtain ⟨hostname, files, hostnameOf, filesOf, good, fresh⟩ :=
                        later other member
                      exact ⟨hostname, files, hostnameOf, filesOf, good,
                        fun old => fresh (List.mem_cons_of_mem _ old)⟩
                  · rw [List.map_cons, List.nodup_cons]
                    refine ⟨?_, distinct⟩
                    intro repeated
                    obtain ⟨other, member, same⟩ := List.mem_map.mp repeated
                    obtain ⟨hostname, _, hostnameOf, _, _, fresh⟩ := later other member
                    rw [hostnameOf, sniOf] at same
                    cases same
                    exact fresh List.mem_cons_self

/-- The tenants of an address with several of them passed the checks of a group. -/
theorem validate_shared {cfg : Config} (valid : cfg.validate = .ok ()) (role : cfg.role = .serveTcp)
    {listen : String} (shared : 1 < (cfg.tenantsAt listen).length) :
    (∀ t ∈ cfg.tenantsAt listen, ∃ sni tls, t.sni = some sni ∧ t.tls = some tls ∧
      acceptsPattern sni = true ∧ sni ∉ ([] : List String)) ∧
      ((cfg.tenantsAt listen).map TenantConfig.sni).Nodup := by
  have used : cfg.tenantsAt listen ≠ [] := List.ne_nil_of_length_pos (by omega)
  have checked := validate_group valid role used
  simp only [validateGroup] at checked
  split at checked
  · rename_i only single
    simp [single] at shared
  · exact validateMembers_ok checked

/-- The resolved tenants of a shared address of an accepted configuration. -/
def routeSet {cfg : Config} (valid : cfg.validate = .ok ()) (role : cfg.role = .serveTcp)
    {listen : String} (shared : 1 < (cfg.tenantsAt listen).length) {tenants : List ServeTcpTenant}
    (resolved : (cfg.tenantsAt listen).mapM cfg.resolveOneServeTcp = .ok tenants) : RouteSet where
  contexts := tenants.map fun tenant => { tenant }
  shapes := by
    intro ctx member
    obtain ⟨tenant, listed, rfl⟩ := List.mem_map.mp member
    obtain ⟨t, declared, converted⟩ := exists_of_mem_mapM_eq_ok resolved listed
    obtain ⟨sni, _, hostname, _, accepted, _⟩ :=
      (validate_shared valid role shared).1 t declared
    exact ⟨sni, (resolveOneServeTcp_spec converted).2.2.1.trans hostname, accepted⟩
  patterns := by
    rw [List.map_map]
    have patterns : tenants.map ServeTcpTenant.sni = (cfg.tenantsAt listen).map TenantConfig.sni :=
      map_of_mapM_eq_ok (fun one => (resolveOneServeTcp_spec one).2.2.1) resolved
    exact patterns ▸ (validate_shared valid role shared).2
  names := by
    rw [List.map_map]
    have names : tenants.map ServeTcpTenant.name = (cfg.tenantsAt listen).map TenantConfig.name :=
      map_of_mapM_eq_ok (fun one => (resolveOneServeTcp_spec one).1) resolved
    exact names ▸ (validate_names_nodup valid).sublist (List.filter_sublist.map _)

/-- The tenants of a group of an accepted configuration: with others it has a certificate
and a hostname, and both tables of the group can be built; alone it has no hostname. -/
structure WellGrouped (group : TlsListenerGroup) : Prop where
  dispatch : group.sniDispatch = decide (1 < group.tenants.length)
  secured : 1 < group.tenants.length → ∀ t ∈ group.tenants, ∃ sni tls, t.sni = some sni ∧
    t.tls = some tls
  table : 1 < group.tenants.length →
    ∃ table, SniDispatchTable.new (group.tenants.map fun tenant => { tenant }) = .ok table
  resolver : 1 < group.tenants.length → ∀ certOf : SniTenantContext →
    CertifiedKey, ∃ resolver, MultiSniCertResolver.new
      ((group.tenants.map fun tenant => { tenant }).filterMap
      (SniTenantContext.certificate certOf)) = .ok resolver
  alone : group.tenants.length = 1 → ∀ t ∈ group.tenants, t.sni = none

theorem wellGrouped {cfg : Config} (valid : cfg.validate = .ok ()) (role : cfg.role = .serveTcp)
    {group : TlsListenerGroup}
    (resolved : (cfg.tenantsAt group.listen).mapM cfg.resolveOneServeTcp = .ok group.tenants)
    (dispatch : group.sniDispatch = decide (1 < group.tenants.length)) : WellGrouped group := by
  have sameLength := length_of_mapM_eq_ok resolved
  refine ⟨dispatch, ?_, ?_, ?_, ?_⟩
  · intro several tenant listed
    rw [sameLength] at several
    obtain ⟨t, declared, converted⟩ := exists_of_mem_mapM_eq_ok resolved listed
    obtain ⟨sni, tls, hostname, files, _⟩ := (validate_shared valid role several).1 t declared
    obtain ⟨_, _, sniOf, tlsOf⟩ := resolveOneServeTcp_spec converted
    exact ⟨sni, tls, sniOf.trans hostname, tlsOf.trans files⟩
  · intro several
    rw [sameLength] at several
    exact SniDispatchTable.new_succeeds (.refl (routeSet valid role several resolved).contexts)
  · intro several certOf
    have nonempty : group.tenants ≠ [] := List.ne_nil_of_length_pos (by omega)
    rw [sameLength] at several
    refine RouteSet.resolver_succeeds ?_
      (.refl ((routeSet valid role several resolved).certificates certOf))
    exact fun none => nonempty (List.map_eq_nil_iff.mp none)
  · intro single tenant listed
    rw [sameLength] at single
    obtain ⟨t, alone⟩ := List.length_eq_one_iff.mp single
    obtain ⟨declared, member, converted⟩ := exists_of_mem_mapM_eq_ok resolved listed
    rw [alone, List.mem_singleton] at member
    subst member
    exact (resolveOneServeTcp_spec converted).2.2.1.trans (validate_alone valid role alone)

/-- An accepted serve-tcp configuration resolves into well-formed groups: one for each
address, each with the tenants of its address in the order of the configuration, and
all of them together with every tenant once. -/
theorem validated_groups {cfg : Config} (valid : cfg.validate = .ok ())
    (role : cfg.role = .serveTcp) : ∃ groups flat, cfg.resolveServeTcpGroups = .ok groups ∧
      cfg.tenants.mapM cfg.resolveOneServeTcp = .ok flat ∧
      flat.map ServeTcpTenant.name = cfg.tenants.map TenantConfig.name ∧
      flat.map ServeTcpTenant.listen = cfg.tenants.map TenantConfig.listen ∧
      (groups.map TlsListenerGroup.listen).Nodup ∧
      (groups.flatMap TlsListenerGroup.tenants).Perm flat ∧
      ∀ group ∈ groups, group.tenants ≠ [] ∧
        group.tenants = (flat.filter fun tenant => tenant.listen = group.listen) ∧
        WellGrouped group := by
  obtain ⟨flat, flattened⟩ := mapM_ok_of_forall fun t declared =>
    validate_resolves valid role declared
  obtain ⟨groups, resolved⟩ : ∃ groups, cfg.resolveServeTcpGroups = .ok groups := by
    have every : cfg.resolveServeTcp = .ok flat := by
      rw [resolveServeTcp, if_neg (by simpa using role), flattened]
    exact ⟨_, by rw [resolveServeTcpGroups, every]; rfl⟩
  obtain ⟨_, distinct, covered, members⟩ := resolveServeTcpGroups_members resolved
  have addresses : flat.map ServeTcpTenant.listen = cfg.tenants.map TenantConfig.listen :=
    map_of_mapM_eq_ok (fun one => (resolveOneServeTcp_spec one).2.1) flattened
  have own : ∀ group ∈ groups,
      group.tenants = flat.filter fun tenant => tenant.listen = group.listen := by
    intro group member
    have filtered := filter_mapM_eq_ok (fun one => (resolveOneServeTcp_spec one).2.1) flattened
      group.listen
    exact Except.ok.inj ((members group member).1.symm.trans filtered)
  refine ⟨groups, flat, resolved, flattened, ?_, addresses, distinct, ?_, ?_⟩
  · exact map_of_mapM_eq_ok (fun one => (resolveOneServeTcp_spec one).1) flattened
  · have grouped : groups.flatMap TlsListenerGroup.tenants =
        (groups.map TlsListenerGroup.listen).flatMap fun listen =>
          flat.filter fun tenant => tenant.listen = listen := by
      rw [List.flatMap_map]
      exact List.flatMap_congr own
    rw [grouped]
    refine flatMap_filter_perm ServeTcpTenant.listen distinct ?_
    intro tenant listed
    obtain ⟨t, declared, converted⟩ := exists_of_mem_mapM_eq_ok flattened listed
    obtain ⟨group, member, same⟩ := covered t declared
    rw [(resolveOneServeTcp_spec converted).2.1, ← same]
    exact List.mem_map_of_mem member
  · intro group member
    obtain ⟨converted, nonempty, dispatch⟩ := members group member
    exact ⟨nonempty, own group member, wellGrouped valid role converted dispatch⟩

/-- The startup configuration has one group, with both of its tenants. -/
theorem validated_groups_startup :
    ∃ groups, (sniConfig startupTenants).resolveServeTcpGroups = .ok groups ∧
      groups.length = 1 ∧
      ∀ group ∈ groups, group.sniDispatch = true ∧ WellGrouped group := by
  have valid : (sniConfig startupTenants).validate = .ok () := by decide +kernel
  obtain ⟨groups, flat, resolved, _, _, _, _, _, members⟩ := validated_groups valid rfl
  have evaluated : (sniConfig startupTenants).resolveServeTcpGroups.toOption.any
      (fun groups => groups.length = 1 ∧ groups.all (·.sniDispatch)) = true := by decide +kernel
  rw [resolved] at evaluated
  obtain ⟨single, dispatching⟩ := of_decide_eq_true evaluated
  exact ⟨groups, resolved, single, fun group member =>
    ⟨List.all_eq_true.mp dispatching group member, (members group member).2.2⟩⟩

end Config

/-- The context of the startup tenant with the given name and hostname. -/
def startupContext (name sni : String) : SniTenantContext where
  tenant :=
    { name
      listen := "0.0.0.0:443"
      peerPq := "peer:9000"
      peerPubDir := "peers"
      auditLog := s!"{name}.qa"
      tls := some { cert := s!"{name}.pem", key := s!"{name}.key" }
      auditSigner := .softkey "audit.sk" "audit.pk"
      sni := some sni
      limits := none }

/-- The tenants of the startup configuration as a route set. -/
def startupRoutes : RouteSet :=
  have valid : (sniConfig startupTenants).validate = .ok () := by decide +kernel
  have shared : 1 < ((sniConfig startupTenants).tenantsAt "0.0.0.0:443").length := by decide +kernel
  have resolved : ((sniConfig startupTenants).tenantsAt "0.0.0.0:443").mapM
      (sniConfig startupTenants).resolveOneServeTcp = .ok
        [(startupContext "alpha" "a.example").tenant,
          (startupContext "beta" "*.b.example").tenant] := by
    decide +kernel
  Config.routeSet valid rfl shared resolved

/-- The table of a group that started with two wildcards, gained a hostname and lost
one of the wildcards. -/
def editedTable : Option SniDispatchTable :=
  (SniDispatchTable.new
      [startupContext "gamma" "*.c.example", startupContext "beta" "*.b.example"]).toOption.bind
    fun started => (started.withTenantAdded (startupContext "alpha" "a.example")).toOption.bind
      fun grown => grown.withTenantRemoved "gamma"

/-- The history behind `editedTable`. -/
theorem obtained_editedTable {table : SniDispatchTable} (edited : editedTable = some table) :
    SniDispatchTable.Obtained table
      [startupContext "beta" "*.b.example", startupContext "alpha" "a.example"] := by
  simp only [editedTable, Option.bind_eq_some_iff] at edited
  obtain ⟨started, built, grown, accepted, left⟩ := edited
  exact .removed (.added (.new (eq_ok_of_toOption built)) (eq_ok_of_toOption accepted)) left

/-- A certificate that names the tenant it belongs to. -/
def namedCertificate (ctx : SniTenantContext) : CertifiedKey where
  files := { cert := s!"{ctx.tenant.name}.pem", key := s!"{ctx.tenant.name}.key" }
  chain := [ctx.tenant.name.toUTF8.toList]
  signingKey := []

namespace RouteSet

/-- The startup tenants answer alike from an edited table and from a resolver with
the entries in the other order. -/
theorem sni_routing_startup :
    ∃ table resolver, editedTable = some table ∧
      MultiSniCertResolver.new (startupRoutes.certificates namedCertificate).reverse =
      .ok resolver ∧ ∀ host, table.lookup host = startupRoutes.answer host ∧
        resolver.resolve (some host) = (startupRoutes.answer host).map namedCertificate := by
  obtain ⟨_, tables, resolvers, _⟩ := sni_routing startupRoutes namedCertificate
  have evaluated : editedTable.isSome = true := by decide +kernel
  obtain ⟨table, edited⟩ := Option.isSome_iff_exists.mp evaluated
  have same : ∀ ctx, ctx ∈ [startupContext "beta" "*.b.example",
      startupContext "alpha" "a.example"] ↔ ctx ∈ startupRoutes.contexts := by
    intro ctx
    exact (List.Perm.swap _ _ []).mem_iff
  obtain ⟨resolver, built, presented⟩ :=
    resolvers _ (List.reverse_perm _) (List.cons_ne_nil _ _)
  obtain ⟨lookup, _⟩ := tables table _ (obtained_editedTable edited) same
  exact ⟨table, resolver, edited, built, fun host => ⟨lookup host, presented host⟩⟩

example : (startupRoutes.answer "x.b.example").map (·.tenant.name) = some "beta" := by
    decide +kernel
example : startupRoutes.answer "x.y.b.example" = none := by decide +kernel

end RouteSet
end CofreSoberano.Gateway

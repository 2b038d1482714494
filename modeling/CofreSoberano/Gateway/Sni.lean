import CofreSoberano.Gateway.Config
import Mathlib.Data.List.TakeWhile

/-!
# Hostname routing

`MultiSniCertResolver` and `SniDispatchTable` keep the same two containers: an
exact-match map and a list of wildcard suffixes scanned in insertion order.
`HostTable` is that pair; each of the two keeps its own constructor and its own
acceptance rules.

`route` says what both are for: a map from patterns to values, asked first for
the hostname itself and then for the one wildcard pattern that covers it.
`HostTable.find_eq_route` connects the scan to it, so the insertion order of the
wildcards does not matter.
-/

namespace CofreSoberano.Gateway

open CofreSoberano.Std

/-- An exact-match map and the wildcard suffixes (`*.example.com` is stored as
`.example.com`) in insertion order. -/
structure HostTable (V : Type) where
  bySni : KeyedMap String V
  wildcards : List (List Char × V)
deriving DecidableEq

/-- `sni[1..]` of a wildcard pattern. -/
def wildcardSuffix (sni : String) : List Char := sni.toList.drop 1

/-- The wildcard test of both scans: the hostname ends in the suffix, and what
stands before it is one non-empty label. -/
def coversHost (suffix : List Char) (host : String) : Bool :=
  match suffix.isSuffixOf? host.toList with
  | some label => !label.isEmpty && !label.contains '.'
  | none => false

namespace HostTable

variable {V : Type}

/-- The table without entries. -/
def empty : HostTable V := ⟨.empty, []⟩

/-- Insert an exact hostname; `none` if it is already present. -/
def insertExact (table : HostTable V) (sni : String) (value : V) : Option (HostTable V) :=
  if (table.bySni.get? sni).isSome then none
  else some { table with bySni := table.bySni.insert sni value }

/-- Append a wildcard suffix; `none` if it is already present. -/
def insertWildcard (table : HostTable V) (suffix : List Char) (value : V) :
    Option (HostTable V) :=
  if table.wildcards.any fun entry => entry.1 = suffix then none
  else some { table with wildcards := table.wildcards ++ [(suffix, value)] }

/-- Exact match first, then the first wildcard in insertion order. -/
def find (table : HostTable V) (host : String) : Option V :=
  match table.bySni.get? host with
  | some value => some value
  | none => (table.wildcards.find? fun entry => coversHost entry.1 host).map Prod.snd

end HostTable

/-- The wildcard pattern that covers a hostname: its first label, which must be
non-empty and followed by a dot, replaced by an asterisk. -/
def wildcardOf (host : String) : Option String :=
  let label := host.toList.takeWhile (· ≠ '.')
  let rest := host.toList.dropWhile (· ≠ '.')
  if label.isEmpty || rest.isEmpty then none else some (String.ofList ('*' :: rest))

/-- What hostname routing is for: the value of the exact pattern if there is
one, otherwise that of the covering wildcard pattern. -/
def route {V : Type} (routes : KeyedMap String V) (host : String) : Option V :=
  (routes.get? host).or ((wildcardOf host).bind routes.get?)

/-- A pattern starting with `*.`, cut into its two first characters and the rest. -/
theorem isWildcard_iff {sni : String} :
    isWildcard sni = true ↔ ∃ rest, sni.toList = '*' :: '.' :: rest := by
  rw [isWildcard, List.isPrefixOf_iff_prefix]
  constructor
  · rintro ⟨rest, split⟩
    exact ⟨rest, split.symm⟩
  · rintro ⟨rest, split⟩
    exact ⟨rest, split.symm⟩

/-- A wildcard pattern passes the suffix test exactly on the hostnames it
covers. -/
theorem coversHost_iff {sni host : String} (wild : isWildcard sni = true) :
    coversHost (wildcardSuffix sni) host = true ↔ wildcardOf host = some sni := by
  obtain ⟨rest, split⟩ := isWildcard_iff.mp wild
  have suffix : wildcardSuffix sni = '.' :: rest := by simp [wildcardSuffix, split]
  constructor
  · intro covers
    simp only [coversHost] at covers
    split at covers
    · rename_i label stripped
      rw [List.isSuffixOf?_eq_some_iff_append_eq, suffix] at stripped
      simp only [Bool.and_eq_true, Bool.not_eq_true', List.isEmpty_eq_false_iff] at covers
      obtain ⟨nonempty, plain⟩ := covers
      have noDot : ∀ c ∈ label, decide (c ≠ '.') = true := by
        intro c member
        have different : c ≠ '.' := by
          rintro rfl
          simp only [List.contains_eq_mem, member, decide_true] at plain
          cases plain
        simpa using different
      have taken : host.toList.takeWhile (· ≠ '.') = label := by
        rw [← stripped, List.takeWhile_append_of_pos noDot]
        simp
      have dropped : host.toList.dropWhile (· ≠ '.') = '.' :: rest := by
        rw [← stripped, List.dropWhile_append_of_pos noDot]
        simp
      simp only [wildcardOf, taken, dropped]
      simp [nonempty, ← split]
    · cases covers
  · intro covering
    simp only [wildcardOf] at covering
    split at covering
    · cases covering
    · rename_i shape
      simp only [Bool.or_eq_true, List.isEmpty_iff, not_or] at shape
      have whole :=
        List.takeWhile_append_dropWhile (p := fun c => decide (c ≠ '.')) (l := host.toList)
      have dropped : host.toList.dropWhile (· ≠ '.') = '.' :: rest := by
        have list := congrArg (Option.map String.toList) covering
        simpa [split] using list
      have stripped : (wildcardSuffix sni).isSuffixOf? host.toList =
          some (host.toList.takeWhile (· ≠ '.')) := by
        rw [List.isSuffixOf?_eq_some_iff_append_eq, suffix, ← dropped]
        exact whole
      simp only [coversHost, stripped]
      simp only [Bool.and_eq_true, Bool.not_eq_true', List.isEmpty_eq_false_iff]
      refine ⟨shape.1, ?_⟩
      by_contra dotted
      have member : '.' ∈ host.toList.takeWhile (· ≠ '.') := by
        simpa [List.contains_iff_mem] using dotted
      simpa using List.mem_takeWhile_imp member

/-- The covering pattern of a hostname is itself a wildcard pattern. -/
theorem isWildcard_of_wildcardOf {host sni : String} (covering : wildcardOf host = some sni) :
    isWildcard sni = true := by
  simp only [wildcardOf] at covering
  split at covering
  · cases covering
  · rename_i shape
    simp only [Bool.or_eq_true, List.isEmpty_iff, not_or] at shape
    obtain ⟨head, rest, dropped⟩ := List.exists_cons_of_ne_nil shape.2
    have dot : head = '.' := by
      have stopped := List.head_dropWhile_not (fun c => decide (c ≠ '.')) shape.2
      simpa only [dropped, List.head_cons, decide_eq_false_iff_not, not_not] using stopped
    rw [dropped, dot] at covering
    rw [isWildcard_iff]
    refine ⟨rest, ?_⟩
    rw [← Option.some.inj covering, String.toList_ofList]

/-- A hostname spelled like a wildcard pattern is covered by that pattern. -/
theorem wildcardOf_self {host : String} (wild : isWildcard host = true) :
    wildcardOf host = some host := by
  obtain ⟨rest, split⟩ := isWildcard_iff.mp wild
  have spelled : String.ofList ('*' :: '.' :: rest) = host := by
    rw [← split, String.ofList_toList]
  simp [wildcardOf, split, List.takeWhile, List.dropWhile, spelled]

/-- A table holds exactly the given routes. -/
structure Represents {V : Type} (table : HostTable V) (routes : KeyedMap String V) : Prop where
  exact : ∀ sni value, (sni, value) ∈ table.bySni.entries ↔
    (sni, value) ∈ routes.entries ∧ isWildcard sni = false
  wildcard : ∀ suffix value, (suffix, value) ∈ table.wildcards ↔
    ∃ sni, (sni, value) ∈ routes.entries ∧ isWildcard sni = true ∧
      wildcardSuffix sni = suffix

namespace Represents

variable {V : Type} {table : HostTable V} {routes : KeyedMap String V}

theorem empty : Represents (.empty : HostTable V) .empty := by
  constructor <;> simp [HostTable.empty, KeyedMap.empty]

/-- The wildcard scan finds the value of the covering pattern. -/
theorem scan (represents : Represents table routes) (host : String) :
    (table.wildcards.find? fun entry => coversHost entry.1 host).map Prod.snd =
      (wildcardOf host).bind routes.get? := by
  cases found : table.wildcards.find? fun entry => coversHost entry.1 host with
  | some entry =>
      obtain ⟨suffix, value⟩ := entry
      obtain ⟨sni, member, wild, rfl⟩ :=
        (represents.wildcard suffix value).mp (List.mem_of_find?_eq_some found)
      have covering := (coversHost_iff wild).mp (by simpa using List.find?_some found)
      simp [covering, KeyedMap.get?_eq_some_iff.mpr member]
  | none =>
      cases covering : wildcardOf host with
      | none => rfl
      | some sni =>
          have wild := isWildcard_of_wildcardOf covering
          have covers := (coversHost_iff wild).mpr covering
          have absent : routes.get? sni = none := by
            rw [KeyedMap.get?_eq_none_iff]
            intro value member
            have stored := (represents.wildcard _ value).mpr ⟨sni, member, wild, rfl⟩
            simpa [covers] using List.find?_eq_none.mp found _ stored
          simp [absent]

/-- The exact map answers for a hostname unless it is spelled like a wildcard. -/
theorem get?_bySni (represents : Represents table routes) (host : String) :
    table.bySni.get? host = if isWildcard host then none else routes.get? host := by
  apply Option.ext
  intro value
  rw [KeyedMap.get?_eq_some_iff, represents.exact]
  split <;> simp_all [KeyedMap.get?_eq_some_iff]

end Represents

/-- The two-stage scan of a table computes `route`, whatever the order of its
wildcards. -/
theorem HostTable.find_eq_route {V : Type} {table : HostTable V} {routes : KeyedMap String V}
    (represents : Represents table routes) (host : String) :
    table.find host = route routes host := by
  simp only [HostTable.find, route]
  rw [represents.get?_bySni host, represents.scan host]
  cases wild : isWildcard host with
  | false => cases routes.get? host <;> rfl
  | true =>
      -- A hostname spelled `*.x` misses the exact map and is found by the scan.
      simp [wildcardOf_self wild]

namespace Represents

variable {V : Type} {table next : HostTable V} {routes : KeyedMap String V}

/-- A pattern that no route has yet. -/
def Fresh (routes : KeyedMap String V) (sni : String) : Prop :=
  ∀ value, (sni, value) ∉ routes.entries

/-- Inserting a fresh pattern adds exactly that pair. -/
theorem mem_insert_fresh {sni : String} {value : V} (fresh : Fresh routes sni)
    (entry : String × V) :
    entry ∈ (routes.insert sni value).entries ↔ entry = (sni, value) ∨
    entry ∈ routes.entries := by
  rw [KeyedMap.mem_insert]
  constructor
  · rintro (rfl | ⟨member, _⟩)
    · exact .inl rfl
    · exact .inr member
  · rintro (rfl | member)
    · exact .inl rfl
    · exact .inr ⟨member, fun same => fresh entry.2 (same ▸ member)⟩

/-- An accepted exact insertion adds one fresh route. -/
theorem insertExact (represents : Represents table routes) {sni : String} {value : V}
    (plain : isWildcard sni = false) (inserted : table.insertExact sni value = some next) :
    Fresh routes sni ∧ Represents next (routes.insert sni value) := by
  simp only [HostTable.insertExact] at inserted
  split at inserted
  · cases inserted
  · rename_i absent
    cases inserted
    have fresh : Fresh routes sni := by
      intro old member
      have stored :=
        KeyedMap.get?_eq_some_iff.mpr ((represents.exact sni old).mpr ⟨member, plain⟩)
      simp [stored] at absent
    have apart : ∀ other value, (other, value) ∈ table.bySni.entries → other ≠ sni := by
      rintro other old stored rfl
      exact fresh old ((represents.exact _ _).mp stored).1
    refine ⟨fresh, ⟨?_, ?_⟩⟩
    · intro other stored
      simp only [KeyedMap.mem_insert, mem_insert_fresh fresh, represents.exact]
      constructor
      · rintro (same | ⟨⟨member, wild⟩, _⟩)
        · cases same
          exact ⟨.inl rfl, plain⟩
        · exact ⟨.inr member, wild⟩
      · rintro ⟨same | member, wild⟩
        · exact .inl same
        · have kept := (represents.exact other stored).mpr ⟨member, wild⟩
          exact .inr ⟨⟨member, wild⟩, apart other stored kept⟩
    · intro suffix stored
      simp only [represents.wildcard, mem_insert_fresh fresh]
      constructor
      · rintro ⟨other, member, wild, cut⟩
        exact ⟨other, .inr member, wild, cut⟩
      · rintro ⟨other, same | member, wild, cut⟩
        · cases same
          simp [plain] at wild
        · exact ⟨other, member, wild, cut⟩

/-- An accepted wildcard insertion adds one fresh route. -/
theorem insertWildcard (represents : Represents table routes) {sni : String} {value : V}
    (wild : isWildcard sni = true)
    (inserted : table.insertWildcard (wildcardSuffix sni) value = some next) :
    Fresh routes sni ∧ Represents next (routes.insert sni value) := by
  simp only [HostTable.insertWildcard] at inserted
  split at inserted
  · cases inserted
  · rename_i absent
    cases inserted
    have fresh : Fresh routes sni := by
      intro old member
      have stored := (represents.wildcard _ old).mpr ⟨sni, member, wild, rfl⟩
      exact absent (List.any_eq_true.mpr ⟨_, stored, by simp⟩)
    refine ⟨fresh, ⟨?_, ?_⟩⟩
    · intro other stored
      simp only [represents.exact, mem_insert_fresh fresh]
      constructor
      · rintro ⟨member, plain⟩
        exact ⟨.inr member, plain⟩
      · rintro ⟨same | member, plain⟩
        · cases same
          simp [wild] at plain
        · exact ⟨member, plain⟩
    · intro suffix stored
      simp only [List.mem_append, List.mem_singleton, represents.wildcard, mem_insert_fresh fresh]
      constructor
      · rintro (⟨other, member, otherWild, cut⟩ | same)
        · exact ⟨other, .inr member, otherWild, cut⟩
        · cases same
          exact ⟨sni, .inl rfl, wild, rfl⟩
      · rintro ⟨other, same | member, otherWild, cut⟩
        · cases same
          exact .inr (by rw [← cut])
        · exact .inl ⟨other, member, otherWild, cut⟩

/-- Filtering both containers by their values filters the routes. -/
theorem retain (represents : Represents table routes) (keep : V → Bool) :
    Represents ⟨table.bySni.retain fun _ value => keep value,
        table.wildcards.filter fun entry => keep entry.2⟩
      (routes.retain fun _ value => keep value) := by
  constructor
  · intro sni value
    simp only [KeyedMap.mem_retain, represents.exact]
    tauto
  · intro suffix value
    simp only [List.mem_filter, KeyedMap.mem_retain, represents.wildcard]
    constructor
    · rintro ⟨⟨sni, member, wild, cut⟩, kept⟩
      exact ⟨sni, ⟨member, kept⟩, wild, cut⟩
    · rintro ⟨sni, ⟨member, kept⟩, wild, cut⟩
      exact ⟨⟨sni, member, wild, cut⟩, kept⟩

/-- Building a table by accepted insertions of the items of a list adds exactly
the routes of those items, whose patterns are distinct. -/
theorem foldlM {Item : Type} (pairOf : Item → Option (String × V))
    (add : HostTable V → Item → Except String (HostTable V))
    (adds : ∀ {table next : HostTable V} {routes : KeyedMap String V} {item : Item},
      Represents table routes → add table item = .ok next →
        ∃ sni value, pairOf item = some (sni, value) ∧ Fresh routes sni ∧
          Represents next (routes.insert sni value))
    {items : List Item} (represents : Represents table routes)
    (built : items.foldlM add table = .ok next) :
    ∃ result, Represents next result ∧ (∀ item ∈ items, (pairOf item).isSome) ∧
      (∀ entry, entry ∈ result.entries ↔
        entry ∈ routes.entries ∨ ∃ item ∈ items, pairOf item = some entry) ∧
      (items.filterMap pairOf |>.map Prod.fst).Nodup ∧
      ∀ pair ∈ items.filterMap pairOf, Fresh routes pair.1 := by
  induction items generalizing table routes with
  | nil =>
      cases built
      exact ⟨routes, represents, by simp, by simp, by simp, by simp⟩
  | cons item rest inductionHypothesis =>
      rw [List.foldlM_cons] at built
      cases added : add table item with
      | error message => simp [added, bind, Except.bind] at built
      | ok middle =>
          simp only [added, bind, Except.bind] at built
          obtain ⟨sni, value, pair, fresh, inserted⟩ := adds represents added
          obtain ⟨result, final, paired, members, nodup, later⟩ :=
            inductionHypothesis inserted built
          refine ⟨result, final, ?_, ?_, ?_, ?_⟩
          · intro other member
            rcases List.mem_cons.mp member with rfl | later
            · simp [pair]
            · exact paired other later
          · intro entry
            rw [members, mem_insert_fresh fresh]
            simp only [List.mem_cons, exists_eq_or_imp, pair, Option.some.injEq]
            tauto
          · rw [List.filterMap_cons_some pair, List.map_cons, List.nodup_cons]
            refine ⟨?_, nodup⟩
            intro repeated
            obtain ⟨other, member, samePattern⟩ := List.mem_map.mp repeated
            exact later other member value (by simp [samePattern])
          · intro other member
            rw [List.filterMap_cons_some pair] at member
            rcases List.mem_cons.mp member with rfl | after
            · exact fresh
            · intro stored old
              apply later other after stored
              exact (mem_insert_fresh fresh _).mpr (.inr old)

end Represents

/-- A loaded certificate chain with its key. `files` records where they were read
from: it is the certificate of every tenant configured with these files. -/
structure CertifiedKey where
  files : TlsConfig
  chain : List (List UInt8)
  signingKey : List UInt8
deriving DecidableEq, Repr

/-- One tenant's TLS material indexed by SNI hostname. -/
structure SniTenantCert where
  sni : String
  tenantName : String
  certified : CertifiedKey
deriving DecidableEq, Repr

/-- Multi-SNI resolver: picks a certificate by the ClientHello's hostname. -/
abbrev MultiSniCertResolver := HostTable CertifiedKey

namespace MultiSniCertResolver

/-- One iteration of `MultiSniCertResolver::new`. -/
def addEntry (resolver : MultiSniCertResolver) (entry : SniTenantCert) :
    Except String MultiSniCertResolver :=
  if entry.sni.toList.contains '*' then
    if invalidWildcard entry.sni then
      .error <|
        s!"MultiSniCertResolver: invalid wildcard SNI {entry.sni.quote} (must be of the form " ++
        s!"'*.host.example.com')"
    else match resolver.insertWildcard (wildcardSuffix entry.sni) entry.certified with
    | none => .error s!"MultiSniCertResolver: duplicate wildcard SNI {entry.sni.quote}"
    | some next => .ok next
  else match resolver.insertExact entry.sni entry.certified with
  | none => .error s!"MultiSniCertResolver: duplicate SNI hostname {entry.sni.quote}"
  | some next => .ok next

/-- `MultiSniCertResolver::new`. -/
def new (entries : List SniTenantCert) : Except String MultiSniCertResolver :=
  if entries.isEmpty then .error "MultiSniCertResolver: at least one tenant cert required"
  else entries.foldlM addEntry .empty

/-- `ResolvesServerCert::resolve`; a ClientHello without SNI resolves to none. -/
def resolve (resolver : MultiSniCertResolver) (serverName : Option String) : Option CertifiedKey :=
  serverName.bind resolver.find

/-- An accepted entry is one fresh route to its certificate. -/
theorem addEntry_spec {resolver next : MultiSniCertResolver}
    {routes : KeyedMap String CertifiedKey} {entry : SniTenantCert}
    (represents : Represents resolver routes) (added : addEntry resolver entry = .ok next) :
    Represents.Fresh routes entry.sni ∧
      Represents next (routes.insert entry.sni entry.certified) := by
  simp only [addEntry] at added
  split at added
  · split at added
    · cases added
    · rename_i shape
      have wild : isWildcard entry.sni = true := by
        simp only [invalidWildcard, Bool.or_eq_true, Bool.not_eq_true', not_or] at shape
        simpa using shape.1
      split at added <;> cases added
      rename_i inserted
      exact represents.insertWildcard wild inserted
  · rename_i starless
    have plain : isWildcard entry.sni = false := by
      by_contra wild
      obtain ⟨rest, split⟩ := isWildcard_iff.mp (by simpa using wild)
      simp [split] at starless
    split at added <;> cases added
    rename_i inserted
    exact represents.insertExact plain inserted

/-- A built resolver answers with the certificates of exactly its entries. -/
theorem new_spec {entries : List SniTenantCert} {resolver : MultiSniCertResolver}
    (built : new entries = .ok resolver) :
    (entries.map SniTenantCert.sni).Nodup ∧ ∃ routes, Represents resolver routes ∧
      ∀ route, route ∈ routes.entries ↔ ∃ entry ∈ entries,
        (entry.sni, entry.certified) = route := by
  simp only [new] at built
  split at built
  · cases built
  · obtain ⟨routes, represents, _, members, nodup, _⟩ := Represents.empty.foldlM
      (fun entry : SniTenantCert => some (entry.sni, entry.certified)) addEntry
      (fun holds added => ⟨_, _, rfl, addEntry_spec holds added⟩) built
    refine ⟨?_, routes, represents, by simpa [KeyedMap.empty] using members⟩
    simpa [List.filterMap_eq_map, Function.comp_def] using nodup

end MultiSniCertResolver

/-- Runtime context of a tenant in a dispatch table. The peer policy, audit
handle, metrics and admission controller it clones from the tenant's runtime
play no part in dispatch. -/
structure SniTenantContext where
  tenant : ServeTcpTenant
deriving DecidableEq, Repr

/-- Dispatch table: maps SNI hostnames to tenant contexts. -/
abbrev SniDispatchTable := HostTable SniTenantContext

namespace SniDispatchTable

/-- Insert one context. `new` and `with_tenant_added` differ in the texts of
their duplicate errors only. -/
def addContext (wildcardText exactText : String) (table : SniDispatchTable)
    (ctx : SniTenantContext) : Except String SniDispatchTable :=
  match ctx.tenant.sni with
  | none => .error s!"tenant {ctx.tenant.name} has no sni"
  | some sni =>
      if isWildcard sni then
        match table.insertWildcard (wildcardSuffix sni) ctx with
        | none => .error s!"{wildcardText}: {sni}"
        | some next => .ok next
      else match table.insertExact sni ctx with
      | none => .error s!"{exactText}: {sni}"
      | some next => .ok next

/-- `SniDispatchTable::new`. -/
def new (contexts : List SniTenantContext) : Except String SniDispatchTable :=
  contexts.foldlM (addContext "duplicate wildcard SNI in dispatch table"
    "duplicate SNI in dispatch table") .empty

/-- `SniDispatchTable::lookup`. -/
def lookup (table : SniDispatchTable) (sni : String) : Option SniTenantContext :=
  table.find sni

/-- `SniDispatchTable::with_tenant_added`. -/
def withTenantAdded (table : SniDispatchTable) (ctx : SniTenantContext) :
    Except String SniDispatchTable :=
  addContext "duplicate wildcard SNI" "duplicate SNI" table ctx

/-- `SniDispatchTable::with_tenant_removed`; none if the name was absent. -/
def withTenantRemoved (table : SniDispatchTable) (tenantName : String) : Option SniDispatchTable :=
  let bySni := table.bySni.retain fun _ ctx => ctx.tenant.name ≠ tenantName
  let wildcards := table.wildcards.filter fun entry => entry.2.tenant.name ≠ tenantName
  if bySni.len = table.bySni.len ∧ wildcards.length = table.wildcards.length then none
  else some ⟨bySni, wildcards⟩

/-- The contexts of a table, exact ones first. -/
def contexts (table : SniDispatchTable) : List SniTenantContext :=
  table.bySni.values ++ table.wildcards.map Prod.snd

/-- `SniDispatchTable::tenant_names`. -/
def tenantNames (table : SniDispatchTable) : List String :=
  table.contexts.map (·.tenant.name)

/-- The contexts of a table are those of its routes. -/
theorem mem_contexts {table : SniDispatchTable} {routes : KeyedMap String SniTenantContext}
    (represents : Represents table routes) {ctx : SniTenantContext} :
    ctx ∈ contexts table ↔ ∃ sni, (sni, ctx) ∈ routes.entries := by
  simp only [contexts, KeyedMap.values, List.mem_append, List.mem_map, Prod.exists,
    exists_eq_right, represents.exact, represents.wildcard]
  constructor
  · rintro (⟨sni, member, _⟩ | ⟨_, sni, member, _⟩) <;> exact ⟨sni, member⟩
  · rintro ⟨sni, member⟩
    cases wild : isWildcard sni with
    | false => exact .inl ⟨sni, member, wild⟩
    | true => exact .inr ⟨wildcardSuffix sni, sni, member, wild, rfl⟩

/-- The route a context asks for. -/
def pairOf (ctx : SniTenantContext) : Option (String × SniTenantContext) :=
  ctx.tenant.sni.map fun sni => (sni, ctx)

/-- An accepted context is one fresh route, keyed by its SNI. -/
theorem addContext_spec {wildcardText exactText : String} {table next : SniDispatchTable}
    {routes : KeyedMap String SniTenantContext} {ctx : SniTenantContext}
    (represents : Represents table routes)
    (added : addContext wildcardText exactText table ctx = .ok next) :
    ∃ sni value, pairOf ctx = some (sni, value) ∧ Represents.Fresh routes sni ∧
      Represents next (routes.insert sni value) := by
  simp only [addContext] at added
  split at added
  · cases added
  · rename_i sni named
    refine ⟨sni, ctx, by simp [pairOf, named], ?_⟩
    split at added
    · rename_i wild
      split at added <;> cases added
      rename_i inserted
      exact represents.insertWildcard wild inserted
    · rename_i plain
      split at added <;> cases added
      rename_i inserted
      exact represents.insertExact (by simpa using plain) inserted

/-- A built table routes to exactly its contexts, each under its SNI. -/
theorem new_spec {contexts : List SniTenantContext} {table : SniDispatchTable}
    (built : new contexts = .ok table) :
    ∃ routes, Represents table routes ∧ (∀ ctx ∈ contexts, (pairOf ctx).isSome) ∧
      ∀ route, route ∈ routes.entries ↔ ∃ ctx ∈ contexts, pairOf ctx = some route := by
  obtain ⟨routes, represents, paired, members, _, _⟩ :=
    Represents.empty.foldlM pairOf _ (fun holds added => addContext_spec holds added) built
  exact ⟨routes, represents, paired, by simpa [KeyedMap.empty] using members⟩

/-- Removing a tenant keeps exactly the routes of the others. -/
theorem withTenantRemoved_spec {table next : SniDispatchTable}
    {routes : KeyedMap String SniTenantContext} {tenantName : String}
    (represents : Represents table routes)
    (removed : withTenantRemoved table tenantName = some next) :
    Represents next (routes.retain fun _ ctx => ctx.tenant.name ≠ tenantName) := by
  simp only [withTenantRemoved] at removed
  split at removed <;> cases removed
  exact represents.retain fun ctx => decide (ctx.tenant.name ≠ tenantName)

/-- An accepted context joins the others. -/
theorem mem_contexts_addContext {wildcardText exactText : String} {table next : SniDispatchTable}
    {ctx : SniTenantContext} (added : addContext wildcardText exactText table ctx = .ok next)
    (other : SniTenantContext) : other ∈ contexts next ↔ other = ctx ∨
    other ∈ contexts table := by
  simp only [addContext] at added
  split at added
  · cases added
  · rename_i sni named
    split at added
    · split at added
      · cases added
      · rename_i inserted
        cases added
        simp only [HostTable.insertWildcard] at inserted
        split at inserted
        · cases inserted
        · cases inserted
          simp only [contexts, List.map_append, List.map_cons, List.map_nil, List.mem_append,
            List.mem_singleton]
          tauto
    · split at added
      · cases added
      · rename_i inserted
        cases added
        simp only [HostTable.insertExact] at inserted
        split at inserted
        · cases inserted
        · rename_i absent
          cases inserted
          have apart : ∀ key value, (key, value) ∈ table.bySni.entries → key ≠ sni := by
            rintro key value stored rfl
            simp [KeyedMap.get?_eq_some_iff.mpr stored] at absent
          simp only [contexts, KeyedMap.values, List.mem_append, List.mem_map, KeyedMap.mem_insert]
          constructor
          · rintro (⟨entry, rfl | ⟨stored, _⟩, rfl⟩ | wild)
            · exact .inl rfl
            · exact .inr (.inl ⟨entry, stored, rfl⟩)
            · exact .inr (.inr wild)
          · rintro (rfl | ⟨entry, stored, rfl⟩ | wild)
            · exact .inl ⟨(sni, other), .inl rfl, rfl⟩
            · exact .inl ⟨entry, .inr ⟨stored, apart entry.1 entry.2 stored⟩, rfl⟩
            · exact .inr wild

/-- A built table has the contexts it was built from. -/
theorem mem_contexts_new {members : List SniTenantContext} {table : SniDispatchTable}
    (built : new members = .ok table) (ctx : SniTenantContext) :
    ctx ∈ contexts table ↔ ctx ∈ members := by
  have folded : ∀ (members : List SniTenantContext) (start : SniDispatchTable),
      members.foldlM (addContext "duplicate wildcard SNI in dispatch table"
        "duplicate SNI in dispatch table") start = .ok table →
      (ctx ∈ contexts table ↔ ctx ∈ contexts start ∨ ctx ∈ members) := by
    intro members
    induction members with
    | nil =>
        intro start built
        cases built
        simp
    | cons member rest inductionHypothesis =>
        intro start built
        rw [List.foldlM_cons] at built
        obtain ⟨middle, added, built⟩ := bind_eq_ok.mp built
        rw [inductionHypothesis middle built, mem_contexts_addContext added, List.mem_cons]
        tauto
  rw [folded members .empty built]
  simp [contexts, HostTable.empty, KeyedMap.empty, KeyedMap.values]

/-- Removing a tenant keeps the contexts of the others. -/
theorem mem_contexts_withTenantRemoved {table next : SniDispatchTable} {tenantName : String}
    (removed : withTenantRemoved table tenantName = some next) (ctx : SniTenantContext) :
    ctx ∈ contexts next ↔ ctx ∈ contexts table ∧ ctx.tenant.name ≠ tenantName := by
  simp only [withTenantRemoved] at removed
  split at removed <;> cases removed
  simp only [contexts, KeyedMap.values, List.mem_append, List.mem_map, KeyedMap.mem_retain,
    List.mem_filter, decide_eq_true_eq]
  constructor
  · rintro (⟨entry, ⟨stored, other⟩, rfl⟩ | ⟨entry, ⟨stored, other⟩, rfl⟩)
    · exact ⟨.inl ⟨entry, stored, rfl⟩, other⟩
    · exact ⟨.inr ⟨entry, stored, rfl⟩, other⟩
  · rintro ⟨⟨entry, stored, rfl⟩ | ⟨entry, stored, rfl⟩, other⟩
    · exact .inl ⟨entry, ⟨stored, other⟩, rfl⟩
    · exact .inr ⟨entry, ⟨stored, other⟩, rfl⟩

end SniDispatchTable
end CofreSoberano.Gateway

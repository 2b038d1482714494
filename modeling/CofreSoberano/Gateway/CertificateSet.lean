import CofreSoberano.Gateway.SniAgreement
import CofreSoberano.Gateway.Daemon

/-!
# When the certificate set of a group is rebuilt

A rebuild succeeds exactly for a nonempty set of entries with distinct, well-formed
hostnames whose files load. When `add_sni_entry` and `remove_sni_entry` succeed
follows, whatever the order of the components of an entry.
-/

namespace CofreSoberano.Gateway

open CofreSoberano.Std

/-- The asterisk of a hostname pattern, if there is one, is its leftmost label. -/
def acceptsPattern (sni : String) : Bool :=
  !sni.toList.contains '*' || !invalidWildcard sni

namespace Represents

variable {V : Type} {table : HostTable V} {routes : KeyedMap String V}

/-- A fresh hostname can be inserted. -/
theorem insertExact_fresh (represents : Represents table routes) {sni : String}
    (fresh : Fresh routes sni) (value : V) : ∃ next, table.insertExact sni value = some next := by
  refine ⟨{ table with bySni := table.bySni.insert sni value }, ?_⟩
  simp only [HostTable.insertExact]
  rw [if_neg]
  intro present
  obtain ⟨old, found⟩ := Option.isSome_iff_exists.mp present
  exact fresh old ((represents.exact sni old).mp (KeyedMap.get?_eq_some_iff.mp found)).1

/-- A fresh wildcard can be inserted: two wildcards with one suffix are the same. -/
theorem insertWildcard_fresh (represents : Represents table routes) {sni : String}
    (wild : isWildcard sni = true) (fresh : Fresh routes sni) (value : V) :
    ∃ next, table.insertWildcard (wildcardSuffix sni) value = some next := by
  refine ⟨{ table with wildcards := table.wildcards ++ [(wildcardSuffix sni, value)] }, ?_⟩
  simp only [HostTable.insertWildcard]
  rw [if_neg]
  intro present
  obtain ⟨⟨suffix, old⟩, stored, same⟩ := List.any_eq_true.mp present
  obtain ⟨other, member, otherWild, cut⟩ := (represents.wildcard suffix old).mp stored
  have equal : other = sni := by
    obtain ⟨rest, split⟩ := isWildcard_iff.mp wild
    obtain ⟨otherRest, otherSplit⟩ := isWildcard_iff.mp otherWild
    have suffixes : wildcardSuffix other = wildcardSuffix sni := cut.trans (by simpa using same)
    simp only [wildcardSuffix, split, otherSplit, List.drop_one, List.tail_cons, List.cons.injEq,
      true_and] at suffixes
    apply String.toList_injective
    rw [split, otherSplit, suffixes]
  exact fresh old (equal ▸ member)

end Represents

namespace MultiSniCertResolver

/-- An entry is accepted exactly if its pattern is well formed and new. -/
theorem addEntry_ok_iff {resolver : MultiSniCertResolver} {routes : KeyedMap String CertifiedKey}
    {entry : SniTenantCert} (represents : Represents resolver routes) :
    (∃ next, addEntry resolver entry = .ok next) ↔
      acceptsPattern entry.sni = true ∧ Represents.Fresh routes entry.sni := by
  constructor
  · rintro ⟨next, added⟩
    refine ⟨?_, (addEntry_spec represents added).1⟩
    simp only [addEntry] at added
    split at added
    · split at added
      · cases added
      · rename_i valid
        simp [acceptsPattern, valid]
    · rename_i starless
      simp only [acceptsPattern, Bool.or_eq_true, Bool.not_eq_true']
      exact .inl (by simpa using starless)
  · rintro ⟨accepted, fresh⟩
    simp only [acceptsPattern, Bool.or_eq_true, Bool.not_eq_true'] at accepted
    simp only [addEntry]
    split
    · rename_i starred
      have valid : invalidWildcard entry.sni = false := by
        rcases accepted with starless | valid
        · rw [starred] at starless
          cases starless
        · exact valid
      have wild : isWildcard entry.sni = true := by
        simp only [invalidWildcard, Bool.or_eq_false_iff, Bool.not_eq_false'] at valid
        exact valid.1
      obtain ⟨next, inserted⟩ := represents.insertWildcard_fresh wild fresh entry.certified
      simp only [valid, inserted]
      exact ⟨next, rfl⟩
    · obtain ⟨next, inserted⟩ := represents.insertExact_fresh fresh entry.certified
      simp only [inserted]
      exact ⟨next, rfl⟩

/-- The loop of `new` succeeds exactly on well-formed patterns that are distinct and
not yet in the table. -/
theorem foldlM_ok_iff {entries : List SniTenantCert} {resolver : MultiSniCertResolver}
    {routes : KeyedMap String CertifiedKey} (represents : Represents resolver routes) :
    (∃ next, entries.foldlM addEntry resolver = .ok next) ↔
      (entries.map SniTenantCert.sni).Nodup ∧
        ∀ entry ∈ entries, acceptsPattern entry.sni = true ∧
          Represents.Fresh routes entry.sni := by
  induction entries generalizing resolver routes with
  | nil =>
      simp only [List.foldlM_nil, List.map_nil, List.nodup_nil, List.not_mem_nil, false_implies,
        implies_true, and_true, iff_true]
      exact ⟨resolver, rfl⟩
  | cons entry rest inductionHypothesis =>
      rw [List.foldlM_cons, List.map_cons, List.nodup_cons]
      constructor
      · rintro ⟨next, built⟩
        obtain ⟨middle, added, built⟩ := bind_eq_ok.mp built
        obtain ⟨fresh, inserted⟩ := addEntry_spec represents added
        obtain ⟨distinct, later⟩ := (inductionHypothesis inserted).mp ⟨next, built⟩
        refine ⟨⟨?_, distinct⟩, ?_⟩
        · intro repeated
          obtain ⟨other, member, same⟩ := List.mem_map.mp repeated
          exact (later other member).2 entry.certified (by simp [same])
        · intro other member
          rcases List.mem_cons.mp member with rfl | member
          · exact (addEntry_ok_iff represents).mp ⟨middle, added⟩
          · refine ⟨(later other member).1, ?_⟩
            intro value stored
            exact (later other member).2 value
              ((Represents.mem_insert_fresh fresh _).mpr (.inr stored))
      · rintro ⟨⟨new, distinct⟩, accepted⟩
        obtain ⟨middle, added⟩ :=
          (addEntry_ok_iff represents).mpr (accepted entry List.mem_cons_self)
        obtain ⟨fresh, inserted⟩ := addEntry_spec represents added
        have later : ∀ other ∈ rest, acceptsPattern other.sni = true ∧
            Represents.Fresh (routes.insert entry.sni entry.certified) other.sni := by
          intro other member
          obtain ⟨pattern, unused⟩ := accepted other (List.mem_cons_of_mem _ member)
          refine ⟨pattern, ?_⟩
          intro value stored
          rcases (Represents.mem_insert_fresh fresh _).mp stored with same | old
          · have hostnames : other.sni = entry.sni := congrArg Prod.fst same
            exact new (List.mem_map.mpr ⟨other, member, hostnames⟩)
          · exact unused value old
        obtain ⟨next, built⟩ := (inductionHypothesis inserted).mpr ⟨distinct, later⟩
        exact ⟨next, bind_eq_ok.mpr ⟨middle, added, built⟩⟩

/-- `new` succeeds exactly on a nonempty list of distinct, well-formed patterns. -/
theorem new_ok_iff {entries : List SniTenantCert} :
    (∃ resolver, new entries = .ok resolver) ↔ entries ≠ [] ∧
      (entries.map SniTenantCert.sni).Nodup ∧ ∀ entry ∈ entries,
      acceptsPattern entry.sni = true := by
  have fresh : ∀ sni, Represents.Fresh (.empty : KeyedMap String CertifiedKey) sni := by
    intro sni value member
    cases member
  simp only [new]
  split
  · rename_i none
    simp [List.isEmpty_iff.mp none]
  · rename_i some
    rw [foldlM_ok_iff Represents.empty]
    simp only [List.isEmpty_iff] at some
    simp [some, fresh]

end MultiSniCertResolver

/-- The material of an entry is loaded exactly if an acceptor could be built from its
files alone. -/
theorem certifyEntry_ok_iff {disk : Disk} {entry : SniEntry} :
    (∃ cert, certifyEntry disk entry = .ok cert) ↔
    (buildAcceptor disk entry.2.2).isOk = true := by
  obtain ⟨sni, tenantName, cfg⟩ := entry
  simp only [certifyEntry, buildAcceptor]
  cases disk.loadCertChain cfg.cert with
  | error message => simp [withContext, bind, Except.bind, Except.isOk, Except.toBool]
  | ok chain =>
      cases empty : chain.isEmpty with
      | true =>
          simp [withContext, nonemptyChain, empty, bind, Except.bind, Except.isOk, Except.toBool]
      | false =>
          cases disk.loadPrivateKey cfg.key with
          | error message =>
              simp [withContext, nonemptyChain, empty, bind, Except.bind,
                Except.isOk, Except.toBool]
          | ok key =>
              cases supported : disk.anySupportedType key <;>
                simp [withContext, nonemptyChain, empty, supported, bind, Except.bind, pure,
                  Except.pure, Except.isOk, Except.toBool]

/-- A rebuild succeeds exactly for a nonempty set of distinct, well-formed hostnames
whose files load. -/
theorem buildMultiSniAcceptor_ok_iff {disk : Disk} {entries : List SniEntry} :
    (∃ acceptor, buildMultiSniAcceptor disk entries = .ok acceptor) ↔
      entries ≠ [] ∧ (entries.map Prod.fst).Nodup ∧
        ∀ entry ∈ entries, acceptsPattern entry.1 = true ∧
          (buildAcceptor disk entry.2.2).isOk = true := by
  constructor
  · rintro ⟨acceptor, built⟩
    obtain ⟨certified, loaded, built⟩ := bind_eq_ok.mp built
    obtain ⟨nonempty, distinct, patterns⟩ :=
      MultiSniCertResolver.new_ok_iff.mp ⟨acceptor, built⟩
    have hostnames : certified.map SniTenantCert.sni = entries.map Prod.fst :=
      map_of_mapM_eq_ok (fun one => (certifyEntry_spec one).1) loaded
    refine ⟨?_, hostnames ▸ distinct, ?_⟩
    · rintro rfl
      have length := length_of_mapM_eq_ok loaded
      exact nonempty (List.eq_nil_of_length_eq_zero length)
    · intro entry member
      obtain ⟨cert, certMember, one⟩ := exists_mem_of_mapM_eq_ok loaded member
      refine ⟨?_, certifyEntry_ok_iff.mp ⟨cert, one⟩⟩
      rw [← (certifyEntry_spec one).1]
      exact patterns cert certMember
  · rintro ⟨nonempty, distinct, accepted⟩
    obtain ⟨certified, loaded⟩ : ∃ certified,
      entries.mapM (certifyEntry disk) = .ok certified :=
      mapM_ok_of_forall fun entry member => certifyEntry_ok_iff.mpr (accepted entry member).2
    have hostnames : certified.map SniTenantCert.sni = entries.map Prod.fst :=
      map_of_mapM_eq_ok (fun one => (certifyEntry_spec one).1) loaded
    have length := length_of_mapM_eq_ok loaded
    obtain ⟨acceptor, built⟩ : ∃ acceptor,
      MultiSniCertResolver.new certified = .ok acceptor := by
      refine MultiSniCertResolver.new_ok_iff.mpr ⟨?_, hostnames.symm ▸ distinct, ?_⟩
      · rintro rfl
        exact nonempty (List.eq_nil_of_length_eq_zero length.symm)
      · intro cert member
        obtain ⟨entry, entryMember, one⟩ := exists_of_mem_mapM_eq_ok loaded member
        rw [(certifyEntry_spec one).1]
        exact (accepted entry entryMember).1
    exact ⟨acceptor, bind_eq_ok.mpr ⟨certified, loaded, built⟩⟩

namespace TlsReloadTrigger

variable {disk : Disk} {trigger : TlsReloadTrigger} {label sni : String} {cfg : TlsConfig}

/-- An addition under a new label to a set that builds with it succeeds. -/
theorem addSniEntry_succeeds {acceptor : MultiSniCertResolver}
    (unused : ∀ entry ∈ trigger.entries, entry.1 ≠ label)
    (built : buildMultiSniAcceptor disk (trigger.entries ++ [(label, sni, cfg)]) = .ok acceptor) :
    trigger.addSniEntry disk label sni cfg =
      ({ trigger with entries := trigger.entries ++ [(label, sni, cfg)], acceptor },
        .ok trigger.acceptor) := by
  have absent : (trigger.entries.any fun entry => entry.1 = label) = false := by
    simpa using unused
  have reloaded : reload disk { trigger with entries := trigger.entries ++ [(label, sni, cfg)] } =
      ({ trigger with entries := trigger.entries ++ [(label, sni, cfg)], acceptor },
        .ok trigger.acceptor) := reload_of_built built
  simp only [addSniEntry, absent, reloaded]
  rfl

/-- A removal of a label from a set that builds without it succeeds. -/
theorem removeSniEntry_succeeds {acceptor : MultiSniCertResolver}
    (listed : ∃ entry ∈ trigger.entries, entry.1 = label)
    (built : buildMultiSniAcceptor disk
      (trigger.entries.eraseP fun entry => entry.1 = label) = .ok acceptor) :
    trigger.removeSniEntry disk label =
      ({ trigger with entries := trigger.entries.eraseP (fun entry => entry.1 = label), acceptor },
        .ok trigger.acceptor) := by
  have reloaded : reload disk
      { trigger with entries := trigger.entries.eraseP fun entry => entry.1 = label } =
      ({ trigger with entries := trigger.entries.eraseP (fun entry => entry.1 = label), acceptor },
        .ok trigger.acceptor) := reload_of_built built
  simp only [removeSniEntry]
  split
  · rename_i absent
    obtain ⟨entry, member, same⟩ := listed
    have different := List.find?_eq_none.mp absent entry member
    simp [same] at different
  · simp only [reloaded]

end TlsReloadTrigger
end CofreSoberano.Gateway

import Mathlib.Data.List.Nodup

/-!
# Finite maps with distinct keys

A finite map is a list of key-value pairs whose keys are distinct; the
distinctness is part of the value. The order of the pairs carries no meaning:
`get?_eq_some_iff` reads a map as the set of its pairs.
-/

namespace CofreSoberano.Std

/-- A finite map from `K` to `V`. -/
structure KeyedMap (K V : Type) where
  entries : List (K × V)
  distinct : (entries.map Prod.fst).Nodup

namespace KeyedMap

variable {K V : Type}

instance [DecidableEq K] [DecidableEq V] : DecidableEq (KeyedMap K V) := fun left right =>
  decidable_of_iff (left.entries = right.entries)
    ⟨fun same => by cases left; cases right; cases same; rfl, fun same => congrArg entries same⟩

/-- The map without pairs. -/
def empty : KeyedMap K V := ⟨[], List.nodup_nil⟩

/-- The number of pairs. -/
def len (map : KeyedMap K V) : Nat := map.entries.length

/-- The values, in no meaningful order. -/
def values (map : KeyedMap K V) : List V := map.entries.map Prod.snd

/-- The keys, in no meaningful order; each stands once. -/
def keys (map : KeyedMap K V) : List K := map.entries.map Prod.fst

@[simp] theorem keys_empty : (empty : KeyedMap K V).keys = [] := rfl

/-- Keep the pairs that satisfy a test. -/
def retain (map : KeyedMap K V) (keep : K → V → Bool) : KeyedMap K V where
  entries := map.entries.filter fun entry => keep entry.1 entry.2
  distinct := map.distinct.sublist (List.filter_sublist.map Prod.fst)

@[simp] theorem mem_retain {map : KeyedMap K V} {keep : K → V → Bool} {entry : K × V} :
    entry ∈ (map.retain keep).entries ↔ entry ∈ map.entries ∧
    keep entry.1 entry.2 = true := by
  simp [retain]

/-- Change every value. -/
def mapValues {W : Type} (map : KeyedMap K V) (change : K → V → W) : KeyedMap K W where
  entries := map.entries.map fun entry => (entry.1, change entry.1 entry.2)
  distinct := by
    rw [List.map_map]
    exact map.distinct

@[simp] theorem keys_mapValues {W : Type} (map : KeyedMap K V) (change : K → V → W) :
    (map.mapValues change).keys = map.keys := by
  simp [keys, mapValues]

variable [DecidableEq K]

/-- The value stored under a key. -/
def get? (map : KeyedMap K V) (key : K) : Option V :=
  (map.entries.find? fun entry => entry.1 = key).map Prod.snd

/-- Forget a key. -/
def erase (map : KeyedMap K V) (key : K) : KeyedMap K V :=
  map.retain fun candidate _ => candidate ≠ key

/-- Store a value under a key, replacing what was there. -/
def insert (map : KeyedMap K V) (key : K) (value : V) : KeyedMap K V where
  entries := (key, value) :: (map.erase key).entries
  distinct := by
    rw [List.map_cons, List.nodup_cons]
    refine ⟨?_, (map.erase key).distinct⟩
    simp [erase, retain]

/-- A key is stored with a value exactly when the pair is in the map. -/
theorem get?_eq_some_iff {map : KeyedMap K V} {key : K} {value : V} :
    map.get? key = some value ↔ (key, value) ∈ map.entries := by
  obtain ⟨entries, distinct⟩ := map
  simp only [get?]
  induction entries with
  | nil => simp
  | cons entry rest inductionHypothesis =>
      obtain ⟨head, stored⟩ := entry
      rw [List.map_cons, List.nodup_cons] at distinct
      have tail := inductionHypothesis distinct.2
      by_cases same : head = key
      · subst head
        have absent : (key, value) ∉ rest := fun member =>
          distinct.1 (List.mem_map.mpr ⟨(key, value), member, rfl⟩)
        simp [absent, eq_comm]
      · simp only [List.find?_cons, same, decide_false, tail, List.mem_cons, Prod.mk.injEq]
        simp [Ne.symm same]

theorem get?_eq_none_iff {map : KeyedMap K V} {key : K} :
    map.get? key = none ↔ ∀ value, (key, value) ∉ map.entries := by
  rw [Option.eq_none_iff_forall_ne_some]
  simp only [ne_eq, get?_eq_some_iff]

@[simp] theorem mem_insert {map : KeyedMap K V} {key : K} {value : V} {entry : K × V} :
    entry ∈ (map.insert key value).entries ↔
      entry = (key, value) ∨ entry ∈ map.entries ∧ entry.1 ≠ key := by
  simp [insert, erase]

theorem get?_insert (map : KeyedMap K V) (key : K) (value : V) (other : K) :
    (map.insert key value).get? other = if other = key then some value else map.get? other := by
  apply Option.ext
  intro stored
  rw [get?_eq_some_iff, mem_insert]
  split
  · simp_all [eq_comm]
  · simp_all [get?_eq_some_iff]

@[simp] theorem get?_insert_self (map : KeyedMap K V) (key : K) (value : V) :
    (map.insert key value).get? key = some value := by
  rw [get?_insert, if_pos rfl]

@[simp] theorem mem_erase {map : KeyedMap K V} {key : K} {entry : K × V} :
    entry ∈ (map.erase key).entries ↔ entry ∈ map.entries ∧ entry.1 ≠ key := by
  simp [erase]

theorem get?_erase (map : KeyedMap K V) (key other : K) :
    (map.erase key).get? other = if other = key then none else map.get? other := by
  apply Option.ext
  intro stored
  rw [get?_eq_some_iff, mem_erase]
  split
  · simp_all
  · simp_all [get?_eq_some_iff]

theorem get?_retain (map : KeyedMap K V) (keep : K → V → Bool) (key : K) :
    (map.retain keep).get? key = (map.get? key).filter (keep key) := by
  apply Option.ext
  intro value
  rw [get?_eq_some_iff, mem_retain, Option.filter_eq_some_iff, get?_eq_some_iff]

theorem get?_mapValues {W : Type} (map : KeyedMap K V) (change : K → V → W) (key : K) :
    (map.mapValues change).get? key = (map.get? key).map (change key) := by
  apply Option.ext
  intro value
  simp only [get?_eq_some_iff, mapValues, List.mem_map, Prod.mk.injEq, Prod.exists,
    Option.map_eq_some_iff]
  constructor
  · rintro ⟨stored, old, member, rfl, rfl⟩
    exact ⟨old, member, rfl⟩
  · rintro ⟨old, member, rfl⟩
    exact ⟨key, old, member, rfl, rfl⟩

theorem mem_keys_iff {map : KeyedMap K V} {key : K} :
    key ∈ map.keys ↔ ∃ value, map.get? key = some value := by
  simp [keys, get?_eq_some_iff]

theorem get?_eq_none_iff_notMem {map : KeyedMap K V} {key : K} :
    map.get? key = none ↔ key ∉ map.keys := by
  rw [mem_keys_iff, Option.eq_none_iff_forall_ne_some]
  simp

@[simp] theorem mem_keys_insert {map : KeyedMap K V} {key other : K} {value : V} :
    other ∈ (map.insert key value).keys ↔ other = key ∨ other ∈ map.keys := by
  simp only [mem_keys_iff, get?_insert]
  split <;> simp_all

@[simp] theorem mem_keys_erase {map : KeyedMap K V} {key other : K} :
    other ∈ (map.erase key).keys ↔ other ∈ map.keys ∧ other ≠ key := by
  simp only [mem_keys_iff, get?_erase]
  split <;> simp_all

theorem mem_values_iff {map : KeyedMap K V} {value : V} :
    value ∈ map.values ↔ ∃ key, map.get? key = some value := by
  simp [values, get?_eq_some_iff]

end KeyedMap
end CofreSoberano.Std

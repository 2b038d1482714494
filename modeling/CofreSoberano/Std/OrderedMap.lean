import Mathlib.Data.String.Basic

/-!
# Finite maps in key order

A map kept as its pairs in strictly increasing key order, so that two maps with
the same content are equal and are written to bytes in one way.
-/

namespace CofreSoberano.Std

/-- A finite map whose pairs stand in the order of their keys. -/
structure OrderedMap (K V : Type) [LinearOrder K] where
  entries : List (K × V)
  sorted : entries.Pairwise fun left right => left.1 < right.1

namespace OrderedMap

variable {K V : Type} [LinearOrder K]

instance [DecidableEq V] : DecidableEq (OrderedMap K V) := fun left right =>
  decidable_of_iff (left.entries = right.entries)
    ⟨fun same => by cases left; cases right; cases same; rfl, fun same => congrArg entries same⟩

/-- The map without pairs. -/
def empty : OrderedMap K V := ⟨[], .nil⟩

/-- Put a pair in its place, replacing a pair with the same key. -/
def place (key : K) (value : V) : List (K × V) → List (K × V)
  | [] => [(key, value)]
  | entry :: rest =>
      if key < entry.1 then (key, value) :: entry :: rest
      else if key = entry.1 then (key, value) :: rest
      else entry :: place key value rest

theorem mem_place {key : K} {value : V} {entries : List (K × V)} {entry : K × V}
    (member : entry ∈ place key value entries) : entry = (key, value) ∨ entry ∈ entries := by
  induction entries with
  | nil => simpa [place] using member
  | cons head rest inductionHypothesis =>
      simp only [place] at member
      split at member
      · simpa using member
      · split at member
        · rcases List.mem_cons.mp member with same | later
          · exact .inl same
          · exact .inr (List.mem_cons_of_mem _ later)
        · rcases List.mem_cons.mp member with same | later
          · exact .inr (by simp [same])
          · exact (inductionHypothesis later).imp_right (List.mem_cons_of_mem _)

theorem place_sorted {key : K} {value : V} {entries : List (K × V)}
    (sorted : entries.Pairwise fun left right => left.1 < right.1) :
    (place key value entries).Pairwise fun left right => left.1 < right.1 := by
  induction sorted with
  | nil => simp [place]
  | @cons head rest below sorted inductionHypothesis =>
      simp only [place]
      split
      · rename_i before
        refine .cons ?_ (.cons below sorted)
        intro entry member
        rcases List.mem_cons.mp member with rfl | later
        · exact before
        · exact before.trans (below entry later)
      · split
        · rename_i same
          exact .cons (fun entry member => same ▸ below entry member) sorted
        · rename_i notBefore different
          have after : head.1 < key := lt_of_le_of_ne (not_lt.mp notBefore) (Ne.symm different)
          refine .cons ?_ inductionHypothesis
          intro entry member
          rcases mem_place member with rfl | later
          · exact after
          · exact below entry later

/-- Store a value under a key. -/
def insert (map : OrderedMap K V) (key : K) (value : V) : OrderedMap K V :=
  ⟨place key value map.entries, place_sorted map.sorted⟩

/-- The value stored under a key. -/
def get? (map : OrderedMap K V) (key : K) : Option V :=
  (map.entries.find? fun entry => entry.1 = key).map Prod.snd

/-- A stored value is found, and storing it hides no other key. -/
theorem get?_insert (map : OrderedMap K V) (key other : K) (value : V) :
    (map.insert key value).get? other = if other = key then some value else map.get? other := by
  obtain ⟨entries, sorted⟩ := map
  simp only [get?, insert]
  induction sorted with
  | nil => by_cases same : other = key <;> simp [place, same, eq_comm]
  | @cons head rest below sorted inductionHypothesis =>
      simp only [place]
      by_cases same : other = key
      · subst same
        split
        · simp
        · split
          · simp
          · rename_i different
            rw [List.find?_cons_of_neg (by simpa using Ne.symm different)]
            simpa using inductionHypothesis
      · have apart : key ≠ other := Ne.symm same
        split
        · simp [apart]
        · split
          · rename_i equal
            simp [apart, ← equal]
          · by_cases found : head.1 = other
            · simp [found]
            · rw [List.find?_cons_of_neg (by simpa using found), inductionHypothesis]
              simp [found, same]

end OrderedMap
end CofreSoberano.Std

import Mathlib.Algebra.Group.Nat.Defs
import Mathlib.Data.Nat.Log
import Mathlib.Data.Nat.Size

/-!
# Merkle mountain ranges

Two ways to hash a list with a leaf and a node function. `mth` splits the list at
the largest power of two below its length and recurses. A range of peaks takes the
values one by one: a carry runs up the peaks as in a binary counter, and bagging
joins the peaks from the lowest up. `Peaks` ties a range to the list it was built
from; it makes the range a binary counter, each peak the hash of its own block, and
the bagged peaks the hash of the list.
-/

namespace CofreSoberano.Std

section Hashing

variable {C H : Type} (leaf : C → H) (node : H → H → H) (zero : H)

/-- The largest power of two below `count`, for a count of two or more. -/
def splitPoint (count : Nat) : Nat := 2 ^ Nat.log 2 (count - 1)

theorem splitPoint_pos (count : Nat) : 0 < splitPoint count := Nat.two_pow_pos _

theorem splitPoint_lt {count : Nat} (two : 2 ≤ count) : splitPoint count < count := by
  have below : splitPoint count ≤ count - 1 := Nat.pow_log_le_self 2 (by omega)
  omega

/-- A power of two and at most as much again splits at that power. -/
theorem splitPoint_eq {level rest : Nat} (positive : 0 < rest) (atMost : rest ≤ 2 ^ level) :
    splitPoint (2 ^ level + rest) = 2 ^ level := by
  have height : Nat.log 2 (2 ^ level + rest - 1) = level := by
    refine (Nat.log_eq_iff (.inr ⟨by omega, by have := Nat.two_pow_pos level; omega⟩)).mpr
      ⟨by omega, ?_⟩
    rw [Nat.pow_succ]
    omega
  rw [splitPoint, height]

/-- The Merkle tree hash of a list. -/
def mth (contents : List C) : H :=
  match contents with
  | [] => zero
  | [content] => leaf content
  | first :: second :: rest =>
      let split := splitPoint (rest.length + 2)
      node (mth ((first :: second :: rest).take split)) (mth ((first :: second :: rest).drop split))
termination_by contents.length
decreasing_by
  · have below : splitPoint (rest.length + 2) < rest.length + 2 := splitPoint_lt (by omega)
    rw [List.length_take]
    simp only [List.length_cons]
    omega
  · have above := splitPoint_pos (rest.length + 2)
    rw [List.length_drop]
    simp only [List.length_cons]
    omega

@[simp] theorem mth_nil : mth leaf node zero [] = zero := by
  rw [mth]

@[simp] theorem mth_singleton (content : C) : mth leaf node zero [content] = leaf content := by
  rw [mth]

/-- The hash of two or more values is that of the two parts of the list. -/
theorem mth_split {contents : List C} (two : 2 ≤ contents.length) :
    mth leaf node zero contents =
      node (mth leaf node zero (contents.take (splitPoint contents.length)))
        (mth leaf node zero (contents.drop (splitPoint contents.length))) := by
  rcases contents with _ | ⟨first, _ | ⟨second, rest⟩⟩
  · cases two
  · exact absurd two (by simp)
  · rw [mth]
    rfl

/-- The pairs of hashes that are joined on the way to the hash of a list. -/
def mthJoins (contents : List C) : List (H × H) :=
  if 2 ≤ contents.length then
    let front := contents.take (splitPoint contents.length)
    let back := contents.drop (splitPoint contents.length)
    (mth leaf node zero front, mth leaf node zero back) :: (mthJoins front ++ mthJoins back)
  else []
termination_by contents.length
decreasing_by
  · have below : splitPoint contents.length < contents.length := splitPoint_lt (by omega)
    rw [List.length_take]
    omega
  · have above := splitPoint_pos contents.length
    rw [List.length_drop]
    omega

/-- The hash tells apart the leaves and the pairs it is applied to, leaves from
pairs, and both from the hash of nothing. -/
structure Unambiguous (leaves : C → Prop) (joins : H × H → Prop) : Prop where
  leaf_inj : ∀ left right, leaves left → leaves right → leaf left = leaf right →
    left = right
  node_inj : ∀ left right, joins left → joins right →
    node left.1 left.2 = node right.1 right.2 → left = right
  apart : ∀ content pair, leaves content → joins pair → leaf content ≠ node pair.1 pair.2
  leaf_ne_zero : ∀ content, leaves content → leaf content ≠ zero
  node_ne_zero : ∀ pair, joins pair → node pair.1 pair.2 ≠ zero

/-- All the values and pairs that the hash of a list is applied to. -/
def HashedFrom (leaves : C → Prop) (joins : H × H → Prop) (contents : List C) : Prop :=
  (∀ content ∈ contents, leaves content) ∧ ∀ pair ∈ mthJoins leaf node zero contents,
  joins pair

/-- A full block in front of at most as many values is the left child. -/
theorem mth_append {level : Nat} {front back : List C} (full : front.length = 2 ^ level)
    (nonempty : back ≠ []) (atMost : back.length ≤ 2 ^ level) :
    mth leaf node zero (front ++ back) =
      node (mth leaf node zero front) (mth leaf node zero back) := by
  have some := List.length_pos_iff.mpr nonempty
  have block := Nat.two_pow_pos level
  have length : (front ++ back).length = 2 ^ level + back.length := by
    rw [List.length_append, full]
  rw [mth_split leaf node zero (by omega), length, splitPoint_eq some atMost, ← full,
    List.take_left, List.drop_left]

/-- The hash of a perfect tree over `2 ^ level` values. -/
def perfectRoot : Nat → List C → H
  | 0, contents => contents.head?.elim zero leaf
  | level + 1, contents =>
      node (perfectRoot level (contents.take (2 ^ level)))
      (perfectRoot level (contents.drop (2 ^ level)))

/-- A full block is hashed as a perfect tree. -/
theorem perfectRoot_eq_mth {level : Nat} {contents : List C} (full : contents.length = 2 ^ level) :
    perfectRoot leaf node zero level contents = mth leaf node zero contents := by
  induction level generalizing contents with
  | zero =>
      obtain ⟨content, rfl⟩ := List.length_eq_one_iff.mp full
      rw [mth_singleton]
      rfl
  | succ level inductionHypothesis =>
      rw [Nat.pow_succ] at full
      have front : (contents.take (2 ^ level)).length = 2 ^ level := by
        rw [List.length_take]
        omega
      have back : (contents.drop (2 ^ level)).length = 2 ^ level := by
        rw [List.length_drop]
        omega
      have nonempty : contents.drop (2 ^ level) ≠ [] := by
        rw [← List.length_pos_iff, back]
        exact Nat.two_pow_pos level
      have joined := mth_append leaf node zero front nonempty back.le
      rw [List.take_append_drop] at joined
      rw [perfectRoot, inductionHypothesis front, inductionHypothesis back, joined]

/-- A carry runs up a range to the first free level, joining every peak below. -/
def pushPeak : H → List (Option H) → List (Option H)
  | carry, [] => [some carry]
  | carry, none :: rest => some carry :: rest
  | carry, some left :: rest => none :: pushPeak (node left carry) rest

/-- Bagging: a higher peak stands to the left of everything below it. -/
def bagPeaks : Option H → List (Option H) → Option H
  | lower, [] => lower
  | lower, none :: rest => bagPeaks lower rest
  | lower, some peak :: rest => bagPeaks (some (lower.elim peak (node peak))) rest

/-- The peaks from `level` on are the hashes of consecutive blocks of a list, the
highest in front, each twice as long as the one below it. -/
inductive Peaks : Nat → List (Option H) → List C → Prop where
  | nil {level : Nat} : Peaks level [] []
  | free {level : Nat} {rest : List (Option H)} {contents : List C}
      (above : Peaks (level + 1) rest contents) (nonempty : contents ≠ []) :
      Peaks level (none :: rest) contents
  | peak {level : Nat} {rest : List (Option H)} {contents block : List C}
      (above : Peaks (level + 1) rest contents) (full : block.length = 2 ^ level) :
      Peaks level (some (mth leaf node zero block) :: rest) (contents ++ block)

variable {leaf node zero}

/-- The two parts of a list of two or more values, and the pair that joins them. -/
theorem HashedFrom.parts {leaves : C → Prop} {joins : H × H → Prop} {contents : List C}
    (hashed : HashedFrom leaf node zero leaves joins contents) (two : 2 ≤ contents.length) :
    joins (mth leaf node zero (contents.take (splitPoint contents.length)),
        mth leaf node zero (contents.drop (splitPoint contents.length))) ∧
      HashedFrom leaf node zero leaves joins (contents.take (splitPoint contents.length)) ∧
      HashedFrom leaf node zero leaves joins (contents.drop (splitPoint contents.length)) := by
  obtain ⟨isLeaf, isJoin⟩ := hashed
  rw [mthJoins, if_pos two] at isJoin
  simp only [List.forall_mem_cons, List.forall_mem_append] at isJoin
  obtain ⟨top, front, back⟩ := isJoin
  exact ⟨top, ⟨fun content member => isLeaf content (List.mem_of_mem_take member), front⟩,
    fun content member => isLeaf content (List.mem_of_mem_drop member), back⟩

/-- An unambiguous hash determines the list, whatever its length. -/
theorem mth_inj {leaves : C → Prop} {joins : H × H → Prop}
    (unambiguous : Unambiguous leaf node zero leaves joins) {left right : List C}
    (leftHashed : HashedFrom leaf node zero leaves joins left)
    (rightHashed : HashedFrom leaf node zero leaves joins right)
    (same : mth leaf node zero left = mth leaf node zero right) : left = right := by
  -- Which of three shapes a list has is visible in its hash.
  have shape : ∀ contents : List C, contents = [] ∨ (∃ content, contents = [content]) ∨
      2 ≤ contents.length := by
    rintro (_ | ⟨content, _ | ⟨next, rest⟩⟩)
    · exact .inl rfl
    · exact .inr (.inl ⟨content, rfl⟩)
    · exact .inr (.inr (by simp))
  induction count : left.length using Nat.strong_induction_on generalizing left right with
  | _ count inductionHypothesis =>
    rcases shape left with rfl | ⟨leftContent, rfl⟩ | leftTwo <;>
      rcases shape right with rfl | ⟨rightContent, rfl⟩ | rightTwo
    · rfl
    · rw [mth_nil, mth_singleton] at same
      exact absurd same.symm (unambiguous.leaf_ne_zero _ (rightHashed.1 _ (by simp)))
    · rw [mth_nil, mth_split leaf node zero rightTwo] at same
      exact absurd same.symm (unambiguous.node_ne_zero _ (rightHashed.parts rightTwo).1)
    · rw [mth_nil, mth_singleton] at same
      exact absurd same (unambiguous.leaf_ne_zero _ (leftHashed.1 _ (by simp)))
    · rw [mth_singleton, mth_singleton] at same
      rw [unambiguous.leaf_inj _ _ (leftHashed.1 _ (by simp)) (rightHashed.1 _ (by simp)) same]
    · rw [mth_singleton, mth_split leaf node zero rightTwo] at same
      exact absurd same (unambiguous.apart _ _ (leftHashed.1 _ (by simp))
        (rightHashed.parts rightTwo).1)
    · rw [mth_nil, mth_split leaf node zero leftTwo] at same
      exact absurd same (unambiguous.node_ne_zero _ (leftHashed.parts leftTwo).1)
    · rw [mth_singleton, mth_split leaf node zero leftTwo] at same
      exact absurd same.symm (unambiguous.apart _ _ (rightHashed.1 _ (by simp))
        (leftHashed.parts leftTwo).1)
    · obtain ⟨leftJoin, leftFront, leftBack⟩ := leftHashed.parts leftTwo
      obtain ⟨rightJoin, rightFront, rightBack⟩ := rightHashed.parts rightTwo
      rw [mth_split leaf node zero leftTwo, mth_split leaf node zero rightTwo] at same
      obtain ⟨sameFront, sameBack⟩ := Prod.mk.inj
        (unambiguous.node_inj _ _ leftJoin rightJoin same)
      have below := splitPoint_lt leftTwo
      have above := splitPoint_pos left.length
      have front := inductionHypothesis _ (by rw [← count, List.length_take]; omega)
        leftFront rightFront sameFront rfl
      have back := inductionHypothesis _ (by rw [← count, List.length_drop]; omega)
        leftBack rightBack sameBack rfl
      rw [← List.take_append_drop (splitPoint left.length) left, front, back,
        List.take_append_drop]

/-- One more block of the lowest level. -/
theorem Peaks.push {level : Nat} {peaks : List (Option H)} {contents block : List C}
    (range : Peaks leaf node zero level peaks contents) (full : block.length = 2 ^ level) :
    Peaks leaf node zero level (pushPeak node (mth leaf node zero block) peaks)
      (contents ++ block) := by
  induction range generalizing block with
  | nil => exact .peak .nil full
  | free above _ _ => exact .peak above full
  | @peak level rest contents left above leftFull inductionHypothesis =>
      have block' : block ≠ [] := by
        rw [← List.length_pos_iff, full]
        exact Nat.two_pow_pos level
      have joined := mth_append leaf node zero leftFull block' full.le
      rw [pushPeak, ← joined, List.append_assoc]
      refine .free (inductionHypothesis ?_) (by simp [block'])
      rw [List.length_append, leftFull, full, Nat.pow_succ]
      omega

/-- What is below a range becomes the right end of the bagged hash. -/
theorem Peaks.bag_lower {level : Nat} {peaks : List (Option H)} {contents lower : List C}
    (range : Peaks leaf node zero level peaks contents) (nonempty : lower ≠ [])
    (atMost : lower.length ≤ 2 ^ level) :
    bagPeaks node (some (mth leaf node zero lower)) peaks =
      some (mth leaf node zero (contents ++ lower)) := by
  induction range generalizing lower with
  | nil => rfl
  | free above _ inductionHypothesis =>
      exact inductionHypothesis nonempty (by rw [Nat.pow_succ]; omega)
  | @peak level rest contents block above full inductionHypothesis =>
      rw [bagPeaks, Option.elim_some, ← mth_append leaf node zero full nonempty atMost,
        inductionHypothesis (by simp [nonempty]), List.append_assoc]
      rw [List.length_append, full, Nat.pow_succ]
      omega

/-- The bagged peaks of a range are the hash of its list. -/
theorem Peaks.bag {level : Nat} {peaks : List (Option H)} {contents : List C}
    (range : Peaks leaf node zero level peaks contents) (nonempty : contents ≠ []) :
    bagPeaks node none peaks = some (mth leaf node zero contents) := by
  induction range with
  | nil => exact absurd rfl nonempty
  | free above someAbove inductionHypothesis => exact inductionHypothesis someAbove
  | @peak level rest contents block above full _ =>
      have block' : block ≠ [] := by
        rw [← List.length_pos_iff, full]
        exact Nat.two_pow_pos level
      exact above.bag_lower block' (by rw [full, Nat.pow_succ]; omega)

/-- A range is a binary counter of the blocks of its lowest level, without leading
zeros. -/
theorem Peaks.counts {level : Nat} {peaks : List (Option H)} {contents : List C}
    (range : Peaks leaf node zero level peaks contents) :
    ∃ count, contents.length = 2 ^ level * count ∧ peaks.length = count.size ∧
      ∀ i, peaks[i]?.join.isSome = count.testBit i := by
  induction range with
  | nil => exact ⟨0, by simp, by simp, by simp⟩
  | @free level rest contents above nonempty inductionHypothesis =>
      obtain ⟨count, length, size, bits⟩ := inductionHypothesis
      have positive : count ≠ 0 := by
        rintro rfl
        exact nonempty (List.length_eq_zero_iff.mp (by rw [length, Nat.mul_zero]))
      refine ⟨Nat.bit false count, ?_, ?_, ?_⟩
      · rw [length, Nat.pow_succ, Nat.mul_assoc]
        rfl
      · rw [Nat.size_bit (Nat.bit_ne_zero false positive), ← size]
        rfl
      · rintro (_ | i)
        · simp
        · rw [Nat.testBit_bit_succ]
          exact bits i
  | @peak level rest contents block above full inductionHypothesis =>
      obtain ⟨count, length, size, bits⟩ := inductionHypothesis
      refine ⟨Nat.bit true count, ?_, ?_, ?_⟩
      · rw [List.length_append, length, full, Nat.pow_succ, Nat.mul_assoc]
        exact (Nat.mul_succ _ _).symm
      · rw [Nat.size_bit (by simp [Nat.bit]), ← size]
        rfl
      · rintro (_ | i)
        · simp
        · rw [Nat.testBit_bit_succ]
          exact bits i

/-- The peak of a slot is the hash of a block of the list. The blocks of higher
slots are all that stands before it. -/
theorem Peaks.block {level : Nat} {peaks : List (Option H)} {contents : List C}
    (range : Peaks leaf node zero level peaks contents) {i : Nat} {hash : H}
    (found : peaks[i]? = some (some hash)) :
    ∃ before block after, contents = before ++ block ++ after ∧
      block.length = 2 ^ (level + i) ∧ hash = mth leaf node zero block ∧
      before.length = contents.length / 2 ^ (level + i + 1) * 2 ^ (level + i + 1) := by
  induction range generalizing i with
  | nil => simp at found
  | @free level rest contents above _ inductionHypothesis =>
      cases i with
      | zero => simp at found
      | succ i =>
          obtain ⟨before, block, after, split, full, isHash, start⟩ := inductionHypothesis found
          have height : level + (i + 1) = level + 1 + i := by omega
          rw [height]
          exact ⟨before, block, after, split, full, isHash, start⟩
  | @peak level rest contents block above full inductionHypothesis =>
      obtain ⟨count, length, _⟩ := above.counts
      have below : 2 ^ level < 2 ^ (level + 1) := Nat.pow_lt_pow_right (by omega) (by omega)
      have quotient : (contents ++ block).length / 2 ^ (level + 1) = count := by
        rw [List.length_append, length, full, Nat.mul_add_div (Nat.two_pow_pos _),
          Nat.div_eq_of_lt below, Nat.add_zero]
      cases i with
      | zero =>
          refine ⟨contents, block, [], by simp, full, ?_, ?_⟩
          · simpa using found.symm
          · rw [Nat.add_zero, quotient, length, Nat.mul_comm]
      | succ i =>
          obtain ⟨before, inner, after, split, innerFull, isHash, start⟩ :=
            inductionHypothesis found
          have height : level + (i + 1) = level + 1 + i := by omega
          have exponent : level + 1 + i + 1 = level + 1 + (i + 1) := by omega
          rw [height]
          refine ⟨before, inner, after ++ block, by simp [split], innerFull, isHash, ?_⟩
          rw [start, exponent, Nat.pow_add 2 (level + 1) (i + 1), ← Nat.div_div_eq_div_mul,
            ← Nat.div_div_eq_div_mul, quotient, length,
            Nat.mul_div_cancel_left _ (Nat.two_pow_pos _)]

end Hashing
end CofreSoberano.Std

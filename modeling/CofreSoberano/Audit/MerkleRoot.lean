import CofreSoberano.Audit.Merkle
import CofreSoberano.Std.MountainRange
import Mathlib.Data.List.Induction

/-!
# The root of the audit tree

`append` and `root` keep a mountain range. Its root is the Merkle tree hash of
RFC 6962 over the contents appended so far, and its frontier the binary
representation of their number.
-/

namespace CofreSoberano.Audit

open CofreSoberano.Std

namespace MerkleTree

/-- The carry of `append` is that of a mountain range. -/
theorem carryInto_eq_pushPeak (crates : Crates) (carry : Hash) (peaks : List (Option Hash)) :
    carryInto crates carry peaks = pushPeak (nodeHash crates) carry peaks := by
  induction peaks generalizing carry with
  | nil => rfl
  | cons slot rest inductionHypothesis =>
      cases slot with
      | none => rfl
      | some left => rw [carryInto, pushPeak, inductionHypothesis]

/-- The fold of `root` bags a mountain range. -/
theorem bag_eq_bagPeaks (crates : Crates) (peaks : List (Option Hash)) :
    bag crates peaks = bagPeaks (nodeHash crates) none peaks := by
  have fold : ∀ lower : Option Hash, (peaks.filterMap id).foldl
      (fun acc peak => some (acc.elim peak (nodeHash crates peak))) lower =
        bagPeaks (nodeHash crates) lower peaks := by
    induction peaks with
    | nil => exact fun _ => rfl
    | cons slot rest inductionHypothesis =>
        intro lower
        cases slot with
        | none => exact inductionHypothesis lower
        | some peak =>
            rw [bagPeaks, ← inductionHypothesis]
            cases lower <;> rfl
  rw [← fold none, bag]
  congr
  funext acc peak
  cases acc <;> rfl

@[simp] theorem count_ofContents (crates : Crates) (contents : List Hash) :
    (ofContents crates contents).count = contents.length := by
  induction contents using List.reverseRecOn with
  | nil => rfl
  | append_singleton contents content inductionHypothesis =>
      rw [ofContents_concat, append, inductionHypothesis, List.length_append]
      rfl

/-- The frontier is the range of the contents. -/
theorem peaks_ofContents (crates : Crates) (contents : List Hash) :
    Peaks (leafHash crates) (nodeHash crates) zeroHash 0 (ofContents crates contents).frontier
      contents := by
  induction contents using List.reverseRecOn with
  | nil => exact .nil
  | append_singleton contents content inductionHypothesis =>
      rw [ofContents_concat, append, carryInto_eq_pushPeak,
        ← mth_singleton (leafHash crates) (nodeHash crates) zeroHash content]
      exact inductionHypothesis.push rfl

/-- The root of the contents appended so far is their Merkle tree hash. -/
theorem root_ofContents (crates : Crates) (contents : List Hash) :
    (ofContents crates contents).root crates =
      mth (leafHash crates) (nodeHash crates) zeroHash contents := by
  rw [root, count_ofContents, bag_eq_bagPeaks]
  split
  · rename_i none
    rw [List.length_eq_zero_iff.mp none, mth_nil]
  · rename_i some
    rw [(peaks_ofContents crates contents).bag (fun empty => some (by rw [empty]; rfl))]
    rfl

/-- Folding `append` over any contents (fewer than `2 ^ 64`, where the source counts
them in a `u64`) counts them, keeps one peak for each bit of
that count, which is the perfect tree over its own block of the contents, and has
their Merkle tree hash as its root. The fallback of `root` is not reached. -/
theorem merkleTree_is_rfc6962 (crates : Crates) (contents : List Hash) :
    (ofContents crates contents).count = contents.length ∧
      (ofContents crates contents).frontier.length = contents.length.size ∧
      (∀ i < (ofContents crates contents).frontier.length,
        (ofContents crates contents).frontier[i]? =
          some (if contents.length.testBit i then
            some (perfectRoot (leafHash crates) (nodeHash crates) zeroHash i
              ((contents.drop (contents.length / 2 ^ (i + 1) * 2 ^ (i + 1))).take (2 ^ i)))
          else none)) ∧
      (ofContents crates contents).root crates =
        mth (leafHash crates) (nodeHash crates) zeroHash contents ∧
      (0 < (ofContents crates contents).count →
        (bag crates (ofContents crates contents).frontier).isSome = true) := by
  have range := peaks_ofContents crates contents
  obtain ⟨count, length, size, bits⟩ := range.counts
  rw [Nat.pow_zero, Nat.one_mul] at length
  subst length
  refine ⟨count_ofContents crates contents, size, ?_, root_ofContents crates contents, ?_⟩
  · intro i inside
    have bit := bits i
    rw [List.getElem?_eq_getElem inside, Option.join_some] at bit
    rw [List.getElem?_eq_getElem inside, ← bit]
    cases slot : (ofContents crates contents).frontier[i] with
    | none => rfl
    | some hash =>
        obtain ⟨before, block, after, split, full, isHash, start⟩ :=
          range.block (by rw [List.getElem?_eq_getElem inside, slot])
        rw [Nat.zero_add] at full start
        have found : (contents.drop (contents.length / 2 ^ (i + 1) * 2 ^ (i + 1))).take (2 ^ i) =
            block := by
          rw [← start, ← full]
          conv_lhs => rw [split]
          rw [List.append_assoc, List.drop_left, List.take_left]
        rw [found, perfectRoot_eq_mth _ _ _ full, isHash]
        rfl
  · intro positive
    rw [count_ofContents] at positive
    rw [bag_eq_bagPeaks, range.bag (List.length_pos_iff.mp positive)]
    rfl

end MerkleTree
end CofreSoberano.Audit

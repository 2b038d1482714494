import CofreSoberano.Audit.Signing

/-!
# Merkle mountain range

The append-only tree over content hashes. Only the frontier is kept: slot `i`
holds the root of a perfect subtree of `2^i` leaves that has no sibling yet.
-/

namespace CofreSoberano.Audit

open CofreSoberano.Std

/-- `leaf_hash`. -/
def leafHash (crates : Crates) (content : Hash) : Hash := crates.blake3 (0x00 :: content.1)

/-- `node_hash`. -/
def nodeHash (crates : Crates) (left right : Hash) : Hash :=
  crates.blake3 (0x01 :: (left.1 ++ right.1))

/-- The leaves appended so far and the frontier peaks, lowest level first. -/
structure MerkleTree where
  count : Nat
  frontier : List (Option Hash)
deriving DecidableEq

namespace MerkleTree

/-- `MerkleTree::new`. -/
def new : MerkleTree := ⟨0, []⟩

/-- The loop of `append`: a carry fills the first empty level, combining with
every peak below it. -/
def carryInto (crates : Crates) : Hash → List (Option Hash) → List (Option Hash)
  | carry, [] => [some carry]
  | carry, none :: rest => some carry :: rest
  | carry, some left :: rest => none :: carryInto crates (nodeHash crates left carry) rest

/-- The fold of `root`: higher peaks stand on the left. -/
def bag (crates : Crates) (peaks : List (Option Hash)) : Option Hash :=
  (peaks.filterMap id).foldl
    (fun acc peak => some (match acc with
      | none => peak
      | some lower => nodeHash crates peak lower)) none

/-- `MerkleTree::root`. -/
def root (crates : Crates) (tree : MerkleTree) : Hash :=
  if tree.count = 0 then zeroHash else (bag crates tree.frontier).getD zeroHash

/-- `MerkleTree::append`; the source returns the root of the result. -/
def append (crates : Crates) (tree : MerkleTree) (content : Hash) : MerkleTree where
  count := tree.count + 1
  frontier := carryInto crates (leafHash crates content) tree.frontier

/-- The tree of a list of contents. -/
def ofContents (crates : Crates) (contents : List Hash) : MerkleTree :=
  contents.foldl (append crates) new

@[simp] theorem root_new (crates : Crates) : new.root crates = zeroHash := rfl

@[simp] theorem ofContents_nil (crates : Crates) : ofContents crates [] = new := rfl

@[simp] theorem ofContents_concat (crates : Crates) (contents : List Hash) (content : Hash) :
    ofContents crates (contents ++ [content]) = (ofContents crates contents).append crates
      content := by
  simp [ofContents]

end MerkleTree
end CofreSoberano.Audit

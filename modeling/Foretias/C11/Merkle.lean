import Foretias.Core.Crypto
import Foretias.Library.MerkleTree

/-!
# Merkle range proofs

The C core's Merkle tree: leaves filled up to a power of two with zero nodes, and inner nodes
hashed with a prefix byte. `foretiasMerkleRangeProof` collects, level by level, the siblings that
a range needs on its two sides, and `foretiasMerkleVerifyRangeProof` consumes them in that order.
A read or write outside an array is undefined behaviour in C; here the call has no result then.

The flat array of all tree nodes is the list of its levels. `verifyLevels` also returns the pairs
that it hashes, which no C code returns; assumptions about the hash are about them.
-/

namespace Foretias

/-- Result codes of the C core. -/
inductive ForetiasResult
  | ok
  | errBadSig
  | errBadProof
  | errBadKey
  | errBadInput
  | errOverflow
  | errProofRangeEmpty
  | errProofRangeExceeds
  | errInternal
  deriving DecidableEq

/-- A SHA-256 hash. -/
abbrev ForetiasHash32 := FixedBytes 32

/-- The cast `(int32_t)` of a size. -/
def toInt32 (n : ℕ) : ℤ := (n : ℤ).bmod (2 ^ 32)

theorem toInt32_of_lt {n : ℕ} (h : n < 2 ^ 31) : toInt32 n = n := by
  have hpow : ((2 ^ 32 : ℕ) : ℤ) = 2 * 2 ^ 31 := by decide
  have hlt : (n : ℤ) < 2 ^ 31 := by exact_mod_cast h
  exact Int.bmod_eq_of_le_mul_two (by omega) (by omega)

/-- `MERKLE_MAX_TREE_PADDED`. -/
def merkleMaxTreePadded : ℕ := 128

/-- `FORETIAS_MERKLE_MAX_RANGE_PROOF`. -/
def merkleMaxRangeProof : ℕ := 64

/-- `FORETIAS_MERKLE_MAX_DEPTH`. -/
def merkleMaxDepth : ℕ := 32

/-- `ForetiasMerkleRangeProof`, with its arrays of fixed length. -/
structure ForetiasMerkleRangeProof where
  /-- Leaves of the range. -/
  leaves : Vector ForetiasHash32 merkleMaxRangeProof
  /-- Siblings, from the lowest level up. -/
  siblings : Vector ForetiasHash32 merkleMaxDepth
  /-- Number of leaves in use. -/
  leafCount : ℤ
  /-- Number of siblings in use. -/
  siblingCount : ℤ
  /-- Number of leaves of the tree. -/
  n : ℤ

variable (P : Primitives)

/-- `merkle_node_hash`. -/
def merkleNodeHash (left right : ForetiasHash32) : ForetiasHash32 :=
  P.sha256 (0x01 :: (left.toList ++ right.toList))

/-! ### Sizes -/

/-- The loop of `merkle_next_pow2`, for at most `fuel` doublings. -/
def nextPow2Loop (n : ℕ) : ℕ → ℕ → ℕ
  | 0, p => p
  | fuel + 1, p => if p < n then nextPow2Loop n fuel (2 * p) else p

/-- `merkle_next_pow2`. -/
def merkleNextPow2 (n : ℕ) : ℕ := nextPow2Loop n n 1

/-- The loop of `merkle_log2`, for at most `fuel` halvings. -/
def log2Loop : ℕ → ℕ → ℕ
  | 0, _ => 0
  | fuel + 1, n => if 1 < n then log2Loop fuel (n / 2) + 1 else 0

/-- `merkle_log2`. -/
def merkleLog2 (n : ℕ) : ℕ := log2Loop n n

/-- The loop doubles until the size is reached, and not further. -/
theorem nextPow2Loop_eq {n d fuel : ℕ} (hfuel : n ≤ 2 ^ d * 2 ^ fuel) :
    ∃ m, nextPow2Loop n fuel (2 ^ d) = 2 ^ m ∧ n ≤ 2 ^ m ∧ (m = d ∨ 2 ^ m < 2 * n) := by
  induction fuel generalizing d with
  | zero =>
    rw [pow_zero, Nat.mul_one] at hfuel
    exact ⟨d, rfl, hfuel, .inl rfl⟩
  | succ fuel ih =>
    rw [nextPow2Loop]
    by_cases hlt : 2 ^ d < n
    · rw [if_pos hlt, ← Nat.pow_succ']
      obtain ⟨m, hloop, hle, hm⟩ := ih (d := d + 1) (by
        rwa [Nat.pow_succ, Nat.mul_assoc, ← Nat.pow_succ'])
      refine ⟨m, hloop, hle, .inr ?_⟩
      rcases hm with rfl | hm
      · rw [Nat.pow_succ']
        omega
      · exact hm
    · rw [if_neg hlt]
      exact ⟨d, rfl, Nat.le_of_not_lt hlt, .inl rfl⟩

/-- `merkle_next_pow2` is the first power of two that is not below the size. -/
theorem exists_merkleNextPow2_eq {n : ℕ} (hn : 1 ≤ n) :
    ∃ d, merkleNextPow2 n = 2 ^ d ∧ n ≤ 2 ^ d ∧ 2 ^ d < 2 * n := by
  have hfuel : n ≤ 2 ^ 0 * 2 ^ n := by
    rw [pow_zero, Nat.one_mul]
    exact Nat.lt_two_pow_self.le
  obtain ⟨d, hloop, hle, hd⟩ := nextPow2Loop_eq hfuel
  refine ⟨d, hloop, hle, ?_⟩
  rcases hd with rfl | hd
  · rw [pow_zero]
    omega
  · exact hd

theorem log2Loop_two_pow {d fuel : ℕ} (h : d < fuel) : log2Loop fuel (2 ^ d) = d := by
  induction d generalizing fuel with
  | zero =>
    cases fuel with
    | zero => exact absurd h (lt_irrefl 0)
    | succ fuel => rfl
  | succ d ih =>
    obtain ⟨fuel, rfl⟩ := Nat.exists_eq_add_one_of_ne_zero (Nat.ne_zero_of_lt h)
    have hlt : 1 < 2 ^ (d + 1) := Nat.one_lt_two_pow (Nat.succ_ne_zero d)
    rw [log2Loop, if_pos hlt, Nat.pow_succ, Nat.mul_div_cancel _ Nat.two_pos,
      ih (Nat.lt_of_succ_lt_succ h)]

@[simp] theorem merkleLog2_two_pow (d : ℕ) : merkleLog2 (2 ^ d) = d :=
  log2Loop_two_pow Nat.lt_two_pow_self

/-! ### Building the tree -/

/-- The lowest level: the leaves, and zero nodes up to the padded size. -/
def padLeaves (padded : ℕ) (leaves : List ForetiasHash32) : List ForetiasHash32 :=
  leaves ++ List.replicate (padded - leaves.length) default

/-- The loop of `foretias_merkle_root_from_leaves`: while there is more than one node, pair them
up. -/
def reduceLevels : ℕ → ℕ → List ForetiasHash32 → List ForetiasHash32
  | 0, _, cur => cur
  | fuel + 1, count, cur =>
    if 1 < count then reduceLevels fuel (count / 2) (hashPairs (merkleNodeHash P) cur) else cur

/-- `foretias_merkle_root_from_leaves`. -/
def foretiasMerkleRootFromLeaves (leaves : List ForetiasHash32) :
    Except ForetiasResult ForetiasHash32 :=
  if leaves.length = 0 then .error .errProofRangeEmpty
  else
    let padded := merkleNextPow2 leaves.length
    if merkleMaxTreePadded < padded then .error .errBadInput
    else .ok ((reduceLevels P padded padded (padLeaves padded leaves)).headD default)

/-- The levels of the tree that a range proof reads: all but the root. -/
def treeRows : ℕ → List ForetiasHash32 → List (List ForetiasHash32)
  | 0, _ => []
  | depth + 1, row => row :: treeRows depth (hashPairs (merkleNodeHash P) row)

/-- A node of a level as a sibling, where one is needed. -/
def siblingAt (row : List ForetiasHash32) (needed : Prop) [Decidable needed] (i : ℕ) :
    Option (List ForetiasHash32) :=
  if needed then row[i]?.map ([·]) else some []

/-- The sibling loop of `foretias_merkle_range_proof`: the range `s` to `e` of a level needs the
node before it, if it begins at an odd position, and the node after it, if it ends at one. -/
def collectSiblings : List (List ForetiasHash32) → ℕ → ℕ → Option (List ForetiasHash32)
  | [], _, _ => some []
  | row :: rows, s, e => do
    let left ← siblingAt row (s % 2 = 1) (s - 1)
    let right ← siblingAt row (e % 2 = 1 ∧ e < row.length) e
    let rest ← collectSiblings rows (s / 2) ((e + 1) / 2)
    some (left ++ right ++ rest)

/-- A zeroed array that is written to from its start. -/
def fillArray {n : ℕ} (l : List ForetiasHash32) : Vector ForetiasHash32 n :=
  Vector.ofFn fun i ↦ l.getD i default

/-- `foretias_merkle_range_proof`. -/
def foretiasMerkleRangeProof (leaves : List ForetiasHash32) (start fin : ℕ) :
    Option (Except ForetiasResult ForetiasMerkleRangeProof) :=
  if leaves.length = 0 then some (.error .errProofRangeEmpty)
  else if fin ≤ start then some (.error .errProofRangeEmpty)
  else if leaves.length < fin then some (.error .errProofRangeExceeds)
  else if merkleMaxRangeProof < toInt32 (fin - start) then some (.error .errProofRangeExceeds)
  else
    let padded := merkleNextPow2 leaves.length
    if merkleMaxTreePadded < padded then some (.error .errBadInput)
    else do
      let row := padLeaves padded leaves
      let siblings ← collectSiblings (treeRows P (merkleLog2 padded) row) start fin
      -- the two arrays of the proof are written without a check
      if fin - start ≤ merkleMaxRangeProof ∧ siblings.length ≤ merkleMaxDepth then
        some (.ok {
          leaves := fillArray ((row.drop start).take (fin - start))
          siblings := fillArray siblings
          leafCount := toInt32 (fin - start)
          siblingCount := siblings.length
          n := toInt32 leaves.length })
      else none

/-! ### Verifying -/

/-- The pairs of a level, from a node on whose left neighbour needs no sibling: two by two, and
the last one with the next sibling. -/
def pairRest (siblings : List ForetiasHash32) :
    List ForetiasHash32 → ℕ → Option (List (ForetiasHash32 × ForetiasHash32) × ℕ)
  | a :: b :: rest, idx => do
    let (pairs, idx) ← pairRest siblings rest idx
    some ((a, b) :: pairs, idx)
  | [a], idx => do
    let sibling ← siblings[idx]?
    some ([(a, sibling)], idx + 1)
  | [], idx => some ([], idx)

/-- The pairs that one turn of the verifier's loop hashes, and the next sibling index. -/
def verifyLevel (siblings : List ForetiasHash32) (s : ℕ) (nodes : List ForetiasHash32)
    (idx : ℕ) : Option (List (ForetiasHash32 × ForetiasHash32) × ℕ) :=
  if s % 2 = 1 then do
    let sibling ← siblings[idx]?
    let first ← nodes.head?
    let (pairs, idx) ← pairRest siblings nodes.tail (idx + 1)
    some ((sibling, first) :: pairs, idx)
  else pairRest siblings nodes idx

/-- The verifier's loop over the levels: the nodes left at the top, and all pairs hashed. -/
def verifyLevels (siblings : List ForetiasHash32) :
    ℕ → ℕ → List ForetiasHash32 → ℕ →
      Option (List ForetiasHash32 × List (ForetiasHash32 × ForetiasHash32))
  | 0, _, nodes, _ => some (nodes, [])
  | depth + 1, s, nodes, idx => do
    let (pairs, idx) ← verifyLevel siblings s nodes idx
    let next := pairs.map fun p ↦ merkleNodeHash P p.1 p.2
    let (top, hashed) ← verifyLevels siblings depth (s / 2) next idx
    some (top, pairs ++ hashed)

/-- The loop of a verification of `proof`, from its first `fin - start` leaves. -/
def verifyRange (proof : ForetiasMerkleRangeProof) (start fin : ℕ) :
    Option (List ForetiasHash32 × List (ForetiasHash32 × ForetiasHash32)) := do
  let nodes ← (List.range (fin - start)).mapM fun i ↦ proof.leaves.toList[i]?
  let padded := merkleNextPow2 proof.n.toNat
  verifyLevels P proof.siblings.toList (merkleLog2 padded) start nodes 0

/-- `foretias_merkle_verify_range_proof`: the value of `*result_out`. -/
def foretiasMerkleVerifyRangeProof (root : ForetiasHash32) (proof : ForetiasMerkleRangeProof)
    (start fin : ℕ) : Option ForetiasResult :=
  if proof.n ≤ 0 then some .errProofRangeEmpty
  else if fin ≤ start then some .errProofRangeEmpty
  else if proof.n.toNat < fin then some .errProofRangeExceeds
  else if proof.leafCount ≠ toInt32 (fin - start) then some .errBadProof
  else do
    let (top, _) ← verifyRange P proof start fin
    some (if top = [root] then .ok else .errBadProof)

end Foretias

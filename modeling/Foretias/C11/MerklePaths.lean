import Foretias.C11.MerkleProofs
import Mathlib.Data.Set.Function

/-!
# Merkle proofs for one leaf

`foretiasMerkleVerify` follows the path of one leaf up, in a tree of inner nodes that are hashed
without a prefix, and it takes no path without a step. The tree whose root
`foretiasMerkleRootFromLeaves` computes hashes its inner nodes with a prefix. So the path of a leaf
in that tree leads to its root by the hash of the tree (`climb_authPath`), and never by that of
the verifier.

* `not_injOn_of_verify` — in a tree of two or more leaves, a proof that is accepted holds a
  collision.
* `not_merklePathLaw` — no position of any tree is proved by its path.
-/

namespace Foretias

/-- `ForetiasMerkleProof`. -/
structure ForetiasMerkleProof where
  /-- Siblings, from the lowest level up. -/
  siblings : Vector ForetiasHash32 merkleMaxDepth
  /-- 0 where the sibling is on the left, 1 where it is on the right. -/
  directions : Vector UInt8 merkleMaxDepth
  /-- Number of steps. -/
  depth : ℤ

variable (P : Primitives)

/-- `sha256_two_32byte`. -/
def sha256Two32byte (a b : ForetiasHash32) : ForetiasHash32 := P.sha256 (a.toList ++ b.toList)

/-- The loop of `foretias_merkle_verify`. -/
def merkleVerifyLoop : List (ForetiasHash32 × UInt8) → ForetiasHash32 → Option ForetiasHash32
  | [], current => some current
  | (sibling, direction) :: steps, current =>
    if direction = 0 then merkleVerifyLoop steps (sha256Two32byte P sibling current)
    else if direction = 1 then merkleVerifyLoop steps (sha256Two32byte P current sibling)
    else none

/-- The steps of a proof. -/
def ForetiasMerkleProof.steps (proof : ForetiasMerkleProof) : List (ForetiasHash32 × UInt8) :=
  (proof.siblings.toList.zip proof.directions.toList).take proof.depth.toNat

/-- `foretias_merkle_verify`. -/
def foretiasMerkleVerify (root leaf : ForetiasHash32) (proof : ForetiasMerkleProof) :
    ForetiasResult :=
  if proof.depth ≤ 0 ∨ (merkleMaxDepth : ℤ) < proof.depth then .errBadInput
  else
    match merkleVerifyLoop P proof.steps leaf with
    | none => .errBadProof
    | some current => if current = root then .ok else .errBadProof

/-! ### Paths -/

/-- The direction byte of a step. -/
def directionByte (left : Bool) : UInt8 := if left then 1 else 0

namespace ForetiasMerkleProof

/-- A path in the arrays of a proof. -/
def ofPath (path : List (Bool × ForetiasHash32)) : ForetiasMerkleProof where
  siblings := fillArray (path.map Prod.snd)
  directions := Vector.ofFn fun i ↦ (path.map fun step ↦ directionByte step.1).getD i 0
  depth := path.length

/-- The path that the steps of a proof are. -/
def path (proof : ForetiasMerkleProof) : List (Bool × ForetiasHash32) :=
  proof.steps.map fun step ↦ (step.2 == 1, step.1)

end ForetiasMerkleProof

variable (leaves : List ForetiasHash32)

/-- The siblings of a leaf and of the nodes above it, in the tree of `leaves`. -/
def authPath (i : ℕ) : List (Bool × ForetiasHash32) :=
  merklePath (merkleNodeHash P) (leaves.getD · default) 0 i
    (merkleLog2 (merkleNextPow2 leaves.length))

/-- The proof is for a position: it has a step for each level of the tree, with the directions of
the position. -/
def ForetiasMerkleProof.AtPosition (proof : ForetiasMerkleProof) (i : ℕ) : Prop :=
  proof.path.map Prod.fst = (authPath P leaves i).map Prod.fst

/-- What is hashed to build the tree, and to follow a path. -/
def hashedInputs (path : List (Bool × ForetiasHash32)) (leaf : ForetiasHash32) : List Bytes :=
  ((treePairs P leaves).map fun p ↦ 0x01 :: (p.1.toList ++ p.2.toList)) ++
    (climbPairs (sha256Two32byte P) path leaf).map fun p ↦ p.1.toList ++ p.2.toList

/-- At a position of a tree, its leaf is accepted by its path, and no other leaf is accepted. -/
structure MerklePathLaw (i : ℕ) : Prop where
  /-- The leaf is accepted. -/
  accepted : ∀ root, foretiasMerkleRootFromLeaves P leaves = .ok root →
    foretiasMerkleVerify P root (leaves.getD i default) (.ofPath (authPath P leaves i)) = .ok
  /-- No other one is. -/
  unique : ∀ root leaf proof, foretiasMerkleRootFromLeaves P leaves = .ok root →
    proof.AtPosition P leaves i → foretiasMerkleVerify P root leaf proof = .ok →
    leaf = leaves.getD i default

variable {P leaves} {root leaf a r : ForetiasHash32} {proof : ForetiasMerkleProof}
  {path : List (Bool × ForetiasHash32)} {steps : List (ForetiasHash32 × UInt8)} {i : ℕ}

/-- The loop follows the path that its steps are. -/
theorem climb_of_merkleVerifyLoop (h : merkleVerifyLoop P steps a = some r) :
    climb (sha256Two32byte P) (steps.map fun step ↦ (step.2 == 1, step.1)) a = r := by
  induction steps generalizing a with
  | nil => exact Option.some.inj h
  | cons step steps ih =>
    obtain ⟨sibling, direction⟩ := step
    rw [merkleVerifyLoop] at h
    rw [List.map_cons, climb]
    split at h
    next hzero =>
      subst hzero
      exact ih h
    next =>
      split at h
      next hone =>
        subst hone
        exact ih h
      next => exact absurd h.symm (Option.some_ne_none r)

/-- A list that fits in an array is written to its front. -/
theorem take_toList_ofFn {α : Type} {n : ℕ} {l : List α} (h : l.length ≤ n) (x : α) :
    (Vector.ofFn fun i : Fin n ↦ l.getD i x).toList.take l.length = l := by
  refine List.ext_getElem (by simp [Nat.min_eq_left h]) fun i hi hl ↦ ?_
  simp [List.getElem?_eq_getElem hl]

/-- The steps of a path that fits in the arrays. -/
theorem steps_ofPath (h : path.length ≤ merkleMaxDepth) :
    (ForetiasMerkleProof.ofPath path).steps =
      path.map fun step ↦ (step.2, directionByte step.1) := by
  have hsiblings := take_toList_ofFn (l := path.map Prod.snd) (n := merkleMaxDepth)
    (by rwa [List.length_map]) default
  have hdirections := take_toList_ofFn (l := path.map fun step ↦ directionByte step.1)
    (n := merkleMaxDepth) (by rwa [List.length_map]) 0
  rw [List.length_map] at hsiblings hdirections
  show (List.zip _ _).take path.length = _
  rw [List.zip, List.take_zipWith]
  refine (congrArg₂ (List.zipWith Prod.mk) hsiblings hdirections).trans ?_
  exact List.zip_map'

theorem path_ofPath (h : path.length ≤ merkleMaxDepth) :
    (ForetiasMerkleProof.ofPath path).path = path := by
  rw [ForetiasMerkleProof.path, steps_ofPath h, List.map_map]
  refine (List.map_congr_left fun step _ ↦ ?_).trans (List.map_id path)
  obtain ⟨left, sibling⟩ := step
  cases left with
  | true => rfl
  | false => rfl

/-- The path of a leaf leads to the root, by the hash of the tree. -/
theorem climb_authPath (hmax : leaves.length ≤ merkleMaxTreePadded) (hi : i < leaves.length)
    (hroot : foretiasMerkleRootFromLeaves P leaves = .ok root) :
    climb (merkleNodeHash P) (authPath P leaves i) (leaves.getD i default) = root := by
  obtain ⟨d, -, hle, hpadded, htop⟩ := exists_rootFromLeaves (P := P) (by omega) hmax
  obtain rfl := Except.ok.inj (htop.symm.trans hroot)
  have hclimb := climb_merklePath (merkleNodeHash P) (leaves.getD · default) 0 i d
  rw [Nat.zero_add, Nat.div_eq_of_lt (hi.trans_le hle)] at hclimb
  rw [authPath, hpadded, merkleLog2_two_pow]
  exact hclimb

/-- What is accepted is the root, by a path with a step. -/
theorem path_of_verify (h : foretiasMerkleVerify P root leaf proof = .ok) :
    proof.path ≠ [] ∧ climb (sha256Two32byte P) proof.path leaf = root := by
  rw [foretiasMerkleVerify] at h
  split at h
  next => exact ForetiasResult.noConfusion h
  next hdepth =>
    rcases hloop : merkleVerifyLoop P proof.steps leaf with - | current
    · rw [hloop] at h
      exact ForetiasResult.noConfusion h
    rw [hloop] at h
    dsimp only at h
    split at h
    next hcurrent =>
      refine ⟨fun hnil ↦ ?_, hcurrent ▸ climb_of_merkleVerifyLoop hloop⟩
      -- a positive number of steps, which the arrays hold
      have hlength := congrArg List.length hnil
      rw [ForetiasMerkleProof.path, List.length_map, ForetiasMerkleProof.steps, List.length_take,
        List.length_zip, Vector.length_toList, Vector.length_toList, List.length_nil] at hlength
      have hmax : merkleMaxDepth = 32 := rfl
      omega
    next => exact ForetiasResult.noConfusion h

/-- In a tree of two or more leaves, a proof that is accepted holds a collision with the tree. -/
theorem not_injOn_of_verify (htwo : 2 ≤ leaves.length) (hmax : leaves.length ≤ merkleMaxTreePadded)
    (hroot : foretiasMerkleRootFromLeaves P leaves = .ok root)
    (hverify : foretiasMerkleVerify P root leaf proof = .ok) :
    ¬Set.InjOn P.sha256 {x | x ∈ hashedInputs P leaves proof.path leaf} := by
  obtain ⟨d, -, hle, hpadded, htop⟩ := exists_rootFromLeaves (P := P) (by omega) hmax
  obtain rfl := Except.ok.inj (htop.symm.trans hroot)
  obtain ⟨d, rfl⟩ : ∃ d', d = d' + 1 := by
    refine Nat.exists_eq_add_one_of_ne_zero ?_
    rintro rfl
    rw [pow_zero] at hle
    omega
  obtain ⟨hne, hclimb⟩ := path_of_verify hverify
  obtain ⟨p, hp, hlast⟩ := exists_mem_climbPairs (sha256Two32byte P) hne leaf
  intro hinj
  have htree : (treeNode P leaves d 0, treeNode P leaves d 1) ∈ treePairs P leaves := by
    rw [treePairs, hpadded, merkleLog2_two_pow, padLeaves_eq_treeRow (P := P) hle]
    have htop : (0 + 1) * 2 ^ (d + 1) ≤ 2 ^ (0 + (d + 1)) := by rw [Nat.one_mul, Nat.zero_add]
    exact mem_pairUp_treeRows (Nat.zero_le d) htop
  have hhash : P.sha256 (p.1.toList ++ p.2.toList) =
      P.sha256 (0x01 :: ((treeNode P leaves d 0).toList ++ (treeNode P leaves d 1).toList)) :=
    hlast.symm.trans hclimb
  have hinputs := hinj (List.mem_append_right _ (List.mem_map_of_mem hp))
    (List.mem_append_left _ (List.mem_map_of_mem htree)) hhash
  -- one of the two inputs has a prefix
  have hlength := congrArg List.length hinputs
  simp only [List.length_cons, List.length_append, FixedBytes.length_toList] at hlength
  omega

/-- **No position of a tree is proved by its path**: the path of a single leaf has no step, and any
other one ends with a hash without the prefix. -/
theorem not_merklePathLaw (hmax : leaves.length ≤ merkleMaxTreePadded) (hi : i < leaves.length)
    (hfree : Set.InjOn P.sha256
      {x | x ∈ hashedInputs P leaves (authPath P leaves i) (leaves.getD i default)}) :
    ¬MerklePathLaw P leaves i := by
  intro h
  obtain ⟨d, hd, hle, hpadded, hroot⟩ := exists_rootFromLeaves (P := P) (by omega) hmax
  have hlength : (authPath P leaves i).length = d := by
    rw [authPath, hpadded, merkleLog2_two_pow, length_merklePath]
  have hfits : (authPath P leaves i).length ≤ merkleMaxDepth := by
    rw [hlength, merkleMaxDepth]
    omega
  have hpath := path_ofPath hfits
  have hverify := h.accepted _ hroot
  rcases Nat.lt_or_ge 1 leaves.length with htwo | hone
  · have hcollision := not_injOn_of_verify htwo hmax hroot hverify
    rw [hpath] at hcollision
    exact hcollision hfree
  · -- the tree of a single leaf has no level above it
    have hsize : merkleNextPow2 leaves.length = 1 := by
      rw [show leaves.length = 1 by omega]
      rfl
    obtain ⟨hne, -⟩ := path_of_verify hverify
    rw [hpath] at hne
    refine hne (List.eq_nil_of_length_eq_zero ?_)
    rw [authPath, hsize, length_merklePath]
    rfl

/-- Neither the tree of two zero leaves nor the path of the first one has a collision. -/
theorem injOn_zero_leaves : Set.InjOn Primitives.transparent.sha256
    {x | x ∈ hashedInputs .transparent [default, default]
      (authPath .transparent [default, default] 0) default} := by
  have hfree : ∀ x ∈ hashedInputs .transparent [default, default]
      (authPath .transparent [default, default] 0) default,
      ∀ y ∈ hashedInputs .transparent [default, default]
        (authPath .transparent [default, default] 0) default,
        Primitives.transparent.sha256 x = Primitives.transparent.sha256 y → x = y := by
    decide +kernel
  exact fun x hx y hy h ↦ hfree x hx y hy h

theorem not_merklePathLaw_zero_leaves :
    ¬MerklePathLaw .transparent [default, default] 0 :=
  not_merklePathLaw (by decide) (by decide) injOn_zero_leaves

/-- Two zero leaves: the root is a hash with the prefix, the path of the first leaf ends with one
without. -/
theorem not_merklePathLaw_all :
    ¬∀ (P : Primitives) (leaves : List ForetiasHash32) (i : ℕ),
      leaves.length ≤ merkleMaxTreePadded → i < leaves.length →
      Set.InjOn P.sha256
        {x | x ∈ hashedInputs P leaves (authPath P leaves i) (leaves.getD i default)} →
      MerklePathLaw P leaves i := by
  intro h
  have hlaw := h .transparent [default, default] 0 (by decide) (by decide) injOn_zero_leaves
  have hroot : foretiasMerkleRootFromLeaves .transparent [default, default] =
      .ok (merkleNodeHash .transparent default default) := rfl
  exact absurd (hlaw.accepted _ hroot) (by decide +kernel)

end Foretias

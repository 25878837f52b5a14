import Foretias.C11.Merkle

/-!
# What a Merkle range proof proves

The verifier hashes, level by level, the pairs of the nodes it holds with the siblings that the
proof supplies (`verifyLevel_eq_some`). With the siblings of the tree it holds a stretch of every
level, and ends with the root (`exists_collectSiblings`); and if it ends with the root, and no pair
it hashed collides with one of the tree, it held a stretch of the tree
(`eq_treeRow_of_verifyLevels`).

* `merkleRange_complete` — the range proof of an honest prover is accepted.
* `merkleRange_sound` — an accepted range proof holds the leaves of the range.
-/

namespace Foretias

variable {P : Primitives}

/-! ### One level -/

section Level

variable {siblings nodes : List ForetiasHash32} {pairs : List (ForetiasHash32 × ForetiasHash32)}
  {s idx idx' : ℕ}

theorem singleton_prefix_drop_iff {α : Type*} {l : List α} {i : ℕ} {a : α} :
    [a] <+: l.drop i ↔ l[i]? = some a := by
  rw [← List.head?_drop]
  cases l.drop i with
  | nil => simp
  | cons b rest => simp [eq_comm]

/-- Pairing from a position that needs no sibling takes one sibling if the number of nodes is
odd. -/
theorem pairRest_eq_some : pairRest siblings nodes idx = some (pairs, idx') ↔
    ∃ right : List ForetiasHash32, right.length = nodes.length % 2 ∧ right <+: siblings.drop idx ∧
      pairs = pairUp (nodes ++ right) ∧ idx' = idx + right.length := by
  induction nodes using pairUp.induct generalizing pairs idx' with
  | case1 a b rest ih =>
    have hparity : (a :: b :: rest).length % 2 = rest.length % 2 := by
      simp only [List.length_cons]
      omega
    rw [pairRest, Option.bind_eq_bind, Option.bind_eq_some_iff, hparity]
    constructor
    · rintro ⟨⟨ps, j⟩, hrest, h⟩
      obtain ⟨right, hlength, hright, rfl, rfl⟩ := ih.1 hrest
      cases h
      exact ⟨right, hlength, hright, rfl, rfl⟩
    · rintro ⟨right, hlength, hright, rfl, rfl⟩
      exact ⟨_, ih.2 ⟨right, hlength, hright, rfl, rfl⟩, rfl⟩
  | case2 a =>
    rw [pairRest, Option.bind_eq_bind, Option.bind_eq_some_iff]
    constructor
    · rintro ⟨sibling, hsibling, h⟩
      cases h
      exact ⟨[sibling], rfl, singleton_prefix_drop_iff.2 hsibling, rfl, rfl⟩
    · rintro ⟨right, hlength, hright, rfl, rfl⟩
      obtain ⟨sibling, rfl⟩ := List.length_eq_one_iff.1 hlength
      exact ⟨sibling, singleton_prefix_drop_iff.1 hright, rfl⟩
  | case3 =>
    rw [pairRest]
    constructor
    · intro h
      cases h
      exact ⟨[], rfl, List.nil_prefix, rfl, rfl⟩
    · rintro ⟨right, hlength, -, rfl, rfl⟩
      rw [List.eq_nil_of_length_eq_zero hlength]
      rfl

/-- One turn of the verifier's loop hashes the pairs of its nodes, with a sibling before them if
they begin at an odd position and one after them if they end at one. -/
theorem verifyLevel_eq_some (hne : nodes ≠ []) :
    verifyLevel siblings s nodes idx = some (pairs, idx') ↔
      ∃ left right : List ForetiasHash32, left.length = s % 2 ∧
        right.length = (s + nodes.length) % 2 ∧ left ++ right <+: siblings.drop idx ∧
        pairs = pairUp (left ++ nodes ++ right) ∧ idx' = idx + (left ++ right).length := by
  rw [verifyLevel]
  by_cases hodd : s % 2 = 1
  · obtain ⟨first, rest, rfl⟩ := List.exists_cons_of_ne_nil hne
    have hparity : (s + (first :: rest).length) % 2 = rest.length % 2 := by
      rw [List.length_cons]
      omega
    have hcons : ∀ (sibling : ForetiasHash32) (right : List ForetiasHash32),
        [sibling] ++ right <+: siblings.drop idx ↔
          siblings[idx]? = some sibling ∧ right <+: siblings.drop (idx + 1) := by
      intro sibling right
      rw [← List.drop_drop, ← singleton_prefix_drop_iff]
      cases siblings.drop idx with
      | nil => simp
      | cons b l => simp
    rw [if_pos hodd, hodd, hparity, Option.bind_eq_bind, Option.bind_eq_some_iff]
    constructor
    · rintro ⟨sibling, hsibling, h⟩
      obtain ⟨_, ⟨⟩, h⟩ := Option.bind_eq_some_iff.1 h
      obtain ⟨⟨ps, j⟩, hrest, h⟩ := Option.bind_eq_some_iff.1 h
      obtain ⟨right, hlength, hright, rfl, rfl⟩ := pairRest_eq_some.1 hrest
      cases h
      refine ⟨[sibling], right, rfl, hlength, (hcons _ _).2 ⟨hsibling, hright⟩, rfl, ?_⟩
      rw [List.length_append, List.length_singleton, Nat.add_assoc]
    · rintro ⟨left, right, hleft, hlength, hsiblings, rfl, rfl⟩
      obtain ⟨sibling, rfl⟩ := List.length_eq_one_iff.1 hleft
      obtain ⟨hsibling, hright⟩ := (hcons _ _).1 hsiblings
      refine ⟨sibling, hsibling, Option.bind_eq_some_iff.2 ⟨first, rfl,
        Option.bind_eq_some_iff.2 ⟨_, pairRest_eq_some.2 ⟨right, hlength, hright, rfl, rfl⟩, ?_⟩⟩⟩
      rw [List.length_append, List.length_singleton, Nat.add_assoc]
      rfl
  · have heven : s % 2 = 0 := by omega
    have hparity : (s + nodes.length) % 2 = nodes.length % 2 := by omega
    rw [if_neg hodd, heven, hparity, pairRest_eq_some]
    constructor
    · rintro ⟨right, hlength, hright, hpairs, hidx⟩
      exact ⟨[], right, rfl, hlength, hright, hpairs, hidx⟩
    · rintro ⟨left, right, hleft, hlength, hsiblings, hpairs, hidx⟩
      rw [List.eq_nil_of_length_eq_zero hleft] at hsiblings hpairs hidx
      exact ⟨right, hlength, hsiblings, hpairs, hidx⟩

end Level

/-! ### The tree of a list of leaves -/

section Tree

variable (P) in
/-- Node `i` of level `k` of the tree over a list of leaves. -/
def treeNode (leaves : List ForetiasHash32) (k i : ℕ) : ForetiasHash32 :=
  merkleNode (merkleNodeHash P) (leaves.getD · default) k i

variable (P) in
/-- A stretch of level `k` of the tree. -/
def treeRow (leaves : List ForetiasHash32) (k s e : ℕ) : List ForetiasHash32 :=
  merkleRow (merkleNodeHash P) (leaves.getD · default) k s e

variable {leaves : List ForetiasHash32} {k d : ℕ}

theorem padLeaves_eq_treeRow (h : leaves.length ≤ 2 ^ d) :
    padLeaves (2 ^ d) leaves = treeRow P leaves 0 0 (2 ^ d) := by
  refine List.ext_getElem? fun i ↦ ?_
  by_cases hi : i < 2 ^ d
  · rw [treeRow, getElem?_merkleRow (by omega), padLeaves, merkleNode, Nat.zero_add,
      List.getD_eq_getElem?_getD]
    by_cases hleaf : i < leaves.length
    · rw [List.getElem?_append_left hleaf, List.getElem?_eq_getElem hleaf]
      rfl
    · have hout : leaves.length ≤ i := Nat.le_of_not_lt hleaf
      rw [List.getElem?_append_right hout, List.getElem?_replicate_of_lt (by omega),
        List.getElem?_eq_none hout]
      rfl
  · rw [List.getElem?_eq_none, List.getElem?_eq_none]
    · rw [treeRow, length_merkleRow]
      omega
    · rw [padLeaves, List.length_append, List.length_replicate]
      omega

/-- The whole level above a whole level. -/
theorem hashPairs_treeRow : hashPairs (merkleNodeHash P) (treeRow P leaves k 0 (2 ^ (d + 1))) =
    treeRow P leaves (k + 1) 0 (2 ^ d) := by
  rw [Nat.pow_succ']
  exact hashPairs_merkleRow 0 (2 ^ d)

theorem reduceLevels_treeRow {fuel : ℕ} (h : d ≤ fuel) :
    reduceLevels P fuel (2 ^ d) (treeRow P leaves k 0 (2 ^ d)) = [treeNode P leaves (k + d) 0] := by
  induction d generalizing k fuel with
  | zero =>
    have htop : treeRow P leaves k 0 (2 ^ 0) = [treeNode P leaves (k + 0) 0] :=
      merkleRow_singleton 0
    rw [← htop]
    cases fuel with
    | zero => rfl
    | succ fuel => rw [reduceLevels, if_neg (by omega)]
  | succ d ih =>
    obtain ⟨fuel, rfl⟩ := Nat.exists_eq_add_one_of_ne_zero (show fuel ≠ 0 by omega)
    have hlt : 1 < 2 ^ (d + 1) := Nat.one_lt_two_pow (Nat.succ_ne_zero d)
    rw [reduceLevels, if_pos hlt, hashPairs_treeRow, Nat.pow_succ, Nat.mul_div_cancel _ Nat.two_pos,
      ih (Nat.le_of_succ_le_succ h), Nat.add_right_comm, Nat.add_assoc]

/-- A list of 1 to 128 leaves has a tree of some depth `d`, and its root is the top node. -/
theorem exists_rootFromLeaves (hpos : 1 ≤ leaves.length)
    (hmax : leaves.length ≤ merkleMaxTreePadded) :
    ∃ d ≤ 7, leaves.length ≤ 2 ^ d ∧ merkleNextPow2 leaves.length = 2 ^ d ∧
      foretiasMerkleRootFromLeaves P leaves = .ok (treeNode P leaves d 0) := by
  obtain ⟨d, hpadded, hle, hlt⟩ := exists_merkleNextPow2_eq hpos
  have hd : d ≤ 7 := by
    refine Nat.le_of_lt_succ ((Nat.pow_lt_pow_iff_right (a := 2) Nat.one_lt_two).1 ?_)
    rw [merkleMaxTreePadded] at hmax
    omega
  have hsize : ¬merkleMaxTreePadded < 2 ^ d := by
    rw [merkleMaxTreePadded, Nat.not_lt]
    exact Nat.pow_le_pow_right Nat.two_pos hd
  refine ⟨d, hd, hle, hpadded, ?_⟩
  rw [foretiasMerkleRootFromLeaves, if_neg (by omega)]
  simp only [hpadded]
  rw [if_neg hsize, padLeaves_eq_treeRow (P := P) hle, reduceLevels_treeRow Nat.lt_two_pow_self.le,
    Nat.zero_add]
  rfl

/-! ### All levels -/

variable {s e : ℕ}

/-- The sibling before a range that begins at an odd position. -/
theorem leftSibling_eq (hs : s ≤ 2 ^ d) :
    siblingAt (treeRow P leaves k 0 (2 ^ d)) (s % 2 = 1) (s - 1) =
      some (treeRow P leaves k (2 * (s / 2)) s) := by
  rw [siblingAt]
  by_cases hodd : s % 2 = 1
  · obtain ⟨i, rfl⟩ : ∃ i, s = 2 * i + 1 := ⟨s / 2, by omega⟩
    have hi : 2 * ((2 * i + 1) / 2) = 2 * i := by omega
    rw [if_pos hodd, hi, treeRow, treeRow, merkleRow_singleton, Nat.add_sub_cancel,
      getElem?_merkleRow (by omega), Nat.zero_add]
    rfl
  · have hempty : treeRow P leaves k (2 * (s / 2)) s = [] := by
      refine List.eq_nil_of_length_eq_zero ?_
      rw [treeRow, length_merkleRow]
      omega
    rw [if_neg hodd, hempty]

/-- The sibling after a range that ends at an odd position. -/
theorem rightSibling_eq (he : e ≤ 2 ^ (d + 1)) :
    siblingAt (treeRow P leaves k 0 (2 ^ (d + 1)))
        (e % 2 = 1 ∧ e < (treeRow P leaves k 0 (2 ^ (d + 1))).length) e =
      some (treeRow P leaves k e (2 * ((e + 1) / 2))) := by
  rw [siblingAt, treeRow, length_merkleRow, Nat.sub_zero]
  have heven : 2 ^ (d + 1) = 2 * 2 ^ d := Nat.pow_succ'
  by_cases hodd : e % 2 = 1
  · have hi : 2 * ((e + 1) / 2) = e + 1 := by omega
    have hlt : e < 2 ^ (d + 1) := by omega
    rw [if_pos ⟨hodd, hlt⟩, hi, treeRow, merkleRow_singleton, getElem?_merkleRow (by omega),
      Nat.zero_add]
    rfl
  · have hempty : treeRow P leaves k e (2 * ((e + 1) / 2)) = [] := by
      refine List.eq_nil_of_length_eq_zero ?_
      rw [treeRow, length_merkleRow]
      omega
    rw [if_neg fun h ↦ hodd h.1, hempty]

/-- A range and its siblings are the pairs of the range above. -/
theorem treeRow_sides (hse : s ≤ e) :
    treeRow P leaves k (2 * (s / 2)) s ++ treeRow P leaves k s e ++
        treeRow P leaves k e (2 * ((e + 1) / 2)) =
      treeRow P leaves k (2 * (s / 2)) (2 * ((e + 1) / 2)) := by
  rw [treeRow, treeRow, treeRow, merkleRow_append (by omega) hse,
    merkleRow_append (by omega) (by omega)]
  rfl

theorem treeRow_slice {m : ℕ} (hse : s ≤ e) (he : e ≤ m) :
    ((treeRow P leaves k 0 m).drop s).take (e - s) = treeRow P leaves k s e := by
  have hstart : (treeRow P leaves k 0 s).length = s := by
    rw [treeRow, length_merkleRow, Nat.sub_zero]
  have hrange : (treeRow P leaves k s e).length = e - s := by
    rw [treeRow, length_merkleRow]
  have hcut : treeRow P leaves k 0 m =
      treeRow P leaves k 0 s ++ (treeRow P leaves k s e ++ treeRow P leaves k e m) := by
    rw [treeRow, treeRow, treeRow, treeRow, merkleRow_append hse he,
      merkleRow_append (Nat.zero_le s) (hse.trans he)]
  rw [hcut, List.drop_left' hstart, List.take_left' hrange]

/-- The siblings that the prover collects take the verifier to the top node. -/
theorem exists_collectSiblings (hse : s < e) (he : e ≤ 2 ^ d) :
    ∃ sibs, collectSiblings (treeRows P d (treeRow P leaves k 0 (2 ^ d))) s e = some sibs ∧
      sibs.length ≤ 2 * d ∧ ∀ siblings idx, sibs <+: List.drop idx siblings → ∃ hashed,
        verifyLevels P siblings d s (treeRow P leaves k s e) idx =
          some ([treeNode P leaves (k + d) 0], hashed) := by
  induction d generalizing k s e with
  | zero =>
    obtain ⟨rfl, rfl⟩ : s = 0 ∧ e = 1 := by
      rw [pow_zero] at he
      omega
    exact ⟨[], rfl, Nat.le_refl 0, fun siblings idx _ ↦ ⟨[], rfl⟩⟩
  | succ d ih =>
    have hpow : 2 ^ (d + 1) = 2 * 2 ^ d := Nat.pow_succ'
    have hk : k + (d + 1) = k + 1 + d := by omega
    obtain ⟨rest, hrest, hlength, hverify⟩ := ih (k := k + 1) (s := s / 2) (e := (e + 1) / 2)
      (by omega) (by omega)
    refine ⟨treeRow P leaves k (2 * (s / 2)) s ++ treeRow P leaves k e (2 * ((e + 1) / 2)) ++ rest,
      ?_, ?_, fun siblings idx hsiblings ↦ ?_⟩
    · rw [treeRows, collectSiblings, leftSibling_eq (by omega), rightSibling_eq he,
        hashPairs_treeRow, hrest]
      rfl
    · rw [List.length_append, List.length_append, treeRow, treeRow, length_merkleRow,
        length_merkleRow]
      omega
    · -- this level reads its two sides, and the levels above it the rest
      obtain ⟨tail, htail⟩ := hsiblings
      have hsides : treeRow P leaves k (2 * (s / 2)) s ++
          treeRow P leaves k e (2 * ((e + 1) / 2)) <+: siblings.drop idx :=
        ⟨rest ++ tail, by rw [← htail, List.append_assoc _ rest]⟩
      have hne : treeRow P leaves k s e ≠ [] := by
        refine List.ne_nil_of_length_pos ?_
        rw [treeRow, length_merkleRow]
        omega
      have hlevel := (verifyLevel_eq_some (s := s) hne).2 ⟨treeRow P leaves k (2 * (s / 2)) s,
        treeRow P leaves k e (2 * ((e + 1) / 2)), by
        rw [treeRow, length_merkleRow]
        omega, by
        rw [treeRow, treeRow, length_merkleRow, length_merkleRow]
        omega, hsides, rfl, rfl⟩
      rw [treeRow_sides hse.le] at hlevel
      have hnext : (pairUp (treeRow P leaves k (2 * (s / 2)) (2 * ((e + 1) / 2)))).map
          (fun p ↦ merkleNodeHash P p.1 p.2) = treeRow P leaves (k + 1) (s / 2) ((e + 1) / 2) :=
        hashPairs_merkleRow _ _
      obtain ⟨hashed, hrun⟩ := hverify siblings (idx + (treeRow P leaves k (2 * (s / 2)) s ++
          treeRow P leaves k e (2 * ((e + 1) / 2))).length) ⟨tail, by
        rw [← List.drop_drop, ← htail, List.append_assoc _ rest, List.drop_left]⟩
      refine ⟨pairUp (treeRow P leaves k (2 * (s / 2)) (2 * ((e + 1) / 2))) ++ hashed, ?_⟩
      rw [verifyLevels, hlevel, Option.bind_eq_bind, Option.bind_some]
      simp only [hnext, hrun, hk]
      rfl

/-- If the verifier ends with the top node, and no pair that it hashes collides with a pair of
the tree, then it held a stretch of the tree. -/
theorem eq_treeRow_of_verifyLevels {siblings nodes : List ForetiasHash32} {idx : ℕ}
    {hashed : List (ForetiasHash32 × ForetiasHash32)} (hse : s < e) (he : e ≤ 2 ^ d)
    (hnodes : nodes.length = e - s)
    (hfree : ∀ p ∈ hashed, ∀ j i, k ≤ j → (i + 1) * 2 ^ (j + 1) ≤ 2 ^ (k + d) →
      merkleNodeHash P p.1 p.2 = treeNode P leaves (j + 1) i →
      p = (treeNode P leaves j (2 * i), treeNode P leaves j (2 * i + 1)))
    (h : verifyLevels P siblings d s nodes idx = some ([treeNode P leaves (k + d) 0], hashed)) :
    nodes = treeRow P leaves k s e := by
  induction d generalizing k s e nodes idx hashed with
  | zero =>
    obtain ⟨rfl, rfl⟩ : s = 0 ∧ e = 1 := by
      rw [pow_zero] at he
      omega
    cases h
    exact (merkleRow_singleton 0).symm
  | succ d ih =>
    have hpow : 2 ^ (d + 1) = 2 * 2 ^ d := Nat.pow_succ'
    have hne : nodes ≠ [] := by
      refine List.ne_nil_of_length_pos ?_
      omega
    rw [verifyLevels, Option.bind_eq_bind] at h
    obtain ⟨⟨pairs, idx'⟩, hlevel, h⟩ := Option.bind_eq_some_iff.1 h
    obtain ⟨⟨top, above⟩, hrun, h⟩ := Option.bind_eq_some_iff.1 h
    cases h
    obtain ⟨left, right, hleft, hright, -, rfl, rfl⟩ := (verifyLevel_eq_some hne).1 hlevel
    rw [hnodes] at hright
    have hk : k + (d + 1) = k + 1 + d := by omega
    rw [hk] at hfree hrun
    -- above this level it held a stretch of the tree
    have hlength : (left ++ nodes ++ right).length = 2 * ((e + 1) / 2) - 2 * (s / 2) := by
      rw [List.length_append, List.length_append, hnodes]
      omega
    have hnodes' : ((pairUp (left ++ nodes ++ right)).map fun p ↦
        merkleNodeHash P p.1 p.2).length = (e + 1) / 2 - s / 2 := by
      rw [List.length_map, length_pairUp, hlength]
      omega
    have hnext := ih (by omega) (by omega) hnodes' (fun p hp j i hj ↦
      hfree p (List.mem_append_right _ hp) j i (by omega)) hrun
    -- and the pairs hashed here are pairs of the tree
    have hsides : left ++ nodes ++ right =
        treeRow P leaves k (2 * (s / 2)) (2 * ((e + 1) / 2)) := by
      refine eq_merkleRow_of_hashPairs (by omega) (fun p hp i _ hi ↦ ?_) hnext
      refine hfree p (List.mem_append_left _ hp) k i (Nat.le_refl k) ?_
      have hi' : i + 1 ≤ 2 ^ d := by omega
      calc (i + 1) * 2 ^ (k + 1) ≤ 2 ^ d * 2 ^ (k + 1) := Nat.mul_le_mul_right _ hi'
        _ = 2 ^ (k + 1 + d) := by rw [← Nat.pow_add, Nat.add_comm d]
    rw [← treeRow_sides hse.le, List.append_assoc, List.append_assoc] at hsides
    obtain ⟨-, hsides⟩ := List.append_inj hsides (by
      rw [hleft, treeRow, length_merkleRow]
      omega)
    exact (List.append_inj hsides (by rw [hnodes, treeRow, length_merkleRow])).1

/-! ### Pairs of the tree -/

variable (P) in
/-- The pairs that are hashed to build the tree of a list of leaves. -/
def treePairs (leaves : List ForetiasHash32) : List (ForetiasHash32 × ForetiasHash32) :=
  let padded := merkleNextPow2 leaves.length
  (treeRows P (merkleLog2 padded) (padLeaves padded leaves)).flatMap pairUp

theorem mem_pairUp_treeRows {j i : ℕ} (hj : k ≤ j) (hi : (i + 1) * 2 ^ (j + 1) ≤ 2 ^ (k + d)) :
    (treeNode P leaves j (2 * i), treeNode P leaves j (2 * i + 1)) ∈
      (treeRows P d (treeRow P leaves k 0 (2 ^ d))).flatMap pairUp := by
  induction d generalizing k with
  | zero =>
    have hle : 2 ^ (j + 1) ≤ (i + 1) * 2 ^ (j + 1) := Nat.le_mul_of_pos_left _ (Nat.succ_pos i)
    have hlt : 2 ^ k < 2 ^ (j + 1) := Nat.pow_lt_pow_right Nat.one_lt_two (by omega)
    exact absurd (hle.trans hi) hlt.not_ge
  | succ d ih =>
    have hk : k + (d + 1) = k + 1 + d := by omega
    rw [hk] at hi
    rw [treeRows, List.flatMap_cons, List.mem_append, hashPairs_treeRow]
    by_cases hjk : j = k
    · subst hjk
      have hlt : i + 1 ≤ 2 ^ d := by
        rw [Nat.add_comm (j + 1), Nat.pow_add 2 d] at hi
        exact Nat.le_of_mul_le_mul_right hi (Nat.two_pow_pos _)
      refine .inl ?_
      have hpairs := @pairUp_merkleRow _ (merkleNodeHash P) (leaves.getD · default) j 0 (2 ^ d)
      rw [treeRow, Nat.pow_succ', ← Nat.mul_zero 2, hpairs]
      exact List.mem_map_of_mem (List.mem_range'_1.2 (by omega))
    · exact .inr (ih (by omega) hi)

variable (P) in
/-- No pair that the verifier hashes collides with a pair of the tree. -/
def CollisionFree (leaves : List ForetiasHash32) (proof : ForetiasMerkleRangeProof)
    (start fin : ℕ) : Prop :=
  ∀ top hashed, verifyRange P proof start fin = some (top, hashed) →
    ∀ p ∈ hashed, ∀ q ∈ treePairs P leaves,
      merkleNodeHash P p.1 p.2 = merkleNodeHash P q.1 q.2 → p = q

end Tree

/-! ### Range proofs -/

section RangeProof

variable {leaves : List ForetiasHash32} {proof : ForetiasMerkleRangeProof} {start fin : ℕ}

theorem mapM_getElem?_range {α : Type} {l : List α} {m : ℕ} (h : m ≤ l.length) :
    (List.range m).mapM (l[·]?) = some (l.take m) := by
  induction m with
  | zero => rfl
  | succ m ih =>
    have hm : m < l.length := h
    rw [List.range_succ, List.mapM_append, ih hm.le, List.take_add_one]
    simp [List.getElem?_eq_getElem hm]

/-- A list that fits in an array is written to its front. -/
theorem take_toList_fillArray {n : ℕ} {l : List ForetiasHash32} (h : l.length ≤ n) :
    (fillArray l : Vector ForetiasHash32 n).toList.take l.length = l := by
  refine List.ext_getElem (by simp [Nat.min_eq_left h]) fun i hi hl ↦ ?_
  simp [fillArray, List.getElem?_eq_getElem hl]

/-- The verifier's loop starts from the first `fin - start` leaves of the proof. -/
theorem verifyRange_eq (hwidth : fin - start ≤ merkleMaxRangeProof) :
    verifyRange P proof start fin =
      verifyLevels P proof.siblings.toList (merkleLog2 (merkleNextPow2 proof.n.toNat)) start
        (proof.leaves.toList.take (fin - start)) 0 := by
  rw [verifyRange, mapM_getElem?_range (by simpa using hwidth)]
  rfl

/-- What the verifier accepts: a proof of the right sizes, whose walk ends with the root. -/
theorem verifyRangeProof_eq_ok {root : ForetiasHash32} :
    foretiasMerkleVerifyRangeProof P root proof start fin = some .ok ↔
      0 < proof.n ∧ start < fin ∧ fin ≤ proof.n.toNat ∧ proof.leafCount = toInt32 (fin - start) ∧
        ∃ hashed, verifyRange P proof start fin = some ([root], hashed) := by
  rw [foretiasMerkleVerifyRangeProof]
  split_ifs with hn hempty hexceeds hcount
  · simp [hn]
  · simp [hempty]
  · simp [hexceeds]
  · simp [hcount]
  · rw [Option.bind_eq_bind, Option.bind_eq_some_iff]
    constructor
    · rintro ⟨⟨top, hashed⟩, hrun, h⟩
      by_cases htop : top = [root]
      · subst htop
        exact ⟨by omega, by omega, by omega, not_not.1 hcount, hashed, hrun⟩
      · simp [htop] at h
    · rintro ⟨-, -, -, -, hashed, hrun⟩
      exact ⟨_, hrun, by simp⟩

/-- What the prover returns: two lists that fit in its arrays, and their lengths. -/
theorem exists_eq_of_rangeProof
    (h : foretiasMerkleRangeProof P leaves start fin = some (.ok proof)) :
    ∃ nodes sibs : List ForetiasHash32, nodes.length = fin - start ∧
      nodes.length ≤ merkleMaxRangeProof ∧ sibs.length ≤ merkleMaxDepth ∧
      leaves.length ≤ merkleMaxTreePadded ∧
      proof = ⟨fillArray nodes, fillArray sibs, nodes.length, sibs.length, leaves.length⟩ := by
  have hempty : leaves.length ≠ 0 := fun hempty ↦ by
    rw [foretiasMerkleRangeProof, if_pos hempty] at h
    cases h
  obtain ⟨d, hpow, hle, -⟩ := exists_merkleNextPow2_eq (Nat.one_le_iff_ne_zero.2 hempty)
  rw [foretiasMerkleRangeProof, if_neg hempty] at h
  simp only [hpow] at h
  split_ifs at h with hlt hfin hwide hpadded
  · cases h
  · cases h
  · cases h
  · cases h
  · rw [Option.bind_eq_bind, Option.bind_eq_some_iff] at h
    obtain ⟨sibs, -, h⟩ := h
    split_ifs at h with hfit
    obtain rfl := Except.ok.inj (Option.some.inj h)
    have hmax : leaves.length ≤ merkleMaxTreePadded := hle.trans (Nat.le_of_not_lt hpadded)
    have hlength : (((padLeaves (2 ^ d) leaves).drop start).take (fin - start)).length =
        fin - start := by
      rw [List.length_take, List.length_drop, padLeaves, List.length_append, List.length_replicate]
      omega
    have hcount : toInt32 (fin - start) = ((fin - start : ℕ) : ℤ) :=
      toInt32_of_lt (hfit.1.trans_lt (by decide))
    have hn : toInt32 leaves.length = leaves.length := toInt32_of_lt (hmax.trans_lt (by decide))
    refine ⟨((padLeaves (2 ^ d) leaves).drop start).take (fin - start), sibs, hlength, ?_, hfit.2,
      hmax, ?_⟩
    · rw [hlength]
      exact hfit.1
    · rw [hlength, hcount, hn]

/-- The prover's proof, for a list of at most 128 leaves and a range of at most 64. -/
theorem exists_rangeProof {d : ℕ} (hd : d ≤ 7) (hle : leaves.length ≤ 2 ^ d)
    (hpadded : merkleNextPow2 leaves.length = 2 ^ d) (hlt : start < fin)
    (hfin : fin ≤ leaves.length) (hwidth : fin - start ≤ merkleMaxRangeProof) :
    ∃ proof, foretiasMerkleRangeProof P leaves start fin = some (.ok proof) ∧
      proof.n = leaves.length ∧ proof.leafCount = toInt32 (fin - start) ∧
      proof.leaves.toList.take (fin - start) = treeRow P leaves 0 start fin ∧
      ∃ hashed, verifyLevels P proof.siblings.toList d start (treeRow P leaves 0 start fin) 0 =
        some ([treeNode P leaves d 0], hashed) := by
  obtain ⟨sibs, hsibs, hlength, hverify⟩ :=
    @exists_collectSiblings P leaves 0 d start fin hlt (hfin.trans hle)
  have hpow : 2 ^ d ≤ merkleMaxTreePadded := Nat.pow_le_pow_right Nat.two_pos hd
  have hcount : toInt32 (fin - start) = ((fin - start : ℕ) : ℤ) :=
    toInt32_of_lt (hwidth.trans_lt (by decide))
  have hn : toInt32 leaves.length = leaves.length :=
    toInt32_of_lt ((hle.trans hpow).trans_lt (by decide))
  have hfit : sibs.length ≤ merkleMaxDepth := by
    rw [merkleMaxDepth]
    omega
  have hne : leaves.length ≠ 0 := Nat.ne_zero_of_lt (hlt.trans_le hfin)
  rw [foretiasMerkleRangeProof, if_neg hne, if_neg hlt.not_ge, if_neg hfin.not_gt,
    if_neg (by rw [hcount]; exact_mod_cast hwidth.not_gt)]
  simp only [hpadded, merkleLog2_two_pow, padLeaves_eq_treeRow (P := P) hle]
  rw [if_neg hpow.not_gt, hsibs, Option.bind_eq_bind, Option.bind_some, if_pos ⟨hwidth, hfit⟩]
  refine ⟨_, rfl, ?_, ?_, ?_, ?_⟩
  · dsimp only
    exact hn
  · dsimp only
  · have hwritten := take_toList_fillArray (n := merkleMaxRangeProof)
      (l := treeRow P leaves 0 start fin) (by rwa [treeRow, length_merkleRow])
    rw [treeRow, length_merkleRow] at hwritten
    rwa [treeRow_slice hlt.le (hfin.trans hle)]
  · have hwritten := take_toList_fillArray (n := merkleMaxDepth) hfit
    have hfront := hverify (fillArray sibs : Vector ForetiasHash32 merkleMaxDepth).toList 0
      ⟨_, by rw [List.drop_zero]; nth_rewrite 1 [← hwritten]; exact List.take_append_drop _ _⟩
    rwa [Nat.zero_add] at hfront

/-- The range proof of an honest prover is accepted: for every list of 1 to 128 leaves and every
range of 1 to 64 of them. -/
theorem merkleRange_complete (hpos : 1 ≤ leaves.length) (hmax : leaves.length ≤ 128)
    (hlt : start < fin) (hfin : fin ≤ leaves.length) (hwidth : fin - start ≤ 64) :
    ∃ root proof, foretiasMerkleRootFromLeaves P leaves = .ok root ∧
      foretiasMerkleRangeProof P leaves start fin = some (.ok proof) ∧
      foretiasMerkleVerifyRangeProof P root proof start fin = some .ok := by
  obtain ⟨d, hd, hle, hpadded, hroot⟩ := exists_rootFromLeaves (P := P) hpos hmax
  obtain ⟨proof, hproof, hn, hcount, hleaves, hashed, hrun⟩ :=
    exists_rangeProof (P := P) hd hle hpadded hlt hfin hwidth
  have hsize : proof.n.toNat = leaves.length := by rw [hn, Int.toNat_natCast]
  refine ⟨treeNode P leaves d 0, proof, hroot, hproof, ?_⟩
  refine verifyRangeProof_eq_ok.2 ⟨?_, hlt, ?_, hcount, hashed, ?_⟩
  · rw [hn]
    exact_mod_cast hpos
  · rwa [hsize]
  · rw [verifyRange_eq hwidth, hsize, hpadded, merkleLog2_two_pow, hleaves]
    exact hrun

/-- The last two of three leaves: the range ends beside the padding. -/
theorem merkleRange_complete_three :
    ∃ root proof,
      foretiasMerkleRootFromLeaves Primitives.transparent (.replicate 3 default) = .ok root ∧
      foretiasMerkleRangeProof Primitives.transparent (.replicate 3 default) 1 3 =
        some (.ok proof) ∧
      foretiasMerkleVerifyRangeProof Primitives.transparent root proof 1 3 = some .ok :=
  merkleRange_complete (by decide) (by decide) (by decide) (by decide) (by decide)

/-- An accepted range proof of the right tree size holds the stretch of the tree that it is accepted
for. -/
theorem take_leaves_eq_treeRow {d : ℕ} (hle : leaves.length ≤ 2 ^ d)
    (hpadded : merkleNextPow2 leaves.length = 2 ^ d) (hn : proof.n = leaves.length)
    (hlt : start < fin) (hfin : fin ≤ leaves.length) (hwidth : fin - start ≤ merkleMaxRangeProof)
    (hfree : CollisionFree P leaves proof start fin)
    (hverify : foretiasMerkleVerifyRangeProof P (treeNode P leaves d 0) proof start fin =
      some .ok) :
    proof.leaves.toList.take (fin - start) = treeRow P leaves 0 start fin := by
  obtain ⟨-, -, -, -, hashed, hrun⟩ := verifyRangeProof_eq_ok.1 hverify
  have hsize : proof.n.toNat = leaves.length := by rw [hn, Int.toNat_natCast]
  have hpairs : ∀ p ∈ hashed, ∀ j i, 0 ≤ j → (i + 1) * 2 ^ (j + 1) ≤ 2 ^ (0 + d) →
      merkleNodeHash P p.1 p.2 = treeNode P leaves (j + 1) i →
      p = (treeNode P leaves j (2 * i), treeNode P leaves j (2 * i + 1)) := by
    intro p hp j i hj hi hhash
    refine hfree _ _ hrun p hp _ ?_ hhash
    rw [treePairs, hpadded, merkleLog2_two_pow, padLeaves_eq_treeRow (P := P) hle]
    exact mem_pairUp_treeRows hj hi
  have hzero : treeNode P leaves d 0 = treeNode P leaves (0 + d) 0 := by rw [Nat.zero_add]
  rw [verifyRange_eq hwidth, hsize, hpadded, merkleLog2_two_pow, hzero] at hrun
  exact eq_treeRow_of_verifyLevels hlt (hfin.trans hle)
    (by rw [List.length_take, Vector.length_toList, Nat.min_eq_left hwidth]) hpairs hrun

/-- The lowest stretches of the tree are stretches of the leaves. -/
theorem take_drop_eq_treeRow (hlt : start < fin) (hfin : fin ≤ leaves.length) :
    (leaves.drop start).take (fin - start) = treeRow P leaves 0 start fin := by
  obtain ⟨d, -, hle, -⟩ := exists_merkleNextPow2_eq (n := leaves.length) (by omega)
  have hslice : ((treeRow P leaves 0 0 (2 ^ d)).drop start).take (fin - start) =
      treeRow P leaves 0 start fin := treeRow_slice hlt.le (hfin.trans hle)
  rw [← padLeaves_eq_treeRow (P := P) hle, padLeaves, List.drop_append_of_le_length (by omega),
    List.take_append_of_le_length (by rw [List.length_drop]; omega)] at hslice
  exact hslice

/-- An accepted range proof for the number of leaves that the tree has holds the leaves of the
range. -/
theorem merkleRange_sound {root : ForetiasHash32} (hpos : 1 ≤ leaves.length)
    (hmax : leaves.length ≤ 128) (hn : proof.n = leaves.length) (hlt : start < fin)
    (hfin : fin ≤ leaves.length) (hwidth : fin - start ≤ 64)
    (hroot : foretiasMerkleRootFromLeaves P leaves = .ok root)
    (hfree : CollisionFree P leaves proof start fin)
    (hverify : foretiasMerkleVerifyRangeProof P root proof start fin = some .ok) :
    proof.leafCount = ((fin - start : ℕ) : ℤ) ∧
      proof.leaves.toList.take (fin - start) = (leaves.drop start).take (fin - start) := by
  obtain ⟨d, -, hle, hpadded, htop⟩ := exists_rootFromLeaves (P := P) hpos hmax
  obtain rfl : treeNode P leaves d 0 = root := Except.ok.inj (htop.symm.trans hroot)
  obtain ⟨-, -, -, hcount, -⟩ := verifyRangeProof_eq_ok.1 hverify
  have hheld : proof.leaves.toList.take (fin - start) = treeRow P leaves 0 start fin :=
    take_leaves_eq_treeRow hle hpadded hn hlt hfin hwidth hfree hverify
  have hleaves : (leaves.drop start).take (fin - start) = treeRow P leaves 0 start fin :=
    take_drop_eq_treeRow hlt hfin
  refine ⟨?_, hheld.trans hleaves.symm⟩
  rw [hcount, toInt32_of_lt (hwidth.trans_lt (by decide))]

end RangeProof

/-- A range proof for the first of two leaves. -/
def firstOfTwo (a b : ForetiasHash32) : ForetiasMerkleRangeProof where
  leaves := fillArray [a]
  siblings := fillArray [b]
  leafCount := 1
  siblingCount := 1
  n := 2

/-- The verifier hashes the pair of the tree and nothing else. -/
theorem verifyRange_firstOfTwo (a b : ForetiasHash32) :
    verifyRange P (firstOfTwo a b) 0 1 = some ([merkleNodeHash P a b], [(a, b)]) := by
  have hleaves : (firstOfTwo a b).leaves.toList.take 1 = [a] :=
    take_toList_fillArray (n := merkleMaxRangeProof) (l := [a])
      (show 1 ≤ merkleMaxRangeProof by decide)
  have hsibling : (firstOfTwo a b).siblings.toList.take 1 = [b] :=
    take_toList_fillArray (n := merkleMaxDepth) (l := [b])
      (show 1 ≤ merkleMaxDepth by decide)
  have hdepth : merkleLog2 (merkleNextPow2 2) = 1 := by decide
  have hn : (firstOfTwo a b).n.toNat = 2 := rfl
  rw [verifyRange_eq (by decide), hleaves, hn, hdepth,
    ← List.take_append_drop 1 (firstOfTwo a b).siblings.toList, hsibling]
  rfl

theorem collisionFree_firstOfTwo (a b : ForetiasHash32) :
    CollisionFree P [a, b] (firstOfTwo a b) 0 1 := by
  intro top hashed hrun p hp q hq _
  rw [verifyRange_firstOfTwo, Option.some_inj, Prod.mk.injEq] at hrun
  obtain ⟨-, rfl⟩ := hrun
  have hpadded : merkleNextPow2 2 = 2 := by decide
  have hpairs : treePairs P [a, b] = [(a, b)] := by
    rw [treePairs, List.length_cons, List.length_singleton, hpadded]
    rfl
  rw [hpairs] at hq
  rw [List.mem_singleton.1 hp, List.mem_singleton.1 hq]

theorem verifyRangeProof_firstOfTwo (a b : ForetiasHash32) :
    foretiasMerkleVerifyRangeProof P (merkleNodeHash P a b) (firstOfTwo a b) 0 1 = some .ok :=
  verifyRangeProof_eq_ok.2 ⟨show (0 : ℤ) < 2 by decide, Nat.one_pos,
    show 1 ≤ (2 : ℤ).toNat by decide, rfl, _, verifyRange_firstOfTwo a b⟩

theorem merkleRange_sound_firstOfTwo :
    (firstOfTwo (.replicate 32 1) default).leafCount = ((1 - 0 : ℕ) : ℤ) ∧
      (firstOfTwo (.replicate 32 1) default).leaves.toList.take (1 - 0) =
        (List.drop 0 [FixedBytes.replicate 32 1, default]).take (1 - 0) :=
  merkleRange_sound (P := Primitives.transparent) (by decide) (by decide) rfl (by decide)
    (by decide) (by decide) rfl (collisionFree_firstOfTwo _ _) (verifyRangeProof_firstOfTwo _ _)

end Foretias

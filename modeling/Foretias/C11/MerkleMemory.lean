import Foretias.C11.MerkleProofs
import Foretias.Library.CheckedMemory
import Mathlib.Algebra.Ring.Int.Defs

/-!
# The memory of the Merkle verifier

`foretias_merkle_verify_range_proof` once more, on its arrays: the leaves and siblings of the proof
and the two local arrays of nodes. Every access is checked and every loop is counted, so that the
call has a fault where the C code leaves an array or does not end. The verifier on lists is what
it computes (`agrees_verifyRangeProof`).

The only checks are that the range lies in the tree and has as many leaves as the proof says. So
a range may be larger than the array of leaves, and one that is not may take more siblings than
there are: `verifyRangeProof_safe_iff`.
-/

namespace Foretias

variable (P : Primitives)

/-! ### Sizes -/

/-- `merkle_next_pow2`, where doubling wraps around. -/
def merkleNextPow2C (fuel n : ℕ) : Checked ℕ :=
  whileLoop (· < n) (fun p ↦ pure (2 * p % 2 ^ 64)) fuel 1

/-- The variables of `merkle_log2`. -/
structure Log2Vars where
  /-- What is left of the size. -/
  n : ℕ
  /-- The halvings so far. -/
  d : ℕ

/-- `merkle_log2`. -/
def merkleLog2C (fuel n : ℕ) : Checked ℕ := do
  let v ← whileLoop (fun v : Log2Vars ↦ 1 < v.n) (fun v ↦ pure ⟨v.n / 2, v.d + 1⟩) fuel ⟨n, 0⟩
  pure v.d

/-- There is one power of two from a size on and below its double. -/
theorem merkleNextPow2_eq_of {n d : ℕ} (hle : n ≤ 2 ^ d) (hlt : 2 ^ d < 2 * n) :
    merkleNextPow2 n = 2 ^ d := by
  obtain ⟨m, hm, hmle, hmlt⟩ := exists_merkleNextPow2_eq (n := n) (by omega)
  have hdm : 2 ^ d < 2 ^ (m + 1) := by
    rw [Nat.pow_succ']
    omega
  have hmd : 2 ^ m < 2 ^ (d + 1) := by
    rw [Nat.pow_succ']
    omega
  have h := (Nat.pow_lt_pow_iff_right Nat.one_lt_two).1 hdm
  have h' := (Nat.pow_lt_pow_iff_right Nat.one_lt_two).1 hmd
  obtain rfl : m = d := by omega
  exact hm

/-- For the sizes that a C int can give the loop ends without wrapping around. -/
theorem merkleNextPow2C_eq {fuel n : ℕ} (hpos : 1 ≤ n) (hn : n < 2 ^ 31) (hfuel : 2 ^ 31 ≤ fuel) :
    merkleNextPow2C fuel n = .ok (merkleNextPow2 n) := by
  have hbody : ∀ p, (∃ d, p = 2 ^ d ∧ p < 2 * n) → p < n →
      ∃ q, (pure (2 * p % 2 ^ 64) : Checked ℕ) = .ok q ∧ (∃ d, q = 2 ^ d ∧ q < 2 * n) ∧
        n - q < n - p := by
    rintro p ⟨d, rfl, -⟩ hlt
    have hwrap : 2 * 2 ^ d % 2 ^ 64 = 2 ^ (d + 1) := by
      rw [Nat.mod_eq_of_lt (by omega), Nat.pow_succ']
    have hpow : 1 ≤ 2 ^ d := Nat.one_le_two_pow
    refine ⟨2 ^ (d + 1), congrArg _ hwrap, ⟨d + 1, rfl, ?_⟩, ?_⟩
    · rw [Nat.pow_succ']
      omega
    · rw [Nat.pow_succ']
      omega
  have hloop : ∃ p, merkleNextPow2C fuel n = .ok p ∧ (∃ d, p = 2 ^ d ∧ p < 2 * n) ∧ ¬p < n :=
    whileLoop_of_invariant (fun p ↦ ∃ d, p = 2 ^ d ∧ p < 2 * n) (fun p ↦ n - p) hbody
      ⟨0, rfl, by omega⟩ (by omega)
  obtain ⟨p, hok, ⟨d, rfl, hlt⟩, hle⟩ := hloop
  rw [hok, merkleNextPow2_eq_of (Nat.le_of_not_lt hle) hlt]

/-- The halvings of a power of two are counted. -/
theorem merkleLog2C_two_pow {fuel d : ℕ} (hfuel : 2 ^ d ≤ fuel) :
    merkleLog2C fuel (2 ^ d) = .ok d := by
  have hbody : ∀ v : Log2Vars, (∃ k, v.n = 2 ^ k ∧ k + v.d = d) → 1 < v.n →
      ∃ w, (pure ⟨v.n / 2, v.d + 1⟩ : Checked Log2Vars) = .ok w ∧
        (∃ k, w.n = 2 ^ k ∧ k + w.d = d) ∧ w.n < v.n := by
    rintro ⟨_, e⟩ ⟨k, rfl, hk⟩ hlt
    dsimp only at hk hlt
    obtain ⟨k, rfl⟩ := Nat.exists_eq_add_one_of_ne_zero (n := k) (by rintro rfl; omega)
    have hhalf : 2 ^ (k + 1) / 2 = 2 ^ k := by
      rw [Nat.pow_succ, Nat.mul_div_cancel _ Nat.two_pos]
    refine ⟨_, rfl, ⟨k, hhalf, ?_⟩, ?_⟩
    · dsimp only
      omega
    · dsimp only
      omega
  have hloop : ∃ v, whileLoop (fun v : Log2Vars ↦ 1 < v.n) (fun v ↦ pure ⟨v.n / 2, v.d + 1⟩) fuel
      ⟨2 ^ d, 0⟩ = .ok v ∧ (∃ k, v.n = 2 ^ k ∧ k + v.d = d) ∧ ¬1 < v.n :=
    whileLoop_of_invariant (fun v ↦ ∃ k, v.n = 2 ^ k ∧ k + v.d = d) Log2Vars.n hbody
      ⟨d, rfl, rfl⟩ hfuel
  obtain ⟨v, hok, ⟨k, hv, hk⟩, hend⟩ := hloop
  rw [merkleLog2C, hok]
  have hzero : k = 0 := by
    by_contra hne
    rw [hv] at hend
    exact hend (Nat.one_lt_two_pow hne)
  rw [hzero, Nat.zero_add] at hk
  exact congrArg Except.ok hk

/-! ### One level -/

/-- The local variables of the loop that hashes a level's nodes two by two. -/
structure PairVars where
  /-- `next_nodes`. -/
  nextNodes : Vector ForetiasHash32 merkleMaxTreePadded
  /-- `next_count`. -/
  nextCount : ℕ
  /-- `i`. -/
  i : ℕ

/-- One turn of the loop that hashes a level's nodes two by two. -/
def pairTurn (levelNodes : Vector ForetiasHash32 merkleMaxTreePadded) (v : PairVars) :
    Checked PairVars := do
  let left ← readAt levelNodes v.i
  let right ← readAt levelNodes (v.i + 1)
  let nextNodes ← writeAt v.nextNodes v.nextCount (merkleNodeHash P left right)
  pure ⟨nextNodes, v.nextCount + 1, v.i + 2⟩

/-- The loop that hashes a level's nodes two by two. -/
def pairLoop (levelNodes : Vector ForetiasHash32 merkleMaxTreePadded) (levelCount fuel : ℕ)
    (v : PairVars) : Checked PairVars :=
  whileLoop (fun v ↦ v.i + 1 < levelCount) (pairTurn P levelNodes) fuel v

/-- The local variables of the verifier's loop over the levels. -/
structure LevelVars where
  /-- `level_nodes`. -/
  levelNodes : Vector ForetiasHash32 merkleMaxTreePadded
  /-- `next_nodes`. -/
  nextNodes : Vector ForetiasHash32 merkleMaxTreePadded
  /-- `level_count`. -/
  levelCount : ℕ
  /-- `sibling_idx`. -/
  siblingIdx : ℕ
  /-- `s`. -/
  s : ℕ
  /-- `e`. -/
  e : ℕ

/-- The start of a level: a node without its left neighbour takes a sibling. -/
def leftTurn (siblings : Vector ForetiasHash32 merkleMaxDepth) (v : LevelVars) :
    Checked (PairVars × ℕ) :=
  if v.s % 2 = 1 then do
    let sibling ← readAt siblings v.siblingIdx
    let first ← readAt v.levelNodes 0
    let nextNodes ← writeAt v.nextNodes 0 (merkleNodeHash P sibling first)
    pure (⟨nextNodes, 1, 1⟩, v.siblingIdx + 1)
  else pure (⟨v.nextNodes, 0, 0⟩, v.siblingIdx)

/-- The end of a level: a node without its right neighbour takes a sibling. -/
def rightTurn (siblings : Vector ForetiasHash32 merkleMaxDepth)
    (levelNodes : Vector ForetiasHash32 merkleMaxTreePadded) (levelCount : ℕ)
    (v : PairVars) (siblingIdx : ℕ) : Checked (PairVars × ℕ) :=
  if v.i < levelCount then do
    let last ← readAt levelNodes v.i
    let sibling ← readAt siblings siblingIdx
    let nextNodes ← writeAt v.nextNodes v.nextCount (merkleNodeHash P last sibling)
    pure (⟨nextNodes, v.nextCount + 1, v.i⟩, siblingIdx + 1)
  else pure (v, siblingIdx)

section Pairs

variable {P} {siblings : Vector ForetiasHash32 merkleMaxDepth}
  {levelNodes : Vector ForetiasHash32 merkleMaxTreePadded} {nodes acc rest : List ForetiasHash32}
  {a b : ForetiasHash32} {v : PairVars} {idx fuel : ℕ}

/-- The nodes hashed so far. -/
structure PairVars.Holds (v : PairVars) (acc : List ForetiasHash32) : Prop where
  nextNodes_eq : acc <+: v.nextNodes.toList
  nextCount_eq : v.nextCount = acc.length

/-- Hashing a pair adds to what was hashed. -/
theorem PairVars.Holds.exists_write (h : v.Holds acc) (hroom : acc.length < merkleMaxTreePadded)
    (hash : ForetiasHash32) :
    ∃ nextNodes, writeAt v.nextNodes v.nextCount hash = .ok nextNodes ∧
      ∀ i, PairVars.Holds ⟨nextNodes, v.nextCount + 1, i⟩ (acc ++ [hash]) := by
  obtain ⟨nextNodes, hwrite, hnext⟩ := exists_writeAt h.nextNodes_eq hroom hash
  rw [← h.nextCount_eq] at hwrite
  refine ⟨nextNodes, hwrite, fun i ↦ ⟨hnext, ?_⟩⟩
  rw [List.length_append, List.length_singleton, h.nextCount_eq]

theorem getElem?_of_cons_eq_drop {i : ℕ} (h : a :: rest = nodes.drop i) : nodes[i]? = some a := by
  rw [← List.head?_drop, ← h]
  rfl

theorem exists_pairTurn (hnodes : nodes <+: levelNodes.toList)
    (hdrop : a :: b :: rest = nodes.drop v.i) (hv : v.Holds acc)
    (hroom : acc.length < merkleMaxTreePadded) :
    ∃ nextNodes, pairTurn P levelNodes v = .ok ⟨nextNodes, v.nextCount + 1, v.i + 2⟩ ∧
      PairVars.Holds ⟨nextNodes, v.nextCount + 1, v.i + 2⟩ (acc ++ [merkleNodeHash P a b]) := by
  have ha : nodes[v.i]? = some a := getElem?_of_cons_eq_drop hdrop
  have hb : nodes[v.i + 1]? = some b := getElem?_of_cons_eq_drop (by
    rw [← List.drop_drop, ← hdrop]
    rfl)
  obtain ⟨nextNodes, hwrite, hholds⟩ := hv.exists_write hroom (merkleNodeHash P a b)
  refine ⟨nextNodes, ?_, hholds _⟩
  rw [pairTurn, readAt_of_isPrefix hnodes ha, readAt_of_isPrefix hnodes hb]
  change (writeAt v.nextNodes v.nextCount _ >>= _) = _
  rw [hwrite]
  rfl

/-- Where no pair is left, the end of the level comes at once. -/
theorem pairLoop_bind_rightTurn (hend : ¬v.i + 1 < nodes.length) :
    (pairLoop P levelNodes nodes.length fuel v >>= fun middle ↦
      rightTurn P siblings levelNodes nodes.length middle idx) =
      rightTurn P siblings levelNodes nodes.length v idx := by
  have hloop : pairLoop P levelNodes nodes.length fuel v = .ok v := by
    refine whileLoop_of_not ?_ fuel
    exact hend
  rw [hloop]
  rfl

/-- The loop over the pairs and the end of a level hash what `pairRest` pairs. -/
theorem agrees_pairRest {l : List ForetiasHash32} (hnodes : nodes <+: levelNodes.toList)
    (hdrop : l = nodes.drop v.i) (hv : v.Holds acc)
    (hroom : acc.length + l.length ≤ merkleMaxTreePadded) (hfuel : l.length ≤ fuel) :
    Agrees (fun (w : PairVars × ℕ) (r : List (ForetiasHash32 × ForetiasHash32) × ℕ) ↦
        w.1.Holds (acc ++ r.1.map fun p ↦ merkleNodeHash P p.1 p.2) ∧ w.2 = r.2)
      (pairLoop P levelNodes nodes.length fuel v >>= fun middle ↦
        rightTurn P siblings levelNodes nodes.length middle idx)
      (pairRest siblings.toList l idx) := by
  induction l using pairUp.induct generalizing v acc fuel with
  | case1 a b rest ih =>
    have hlength := congrArg List.length hdrop
    rw [List.length_cons, List.length_cons, List.length_drop] at hlength
    rw [List.length_cons, List.length_cons] at hroom hfuel
    obtain ⟨fuel, rfl⟩ := Nat.exists_eq_add_one_of_ne_zero (n := fuel) (by omega)
    obtain ⟨nextNodes, hturn, hholds⟩ := exists_pairTurn (P := P) hnodes hdrop hv (by omega)
    have hloop : pairLoop P levelNodes nodes.length (fuel + 1) v =
        pairLoop P levelNodes nodes.length fuel ⟨nextNodes, v.nextCount + 1, v.i + 2⟩ := by
      rw [pairLoop, whileLoop, if_pos (by omega), hturn]
      rfl
    have hrest : rest = nodes.drop (v.i + 2) := by
      rw [← List.drop_drop, ← hdrop]
      rfl
    have hih := ih hrest hholds (by
      rw [List.length_append, List.length_singleton]
      omega) (Nat.le_of_succ_le (Nat.le_of_succ_le_succ hfuel))
    rw [hloop]
    refine Agrees.bind_some hih ?_
    rintro w ⟨pairs, idx'⟩ ⟨hw, hidx⟩
    refine ⟨?_, hidx⟩
    rw [List.append_assoc] at hw
    exact hw
  | case2 a =>
    have hlength := congrArg List.length hdrop
    rw [List.length_singleton, List.length_drop] at hlength
    rw [List.length_singleton] at hroom
    have ha : nodes[v.i]? = some a := getElem?_of_cons_eq_drop hdrop
    rw [pairLoop_bind_rightTurn (by omega), rightTurn, if_pos (by omega),
      readAt_of_isPrefix hnodes ha]
    refine (agrees_readAt siblings idx).bind ?_
    rintro sibling _ rfl
    obtain ⟨nextNodes, hwrite, hholds⟩ := hv.exists_write (by omega) (merkleNodeHash P a sibling)
    rw [hwrite]
    exact ⟨hholds _, rfl⟩
  | case3 =>
    have hlength := congrArg List.length hdrop
    rw [List.length_nil, List.length_drop] at hlength
    rw [pairLoop_bind_rightTurn (by omega), rightTurn, if_neg (by omega)]
    refine ⟨?_, rfl⟩
    rw [List.map_nil, List.append_nil]
    exact hv

end Pairs

/-- The hashes of a level's nodes. -/
def hashTurn (siblings : Vector ForetiasHash32 merkleMaxDepth) (fuel : ℕ) (v : LevelVars) :
    Checked (PairVars × ℕ) := do
  let first ← leftTurn P siblings v
  let middle ← pairLoop P v.levelNodes v.levelCount fuel first.1
  rightTurn P siblings v.levelNodes v.levelCount middle first.2

/-- One turn of the verifier's loop over the levels. -/
def levelTurn (siblings : Vector ForetiasHash32 merkleMaxDepth) (fuel : ℕ) (v : LevelVars) :
    Checked LevelVars := do
  let last ← hashTurn P siblings fuel v
  let levelNodes ← copyArray last.1.nextNodes v.levelNodes last.1.nextCount
  pure ⟨levelNodes, last.1.nextNodes, last.1.nextCount, last.2, v.s / 2, (v.e + 1) / 2⟩

section Levels

variable {P} {siblings : Vector ForetiasHash32 merkleMaxDepth} {nodes : List ForetiasHash32}
  {v : LevelVars} {fuel depth : ℕ}

/-- The nodes of a level. -/
structure LevelVars.Holds (v : LevelVars) (nodes : List ForetiasHash32) : Prop where
  levelNodes_eq : nodes <+: v.levelNodes.toList
  levelCount_eq : v.levelCount = nodes.length
  ne_nil : nodes ≠ []
  length_le : nodes.length ≤ merkleMaxRangeProof

/-- A level has no more nodes than the one below it. -/
theorem length_verifyLevel {s idx idx' : ℕ} {l : List ForetiasHash32}
    {pairs : List (ForetiasHash32 × ForetiasHash32)} (hne : nodes ≠ [])
    (h : verifyLevel l s nodes idx = some (pairs, idx')) :
    0 < pairs.length ∧ pairs.length ≤ nodes.length := by
  obtain ⟨left, right, hleft, hright, -, rfl, -⟩ := (verifyLevel_eq_some hne).1 h
  have hpos := List.length_pos_iff.2 hne
  rw [length_pairUp, List.length_append, List.length_append, hleft, hright]
  omega

/-- What `verifyLevel` pairs up is hashed. -/
theorem agrees_hashTurn (hv : v.Holds nodes) (hfuel : merkleMaxRangeProof ≤ fuel) :
    Agrees (fun (w : PairVars × ℕ) (r : List (ForetiasHash32 × ForetiasHash32) × ℕ) ↦
        w.1.Holds (r.1.map fun p ↦ merkleNodeHash P p.1 p.2) ∧ w.2 = r.2)
      (hashTurn P siblings fuel v)
      (verifyLevel siblings.toList v.s nodes v.siblingIdx) := by
  have hsmall : merkleMaxRangeProof + 1 ≤ merkleMaxTreePadded := by decide
  have hle := hv.length_le
  have hempty : ∀ i, PairVars.Holds ⟨v.nextNodes, 0, i⟩ [] := fun i ↦ ⟨List.nil_prefix, rfl⟩
  rw [hashTurn, leftTurn, verifyLevel, hv.levelCount_eq]
  by_cases hodd : v.s % 2 = 1
  · obtain ⟨first, rest, rfl⟩ := List.exists_cons_of_ne_nil hv.ne_nil
    rw [List.length_cons] at hle
    rw [if_pos hodd, if_pos hodd, bind_assoc]
    refine (agrees_readAt siblings v.siblingIdx).bind ?_
    rintro sibling _ rfl
    obtain ⟨nextNodes, hwrite, hholds⟩ :=
      (hempty 0).exists_write (Nat.pos_of_ne_zero (by decide)) (merkleNodeHash P sibling first)
    have hfirst : readAt v.levelNodes 0 = .ok first := readAt_of_isPrefix hv.levelNodes_eq rfl
    rw [hfirst, Checked.ok_bind, hwrite, Checked.ok_bind, pure_bind]
    refine (agrees_pairRest hv.levelNodes_eq rfl (hholds 1) ?_ ?_).bind_some ?_
    · rw [List.drop_one, List.tail_cons, List.length_append, List.length_nil,
        List.length_singleton]
      omega
    · rw [List.drop_one, List.tail_cons]
      omega
    · rintro w ⟨pairs, idx⟩ ⟨hw, hidx⟩
      exact ⟨hw, hidx⟩
  · rw [if_neg hodd, if_neg hodd]
    refine (agrees_pairRest hv.levelNodes_eq List.drop_zero.symm (hempty 0) ?_ ?_).mono ?_
    · rw [List.length_nil, List.drop_zero]
      omega
    · rw [List.drop_zero]
      omega
    · rintro w ⟨pairs, idx⟩ ⟨hw, hidx⟩
      exact ⟨hw, hidx⟩

/-- A turn of the loop computes the level above. -/
theorem agrees_levelTurn (hv : v.Holds nodes) (hfuel : merkleMaxRangeProof ≤ fuel) :
    Agrees (fun (w : LevelVars) (r : List (ForetiasHash32 × ForetiasHash32) × ℕ) ↦
        w.Holds (r.1.map fun p ↦ merkleNodeHash P p.1 p.2) ∧ w.siblingIdx = r.2 ∧ w.s = v.s / 2)
      (levelTurn P siblings fuel v)
      (verifyLevel siblings.toList v.s nodes v.siblingIdx) := by
  refine (agrees_hashTurn hv hfuel).and_eq_some.bind_ok ?_
  rintro w ⟨pairs, idx⟩ ⟨⟨hw, hidx⟩, hlevel⟩
  obtain ⟨hpos, hlength⟩ := length_verifyLevel hv.ne_nil hlevel
  have hle := hlength.trans hv.length_le
  have hsmall : merkleMaxRangeProof ≤ merkleMaxTreePadded := by decide
  have hcount : (pairs.map fun p ↦ merkleNodeHash P p.1 p.2).length = w.1.nextCount :=
    hw.nextCount_eq.symm
  have hcopied : ∃ levelNodes : Vector ForetiasHash32 merkleMaxTreePadded,
      copyArray w.1.nextNodes v.levelNodes w.1.nextCount = .ok levelNodes ∧
      (pairs.map fun p ↦ merkleNodeHash P p.1 p.2).take w.1.nextCount <+: levelNodes.toList := by
    refine exists_copyArray hw.nextNodes_eq hcount.ge ?_
    rw [← hcount, List.length_map]
    exact hle.trans hsmall
  obtain ⟨levelNodes, hcopy, hlevel⟩ := hcopied
  rw [← hcount, List.take_length] at hlevel
  rw [hcopy]
  refine ⟨_, rfl, ⟨hlevel, hcount.symm, ?_, ?_⟩, hidx, rfl⟩
  · exact List.ne_nil_of_length_pos (by rwa [List.length_map])
  · rwa [List.length_map]

end Levels

/-- The verifier's loop over the levels. -/
def levelLoop (siblings : Vector ForetiasHash32 merkleMaxDepth) (fuel : ℕ) :
    ℕ → LevelVars → Checked LevelVars
  | 0, v => pure v
  | depth + 1, v => do
    let v ← levelTurn P siblings fuel v
    levelLoop siblings fuel depth v

/-- `foretias_merkle_verify_range_proof`: the value of `*result_out`, for what the two local arrays
hold before they are written to. -/
def foretiasMerkleVerifyRangeProofC (fuel : ℕ)
    (levelNodes nextNodes : Vector ForetiasHash32 merkleMaxTreePadded) (root : ForetiasHash32)
    (proof : ForetiasMerkleRangeProof) (start fin : ℕ) : Checked ForetiasResult :=
  if proof.n ≤ 0 then pure .errProofRangeEmpty
  else if fin ≤ start then pure .errProofRangeEmpty
  else if proof.n.toNat < fin then pure .errProofRangeExceeds
  else if proof.leafCount ≠ toInt32 (fin - start) then pure .errBadProof
  else do
    let padded ← merkleNextPow2C fuel proof.n.toNat
    let depth ← merkleLog2C fuel padded
    let levelCount := fin - start
    let levelNodes ← copyArray proof.leaves levelNodes levelCount
    let v ← levelLoop P proof.siblings fuel depth ⟨levelNodes, nextNodes, levelCount, 0, start, fin⟩
    if v.levelCount = 1 then do
      let top ← readAt v.levelNodes 0
      pure (if top = root then .ok else .errBadProof)
    else pure .errBadProof

section Verifier

variable {P} {siblings : Vector ForetiasHash32 merkleMaxDepth} {nodes : List ForetiasHash32}
  {v : LevelVars} {fuel depth : ℕ}

/-- The loop computes the top that `verifyLevels` leaves. -/
theorem agrees_levelLoop (hv : v.Holds nodes) (hfuel : merkleMaxRangeProof ≤ fuel) :
    Agrees (fun (w : LevelVars) (r : List ForetiasHash32 × List (ForetiasHash32 × ForetiasHash32)) ↦
        w.Holds r.1)
      (levelLoop P siblings fuel depth v)
      (verifyLevels P siblings.toList depth v.s nodes v.siblingIdx) := by
  induction depth generalizing v nodes with
  | zero => exact hv
  | succ depth ih =>
    refine (agrees_levelTurn hv hfuel).bind ?_
    rintro w ⟨pairs, idx⟩ ⟨hw, rfl, hs⟩
    refine (hs ▸ ih hw).bind_some ?_
    rintro u ⟨top, hashed⟩ hu
    exact hu

/-- Reading past the end of a list has no result. -/
theorem mapM_getElem?_range_of_lt {l : List ForetiasHash32} {m : ℕ} (h : l.length < m) :
    (List.range m).mapM (l[·]?) = none := by
  induction m with
  | zero => exact absurd h (Nat.not_lt_zero _)
  | succ m ih =>
    rw [List.range_succ, List.mapM_append]
    by_cases hlt : l.length < m
    · rw [ih hlt]
      rfl
    · have hm : l[m]? = none := List.getElem?_eq_none (by omega)
      rw [mapM_getElem?_range (by omega)]
      simp [hm]

theorem verifyRange_of_lt {proof : ForetiasMerkleRangeProof} {start fin : ℕ}
    (h : merkleMaxRangeProof < fin - start) : verifyRange P proof start fin = none := by
  rw [verifyRange, mapM_getElem?_range_of_lt (by rwa [Vector.length_toList])]
  rfl

/-- **The verifier on its arrays computes what the verifier on lists does, and leaves its arrays
where that one has no result.** -/
theorem agrees_verifyRangeProof (levelNodes nextNodes : Vector ForetiasHash32 merkleMaxTreePadded)
    (root : ForetiasHash32) {proof : ForetiasMerkleRangeProof} (start fin : ℕ)
    (hn : proof.n < 2 ^ 31) (hfuel : 2 ^ 31 ≤ fuel) :
    Agrees Eq (foretiasMerkleVerifyRangeProofC P fuel levelNodes nextNodes root proof start fin)
      (foretiasMerkleVerifyRangeProof P root proof start fin) := by
  rw [foretiasMerkleVerifyRangeProofC, foretiasMerkleVerifyRangeProof]
  split_ifs with hpos hempty hexceeds hcount
  · rfl
  · rfl
  · rfl
  · rfl
  have hsize : proof.n.toNat < 2 ^ 31 := by omega
  obtain ⟨d, hpadded, hle, hlt⟩ := exists_merkleNextPow2_eq (n := proof.n.toNat) (by omega)
  have hd : 2 ^ d ≤ fuel := by
    have hpow : 2 ^ d < 2 ^ (31 + 1) := by
      rw [Nat.pow_succ']
      omega
    have hdepth := (Nat.pow_lt_pow_iff_right Nat.one_lt_two).1 hpow
    exact (Nat.pow_le_pow_right Nat.two_pos (by omega)).trans hfuel
  rw [merkleNextPow2C_eq (by omega) hsize hfuel, Checked.ok_bind, hpadded, merkleLog2C_two_pow hd,
    Checked.ok_bind]
  dsimp only
  by_cases hwidth : fin - start ≤ merkleMaxRangeProof
  · have hlength : (proof.leaves.toList.take (fin - start)).length = fin - start := by
      rw [List.length_take, Vector.length_toList, Nat.min_eq_left hwidth]
    have hcopied : ∃ copied : Vector ForetiasHash32 merkleMaxTreePadded,
        copyArray proof.leaves levelNodes (fin - start) = .ok copied ∧
        proof.leaves.toList.take (fin - start) <+: copied.toList :=
      exists_copyArray List.prefix_rfl (by rwa [Vector.length_toList])
        (hwidth.trans (by decide))
    obtain ⟨copied, hcopy, hlevel⟩ := hcopied
    rw [hcopy, Checked.ok_bind, verifyRange_eq hwidth, hpadded, merkleLog2_two_pow]
    have hstart : LevelVars.Holds ⟨copied, nextNodes, fin - start, 0, start, fin⟩
        (proof.leaves.toList.take (fin - start)) :=
      ⟨hlevel, hlength.symm, List.ne_nil_of_length_pos (by omega), hlength.trans_le hwidth⟩
    have hsmall : merkleMaxRangeProof ≤ 2 ^ 31 := by decide
    refine (agrees_levelLoop hstart (hsmall.trans hfuel)).bind ?_
    rintro w ⟨top, hashed⟩ hw
    dsimp only
    rw [hw.levelCount_eq]
    split
    · rename_i hone
      obtain ⟨a, rfl⟩ := List.length_eq_one_iff.1 hone
      rw [readAt_of_isPrefix hw.levelNodes_eq rfl]
      simp [Agrees]
    · rename_i hmany
      rw [if_neg (by rintro rfl; exact hmany rfl)]
      rfl
  · have hfault : ∃ i len, copyArray proof.leaves levelNodes (fin - start) =
        .error (.outOfBounds i len) := copyArray_of_lt (Nat.lt_of_not_le hwidth) (by decide)
    obtain ⟨i, len, hcopy⟩ := hfault
    rw [hcopy, verifyRange_of_lt (Nat.lt_of_not_le hwidth)]
    trivial

end Verifier

/-! ### When the verifier stays in its arrays -/

/-- The number of siblings that a range takes: one for each odd end, at each level. -/
def siblingsTaken : ℕ → ℕ → ℕ → ℕ
  | 0, _, _ => 0
  | depth + 1, s, e => s % 2 + e % 2 + siblingsTaken depth (s / 2) ((e + 1) / 2)

/-- The call is refused by a check, or its range fits in the array of leaves and takes no more
siblings than there are. -/
def ForetiasMerkleRangeProof.Safe (proof : ForetiasMerkleRangeProof) (start fin : ℕ) : Prop :=
  proof.n ≤ 0 ∨ fin ≤ start ∨ proof.n.toNat < fin ∨ proof.leafCount ≠ toInt32 (fin - start) ∨
    fin - start ≤ merkleMaxRangeProof ∧
      siblingsTaken (merkleLog2 (merkleNextPow2 proof.n.toNat)) start fin ≤ merkleMaxDepth

section Safe

variable {P} {siblings nodes : List ForetiasHash32} {s e idx depth : ℕ}

/-- A level has a result if there are enough siblings. -/
theorem exists_verifyLevel (hne : nodes ≠ []) (he : s + nodes.length = e)
    (hlen : idx + (s % 2 + e % 2) ≤ siblings.length) :
    ∃ pairs idx', verifyLevel siblings s nodes idx = some (pairs, idx') := by
  refine ⟨_, _, (verifyLevel_eq_some hne).2 ⟨(siblings.drop idx).take (s % 2),
    ((siblings.drop idx).drop (s % 2)).take (e % 2), ?_, ?_, ?_, rfl, rfl⟩⟩
  · rw [List.length_take, List.length_drop]
    omega
  · rw [List.length_take, List.length_drop, List.length_drop, he]
    omega
  · rw [← List.take_add]
    exact List.take_prefix _ _

/-- What a level takes, and what it leaves. -/
theorem verifyLevel_counts {pairs : List (ForetiasHash32 × ForetiasHash32)} {idx' : ℕ}
    (hne : nodes ≠ []) (he : s + nodes.length = e) (hidx : idx ≤ siblings.length)
    (h : verifyLevel siblings s nodes idx = some (pairs, idx')) :
    idx' = idx + (s % 2 + e % 2) ∧ idx' ≤ siblings.length ∧ pairs ≠ [] ∧
      s / 2 + pairs.length = (e + 1) / 2 := by
  obtain ⟨left, right, hleft, hright, hsiblings, rfl, rfl⟩ := (verifyLevel_eq_some hne).1 h
  have hpos := List.length_pos_iff.2 hne
  have htaken := hsiblings.length_le
  rw [List.length_drop] at htaken
  have hcount : (left ++ right).length = s % 2 + e % 2 := by
    rw [List.length_append, hleft, hright, he]
  have hpairs : (pairUp (left ++ nodes ++ right)).length = (s % 2 + nodes.length + e % 2) / 2 := by
    rw [length_pairUp, List.length_append, List.length_append, hleft, hright, he]
  refine ⟨by rw [hcount], by omega, List.ne_nil_of_length_pos ?_, ?_⟩
  · rw [hpairs]
    omega
  · rw [hpairs]
    omega

/-- The walk over the levels has a result exactly if there are enough siblings. -/
theorem isSome_verifyLevels_iff (hne : nodes ≠ []) (he : s + nodes.length = e)
    (hidx : idx ≤ siblings.length) :
    (verifyLevels P siblings depth s nodes idx).isSome ↔
      idx + siblingsTaken depth s e ≤ siblings.length := by
  induction depth generalizing s e nodes idx with
  | zero => exact iff_of_true rfl hidx
  | succ depth ih =>
    rw [verifyLevels, siblingsTaken]
    cases hlevel : verifyLevel siblings s nodes idx with
    | none =>
      refine iff_of_false Bool.false_ne_true fun hlen ↦ ?_
      have hlevel' : ∃ pairs idx', verifyLevel siblings s nodes idx = some (pairs, idx') :=
        exists_verifyLevel hne he (by omega)
      obtain ⟨pairs, idx', hsome⟩ := hlevel'
      rw [hlevel] at hsome
      cases hsome
    | some r =>
      obtain ⟨pairs, idx'⟩ := r
      obtain ⟨rfl, hle, hpairs, hcount⟩ := verifyLevel_counts hne he hidx hlevel
      have hlength : s / 2 + (pairs.map fun p ↦ merkleNodeHash P p.1 p.2).length = (e + 1) / 2 := by
        rwa [List.length_map]
      have hrest := ih (mt List.map_eq_nil_iff.1 hpairs) hlength hle
      rw [Nat.add_assoc] at hrest
      rw [← hrest]
      change ((verifyLevels P siblings depth (s / 2) _ _).bind _).isSome ↔ _
      rw [Option.isSome_bind]
      simp

variable {proof : ForetiasMerkleRangeProof} {start fin : ℕ}

theorem isSome_verifyRange_iff (hlt : start < fin) :
    (verifyRange P proof start fin).isSome ↔ fin - start ≤ merkleMaxRangeProof ∧
      siblingsTaken (merkleLog2 (merkleNextPow2 proof.n.toNat)) start fin ≤ merkleMaxDepth := by
  by_cases hwidth : fin - start ≤ merkleMaxRangeProof
  · have hlength : (proof.leaves.toList.take (fin - start)).length = fin - start := by
      rw [List.length_take, Vector.length_toList, Nat.min_eq_left hwidth]
    rw [verifyRange_eq hwidth, isSome_verifyLevels_iff (e := fin)
      (List.ne_nil_of_length_pos (by omega)) (by omega) (Nat.zero_le _), Nat.zero_add,
      Vector.length_toList]
    exact (and_iff_right hwidth).symm
  · rw [verifyRange_of_lt (Nat.lt_of_not_le hwidth)]
    exact iff_of_false (fun h ↦ nomatch h) fun h ↦ hwidth h.1

theorem isSome_verifyRangeProof_iff {root : ForetiasHash32} :
    (foretiasMerkleVerifyRangeProof P root proof start fin).isSome ↔ proof.Safe start fin := by
  rw [foretiasMerkleVerifyRangeProof, ForetiasMerkleRangeProof.Safe]
  split_ifs with hn hempty hexceeds hcount
  · exact iff_of_true rfl (.inl hn)
  · exact iff_of_true rfl (.inr (.inl hempty))
  · exact iff_of_true rfl (.inr (.inr (.inl hexceeds)))
  · exact iff_of_true rfl (.inr (.inr (.inr (.inl hcount))))
  · rw [or_iff_right hn, or_iff_right hempty, or_iff_right hexceeds, or_iff_right hcount,
      ← isSome_verifyRange_iff (P := P) (Nat.lt_of_not_le hempty)]
    cases verifyRange P proof start fin with
    | none => exact Iff.rfl
    | some r => exact iff_of_true rfl rfl

end Safe

section Calls

variable {P} {fuel : ℕ} {levelNodes nextNodes : Vector ForetiasHash32 merkleMaxTreePadded}
  {root : ForetiasHash32} {proof : ForetiasMerkleRangeProof} {start fin : ℕ}

theorem exists_verifyRangeProofC_eq_ok (hn : proof.n < 2 ^ 31) (hfuel : 2 ^ 31 ≤ fuel) :
    (∃ result, foretiasMerkleVerifyRangeProofC P fuel levelNodes nextNodes root proof start fin =
      .ok result) ↔ proof.Safe start fin := by
  have hsafe : (foretiasMerkleVerifyRangeProof P root proof start fin).isSome ↔
    proof.Safe start fin := isSome_verifyRangeProof_iff
  rw [← hsafe, Option.isSome_iff_exists]
  exact exists_congr
    (agrees_eq_iff.1 (agrees_verifyRangeProof levelNodes nextNodes root start fin hn hfuel)).1

/-- **The verifier stays in its arrays exactly if a check refuses the call, or the range fits in
the array of leaves and takes no more siblings than there are.** Its loops end in every case. -/
theorem verifyRangeProof_safe_iff (hn : proof.n < 2 ^ 31) (hfuel : 2 ^ 31 ≤ fuel) :
    ((∃ result, foretiasMerkleVerifyRangeProofC P fuel levelNodes nextNodes root proof start fin =
        .ok result) ↔ proof.Safe start fin) ∧
    foretiasMerkleVerifyRangeProofC P fuel levelNodes nextNodes root proof start fin ≠
      .error .outOfFuel := by
  refine ⟨exists_verifyRangeProofC_eq_ok hn hfuel, fun hfault ↦ ?_⟩
  obtain ⟨hok, hnone⟩ := agrees_eq_iff.1
    (agrees_verifyRangeProof (P := P) levelNodes nextNodes root start fin hn hfuel)
  cases hlist : foretiasMerkleVerifyRangeProof P root proof start fin with
  | none =>
    obtain ⟨i, len, hout⟩ := hnone hlist
    rw [hfault] at hout
    cases hout
  | some result =>
    have hresult := (hok result).2 hlist
    rw [hfault] at hresult
    cases hresult

end Calls

/-- A proof with zero leaves and siblings and the counts. -/
def countsProof (leafCount n : ℕ) : ForetiasMerkleRangeProof where
  leaves := Vector.replicate _ default
  siblings := Vector.replicate _ default
  leafCount
  siblingCount := 0
  n

/-- The arrays of the stack, with zeros. -/
def zeroNodes : Vector ForetiasHash32 merkleMaxTreePadded := Vector.replicate _ default

/-- The first leaf of two. -/
theorem verifyRangeProof_safe_two :
    ∃ result, foretiasMerkleVerifyRangeProofC .transparent (2 ^ 31) zeroNodes zeroNodes default
      (countsProof 1 2) 0 1 = .ok result :=
  (verifyRangeProof_safe_iff (show ((2 : ℕ) : ℤ) < 2 ^ 31 by decide) le_rfl).1.2
    (.inr (.inr (.inr (.inr ⟨by decide, by decide⟩))))

/-- No check refuses a range in the tree that the counts agree with. -/
theorem not_safe_countsProof {n start fin : ℕ} (hlt : start < fin) (hfin : fin ≤ n)
    (hwidth : fin - start < 2 ^ 31)
    (hout : fin - start ≤ merkleMaxRangeProof →
      merkleMaxDepth < siblingsTaken (merkleLog2 (merkleNextPow2 n)) start fin) :
    ¬(countsProof (fin - start) n).Safe start fin := by
  rintro (hn | hempty | hexceeds | hcount | ⟨hle, htaken⟩)
  · have hpos : (n : ℤ) ≤ 0 := hn
    omega
  · omega
  · have hlt' : n < fin := hexceeds
    omega
  · exact hcount (toInt32_of_lt hwidth).symm
  · exact absurd htaken (Nat.not_le.2 (hout hle))

/-- **The first 65 leaves of a tree leave the array of leaves, and two leaves in the middle of a
tree the array of siblings.** -/
theorem not_verifyRangeProof_safe :
    (¬∃ result, foretiasMerkleVerifyRangeProofC .transparent (2 ^ 31) zeroNodes zeroNodes default
      (countsProof 65 65) 0 65 = .ok result) ∧
    ¬∃ result, foretiasMerkleVerifyRangeProofC .transparent (2 ^ 31) zeroNodes zeroNodes default
      (countsProof 2 (2 ^ 30 + 1)) (2 ^ 30 - 1) (2 ^ 30 + 1) = .ok result := by
  constructor
  · intro h
    have hn : ((65 : ℕ) : ℤ) < 2 ^ 31 := by decide
    have hunsafe : ¬(countsProof 65 65).Safe 0 65 :=
      not_safe_countsProof (by decide) le_rfl (by decide) fun hle ↦ absurd hle (by decide)
    exact hunsafe ((exists_verifyRangeProofC_eq_ok hn le_rfl).1 h)
  · intro h
    have hn : ((2 ^ 30 + 1 : ℕ) : ℤ) < 2 ^ 31 := by decide
    have hdepth : merkleLog2 (merkleNextPow2 (2 ^ 30 + 1)) = 31 := by
      rw [merkleNextPow2_eq_of (d := 31) (by decide) (by decide), merkleLog2_two_pow]
    have hunsafe : ¬(countsProof 2 (2 ^ 30 + 1)).Safe (2 ^ 30 - 1) (2 ^ 30 + 1) := by
      refine not_safe_countsProof (by decide) le_rfl (by decide) fun _ ↦ ?_
      rw [hdepth]
      decide
    exact hunsafe ((exists_verifyRangeProofC_eq_ok hn le_rfl).1 h)

end Foretias

import Mathlib.Algebra.Group.Nat.Defs
import Mathlib.Data.List.Basic
import Mathlib.Data.Nat.Log

/-!
# Merkle trees over a row of leaves

A binary hash tree over an infinite row of leaves: node `i` of level `k + 1` is the hash of nodes
`2 * i` and `2 * i + 1` of level `k`. `merkleRow` is a stretch of one level. Hashing the pairs of
a stretch that begins and ends at even positions gives the stretch of half the length above it
(`hashPairs_merkleRow`), and if no two of the pairs hashed collide, only that stretch does
(`eq_merkleRow_of_hashPairs`): one level of a completeness and of a soundness argument.

A finite tree is a tree whose row of leaves is filled up with a constant.
-/

variable {α : Type*}

/-- Neighbours taken in pairs; a last one left over is dropped. -/
def pairUp : List α → List (α × α)
  | a :: b :: l => (a, b) :: pairUp l
  | [_] => []
  | [] => []

/-- The hashes of the pairs of a list. -/
def hashPairs (hash : α → α → α) (l : List α) : List α := (pairUp l).map fun p ↦ hash p.1 p.2

/-- Node `i` of level `k` over a row of leaves. -/
def merkleNode (hash : α → α → α) (leaf : ℕ → α) : ℕ → ℕ → α
  | 0, i => leaf i
  | k + 1, i => hash (merkleNode hash leaf k (2 * i)) (merkleNode hash leaf k (2 * i + 1))

/-- The nodes of level `k` from `s` on, up to before `e`. -/
def merkleRow (hash : α → α → α) (leaf : ℕ → α) (k s e : ℕ) : List α :=
  (List.range' s (e - s)).map (merkleNode hash leaf k)

section PairUp

@[simp] theorem length_pairUp (l : List α) : (pairUp l).length = l.length / 2 := by
  induction l using pairUp.induct with
  | case1 a b l ih =>
    simp only [pairUp, List.length_cons, ih]
    omega
  | case2 => simp [pairUp]
  | case3 => simp [pairUp]

/-- A list of even length is its pairs, one after another. -/
theorem flatMap_pairUp {l : List α} (h : l.length % 2 = 0) :
    ((pairUp l).flatMap fun p ↦ [p.1, p.2]) = l := by
  induction l using pairUp.induct with
  | case1 a b l ih =>
    have hl : l.length % 2 = 0 := by
      simp only [List.length_cons] at h
      omega
    rw [pairUp, List.flatMap_cons, ih hl]
    rfl
  | case2 => simp at h
  | case3 => rfl

/-- Two lists of even length with the same pairs are one list. -/
theorem eq_of_pairUp_eq {l l' : List α} (h : l.length % 2 = 0) (h' : l'.length % 2 = 0)
    (heq : pairUp l = pairUp l') : l = l' := by
  rw [← flatMap_pairUp h, heq, flatMap_pairUp h']

end PairUp

section Rows

variable {hash : α → α → α} {leaf : ℕ → α} {k s e : ℕ}

@[simp] theorem length_merkleRow : (merkleRow hash leaf k s e).length = e - s := by
  rw [merkleRow, List.length_map, List.length_range']

theorem merkleRow_singleton (i : ℕ) :
    merkleRow hash leaf k i (i + 1) = [merkleNode hash leaf k i] := by
  rw [merkleRow, Nat.add_sub_cancel_left]
  rfl

/-- A stretch is cut at any position inside it. -/
theorem merkleRow_append {m : ℕ} (hs : s ≤ m) (he : m ≤ e) :
    merkleRow hash leaf k s m ++ merkleRow hash leaf k m e = merkleRow hash leaf k s e := by
  have hm : s + 1 * (m - s) = m := by omega
  have hlength : m - s + (e - m) = e - s := by omega
  have happend : List.range' s (m - s) ++ List.range' (s + 1 * (m - s)) (e - m) =
      List.range' s (m - s + (e - m)) := List.range'_append
  rw [hm, hlength] at happend
  rw [merkleRow, merkleRow, merkleRow, ← List.map_append, happend]

theorem getElem?_merkleRow {i : ℕ} (h : s + i < e) :
    (merkleRow hash leaf k s e)[i]? = some (merkleNode hash leaf k (s + i)) := by
  have hi : i < e - s := by omega
  rw [merkleRow, List.getElem?_map, List.getElem?_range' hi, Nat.one_mul]
  rfl

/-- The pairs of a stretch that begins and ends at even positions. -/
theorem pairUp_merkleRow (a b : ℕ) :
    pairUp (merkleRow hash leaf k (2 * a) (2 * b)) = (List.range' a (b - a)).map fun i ↦
      (merkleNode hash leaf k (2 * i), merkleNode hash leaf k (2 * i + 1)) := by
  induction h : b - a generalizing a with
  | zero =>
    have hempty : merkleRow hash leaf k (2 * a) (2 * b) = [] := by
      refine List.eq_nil_of_length_eq_zero ?_
      rw [length_merkleRow]
      omega
    rw [hempty]
    rfl
  | succ n ih =>
    have hcut : merkleRow hash leaf k (2 * a) (2 * a + 2) ++
        merkleRow hash leaf k (2 * a + 2) (2 * b) = merkleRow hash leaf k (2 * a) (2 * b) :=
      merkleRow_append (by omega) (by omega)
    have htwo : merkleRow hash leaf k (2 * a) (2 * a + 2) =
        [merkleNode hash leaf k (2 * a), merkleNode hash leaf k (2 * a + 1)] := by
      rw [merkleRow, Nat.add_sub_cancel_left]
      rfl
    rw [← hcut, htwo, List.range'_succ, List.map_cons, ← ih (a + 1) (by omega)]
    rfl

/-- Hashing the pairs of a stretch gives the stretch above it. -/
theorem hashPairs_merkleRow (a b : ℕ) :
    hashPairs hash (merkleRow hash leaf k (2 * a) (2 * b)) = merkleRow hash leaf (k + 1) a b := by
  rw [hashPairs, pairUp_merkleRow, List.map_map]
  rfl

/-- If the pairs of a list hash to a stretch of a level, and none of them collides with a pair of
that stretch, the list is the stretch below. -/
theorem eq_merkleRow_of_hashPairs {l : List α} {a b : ℕ} (heven : l.length % 2 = 0)
    (hfree : ∀ p ∈ pairUp l, ∀ i, a ≤ i → i < b →
      hash p.1 p.2 = merkleNode hash leaf (k + 1) i →
      p = (merkleNode hash leaf k (2 * i), merkleNode hash leaf k (2 * i + 1)))
    (h : hashPairs hash l = merkleRow hash leaf (k + 1) a b) :
    l = merkleRow hash leaf k (2 * a) (2 * b) := by
  have hrow : (merkleRow hash leaf k (2 * a) (2 * b)).length % 2 = 0 := by
    rw [length_merkleRow]
    omega
  refine eq_of_pairUp_eq heven hrow ?_
  rw [pairUp_merkleRow]
  have hlength := congrArg List.length h
  rw [hashPairs, List.length_map, length_merkleRow] at hlength
  refine List.ext_getElem ?_ fun j hj hj' ↦ ?_
  · rw [hlength, List.length_map, List.length_range']
  · have hjb : a + j < b := by omega
    have hget := congrArg (·[j]?) h
    simp only [hashPairs, List.getElem?_map, List.getElem?_eq_getElem hj, Option.map_some] at hget
    rw [getElem?_merkleRow hjb, Option.some_inj] at hget
    rw [List.getElem_map, List.getElem_range', Nat.one_mul]
    exact hfree _ (List.getElem_mem hj) (a + j) (Nat.le_add_right a j) hjb hget

end Rows

section Paths

/-- A node hashed with the siblings of a path, from below; each step says whether the node is the
left one of its pair. -/
def climb (hash : α → α → α) : List (Bool × α) → α → α
  | [], a => a
  | (left, sibling) :: path, a =>
    climb hash path (if left then hash a sibling else hash sibling a)

/-- The pairs that are hashed on the way. -/
def climbPairs (hash : α → α → α) : List (Bool × α) → α → List (α × α)
  | [], _ => []
  | (left, sibling) :: path, a =>
    (if left then (a, sibling) else (sibling, a)) ::
      climbPairs hash path (if left then hash a sibling else hash sibling a)

/-- The siblings on the way from node `i` of level `k` up `d` levels. -/
def merklePath (hash : α → α → α) (leaf : ℕ → α) : ℕ → ℕ → ℕ → List (Bool × α)
  | _, _, 0 => []
  | k, i, d + 1 =>
    (if i % 2 = 0 then (true, merkleNode hash leaf k (i + 1))
      else (false, merkleNode hash leaf k (i - 1))) :: merklePath hash leaf (k + 1) (i / 2) d

variable {hash : α → α → α} {leaf : ℕ → α} {k i d : ℕ}

@[simp] theorem length_merklePath : (merklePath hash leaf k i d).length = d := by
  induction d generalizing k i with
  | zero => rfl
  | succ d ih => rw [merklePath, List.length_cons, ih]

variable (hash leaf k i d) in
/-- The path of a node leads to the node above it. -/
theorem climb_merklePath : climb hash (merklePath hash leaf k i d) (merkleNode hash leaf k i) =
    merkleNode hash leaf (k + d) (i / 2 ^ d) := by
  induction d generalizing k i with
  | zero =>
    rw [Nat.pow_zero, Nat.div_one]
    rfl
  | succ d ih =>
    have hk : k + (d + 1) = k + 1 + d := by omega
    have hi : i / 2 ^ (d + 1) = i / 2 / 2 ^ d := by rw [Nat.pow_succ', Nat.div_div_eq_div_mul]
    rw [hk, hi, ← ih (k + 1) (i / 2), merklePath]
    by_cases heven : i % 2 = 0
    · have hleft : 2 * (i / 2) = i := by omega
      have hnode : merkleNode hash leaf (k + 1) (i / 2) =
          hash (merkleNode hash leaf k i) (merkleNode hash leaf k (i + 1)) := by
        rw [merkleNode, hleft]
      rw [if_pos heven, climb, if_pos rfl, hnode]
    · have hleft : 2 * (i / 2) = i - 1 := by omega
      have hright : i - 1 + 1 = i := by omega
      have hnode : merkleNode hash leaf (k + 1) (i / 2) =
          hash (merkleNode hash leaf k (i - 1)) (merkleNode hash leaf k i) := by
        rw [merkleNode, hleft, hright]
      rw [if_neg heven, climb, if_neg Bool.false_ne_true, hnode]

variable (hash) in
/-- What a path leads to is the hash of one of the pairs, if there are any. -/
theorem exists_mem_climbPairs {path : List (Bool × α)} (h : path ≠ []) (a : α) :
    ∃ p ∈ climbPairs hash path a, climb hash path a = hash p.1 p.2 := by
  induction path generalizing a with
  | nil => exact absurd rfl h
  | cons step path ih =>
    obtain ⟨left, sibling⟩ := step
    rw [climb, climbPairs]
    by_cases hpath : path = []
    · rw [hpath]
      refine ⟨_, List.mem_cons_self, ?_⟩
      cases left with
      | true => rfl
      | false => rfl
    · obtain ⟨p, hp, hclimb⟩ := ih hpath (if left then hash a sibling else hash sibling a)
      exact ⟨p, List.mem_cons_of_mem _ hp, hclimb⟩

end Paths

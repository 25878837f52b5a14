import Mathlib.Algebra.BigOperators.Group.List.Lemmas
import Mathlib.Algebra.BigOperators.Group.Multiset.Basic
import Mathlib.Algebra.GroupWithZero.Nat
import Mathlib.Algebra.Order.BigOperators.Group.List
import Mathlib.Algebra.Order.Group.Nat
import Mathlib.Data.List.Perm.Subperm
import Mathlib.Data.List.Nodup

/-!
# Tables whose rows carry their keys

A hash map whose values hold their own keys is a table of rows with distinct keys. Looking a key up,
inserting a row in place of the one with its key, erasing a key, and changing all rows without
changing their keys are its operations; the order of the rows is not observed.

The second part is about the total of a weight over the rows: what each operation adds to it or
takes from it, and that rows of distinct keys weigh at most the total.
-/

variable {α κ : Type*}

/-- Rows with distinct keys. -/
structure KeyedTable (key : α → κ) where
  /-- The rows. -/
  rows : List α
  /-- No two have one key. -/
  nodup : (rows.map key).Nodup

namespace KeyedTable

variable {key : α → κ}

/-- No rows. -/
def empty : KeyedTable key := ⟨[], List.nodup_nil⟩

/-- Change the rows, but not their keys. -/
def mapRows (t : KeyedTable key) (f : α → α) (hf : ∀ x, key (f x) = key x) : KeyedTable key where
  rows := t.rows.map f
  nodup := by
    rw [List.map_map, show key ∘ f = key from funext hf]
    exact t.nodup

variable [DecidableEq κ]

/-- The row with a key. -/
def lookup (t : KeyedTable key) (k : κ) : Option α := t.rows.find? fun x ↦ key x = k

/-- Take out the row with a key. -/
def erase (t : KeyedTable key) (k : κ) : KeyedTable key where
  rows := t.rows.filter fun x ↦ key x ≠ k
  nodup := t.nodup.sublist (List.filter_sublist.map key)

/-- Put in a row, in place of the one with its key. -/
def insert (t : KeyedTable key) (x : α) : KeyedTable key where
  rows := (t.erase (key x)).rows ++ [x]
  nodup := by
    rw [List.map_append, List.map_singleton]
    refine List.nodup_append.2 ⟨(t.erase (key x)).nodup, List.nodup_singleton _, ?_⟩
    rintro k hk k' hk' rfl
    obtain ⟨y, hy, rfl⟩ := List.mem_map.1 hk
    have hne : key y ≠ key x := of_decide_eq_true (List.mem_filter.1 hy).2
    exact hne (List.mem_singleton.1 hk')

variable {t : KeyedTable key} {x y : α} {k k' : κ}

/-! ### Lookups -/

theorem lookup_eq_some : t.lookup k = some x ↔ x ∈ t.rows ∧ key x = k := by
  constructor
  · intro h
    have hkey := List.find?_some h
    exact ⟨List.mem_of_find?_eq_some h, of_decide_eq_true hkey⟩
  · rintro ⟨hx, rfl⟩
    rcases h : t.lookup (key x) with - | y
    · exact absurd (decide_eq_true rfl) (List.find?_eq_none.1 h x hx)
    · have hkey := List.find?_some h
      have hy : y ∈ t.rows := List.mem_of_find?_eq_some h
      rw [List.inj_on_of_nodup_map t.nodup hy hx (of_decide_eq_true hkey)]

theorem lookup_eq_none : t.lookup k = none ↔ ∀ x ∈ t.rows, key x ≠ k := by
  rw [lookup, List.find?_eq_none]
  exact forall₂_congr fun x _ ↦ not_congr decide_eq_true_iff

theorem mem_erase : x ∈ (t.erase k).rows ↔ x ∈ t.rows ∧ key x ≠ k := by
  rw [erase, List.mem_filter, decide_eq_true_iff]

theorem mem_insert : y ∈ (t.insert x).rows ↔ y = x ∨ (y ∈ t.rows ∧ key y ≠ key x) := by
  rw [insert, List.mem_append, List.mem_singleton, mem_erase, or_comm]

theorem lookup_erase_of_ne (h : k' ≠ k) : (t.erase k).lookup k' = t.lookup k' := by
  ext x
  show (t.erase k).lookup k' = some x ↔ t.lookup k' = some x
  rw [lookup_eq_some, lookup_eq_some, mem_erase]
  constructor
  · rintro ⟨⟨hx, -⟩, hkey⟩
    exact ⟨hx, hkey⟩
  · rintro ⟨hx, rfl⟩
    exact ⟨⟨hx, h⟩, rfl⟩

theorem lookup_insert_self : (t.insert x).lookup (key x) = some x :=
  lookup_eq_some.2 ⟨mem_insert.2 (.inl rfl), rfl⟩

theorem lookup_insert_of_ne (h : k ≠ key x) : (t.insert x).lookup k = t.lookup k := by
  ext y
  show (t.insert x).lookup k = some y ↔ t.lookup k = some y
  rw [lookup_eq_some, lookup_eq_some, mem_insert]
  constructor
  · rintro ⟨rfl | ⟨hy, -⟩, rfl⟩
    · exact absurd rfl h
    · exact ⟨hy, rfl⟩
  · rintro ⟨hy, rfl⟩
    exact ⟨.inr ⟨hy, h⟩, rfl⟩

theorem lookup_mapRows {f : α → α} (hf : ∀ x, key (f x) = key x) :
    (t.mapRows f hf).lookup k = (t.lookup k).map f := by
  ext y
  show (t.mapRows f hf).lookup k = some y ↔ (t.lookup k).map f = some y
  rw [lookup_eq_some, Option.map_eq_some_iff, mapRows, List.mem_map]
  constructor
  · rintro ⟨⟨x, hx, rfl⟩, hkey⟩
    exact ⟨x, lookup_eq_some.2 ⟨hx, (hf x).symm.trans hkey⟩, rfl⟩
  · rintro ⟨x, hlookup, rfl⟩
    obtain ⟨hx, rfl⟩ := lookup_eq_some.1 hlookup
    exact ⟨⟨x, hx, rfl⟩, hf x⟩

/-! ### Totals -/

section Total

variable (w : α → ℕ)

/-- What the rows weigh together. -/
def total (t : KeyedTable key) : ℕ := (t.rows.map w).sum

omit [DecidableEq κ] in
theorem total_mapRows {f : α → α} (hf : ∀ x, key (f x) = key x) (hw : ∀ x, w (f x) = w x) :
    (t.mapRows f hf).total w = t.total w := by
  rw [total, mapRows, List.map_map, show w ∘ f = w from funext hw]
  rfl

theorem perm_cons_erase (h : t.lookup k = some x) : t.rows.Perm (x :: (t.erase k).rows) := by
  obtain ⟨hx, rfl⟩ := lookup_eq_some.1 h
  have hnot : x ∉ (t.erase (key x)).rows := fun hmem ↦ (mem_erase.1 hmem).2 rfl
  refine (List.perm_ext_iff_of_nodup t.nodup.of_map
    (List.nodup_cons.2 ⟨hnot, (t.erase (key x)).nodup.of_map⟩)).2 fun y ↦ ?_
  rw [List.mem_cons, mem_erase]
  constructor
  · intro hy
    by_cases hkey : key y = key x
    · exact .inl (List.inj_on_of_nodup_map t.nodup hy hx hkey)
    · exact .inr ⟨hy, hkey⟩
  · rintro (rfl | ⟨hy, -⟩)
    · exact hx
    · exact hy

/-- Taking out a row takes its weight. -/
theorem total_erase (h : t.lookup k = some x) : (t.erase k).total w + w x = t.total w := by
  rw [total, total, ((perm_cons_erase h).map w).sum_eq, List.map_cons, List.sum_cons, add_comm]

/-- Taking out a key without a row changes nothing. -/
theorem total_erase_of_none (h : t.lookup k = none) : (t.erase k).total w = t.total w := by
  have hrows : (t.erase k).rows = t.rows :=
    List.filter_eq_self.2 fun x hx ↦ decide_eq_true (lookup_eq_none.1 h x hx)
  rw [total, hrows, total]

theorem total_insert : (t.insert x).total w = (t.erase (key x)).total w + w x := by
  rw [total, insert, List.map_append, List.sum_append, List.map_singleton, List.sum_singleton,
    total]

omit [DecidableEq κ] in
/-- Rows of distinct keys weigh at most the total. -/
theorem sum_le_total {xs : Multiset α} (hnodup : (xs.map key).Nodup)
    (hmem : ∀ x ∈ xs, x ∈ t.rows) : (xs.map w).sum ≤ t.total w := by
  obtain ⟨ys, rfl⟩ := Quot.exists_rep xs
  obtain ⟨zs, hperm, hsub⟩ := List.subperm_of_subset
    (List.Nodup.of_map key (Multiset.coe_nodup.1 hnodup)) hmem
  show (ys.map w).sum ≤ (t.rows.map w).sum
  rw [← (hperm.map w).sum_eq]
  exact (hsub.map w).sum_le_sum fun _ _ ↦ Nat.zero_le _

end Total

end KeyedTable

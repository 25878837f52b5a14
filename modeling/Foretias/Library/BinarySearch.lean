import Foretias.Library.AscendingList

/-!
# Binary search

The search of Rust's `slice::binary_search_by`: the half that may hold the key is kept until one
element is left, which is compared once more. On an ascending list it finds the element with the
key, if there is one (`binarySearch_eq_some`); on any other list it finds some element with the
key, or none.
-/

variable {α : Type*}

/-- The loop over `size` elements from `base` on, for at most `fuel` halvings. -/
def binarySearchLoop (key : α → ℕ) (l : List α) (n : ℕ) : ℕ → ℕ → ℕ → ℕ
  | 0, base, _ => base
  | fuel + 1, base, size =>
    if 1 < size then
      let mid := base + size / 2
      let base := if (l[mid]?.any fun a ↦ n < key a) then base else mid
      binarySearchLoop key l n fuel base (size - size / 2)
    else base

/-- `binary_search_by(|a| key(a).cmp(n)).ok()`. -/
def binarySearch (key : α → ℕ) (l : List α) (n : ℕ) : Option ℕ :=
  if l.length = 0 then none
  else
    let base := binarySearchLoop key l n l.length 0 l.length
    if (l[base]?.any fun a ↦ key a = n) then some base else none

variable {key : α → ℕ} {l : List α} {n : ℕ}

/-- What is found has the key. -/
theorem key_of_binarySearch {i : ℕ} (h : binarySearch key l n = some i) :
    ∃ a, l[i]? = some a ∧ key a = n := by
  rw [binarySearch] at h
  by_cases hnil : l.length = 0
  · rw [if_pos hnil] at h
    cases h
  · rw [if_neg hnil] at h
    by_cases hkey : (l[binarySearchLoop key l n l.length 0 l.length]?.any fun a ↦ key a = n)
    · simp only [hkey, if_true, Option.some_inj] at h
      subst h
      simpa [Option.any_eq_true] using hkey
    · simp only [hkey] at h
      cases h

namespace Ascending

/-- The half that the loop keeps holds the position of the key. -/
theorem binarySearchLoop_eq (hl : Ascending key l) {i : ℕ} {a : α} (hi : l[i]? = some a) :
    ∀ {fuel base size : ℕ}, base ≤ i → i < base + size → base + size ≤ l.length → size ≤ fuel →
      binarySearchLoop key l (key a) fuel base size = i := by
  intro fuel
  induction fuel with
  | zero => omega
  | succ fuel ih =>
    intro base size hbase hlt hlen hfuel
    rw [binarySearchLoop]
    by_cases hone : 1 < size
    · rw [if_pos hone]
      have hmid : base + size / 2 < l.length := by omega
      have hilt : i < l.length := by omega
      have hget : l[i] = a := by
        rw [List.getElem?_eq_getElem hilt, Option.some_inj] at hi
        exact hi
      dsimp only
      rw [List.getElem?_eq_getElem hmid]
      -- the key is in the lower half exactly when the middle element is above it
      by_cases hhalf : i < base + size / 2
      · have habove : key a < key l[base + size / 2] := by
          rw [← hget]
          exact List.pairwise_iff_getElem.1 hl i _ hilt hmid hhalf
        simp only [Option.any_some, habove, decide_true, if_true]
        exact ih hbase (by omega) (by omega) (by omega)
      · have hbelow : ¬key a < key l[base + size / 2] := by
          rw [← hget, Nat.not_lt]
          rcases Nat.lt_or_eq_of_le (Nat.le_of_not_lt hhalf) with hgt | heq
          · exact (List.pairwise_iff_getElem.1 hl _ i hmid hilt hgt).le
          · simp only [heq, le_refl]
        simp only [Option.any_some, hbelow, decide_false, Bool.false_eq_true, if_false]
        exact ih (by omega) (by omega) (by omega) (by omega)
    · rw [if_neg hone]
      omega

/-- On an ascending list the search finds the position of the key. -/
theorem binarySearch_eq_some (hl : Ascending key l) {i : ℕ} :
    binarySearch key l n = some i ↔ ∃ a, l[i]? = some a ∧ key a = n := by
  constructor
  · exact key_of_binarySearch
  · rintro ⟨a, hi, rfl⟩
    have hilt : i < l.length := (List.getElem?_eq_some_iff.1 hi).1
    have hne : l.length ≠ 0 := Nat.ne_zero_of_lt hilt
    have hloop : binarySearchLoop key l (key a) l.length 0 l.length = i :=
      hl.binarySearchLoop_eq hi (Nat.zero_le i) (by omega) (by omega) (Nat.le_refl _)
    rw [binarySearch, if_neg hne]
    simp [hloop, hi]

/-- On an ascending list, the element that the search finds is the first one with the key. -/
theorem binarySearch_bind_eq_find? (hl : Ascending key l) :
    (binarySearch key l n).bind (l[·]?) = l.find? fun a ↦ key a = n := by
  cases hfind : l.find? fun a ↦ key a = n with
  | none =>
    cases hsearch : binarySearch key l n with
    | none => rfl
    | some i =>
      obtain ⟨a, hi, hkey⟩ := key_of_binarySearch hsearch
      exact absurd hkey (by simpa using List.find?_eq_none.1 hfind a (List.mem_of_getElem? hi))
  | some a =>
    have hkey : key a = n := by simpa using List.find?_some hfind
    obtain ⟨i, hilt, hget⟩ := List.getElem_of_mem (List.mem_of_find?_eq_some hfind)
    have hi : l[i]? = some a := by rw [List.getElem?_eq_getElem hilt, hget]
    rw [hl.binarySearch_eq_some.2 ⟨a, hi, hkey⟩]
    exact hi

end Ascending

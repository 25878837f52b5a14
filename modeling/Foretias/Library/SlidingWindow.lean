import Mathlib.Data.List.DropRight

/-!
# Windows on what was pushed last

A queue that is pushed to at the back and gives up its front once it is full holds the end of what
was pushed to it. A queue of no capacity still holds the last one: there is nothing to give up
before the push.
-/

variable {α : Type*} {w n : ℕ} {xs ys : List α} {x : α}

/-- Push to the back; a queue that holds `w` or more gives up its front first. -/
def pushWindow (w : ℕ) (xs : List α) (x : α) : List α :=
  (if w ≤ xs.length then xs.tail else xs) ++ [x]

theorem length_rtake (n : ℕ) (xs : List α) : (xs.rtake n).length = min n xs.length := by
  rw [List.rtake, List.length_drop]
  omega

theorem rtake_of_length_le (h : xs.length ≤ n) : xs.rtake n = xs := by
  rw [List.rtake, Nat.sub_eq_zero_of_le h, List.drop_zero]

/-- Without its front, an end of `n + 1` elements is one of `n`. -/
theorem tail_rtake_succ (h : n + 1 ≤ xs.length) : (xs.rtake (n + 1)).tail = xs.rtake n := by
  rw [List.rtake, List.tail_drop, List.rtake]
  congr 1
  omega

/-- Pushing keeps the end of what was pushed. -/
theorem pushWindow_rtake (w : ℕ) (xs : List α) (x : α) :
    pushWindow w (xs.rtake (max w 1)) x = (xs ++ [x]).rtake (max w 1) := by
  obtain ⟨n, hn⟩ := Nat.exists_eq_add_one.2 (show 0 < max w 1 by omega)
  rw [hn, List.rtake_concat_succ, pushWindow, length_rtake]
  congr 1
  split
  · rename_i hfull
    by_cases hlen : n + 1 ≤ xs.length
    · exact tail_rtake_succ hlen
    · -- a window of no capacity, to which nothing was pushed
      have hnil : xs = [] := List.length_eq_zero_iff.1 (by omega)
      rw [hnil]
      simp
  · rename_i hroom
    rw [rtake_of_length_le (by omega), rtake_of_length_le (by omega)]

theorem length_pushWindow_le (h : xs.length ≤ max w 1) :
    (pushWindow w xs x).length ≤ max w 1 := by
  rw [pushWindow, List.length_append, List.length_singleton]
  split
  · rw [List.length_tail]
    omega
  · omega

theorem mem_of_mem_rtake (h : x ∈ xs.rtake n) : x ∈ xs := List.mem_of_mem_drop h

/-- What was pushed with less than `n` pushes after it is in the window. -/
theorem mem_rtake_append_cons (h : ys.length < n) : x ∈ (xs ++ x :: ys).rtake n := by
  rw [List.rtake, List.length_append, List.length_cons,
    List.drop_append_of_le_length (by omega)]
  exact List.mem_append_right _ List.mem_cons_self

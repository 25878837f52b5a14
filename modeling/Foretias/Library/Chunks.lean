import Mathlib.Data.List.Basic

/-!
# Cutting a list into chunks

`chunks size l` cuts a list into pieces of `size` elements, the last of which may be shorter.
-/

variable {α : Type*} {size : ℕ} {l : List α}

/-- Consecutive pieces of `size` elements, for a positive `size`. -/
def chunks (size : ℕ) (l : List α) : List (List α) :=
  if _h : 0 < size ∧ l ≠ [] then l.take size :: chunks size (l.drop size) else []
termination_by l.length
decreasing_by
  have hpos := List.length_pos_of_ne_nil _h.2
  rw [List.length_drop]
  omega

@[simp] theorem chunks_nil : chunks size ([] : List α) = [] := by
  rw [chunks, dif_neg fun h ↦ h.2 rfl]

theorem chunks_of_ne_nil (hsize : 0 < size) (h : l ≠ []) :
    chunks size l = l.take size :: chunks size (l.drop size) := by
  rw [chunks, dif_pos ⟨hsize, h⟩]

/-- The chunks, joined, are the list. -/
theorem flatten_chunks (hsize : 0 < size) : (chunks size l).flatten = l := by
  induction l using chunks.induct size with
  | case1 l h ih => rw [chunks_of_ne_nil h.1 h.2, List.flatten_cons, ih, List.take_append_drop]
  | case2 l h =>
    obtain rfl : l = [] := not_not.1 fun hne ↦ h ⟨hsize, hne⟩
    rw [chunks_nil, List.flatten_nil]

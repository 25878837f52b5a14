import Mathlib.Data.List.Basic

/-!
# Fallible loops

A loop over a list whose body can fail stops at the first failure. So it succeeds exactly if the
body does for every element (`forM_eq_ok`), and it fails exactly with the failure of an element
before which the body succeeds (`forM_eq_error`).
-/

/-- Of two places of a list, one is before the other, or they are the same. -/
theorem List.mem_or_eq_or_mem_of_append_eq {α : Type} {b b' a a' : List α} {x y : α}
    (h : b ++ x :: a = b' ++ y :: a') : y ∈ b ∨ y = x ∨ x ∈ b' := by
  obtain ⟨m, rfl, hm⟩ | ⟨m, rfl, hm⟩ := List.append_eq_append_iff.1 h
  · cases m with
    | nil => exact .inr (.inl (List.cons.inj hm).1.symm)
    | cons z m =>
      rw [(List.cons.inj hm).1]
      exact .inr (.inr (List.mem_append_right _ List.mem_cons_self))
  · cases m with
    | nil => exact .inr (.inl (List.cons.inj hm).1)
    | cons z m =>
      rw [(List.cons.inj hm).1]
      exact .inl (List.mem_append_right _ List.mem_cons_self)

namespace Except

variable {ε α : Type} {f : α → Except ε PUnit} {l : List α}

/-- The body is run for the first element, and if it succeeds for the others. -/
theorem forM_cons_eq {a : α} : (a :: l).forM f = (f a >>= fun _ ↦ l.forM f) := rfl

/-- A loop succeeds if its body does everywhere. -/
theorem forM_eq_ok : l.forM f = .ok ⟨⟩ ↔ ∀ a ∈ l, f a = .ok ⟨⟩ := by
  induction l with
  | nil => exact iff_of_true rfl fun a ha ↦ absurd ha List.not_mem_nil
  | cons a l ih =>
    rw [forM_cons_eq, List.forall_mem_cons, ← ih]
    cases f a with
    | ok u => exact (and_iff_right rfl).symm
    | error e => exact iff_of_false (fun h ↦ nomatch h) fun h ↦ nomatch h.1

/-- A loop fails as the first element does at which its body fails. -/
theorem forM_eq_error {e : ε} : l.forM f = .error e ↔ ∃ before a after,
    l = before ++ a :: after ∧ (∀ b ∈ before, f b = .ok ⟨⟩) ∧ f a = .error e := by
  induction l with
  | nil =>
    refine iff_of_false (fun h ↦ nomatch h) fun h ↦ ?_
    obtain ⟨before, a, after, hl, -⟩ := h
    exact List.append_ne_nil_of_right_ne_nil _ (List.cons_ne_nil _ _) hl.symm
  | cons c l ih =>
    rw [forM_cons_eq]
    constructor
    · intro h
      cases hc : f c with
      | ok u =>
        rw [hc] at h
        obtain ⟨before, a, after, rfl, hbefore, ha⟩ := ih.1 h
        exact ⟨c :: before, a, after, rfl, List.forall_mem_cons.2 ⟨hc, hbefore⟩, ha⟩
      | error e' =>
        rw [hc] at h
        exact ⟨[], c, l, rfl, fun b hb ↦ absurd hb List.not_mem_nil, hc.trans h⟩
    · intro h
      obtain ⟨before, a, after, hl, hbefore, ha⟩ := h
      cases before with
      | nil =>
        obtain ⟨rfl, rfl⟩ := List.cons.inj hl
        rw [ha]
        rfl
      | cons b before =>
        obtain ⟨rfl, rfl⟩ := List.cons.inj hl
        obtain ⟨hb, hbefore⟩ := List.forall_mem_cons.1 hbefore
        rw [hb]
        exact ih.2 ⟨before, a, after, rfl, hbefore, ha⟩

end Except

import Mathlib.Data.List.Induction
import Mathlib.Data.List.Perm.Subperm
import Mathlib.Data.List.Sort
import Mathlib.Order.Basic

/-!
# Bounded lists that keep the newest

A list takes in one element after another, none that is the same as one that it has; when there
are more than a cap, the lowest ranked go. `KeepsNewest` says what such a list has of all that it
was offered: whatever it lacks is ranked no higher than anything it keeps. So if no two of the
elements offered have the same rank, an element is kept exactly if fewer than the cap are ranked
above it (`KeepsNewest.mem_iff`), in whatever order they came.
-/

variable {α β : Type*} [LinearOrder β]

/-- One more element, unless the list has the same one; when there are too many, the lowest ranked
go. -/
def insertNewest (rank : α → β) (same : α → α → Prop) [DecidableRel same] (cap : ℕ) (l : List α)
    (a : α) : List α :=
  if l.any (fun b ↦ decide (same b a)) = true then l
  else
    let l' := l ++ [a]
    if cap < l'.length then
      (l'.mergeSort fun b c ↦ decide (rank b ≤ rank c)).drop (l'.length - cap)
    else l'

section InsertNewest

variable {rank : α → β} {same : α → α → Prop} [DecidableRel same] {cap : ℕ} {l kept seen : List α}
  {a b : α}

theorem insertNewest_of_same (h : ∃ b ∈ l, same b a) : insertNewest rank same cap l a = l := by
  refine if_pos ?_
  simpa using h

theorem insertNewest_of_lt (h : ¬∃ b ∈ l, same b a) (hlt : l.length < cap) :
    insertNewest rank same cap l a = l ++ [a] := by
  have hle : ¬cap < (l ++ [a]).length := by
    rw [List.length_append, List.length_singleton]
    omega
  rw [insertNewest, if_neg (by simpa using h)]
  exact if_neg hle

variable (rank) in
/-- A full list lets the lowest ranked element go, the new one if that is lowest. -/
theorem exists_insertNewest_of_full (h : ¬∃ b ∈ l, same b a) (hfull : l.length = cap) :
    ∃ out, (out :: insertNewest rank same cap l a).Perm (l ++ [a]) ∧
      ∀ b ∈ insertNewest rank same cap l a, rank out ≤ rank b := by
  have htotal : ∀ b c : α, (decide (rank b ≤ rank c) || decide (rank c ≤ rank b)) = true := by
    intro b c
    rw [Bool.or_eq_true, decide_eq_true_eq, decide_eq_true_eq]
    exact le_total _ _
  have htrans : ∀ b c d : α, decide (rank b ≤ rank c) = true → decide (rank c ≤ rank d) = true →
      decide (rank b ≤ rank d) = true :=
    fun b c d hbc hcd ↦ decide_eq_true ((of_decide_eq_true hbc).trans (of_decide_eq_true hcd))
  have hlength : (l ++ [a]).length = cap + 1 := by
    rw [List.length_append, List.length_singleton, hfull]
  have hsorted := List.pairwise_mergeSort htrans htotal (l ++ [a])
  have hperm := List.mergeSort_perm (l ++ [a]) fun b c ↦ decide (rank b ≤ rank c)
  have hinsert : insertNewest rank same cap l a =
      ((l ++ [a]).mergeSort fun b c ↦ decide (rank b ≤ rank c)).drop 1 := by
    rw [insertNewest, if_neg (by simpa using h)]
    simp only [hlength]
    rw [if_pos (Nat.lt_succ_self cap), Nat.add_sub_cancel_left]
  generalize (l ++ [a]).mergeSort (fun b c ↦ decide (rank b ≤ rank c)) = sorted
    at hsorted hperm hinsert
  cases sorted with
  | nil => exact absurd hperm.length_eq (by rw [hlength, List.length_nil]; omega)
  | cons out rest =>
    rw [hinsert]
    exact ⟨out, hperm, fun b hb ↦ of_decide_eq_true ((List.pairwise_cons.1 hsorted).1 b hb)⟩

end InsertNewest

/-- A list that keeps the newest of the elements that it was offered. -/
structure KeepsNewest (rank : α → β) (same : α → α → Prop) (cap : ℕ) (seen kept : List α) :
    Prop where
  /-- It has nothing else. -/
  subset : ∀ a ∈ kept, a ∈ seen
  /-- It is not longer than the cap. -/
  length_le : kept.length ≤ cap
  /-- What it lacks is ranked no higher than what it keeps, and is lacking for want of room. -/
  lacks : ∀ a ∈ seen, (∃ b ∈ kept, same b a) ∨ kept.length = cap ∧ ∀ b ∈ kept, rank a ≤ rank b

namespace KeepsNewest

variable {rank : α → β} {same : α → α → Prop} {cap : ℕ} {seen kept seen' kept' : List α} {a b : α}

theorem nil : KeepsNewest rank same cap [] [] where
  subset _ ha := ha
  length_le := Nat.zero_le cap
  lacks _ ha := absurd ha List.not_mem_nil

/-- An element that is ranked above one that is kept is there. -/
theorem exists_same_of_lt (h : KeepsNewest rank same cap seen kept) (ha : a ∈ seen) (hb : b ∈ kept)
    (hlt : rank b < rank a) : ∃ c ∈ kept, same c a := by
  rcases h.lacks a ha with hsame | ⟨-, hle⟩
  · exact hsame
  · exact absurd (hle b hb) hlt.not_ge

/-- An element for which there is room. -/
theorem concat (h : KeepsNewest rank same cap seen kept) (hrefl : ∀ a, same a a)
    (hlt : kept.length < cap) (a : α) : KeepsNewest rank same cap (seen ++ [a]) (kept ++ [a]) := by
  refine ⟨fun b hb ↦ ?_, ?_, fun c hc ↦ .inl ?_⟩
  · rcases List.mem_append.1 hb with hb | hb
    · exact List.mem_append_left _ (h.subset b hb)
    · exact List.mem_append_right _ hb
  · rw [List.length_append, List.length_singleton]
    exact hlt
  · -- as there was room, nothing was lacking
    rcases List.mem_append.1 hc with hc | hc
    · rcases h.lacks c hc with ⟨b, hb, hbc⟩ | ⟨hfull, -⟩
      · exact ⟨b, List.mem_append_left _ hb, hbc⟩
      · exact absurd hfull hlt.ne
    · rw [List.mem_singleton.1 hc]
      exact ⟨a, List.mem_append_right _ (List.mem_singleton_self a), hrefl a⟩

/-- An element for which one that is ranked lowest goes out of a full list. -/
theorem replace {rest : List α} {out : α} (h : KeepsNewest rank same cap seen kept)
    (hrefl : ∀ a, same a a) (hrank : ∀ a b, same a b → rank a = rank b)
    (hnew : ¬∃ b ∈ kept, same b a) (hfull : kept.length = cap)
    (hperm : (out :: rest).Perm (kept ++ [a])) (hout : ∀ b ∈ rest, rank out ≤ rank b) :
    KeepsNewest rank same cap (seen ++ [a]) rest := by
  have hlength : rest.length = cap := by
    have hcount := hperm.length_eq
    rw [List.length_cons, List.length_append, List.length_singleton, hfull] at hcount
    exact Nat.succ.inj hcount
  have hmem : ∀ b, b ∈ out :: rest ↔ b ∈ kept ∨ b = a := by
    intro b
    rw [hperm.mem_iff, List.mem_append, List.mem_singleton]
  have hthere : ∀ b c, b ∈ kept ∨ b = a → same b c →
      (∃ b ∈ rest, same b c) ∨ rest.length = cap ∧ ∀ b ∈ rest, rank c ≤ rank b := by
    intro b c hb hbc
    rcases List.mem_cons.1 ((hmem b).2 hb) with rfl | hb
    · exact .inr ⟨hlength, fun d hd ↦ (hrank _ _ hbc).ge.trans (hout d hd)⟩
    · exact .inl ⟨b, hb, hbc⟩
  refine ⟨fun b hb ↦ ?_, hlength.le, fun c hc ↦ ?_⟩
  · rcases (hmem b).1 (List.mem_cons_of_mem out hb) with hb | rfl
    · exact List.mem_append_left _ (h.subset b hb)
    · exact List.mem_append_right _ (List.mem_singleton_self b)
  rcases List.mem_append.1 hc with hc | hc
  · rcases h.lacks c hc with ⟨b, hb, hbc⟩ | ⟨-, hle⟩
    · exact hthere b c (.inl hb) hbc
    · refine .inr ⟨hlength, fun b hb ↦ ?_⟩
      rcases (hmem b).1 (List.mem_cons_of_mem out hb) with hold | hba
      · exact hle b hold
      -- the new element stays, so it is one that was there that went out
      rcases (hmem out).1 List.mem_cons_self with hold | rfl
      · exact (hle out hold).trans (hout b hb)
      · have hrest : rest.Perm kept := List.Perm.cons_inv (hperm.trans List.perm_append_comm)
        exact absurd ⟨b, hrest.mem_iff.1 hb, hba ▸ hrefl b⟩ hnew
  · have hca := List.mem_singleton.1 hc
    exact hthere a c (.inr rfl) (hca ▸ hrefl c)

variable [DecidableRel same]

/-- One more element is offered. -/
theorem insert (h : KeepsNewest rank same cap seen kept) (hrefl : ∀ a, same a a)
    (hrank : ∀ a b, same a b → rank a = rank b) (a : α) :
    KeepsNewest rank same cap (seen ++ [a]) (insertNewest rank same cap kept a) := by
  by_cases hsame : ∃ b ∈ kept, same b a
  · rw [insertNewest_of_same hsame]
    refine ⟨fun b hb ↦ List.mem_append_left _ (h.subset b hb), h.length_le, fun c hc ↦ ?_⟩
    rcases List.mem_append.1 hc with hc | hc
    · exact h.lacks c hc
    · rw [List.mem_singleton.1 hc]
      exact .inl hsame
  rcases Nat.lt_or_eq_of_le h.length_le with hlt | hfull
  · rw [insertNewest_of_lt hsame hlt]
    exact h.concat hrefl hlt a
  · obtain ⟨out, hperm, hout⟩ := exists_insertNewest_of_full rank hsame hfull
    exact h.replace hrefl hrank hsame hfull hperm hout

/-- Elements offered one after another. -/
theorem foldl (hrefl : ∀ a, same a a) (hrank : ∀ a b, same a b → rank a = rank b) (l : List α) :
    KeepsNewest rank same cap l (l.foldl (insertNewest rank same cap) []) := by
  induction l using List.reverseRecOn with
  | nil => exact .nil
  | append_singleton l a ih =>
    rw [List.foldl_append]
    exact ih.insert hrefl hrank a

omit [DecidableRel same] in
/-- If no two of the elements have the same rank, those are kept that have fewer than the cap
above them. -/
theorem mem_iff (h : KeepsNewest rank same cap seen kept) (hnodup : kept.Nodup)
    (hrank : ∀ a b, same a b → rank a = rank b) (hseen : (seen.map rank).Nodup) :
    a ∈ kept ↔ a ∈ seen ∧ seen.countP (fun b ↦ decide (rank a < rank b)) < cap := by
  have hinj := List.inj_on_of_nodup_map hseen
  constructor
  · intro ha
    refine ⟨h.subset a ha, ?_⟩
    -- all that are above it are kept, and it is kept besides
    have habove : a :: seen.filter (fun b ↦ decide (rank a < rank b)) ⊆ kept := by
      refine List.cons_subset.2 ⟨ha, fun b hb ↦ ?_⟩
      obtain ⟨hb, hlt⟩ := List.mem_filter.1 hb
      obtain ⟨c, hc, hcb⟩ := h.exists_same_of_lt hb ha (of_decide_eq_true hlt)
      rwa [hinj (h.subset c hc) hb (hrank c b hcb)] at hc
    have hne : a ∉ seen.filter (fun b ↦ decide (rank a < rank b)) :=
      fun hmem ↦ lt_irrefl _ (of_decide_eq_true (List.mem_filter.1 hmem).2)
    have hdistinct : (a :: seen.filter (fun b ↦ decide (rank a < rank b))).Nodup :=
      List.nodup_cons.2 ⟨hne, hseen.of_map.filter _⟩
    have hlength := (List.subperm_of_subset hdistinct habove).length_le
    rw [List.length_cons, ← List.countP_eq_length_filter] at hlength
    exact hlength.trans h.length_le
  · rintro ⟨ha, hcount⟩
    rcases h.lacks a ha with ⟨b, hb, hba⟩ | ⟨hfull, hle⟩
    · rwa [hinj (h.subset b hb) ha (hrank b a hba)] at hb
    · by_contra hlacks
      -- all that are kept are above it, and they are as many as the cap
      have habove : kept ⊆ seen.filter (fun b ↦ decide (rank a < rank b)) := by
        intro b hb
        refine List.mem_filter.2 ⟨h.subset b hb, decide_eq_true (lt_of_le_of_ne (hle b hb) ?_)⟩
        intro heq
        rw [hinj ha (h.subset b hb) heq] at hlacks
        exact hlacks hb
      have hlength := (List.subperm_of_subset hnodup habove).length_le
      rw [hfull, ← List.countP_eq_length_filter] at hlength
      exact hlength.not_gt hcount

omit [DecidableRel same] in
/-- The order in which the elements come does not matter for what is kept. -/
theorem mem_iff_of_perm (h : KeepsNewest rank same cap seen kept)
    (h' : KeepsNewest rank same cap seen' kept') (hnodup : kept.Nodup) (hnodup' : kept'.Nodup)
    (hrank : ∀ a b, same a b → rank a = rank b) (hseen : (seen.map rank).Nodup)
    (hperm : seen.Perm seen') : a ∈ kept ↔ a ∈ kept' := by
  rw [h.mem_iff hnodup hrank hseen, h'.mem_iff hnodup' hrank ((hperm.map rank).nodup_iff.1 hseen),
    hperm.mem_iff, hperm.countP_eq]

end KeepsNewest

import Mathlib.Data.List.Sort
import Mathlib.Order.Defs.LinearOrder

/-!
# Stable sorting by a key

A stable sort by a key keeps the elements of one key in their order (`filter_sortBy`), so what it
makes of a list is determined by the elements of each key, in order, and determines them
(`sortBy_eq_iff`). That two lists have the same elements does not suffice: elements that share a key
stay as they were.
-/

variable {α κ : Type*} [LinearOrder κ] (key : α → κ)

/-- A stable sort by a key. -/
def sortBy (l : List α) : List α := l.mergeSort fun a b ↦ key a ≤ key b

variable {key} {l l' : List α}

theorem sortBy_perm : (sortBy key l).Perm l := List.mergeSort_perm ..

theorem pairwise_sortBy : (sortBy key l).Pairwise fun a b ↦ key a ≤ key b :=
  (@List.pairwise_mergeSort _ (fun a b ↦ decide (key a ≤ key b))
    (fun _ _ _ hab hbc ↦ by simpa using le_trans (of_decide_eq_true hab) (of_decide_eq_true hbc))
    (fun a b ↦ by simpa using le_total (key a) (key b)) l).imp of_decide_eq_true

/-- **Stability.** -/
theorem filter_sortBy (k : κ) :
    (sortBy key l).filter (fun a ↦ key a = k) = l.filter fun a ↦ key a = k := by
  have hsorted : (l.filter fun a ↦ key a = k).Pairwise fun a b ↦ decide (key a ≤ key b) = true := by
    refine List.pairwise_of_forall_mem_list fun a ha b hb ↦ decide_eq_true ?_
    rw [of_decide_eq_true (List.mem_filter.1 ha).2, of_decide_eq_true (List.mem_filter.1 hb).2]
  have hsub : (l.filter fun a ↦ key a = k).Sublist (sortBy key l) :=
    List.sublist_mergeSort
      (fun _ _ _ hab hbc ↦ by simpa using le_trans (of_decide_eq_true hab) (of_decide_eq_true hbc))
      (fun a b ↦ by simpa using le_total (key a) (key b)) hsorted List.filter_sublist
  have hfiltered := hsub.filter fun a ↦ key a = k
  rw [List.filter_filter] at hfiltered
  simp only [Bool.and_self] at hfiltered
  exact (hfiltered.eq_of_length ((sortBy_perm (l := l)).filter _).length_eq.symm).symm

theorem mem_iff_of_filter_eq
    (hfilter : ∀ k, (l.filter fun a ↦ key a = k) = l'.filter fun a ↦ key a = k) (a : α) :
    a ∈ l ↔ a ∈ l' := by
  have hkey := congrArg (a ∈ ·) (hfilter (key a))
  simpa using hkey

/-- Without a common head the elements of each key still agree. -/
theorem filter_eq_of_cons {a : α}
    (hfilter : ∀ k, ((a :: l).filter fun a ↦ key a = k) = (a :: l').filter fun a ↦ key a = k)
    (k : κ) : (l.filter fun a ↦ key a = k) = l'.filter fun a ↦ key a = k := by
  have hk := hfilter k
  rcases eq_or_ne (key a) k with rfl | hne
  · rw [List.filter_cons_of_pos (by simp), List.filter_cons_of_pos (by simp)] at hk
    exact (List.cons.inj hk).2
  · rwa [List.filter_cons_of_neg (by simpa using hne),
      List.filter_cons_of_neg (by simpa using hne)] at hk

/-- The head of a sorted list has the least key. -/
theorem key_head_le {a c : α} (h : (a :: l).Pairwise fun a b ↦ key a ≤ key b) (hc : c ∈ a :: l) :
    key a ≤ key c := by
  rcases List.mem_cons.1 hc with rfl | hc
  · exact le_rfl
  · exact (List.pairwise_cons.1 h).1 c hc

/-- Sorted lists that have the same elements of each key, in order, are the same. -/
theorem eq_of_filter_eq (h : l.Pairwise fun a b ↦ key a ≤ key b)
    (h' : l'.Pairwise fun a b ↦ key a ≤ key b)
    (hfilter : ∀ k, (l.filter fun a ↦ key a = k) = l'.filter fun a ↦ key a = k) : l = l' := by
  have hmem := mem_iff_of_filter_eq hfilter
  induction l generalizing l' with
  | nil =>
    rcases l' with - | ⟨b, l'⟩
    · rfl
    · exact absurd ((hmem b).2 List.mem_cons_self) List.not_mem_nil
  | cons a l ih =>
    rcases l' with - | ⟨b, l'⟩
    · exact absurd ((hmem a).1 List.mem_cons_self) List.not_mem_nil
    · -- the least keys agree, so the two heads are first of the same key
      have hkey : key a = key b := le_antisymm
        (key_head_le h ((hmem b).2 List.mem_cons_self))
        (key_head_le h' ((hmem a).1 List.mem_cons_self))
      have hhead := hfilter (key a)
      rw [List.filter_cons_of_pos (by simp), List.filter_cons_of_pos (by simp [hkey])] at hhead
      obtain rfl := (List.cons.inj hhead).1
      have hrest := filter_eq_of_cons hfilter
      exact congrArg (a :: ·) (ih (List.pairwise_cons.1 h).2 (List.pairwise_cons.1 h').2 hrest
        (mem_iff_of_filter_eq hrest))

/-- **What a stable sort by a key tells apart**: lists that differ in the elements of some key, or
in their order. -/
theorem sortBy_eq_iff : sortBy key l = sortBy key l' ↔
    ∀ k, (l.filter fun a ↦ key a = k) = l'.filter fun a ↦ key a = k := by
  constructor
  · intro h k
    rw [← filter_sortBy, h, filter_sortBy]
  · intro h
    refine eq_of_filter_eq pairwise_sortBy pairwise_sortBy fun k ↦ ?_
    rw [filter_sortBy, filter_sortBy, h k]

/-- Lists that sort alike have the same elements. -/
theorem perm_of_sortBy_eq (h : sortBy key l = sortBy key l') : l.Perm l' :=
  (sortBy_perm.symm.trans (List.Perm.of_eq h)).trans sortBy_perm

/-- By a key that determines its element, the same elements suffice. -/
theorem sortBy_eq_iff_perm (hkey : Function.Injective key) :
    sortBy key l = sortBy key l' ↔ l.Perm l' := by
  refine ⟨perm_of_sortBy_eq, fun h ↦ ?_⟩
  exact List.Perm.eq_of_pairwise (fun a b _ _ hab hba ↦ hkey (le_antisymm hab hba))
    pairwise_sortBy pairwise_sortBy ((sortBy_perm.trans h).trans sortBy_perm.symm)

/-- A sort by what a function keeps. -/
theorem sortBy_map {β : Type*} {key : β → κ} (f : α → β) :
    sortBy key (l.map f) = (sortBy (key ∘ f) l).map f := by
  rw [sortBy, sortBy]
  refine (List.map_mergeSort fun a _ b _ ↦ ?_).symm
  rfl

/-- Lists whose images are the same, under a function that is injective on their elements. -/
theorem eq_of_map_eq {β : Type*} {f : α → β} {p : α → Prop}
    (hf : ∀ a b, p a → p b → f a = f b → a = b) (hl : ∀ a ∈ l, p a) (hl' : ∀ a ∈ l', p a)
    (h : l.map f = l'.map f) : l = l' := by
  induction l generalizing l' with
  | nil => exact (List.map_eq_nil_iff.1 h.symm).symm
  | cons a l ih =>
    obtain ⟨b, l', rfl, hb, htail⟩ := List.map_eq_cons_iff.1 h.symm
    rw [List.forall_mem_cons] at hl hl'
    rw [hf a b hl.1 hl'.1 hb.symm, ih hl.2 hl'.2 htail.symm]

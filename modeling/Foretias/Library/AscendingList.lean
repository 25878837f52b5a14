import Mathlib.Data.List.Destutter
import Mathlib.Data.List.Sort
import Mathlib.Order.Interval.Finset.Nat

/-!
# Lists ascending in a numeric key

A list whose elements' keys strictly increase is a finite map that can be searched, extended at
the end and inserted into. `Ascending` names the order; `head?_filter_le` says what the range
query "the first element with key at least `n`" finds, `insertByKey` is the insertion that keeps
one element a key, and `sortDedup` sorts any list into such a list.
-/

variable {α : Type*}

/-- The keys strictly increase along the list. -/
def Ascending (key : α → ℕ) (l : List α) : Prop := l.Pairwise fun a b ↦ key a < key b

namespace Ascending

variable {key : α → ℕ} {l l' : List α} {a b : α}

instance [DecidableEq α] : Decidable (Ascending key l) :=
  inferInstanceAs (Decidable (l.Pairwise _))

@[simp] theorem nil : Ascending key [] := List.Pairwise.nil

@[simp] theorem singleton (a : α) : Ascending key [a] := List.pairwise_singleton _ _

theorem append_iff : Ascending key (l ++ l') ↔
    Ascending key l ∧ Ascending key l' ∧ ∀ a ∈ l, ∀ b ∈ l', key a < key b :=
  List.pairwise_append

/-- An element above the last one extends the list. -/
theorem concat (hl : Ascending key l) (hb : ∀ a ∈ l, key a < key b) :
    Ascending key (l ++ [b]) :=
  append_iff.2 ⟨hl, singleton b, by simpa using hb⟩

/-- No key is repeated. -/
theorem nodup_map (hl : Ascending key l) : (l.map key).Nodup :=
  List.pairwise_map.2 (hl.imp fun hlt ↦ Nat.ne_of_lt hlt)

/-- Every key is at most the last one. -/
theorem le_getLast (hl : Ascending key l) (hlast : l.getLast? = some b) (ha : a ∈ l) :
    key a ≤ key b := by
  obtain ⟨pre, rfl⟩ := List.getLast?_eq_some_iff.1 hlast
  obtain ⟨-, -, hlt⟩ := append_iff.1 hl
  rcases List.mem_append.1 ha with h | h
  · exact (hlt a h b (by simp)).le
  · simp_all

/-- An ascending list has at most one element with a given key. -/
theorem eq_of_key_eq (hl : Ascending key l) (ha : a ∈ l) (hb : b ∈ l) (h : key a = key b) :
    a = b := by
  by_contra hne
  have hlt := List.Pairwise.forall_of_forall_of_flip (R := fun a b ↦ a ≠ b → key a ≠ key b)
    (l := l) (fun x _ hx ↦ absurd rfl hx) (hl.imp fun h _ ↦ h.ne) (hl.imp fun h _ ↦ h.ne') ha hb
  exact hlt hne h

/-- The first element whose key is at least `n` is the least such element. -/
theorem head?_filter_le (hl : Ascending key l) {n : ℕ} :
    (l.filter fun a ↦ n ≤ key a).head? = some a ↔
      a ∈ l ∧ n ≤ key a ∧ ∀ b ∈ l, n ≤ key b → key a ≤ key b := by
  induction l with
  | nil => simp
  | cons c l ih =>
    obtain ⟨hc, hl⟩ := List.pairwise_cons.1 hl
    by_cases hn : n ≤ key c
    · rw [List.filter_cons_of_pos (by simpa using hn), List.head?_cons, Option.some.injEq]
      constructor
      · rintro rfl
        refine ⟨by simp, hn, fun b hb _ ↦ ?_⟩
        rcases List.mem_cons.1 hb with rfl | hb
        · exact le_rfl
        · exact (hc b hb).le
      · rintro ⟨ha, -, hmin⟩
        rcases List.mem_cons.1 ha with rfl | ha
        · rfl
        · exact absurd (hmin c (by simp) hn) (hc a ha).not_ge
    · rw [List.filter_cons_of_neg (by simpa using hn), ih hl]
      constructor
      · rintro ⟨ha, hna, hmin⟩
        refine ⟨List.mem_cons_of_mem _ ha, hna, fun b hb hnb ↦ ?_⟩
        rcases List.mem_cons.1 hb with rfl | hb
        · exact absurd hnb hn
        · exact hmin b hb hnb
      · rintro ⟨ha, hna, hmin⟩
        rcases List.mem_cons.1 ha with rfl | ha
        · exact absurd hna hn
        · exact ⟨ha, hna, fun b hb ↦ hmin b (List.mem_cons_of_mem _ hb)⟩

/-- The elements whose keys are at least `n` are the end of the list. -/
theorem exists_append_filter_le (hl : Ascending key l) (n : ℕ) :
    ∃ below, l = below ++ l.filter (fun a ↦ n ≤ key a) ∧ ∀ a ∈ below, key a < n := by
  induction l with
  | nil => exact ⟨[], rfl, fun _ h ↦ (nomatch h)⟩
  | cons c l ih =>
    obtain ⟨hc, hl⟩ := List.pairwise_cons.1 hl
    by_cases hn : n ≤ key c
    · have hall : (c :: l).filter (fun a ↦ n ≤ key a) = c :: l := by
        refine List.filter_eq_self.2 fun a ha ↦ decide_eq_true ?_
        rcases List.mem_cons.1 ha with rfl | ha
        · exact hn
        · exact hn.trans (hc a ha).le
      exact ⟨[], hall.symm, fun _ h ↦ (nomatch h)⟩
    · obtain ⟨below, hbelow, hlt⟩ := ih hl
      refine ⟨c :: below, ?_, fun a ha ↦ ?_⟩
      · rw [List.filter_cons_of_neg (by simpa using hn), List.cons_append, ← hbelow]
      · rcases List.mem_cons.1 ha with rfl | ha
        · exact Nat.lt_of_not_le hn
        · exact hlt a ha

/-- Selecting the keys from `n` on is dropping as many elements as are below. -/
theorem filter_le_eq_drop (hl : Ascending key l) (n : ℕ) :
    l.filter (fun a ↦ n ≤ key a) = l.drop (l.countP fun a ↦ key a < n) := by
  obtain ⟨below, hbelow, hlt⟩ := hl.exists_append_filter_le n
  have hcount : l.countP (fun a ↦ key a < n) = below.length := by
    rw [hbelow, List.countP_append, List.countP_eq_length.2 fun a ha ↦ decide_eq_true (hlt a ha),
      List.countP_eq_zero.2 fun a ha h ↦ ?_, Nat.add_zero]
    exact (of_decide_eq_true (List.mem_filter.1 ha).2).not_gt (of_decide_eq_true h)
  rw [hcount]
  exact (List.drop_left' rfl).symm.trans (congrArg (List.drop below.length) hbelow.symm)

/-- A range of keys cuts the list into what is below it, what is inside and what is above. -/
theorem exists_append_filter_range (hl : Ascending key l) (m n : ℕ) : ∃ below above,
    l = below ++ l.filter (fun a ↦ m ≤ key a ∧ key a ≤ n) ++ above ∧
      (∀ a ∈ below, key a < m) ∧ ∀ a ∈ above, n < key a := by
  obtain ⟨below, hbelow, hlt⟩ := hl.exists_append_filter_le m
  have hfrom : Ascending key (l.filter fun a ↦ m ≤ key a) :=
    List.Pairwise.sublist List.filter_sublist hl
  obtain ⟨inside, hinside, hle⟩ := hfrom.exists_append_filter_le (n + 1)
  have habove : ∀ a ∈ (l.filter fun a ↦ m ≤ key a).filter fun a ↦ n + 1 ≤ key a, n < key a :=
    fun a ha ↦ of_decide_eq_true (List.mem_filter.1 ha).2
  generalize (l.filter fun a ↦ m ≤ key a).filter (fun a ↦ n + 1 ≤ key a) = above
    at hinside habove
  have hmem : ∀ a ∈ inside, m ≤ key a := by
    intro a ha
    have ha' : a ∈ l.filter fun a ↦ m ≤ key a := by
      rw [hinside]
      exact List.mem_append_left above ha
    exact of_decide_eq_true (List.mem_filter.1 ha').2
  rw [hinside] at hbelow
  have hfilter : l.filter (fun a ↦ m ≤ key a ∧ key a ≤ n) = inside := by
    rw [hbelow, List.filter_append, List.filter_append,
      List.filter_eq_nil_iff.2 fun a ha h ↦ (hlt a ha).not_ge (of_decide_eq_true h).1,
      List.filter_eq_self.2 fun a ha ↦
        decide_eq_true ⟨hmem a ha, Nat.le_of_lt_succ (hle a ha)⟩,
      List.filter_eq_nil_iff.2 fun a ha h ↦ (habove a ha).not_ge (of_decide_eq_true h).2]
    rw [List.nil_append, List.append_nil]
  refine ⟨below, above, ?_, hlt, habove⟩
  rw [hfilter, List.append_assoc]
  exact hbelow

/-- A present key is found. -/
theorem head?_filter_le_of_mem (hl : Ascending key l) (ha : a ∈ l) :
    (l.filter fun b ↦ key a ≤ key b).head? = some a :=
  hl.head?_filter_le.2 ⟨ha, le_rfl, fun _ _ h ↦ h⟩

end Ascending

/-! ### Insertion by key -/

/-- Add `b` unless its key is present, keeping the list sorted by key. -/
def insertByKey (key : α → ℕ) (l : List α) (b : α) : List α :=
  if l.any fun a ↦ key a == key b then l
  else (l ++ [b]).insertionSort fun a b ↦ key a ≤ key b

section InsertByKey

variable {key : α → ℕ} {l : List α} {a b : α}

theorem insertByKey_of_key_mem (h : ∃ a ∈ l, key a = key b) : insertByKey key l b = l := by
  rw [insertByKey, if_pos (by simpa using h)]

/-- Insertion keeps strict order: equal keys are refused and the rest is sorted. -/
theorem ascending_insertByKey (hl : Ascending key l) : Ascending key (insertByKey key l b) := by
  unfold insertByKey
  split
  · exact hl
  · rename_i hfresh
    have hne : (l ++ [b]).Pairwise fun a c ↦ key a ≠ key c := by
      refine List.pairwise_append.2 ⟨hl.imp ne_of_lt, List.pairwise_singleton _ _, ?_⟩
      simpa using hfresh
    have hperm := List.perm_insertionSort (fun a b ↦ key a ≤ key b) (l ++ [b])
    have hne' : ((l ++ [b]).insertionSort fun a b ↦ key a ≤ key b).Pairwise
        fun a c ↦ key a ≠ key c := (hperm.pairwise_iff fun h ↦ h.symm).2 hne
    have : Std.Total fun a b : α ↦ key a ≤ key b := ⟨fun a b ↦ le_total _ _⟩
    have : IsTrans α fun a b ↦ key a ≤ key b := ⟨fun _ _ _ ↦ le_trans⟩
    exact (List.pairwise_insertionSort (fun a b ↦ key a ≤ key b) (l ++ [b])).imp₂
      (fun _ _ h h' ↦ lt_of_le_of_ne h h') hne'

/-- An element above all others goes to the end. -/
theorem insertByKey_of_forall_lt (hl : Ascending key l) (hb : ∀ a ∈ l, key a < key b) :
    insertByKey key l b = l ++ [b] := by
  have hfresh : ¬(l.any fun a ↦ key a == key b) = true := by
    simpa using fun a ha ↦ (hb a ha).ne
  rw [insertByKey, if_neg hfresh]
  exact List.Pairwise.insertionSort_eq ((hl.concat hb).imp le_of_lt)

theorem insertByKey_of_key_not_mem (h : key b ∉ l.map key) :
    (insertByKey key l b).Perm (b :: l) := by
  have hfresh : ¬(l.any fun a ↦ key a == key b) = true := by
    simpa using fun a ha heq ↦ h (List.mem_map.2 ⟨a, ha, heq⟩)
  rw [insertByKey, if_neg hfresh]
  exact (List.perm_insertionSort _ _).trans List.perm_append_comm

theorem subset_foldl_insertByKey (bs : List α) : l ⊆ bs.foldl (insertByKey key) l := by
  induction bs generalizing l with
  | nil => exact List.Subset.refl l
  | cons b bs ih =>
    rw [List.foldl_cons]
    refine List.Subset.trans (fun a ha ↦ ?_) ih
    by_cases hb : key b ∈ l.map key
    · rwa [insertByKey_of_key_mem (List.mem_map.1 hb)]
    · exact (insertByKey_of_key_not_mem hb).mem_iff.2 (List.mem_cons_of_mem b ha)

/-- The keys are the old ones and those inserted. -/
theorem mem_map_foldl_insertByKey {bs : List α} {n : ℕ} :
    n ∈ (bs.foldl (insertByKey key) l).map key ↔ n ∈ l.map key ∨ n ∈ bs.map key := by
  induction bs generalizing l with
  | nil => simp
  | cons b bs ih =>
    rw [List.foldl_cons, ih, List.map_cons, List.mem_cons]
    by_cases hb : key b ∈ l.map key
    · rw [insertByKey_of_key_mem (List.mem_map.1 hb)]
      refine ⟨Or.imp_right .inr, ?_⟩
      rintro (hn | rfl | hn)
      · exact .inl hn
      · exact .inl hb
      · exact .inr hn
    · rw [((insertByKey_of_key_not_mem hb).map key).mem_iff, List.map_cons, List.mem_cons]
      tauto

/-- Elements inserted one by one into a list without repeated keys add one for each new key. -/
theorem length_foldl_insertByKey (hl : Ascending key l) (bs : List α) :
    (bs.foldl (insertByKey key) l).length =
      l.length + ((bs.map key).toFinset \ (l.map key).toFinset).card := by
  have hasc : Ascending key (bs.foldl (insertByKey key) l) := by
    induction bs generalizing l with
    | nil => exact hl
    | cons b bs ih => exact ih (ascending_insertByKey hl)
  have hkeys : ((bs.foldl (insertByKey key) l).map key).toFinset =
      (l.map key).toFinset ∪ ((bs.map key).toFinset \ (l.map key).toFinset) := by
    rw [Finset.union_sdiff_self_eq_union]
    ext n
    rw [Finset.mem_union, List.mem_toFinset, List.mem_toFinset, List.mem_toFinset]
    exact mem_map_foldl_insertByKey
  have hcard := congrArg Finset.card hkeys
  rwa [Finset.card_union_of_disjoint Finset.disjoint_sdiff,
    List.toFinset_card_of_nodup hasc.nodup_map, List.toFinset_card_of_nodup hl.nodup_map,
    List.length_map, List.length_map] at hcard

/-- As many as there are elements are added exactly if their keys are new and differ. -/
theorem card_sdiff_eq_length_iff {bs : List α} :
    ((bs.map key).toFinset \ (l.map key).toFinset).card = bs.length ↔
      (bs.map key).Nodup ∧ List.Disjoint (l.map key) (bs.map key) := by
  have hsdiff := Finset.card_le_card (Finset.sdiff_subset
    (s := (bs.map key).toFinset) (t := (l.map key).toFinset))
  have hdedup : (bs.map key).toFinset.card ≤ bs.length :=
    (List.toFinset_card_le _).trans_eq (List.length_map _)
  have hnodup : (bs.map key).toFinset.card = bs.length ↔ (bs.map key).Nodup := by
    rw [← List.length_map key, ← Multiset.coe_nodup, ← Multiset.coe_card]
    exact Multiset.toFinset_card_eq_card_iff_nodup
  have hdisjoint : ((bs.map key).toFinset \ (l.map key).toFinset).card =
      (bs.map key).toFinset.card ↔ List.Disjoint (l.map key) (bs.map key) := by
    rw [← List.disjoint_toFinset_iff_disjoint, disjoint_comm, ← Finset.sdiff_eq_self_iff_disjoint]
    exact ⟨fun h ↦ Finset.eq_of_subset_of_card_le Finset.sdiff_subset h.ge, fun h ↦ by rw [h]⟩
  rw [← hnodup, ← hdisjoint]
  omega

/-- Elements of present keys, then a continuation above all of them: insertion one by one
appends the continuation. -/
theorem foldl_insertByKey {old new : List α} (hl : Ascending key l)
    (hold : ∀ b ∈ old, ∃ a ∈ l, key a = key b) (hnew : Ascending key (l ++ new)) :
    (old ++ new).foldl (insertByKey key) l = l ++ new := by
  rw [List.foldl_append]
  have hskip : old.foldl (insertByKey key) l = l := by
    induction old with
    | nil => rfl
    | cons b old ih =>
      rw [List.foldl_cons, insertByKey_of_key_mem (hold b (by simp))]
      exact ih fun c hc ↦ hold c (List.mem_cons_of_mem _ hc)
  rw [hskip]
  clear hskip hold
  induction new generalizing l with
  | nil => simp
  | cons b new ih =>
    obtain ⟨-, -, hlt⟩ := Ascending.append_iff.1 hnew
    have hb : ∀ a ∈ l, key a < key b := fun a ha ↦ hlt a ha b (by simp)
    rw [List.foldl_cons, insertByKey_of_forall_lt hl hb, ih (hl.concat hb) (by simpa using hnew)]
    simp

/-- A piece of an ascending list, inserted into a beginning of it that reaches the piece: what is
there stays, and the rest of the piece is appended. -/
theorem foldl_insertByKey_take {k p : ℕ} (hl : Ascending key l) (hp : p ≤ k) (n : ℕ) :
    ((l.drop p).take n).foldl (insertByKey key) (l.take k) = l.take (max k (p + n)) := by
  have htake : ∀ m, Ascending key (l.take m) := fun m ↦ hl.sublist (List.take_sublist m l)
  -- the piece is cut where the beginning ends
  have hold : ∀ b ∈ ((l.drop p).take n).take (k - p), ∃ a ∈ l.take k, key a = key b := by
    intro b hb
    rw [List.take_take] at hb
    refine ⟨b, ?_, rfl⟩
    have hmem : b ∈ (l.take k).drop p := by
      rw [List.drop_take]
      exact List.take_subset_take_left _ (min_le_left _ _) hb
    exact List.mem_of_mem_drop hmem
  have hnew : l.take k ++ ((l.drop p).take n).drop (k - p) = l.take (max k (p + n)) := by
    rw [List.drop_take, List.drop_drop, Nat.add_sub_cancel' hp]
    rcases le_total (p + n) k with h | h
    · rw [max_eq_left h, Nat.sub_eq_zero_of_le (by omega), List.take_zero, List.append_nil]
    · rw [max_eq_right h, ← List.take_add]
      congr 1
      omega
  have hcut := foldl_insertByKey (htake k) hold (hnew ▸ htake _)
  rwa [List.take_append_drop, hnew] at hcut

end InsertByKey

/-! ### Sorting, with one element for each key -/

/-- Sort by key, stably, and of equal keys keep the first. -/
def sortDedup (key : α → ℕ) (l : List α) : List α :=
  (l.mergeSort fun a b ↦ key a ≤ key b).destutter fun a b ↦ key a ≠ key b

section SortDedup

variable {key : α → ℕ} {l : List α} {a : α} {n : ℕ}

theorem pairwise_mergeSort_key (l : List α) :
    (l.mergeSort fun a b ↦ key a ≤ key b).Pairwise fun a b ↦ key a ≤ key b := by
  have htotal : ∀ a b, (decide (key a ≤ key b) || decide (key b ≤ key a)) = true := by
    intro a b
    rw [Bool.or_eq_true, decide_eq_true_eq, decide_eq_true_eq]
    exact le_total _ _
  have htrans : ∀ a b c, decide (key a ≤ key b) = true → decide (key b ≤ key c) = true →
      decide (key a ≤ key c) = true :=
    fun a b c hab hbc ↦ decide_eq_true ((of_decide_eq_true hab).trans (of_decide_eq_true hbc))
  exact (List.pairwise_mergeSort htrans htotal l).imp of_decide_eq_true

/-- The keys are those of the sorted list, each once. -/
theorem map_key_sortDedup :
    (sortDedup key l).map key = ((l.mergeSort fun a b ↦ key a ≤ key b).map key).dedup := by
  have hmap : (sortDedup key l).map key =
      ((l.mergeSort fun a b ↦ key a ≤ key b).map key).destutter (· ≠ ·) :=
    List.map_destutter fun _ _ _ _ ↦ Iff.rfl
  rw [hmap]
  exact List.Pairwise.destutter_eq_dedup (r := (· ≤ ·))
    (List.pairwise_map.2 (pairwise_mergeSort_key l))

theorem mem_of_mem_sortDedup (h : a ∈ sortDedup key l) : a ∈ l :=
  List.mem_mergeSort.1 ((List.destutter_sublist _ _).subset h)

/-- The same keys occur. -/
theorem mem_map_sortDedup : n ∈ (sortDedup key l).map key ↔ n ∈ l.map key := by
  rw [map_key_sortDedup, List.mem_dedup]
  exact ((List.mergeSort_perm l _).map key).mem_iff

theorem ascending_sortDedup (l : List α) : Ascending key (sortDedup key l) := by
  have hle : (sortDedup key l).Pairwise fun a b ↦ key a ≤ key b :=
    (pairwise_mergeSort_key l).sublist (List.destutter_sublist _ _)
  have hne : (sortDedup key l).Pairwise fun a b ↦ key a ≠ key b :=
    List.pairwise_map.1 (map_key_sortDedup ▸ List.nodup_dedup _)
  exact hle.imp₂ (fun _ _ hle hne ↦ lt_of_le_of_ne hle hne) hne

/-- Of one key, only the first element is kept. -/
theorem sortDedup_of_forall_key_eq (h : ∀ a ∈ l, key a = n) :
    sortDedup key l = l.head?.toList := by
  have hsorted : (l.mergeSort fun a b ↦ key a ≤ key b) = l := by
    refine List.mergeSort_of_pairwise (List.pairwise_iff_forall_sublist.2 fun hsub ↦ ?_)
    rw [h _ (hsub.subset (by simp)), h _ (hsub.subset (by simp))]
    exact decide_eq_true le_rfl
  rw [sortDedup, hsorted]
  cases l with
  | nil => rfl
  | cons a l =>
    have hkey : ∀ b ∈ l, key b = key a := fun b hb ↦
      (h b (List.mem_cons_of_mem a hb)).trans (h a List.mem_cons_self).symm
    clear h hsorted
    induction l with
    | nil => rfl
    | cons b l ih =>
      rw [List.destutter_cons', List.destutter'_cons_neg _ (not_not.2
        (hkey b List.mem_cons_self).symm), ← List.destutter_cons']
      exact ih fun c hc ↦ hkey c (List.mem_cons_of_mem b hc)

theorem toFinset_map_sortDedup_subset {m : ℕ} (h : ∀ a ∈ l, m ≤ key a ∧ key a ≤ n) :
    ((sortDedup key l).map key).toFinset ⊆ Finset.Icc m n := by
  intro k hk
  obtain ⟨a, ha, rfl⟩ := List.mem_map.1 (mem_map_sortDedup.1 (List.mem_toFinset.1 hk))
  exact Finset.mem_Icc.2 (h a ha)

theorem card_toFinset_map_sortDedup :
    ((sortDedup key l).map key).toFinset.card = (sortDedup key l).length := by
  rw [List.toFinset_card_of_nodup (ascending_sortDedup l).nodup_map, List.length_map]

/-- There are at most as many elements as keys in a range that has them all. -/
theorem length_sortDedup_le {m : ℕ} (h : ∀ a ∈ l, m ≤ key a ∧ key a ≤ n) :
    (sortDedup key l).length ≤ n + 1 - m := by
  have hcard := Finset.card_le_card (toFinset_map_sortDedup_subset h)
  rwa [card_toFinset_map_sortDedup, Nat.card_Icc] at hcard

/-- There are as many exactly when every key of the range occurs. -/
theorem length_sortDedup_eq_iff {m : ℕ} (h : ∀ a ∈ l, m ≤ key a ∧ key a ≤ n) :
    (sortDedup key l).length = n + 1 - m ↔ ∀ k, m ≤ k → k ≤ n → k ∈ l.map key := by
  have hsub := toFinset_map_sortDedup_subset h
  rw [← card_toFinset_map_sortDedup, ← Nat.card_Icc]
  constructor
  · intro heq k hm hn
    have hmem := Finset.eq_of_subset_of_card_le hsub heq.ge ▸ Finset.mem_Icc.2 ⟨hm, hn⟩
    exact mem_map_sortDedup.1 (List.mem_toFinset.1 hmem)
  · intro hall
    refine congrArg Finset.card (hsub.antisymm fun k hk ↦ ?_)
    obtain ⟨hm, hn⟩ := Finset.mem_Icc.1 hk
    exact List.mem_toFinset.2 (mem_map_sortDedup.2 (hall k hm hn))

end SortDedup

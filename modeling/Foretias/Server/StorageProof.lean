import Foretias.Server.StoreRuns
import Mathlib.Algebra.GroupWithZero.Nat
import Mathlib.Data.Rat.Defs

/-!
# Storage proofs

A node answers which chronons of a range it stores with one Merkle range proof for each block that
meets the range, and anyone who knows the block roots checks the answer. The prover proves the
leaves from the first tick in range to the last one; the verifier checks every proof from leaf 0
on.

A `coverage_ratio` is kept as the two counts that it is the quotient of, so nothing here depends
on how `f64` rounds. The number of requested chronons is computed as in a release build: it wraps.
Panics and undefined behaviour of the C core have no outcome.
-/

namespace Foretias

/-! ### Requests and answers -/

/-- Request for a storage proof covering a chronon range. -/
structure StorageProofRequest where
  /-- Inclusive start of the chronon range. -/
  chrononStart : UInt64
  /-- Inclusive end of the chronon range. -/
  chrononEnd : UInt64
  deriving DecidableEq

/-- A fraction of a chronon range, not divided. -/
structure CoverageRatio where
  /-- The numerator. -/
  coveredTicks : ℕ
  /-- The denominator. -/
  requestedCount : UInt64
  deriving DecidableEq

/-- The fraction. -/
def CoverageRatio.value (c : CoverageRatio) : ℚ := c.coveredTicks / c.requestedCount.toNat

/-- Merkle range proof for a single calendar block. -/
structure BlockProof where
  /-- Identifier of the calendar block. -/
  blockId : ℕ
  /-- Merkle root stored in the block header. -/
  merkleRoot : FixedBytes 32
  /-- Leaf hashes included in the range proof. -/
  leaves : Vector ForetiasHash32 merkleMaxRangeProof
  /-- Sibling hashes from the Merkle range proof. -/
  siblings : Vector ForetiasHash32 merkleMaxDepth
  /-- Number of valid entries in `leaves`. -/
  leafCount : ℕ
  /-- Number of valid entries in `siblings`. -/
  siblingCount : ℕ
  /-- Total number of leaves in the tree this proof was generated from. -/
  n : ℕ

/-- Response containing per-block Merkle proofs for a chronon range. -/
structure StorageProofResponse where
  /-- One proof per block that covers any part of the requested range. -/
  blocks : List BlockProof
  /-- Fraction of the requested chronon range covered by stored ticks. -/
  coverageRatio : CoverageRatio

/-- Result of verifying a storage proof. -/
structure StorageProofResult where
  /-- All block proofs verified successfully. -/
  verified : Bool
  /-- Fraction of the requested chronon range covered by stored ticks. -/
  coverageRatio : CoverageRatio
  deriving DecidableEq

namespace StorageProofRequest

variable {A : Type} (req : StorageProofRequest)

/-- The number of chronons in the range, as `u64`. -/
def requestedCount : UInt64 :=
  if req.chrononEnd < req.chrononStart then 0 else req.chrononEnd - req.chrononStart + 1

/-- The number of chronons in the range. -/
def size : ℕ := req.chrononEnd.toNat + 1 - req.chrononStart.toNat

/-- A tick of the range. -/
def Covers (t : CalendarTick A) : Prop :=
  req.chrononStart ≤ t.record.chrononNumber ∧ t.record.chrononNumber ≤ req.chrononEnd

instance (t : CalendarTick A) : Decidable (req.Covers t) :=
  inferInstanceAs (Decidable (_ ∧ _))

/-- The ticks of a block in the range. -/
def coveredTicks (block : CalendarBlock A) : List (CalendarTick A) :=
  block.ticks.filter fun t ↦ req.Covers t

/-- The chronons of the range that blocks contain. -/
def coveredChronons (blocks : List (CalendarBlock A)) : List ℕ :=
  ((blocks.flatMap req.coveredTicks).map CalendarTick.key).dedup

/-- Where no chronon of the range is stored twice, they are the ticks of the blocks in the range. -/
theorem length_coveredChronons_of_nodup {blocks : List (CalendarBlock A)}
    (hnodup : ((blocks.flatMap req.coveredTicks).map CalendarTick.key).Nodup) :
    (req.coveredChronons blocks).length = (blocks.map fun b ↦ (req.coveredTicks b).length).sum := by
  rw [coveredChronons, List.Nodup.dedup hnodup, List.length_map, List.length_flatMap]

theorem length_coveredChronons {blocks : List (CalendarBlock A)}
    (hnodup : ((blocks.map CalendarBlock.ticks).flatten.map CalendarTick.key).Nodup) :
    (req.coveredChronons blocks).length = (blocks.map fun b ↦ (req.coveredTicks b).length).sum := by
  refine req.length_coveredChronons_of_nodup ?_
  have hfilter : blocks.flatMap req.coveredTicks =
      (blocks.map CalendarBlock.ticks).flatten.filter fun t ↦ req.Covers t := by
    rw [← List.flatMap_def, List.filter_flatMap]
    rfl
  rw [hfilter]
  exact hnodup.sublist (List.filter_sublist.map CalendarTick.key)

variable {req}

/-- The number of requested chronons is the size of the range, but for the range of all
chronons. -/
theorem toNat_requestedCount (h : req.chrononStart ≤ req.chrononEnd) (hsize : req.size < 2 ^ 64) :
    req.requestedCount.toNat = req.size := by
  have hle := UInt64.le_iff_toNat_le.1 h
  have hone : (1 : UInt64).toNat = 1 := rfl
  rw [size] at hsize
  rw [requestedCount, if_neg (UInt64.not_lt.2 h), UInt64.toNat_add,
    UInt64.toNat_sub_of_le _ _ h, hone, size, Nat.mod_eq_of_lt (by omega)]
  omega

theorem requestedCount_eq_zero (h : req.chrononStart ≤ req.chrononEnd) :
    req.requestedCount = 0 ↔ ¬req.size < 2 ^ 64 := by
  have hle := UInt64.le_iff_toNat_le.1 h
  have hstart := req.chrononStart.toNat_lt
  have hend := req.chrononEnd.toNat_lt
  constructor
  · intro hzero hsize
    have hcount := toNat_requestedCount h hsize
    rw [hzero, size] at hcount
    have hone : (0 : UInt64).toNat = 0 := rfl
    omega
  · intro hsize
    rw [size] at hsize
    have hone : (1 : UInt64).toNat = 1 := rfl
    refine UInt64.toNat_inj.1 ?_
    rw [requestedCount, if_neg (UInt64.not_lt.2 h), UInt64.toNat_add,
      UInt64.toNat_sub_of_le _ _ h, hone]
    have hfull : req.chrononEnd.toNat - req.chrononStart.toNat + 1 = 2 ^ 64 := by omega
    rw [hfull, Nat.mod_self]
    rfl

end StorageProofRequest

/-! ### Proving -/

section Prove

variable {A : Type} (P : Primitives) (F : StoreFormat A) (req : StorageProofRequest)

/-- `find_tick_index`. -/
def findTickIndex (ticks : List (CalendarTick A)) (target : UInt64) : ℕ :=
  ticks.findIdx fun t ↦ target ≤ t.record.chrononNumber

/-- `find_tick_index_after`: the search goes from the end to the start. -/
def findTickIndexAfter (ticks : List (CalendarTick A)) (target : UInt64) : ℕ :=
  ticks.length - ticks.reverse.findIdx fun t ↦ t.record.chrononNumber ≤ target

/-- `merkle_range_proof`. -/
def merkleRangeProof (leaves : List ForetiasHash32) (start fin : ℕ) :
    Option (Except ForetiasResult ForetiasMerkleRangeProof) :=
  if leaves = [] then some (.error .errProofRangeEmpty)
  else if fin ≤ start then some (.error .errProofRangeEmpty)
  else if leaves.length < fin then some (.error .errProofRangeExceeds)
  else if merkleMaxRangeProof < fin - start then some (.error .errProofRangeExceeds)
  else foretiasMerkleRangeProof P leaves start fin

/-- The proof of a block, with its arrays from `format_proof_arrays`. -/
def BlockProof.ofRangeProof (block : CalendarBlock A) (proof : ForetiasMerkleRangeProof) :
    BlockProof where
  blockId := block.blockId
  merkleRoot := block.merkleRoot
  leaves := fillArray (proof.leaves.toList.take proof.leafCount.toNat)
  siblings := fillArray (proof.siblings.toList.take proof.siblingCount.toNat)
  leafCount := proof.leafCount.toNat
  siblingCount := proof.siblingCount.toNat
  n := proof.n.toNat

/-- One turn of the loop of `build_merkle_proofs`: the proof of a block and the number of its ticks
that it covers, or nothing where the block is skipped. -/
def proveBlock (block : CalendarBlock A) : Option (Option (BlockProof × ℕ)) :=
  if ¬∃ t ∈ block.ticks, req.Covers t then some none
  else
    let leaves := tickLeaves P F block.ticks
    if leaves = [] then
      some (some (⟨block.blockId, block.merkleRoot, fillArray [], fillArray [], 0, 0, 0⟩, 0))
    else
      let blockStart := findTickIndex block.ticks req.chrononStart
      let blockEnd := findTickIndexAfter block.ticks req.chrononEnd
      if blockEnd ≤ blockStart ∨ leaves.length < blockEnd then some none
      else
        (merkleRangeProof P leaves blockStart blockEnd).map fun proof ↦
          proof.toOption.map fun proof ↦
            (.ofRangeProof block proof, blockEnd - blockStart)

/-- `build_merkle_proofs`. -/
def buildMerkleProofs (blocks : List (CalendarBlock A)) :
    Option (Option (List BlockProof × ℕ)) := do
  let proofs ← blocks.mapM (proveBlock P F req)
  let proofs := proofs.reduceOption
  some (if proofs = [] then none
    else some (proofs.map Prod.fst, (proofs.map Prod.snd).sum))

/-- `CalendarStore::prove_storage`, over the file of the store. -/
def proveStorage (key : FixedBytes 32) (file : Option (List Char)) :
    Option (Option StorageProofResponse) :=
  if req.chrononEnd < req.chrononStart then some none
  else
    match F.readAll key file with
    | .error .panic => none
    | .error (.err _) => some none
    | .ok blocks => (buildMerkleProofs P F req blocks).map fun built ↦
      built.map fun b ↦ ⟨b.1, ⟨b.2, req.requestedCount⟩⟩

end Prove

section Searches

variable {A : Type} {req : StorageProofRequest} {block : CalendarBlock A}

/-- In an ascending block that meets the range, the two searches cut out the ticks of the range. -/
theorem exists_cut (hasc : Ascending CalendarTick.key block.ticks)
    (hmeets : req.coveredTicks block ≠ []) : ∃ below above,
      block.ticks = below ++ req.coveredTicks block ++ above ∧
      (∀ t ∈ below, t.record.chrononNumber < req.chrononStart) ∧
      (∀ t ∈ above, req.chrononEnd < t.record.chrononNumber) ∧
      findTickIndex block.ticks req.chrononStart = below.length ∧
      findTickIndexAfter block.ticks req.chrononEnd =
        below.length + (req.coveredTicks block).length := by
  obtain ⟨below, above, hcut, hbelow, habove⟩ :=
    hasc.exists_append_filter_range req.chrononStart.toNat req.chrononEnd.toNat
  have hinside : (block.ticks.filter fun t ↦
      req.chrononStart.toNat ≤ t.key ∧ t.key ≤ req.chrononEnd.toNat) = req.coveredTicks block := by
    refine List.filter_congr fun t _ ↦ decide_eq_decide.2 ?_
    rw [StorageProofRequest.Covers, UInt64.le_iff_toNat_le, UInt64.le_iff_toNat_le]
    rfl
  rw [hinside] at hcut
  have hcovers : ∀ t ∈ req.coveredTicks block, req.Covers t :=
    fun t ht ↦ of_decide_eq_true (List.mem_filter.1 ht).2
  obtain ⟨first, rest, hfirst⟩ := List.exists_cons_of_ne_nil hmeets
  obtain ⟨init, last, hlast⟩ := (List.eq_nil_or_concat (req.coveredTicks block)).resolve_left hmeets
  refine ⟨below, above, hcut, fun t ht ↦ UInt64.lt_iff_toNat_lt.2 (hbelow t ht),
    fun t ht ↦ UInt64.lt_iff_toNat_lt.2 (habove t ht), ?_, ?_⟩
  · have hnone : below.findIdx (fun t ↦ req.chrononStart ≤ t.record.chrononNumber) =
        below.length := by
      refine List.findIdx_eq_length.2 fun t ht ↦ decide_eq_false ?_
      exact UInt64.not_le.2 (UInt64.lt_iff_toNat_lt.2 (hbelow t ht))
    have hstart : req.chrononStart ≤ first.record.chrononNumber :=
      (hcovers first (hfirst ▸ List.mem_cons_self)).1
    rw [findTickIndex, hcut, hfirst, List.append_assoc, List.findIdx_append, hnone,
      if_neg (lt_irrefl _), List.cons_append, List.findIdx_cons, decide_eq_true hstart]
    exact Nat.zero_add _
  · have hnone : above.reverse.findIdx (fun t ↦ t.record.chrononNumber ≤ req.chrononEnd) =
        above.length := by
      rw [← above.length_reverse]
      refine List.findIdx_eq_length.2 fun t ht ↦ decide_eq_false ?_
      exact UInt64.not_le.2 (UInt64.lt_iff_toNat_lt.2 (habove t (List.mem_reverse.1 ht)))
    have hend : last.record.chrononNumber ≤ req.chrononEnd := by
      refine (hcovers last ?_).2
      rw [hlast, List.concat_eq_append]
      exact List.mem_append_right _ (List.mem_singleton_self _)
    have hlength : block.ticks.length =
        below.length + (req.coveredTicks block).length + above.length := by
      rw [hcut, List.length_append, List.length_append]
    rw [findTickIndexAfter, hlength]
    rw [hcut, hlast, List.concat_eq_append, List.reverse_append, List.reverse_append,
      List.reverse_append, List.findIdx_append, hnone, List.length_reverse,
      if_neg (lt_irrefl _), List.reverse_singleton, List.singleton_append, List.cons_append,
      List.findIdx_cons, decide_eq_true hend]
    simp

/-- A block that meets the range has no tick before it exactly if its first tick is found. -/
theorem findTickIndex_eq_zero (hasc : Ascending CalendarTick.key block.ticks)
    (hmeets : req.coveredTicks block ≠ []) : findTickIndex block.ticks req.chrononStart = 0 ↔
      ∀ t ∈ block.ticks, req.chrononStart ≤ t.record.chrononNumber := by
  obtain ⟨below, above, hcut, hbelow, habove, hstart, -⟩ := exists_cut hasc hmeets
  rw [hstart, List.length_eq_zero_iff]
  constructor
  · intro hnil t ht
    obtain ⟨c, hc⟩ := List.exists_mem_of_ne_nil _ hmeets
    have hcovers : ∀ t ∈ req.coveredTicks block, req.Covers t :=
      fun t ht ↦ of_decide_eq_true (List.mem_filter.1 ht).2
    rw [hcut, hnil, List.nil_append] at ht
    obtain ht | ht := List.mem_append.1 ht
    · exact (hcovers t ht).1
    · exact UInt64.le_trans (UInt64.le_trans (hcovers c hc).1 (hcovers c hc).2)
        (UInt64.le_of_lt (habove t ht))
  · intro hall
    rw [List.eq_nil_iff_forall_not_mem]
    intro t ht
    refine absurd (hall t ?_) (UInt64.not_le.2 (hbelow t ht))
    rw [hcut, List.append_assoc]
    exact List.mem_append_left _ ht

end Searches

section ProveBlock

variable {A : Type} {P : Primitives} {F : StoreFormat A} {req : StorageProofRequest}
  {block : CalendarBlock A}

theorem coveredTicks_eq_nil : req.coveredTicks block = [] ↔ ¬∃ t ∈ block.ticks, req.Covers t := by
  rw [StorageProofRequest.coveredTicks, List.filter_eq_nil_iff]
  push Not
  exact forall₂_congr fun t _ ↦ not_congr decide_eq_true_iff

/-- A block without a tick in the range is skipped. -/
theorem proveBlock_of_nil (h : req.coveredTicks block = []) :
    proveBlock P F req block = some none := by
  rw [proveBlock, if_pos (coveredTicks_eq_nil.1 h)]

/-- A block that meets the range is proved as `merkle_range_proof` proves its ticks in range. -/
theorem proveBlock_eq (hasc : Ascending CalendarTick.key block.ticks)
    (hmeets : req.coveredTicks block ≠ []) : proveBlock P F req block =
      (merkleRangeProof P (tickLeaves P F block.ticks)
        (findTickIndex block.ticks req.chrononStart)
        (findTickIndex block.ticks req.chrononStart + (req.coveredTicks block).length)).map
          fun proof ↦ proof.toOption.map fun proof ↦
            (.ofRangeProof block proof, (req.coveredTicks block).length) := by
  obtain ⟨below, above, hcut, -, -, hstart, hend⟩ := exists_cut hasc hmeets
  have hpos : 0 < (req.coveredTicks block).length := List.length_pos_of_ne_nil hmeets
  have hlength : (tickLeaves P F block.ticks).length =
      below.length + (req.coveredTicks block).length + above.length := by
    rw [length_tickLeaves, hcut, List.length_append, List.length_append]
  have hleaves : tickLeaves P F block.ticks ≠ [] :=
    List.ne_nil_of_length_pos (by omega)
  rw [proveBlock, if_neg (not_not.2 (not_not.1 (mt coveredTicks_eq_nil.2 hmeets)))]
  simp only [hstart, hend]
  rw [if_neg hleaves, if_neg (by omega), Nat.add_sub_cancel_left]

/-- A block with more than 64 ticks in range is skipped. -/
theorem proveBlock_of_lt (hasc : Ascending CalendarTick.key block.ticks)
    (hwide : merkleMaxRangeProof < (req.coveredTicks block).length) :
    proveBlock P F req block = some none := by
  have hmeets : req.coveredTicks block ≠ [] := List.ne_nil_of_length_pos (Nat.zero_lt_of_lt hwide)
  have herror : ∀ (leaves : List ForetiasHash32) (start k : ℕ), merkleMaxRangeProof < k →
      ∃ e, merkleRangeProof P leaves start (start + k) = some (.error e) := by
    intro leaves start k hk
    rw [merkleRangeProof]
    split_ifs with hempty hle hfin
    · exact ⟨_, rfl⟩
    · exact ⟨_, rfl⟩
    · exact ⟨_, rfl⟩
    · exact ⟨_, rfl⟩
    · exact absurd hk (by omega)
  obtain ⟨e, he⟩ := herror (tickLeaves P F block.ticks)
    (findTickIndex block.ticks req.chrononStart) _ hwide
  rw [proveBlock_eq hasc hmeets, he]
  rfl

/-- A block of at most 128 ticks with at most 64 in range is proved. -/
theorem exists_proveBlock (hasc : Ascending CalendarTick.key block.ticks)
    (hmax : block.ticks.length ≤ merkleMaxTreePadded) (hmeets : req.coveredTicks block ≠ [])
    (hwidth : (req.coveredTicks block).length ≤ merkleMaxRangeProof) :
    ∃ proof, foretiasMerkleRangeProof P (tickLeaves P F block.ticks)
        (findTickIndex block.ticks req.chrononStart)
        (findTickIndex block.ticks req.chrononStart + (req.coveredTicks block).length) =
          some (.ok proof) ∧
      proveBlock P F req block =
        some (some (.ofRangeProof block proof, (req.coveredTicks block).length)) := by
  obtain ⟨below, above, hcut, -, -, hstart, -⟩ := exists_cut hasc hmeets
  have hpos : 0 < (req.coveredTicks block).length := List.length_pos_of_ne_nil hmeets
  have hlength : (tickLeaves P F block.ticks).length =
      below.length + (req.coveredTicks block).length + above.length := by
    rw [length_tickLeaves, hcut, List.length_append, List.length_append]
  have hmax' : (tickLeaves P F block.ticks).length ≤ merkleMaxTreePadded := by
    rwa [length_tickLeaves]
  obtain ⟨d, hd, hle, hpadded, -⟩ := exists_rootFromLeaves (P := P) (by omega) hmax'
  have hlt : below.length < below.length + (req.coveredTicks block).length :=
    Nat.lt_add_of_pos_right hpos
  obtain ⟨proof, hproof, -⟩ :=
    exists_rangeProof (P := P) hd hle hpadded hlt (by omega) (by omega)
  refine ⟨proof, ?_, ?_⟩
  · rw [hstart]
    exact hproof
  · rw [proveBlock_eq hasc hmeets, hstart, merkleRangeProof, if_neg, if_neg (by omega),
      if_neg (by omega), if_neg (by omega), hproof]
    · rfl
    · exact List.ne_nil_of_length_pos (by omega)

end ProveBlock

/-! ### Verifying -/

section Verify

variable (P : Primitives)

/-- `reconstruct_range_proof`. -/
def reconstructRangeProof (bp : BlockProof) : ForetiasMerkleRangeProof where
  leaves := fillArray (bp.leaves.toList.take bp.leafCount)
  siblings := fillArray (bp.siblings.toList.take bp.siblingCount)
  leafCount := toInt32 bp.leafCount
  siblingCount := toInt32 bp.siblingCount
  n := toInt32 bp.n

theorem n_reconstructRangeProof (bp : BlockProof) :
    (reconstructRangeProof bp).n = toInt32 bp.n := by
  rw [reconstructRangeProof]

theorem leafCount_reconstructRangeProof (bp : BlockProof) :
    (reconstructRangeProof bp).leafCount = toInt32 bp.leafCount := by
  rw [reconstructRangeProof]

/-- `merkle_verify_range_proof`, where every error is taken for `false`. -/
def merkleVerifyRangeProof (root : ForetiasHash32) (proof : ForetiasMerkleRangeProof)
    (start fin : ℕ) : Option Bool :=
  (foretiasMerkleVerifyRangeProof P root proof start fin).map (· == .ok)

/-- One turn of the loop of `verify_storage_proof`, from `all_verified` and `covered_ticks`. -/
def verifyBlock (knownRoots : List (FixedBytes 32)) (allVerified : Bool) (coveredTicks : ℕ)
    (bp : BlockProof) : Option (Bool × ℕ) :=
  if bp.n = 0 ∨ bp.leafCount = 0 then some (allVerified, coveredTicks)
  else
    (merkleVerifyRangeProof P bp.merkleRoot (reconstructRangeProof bp) 0 bp.leafCount).map
      fun valid ↦
        if valid = false then (false, coveredTicks)
        else if knownRoots ≠ [] ∧ bp.merkleRoot ∉ knownRoots then (false, coveredTicks)
        else (allVerified, coveredTicks + bp.leafCount)

/-- `verify_storage_proof`. -/
def verifyStorageProof (req : StorageProofRequest) (resp : StorageProofResponse)
    (knownRoots : List (FixedBytes 32)) : Option StorageProofResult :=
  if req.requestedCount = 0 then some ⟨false, ⟨0, 1⟩⟩
  else
    (resp.blocks.foldlM (fun st bp ↦ verifyBlock P knownRoots st.1 st.2 bp) (true, 0)).map
      fun st ↦ ⟨st.1, ⟨st.2, req.requestedCount⟩⟩

/-- A verifier reconstructs the proof that the prover took apart. -/
theorem reconstructRangeProof_ofRangeProof {A : Type} {P : Primitives} {block : CalendarBlock A}
    {leaves : List ForetiasHash32} {start fin : ℕ} {proof : ForetiasMerkleRangeProof}
    (h : foretiasMerkleRangeProof P leaves start fin = some (.ok proof)) :
    reconstructRangeProof (.ofRangeProof block proof) = proof := by
  obtain ⟨nodes, sibs, -, hnodes, hsibs, hmax, rfl⟩ := exists_eq_of_rangeProof h
  have hcount : toInt32 nodes.length = nodes.length :=
    toInt32_of_lt (hnodes.trans_lt (by decide))
  have hsibling : toInt32 sibs.length = sibs.length := toInt32_of_lt (hsibs.trans_lt (by decide))
  have hn : toInt32 leaves.length = leaves.length := toInt32_of_lt (hmax.trans_lt (by decide))
  simp only [reconstructRangeProof, BlockProof.ofRangeProof, Int.toNat_natCast,
    take_toList_fillArray hnodes, take_toList_fillArray hsibs, hcount, hsibling, hn]

/-- The verifier does not skip the block. -/
def BlockProof.Proves (bp : BlockProof) : Prop := bp.n ≠ 0 ∧ bp.leafCount ≠ 0

instance (bp : BlockProof) : Decidable bp.Proves := inferInstanceAs (Decidable (_ ∧ _))

/-- What the verifier asks of a block. -/
def BlockProof.Passes (knownRoots : List (FixedBytes 32)) (bp : BlockProof) : Prop :=
  merkleVerifyRangeProof P bp.merkleRoot (reconstructRangeProof bp) 0 bp.leafCount = some true ∧
    (knownRoots = [] ∨ bp.merkleRoot ∈ knownRoots)

/-- The number of leaves of the blocks that are not skipped. -/
def provedLeaves (blocks : List BlockProof) : ℕ :=
  ((blocks.filter fun bp ↦ bp.Proves).map BlockProof.leafCount).sum

variable {P} {knownRoots : List (FixedBytes 32)} {allVerified : Bool} {covered covered' : ℕ}
  {bp : BlockProof}

/-- One turn of the verifier's loop goes well if it did so far, and the block is skipped or
passes. -/
theorem verifyBlock_eq_true :
    verifyBlock P knownRoots allVerified covered bp = some (true, covered') ↔
      allVerified = true ∧ (bp.Proves → bp.Passes P knownRoots) ∧
        covered' = covered + provedLeaves [bp] := by
  rw [verifyBlock]
  by_cases hproves : bp.Proves
  · have hleaves : provedLeaves [bp] = bp.leafCount := by simp [provedLeaves, hproves]
    rw [if_neg (not_or.2 hproves), hleaves, BlockProof.Passes]
    cases hvalid : merkleVerifyRangeProof P bp.merkleRoot (reconstructRangeProof bp) 0
      bp.leafCount with
    | none => simp [hproves]
    | some valid =>
      cases valid with
      | false => simp [hproves]
      | true =>
        by_cases hroot : knownRoots ≠ [] ∧ bp.merkleRoot ∉ knownRoots
        · simp [hproves, hroot]
        · have hknown : knownRoots = [] ∨ bp.merkleRoot ∈ knownRoots := by
            by_contra hunknown
            exact hroot (not_or.1 hunknown)
          rw [Option.map_some, if_neg (Bool.noConfusion ·), if_neg hroot, Option.some_inj,
            Prod.mk.injEq]
          simp [hknown, eq_comm]
  · have hleaves : provedLeaves [bp] = 0 := by simp [provedLeaves, hproves]
    have hskip : bp.n = 0 ∨ bp.leafCount = 0 := by
      by_contra hnot
      exact hproves (not_or.1 hnot)
    rw [if_pos hskip, hleaves, Option.some_inj, Prod.mk.injEq, Nat.add_zero]
    simp [hproves, eq_comm]

/-- The verifier's loop goes well if every block is skipped or passes, and counts the leaves. -/
theorem foldlM_verifyBlock_eq_true {blocks : List BlockProof} :
    blocks.foldlM (fun st bp ↦ verifyBlock P knownRoots st.1 st.2 bp) (allVerified, covered) =
        some (true, covered') ↔
      allVerified = true ∧ (∀ bp ∈ blocks, bp.Proves → bp.Passes P knownRoots) ∧
        covered' = covered + provedLeaves blocks := by
  induction blocks generalizing allVerified covered with
  | nil =>
    rw [List.foldlM_nil]
    simp [provedLeaves, eq_comm]
  | cons bp blocks ih =>
    have hsum : provedLeaves (bp :: blocks) = provedLeaves [bp] + provedLeaves blocks := by
      rw [provedLeaves, provedLeaves, provedLeaves, ← List.sum_append, ← List.map_append,
        ← List.filter_append]
      rfl
    rw [List.foldlM_cons, Option.bind_eq_bind, Option.bind_eq_some_iff, List.forall_mem_cons, hsum]
    constructor
    · intro h
      obtain ⟨⟨allVerified', covered₁⟩, hfirst, hrest⟩ := h
      obtain ⟨rfl, hall, rfl⟩ := ih.1 hrest
      obtain ⟨rfl, hbp, rfl⟩ := verifyBlock_eq_true.1 hfirst
      exact ⟨rfl, ⟨hbp, hall⟩, Nat.add_assoc _ _ _⟩
    · intro h
      obtain ⟨rfl, ⟨hbp, hall⟩, rfl⟩ := h
      exact ⟨(true, _), verifyBlock_eq_true.2 ⟨rfl, hbp, rfl⟩,
        ih.2 ⟨rfl, hall, (Nat.add_assoc _ _ _).symm⟩⟩

/-- A storage proof verifies if the range can be counted and every block is skipped or passes. -/
theorem verifyStorageProof_eq_true {req : StorageProofRequest} {resp : StorageProofResponse}
    {ratio : CoverageRatio} :
    verifyStorageProof P req resp knownRoots = some ⟨true, ratio⟩ ↔
      req.requestedCount ≠ 0 ∧ (∀ bp ∈ resp.blocks, bp.Proves → bp.Passes P knownRoots) ∧
        ratio = ⟨provedLeaves resp.blocks, req.requestedCount⟩ := by
  rw [verifyStorageProof]
  by_cases hzero : req.requestedCount = 0
  · rw [if_pos hzero]
    exact iff_of_false (fun h ↦ nomatch h) fun h ↦ h.1 hzero
  · rw [if_neg hzero, Option.map_eq_some_iff]
    constructor
    · intro h
      obtain ⟨⟨all, covered⟩, hfold, h⟩ := h
      obtain ⟨rfl, rfl⟩ := StorageProofResult.mk.inj h
      obtain ⟨-, hall, rfl⟩ := foldlM_verifyBlock_eq_true.1 hfold
      exact ⟨hzero, hall, by rw [Nat.zero_add]⟩
    · intro h
      obtain ⟨-, hall, rfl⟩ := h
      exact ⟨(true, provedLeaves resp.blocks),
        foldlM_verifyBlock_eq_true.2 ⟨rfl, hall, (Nat.zero_add _).symm⟩, rfl⟩

end Verify

end Foretias

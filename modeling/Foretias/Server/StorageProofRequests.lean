import Foretias.C11.MerkleMemory
import Foretias.Server.StorageProof

/-!
# Storage proof requests

`storage_proof_verify` parses a request, the proofs of an answer to it and the block roots that are
known, and verifies the answer. The counts of a proof are whatever numbers the request has: its
leaves and siblings are read into arrays of a fixed size, but the counts are handed on as they are
to a verifier that trusts them.

* `isSome_handleStorageProofVerify_iff` — the handler stays in its arrays exactly if no block that
  it gets to claims more leaves than there is room for, in a tree of at least as many.
-/

namespace Foretias

/-! ### Parsing -/

/-- The members of a block of an answer; the elements of an array are there when they are
strings. -/
structure BlockParams where
  /-- Member `block_id`, when it is a number. -/
  blockId : Option UInt64
  /-- Member `merkle_root`, when it is a string. -/
  merkleRoot : Option String
  /-- Member `leaf_count`, when it is a number. -/
  leafCount : Option UInt64
  /-- Member `leaves`, when it is an array. -/
  leaves : Option (List (Option String))
  /-- Member `sibling_count`, when it is a number. -/
  siblingCount : Option UInt64
  /-- Member `siblings`, when it is an array. -/
  siblings : Option (List (Option String))
  /-- Member `n`, when it is a number. -/
  n : Option UInt64

/-- The members of `request`. -/
structure ProofRequestParams where
  /-- Member `tbid`, when it is a string. -/
  tbid : Option String
  /-- Member `chronon_start`, when it is a number. -/
  chrononStart : Option UInt64
  /-- Member `chronon_end`, when it is a number. -/
  chrononEnd : Option UInt64

/-- The members of `response`. -/
structure ProofResponseParams where
  /-- Member `coverage_ratio`, when it is a number. -/
  coverageRatio : Option CoverageRatio
  /-- Member `blocks`, when it is an array. -/
  blocks : Option (List BlockParams)

/-- The members of a `storage_proof_verify` request. -/
structure StorageProofVerifyParams where
  /-- Member `request`. -/
  request : Option ProofRequestParams
  /-- Member `response`. -/
  response : Option ProofResponseParams
  /-- Member `known_roots`, when it is an array; its elements are there when they are strings. -/
  knownRoots : Option (List (Option String))

/-- A hash of 64 hexadecimal digits. -/
def parseHash (text : String) : Option ForetiasHash32 :=
  (hexDecode text).bind (FixedBytes.ofBytes? 32)

/-- The hashes of an array, up to the stated count and the size of the array that they are read
into; what is no hash is left zero. -/
def parseHashes {size : ℕ} (count : ℕ) (hashes : Option (List (Option String))) :
    Vector ForetiasHash32 size :=
  fillArray (((hashes.getD []).take (min count size)).map fun h ↦ (h.bind parseHash).getD default)

/-- `parse_storage_proof_request`. -/
def parseStorageProofRequest (params : StorageProofVerifyParams) :
    Except String StorageProofRequest :=
  match params.request with
  | none => .error "missing 'request'"
  | some request =>
    if request.tbid.getD "" = "" then .error "missing or empty 'request.tbid'"
    else
      match request.chrononStart, request.chrononEnd with
      | none, _ => .error "missing or invalid 'request.chronon_start'"
      | some _, none => .error "missing or invalid 'request.chronon_end'"
      | some chrononStart, some chrononEnd => .ok ⟨chrononStart, chrononEnd⟩

/-- `parse_storage_proof_response`. -/
def parseStorageProofResponse (params : StorageProofVerifyParams) :
    Except String (CoverageRatio × List BlockParams) :=
  match params.response with
  | none => .error "missing 'response'"
  | some response =>
    match response.blocks with
    | none => .error "missing or invalid 'response.blocks'"
    | some blocks => .ok (response.coverageRatio.getD ⟨0, 1⟩, blocks)

/-- One turn of the loop of `parse_storage_proof_blocks`. -/
def parseBlockProof (i : ℕ) (block : BlockParams) : Except String BlockProof :=
  match block.merkleRoot with
  | none => .error s!"missing blocks[{i}].merkle_root"
  | some text =>
    match parseHash text with
    | none => .error s!"blocks[{i}].merkle_root must be 64-char hex"
    | some merkleRoot =>
      let leafCount := (block.leafCount.getD 0).toNat
      let siblingCount := (block.siblingCount.getD 0).toNat
      .ok ⟨(block.blockId.getD 0).toNat, merkleRoot, parseHashes leafCount block.leaves,
        parseHashes siblingCount block.siblings, leafCount, siblingCount, (block.n.getD 0).toNat⟩

/-- `parse_storage_proof_blocks`, from an index on. -/
def parseStorageProofBlocks (i : ℕ) : List BlockParams → Except String (List BlockProof)
  | [] => .ok []
  | block :: rest => do
    let proof ← parseBlockProof i block
    let proofs ← parseStorageProofBlocks (i + 1) rest
    pure (proof :: proofs)

/-- `parse_known_roots`, from an index on; what is no string is left out. -/
def parseKnownRoots (i : ℕ) : List (Option String) → Except String (List ForetiasHash32)
  | [] => .ok []
  | none :: rest => parseKnownRoots (i + 1) rest
  | some text :: rest =>
    match parseHash text with
    | none => .error s!"known_roots[{i}] must be 64-char hex"
    | some root => do
      let roots ← parseKnownRoots (i + 1) rest
      pure (root :: roots)

/-- The request, the answer and the known roots of `storage_proof_verify`. -/
def parseStorageProofVerify (params : StorageProofVerifyParams) :
    Except String (StorageProofRequest × StorageProofResponse × List ForetiasHash32) := do
  let req ← parseStorageProofRequest params
  let (coverageRatio, blocks) ← parseStorageProofResponse params
  let blocks ← parseStorageProofBlocks 0 blocks
  let knownRoots ← parseKnownRoots 0 (params.knownRoots.getD [])
  pure (req, ⟨blocks, coverageRatio⟩, knownRoots)

variable (P : Primitives)

/-- `handle_storage_proof_verify`; there is no outcome where the C core leaves its arrays. -/
def handleStorageProofVerify (params : StorageProofVerifyParams) :
    Option (Except RpcError StorageProofResult) :=
  match parseStorageProofVerify params with
  | .error message => some (.error (.invalidParams message))
  | .ok (req, resp, knownRoots) => (verifyStorageProof P req resp knownRoots).map .ok

/-! ### When there is an outcome -/

/-- The leaves that are counted fit in the array, or there are not as many. -/
def BlockProof.FitsArrays (bp : BlockProof) : Prop :=
  bp.leafCount ≤ merkleMaxRangeProof ∨ toInt32 bp.n < bp.leafCount

/-- No block of the request claims more leaves than there is room for, or none is looked at. -/
def StorageProofVerifyParams.FitArrays (params : StorageProofVerifyParams) : Prop :=
  ∀ req resp knownRoots, parseStorageProofVerify params = .ok (req, resp, knownRoots) →
    req.requestedCount ≠ 0 → ∀ bp ∈ resp.blocks, bp.FitsArrays

variable {P}

/-- A range of the first leaves takes at most one sibling at each level. -/
theorem siblingsTaken_zero_le (depth e : ℕ) : siblingsTaken depth 0 e ≤ depth := by
  induction depth generalizing e with
  | zero => exact le_rfl
  | succ depth ih =>
    rw [siblingsTaken, Nat.zero_mod, Nat.zero_div]
    have hrest := ih ((e + 1) / 2)
    omega

theorem toInt32_lt (n : ℕ) : toInt32 n < 2 ^ 31 := by
  have h : toInt32 n < (((2 ^ 32 : ℕ) : ℤ) + 1) / 2 := Int.bmod_lt (Nat.two_pow_pos 32)
  omega

/-- A tree of as many leaves as a C int can count has no more levels than there are siblings. -/
theorem merkleLog2_le {n : ℕ} (hn : n < 2 ^ 31) :
    merkleLog2 (merkleNextPow2 n) ≤ merkleMaxDepth := by
  rcases Nat.eq_zero_or_pos n with rfl | hpos
  · decide
  obtain ⟨d, hpadded, -, hlt⟩ := exists_merkleNextPow2_eq hpos
  have hpow : 2 ^ d < 2 ^ merkleMaxDepth := by
    rw [show merkleMaxDepth = 31 + 1 from rfl, Nat.pow_succ']
    omega
  rw [hpadded, merkleLog2_two_pow]
  exact ((Nat.pow_lt_pow_iff_right Nat.one_lt_two).1 hpow).le

/-- Proofs of the first leaves can be checked exactly if they fit. -/
theorem safe_reconstructRangeProof_iff {bp : BlockProof} :
    (reconstructRangeProof bp).Safe 0 bp.leafCount ↔ bp.FitsArrays := by
  have hlt := toInt32_lt bp.n
  rw [ForetiasMerkleRangeProof.Safe, n_reconstructRangeProof, leafCount_reconstructRangeProof,
    Nat.sub_zero, BlockProof.FitsArrays, or_iff_right (not_not.2 rfl)]
  constructor
  · rintro (hn | hempty | hexceeds | hfits)
    · by_cases hempty : bp.leafCount = 0
      · exact .inl (by omega)
      · exact .inr (by omega)
    · exact .inl (by omega)
    · exact .inr (by omega)
    · exact .inl hfits.1
  · rintro (hfits | hexceeds)
    · refine .inr (.inr (.inr ⟨hfits, (siblingsTaken_zero_le _ _).trans (merkleLog2_le ?_)⟩))
      omega
    · by_cases hn : toInt32 bp.n ≤ 0
      · exact .inl hn
      · exact .inr (.inr (.inl (by omega)))

theorem isSome_verifyBlock_iff {knownRoots : List ForetiasHash32} {st : Bool × ℕ}
    {bp : BlockProof} : (verifyBlock P knownRoots st.1 st.2 bp).isSome ↔ bp.FitsArrays := by
  rw [verifyBlock]
  split
  · rename_i hskip
    refine iff_of_true rfl ?_
    rcases hskip with hn | hcount
    · by_cases hempty : bp.leafCount = 0
      · exact .inl (by omega)
      · refine .inr ?_
        rw [hn, toInt32_of_lt (Nat.two_pow_pos 31)]
        omega
    · exact .inl (by omega)
  · rw [Option.isSome_map, merkleVerifyRangeProof, Option.isSome_map, isSome_verifyRangeProof_iff,
      safe_reconstructRangeProof_iff]

/-- The loop over the blocks goes on whatever it finds. -/
theorem isSome_foldlM_verifyBlock_iff {knownRoots : List ForetiasHash32}
    {blocks : List BlockProof} {st : Bool × ℕ} :
    (blocks.foldlM (fun st bp ↦ verifyBlock P knownRoots st.1 st.2 bp) st).isSome ↔
      ∀ bp ∈ blocks, bp.FitsArrays := by
  induction blocks generalizing st with
  | nil => exact iff_of_true rfl nofun
  | cons bp blocks ih =>
    have hblock : (verifyBlock P knownRoots st.1 st.2 bp).isSome ↔ bp.FitsArrays :=
      isSome_verifyBlock_iff
    rw [List.foldlM_cons, List.forall_mem_cons, ← hblock]
    cases verifyBlock P knownRoots st.1 st.2 bp with
    | none => exact iff_of_false nofun fun h ↦ nomatch h.1
    | some st' => exact ih.trans (and_iff_right rfl).symm

/-- **The handler stays in its arrays exactly if no block that is looked at claims more leaves
than there is room for.** -/
theorem isSome_handleStorageProofVerify_iff {params : StorageProofVerifyParams} :
    (handleStorageProofVerify P params).isSome ↔ params.FitArrays := by
  rw [handleStorageProofVerify, StorageProofVerifyParams.FitArrays]
  cases parseStorageProofVerify params with
  | error message => exact iff_of_true rfl nofun
  | ok parsed =>
    obtain ⟨req, resp, knownRoots⟩ := parsed
    have hverify : (verifyStorageProof P req resp knownRoots).isSome ↔
        (req.requestedCount ≠ 0 → ∀ bp ∈ resp.blocks, bp.FitsArrays) := by
      rw [verifyStorageProof]
      split
      · rename_i hnone
        exact iff_of_true rfl fun h ↦ absurd hnone h
      · rename_i hsome
        rw [Option.isSome_map, isSome_foldlM_verifyBlock_iff]
        exact ⟨fun h _ ↦ h, fun h ↦ h hsome⟩
    dsimp only
    rw [Option.isSome_map, hverify]
    constructor
    · rintro h _ _ _ ⟨⟩
      exact h
    · exact fun h ↦ h _ _ _ rfl

end Foretias

import Foretias.C11.Privkey

/-!
# The two signatures of a TBID

A TBID has an Ed25519 key and an SLH-DSA key, and its signature of a message is one of each, the
first before the second. The C core makes the keys, signs and verifies; the Rust functions over it
take and return flat bytes, which either side cuts at fixed offsets. The secret keys are sealed
under the instance key of the process.

* `tbidVerify_eq` — `tbid_verify` is the one of the software crypto server;
* `tbid_dual_signature` — the key pairs and the signatures of a process meet, and what is accepted
  is two signatures.
-/

namespace Foretias

open ErrorState

/-- The functions of libsodium and liboqs that the TBID functions call; `none` is a failure. -/
structure TbidLibraries extends KeySodium where
  /-- `crypto_sign_detached`: message, and the seed and public key that the secret key is. -/
  signDetached : Bytes → Bytes32 → Bytes32 → Option (FixedBytes 64)
  /-- `crypto_sign_verify_detached`: signature, message, public key. -/
  signVerifyDetached : FixedBytes 64 → Bytes → Bytes32 → Bool
  /-- `OQS_SIG_sphincs_sha2_256f_simple_keypair`: public and secret key, of what it draws. -/
  sphincsKeypair : Bytes → Option (FixedBytes 64 × FixedBytes 128)
  /-- `OQS_SIG_sphincs_sha2_256f_simple_sign`: message, secret key, and what it draws. -/
  sphincsSign : Bytes → FixedBytes 128 → Bytes → Option Bytes
  /-- `OQS_SIG_sphincs_sha2_256f_simple_verify`: message, signature, public key. -/
  sphincsVerify : Bytes → Bytes → FixedBytes 64 → Bool

/-- `ForetiasTbidV1PubKey`. -/
structure ForetiasTbidV1PubKey where
  ed25519Pub : Bytes32
  slhDsaPub : FixedBytes 64

/-- `ForetiasTbidV1SecretKey`. -/
structure ForetiasTbidV1SecretKey where
  /-- 32 bytes of plaintext and 16 of tag. -/
  encryptedEd25519 : FixedBytes 48
  ed25519Nonce : FixedBytes 24
  /-- 128 bytes of plaintext and 16 of tag. -/
  encryptedSlhDsa : FixedBytes 144
  slhDsaNonce : FixedBytes 24
  slhDsaPlaintextLen : ℕ

/-- `ForetiasTbidV1Sig`. -/
structure ForetiasTbidV1Sig where
  bytes : FixedBytes 49920
  len : ℕ

/-- What the making of a key pair draws. -/
structure TbidDraw where
  /-- `randombytes_buf`. -/
  seed : Bytes32
  /-- What liboqs draws. -/
  slhDsa : Bytes

variable (C : TbidLibraries)

/-! ### The C core -/

/-- `foretias_ed25519_generate_keypair`; `seed` is what `randombytes_buf` returns. -/
def foretiasEd25519GenerateKeypair (seed : Bytes32) :
    Except ForetiasResult (Bytes32 × Bytes32) :=
  match C.signSeedKeypair seed with
  | some pub => .ok (pub, seed)
  | none => .error .errInternal

/-- `foretias_ed25519_sign`. -/
def foretiasEd25519Sign (priv : Bytes32) (msg : Bytes) :
    Except ForetiasResult (FixedBytes 64) :=
  match C.signSeedKeypair priv with
  | none => .error .errInternal
  | some pub =>
    match C.signDetached msg priv pub with
    | none => .error .errInternal
    | some sig => .ok sig

/-- `foretias_ed25519_verify`. -/
def foretiasEd25519Verify (pub : Bytes32) (msg : Bytes) (sig : FixedBytes 64) : ForetiasResult :=
  if C.signVerifyDetached sig msg pub then .ok else .errBadSig

/-- `foretias_sphincs_sha2_256f_verify`, of the bytes in use of its buffers. -/
def foretiasSphincsSha2256fVerify (publicKey msg sig : Bytes) : ForetiasResult :=
  if C.sphincsVerify msg sig (.read 64 publicKey) then .ok else .errBadSig

/-- `foretias_tbid_v1_keypair`; `outputs` is whether neither output pointer is null. -/
def foretiasTbidV1Keypair (draw : TbidDraw) (outputs : Bool) :
    EStateM ForetiasResult KeyMemory (ForetiasTbidV1SecretKey × ForetiasTbidV1PubKey) := do
  require (outputs = true) .errBadInput
  let (ed25519Pub, ed25519Sk) ← ofResult (foretiasEd25519GenerateKeypair C draw.seed)
  let (plaintextPk, plaintextSlh) ← ofOption .errInternal (C.sphincsKeypair draw.slhDsa)
  let (ed25519Nonce, encryptedEd25519) ←
    foretiasPrivkeyEncrypt C.toKeySodium (some ed25519Sk.toList) true
  let (slhDsaNonce, encryptedSlhDsa) ←
    foretiasPrivkeyEncrypt C.toKeySodium (some plaintextSlh.toList) true
  pure (⟨.read 48 encryptedEd25519, ed25519Nonce, .read 144 encryptedSlhDsa, slhDsaNonce, 128⟩,
    ⟨ed25519Pub, plaintextPk⟩)

/-- `foretias_tbid_v1_sign`; `draw` is what liboqs draws. -/
def foretiasTbidV1Sign (draw : Bytes) (secret : Option ForetiasTbidV1SecretKey)
    (msg : Option Bytes) (sigOut : Option ForetiasTbidV1Sig) :
    EStateM ForetiasResult KeyMemory ForetiasTbidV1Sig := do
  let secret ← ofOption .errBadInput secret
  let msg ← ofOption .errBadInput msg
  let sigOut ← ofOption .errBadInput sigOut
  require (49920 ≤ sigOut.len) .errBadInput
  let ed25519Sk ← orThrow (foretiasPrivkeyDecrypt C.toKeySodium
    (some (secret.encryptedEd25519.toList.take (32 + 16))) (some secret.ed25519Nonce) true)
    .errInternal
  let ed25519Sig ← ofResult (foretiasEd25519Sign C (.read 32 ed25519Sk) msg)
  let plaintextSlh ← orThrow (foretiasPrivkeyDecrypt C.toKeySodium
    (some (secret.encryptedSlhDsa.toList.take (secret.slhDsaPlaintextLen + 16)))
    (some secret.slhDsaNonce) true) .errInternal
  let slhSig ← ofOption .errInternal (C.sphincsSign msg (.read 128 plaintextSlh) draw)
  let written := ed25519Sig.toList ++ slhSig
  pure ⟨.read 49920 (written ++ sigOut.bytes.toList.drop written.length), 64 + slhSig.length⟩

/-- `foretias_tbid_v1_verify`. -/
def foretiasTbidV1Verify (publicKey : Option ForetiasTbidV1PubKey) (msg : Option Bytes)
    (sig : Option ForetiasTbidV1Sig) : ForetiasResult :=
  match publicKey, msg, sig with
  | some publicKey, some msg, some sig =>
    if sig.len < 49920 then .errBadInput
    else
      let ed25519Result :=
        foretiasEd25519Verify C publicKey.ed25519Pub msg (.read 64 sig.bytes.toList)
      if ed25519Result ≠ .ok then ed25519Result
      else foretiasSphincsSha2256fVerify C publicKey.slhDsaPub.toList msg
        ((sig.bytes.toList.drop 64).take (sig.len - 64))
  | _, _, _ => .errBadInput

/-! ### The Rust functions -/

/-- `c_result_to_error`, by the codes that the results are. -/
def cResultToError : ForetiasResult → Result CryptoError Unit
  | .ok => .ok ()
  | .errBadSig => .err .badSignature
  | .errBadProof => .err (.internal (-2))
  | .errBadKey => .err .badKey
  | .errBadInput => .err (.badInput "invalid input")
  | .errOverflow => .err (.internal (-7))
  | .errProofRangeEmpty => .err .proofRangeEmpty
  | .errProofRangeExceeds => .err .proofRangeExceeds
  | .errInternal => .err (.internal (-99))

/-- How a call of the C core that fails with a code ends. No call fails with `FORETIAS_OK`. -/
def stopOfCode (code : ForetiasResult) : Stop CryptoError :=
  match cResultToError code with
  | .error stop => stop
  | .ok () => .panic

/-- The 240 bytes of a secret key. -/
def ForetiasTbidV1SecretKey.toBytes (secret : ForetiasTbidV1SecretKey) : Bytes :=
  secret.encryptedEd25519.toList ++ secret.ed25519Nonce.toList ++
    secret.encryptedSlhDsa.toList ++ secret.slhDsaNonce.toList

/-- A secret key, of the ranges `..48`, `48..72`, `72..216` and `216..240` of its bytes. -/
def ForetiasTbidV1SecretKey.ofBytes (bs : Bytes) : ForetiasTbidV1SecretKey :=
  ⟨.read 48 bs, .read 24 (bs.drop 48), .read 144 (bs.drop 72), .read 24 (bs.drop 216), 128⟩

/-- The 96 bytes of a public key. -/
def ForetiasTbidV1PubKey.toBytes (pub : ForetiasTbidV1PubKey) : Bytes :=
  pub.ed25519Pub.toList ++ pub.slhDsaPub.toList

/-- A public key, of the ranges `..32` and `32..96` of its bytes. -/
def ForetiasTbidV1PubKey.ofBytes (bs : Bytes) : ForetiasTbidV1PubKey :=
  ⟨.read 32 bs, .read 64 (bs.drop 32)⟩

namespace SigningTbid

/-- `tbid_keypair`: the public and the secret key. -/
def tbidKeypair (draw : TbidDraw) : EStateM (Stop CryptoError) KeyMemory (Bytes × Bytes) := do
  let (secret, pub) ← (foretiasTbidV1Keypair C draw true).adaptExcept stopOfCode
  pure (pub.toBytes, secret.toBytes)

/-- `tbid_sign`; `draw` is what liboqs draws. -/
def tbidSign (draw secretKey msg : Bytes) : EStateM (Stop CryptoError) KeyMemory Bytes := do
  require (secretKey.length = 240) (.err (.badInput "secret key length mismatch"))
  let sig ← (foretiasTbidV1Sign C draw (some (.ofBytes secretKey)) (some msg)
    (some ⟨.replicate 49920 0, 49920⟩)).adaptExcept stopOfCode
  -- the slice `sig.bytes[..sig.len]`
  require (sig.len ≤ 49920) .panic
  pure (sig.bytes.toList.take sig.len)

/-- `tbid_verify`. -/
def tbidVerify (publicKey msg sig : Bytes) : Result CryptoError Bool :=
  if publicKey.length ≠ 96 then .err (.badInput "public key length mismatch")
  else if sig.length < 49920 then .err (.badInput "signature too short")
  -- the slice `sig_struct.bytes[..sig.len()]`
  else if 49920 < sig.length then .error .panic
  else
    match foretiasTbidV1Verify C (some (.ofBytes publicKey)) (some msg)
      (some ⟨.read 49920 sig, sig.length⟩) with
    | .ok => .ok true
    | .errBadSig => .ok false
    | code => (cResultToError code).map fun _ ↦ false

/-! ### The flat layouts -/

variable {C}

/-- A secret key is read back from its bytes. -/
theorem ofBytes_toBytes {secret : ForetiasTbidV1SecretKey} (h : secret.slhDsaPlaintextLen = 128) :
    .ofBytes secret.toBytes = secret := by
  obtain ⟨encEd, nonceEd, encSlh, nonceSlh, len⟩ := secret
  obtain rfl := h
  have h48 : (encEd.toList ++ nonceEd.toList ++ encSlh.toList ++ nonceSlh.toList).drop 48 =
      nonceEd.toList ++ (encSlh.toList ++ nonceSlh.toList) := by
    rw [List.append_assoc, List.append_assoc, List.drop_left' encEd.length_eq]
  have h72 : (encEd.toList ++ nonceEd.toList ++ encSlh.toList ++ nonceSlh.toList).drop 72 =
      encSlh.toList ++ nonceSlh.toList := by
    rw [List.append_assoc _ encSlh.toList]
    refine List.drop_left' ?_
    rw [List.length_append, encEd.length_eq, nonceEd.length_eq]
  have h216 : (encEd.toList ++ nonceEd.toList ++ encSlh.toList ++ nonceSlh.toList).drop 216 =
      nonceSlh.toList := by
    refine List.drop_left' ?_
    rw [List.length_append, List.length_append, encEd.length_eq, nonceEd.length_eq,
      encSlh.length_eq]
  simp only [ForetiasTbidV1SecretKey.ofBytes, ForetiasTbidV1SecretKey.toBytes, h48, h72, h216]
  rw [List.append_assoc, List.append_assoc, FixedBytes.read_append, FixedBytes.read_append,
    FixedBytes.read_append, FixedBytes.read_toList]

theorem length_toBytes (secret : ForetiasTbidV1SecretKey) : secret.toBytes.length = 240 := by
  simp only [ForetiasTbidV1SecretKey.toBytes, List.length_append, FixedBytes.length_toList]

/-! ### Verification -/

/-- The primitives of the software crypto server, with the verifiers of the libraries. -/
def primitives (C : TbidLibraries) (P : Primitives) : Primitives :=
  { P with
    ed25519Verify := fun pub msg sig ↦ C.signVerifyDetached sig msg pub
    slhDsaVerify := fun pub msg sig ↦ C.sphincsVerify msg sig (.read 64 pub) }

theorem sliceTo_eq_read {ε : Type} {n : ℕ} {bs : Bytes} (h : n ≤ bs.length) :
    (sliceTo n bs : Result ε (FixedBytes n)) = .ok (.read n bs) :=
  sliceTo_eq_ok.2 ⟨h, (FixedBytes.toList_read_of_le h).symm⟩

/-- What the C core makes of a public key and a signature of the right length. -/
theorem foretiasTbidV1Verify_ofBytes (publicKey msg : Bytes) {sig : Bytes}
    (hsig : sig.length = 49920) :
    foretiasTbidV1Verify C (some (.ofBytes publicKey)) (some msg)
        (some ⟨.read 49920 sig, sig.length⟩) =
      if C.signVerifyDetached (.read 64 sig) msg (.read 32 publicKey) &&
        C.sphincsVerify msg (sig.drop 64) (.read 64 (publicKey.drop 32)) then .ok
      else .errBadSig := by
  have htake : (sig.drop 64).take (sig.length - 64) = sig.drop 64 := by
    rw [← List.length_drop, List.take_length]
  simp only [foretiasTbidV1Verify, FixedBytes.toList_read hsig, if_neg (Nat.not_lt.2 hsig.ge),
    ForetiasTbidV1PubKey.ofBytes, foretiasEd25519Verify, foretiasSphincsSha2256fVerify,
    FixedBytes.read_toList, htake]
  cases C.signVerifyDetached (.read 64 sig) msg (.read 32 publicKey) <;> rfl

/-- **`tbid_verify`, through its flat layouts and the C core, is the one of the software crypto
server.** -/
theorem tbidVerify_eq (P : Primitives) (publicKey msg sig : Bytes) :
    tbidVerify C publicKey msg sig = Foretias.tbidVerify (primitives C P) publicKey msg sig := by
  unfold tbidVerify Foretias.tbidVerify tbidV1SigBytes
  split_ifs with hkey hlt hgt
  · rfl
  · rfl
  · rfl
  have hkey' : publicKey.length = 96 := not_not.1 hkey
  have hsig : sig.length = 49920 := by omega
  rw [foretiasTbidV1Verify_ofBytes publicKey msg hsig, sliceTo_eq_read (by omega),
    sliceTo_eq_read (by omega)]
  show _ = Except.ok (C.signVerifyDetached (.read 64 sig) msg (.read 32 publicKey) &&
    C.sphincsVerify msg (sig.drop 64) (.read 64 (publicKey.drop 32)))
  cases C.signVerifyDetached (.read 64 sig) msg (.read 32 publicKey) &&
    C.sphincsVerify msg (sig.drop 64) (.read 64 (publicKey.drop 32)) <;> rfl

/-- What is accepted, by the two verifiers. -/
theorem tbidVerify_eq_ok_true_iff {publicKey msg sig : Bytes} :
    tbidVerify C publicKey msg sig = .ok true ↔ publicKey.length = 96 ∧ sig.length = 49920 ∧
      C.signVerifyDetached (.read 64 sig) msg (.read 32 publicKey) = true ∧
        C.sphincsVerify msg (sig.drop 64) (.read 64 (publicKey.drop 32)) = true := by
  unfold tbidVerify
  split_ifs with hkey hlt hgt
  · exact iff_of_false (Result.err_ne_ok _ _) fun h ↦ hkey h.1
  · exact iff_of_false (Result.err_ne_ok _ _) fun h ↦ Nat.ne_of_lt hlt h.2.1
  · refine iff_of_false (fun h ↦ ?_) fun h ↦ Nat.ne_of_gt hgt h.2.1
    cases h
  have hkey' : publicKey.length = 96 := not_not.1 hkey
  have hsig : sig.length = 49920 := by omega
  rw [foretiasTbidV1Verify_ofBytes publicKey msg hsig, and_iff_right hkey', and_iff_right hsig,
    ← Bool.and_eq_true_iff]
  cases C.signVerifyDetached (.read 64 sig) msg (.read 32 publicKey) &&
    C.sphincsVerify msg (sig.drop 64) (.read 64 (publicKey.drop 32)) with
  | true => exact iff_of_true rfl rfl
  | false => exact iff_of_false (fun h ↦ by cases h) Bool.false_ne_true

/-! ### Sealed keys -/

/-- A call of a process that touches its keys. -/
inductive TbidCall
  /-- A call of the key module. -/
  | key (call : KeyCall)
  /-- `tbid_keypair`. -/
  | keypair (draw : TbidDraw)
  /-- `tbid_sign`. -/
  | sign (draw secretKey msg : Bytes)

/-- What a call leaves, whether it succeeds or fails. -/
def TbidCall.exec (C : TbidLibraries) (m : KeyMemory) : TbidCall → KeyMemory
  | key call => call.exec C.toKeySodium m
  | keypair draw => finalState (tbidKeypair C draw m)
  | sign draw secretKey msg => finalState (tbidSign C draw secretKey msg m)

/-- A call, as a step. -/
def TbidStep (C : TbidLibraries) (m : KeyMemory) (call : TbidCall) (m' : KeyMemory) : Prop :=
  call.exec C m = m'

/-- Under the instance key, the two ciphertexts of a secret key are this seed and this SLH-DSA
key. -/
structure Holds (C : TbidLibraries) (secret : ForetiasTbidV1SecretKey) (seed : Bytes32)
    (slhDsa : FixedBytes 128) (m : KeyMemory) : Prop where
  seed : (Encrypted.message secret.ed25519Nonce secret.encryptedEd25519.toList
    seed.toList).OpensIn C.toKeySodium m
  slhDsa : (Encrypted.message secret.slhDsaNonce secret.encryptedSlhDsa.toList
    slhDsa.toList).OpensIn C.toKeySodium m

theorem maintains_foretiasTbidV1Keypair {I : KeyMemory → Prop} (hI : KeyInvariant I)
    (draw : TbidDraw) (outputs : Bool) : Maintains I (foretiasTbidV1Keypair C draw outputs) :=
  .bind (.require _) fun _ ↦ .bind (.ofResult _) fun _ ↦ .bind (.ofOption _ _) fun _ ↦
    .bind (hI.encrypt _ _) fun _ ↦ .bind (hI.encrypt _ _) fun _ ↦ .pure _

/-- Signing changes nothing. -/
theorem preserves_tbidSign (draw secretKey msg : Bytes) :
    Preserves id (tbidSign C draw secretKey msg) := by
  have hsign : Preserves id (foretiasTbidV1Sign C draw (some (.ofBytes secretKey)) (some msg)
      (some ⟨.replicate 49920 0, 49920⟩)) :=
    .bind (.ofOption _ _) fun _ ↦ .bind (.ofOption _ _) fun _ ↦ .bind (.ofOption _ _) fun _ ↦
      .bind (.require _) fun _ ↦ .bind (.orThrow (preserves_foretiasPrivkeyDecrypt _ _ _) _)
      fun _ ↦ .bind (.ofResult _) fun _ ↦
      .bind (.orThrow (preserves_foretiasPrivkeyDecrypt _ _ _) _) fun _ ↦
      .bind (.ofOption _ _) fun _ ↦ .pure _
  exact .bind (.require _) fun _ ↦ .bind (.adaptExcept hsign _) fun _ ↦
    .bind (.require _) fun _ ↦ .pure _

/-- **No call but a cleanup changes what a secret key holds.** -/
theorem Holds.exec {secret : ForetiasTbidV1SecretKey} {seed : Bytes32} {slhDsa : FixedBytes 128}
    {m : KeyMemory} {call : TbidCall} (h : Holds C secret seed slhDsa m)
    (hcall : call ≠ .key .cleanup) : Holds C secret seed slhDsa (call.exec C m) := by
  have hkeeps : ∀ nonce ciphertext plaintext,
      (Encrypted.message nonce ciphertext plaintext).OpensIn C.toKeySodium m →
        (Encrypted.message nonce ciphertext plaintext).OpensIn C.toKeySodium (call.exec C m) := by
    intro nonce ciphertext plaintext hopen
    cases call with
    | key call =>
      exact hopen.exec fun hmem ↦ hcall (congrArg TbidCall.key (List.mem_singleton.1 hmem).symm)
    | keypair draw =>
      have hI := keyInvariant_opensIn (K := C.toKeySodium) (.message nonce ciphertext plaintext)
      exact Maintains.bind (.adaptExcept (maintains_foretiasTbidV1Keypair hI draw true) _)
        (fun _ ↦ .pure _) m hopen
    | sign draw secretKey msg =>
      have hsame : finalState (tbidSign C draw secretKey msg m) = m :=
        preserves_tbidSign draw secretKey msg m
      rw [TbidCall.exec, hsame]
      exact hopen
  exact ⟨hkeeps _ _ _ h.seed, hkeeps _ _ _ h.slhDsa⟩

/-- Nor does a run without one. -/
theorem Holds.of_run {secret : ForetiasTbidV1SecretKey} {seed : Bytes32} {slhDsa : FixedBytes 128}
    {m m' : KeyMemory} {calls : List TbidCall} (h : Holds C secret seed slhDsa m)
    (hcalls : .key .cleanup ∉ calls) (hrun : Run (TbidStep C) m calls m') :
    Holds C secret seed slhDsa m' := by
  induction calls generalizing m with
  | nil => exact Run.nil_iff.1 hrun ▸ h
  | cons call calls ih =>
    obtain ⟨hcall, hcalls⟩ := not_or.1 fun hmem ↦ hcalls (List.mem_cons.2 hmem)
    obtain ⟨_, rfl, hrun⟩ := Run.cons_iff.1 hrun
    exact ih (h.exec (Ne.symm hcall)) hcalls hrun

/-! ### Honest keys -/

/-- A signature that the Ed25519 key of a public key made. -/
def Ed25519Signature (C : TbidLibraries) (pub : Bytes32) (msg : Bytes) (sig : FixedBytes 64) :
    Prop :=
  ∃ seed, C.signSeedKeypair seed = some pub ∧ C.signDetached msg seed pub = some sig

/-- A signature that the SLH-DSA key of a public key made. -/
def SlhDsaSignature (C : TbidLibraries) (pub : FixedBytes 64) (msg sig : Bytes) : Prop :=
  ∃ draw secret draw', C.sphincsKeypair draw = some (pub, secret) ∧
    C.sphincsSign msg secret draw' = some sig

/-- The keys of both schemes sign every message, and all SLH-DSA signatures have one length. -/
structure Signs (C : TbidLibraries) : Prop where
  ed25519 {seed pub : Bytes32} (msg : Bytes) : C.signSeedKeypair seed = some pub →
    ∃ sig, C.signDetached msg seed pub = some sig
  slhDsa {draw : Bytes} {pub : FixedBytes 64} {secret : FixedBytes 128} (msg draw' : Bytes) :
    C.sphincsKeypair draw = some (pub, secret) →
      ∃ sig, C.sphincsSign msg secret draw' = some sig ∧ sig.length = 49856

/-- Both schemes accept exactly the signatures that the key made. -/
structure Exact (C : TbidLibraries) : Prop where
  ed25519 (pub : Bytes32) (msg : Bytes) (sig : FixedBytes 64) :
    C.signVerifyDetached sig msg pub = true ↔ Ed25519Signature C pub msg sig
  slhDsa (pub : FixedBytes 64) (msg sig : Bytes) :
    C.sphincsVerify msg sig pub = true ↔ SlhDsaSignature C pub msg sig

variable {m m' : KeyMemory} {secret : ForetiasTbidV1SecretKey} {pub : ForetiasTbidV1PubKey}

/-- What was encrypted opens, and is a tag longer. -/
theorem opensIn_of_encrypt {K : KeySodium} (hK : SecretboxInverts K) {plaintext ciphertext : Bytes}
    {nonce : FixedBytes 24} {outputs : Bool}
    (h : foretiasPrivkeyEncrypt K (some plaintext) outputs m = .ok (nonce, ciphertext) m') :
    (Encrypted.message nonce ciphertext plaintext).OpensIn K m' ∧
      ciphertext.length = plaintext.length + 16 := by
  have hopen := (KeyCall.Encrypts.message h).opensIn hK
  obtain ⟨kek, -, hseal⟩ := exists_of_encrypt_eq_ok h
  rw [KeyCall.exec, h] at hopen
  exact ⟨hopen, hK.length_eq hseal⟩

theorem foretiasEd25519GenerateKeypair_eq_ok {seed pub sk : Bytes32} :
    foretiasEd25519GenerateKeypair C seed = .ok (pub, sk) ↔
      C.signSeedKeypair seed = some pub ∧ sk = seed := by
  rw [foretiasEd25519GenerateKeypair]
  rcases C.signSeedKeypair seed with - | pub'
  · exact iff_of_false (fun h ↦ by cases h) fun h ↦ by cases h.1
  · show Except.ok (pub', seed) = _ ↔ _
    rw [Except.ok.injEq, Prod.mk.injEq, Option.some.injEq, @eq_comm _ sk]

/-- A new key pair: the two public keys are those of the seed and of the SLH-DSA key that its secret
key holds. -/
theorem holds_of_foretiasTbidV1Keypair (hK : SecretboxInverts C.toKeySodium) {draw : TbidDraw}
    (h : foretiasTbidV1Keypair C draw true m = .ok (secret, pub) m') :
    ∃ slhDsa, C.signSeedKeypair draw.seed = some pub.ed25519Pub ∧
      C.sphincsKeypair draw.slhDsa = some (pub.slhDsaPub, slhDsa) ∧
      secret.slhDsaPlaintextLen = 128 ∧ Holds C secret draw.seed slhDsa m' := by
  rw [foretiasTbidV1Keypair, require_bind_eq_ok, ofResult_bind_eq_ok] at h
  obtain ⟨-, ⟨edPub, edSk⟩, hpair, h⟩ := h
  obtain ⟨hpub, rfl⟩ := foretiasEd25519GenerateKeypair_eq_ok.1 hpair
  obtain ⟨⟨slhPub, slhSk⟩, hslh, h⟩ := ofOption_bind_eq_ok.1 h
  obtain ⟨⟨edNonce, encEd⟩, m₁, hencEd, h⟩ := bind_eq_ok.1 h
  obtain ⟨⟨slhNonce, encSlh⟩, m₂, hencSlh, h⟩ := bind_eq_ok.1 h
  obtain ⟨hout, rfl⟩ := pure_eq_ok.1 h
  obtain ⟨rfl, rfl⟩ := Prod.mk.inj hout
  obtain ⟨hopenEd, hlenEd⟩ := opensIn_of_encrypt hK hencEd
  obtain ⟨hopenSlh, hlenSlh⟩ := opensIn_of_encrypt hK hencSlh
  have hI := keyInvariant_opensIn (K := C.toKeySodium) (.message edNonce encEd draw.seed.toList)
  have hopenEd' := (hI.encrypt (some slhSk.toList) true).of_ok hopenEd hencSlh
  rw [FixedBytes.length_toList] at hlenEd hlenSlh
  refine ⟨slhSk, hpub, hslh, rfl, ?_, ?_⟩
  · rwa [FixedBytes.toList_read hlenEd]
  · rwa [FixedBytes.toList_read hlenSlh]

/-- **A secret key that holds its keys signs with both.** -/
theorem foretiasTbidV1Sign_of_holds {seed : Bytes32} {slhDsa : FixedBytes 128}
    (h : Holds C secret seed slhDsa m) (hlen : secret.slhDsaPlaintextLen = 128) {draw msg : Bytes}
    {edPub : Bytes32} {edSig : FixedBytes 64} {slhSig : Bytes}
    (hpub : C.signSeedKeypair seed = some edPub) (hed : C.signDetached msg seed edPub = some edSig)
    (hslh : C.sphincsSign msg slhDsa draw = some slhSig) (hslhLen : slhSig.length = 49856)
    {sigOut : ForetiasTbidV1Sig} (hout : 49920 ≤ sigOut.len) :
    foretiasTbidV1Sign C draw (some secret) (some msg) (some sigOut) m =
      .ok ⟨.read 49920 (edSig.toList ++ slhSig), 49920⟩ m := by
  have htakeEd : secret.encryptedEd25519.toList.take (32 + 16) = secret.encryptedEd25519.toList :=
    List.take_of_length_le (Nat.le_of_eq secret.encryptedEd25519.length_eq)
  have htakeSlh : secret.encryptedSlhDsa.toList.take (secret.slhDsaPlaintextLen + 16) =
      secret.encryptedSlhDsa.toList := by
    rw [hlen]
    exact List.take_of_length_le (Nat.le_of_eq secret.encryptedSlhDsa.length_eq)
  have hdecEd := h.seed.decryptsIn
  have hdecSlh := h.slhDsa.decryptsIn
  have hsign : foretiasEd25519Sign C seed msg = .ok edSig := by
    simp only [foretiasEd25519Sign, hpub, hed]
  have hwritten : (edSig.toList ++ slhSig).length = 49920 := by
    rw [List.length_append, edSig.length_eq, hslhLen]
  have hdrop : sigOut.bytes.toList.drop 49920 = [] :=
    List.drop_of_length_le (Nat.le_of_eq sigOut.bytes.length_eq)
  rw [foretiasTbidV1Sign, bind_of_ok (ofOption_some_apply _ _ _),
    bind_of_ok (ofOption_some_apply _ _ _), bind_of_ok (ofOption_some_apply _ _ _),
    bind_of_ok (require_of_true hout _ _), htakeEd, bind_of_ok (orThrow_of_ok hdecEd _),
    FixedBytes.read_toList, hsign, bind_of_ok (ofResult_eq_ok.2 ⟨rfl, rfl⟩), htakeSlh,
    bind_of_ok (orThrow_of_ok hdecSlh _), FixedBytes.read_toList, hslh,
    bind_of_ok (ofOption_some_apply _ _ _)]
  show EStateM.Result.ok _ m = _
  rw [hwritten, hdrop, List.append_nil, hslhLen]

/-- It signs so from its flat bytes. -/
theorem tbidSign_of_holds {seed : Bytes32} {slhDsa : FixedBytes 128}
    (h : Holds C secret seed slhDsa m) (hlen : secret.slhDsaPlaintextLen = 128) {draw msg : Bytes}
    {edPub : Bytes32} {edSig : FixedBytes 64} {slhSig : Bytes}
    (hpub : C.signSeedKeypair seed = some edPub) (hed : C.signDetached msg seed edPub = some edSig)
    (hslh : C.sphincsSign msg slhDsa draw = some slhSig) (hslhLen : slhSig.length = 49856) :
    tbidSign C draw secret.toBytes msg m = .ok (edSig.toList ++ slhSig) m := by
  let sigOut : ForetiasTbidV1Sig := ⟨.replicate 49920 0, 49920⟩
  have hout : 49920 ≤ sigOut.len := Nat.le_refl _
  have hsign := foretiasTbidV1Sign_of_holds h hlen hpub hed hslh hslhLen hout
  have hwritten : (edSig.toList ++ slhSig).length = 49920 := by
    rw [List.length_append, edSig.length_eq, hslhLen]
  rw [tbidSign, bind_of_ok (require_of_true (length_toBytes secret) _ _), ofBytes_toBytes hlen,
    bind_of_ok (adaptExcept_eq_ok.2 hsign), bind_of_ok (require_of_true (Nat.le_refl _) _ _)]
  show EStateM.Result.ok _ m = _
  rw [FixedBytes.toList_read hwritten, List.take_of_length_le (Nat.le_of_eq hwritten)]

/-- Two signatures under the two halves of a public key are accepted. -/
theorem tbidVerify_append {msg slhSig : Bytes} {edSig : FixedBytes 64} (hC : Exact C)
    (hslhLen : slhSig.length = 49856) (hed : Ed25519Signature C pub.ed25519Pub msg edSig)
    (hslh : SlhDsaSignature C pub.slhDsaPub msg slhSig) :
    tbidVerify C pub.toBytes msg (edSig.toList ++ slhSig) = .ok true := by
  have hkey : pub.toBytes.length = 96 := by
    rw [ForetiasTbidV1PubKey.toBytes, List.length_append, FixedBytes.length_toList,
      FixedBytes.length_toList]
  have hsig : (edSig.toList ++ slhSig).length = 49920 := by
    rw [List.length_append, edSig.length_eq, hslhLen]
  rw [tbidVerify_eq_ok_true_iff, FixedBytes.read_append, List.drop_left' edSig.length_eq,
    ForetiasTbidV1PubKey.toBytes, FixedBytes.read_append,
    List.drop_left' pub.ed25519Pub.length_eq, FixedBytes.read_toList]
  exact ⟨hkey, hsig, (hC.ed25519 _ _ _).2 hed, (hC.slhDsa _ _ _).2 hslh⟩

/-- For every key pair that is made, and every message that is signed later in the process, signing
succeeds and the signature is accepted. And whatever is accepted, under any public key, has 49,920
bytes: an Ed25519 signature under the first half of the key, and an SLH-DSA signature under the
second. -/
theorem tbid_dual_signature (C : TbidLibraries) (hK : SecretboxInverts C.toKeySodium)
    (hsigns : Signs C) (hexact : Exact C) :
    (∀ (draw : TbidDraw) (m m₁ m₂ : KeyMemory) (publicKey secretKey : Bytes)
      (calls : List TbidCall) (draw' msg : Bytes),
      tbidKeypair C draw m = .ok (publicKey, secretKey) m₁ → .key .cleanup ∉ calls →
        Run (TbidStep C) m₁ calls m₂ →
          ∃ sig, tbidSign C draw' secretKey msg m₂ = .ok sig m₂ ∧
            tbidVerify C publicKey msg sig = .ok true) ∧
      ∀ publicKey msg s, tbidVerify C publicKey msg s = .ok true → s.length = 49920 ∧
        ∃ (edPub : Bytes32) (slhPub : FixedBytes 64) (edSig : FixedBytes 64) (slhSig : Bytes),
          publicKey = edPub.toList ++ slhPub.toList ∧ s = edSig.toList ++ slhSig ∧
            Ed25519Signature C edPub msg edSig ∧ SlhDsaSignature C slhPub msg slhSig := by
  constructor
  · intro draw m m₁ m₂ publicKey secretKey calls draw' msg hkeypair hcalls hrun
    obtain ⟨⟨secret, pub⟩, m', hcall, hout⟩ := bind_eq_ok.1 hkeypair
    obtain ⟨hpair, rfl⟩ := pure_eq_ok.1 hout
    obtain ⟨rfl, rfl⟩ := Prod.mk.inj hpair
    obtain ⟨slhDsa, hpub, hslhPair, hlen, hholds⟩ :=
      holds_of_foretiasTbidV1Keypair hK (adaptExcept_eq_ok.1 hcall)
    obtain ⟨edSig, hed⟩ := hsigns.ed25519 msg hpub
    obtain ⟨slhSig, hslh, hslhLen⟩ := hsigns.slhDsa msg draw' hslhPair
    exact ⟨_, tbidSign_of_holds (hholds.of_run hcalls hrun) hlen hpub hed hslh hslhLen,
      tbidVerify_append hexact hslhLen ⟨draw.seed, hpub, hed⟩
        ⟨draw.slhDsa, slhDsa, draw', hslhPair, hslh⟩⟩
  · intro publicKey msg s h
    obtain ⟨hkey, hs, hed, hslh⟩ := tbidVerify_eq_ok_true_iff.1 h
    refine ⟨hs, .read 32 publicKey, .read 64 (publicKey.drop 32), .read 64 s, s.drop 64, ?_, ?_,
      (hexact.ed25519 _ _ _).1 hed, (hexact.slhDsa _ _ _).1 hslh⟩
    · have hrest : (publicKey.drop 32).length = 64 := by rw [List.length_drop, hkey]
      rw [FixedBytes.toList_read_of_le (by omega), FixedBytes.toList_read hrest,
        List.take_append_drop]
    · rw [FixedBytes.toList_read_of_le (by omega), List.take_append_drop]

/-! ### A transparent instance -/

/-- Libraries that satisfy the assumptions and can be evaluated: a signature is the public key and
the checksum of the message. -/
def transparent : TbidLibraries where
  toKeySodium := .transparent
  signDetached msg _ pub := some (.read 64 (pub.toList ++ List.replicate 32 (checksum msg)))
  signVerifyDetached sig msg pub :=
    sig == .read 64 (pub.toList ++ List.replicate 32 (checksum msg))
  sphincsKeypair draw :=
    some (.read 64 draw, .read 128 ((FixedBytes.read 64 draw).toList ++ List.replicate 64 0))
  sphincsSign msg secret _ := some (secret.toList.take 64 ++ List.replicate 49792 (checksum msg))
  sphincsVerify msg sig pub := sig == pub.toList ++ List.replicate 49792 (checksum msg)

theorem signs_transparent : Signs transparent where
  ed25519 _ _ := ⟨_, rfl⟩
  slhDsa _ _ _ := by
    refine ⟨_, rfl, ?_⟩
    rw [List.length_append, List.length_take, FixedBytes.length_toList, List.length_replicate]
    rfl

theorem exact_transparent : Exact transparent where
  ed25519 pub msg sig := by
    constructor
    · intro h
      exact ⟨pub, rfl, congrArg some (eq_of_beq h).symm⟩
    · rintro ⟨seed, -, hsign⟩
      exact beq_iff_eq.2 (Option.some.inj hsign).symm
  slhDsa pub msg sig := by
    have htake : ∀ pub : FixedBytes 64,
        (FixedBytes.read 128 (pub.toList ++ List.replicate 64 0)).toList.take 64 = pub.toList := by
      intro pub
      have hlen : (pub.toList ++ List.replicate 64 (0 : UInt8)).length = 128 := by
        rw [List.length_append, pub.length_eq, List.length_replicate]
      rw [FixedBytes.toList_read hlen, List.take_left' pub.length_eq]
    constructor
    · intro h
      refine ⟨pub.toList, .read 128 (pub.toList ++ List.replicate 64 0), [], ?_, ?_⟩
      · show some (FixedBytes.read 64 pub.toList, _) = _
        rw [FixedBytes.read_toList]
      · show some (List.take 64 _ ++ _) = _
        rw [htake]
        exact congrArg some (eq_of_beq h).symm
    · rintro ⟨draw, secret, draw', hkeypair, hsign⟩
      obtain ⟨rfl, rfl⟩ := Prod.mk.inj (Option.some.inj hkeypair)
      have hsig := Option.some.inj hsign
      rw [htake] at hsig
      exact beq_iff_eq.2 hsig.symm

/-- A key pair, a second one, a call that signs with no key, and then a signature under the first
one. -/
theorem tbid_dual_signature_transparent :
    ∃ publicKey secretKey m₁ m₂ sig,
      tbidKeypair transparent ⟨.replicate 32 5, [1]⟩ (foretiasPrivkeyInit (.replicate 32 9) .init) =
        .ok (publicKey, secretKey) m₁ ∧
      Run (TbidStep transparent) m₁ [.keypair ⟨.replicate 32 6, [2]⟩, .sign [] [] [7]] m₂ ∧
      tbidSign transparent [] secretKey [1, 2, 3] m₂ = .ok sig m₂ ∧
      tbidVerify transparent publicKey [1, 2, 3] sig = .ok true ∧ sig.length = 49920 := by
  have hdual := tbid_dual_signature transparent secretboxInverts_transparent signs_transparent
    exact_transparent
  have hrun : ∀ m₁, Run (TbidStep transparent) m₁
      [.keypair ⟨.replicate 32 6, [2]⟩, .sign [] [] [7]] _ :=
    fun m₁ ↦ .cons rfl (.cons rfl (.nil _))
  have hcalls : TbidCall.key .cleanup ∉
      [TbidCall.keypair ⟨.replicate 32 6, [2]⟩, .sign [] [] [7]] := by
    intro h
    rcases List.mem_cons.1 h with h | h
    · cases h
    · cases List.mem_singleton.1 h
  obtain ⟨sig, hsign, hverify⟩ := hdual.1 ⟨.replicate 32 5, [1]⟩
    (foretiasPrivkeyInit (.replicate 32 9) .init) _ _ _ _ _ [] [1, 2, 3] rfl hcalls (hrun _)
  exact ⟨_, _, _, _, sig, rfl, hrun _, hsign, hverify, (hdual.2 _ _ _ hverify).1⟩

end SigningTbid

end Foretias

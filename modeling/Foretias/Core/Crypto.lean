import Foretias.Core.Records

/-!
# The software crypto server

`Primitives` is what the engine takes from libsodium, liboqs and postcard: key derivation,
signing, verification, SHA-256 and the canonical bytes of a payload. They are parameters; the
assumptions made about them are the predicates `Ed25519Correct`, `Ed25519Exact`, `SlhDsaCorrect`
and `OneMessagePerSignature`, and a result that needs one names it. Everything the engine itself
adds on top — which algorithm an identifier selects, which prefix of a key or signature is read,
and which lengths are refused or panic — is defined here as `verify_with`, `tbid_sign` and
`tbid_verify` compute it.
-/

namespace Foretias

/-- The functions of libsodium, liboqs and postcard that the engine calls. -/
structure Primitives where
  /-- `crypto_sign_seed_keypair`: the Ed25519 public key of a seed. -/
  ed25519Public : FixedBytes 32 → FixedBytes 32
  /-- `crypto_sign_detached` under a seed. -/
  ed25519Sign : FixedBytes 32 → Bytes → FixedBytes 64
  /-- `crypto_sign_verify_detached`. -/
  ed25519Verify : FixedBytes 32 → Bytes → FixedBytes 64 → Bool
  /-- The SLH-DSA-SHA2-256f public key of a secret key. -/
  slhDsaPublic : FixedBytes 128 → FixedBytes 64
  /-- `OQS_SIG_sphincs_sha2_256f_simple_sign`. -/
  slhDsaSign : FixedBytes 128 → Bytes → FixedBytes 49856
  /-- `OQS_SIG_sphincs_sha2_256f_simple_verify`. -/
  slhDsaVerify : Bytes → Bytes → Bytes → Bool
  /-- `OQS_SIG_sphincs_sha2_128s_simple_verify`. -/
  sphincsVerify : Bytes → Bytes → Bytes → Bool
  /-- `OQS_SIG_dilithium_3_verify`. -/
  dilithium3Verify : Bytes → Bytes → Bytes → Bool
  /-- SHA-256; the C wrapper fails on a null pointer only. -/
  sha256 : Bytes → FixedBytes 32
  /-- `postcard::to_allocvec`: the canonical bytes of an attestation payload. -/
  postcard : ForetisRecord → Bytes

/-- Signature algorithm selector. -/
inductive SignatureAlgorithm
  | ed25519
  | sphincsSha2128s
  | dilithium3
  | slhDsaSha2256f
  deriving DecidableEq

namespace SignatureAlgorithm

/-- The liboqs algorithm identifier string. -/
def toIdString : SignatureAlgorithm → String
  | ed25519 => "Ed25519"
  | sphincsSha2128s => "SPHINCS+-SHA2-128s-simple"
  | dilithium3 => "Dilithium3"
  | slhDsaSha2256f => "SPHINCS+-SHA2-256f-simple"

/-- Parse from a liboqs algorithm identifier string. -/
def fromIdString (id : String) : Result CryptoError SignatureAlgorithm :=
  if id = "Ed25519" then pure ed25519
  else if id = "SPHINCS+-SHA2-128s-simple" then pure sphincsSha2128s
  else if id = "Dilithium3" then pure dilithium3
  else if id = "SPHINCS+-SHA2-256f-simple" then pure slhDsaSha2256f
  else .err (.unknownAlgorithm id)

@[simp] theorem fromIdString_toIdString (a : SignatureAlgorithm) :
    fromIdString a.toIdString = .ok a := by
  cases a <;> decide

end SignatureAlgorithm

/-- The slice `bs[..n]` as an array; indexing past the end panics. -/
def sliceTo {ε : Type} (n : ℕ) (bs : Bytes) : Result ε (FixedBytes n) :=
  if h : n ≤ bs.length then pure ⟨bs.take n, by simp [h]⟩ else .error .panic

theorem sliceTo_eq_ok {ε : Type} {n : ℕ} {bs : Bytes} {a : FixedBytes n} :
    (sliceTo n bs : Result ε (FixedBytes n)) = .ok a ↔
      n ≤ bs.length ∧ bs.take n = a.toList := by
  unfold sliceTo
  split
  · rename_i h
    simp [h, FixedBytes.ext_iff]
  · rename_i h
    simp [h]

@[simp] theorem sliceTo_toList {ε : Type} {n : ℕ} (a : FixedBytes n) :
    (sliceTo n a.toList : Result ε (FixedBytes n)) = .ok a :=
  sliceTo_eq_ok.2 ⟨by simp, List.take_of_length_le (by simp)⟩

@[simp] theorem sliceTo_append {ε : Type} {n : ℕ} (a : FixedBytes n) (bs : Bytes) :
    (sliceTo n (a.toList ++ bs) : Result ε (FixedBytes n)) = .ok a :=
  sliceTo_eq_ok.2 ⟨by simp, by simp⟩

variable (P : Primitives)

/-- A liboqs verifier behind its fixed buffers: 2048 bytes for the key and 65536 for the
signature, into which longer slices cannot be copied. -/
def pqVerify (verify : Bytes → Bytes → Bytes → Bool) (pubKey msg sig : Bytes) :
    Result CryptoError Bool :=
  if 2048 < pubKey.length ∨ 65536 < sig.length then .error .panic
  else pure (verify pubKey msg sig)

/-- `SoftwareCryptoServer::verify_with`: the Ed25519 branch reads the first 32 bytes of the key
and the first 64 of the signature, whatever follows them. -/
def verifyWith (pubKey : Bytes) (algId : String) (msg sig : Bytes) :
    Result CryptoError Bool := do
  match ← SignatureAlgorithm.fromIdString algId with
  | .ed25519 =>
    let pkBytes ← sliceTo 32 pubKey
    let sigBytes ← sliceTo 64 sig
    pure (P.ed25519Verify pkBytes msg sigBytes)
  | .sphincsSha2128s => pqVerify P.sphincsVerify pubKey msg sig
  | .dilithium3 => pqVerify P.dilithium3Verify pubKey msg sig
  | .slhDsaSha2256f => pqVerify P.slhDsaVerify pubKey msg sig

theorem verifyWith_ed25519 (pubKey msg sig : Bytes) :
    verifyWith P pubKey "Ed25519" msg sig = (do
      let pkBytes ← sliceTo 32 pubKey
      let sigBytes ← sliceTo 64 sig
      pure (P.ed25519Verify pkBytes msg sigBytes)) := rfl

/-- Under an Ed25519 key array, only the first 64 bytes of the signature are read. -/
@[simp] theorem verifyWith_ed25519_append (pk : FixedBytes 32) (msg : Bytes)
    (sig : FixedBytes 64) (rest : Bytes) :
    verifyWith P pk.toList "Ed25519" msg (sig.toList ++ rest) =
      .ok (P.ed25519Verify pk msg sig) := by
  rw [verifyWith_ed25519, sliceTo_toList, sliceTo_append]
  rfl

@[simp] theorem verifyWith_ed25519_toList (pk : FixedBytes 32) (msg : Bytes)
    (sig : FixedBytes 64) :
    verifyWith P pk.toList "Ed25519" msg sig.toList = .ok (P.ed25519Verify pk msg sig) := by
  simpa using verifyWith_ed25519_append P pk msg sig []

/-- What verifies under an Ed25519 key array starts with a signature that does. -/
theorem ed25519Verify_of_verifyWith {pk : FixedBytes 32} {msg sig : Bytes}
    (h : verifyWith P pk.toList "Ed25519" msg sig = .ok true) :
    ∃ edSig : FixedBytes 64, sig.take 64 = edSig.toList ∧
      P.ed25519Verify pk msg edSig = true := by
  rw [verifyWith_ed25519, sliceTo_toList] at h
  obtain ⟨_, ⟨⟩, h⟩ := Result.bind_eq_ok.1 h
  obtain ⟨edSig, hslice, h⟩ := Result.bind_eq_ok.1 h
  exact ⟨edSig, (sliceTo_eq_ok.1 hslice).2, Result.pure_eq_ok.1 h⟩

/-! ### TBID dual-key signatures -/

/-- Secret key material of a TBID. The C core keeps both keys sealed under its instance key;
the model holds the keys themselves. -/
structure TbidSecret where
  /-- Ed25519 seed. -/
  ed25519 : FixedBytes 32
  /-- SLH-DSA secret key. -/
  slhDsa : FixedBytes 128
  deriving DecidableEq, Inhabited

/-- The public half of a TBID secret, as `tbid_keypair` returns it. -/
def TbidSecret.tbid (s : TbidSecret) : Tbid :=
  ⟨⟨(P.ed25519Public s.ed25519).toList ++ (P.slhDsaPublic s.slhDsa).toList, by simp⟩⟩

/-- Length of a TBID signature: `Ed25519_Sig(64) ‖ SLH_DSA_Sig(49856)`. -/
def tbidV1SigBytes : ℕ := 49920

/-- `tbid_sign`: both signatures, concatenated. -/
def tbidSign (s : TbidSecret) (msg : Bytes) : Bytes :=
  (P.ed25519Sign s.ed25519 msg).toList ++ (P.slhDsaSign s.slhDsa msg).toList

/-- `tbid_verify`: a signature longer than the C buffer cannot be copied into it. -/
def tbidVerify (publicKey msg sig : Bytes) : Result CryptoError Bool :=
  if publicKey.length ≠ 96 then .err (.badInput "public key length mismatch")
  else if sig.length < tbidV1SigBytes then .err (.badInput "signature too short")
  else if tbidV1SigBytes < sig.length then .error .panic
  else do
    let edPub ← sliceTo 32 publicKey
    let edSig ← sliceTo 64 sig
    pure (P.ed25519Verify edPub msg edSig &&
      P.slhDsaVerify (publicKey.drop 32) msg (sig.drop 64))

@[simp] theorem length_tbidSign (s : TbidSecret) (msg : Bytes) :
    (tbidSign P s msg).length = tbidV1SigBytes := by
  simp [tbidSign, tbidV1SigBytes]

/-- An accepted TBID signature has exactly the combined length. -/
theorem length_of_tbidVerify {publicKey msg sig : Bytes} {b : Bool}
    (h : tbidVerify P publicKey msg sig = .ok b) : sig.length = tbidV1SigBytes := by
  unfold tbidVerify at h
  split at h
  · simp at h
  split at h
  · simp at h
  split at h
  · simp at h
  omega

/-- The Ed25519 half of an accepted TBID signature verifies by itself. -/
theorem ed25519Verify_of_tbidVerify {tbid : Tbid} {msg sig : Bytes}
    (h : tbidVerify P tbid.rawBytes msg sig = .ok true) :
    ∃ edSig : FixedBytes 64, sig.take 64 = edSig.toList ∧
      P.ed25519Verify tbid.ed25519PublicKey msg edSig = true := by
  unfold tbidVerify at h
  split at h
  · exact absurd h (Result.err_ne_ok _ _)
  split at h
  · exact absurd h (Result.err_ne_ok _ _)
  split at h
  · cases h
  obtain ⟨edPub, hpub, h⟩ := Result.bind_eq_ok.1 h
  obtain ⟨edSig, hsig, h⟩ := Result.bind_eq_ok.1 h
  have hboth := Result.pure_eq_ok.1 h
  rw [Bool.and_eq_true] at hboth
  have hkey : tbid.ed25519PublicKey = edPub := FixedBytes.ext (sliceTo_eq_ok.1 hpub).2
  exact ⟨edSig, (sliceTo_eq_ok.1 hsig).2, hkey ▸ hboth.1⟩

@[simp] theorem ed25519PublicKey_tbid (s : TbidSecret) :
    (s.tbid P).ed25519PublicKey = P.ed25519Public s.ed25519 :=
  FixedBytes.ext (List.take_left' (by simp))

/-! ### What is assumed of the primitives -/

/-- Ed25519 accepts what the matching key signed. -/
def Ed25519Correct : Prop :=
  ∀ seed msg, P.ed25519Verify (P.ed25519Public seed) msg (P.ed25519Sign seed msg) = true

/-- Ed25519 accepts exactly what the matching key signed. -/
def Ed25519Exact : Prop :=
  ∀ pk msg sig, P.ed25519Verify pk msg sig = true ↔
    ∃ seed, P.ed25519Public seed = pk ∧ P.ed25519Sign seed msg = sig

/-- An Ed25519 signature verifies exactly under the key it was made with. -/
def Ed25519Keyed : Prop :=
  ∀ seed msg pk, P.ed25519Verify pk msg (P.ed25519Sign seed msg) = true ↔
    pk = P.ed25519Public seed

/-- SLH-DSA accepts what the matching key signed. -/
def SlhDsaCorrect : Prop :=
  ∀ secret msg, P.slhDsaVerify (P.slhDsaPublic secret).toList msg
    (P.slhDsaSign secret msg).toList = true

/-- A signature verifies under one key for at most one message, whatever the algorithm. -/
def OneMessagePerSignature : Prop :=
  ∀ pk sig alg alg' msg msg', verifyWith P pk alg msg sig = .ok true →
    verifyWith P pk alg' msg' sig = .ok true → msg = msg'

theorem Ed25519Exact.correct {P : Primitives} (h : Ed25519Exact P) : Ed25519Correct P :=
  fun seed msg ↦ (h _ msg _).2 ⟨seed, rfl, rfl⟩

/-- A TBID signature verifies under its own TBID. -/
theorem tbidVerify_tbidSign {P : Primitives} (hed : Ed25519Correct P) (hslh : SlhDsaCorrect P)
    (s : TbidSecret) (msg : Bytes) :
    tbidVerify P (s.tbid P).rawBytes msg (tbidSign P s msg) = .ok true := by
  have hlen : (tbidSign P s msg).length = tbidV1SigBytes := length_tbidSign P s msg
  rw [tbidVerify, if_neg (by simp), if_neg (by omega), if_neg (by omega)]
  simp only [Tbid.rawBytes, TbidSecret.tbid, tbidSign, sliceTo_append]
  have hdropKey : ((P.ed25519Public s.ed25519).toList ++ (P.slhDsaPublic s.slhDsa).toList).drop 32 =
      (P.slhDsaPublic s.slhDsa).toList := List.drop_left' (by simp)
  have hdropSig : ((P.ed25519Sign s.ed25519 msg).toList ++
      (P.slhDsaSign s.slhDsa msg).toList).drop 64 = (P.slhDsaSign s.slhDsa msg).toList :=
    List.drop_left' (by simp)
  rw [hdropKey, hdropSig]
  simp [bind, Except.bind, pure, Except.pure, hed s.ed25519 msg, hslh s.slhDsa msg]

/-! ### A transparent instance -/

/-- Sum of the bytes, modulo 256. -/
def checksum (bs : Bytes) : UInt8 := bs.foldl (· + ·) 0

/-- Primitives that satisfy the correctness assumptions and can be evaluated: a seed is its own
public key, and a signature names its key and the checksum of its message. -/
def Primitives.transparent : Primitives where
  ed25519Public seed := seed
  ed25519Sign seed msg := ⟨seed.toList ++ List.replicate 32 (checksum msg), by simp⟩
  ed25519Verify pk msg sig := sig.toList == pk.toList ++ List.replicate 32 (checksum msg)
  slhDsaPublic secret := ⟨secret.toList.take 64, by simp⟩
  slhDsaSign secret msg :=
    ⟨secret.toList.take 64 ++ List.replicate 49792 (checksum msg), by
      rw [List.length_append, List.length_take, FixedBytes.length_toList, List.length_replicate]
      rfl⟩
  slhDsaVerify pk msg sig := sig == pk ++ List.replicate 49792 (checksum msg)
  sphincsVerify pk msg sig := sig == pk ++ msg
  dilithium3Verify pk msg sig := sig == pk ++ msg
  sha256 msg := FixedBytes.replicate 32 (checksum msg)
  postcard f := u64Be f.chrononNumber ++ f.contentHash.toList ++ f.tbid.rawBytes ++
    asBytes f.echo ++ asBytes f.tbn ++ asBytes f.timeBeingReferenceTime

theorem ed25519Exact_transparent : Ed25519Exact .transparent := by
  intro pk msg sig
  simp only [Primitives.transparent, beq_iff_eq]
  constructor
  · intro h
    exact ⟨pk, rfl, FixedBytes.ext h.symm⟩
  · rintro ⟨seed, rfl, rfl⟩
    rfl

theorem ed25519Keyed_transparent : Ed25519Keyed .transparent := by
  intro seed msg pk
  simp only [Primitives.transparent, beq_iff_eq]
  constructor
  · intro h
    exact FixedBytes.ext (List.append_cancel_right h).symm
  · rintro rfl
    rfl

theorem slhDsaCorrect_transparent : SlhDsaCorrect .transparent := by
  intro secret msg
  exact beq_self_eq_true _

/-- Primitives whose post-quantum signatures are the key followed by the message, so that a
signature has one message. -/
def Primitives.verbatim : Primitives :=
  { Primitives.transparent with
    ed25519Verify := fun _ _ _ ↦ false
    slhDsaVerify := fun pk msg sig ↦ sig == pk ++ msg }

theorem oneMessagePerSignature_verbatim : OneMessagePerSignature .verbatim := by
  have hpq : ∀ {pk msg sig : Bytes},
      pqVerify (fun pk msg sig ↦ sig == pk ++ msg) pk msg sig = .ok true → sig = pk ++ msg := by
    intro pk msg sig h
    rw [pqVerify] at h
    split at h
    · cases h
    · exact eq_of_beq (Result.pure_eq_ok.1 h)
  have hsig : ∀ {pk sig : Bytes} {alg : String} {msg : Bytes},
      verifyWith .verbatim pk alg msg sig = .ok true → sig = pk ++ msg := by
    intro pk sig alg msg h
    obtain ⟨a, -, h⟩ := Result.bind_eq_ok.1 h
    cases a with
    | ed25519 =>
      obtain ⟨_, -, h⟩ := Result.bind_eq_ok.1 h
      obtain ⟨_, -, h⟩ := Result.bind_eq_ok.1 h
      cases h
    | sphincsSha2128s => exact hpq h
    | dilithium3 => exact hpq h
    | slhDsaSha2256f => exact hpq h
  intro pk sig alg alg' msg msg' h h'
  exact List.append_cancel_left ((hsig h).symm.trans (hsig h'))

/-- Under the verbatim primitives a key followed by a message signs it, in every algorithm but
Ed25519. -/
theorem verifyWith_verbatim {a : SignatureAlgorithm} (ha : a ≠ .ed25519) {pk msg : Bytes}
    (hpk : pk.length ≤ 2048) (hsig : pk.length + msg.length ≤ 65536) :
    verifyWith .verbatim pk a.toIdString msg (pk ++ msg) = .ok true := by
  have hpq : pqVerify (fun pk msg sig ↦ sig == pk ++ msg) pk msg (pk ++ msg) = .ok true := by
    rw [pqVerify, List.length_append, if_neg (by omega), beq_self_eq_true]
    rfl
  rw [verifyWith, SignatureAlgorithm.fromIdString_toIdString]
  cases a with
  | ed25519 => exact absurd rfl ha
  | sphincsSha2128s => exact hpq
  | dilithium3 => exact hpq
  | slhDsaSha2256f => exact hpq

end Foretias

import Foretias.Core.Crypto

/-!
# The tick chain and its attestation blobs

A chronon record is tied to its predecessor by two signatures over one attestation blob, the
forward one under the predecessor's key and the backward one under its own. The blob is an
unframed concatenation; the blob of a version-1 genesis record also embeds the TBID signature of
the genesis certificate. This file gives the blobs as the producer (`autoAttestationBlob…`) and
as the verifier (`build…Blob`) concatenate them, and the verifiers over them:

* `verifyPair` — are two neighbouring records linked?
* `verifyGenesis` — is a record's key certified by a TBID signature?
* `verify` — is a signed attestation backed by the record that a calendar lookup returns?
-/

namespace Foretias

/-! ### Blobs of the producer -/

/-- `auto_attestation_blob_with_count`, for a drawn nonce. -/
def autoAttestationBlobWithCount (tbid : String) (aTick : UInt64) (aPk : FixedBytes 32)
    (bTick : UInt64) (bPk : FixedBytes 32) (chrononStampCount : UInt64)
    (nonce : FixedBytes 16) : Bytes :=
  asBytes tbid ++ u64Be aTick ++ aPk.toList ++ u64Be bTick ++ bPk.toList ++
    u64Be chrononStampCount ++ nonce.toList

/-- `auto_attestation_blob_with_genesis`, for a drawn nonce. -/
def autoAttestationBlobWithGenesis (tbid : String) (tick : UInt64) (pk : FixedBytes 32)
    (genesisSig : Bytes) (chrononStampCount : UInt64) (nonce : FixedBytes 16) : Bytes :=
  asBytes tbid ++ u64Be tick ++ pk.toList ++ u64Be tick ++ pk.toList ++ genesisSig ++
    u64Be chrononStampCount ++ nonce.toList

/-! ### Blobs of the verifier -/

/-- The genesis certificate: `tbid ‖ chronon ‖ public_key`. -/
def genesisBlob (tbid : Tbid) (chronon : UInt64) (publicKey : Bytes) : Bytes :=
  tbid.rawBytes ++ u64Be chronon ++ publicKey

/-- `build_genesis_blob`: the certificate of `curr` under the TBID of `prev`. -/
def buildGenesisBlob (prev curr : ChrononRecord) : Bytes :=
  genesisBlob prev.tbid curr.chrononNumber curr.publicKey

/-- `build_genesis_attest_blob`; an empty embedded signature adds no bytes. -/
def buildGenesisAttestBlob (tbidStr : String) (curr : ChrononRecord) (forwardGenesis : Bytes)
    (stamps : UInt64) (nonce : FixedBytes 16) : Bytes :=
  asBytes tbidStr ++ u64Be curr.chrononNumber ++ curr.publicKey ++ u64Be curr.chrononNumber ++
    curr.publicKey ++ forwardGenesis ++ u64Be stamps ++ nonce.toList

/-- `build_normal_attest_blob`. -/
def buildNormalAttestBlob (tbidStr : String) (prev curr : ChrononRecord) (stamps : UInt64)
    (nonce : FixedBytes 16) : Bytes :=
  asBytes tbidStr ++ u64Be prev.chrononNumber ++ prev.publicKey ++ u64Be curr.chrononNumber ++
    curr.publicKey ++ u64Be stamps ++ nonce.toList

/-! ### Verifiers -/

variable (P : Primitives)

/-- Length of the Ed25519 part of a genesis foretis. -/
def ed25519SigLen : ℕ := 64

/-- `validate_and_split_genesis`: the Ed25519 signatures, then what follows them. -/
def validateAndSplitGenesis (forward backward : Bytes) :
    Result NodeError (Bytes × Bytes × Bytes × Bytes) :=
  if forward.length < ed25519SigLen then
    .err (.invalidInput "forward_foretis too short for genesis split")
  else if backward.length < ed25519SigLen then
    .err (.invalidInput "backward_foretis too short for genesis split")
  else pure (forward.take ed25519SigLen, backward.take ed25519SigLen,
    forward.drop ed25519SigLen, backward.drop ed25519SigLen)

/-- `verify_genesis`: both records must embed the same TBID signature of the certificate. -/
def verifyGenesis (forwardGenesis backwardGenesis : Bytes) (prev curr : ChrononRecord)
    (tbVersion : UInt32) : Result NodeError Bool :=
  if forwardGenesis ≠ [] ∧ forwardGenesis = backwardGenesis then
    (tbidVerify P prev.tbid.rawBytes (buildGenesisBlob prev curr) forwardGenesis).mapErr .crypto
  else pure (forwardGenesis.isEmpty && tbVersion == 0)

/-- What `verify_pair` checks the two signatures against: the forward signature, the backward
signature, the attestation blob, and whether the genesis certificate is valid. -/
def attestation (tbidStr : String) (prev curr : ChrononRecord) :
    Result NodeError (Bytes × Bytes × Bytes × Bool) :=
  if curr.chrononNumber = 1 ∧ curr.tbVersion = 1 then do
    let (forwardSig, backwardSig, forwardGenesis, backwardGenesis) ←
      validateAndSplitGenesis curr.forwardForetis curr.backwardForetis
    let genesisValid ← verifyGenesis P forwardGenesis backwardGenesis prev curr curr.tbVersion
    pure (forwardSig, backwardSig, buildGenesisAttestBlob tbidStr curr forwardGenesis
      curr.chrononStampCount curr.aaNonce, genesisValid)
  else pure (curr.forwardForetis, curr.backwardForetis,
    buildNormalAttestBlob tbidStr prev curr curr.chrononStampCount curr.aaNonce, true)

/-- `verify_pair`: is `curr` linked to `prev`? -/
def verifyPair (tbidStr : String) (prev curr : ChrononRecord) : Result NodeError Bool := do
  let (forwardSig, backwardSig, attestBlob, genesisValid) ← attestation P tbidStr prev curr
  let forwardValid ←
    (verifyWith P prev.publicKey curr.signatureAlgorithm attestBlob forwardSig).mapErr .crypto
  let backwardValid ←
    (verifyWith P curr.publicKey curr.signatureAlgorithm attestBlob backwardSig).mapErr .crypto
  pure (forwardValid && backwardValid && genesisValid)

section VerifyPair

variable {P} {tbidStr : String} {prev curr : ChrononRecord}

/-- A pair is linked exactly when both signatures verify over the blob that `attestation` names
and the genesis certificate, where there is one, is valid. -/
theorem verifyPair_eq_ok_true : verifyPair P tbidStr prev curr = .ok true ↔
    ∃ forwardSig backwardSig attestBlob,
      attestation P tbidStr prev curr = .ok (forwardSig, backwardSig, attestBlob, true) ∧
      verifyWith P prev.publicKey curr.signatureAlgorithm attestBlob forwardSig = .ok true ∧
      verifyWith P curr.publicKey curr.signatureAlgorithm attestBlob backwardSig = .ok true := by
  rw [verifyPair, Result.bind_eq_ok]
  constructor
  · rintro ⟨⟨forwardSig, backwardSig, attestBlob, genesisValid⟩, hattest, h⟩
    obtain ⟨forwardValid, hforward, h⟩ := Result.bind_eq_ok.1 h
    obtain ⟨backwardValid, hbackward, h⟩ := Result.bind_eq_ok.1 h
    rw [Result.pure_eq_ok, Bool.and_eq_true, Bool.and_eq_true] at h
    obtain ⟨⟨rfl, rfl⟩, rfl⟩ := h
    exact ⟨forwardSig, backwardSig, attestBlob, hattest, Result.mapErr_eq_ok.1 hforward,
      Result.mapErr_eq_ok.1 hbackward⟩
  · rintro ⟨forwardSig, backwardSig, attestBlob, hattest, hforward, hbackward⟩
    refine ⟨_, hattest, Result.bind_eq_ok.2 ⟨true, Result.mapErr_eq_ok.2 hforward, ?_⟩⟩
    exact Result.bind_eq_ok.2 ⟨true, Result.mapErr_eq_ok.2 hbackward, rfl⟩

/-- Away from the version-1 genesis branch, the two foretis are the signatures themselves. -/
theorem attestation_of_not_genesis (h : ¬(curr.chrononNumber = 1 ∧ curr.tbVersion = 1)) :
    attestation P tbidStr prev curr = .ok (curr.forwardForetis, curr.backwardForetis,
      buildNormalAttestBlob tbidStr prev curr curr.chrononStampCount curr.aaNonce, true) := by
  rw [attestation, if_neg h]
  rfl

theorem verifyPair_of_not_genesis (h : ¬(curr.chrononNumber = 1 ∧ curr.tbVersion = 1)) :
    verifyPair P tbidStr prev curr = .ok true ↔
      verifyWith P prev.publicKey curr.signatureAlgorithm (buildNormalAttestBlob tbidStr prev curr
        curr.chrononStampCount curr.aaNonce) curr.forwardForetis = .ok true ∧
      verifyWith P curr.publicKey curr.signatureAlgorithm (buildNormalAttestBlob tbidStr prev curr
        curr.chrononStampCount curr.aaNonce) curr.backwardForetis = .ok true := by
  rw [verifyPair_eq_ok_true, attestation_of_not_genesis h]
  constructor
  · rintro ⟨_, _, _, ⟨⟩, hforward, hbackward⟩
    exact ⟨hforward, hbackward⟩
  · rintro ⟨hforward, hbackward⟩
    exact ⟨_, _, _, rfl, hforward, hbackward⟩

/-- A version-1 genesis record is read as two Ed25519 signatures, each followed by the embedded
signature; the attestation blob covers the one embedded in the forward foretis. -/
theorem attestation_of_genesis (h : curr.chrononNumber = 1 ∧ curr.tbVersion = 1)
    {forwardSig backwardSig attestBlob : Bytes} {genesisValid : Bool}
    (hattest : attestation P tbidStr prev curr =
      .ok (forwardSig, backwardSig, attestBlob, genesisValid)) :
    forwardSig = curr.forwardForetis.take ed25519SigLen ∧
      backwardSig = curr.backwardForetis.take ed25519SigLen ∧
      attestBlob = buildGenesisAttestBlob tbidStr curr (curr.forwardForetis.drop ed25519SigLen)
        curr.chrononStampCount curr.aaNonce ∧
      verifyGenesis P (curr.forwardForetis.drop ed25519SigLen)
        (curr.backwardForetis.drop ed25519SigLen) prev curr curr.tbVersion =
          .ok genesisValid := by
  rw [attestation, if_pos h, Result.bind_eq_ok] at hattest
  obtain ⟨⟨fs, bs, fg, bg⟩, hsplit, hrest⟩ := hattest
  obtain ⟨valid, hvalid, hpure⟩ := Result.bind_eq_ok.1 hrest
  rw [validateAndSplitGenesis] at hsplit
  split at hsplit
  · exact absurd hsplit (Result.err_ne_ok _ _)
  split at hsplit
  · exact absurd hsplit (Result.err_ne_ok _ _)
  cases hsplit
  cases hpure
  exact ⟨rfl, rfl, rfl, hvalid⟩

end VerifyPair

/-- A calendar as verification sees it: a range query by chronon number. -/
structure CalendarLookup where
  /-- Up to `count` records starting from a chronon number. -/
  get : UInt64 → ℕ → Result NodeError (List ChrononRecord)

/-- `tick::verify`: the content must hash to the payload's hash, and the signature must verify
under the key of the first record the lookup returns. -/
def verify (foretis : ForetisRecord) (signature : Bytes) (signatureAlgorithm : String)
    (content : Bytes) (calendar : CalendarLookup) : Result NodeError Bool := do
  if P.sha256 content ≠ foretis.contentHash then pure false
  else
    let records ← calendar.get foretis.chrononNumber 1
    match records.head? with
    | none => .err (.notFound "tick")
    | some rec =>
      (verifyWith P rec.publicKey signatureAlgorithm (P.postcard foretis) signature).mapErr .crypto

section Verify

variable {P} {foretis : ForetisRecord} {signature : Bytes} {signatureAlgorithm : String}
  {content : Bytes} {calendar : CalendarLookup}

theorem verify_of_hash_ne (h : P.sha256 content ≠ foretis.contentHash) :
    verify P foretis signature signatureAlgorithm content calendar = .ok false := by
  rw [verify, if_pos h]
  rfl

/-- Content with the stated hash is decided by the first record of the lookup. -/
theorem verify_of_head? (h : P.sha256 content = foretis.contentHash)
    {records : List ChrononRecord} {rec : ChrononRecord}
    (hget : calendar.get foretis.chrononNumber 1 = .ok records) (hrec : records.head? = some rec) :
    verify P foretis signature signatureAlgorithm content calendar =
      (verifyWith P rec.publicKey signatureAlgorithm (P.postcard foretis) signature).mapErr
        .crypto := by
  rw [verify, if_neg (not_not.2 h), hget]
  change (match records.head? with
    | none => _
    | some rec => _) = _
  rw [hrec]

/-- A lookup that finds nothing is an error. -/
theorem verify_of_nil (h : P.sha256 content = foretis.contentHash)
    (hget : calendar.get foretis.chrononNumber 1 = .ok []) :
    verify P foretis signature signatureAlgorithm content calendar = .err (.notFound "tick") := by
  rw [verify, if_neg (not_not.2 h), hget]
  rfl

end Verify

end Foretias

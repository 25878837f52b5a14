import Foretias.Core.CleanAuth

/-!
# What the link signatures cover

The attestation blob is an unframed concatenation with a variable-length key, but the parts
around the key have fixed lengths, so within one branch of `attestation` the blob determines the
number, the key, the stamp count and the nonce (`buildNormalAttestBlob_inj`,
`buildGenesisAttestBlob_inj`). Nothing else of the record enters it, and the two branches overlap
(`verifyPair_reread_genesis`).

* `fields_eq_of_signatures_eq` — accepted successors of one record with the same signatures
  agree on what the blob covers.
-/

namespace Foretias

/-- The records that take the version-1 genesis branch. -/
def ChrononRecord.IsGenesisV1 (r : ChrononRecord) : Prop := r.chrononNumber = 1 ∧ r.tbVersion = 1

/-- The fields of a record that enter its attestation blob. -/
def ChrononRecord.attested (r : ChrononRecord) : UInt64 × Bytes × UInt64 × FixedBytes 16 :=
  (r.chrononNumber, r.publicKey, r.chrononStampCount, r.aaNonce)

section Blobs

variable {tbidStr : String} {prev curr curr' : ChrononRecord}

/-- The normal blob determines everything after the predecessor's key. -/
theorem buildNormalAttestBlob_inj
    (h : buildNormalAttestBlob tbidStr prev curr curr.chrononStampCount curr.aaNonce =
      buildNormalAttestBlob tbidStr prev curr' curr'.chrononStampCount curr'.aaNonce) :
    curr.attested = curr'.attested := by
  rw [buildNormalAttestBlob, buildNormalAttestBlob] at h
  -- the nonce and the count have fixed lengths at the end, the number one at the front
  obtain ⟨h, hnonce⟩ := List.append_inj' h (by simp)
  obtain ⟨h, hcount⟩ := List.append_inj' h rfl
  rw [List.append_assoc, List.append_assoc _ _ curr'.publicKey] at h
  have htail := List.append_cancel_left h
  obtain ⟨hnumber, hkey⟩ := List.append_inj htail rfl
  rw [u64Be_inj] at hnumber hcount
  rw [FixedBytes.toList_inj] at hnonce
  rw [ChrononRecord.attested, hnumber, hkey, hcount, hnonce, ChrononRecord.attested]

/-- The genesis blob determines the key, which it holds twice, once its embedded signature is
fixed. -/
theorem buildGenesisAttestBlob_inj {forwardGenesis : Bytes}
    (h : buildGenesisAttestBlob tbidStr curr forwardGenesis curr.chrononStampCount curr.aaNonce =
      buildGenesisAttestBlob tbidStr curr' forwardGenesis curr'.chrononStampCount
        curr'.aaNonce) :
    curr.attested = curr'.attested := by
  rw [buildGenesisAttestBlob, buildGenesisAttestBlob] at h
  obtain ⟨h, hnonce⟩ := List.append_inj' h (by simp)
  obtain ⟨h, hcount⟩ := List.append_inj' h rfl
  obtain ⟨h, -⟩ := List.append_inj' h rfl
  -- both sides are now `tbid ‖ number ‖ key ‖ number ‖ key`, so the keys have one length
  have hlen : curr.publicKey.length = curr'.publicKey.length := by
    have := congrArg List.length h
    simp only [List.length_append, length_u64Be] at this
    omega
  obtain ⟨h, hkey⟩ := List.append_inj' h hlen
  obtain ⟨-, hnumber⟩ := List.append_inj' h rfl
  rw [u64Be_inj] at hnumber hcount
  rw [FixedBytes.toList_inj] at hnonce
  rw [ChrononRecord.attested, hnumber, hkey, hcount, hnonce, ChrononRecord.attested]

/-- A blob is of both kinds only after a predecessor of the number that the genesis blob holds. -/
theorem chrononNumber_eq_of_blob_eq {forwardGenesis : Bytes}
    (h : buildGenesisAttestBlob tbidStr curr forwardGenesis curr.chrononStampCount curr.aaNonce =
      buildNormalAttestBlob tbidStr prev curr' curr'.chrononStampCount curr'.aaNonce) :
    curr.chrononNumber = prev.chrononNumber := by
  simp only [buildGenesisAttestBlob, buildNormalAttestBlob, List.append_assoc] at h
  exact u64Be_inj.1 (List.append_inj (List.append_cancel_left h) rfl).1

end Blobs

variable {P : Primitives}

/-- Past the genesis branch the whole forward foretis is verified, over the normal blob. -/
theorem blob_of_attestation {tbidStr : String} {prev curr : ChrononRecord} {fs bs blob : Bytes}
    (hnormal : ¬curr.IsGenesisV1)
    (hattest : attestation P tbidStr prev curr = .ok (fs, bs, blob, true)) :
    fs = curr.forwardForetis ∧
      blob = buildNormalAttestBlob tbidStr prev curr curr.chrononStampCount curr.aaNonce := by
  rw [attestation_of_not_genesis hnormal] at hattest
  cases hattest
  exact ⟨rfl, rfl⟩

/-- The forward signature that two successors have in common verifies, under the key of their
predecessor, for only one of their two blobs. -/
def OneBlob (P : Primitives) (tbidStr : String) (prev curr curr' : ChrononRecord) : Prop :=
  curr.forwardForetis = curr'.forwardForetis →
    ∀ fs bs blob fs' bs' blob', attestation P tbidStr prev curr = .ok (fs, bs, blob, true) →
      attestation P tbidStr prev curr' = .ok (fs', bs', blob', true) →
      verifyWith P prev.publicKey curr.signatureAlgorithm blob fs = .ok true →
      verifyWith P prev.publicKey curr'.signatureAlgorithm blob' fs' = .ok true → blob = blob'

/-- So it is when a signature verifies for at most one message, and both records are read alike. -/
theorem OneMessagePerSignature.oneBlob (hone : OneMessagePerSignature P) {tbidStr : String}
    {prev curr curr' : ChrononRecord} (hkind : curr.IsGenesisV1 ↔ curr'.IsGenesisV1) :
    OneBlob P tbidStr prev curr curr' := by
  intro hforward fs bs blob fs' bs' blob' hattest hattest' hverify hverify'
  have hsame : fs = fs' := by
    by_cases hgenesis : curr.IsGenesisV1
    · rw [(attestation_of_genesis hgenesis hattest).1,
        (attestation_of_genesis (hkind.1 hgenesis) hattest').1, hforward]
    · rw [(blob_of_attestation hgenesis hattest).1,
        (blob_of_attestation (mt hkind.2 hgenesis) hattest').1, hforward]
  exact hone _ _ _ _ _ _ hverify (hsame ▸ hverify')

/-- Two records linked to one predecessor by the same forward foretis agree on everything the blob
covers. After a predecessor of chronon 1 both have to take the version-1 genesis branch, or
neither. -/
theorem attested_eq_of_verifyPair {tbidStr : String} {prev curr curr' : ChrononRecord}
    (hone : OneBlob P tbidStr prev curr curr') (h : verifyPair P tbidStr prev curr = .ok true)
    (h' : verifyPair P tbidStr prev curr' = .ok true)
    (hforward : curr.forwardForetis = curr'.forwardForetis)
    (hkind : prev.chrononNumber = 1 → (curr.IsGenesisV1 ↔ curr'.IsGenesisV1)) :
    curr.attested = curr'.attested := by
  obtain ⟨fs, bs, blob, hattest, hverify, -⟩ := verifyPair_eq_ok_true.1 h
  obtain ⟨fs', bs', blob', hattest', hverify', -⟩ := verifyPair_eq_ok_true.1 h'
  have hsame : blob = blob' := hone hforward _ _ _ _ _ _ hattest hattest' hverify hverify'
  by_cases hgenesis : curr.IsGenesisV1
  · obtain ⟨-, -, rfl, -⟩ := attestation_of_genesis hgenesis hattest
    by_cases hgenesis' : curr'.IsGenesisV1
    · obtain ⟨-, -, rfl, -⟩ := attestation_of_genesis hgenesis' hattest'
      rw [← hforward] at hsame
      exact buildGenesisAttestBlob_inj hsame
    · obtain ⟨-, rfl⟩ := blob_of_attestation hgenesis' hattest'
      have hprev := (chrononNumber_eq_of_blob_eq hsame).symm.trans hgenesis.1
      exact absurd ((hkind hprev).1 hgenesis) hgenesis'
  · obtain ⟨-, rfl⟩ := blob_of_attestation hgenesis hattest
    by_cases hgenesis' : curr'.IsGenesisV1
    · obtain ⟨-, -, rfl, -⟩ := attestation_of_genesis hgenesis' hattest'
      have hprev := (chrononNumber_eq_of_blob_eq hsame.symm).symm.trans hgenesis'.1
      exact absurd ((hkind hprev).2 hgenesis') hgenesis
    · obtain ⟨-, rfl⟩ := blob_of_attestation hgenesis' hattest'
      exact buildNormalAttestBlob_inj hsame

/-- The branches overlap: a version-1 genesis record accepted after a record of its own number
and Ed25519 key is accepted again, with the same signatures, as a version-0 record whose key
swallows the embedded TBID signature. -/
theorem verifyPair_reread_genesis {tbidStr : String} {prev curr : ChrononRecord}
    {pk : FixedBytes 32} (hgenesis : curr.IsGenesisV1) (hnumber : prev.chrononNumber = 1)
    (hprev : prev.publicKey = pk.toList) (hcurr : curr.publicKey = pk.toList)
    (halg : curr.signatureAlgorithm = "Ed25519")
    (h : verifyPair P tbidStr prev curr = .ok true) :
    verifyPair P tbidStr prev
      { curr with
        tbVersion := 0
        publicKey := curr.publicKey ++ curr.forwardForetis.drop ed25519SigLen } = .ok true := by
  obtain ⟨fs, bs, blob, hattest, hforward, hbackward⟩ := verifyPair_eq_ok_true.1 h
  obtain ⟨rfl, rfl, rfl, -⟩ := attestation_of_genesis hgenesis hattest
  -- Ed25519 verification reads the same 32 and 64 bytes with or without what follows them
  have hread : ∀ (key : Bytes) {msg sig : Bytes},
      verifyWith P pk.toList "Ed25519" msg (sig.take 64) = .ok true →
      verifyWith P (pk.toList ++ key) "Ed25519" msg sig = .ok true := by
    intro key msg sig hsig
    rw [verifyWith_ed25519, sliceTo_toList] at hsig
    obtain ⟨_, ⟨⟩, hsig⟩ := Result.bind_eq_ok.1 hsig
    obtain ⟨sig64, hslice, hvalid⟩ := Result.bind_eq_ok.1 hsig
    obtain ⟨hlen, htake⟩ := sliceTo_eq_ok.1 hslice
    rw [verifyWith_ed25519, sliceTo_append]
    refine Result.bind_eq_ok.2 ⟨pk, rfl, Result.bind_eq_ok.2
      ⟨sig64, sliceTo_eq_ok.2 ⟨?_, ?_⟩, hvalid⟩⟩
    · rw [List.length_take] at hlen
      omega
    · rwa [List.take_take, Nat.min_self] at htake
  have hblob : ∀ prev' curr' : ChrononRecord, prev'.chrononNumber = 1 →
      prev'.publicKey = pk.toList → curr'.chrononNumber = 1 → curr'.publicKey = pk.toList →
      buildNormalAttestBlob tbidStr prev'
        { curr' with
          tbVersion := 0
          publicKey := curr'.publicKey ++ curr'.forwardForetis.drop ed25519SigLen }
        curr'.chrononStampCount curr'.aaNonce =
      buildGenesisAttestBlob tbidStr curr' (curr'.forwardForetis.drop ed25519SigLen)
        curr'.chrononStampCount curr'.aaNonce := by
    intro prev' curr' hn hk hn' hk'
    simp only [buildNormalAttestBlob, buildGenesisAttestBlob, hn, hk, hn', hk', List.append_assoc]
  rw [hprev, halg] at hforward
  rw [hcurr, halg] at hbackward
  have hversion : ¬(0 : UInt32) = 1 := by decide
  refine (verifyPair_of_not_genesis fun hv ↦ hversion hv.2).2 ⟨?_, ?_⟩
  · rw [hblob prev curr hnumber hprev hgenesis.1 hcurr]
    simpa only [hprev, halg, List.append_nil] using hread [] hforward
  · rw [hblob prev curr hnumber hprev hgenesis.1 hcurr]
    simpa only [hcurr, halg] using
      hread (curr.forwardForetis.drop ed25519SigLen) hbackward

/-! ### Successors accepted by the gate -/

/-- Successors that the gate accepts after one record with the same signatures agree on the
number, the key, the stamp count and the nonce, unless that record is of chronon 1 and one of them
is read as a version-1 genesis record and the other is not. -/
theorem fields_eq_of_signatures_eq {prev c c' : CleanAuthenticated ChrononRecord}
    {u u' : UnverifiedSignatureEnvelope ChrononRecord}
    (hone : OneBlob P prev.inner.tbid.toHex prev.inner c.inner c'.inner)
    (h : u.verifyChronon P (some prev) = .ok c) (h' : u'.verifyChronon P (some prev) = .ok c')
    (hsigs : c.inner.forwardForetis = c'.inner.forwardForetis ∧
      c.inner.backwardForetis = c'.inner.backwardForetis)
    (hkind : prev.inner.chrononNumber = 1 → (c.inner.IsGenesisV1 ↔ c'.inner.IsGenesisV1)) :
    c.inner.chrononNumber = c'.inner.chrononNumber ∧ c.inner.publicKey = c'.inner.publicKey ∧
      c.inner.chrononStampCount = c'.inner.chrononStampCount ∧
      c.inner.aaNonce = c'.inner.aaNonce := by
  obtain ⟨hpair, rfl⟩ := UnverifiedSignatureEnvelope.verifyChronon_some_eq_ok.1 h
  obtain ⟨hpair', rfl⟩ := UnverifiedSignatureEnvelope.verifyChronon_some_eq_ok.1 h'
  have hattested := attested_eq_of_verifyPair hone hpair hpair' hsigs.1 hkind
  rw [ChrononRecord.attested, ChrononRecord.attested, Prod.mk.injEq, Prod.mk.injEq,
    Prod.mk.injEq] at hattested
  exact hattested

/-- A record of chronon 5 under the zero TBID. -/
def chrononFive : CleanAuthenticated ChrononRecord :=
  .fromTrusted { (default : ChrononRecord) with chrononNumber := 5, publicKey := [1] }

/-- A record numbered 3, signed as a successor of `chrononFive` in the scheme of
`Primitives.verbatim`, under an algorithm, a version and an owner of choice. -/
def strayChild (a : SignatureAlgorithm) (tbVersion : UInt32) (tbid : Tbid) : ChrononRecord :=
  let r : ChrononRecord :=
    { (default : ChrononRecord) with
      chrononNumber := 3, publicKey := [2], signatureAlgorithm := a.toIdString, tbVersion, tbid }
  let blob := buildNormalAttestBlob chrononFive.inner.tbid.toHex chrononFive.inner r 0 r.aaNonce
  { r with forwardForetis := [1] ++ blob, backwardForetis := [2] ++ blob }

/-- Whatever the algorithm, the version and the owner, the stray record is accepted, and its
signatures do not depend on them. -/
theorem verifyChronon_strayChild {a : SignatureAlgorithm} (ha : a ≠ .ed25519) (tbVersion : UInt32)
    (tbid : Tbid) :
    (UnverifiedSignatureEnvelope.fromParsed (strayChild a tbVersion tbid)).verifyChronon .verbatim
      (some chrononFive) = .ok ⟨strayChild a tbVersion tbid, []⟩ := by
  have hnormal : ¬(strayChild a tbVersion tbid).IsGenesisV1 :=
    fun h ↦ absurd (show (3 : UInt64) = 1 from h.1) (by decide)
  refine UnverifiedSignatureEnvelope.verifyChronon_some_eq_ok.2
    ⟨(verifyPair_of_not_genesis hnormal).2 ⟨?_, ?_⟩, rfl⟩
  · exact verifyWith_verbatim ha (show ([1] : Bytes).length ≤ 2048 by decide) (by
      simp [buildNormalAttestBlob, chrononFive, strayChild, CleanAuthenticated.fromTrusted])
  · exact verifyWith_verbatim ha (show ([2] : Bytes).length ≤ 2048 by decide) (by
      simp [buildNormalAttestBlob, chrononFive, strayChild, CleanAuthenticated.fromTrusted])

/-- Two stray records agree on the covered fields. -/
theorem fields_eq_strayChild :
    let r := strayChild .dilithium3 0 default
    let r' := strayChild .sphincsSha2128s 7 ⟨.replicate 96 1⟩
    r.chrononNumber = r'.chrononNumber ∧ r.publicKey = r'.publicKey ∧
      r.chrononStampCount = r'.chrononStampCount ∧ r.aaNonce = r'.aaNonce :=
  fields_eq_of_signatures_eq (oneMessagePerSignature_verbatim.oneBlob
      (iff_of_false (fun h ↦ absurd (show (3 : UInt64) = 1 from h.1) (by decide))
        fun h ↦ absurd (show (3 : UInt64) = 1 from h.1) (by decide)))
    (verifyChronon_strayChild (by decide) 0 default)
    (verifyChronon_strayChild (by decide) 7 ⟨.replicate 96 1⟩) ⟨rfl, rfl⟩
    fun h ↦ absurd (show (5 : UInt64) = 1 from h) (by decide)

/-- A successor need not belong to its predecessor's time being nor come after it, and two
successors with the same signatures can differ in algorithm, version and owner. -/
theorem strayChild_unbound :
    ∃ (P : Primitives) (prev c c' : CleanAuthenticated ChrononRecord)
      (u u' : UnverifiedSignatureEnvelope ChrononRecord), OneMessagePerSignature P ∧
      u.verifyChronon P (some prev) = .ok c ∧ u'.verifyChronon P (some prev) = .ok c' ∧
      c.inner.forwardForetis = c'.inner.forwardForetis ∧
      c.inner.backwardForetis = c'.inner.backwardForetis ∧
      c'.inner.tbid ≠ prev.inner.tbid ∧ ¬prev.inner.chrononNumber < c'.inner.chrononNumber ∧
      c.inner.signatureAlgorithm ≠ c'.inner.signatureAlgorithm ∧
      c.inner.tbVersion ≠ c'.inner.tbVersion ∧ c.inner.tbid ≠ c'.inner.tbid := by
  refine ⟨.verbatim, chrononFive, _, _, _, _, oneMessagePerSignature_verbatim,
    verifyChronon_strayChild (a := .dilithium3) (by decide) 0 default,
    verifyChronon_strayChild (a := .sphincsSha2128s) (by decide) 7 ⟨.replicate 96 1⟩,
    rfl, rfl, ?_⟩
  decide

end Foretias

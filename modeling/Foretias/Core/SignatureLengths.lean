import Foretias.Core.CleanAuth

/-!
# Keys and signatures of any length

The verifiers slice what they are given at fixed offsets, or copy it into buffers of a fixed size,
and a slice or a copy that does not fit is a panic. For each verifier one theorem says exactly for
which lengths it returns:

* `returns_verifyWith` — the key and the signature fit the algorithm (`FitsAlgorithm`);
* `returns_tbidVerify` — the signature of a key of the right length is not too long;
* `returns_verifyPair` — the signatures that are reached fit (`FitsPair`);
* `returns_verify` — those under the record that the lookup finds do.
-/

namespace Foretias

open Result

variable {P : Primitives}

/-! ### One signature -/

section VerifyWith

variable {pubKey msg sig : Bytes} {algId : String}

theorem returns_sliceTo {ε : Type} {n : ℕ} {bs : Bytes} :
    Returns (sliceTo n bs : Result ε (FixedBytes n)) ↔ n ≤ bs.length := by
  unfold sliceTo
  split
  · rename_i h
    exact iff_of_true (returns_pure _) h
  · rename_i h
    exact iff_of_false not_returns_panic h

theorem exists_sliceTo {n : ℕ} {bs : Bytes} (h : n ≤ bs.length) :
    ∃ a, (sliceTo n bs : Result CryptoError (FixedBytes n)) = .ok a :=
  ⟨⟨bs.take n, by simp [h]⟩, sliceTo_eq_ok.2 ⟨h, rfl⟩⟩

theorem returns_pqVerify {verify : Bytes → Bytes → Bytes → Bool} :
    Returns (pqVerify verify pubKey msg sig) ↔ pubKey.length ≤ 2048 ∧ sig.length ≤ 65536 := by
  rw [pqVerify]
  split
  · rename_i h
    exact iff_of_false not_returns_panic (by omega)
  · rename_i h
    exact iff_of_true (returns_pure _) (by omega)

namespace SignatureAlgorithm

theorem toIdString_injective : Function.Injective toIdString := by
  intro a b h
  have hok := congrArg fromIdString h
  rw [fromIdString_toIdString, fromIdString_toIdString] at hok
  exact Except.ok.inj hok

theorem fromIdString_of_ne {id : String} (h : ∀ a : SignatureAlgorithm, id ≠ a.toIdString) :
    fromIdString id = .err (.unknownAlgorithm id) := by
  have hed : id ≠ "Ed25519" := h .ed25519
  have hsphincs : id ≠ "SPHINCS+-SHA2-128s-simple" := h .sphincsSha2128s
  have hdilithium : id ≠ "Dilithium3" := h .dilithium3
  have hslh : id ≠ "SPHINCS+-SHA2-256f-simple" := h .slhDsaSha2256f
  rw [fromIdString, if_neg hed, if_neg hsphincs, if_neg hdilithium, if_neg hslh]

end SignatureAlgorithm

/-- A key and a signature of lengths that the algorithm can be given. -/
structure FitsAlgorithm (pubKey : Bytes) (algId : String) (sig : Bytes) : Prop where
  /-- Those of Ed25519 are sliced. -/
  ed25519 : algId = "Ed25519" → 32 ≤ pubKey.length ∧ 64 ≤ sig.length
  /-- Those of the other algorithms are copied into buffers. -/
  postQuantum : ∀ a : SignatureAlgorithm, a ≠ .ed25519 → algId = a.toIdString →
    pubKey.length ≤ 2048 ∧ sig.length ≤ 65536

/-- Nothing is done with a key or a signature of an unknown algorithm. -/
theorem fitsAlgorithm_of_ne (h : ∀ a : SignatureAlgorithm, algId ≠ a.toIdString) :
    FitsAlgorithm pubKey algId sig :=
  ⟨fun hed ↦ absurd hed (h .ed25519), fun a _ ha ↦ absurd ha (h a)⟩

theorem fitsAlgorithm_ed25519 :
    FitsAlgorithm pubKey "Ed25519" sig ↔ 32 ≤ pubKey.length ∧ 64 ≤ sig.length := by
  refine ⟨fun h ↦ h.ed25519 rfl, fun h ↦ ⟨fun _ ↦ h, fun a ha hid ↦ absurd ?_ ha⟩⟩
  have hids : SignatureAlgorithm.ed25519.toIdString = a.toIdString := hid
  exact (SignatureAlgorithm.toIdString_injective hids).symm

theorem fitsAlgorithm_postQuantum {a : SignatureAlgorithm} (ha : a ≠ .ed25519) :
    FitsAlgorithm pubKey a.toIdString sig ↔ pubKey.length ≤ 2048 ∧ sig.length ≤ 65536 := by
  refine ⟨fun h ↦ h.postQuantum a ha rfl, fun h ↦ ⟨fun hid ↦ absurd ?_ ha, fun _ _ _ ↦ h⟩⟩
  have hids : a.toIdString = SignatureAlgorithm.ed25519.toIdString := hid
  exact SignatureAlgorithm.toIdString_injective hids

/-- **`verify_with` returns exactly if the key and the signature fit the algorithm.** -/
theorem returns_verifyWith :
    Returns (verifyWith P pubKey algId msg sig) ↔ FitsAlgorithm pubKey algId sig := by
  by_cases hknown : ∃ a : SignatureAlgorithm, algId = a.toIdString
  · obtain ⟨a, rfl⟩ := hknown
    have hbind : ∀ f : SignatureAlgorithm → Result CryptoError Bool,
        Returns (SignatureAlgorithm.fromIdString a.toIdString >>= f) ↔ Returns (f a) := by
      intro f
      rw [SignatureAlgorithm.fromIdString_toIdString]
      exact Iff.rfl
    rw [verifyWith, hbind]
    cases a with
    | ed25519 =>
      refine Iff.trans ?_ fitsAlgorithm_ed25519.symm
      rw [returns_bind_iff, returns_sliceTo]
      refine and_congr_right fun hkey ↦ ?_
      obtain ⟨key, hslice⟩ := exists_sliceTo hkey
      constructor
      · exact fun h ↦ returns_sliceTo.1 (returns_bind_iff.1 (h key hslice)).1
      · exact fun hsig _ _ ↦ returns_bind_iff.2 ⟨returns_sliceTo.2 hsig, fun _ _ ↦ returns_pure _⟩
    | sphincsSha2128s =>
      exact returns_pqVerify.trans (fitsAlgorithm_postQuantum SignatureAlgorithm.noConfusion).symm
    | dilithium3 =>
      exact returns_pqVerify.trans (fitsAlgorithm_postQuantum SignatureAlgorithm.noConfusion).symm
    | slhDsaSha2256f =>
      exact returns_pqVerify.trans (fitsAlgorithm_postQuantum SignatureAlgorithm.noConfusion).symm
  · have hne : ∀ a : SignatureAlgorithm, algId ≠ a.toIdString := fun a ha ↦ hknown ⟨a, ha⟩
    rw [verifyWith, SignatureAlgorithm.fromIdString_of_ne hne]
    exact iff_of_true (returns_err _) (fitsAlgorithm_of_ne hne)

variable (P msg) in
/-- What fits is verified, unless the algorithm is unknown. -/
theorem exists_verifyWith_eq_ok (h : FitsAlgorithm pubKey algId sig) :
    (∃ valid, verifyWith P pubKey algId msg sig = .ok valid) ∨
      ∀ a : SignatureAlgorithm, algId ≠ a.toIdString := by
  by_cases hknown : ∃ a : SignatureAlgorithm, algId = a.toIdString
  · obtain ⟨a, rfl⟩ := hknown
    refine .inl ?_
    rw [verifyWith, SignatureAlgorithm.fromIdString_toIdString]
    cases a with
    | ed25519 =>
      obtain ⟨hkey, hsig⟩ := fitsAlgorithm_ed25519.1 h
      obtain ⟨key, hslice⟩ := exists_sliceTo hkey
      obtain ⟨edSig, hslice'⟩ := exists_sliceTo hsig
      exact ⟨_, bind_eq_ok.2 ⟨.ed25519, rfl, bind_eq_ok.2 ⟨key, hslice,
        bind_eq_ok.2 ⟨edSig, hslice', rfl⟩⟩⟩⟩
    | sphincsSha2128s =>
      have hfits := h.postQuantum .sphincsSha2128s SignatureAlgorithm.noConfusion rfl
      exact ⟨_, if_neg (by omega)⟩
    | dilithium3 =>
      have hfits := h.postQuantum .dilithium3 SignatureAlgorithm.noConfusion rfl
      exact ⟨_, if_neg (by omega)⟩
    | slhDsaSha2256f =>
      have hfits := h.postQuantum .slhDsaSha2256f SignatureAlgorithm.noConfusion rfl
      exact ⟨_, if_neg (by omega)⟩
  · exact .inr fun a ha ↦ hknown ⟨a, ha⟩

end VerifyWith

/-! ### TBID signatures -/

section TbidVerify

variable {publicKey msg sig : Bytes}

/-- **`tbid_verify` returns exactly if the signature of a key of the right length is not too
long.** -/
theorem returns_tbidVerify : Returns (tbidVerify P publicKey msg sig) ↔
    (publicKey.length = 96 → sig.length ≤ tbidV1SigBytes) := by
  rw [tbidVerify]
  split
  · rename_i hkey
    exact iff_of_true (returns_err _) fun h ↦ absurd h hkey
  rename_i hkey
  split
  · rename_i hshort
    exact iff_of_true (returns_err _) fun _ ↦ Nat.le_of_lt hshort
  rename_i hshort
  split
  · rename_i hlong
    exact iff_of_false not_returns_panic fun h ↦ absurd (h (not_not.1 hkey)) (Nat.not_le.2 hlong)
  · rename_i hlong
    refine iff_of_true ?_ fun _ ↦ Nat.le_of_not_lt hlong
    rw [not_not] at hkey
    rw [tbidV1SigBytes] at hshort
    refine returns_bind_iff.2 ⟨returns_sliceTo.2 (by omega), fun _ _ ↦ ?_⟩
    exact returns_bind_iff.2 ⟨returns_sliceTo.2 (by omega), fun _ _ ↦ returns_pure _⟩

/-- A signature is checked if the lengths are right. -/
theorem exists_tbidVerify_eq_ok : (∃ valid, tbidVerify P publicKey msg sig = .ok valid) ↔
    publicKey.length = 96 ∧ sig.length = tbidV1SigBytes := by
  constructor
  · rintro ⟨valid, h⟩
    refine ⟨?_, length_of_tbidVerify P h⟩
    by_contra hkey
    rw [tbidVerify, if_pos hkey] at h
    exact err_ne_ok _ _ h
  · rintro ⟨hkey, hsig⟩
    have hed : 64 ≤ tbidV1SigBytes := by decide
    have hpub : 32 ≤ publicKey.length := by omega
    obtain ⟨edPub, hpub⟩ := exists_sliceTo hpub
    have hslice : 64 ≤ sig.length := by omega
    obtain ⟨edSig, hslice⟩ := exists_sliceTo hslice
    rw [tbidVerify, if_neg (not_not.2 hkey), if_neg (by omega), if_neg (by omega)]
    exact ⟨_, bind_eq_ok.2 ⟨edPub, hpub, bind_eq_ok.2 ⟨edSig, hslice, rfl⟩⟩⟩

end TbidVerify

/-! ### Two neighbouring records -/

namespace ChrononRecord

variable (r : ChrononRecord)

/-- The foretis of a version-1 genesis record are split. -/
def Splits : Prop := r.chrononNumber = 1 ∧ r.tbVersion = 1

instance : Decidable r.Splits := inferInstanceAs (Decidable (_ ∧ _))

/-- Neither foretis is too short to be split. -/
def LongEnough : Prop :=
  ed25519SigLen ≤ r.forwardForetis.length ∧ ed25519SigLen ≤ r.backwardForetis.length

/-- What follows the two Ed25519 signatures is one embedded signature. -/
def EmbedsSignature : Prop :=
  r.forwardForetis.drop ed25519SigLen ≠ [] ∧
    r.forwardForetis.drop ed25519SigLen = r.backwardForetis.drop ed25519SigLen

/-- Length of the embedded signature. -/
def embeddedLength : ℕ := (r.forwardForetis.drop ed25519SigLen).length

/-- No check comes before those of the two signatures, or none of them refuses. -/
def ReachesSignatures : Prop :=
  r.Splits → r.LongEnough ∧ (r.EmbedsSignature → r.embeddedLength = tbidV1SigBytes)

/-- The forward signature that is checked. -/
def forwardSig : Bytes :=
  if r.Splits then r.forwardForetis.take ed25519SigLen else r.forwardForetis

/-- The backward signature that is checked. -/
def backwardSig : Bytes :=
  if r.Splits then r.backwardForetis.take ed25519SigLen else r.backwardForetis

end ChrononRecord

/-- The signatures of `curr` that are reached in a check against `prev` have lengths that they can
be checked with. -/
structure FitsPair (prev curr : ChrononRecord) : Prop where
  /-- The embedded signature is not too long. -/
  embedded : curr.Splits → curr.LongEnough → curr.EmbedsSignature →
    curr.embeddedLength ≤ tbidV1SigBytes
  /-- The forward signature fits under the key of `prev`. -/
  forward : curr.ReachesSignatures →
    FitsAlgorithm prev.publicKey curr.signatureAlgorithm curr.forwardSig
  /-- The backward signature fits under the key of `curr`. -/
  backward : curr.ReachesSignatures →
    FitsAlgorithm curr.publicKey curr.signatureAlgorithm curr.backwardSig

section VerifyPair

variable {prev curr : ChrononRecord} {tbidStr : String} {forwardGenesis backwardGenesis : Bytes}
  {tbVersion : UInt32}

theorem returns_verifyGenesis :
    Returns (verifyGenesis P forwardGenesis backwardGenesis prev curr tbVersion) ↔
      (forwardGenesis ≠ [] ∧ forwardGenesis = backwardGenesis →
        forwardGenesis.length ≤ tbidV1SigBytes) := by
  rw [verifyGenesis]
  split
  · rename_i hembeds
    rw [returns_mapErr, returns_tbidVerify]
    exact ⟨fun h _ ↦ h (Tbid.length_rawBytes _), fun h _ ↦ h hembeds⟩
  · rename_i hembeds
    exact iff_of_true (returns_pure _) fun h ↦ absurd h hembeds

theorem exists_verifyGenesis_eq_ok :
    (∃ valid, verifyGenesis P forwardGenesis backwardGenesis prev curr tbVersion = .ok valid) ↔
      (forwardGenesis ≠ [] ∧ forwardGenesis = backwardGenesis →
        forwardGenesis.length = tbidV1SigBytes) := by
  rw [verifyGenesis]
  split
  · rename_i hembeds
    simp only [mapErr_eq_ok]
    rw [exists_tbidVerify_eq_ok]
    exact ⟨fun h _ ↦ h.2, fun h ↦ ⟨Tbid.length_rawBytes _, h hembeds⟩⟩
  · rename_i hembeds
    exact iff_of_true ⟨_, rfl⟩ fun h ↦ absurd h hembeds

/-- A record that is long enough is split. -/
theorem attestation_of_longEnough (hsplits : curr.Splits) (hlong : curr.LongEnough) :
    attestation P tbidStr prev curr = (do
      let genesisValid ← verifyGenesis P (curr.forwardForetis.drop ed25519SigLen)
        (curr.backwardForetis.drop ed25519SigLen) prev curr curr.tbVersion
      pure (curr.forwardSig, curr.backwardSig, buildGenesisAttestBlob tbidStr curr
        (curr.forwardForetis.drop ed25519SigLen) curr.chrononStampCount curr.aaNonce,
        genesisValid)) := by
  have hgenesis : curr.chrononNumber = 1 ∧ curr.tbVersion = 1 := hsplits
  rw [attestation, if_pos hgenesis, validateAndSplitGenesis, if_neg (Nat.not_lt.2 hlong.1),
    if_neg (Nat.not_lt.2 hlong.2), ChrononRecord.forwardSig, ChrononRecord.backwardSig,
    if_pos hsplits, if_pos hsplits]
  rfl

variable (P tbidStr prev)

/-- A record that is too short is refused. -/
theorem exists_attestation_eq_err (hsplits : curr.Splits) (hshort : ¬curr.LongEnough) :
    ∃ e, attestation P tbidStr prev curr = .err e := by
  have hgenesis : curr.chrononNumber = 1 ∧ curr.tbVersion = 1 := hsplits
  rw [attestation, if_pos hgenesis, validateAndSplitGenesis]
  split
  · exact ⟨_, rfl⟩
  split
  · exact ⟨_, rfl⟩
  · rename_i hforward hbackward
    exact absurd ⟨Nat.le_of_not_lt hforward, Nat.le_of_not_lt hbackward⟩ hshort

/-- The check of the signatures is reached. -/
theorem exists_attestation_eq_ok (h : curr.ReachesSignatures) :
    ∃ x, attestation P tbidStr prev curr = .ok x := by
  by_cases hsplits : curr.Splits
  · obtain ⟨hlong, hembedded⟩ := h hsplits
    rw [attestation_of_longEnough hsplits hlong]
    obtain ⟨valid, hvalid⟩ := exists_verifyGenesis_eq_ok.2 hembedded
    exact ⟨_, bind_eq_ok.2 ⟨valid, hvalid, rfl⟩⟩
  · exact ⟨_, attestation_of_not_genesis hsplits⟩

variable {P tbidStr prev}

theorem returns_attestation : Returns (attestation P tbidStr prev curr) ↔
    (curr.Splits → curr.LongEnough → curr.EmbedsSignature →
      curr.embeddedLength ≤ tbidV1SigBytes) := by
  by_cases hsplits : curr.Splits
  swap
  · rw [attestation_of_not_genesis hsplits]
    exact iff_of_true (returns_ok _) fun h ↦ absurd h hsplits
  by_cases hlong : curr.LongEnough
  · rw [attestation_of_longEnough hsplits hlong, returns_bind_iff,
      and_iff_left fun _ _ ↦ returns_pure _, returns_verifyGenesis]
    exact ⟨fun h _ _ ↦ h, fun h ↦ h hsplits hlong⟩
  · obtain ⟨e, he⟩ := exists_attestation_eq_err P prev tbidStr hsplits hlong
    rw [he]
    exact iff_of_true (returns_err _) fun _ h ↦ absurd h hlong

/-- Where the check of the signatures is reached, it is reached with them. -/
theorem attestation_eq_ok {x : Bytes × Bytes × Bytes × Bool}
    (h : attestation P tbidStr prev curr = .ok x) :
    curr.ReachesSignatures ∧ x.1 = curr.forwardSig ∧ x.2.1 = curr.backwardSig := by
  by_cases hsplits : curr.Splits
  swap
  · rw [attestation_of_not_genesis hsplits] at h
    cases h
    rw [ChrononRecord.forwardSig, ChrononRecord.backwardSig, if_neg hsplits, if_neg hsplits]
    exact ⟨fun h ↦ absurd h hsplits, rfl, rfl⟩
  by_cases hlong : curr.LongEnough
  · rw [attestation_of_longEnough hsplits hlong] at h
    obtain ⟨valid, hvalid, h⟩ := bind_eq_ok.1 h
    cases h
    exact ⟨fun _ ↦ ⟨hlong, exists_verifyGenesis_eq_ok.1 ⟨valid, hvalid⟩⟩, rfl, rfl⟩
  · obtain ⟨e, he⟩ := exists_attestation_eq_err P prev tbidStr hsplits hlong
    rw [he] at h
    exact absurd h (err_ne_ok _ _)

/-- **`verify_pair` returns exactly if the signatures that are reached fit.** -/
theorem returns_verifyPair :
    Returns (verifyPair P tbidStr prev curr) ↔ FitsPair prev curr := by
  rw [verifyPair, returns_bind_iff, returns_attestation]
  constructor
  · rintro ⟨hembedded, hrest⟩
    have hsigs : curr.ReachesSignatures →
        FitsAlgorithm prev.publicKey curr.signatureAlgorithm curr.forwardSig ∧
        FitsAlgorithm curr.publicKey curr.signatureAlgorithm curr.backwardSig := by
      intro hreaches
      obtain ⟨⟨fs, bs, blob, valid⟩, hattest⟩ := exists_attestation_eq_ok P prev tbidStr hreaches
      obtain ⟨-, hfs, hbs⟩ := attestation_eq_ok hattest
      obtain rfl : fs = curr.forwardSig := hfs
      obtain rfl : bs = curr.backwardSig := hbs
      obtain ⟨hforward, hafter⟩ := returns_bind_iff.1 (hrest _ hattest)
      rw [returns_mapErr, returns_verifyWith] at hforward
      refine ⟨hforward, ?_⟩
      obtain ⟨fvalid, hfvalid⟩ | hunknown := exists_verifyWith_eq_ok P blob hforward
      · have hbackward := (returns_bind_iff.1 (hafter fvalid (mapErr_eq_ok.2 hfvalid))).1
        rwa [returns_mapErr, returns_verifyWith] at hbackward
      · exact fitsAlgorithm_of_ne hunknown
    exact ⟨hembedded, fun h ↦ (hsigs h).1, fun h ↦ (hsigs h).2⟩
  · rintro ⟨hembedded, hforward, hbackward⟩
    refine ⟨hembedded, ?_⟩
    rintro ⟨fs, bs, blob, valid⟩ hattest
    obtain ⟨hreaches, hfs, hbs⟩ := attestation_eq_ok hattest
    dsimp only at hfs hbs
    subst hfs hbs
    refine returns_bind_iff.2 ⟨returns_mapErr.2 (returns_verifyWith.2 (hforward hreaches)),
      fun _ _ ↦ returns_bind_iff.2 ⟨?_, fun _ _ ↦ returns_pure _⟩⟩
    exact returns_mapErr.2 (returns_verifyWith.2 (hbackward hreaches))

end VerifyPair

/-! ### Attestations -/

section Verify

variable {foretis : ForetisRecord} {signature content : Bytes} {signatureAlgorithm : String}
  {calendar : CalendarLookup}

/-- **`tick::verify` returns exactly if, when the content has the stated hash, the lookup does and
the signature fits under the key of the record found.** -/
theorem returns_verify : Returns (verify P foretis signature signatureAlgorithm content calendar) ↔
    (P.sha256 content = foretis.contentHash →
      Returns (calendar.get foretis.chrononNumber 1) ∧
      ∀ records, calendar.get foretis.chrononNumber 1 = .ok records →
        ∀ rec ∈ records.head?, FitsAlgorithm rec.publicKey signatureAlgorithm signature) := by
  rw [verify]
  split
  · rename_i hhash
    exact iff_of_true (returns_pure _) fun h ↦ absurd h hhash
  rename_i hhash
  rw [not_not] at hhash
  rw [forall_prop_of_true hhash, returns_bind_iff]
  refine and_congr_right fun _ ↦ forall₂_congr fun records _ ↦ ?_
  cases records.head? with
  | none => exact iff_of_true (returns_err _) fun _ h ↦ absurd h (Option.not_mem_none _)
  | some rec =>
    change Returns (mapErr _ _) ↔ _
    rw [returns_mapErr, returns_verifyWith]
    simp

end Verify

end Foretias

import Foretias.Core.CleanAuth
import Foretias.Library.Codec

/-!
# The gate for signature envelopes

An envelope carries a payload and an ordered list of signatures, each over the payload and the
signatures before it (`signingData`). `verifyAllSignatures` counts two of them and verifies both
under one key, which its caller names. It does not look at the roles and the stated TBIDs, and the
name that it has for the dual-key algorithm is not one that the crypto server knows.

* `verifyAllSignatures_eq_ok` — what is accepted: two Ed25519 signatures under the named key, of a
  payload that does not demand a full signature.
* `gateLaw_iff` — when what is accepted is signed in both roles by the stated TBIDs, and what was
  honestly made is accepted.
* `verifyAllSignatures_reenter` — a value that was sent has no signatures any more.
-/

namespace Foretias

/-- Errors of the gate. -/
inductive GateError
  /-- Wrong number of signatures. -/
  | signatureCountMismatch (expected got : ℕ)
  /-- A signature does not verify. -/
  | signatureVerificationFailed (role : SignerRole) (tbid : String)
  /-- No signature is of both keys. -/
  | fullSignatureRequired
  /-- Underlying error of the crypto server. -/
  | crypto (e : NodeError)
  deriving DecidableEq

/-- A payload type: how `postcard` writes it, and a list of signatures, and what it demands. -/
structure BaseRecord (R : Type) where
  /-- `postcard::to_allocvec` of a payload. -/
  postcard : R → Except String Bytes
  /-- `postcard::to_allocvec` of signatures. -/
  postcardSignatures : List SignatureEntry → Except String Bytes
  /-- `always_require_full_signature`. -/
  alwaysRequireFullSignature : R → Bool

variable {R : Type} (P : Primitives) (B : BaseRecord R)

/-! ### The gate -/

/-- A failure of the encoder, as the gate reports it. -/
def encoderFailed (message : String) : Stop GateError :=
  .err (.crypto (.crypto (.unknownAlgorithm message)))

/-- What the `i`-th signature is over: the payload and the signatures before it. -/
def signingData (u : UnverifiedSignatureEnvelope R) (i : ℕ) : Result GateError Bytes := do
  let payload ← (B.postcard u.inner).mapError encoderFailed
  if 0 < i then do
    let previous ← (B.postcardSignatures (u.signatures.take i)).mapError encoderFailed
    pure (payload ++ previous)
  else pure payload

/-- One turn of the loop: a signature is verified under the key. -/
def verifyEntry (u : UnverifiedSignatureEnvelope R) (pubKey : Bytes) (i : ℕ)
    (entry : SignatureEntry) : Result GateError PUnit := do
  let data ← signingData B u i
  let valid ← (verifyWith P pubKey entry.algorithm.toVerifyId data entry.sig).mapErr
    fun e ↦ .crypto (.crypto e)
  if valid then pure ⟨⟩ else .err (.signatureVerificationFailed entry.role entry.tbid)

/-- `verify_all_signatures`. -/
def UnverifiedSignatureEnvelope.verifyAllSignatures (u : UnverifiedSignatureEnvelope R)
    (pubKey : Bytes) : Result GateError (CleanAuthenticated R) :=
  if u.signatures.length ≠ 2 then
    .err (.signatureCountMismatch 2 u.signatures.length)
  else do
    u.signatures.zipIdx.forM fun entry ↦ verifyEntry P B u pubKey entry.2 entry.1
    if B.alwaysRequireFullSignature u.inner = true ∧
        ¬u.signatures.any (fun s ↦ s.algorithm = .dualKey) = true then
      .err .fullSignatureRequired
    else pure ⟨u.inner, u.signatures⟩

/-! ### The builder -/

/-- A value in its wire form. -/
structure Externalized (R : Type) where
  /-- The payload. -/
  inner : R

/-- A payload, and the signatures collected for it. -/
structure ExternalizedBuilder (R : Type) where
  /-- The payload. -/
  inner : R
  /-- The signatures. -/
  signatures : List SignatureEntry

namespace ExternalizedBuilder

/-- `builder_from`. -/
def builderFrom (inner : R) : ExternalizedBuilder R := ⟨inner, []⟩

/-- `builder_from_authenticated`. -/
def builderFromAuthenticated (auth : CleanAuthenticated R) : ExternalizedBuilder R :=
  ⟨auth.inner, []⟩

/-- `add_signature`. -/
def addSignature (b : ExternalizedBuilder R) (role : SignerRole) (tbid : String)
    (algorithm : SigAlgorithm) (sig : Bytes) : ExternalizedBuilder R :=
  { b with signatures := b.signatures ++ [⟨role, tbid, algorithm, sig⟩] }

/-- `build`: the last signature must be that of the envelope. -/
def build (b : ExternalizedBuilder R) : Result GateError (Externalized R) :=
  match b.signatures.getLast? with
  | none => .err (.signatureCountMismatch 1 0)
  | some last =>
    if last.role ≠ .communerdEnvelope then
      .err (.signatureVerificationFailed last.role last.tbid)
    else pure ⟨b.inner⟩

end ExternalizedBuilder

/-- A value read from the wire enters the trust boundary again. -/
def Externalized.reenter (C : Codec (Externalized R)) (bytes : Bytes) :
    Option (UnverifiedSignatureEnvelope R) :=
  (C.parse bytes).map fun ext ↦ .fromParsed ext.inner

/-! ### What is accepted -/

section Accepted

variable {P B} {u : UnverifiedSignatureEnvelope R} {pubKey : Bytes} {c : CleanAuthenticated R}
  {entry : SignatureEntry} {i : ℕ}

/-- The crypto server knows only the fast algorithm by the gate's name for it. -/
theorem verifyWith_dualKey (msg sig : Bytes) :
    verifyWith P pubKey SigAlgorithm.dualKey.toVerifyId msg sig =
      .err (.unknownAlgorithm "SLH-DSA") := rfl

/-- An Ed25519 signature, in the `i`-th place, that verifies under the named key. -/
def FastVerifies (P : Primitives) (B : BaseRecord R) (u : UnverifiedSignatureEnvelope R)
    (pubKey : Bytes) (i : ℕ) (entry : SignatureEntry) : Prop :=
  entry.algorithm = .ed25519 ∧ ∃ data, signingData B u i = .ok data ∧
    verifyWith P pubKey "Ed25519" data entry.sig = .ok true

/-- Only such a signature passes. -/
theorem verifyEntry_eq_ok {x : PUnit} :
    verifyEntry P B u pubKey i entry = .ok x ↔ FastVerifies P B u pubKey i entry := by
  rw [verifyEntry, Result.bind_eq_ok]
  constructor
  · rintro ⟨data, hdata, h⟩
    obtain ⟨valid, hvalid, h⟩ := Result.bind_eq_ok.1 h
    rw [Result.mapErr_eq_ok] at hvalid
    cases valid with
    | false => exact absurd h (Result.err_ne_ok _ _)
    | true =>
      cases halgorithm : entry.algorithm with
      | ed25519 =>
        rw [halgorithm] at hvalid
        exact ⟨halgorithm, data, hdata, hvalid⟩
      | dualKey =>
        rw [halgorithm, verifyWith_dualKey] at hvalid
        exact absurd hvalid (Result.err_ne_ok _ _)
  · rintro ⟨halgorithm, data, hdata, hvalid⟩
    refine ⟨data, hdata, Result.bind_eq_ok.2 ⟨true, ?_, rfl⟩⟩
    rw [halgorithm, Result.mapErr_eq_ok]
    exact hvalid

/-- Two Ed25519 signatures that verify under the named key, of a payload that does not demand a
full signature. -/
structure FastSigned (P : Primitives) (B : BaseRecord R) (u : UnverifiedSignatureEnvelope R)
    (pubKey : Bytes) (first second : SignatureEntry) : Prop where
  /-- There are two signatures. -/
  signatures_eq : u.signatures = [first, second]
  /-- The first one verifies, -/
  first : FastVerifies P B u pubKey 0 first
  /-- and so does the second one. -/
  second : FastVerifies P B u pubKey 1 second
  /-- The payload does not demand a full signature. -/
  not_full : B.alwaysRequireFullSignature u.inner = false

/-- Exactly such envelopes are accepted. -/
theorem verifyAllSignatures_eq_ok : u.verifyAllSignatures P B pubKey = .ok c ↔
    c = ⟨u.inner, u.signatures⟩ ∧ ∃ first second, FastSigned P B u pubKey first second := by
  rw [UnverifiedSignatureEnvelope.verifyAllSignatures]
  split
  · rename_i hlength
    refine iff_of_false (Result.err_ne_ok _ _) fun h ↦ ?_
    obtain ⟨-, first, second, hfast⟩ := h
    rw [hfast.signatures_eq] at hlength
    exact hlength rfl
  rename_i hlength
  obtain ⟨first, second, hsigs⟩ := List.length_eq_two.1 (not_not.1 hlength)
  have hloop : u.signatures.zipIdx.forM (fun entry ↦ verifyEntry P B u pubKey entry.2 entry.1) =
      (do
        let _ ← verifyEntry P B u pubKey 0 first
        let _ ← verifyEntry P B u pubKey 1 second
        pure ⟨⟩ : Result GateError PUnit) := by
    rw [hsigs]
    rfl
  rw [hloop, Result.bind_eq_ok]
  constructor
  · rintro ⟨_, hboth, h⟩
    obtain ⟨_, hfirst, hboth⟩ := Result.bind_eq_ok.1 hboth
    obtain ⟨_, hsecond, -⟩ := Result.bind_eq_ok.1 hboth
    rw [verifyEntry_eq_ok] at hfirst hsecond
    -- no signature is tagged as a dual-key one, so the payload must not demand one
    have hany : ¬u.signatures.any (fun s ↦ s.algorithm = .dualKey) = true := by
      rw [hsigs]
      simp [hfirst.1, hsecond.1]
    split at h
    · exact absurd h (Result.err_ne_ok _ _)
    · rename_i hfull
      refine ⟨(Result.pure_eq_ok.1 h).symm, first, second, hsigs, hfirst, hsecond, ?_⟩
      exact Bool.eq_false_iff.2 fun hdemands ↦ hfull ⟨hdemands, hany⟩
  · rintro ⟨rfl, first', second', hfast⟩
    obtain ⟨rfl, rfl⟩ : first = first' ∧ second = second' := by
      have heq := hsigs.symm.trans hfast.signatures_eq
      simpa using heq
    have hfull : ¬(B.alwaysRequireFullSignature u.inner = true ∧
        ¬u.signatures.any (fun s ↦ s.algorithm = .dualKey) = true) := by
      rw [hfast.not_full]
      exact fun h ↦ Bool.false_ne_true h.1
    refine ⟨⟨⟩, Result.bind_eq_ok.2 ⟨⟨⟩, verifyEntry_eq_ok.2 hfast.first,
      Result.bind_eq_ok.2 ⟨⟨⟩, verifyEntry_eq_ok.2 hfast.second, rfl⟩⟩, ?_⟩
    rw [if_neg hfull]
    rfl

/-- A value that was sent, and enters the trust boundary again, has no signatures. -/
theorem verifyAllSignatures_reenter {ext : Externalized R} {C : Codec (Externalized R)}
    (hu : Externalized.reenter C (C.serialize ext) = some u) :
    u.verifyAllSignatures P B pubKey = .err (.signatureCountMismatch 2 0) := by
  rw [Externalized.reenter, C.parse_serialize, Option.map_some, Option.some_inj] at hu
  rw [← hu]
  rfl

end Accepted

/-! ### Who signed -/

/-- The signature of a TBID's secret under an algorithm tag. -/
def SigAlgorithm.sign (P : Primitives) (s : TbidSecret) (data : Bytes) : SigAlgorithm → Bytes
  | ed25519 => (P.ed25519Sign s.ed25519 data).toList
  | dualKey => tbidSign P s data

/-- The bytes are a signature of the data under the key of a TBID. -/
def SigAlgorithm.Valid (P : Primitives) (tbid : Tbid) (data sig : Bytes) : SigAlgorithm → Prop
  | ed25519 => ∃ edSig : FixedBytes 64, sig = edSig.toList ∧
    P.ed25519Verify tbid.ed25519PublicKey data edSig = true
  | dualKey => tbidVerify P tbid.rawBytes data sig = .ok true

/-- The `i`-th signature is valid under the key of its own stated TBID. -/
def SignedBy (u : UnverifiedSignatureEnvelope R) (i : ℕ) (entry : SignatureEntry) : Prop :=
  ∃ data tbid, signingData B u i = .ok data ∧ Tbid.fromHex entry.tbid = some tbid ∧
    entry.algorithm.Valid P tbid data entry.sig

/-- The `i`-th signature has the role, and is valid under the key of its own stated TBID. -/
def SignedAs (u : UnverifiedSignatureEnvelope R) (role : SignerRole) (i : ℕ) : Prop :=
  ∃ entry, u.signatures[i]? = some entry ∧ entry.role = role ∧ SignedBy P B u i entry

/-- An envelope that was honestly made: a signature of a chronomatter and then one of a communerd,
under any tags, but one of them the dual-key one if the payload demands it. -/
def HonestlyMade (u : UnverifiedSignatureEnvelope R) (chronomatter communerd : TbidSecret)
    (first second : SigAlgorithm) : Prop :=
  (∃ data data', signingData B u 0 = .ok data ∧ signingData B u 1 = .ok data' ∧
    u.signatures = [
      ⟨.chronomatter, (chronomatter.tbid P).toHex, first, first.sign P chronomatter data⟩,
      ⟨.communerdEnvelope, (communerd.tbid P).toHex, second, second.sign P communerd data'⟩]) ∧
  (B.alwaysRequireFullSignature u.inner = true → first = .dualKey ∨ second = .dualKey)

/-- What the gate should do with an envelope. -/
structure GateLaw (u : UnverifiedSignatureEnvelope R) (pubKey : Bytes) : Prop where
  /-- It accepts only what is signed once in each of the two roles. -/
  sound : ∀ c, u.verifyAllSignatures P B pubKey = .ok c →
    (∃! i, SignedAs P B u .chronomatter i) ∧ ∃! i, SignedAs P B u .communerdEnvelope i
  /-- It accepts what was honestly made. -/
  complete : ∀ chronomatter communerd first second,
    HonestlyMade P B u chronomatter communerd first second →
    ∃ c, u.verifyAllSignatures P B pubKey = .ok c

/-- The envelope's roles are the two that are wanted, and its stated TBIDs have the named key and
nothing follows their signatures. -/
structure RolesAndKeys (pubKey : Bytes) (first second : SignatureEntry) : Prop where
  /-- The roles. -/
  roles : (first.role = .chronomatter ∧ second.role = .communerdEnvelope) ∨
    (first.role = .communerdEnvelope ∧ second.role = .chronomatter)
  /-- The signatures and the keys. -/
  keys : ∀ entry ∈ [first, second], entry.sig.length = 64 ∧
    ∃ tbid, Tbid.fromHex entry.tbid = some tbid ∧ tbid.ed25519PublicKey.toList = pubKey.take 32

/-- When the gate does what it should do. -/
structure GateCondition (u : UnverifiedSignatureEnvelope R) (pubKey : Bytes) : Prop where
  /-- Two signatures that verify have the wanted roles, and their stated TBIDs the named key. -/
  fast : ∀ first second, FastSigned P B u pubKey first second → RolesAndKeys pubKey first second
  /-- What was honestly made has no dual-key signature, and both its signers have the named key. -/
  honest : ∀ chronomatter communerd first second,
    HonestlyMade P B u chronomatter communerd first second →
    first = .ed25519 ∧ second = .ed25519 ∧
      (P.ed25519Public chronomatter.ed25519).toList = pubKey.take 32 ∧
      (P.ed25519Public communerd.ed25519).toList = pubKey.take 32

section Law

variable {P B} {u : UnverifiedSignatureEnvelope R} {pubKey : Bytes} {entry first second :
  SignatureEntry} {i : ℕ}

/-- Ed25519 reads the first 32 bytes of a key and the first 64 bytes of a signature. -/
theorem verifyWith_ed25519_eq_ok {data sig : Bytes} :
    verifyWith P pubKey "Ed25519" data sig = .ok true ↔
      ∃ (pk : FixedBytes 32) (edSig : FixedBytes 64), 64 ≤ sig.length ∧
        pubKey.take 32 = pk.toList ∧ sig.take 64 = edSig.toList ∧
        P.ed25519Verify pk data edSig = true := by
  rw [verifyWith_ed25519, Result.bind_eq_ok]
  constructor
  · rintro ⟨pk, hpk, h⟩
    obtain ⟨edSig, hsig, h⟩ := Result.bind_eq_ok.1 h
    obtain ⟨hlength, hsig⟩ := sliceTo_eq_ok.1 hsig
    exact ⟨pk, edSig, hlength, (sliceTo_eq_ok.1 hpk).2, hsig, Result.pure_eq_ok.1 h⟩
  · rintro ⟨pk, edSig, hlength, hpk, hsig, hverify⟩
    have hkey : 32 ≤ pubKey.length := by
      have htake := congrArg List.length hpk
      rw [List.length_take, pk.length_toList] at htake
      omega
    exact ⟨pk, sliceTo_eq_ok.2 ⟨hkey, hpk⟩,
      Result.bind_eq_ok.2 ⟨edSig, sliceTo_eq_ok.2 ⟨hlength, hsig⟩, Result.pure_eq_ok.2 hverify⟩⟩

/-- A signature that verifies under the named key, of a TBID that has it. -/
theorem FastVerifies.signedBy (h : FastVerifies P B u pubKey i entry)
    (hlength : entry.sig.length = 64) {tbid : Tbid} (htbid : Tbid.fromHex entry.tbid = some tbid)
    (hkey : tbid.ed25519PublicKey.toList = pubKey.take 32) : SignedBy P B u i entry := by
  obtain ⟨halgorithm, data, hdata, hverify⟩ := h
  obtain ⟨pk, edSig, -, hpk, hsig, hverify⟩ := verifyWith_ed25519_eq_ok.1 hverify
  obtain rfl : tbid.ed25519PublicKey = pk := FixedBytes.ext (hkey.trans hpk)
  refine ⟨data, tbid, hdata, htbid, ?_⟩
  rw [halgorithm]
  exact ⟨edSig, (List.take_of_length_le hlength.le).symm.trans hsig, hverify⟩

/-- A signature that verifies under the named key and under that of a TBID: they are the same. -/
theorem FastVerifies.key_eq (hexact : Ed25519Exact P) (hkeyed : Ed25519Keyed P)
    (h : FastVerifies P B u pubKey i entry) (hsigned : SignedBy P B u i entry) :
    entry.sig.length = 64 ∧ ∃ tbid, Tbid.fromHex entry.tbid = some tbid ∧
      tbid.ed25519PublicKey.toList = pubKey.take 32 := by
  obtain ⟨halgorithm, data, hdata, hverify⟩ := h
  obtain ⟨pk, edSig, -, hpk, hsig, hverify⟩ := verifyWith_ed25519_eq_ok.1 hverify
  obtain ⟨data', tbid, hdata', htbid, hvalid⟩ := hsigned
  obtain rfl := Except.ok.inj (hdata.symm.trans hdata')
  rw [halgorithm] at hvalid
  obtain ⟨edSig', hsig', hvalid⟩ := hvalid
  obtain rfl : edSig' = edSig := by
    rw [hsig', List.take_of_length_le edSig'.length_toList.le] at hsig
    exact FixedBytes.ext hsig
  obtain ⟨seed, rfl, hsign⟩ := (hexact pk data edSig').1 hverify
  rw [← hsign, hkeyed] at hvalid
  refine ⟨?_, tbid, htbid, ?_⟩
  · rw [hsig', FixedBytes.length_toList]
  · rw [hvalid, hpk]

theorem signedAs_of_getElem? (hsigs : u.signatures = [first, second]) {role : SignerRole} :
    SignedAs P B u role i ↔ i = 0 ∧ first.role = role ∧ SignedBy P B u 0 first ∨
      i = 1 ∧ second.role = role ∧ SignedBy P B u 1 second := by
  rw [SignedAs, hsigs]
  rcases i with - | - | i
  · simp
  · simp
  · simp

/-- The first signature, where it is the only one in its role. -/
theorem existsUnique_signedAs_first (hsigs : u.signatures = [first, second]) {role : SignerRole}
    (hfirst : first.role = role) (hsecond : second.role ≠ role)
    (hsigned : SignedBy P B u 0 first) : ∃! i, SignedAs P B u role i := by
  refine ⟨0, (signedAs_of_getElem? hsigs).2 (.inl ⟨rfl, hfirst, hsigned⟩), fun i hi ↦ ?_⟩
  rcases (signedAs_of_getElem? hsigs).1 hi with ⟨hi, -⟩ | ⟨-, hrole, -⟩
  · exact hi
  · exact absurd hrole hsecond

/-- The second signature, where it is the only one in its role. -/
theorem existsUnique_signedAs_second (hsigs : u.signatures = [first, second]) {role : SignerRole}
    (hfirst : first.role ≠ role) (hsecond : second.role = role)
    (hsigned : SignedBy P B u 1 second) : ∃! i, SignedAs P B u role i := by
  refine ⟨1, (signedAs_of_getElem? hsigs).2 (.inr ⟨rfl, hsecond, hsigned⟩), fun i hi ↦ ?_⟩
  rcases (signedAs_of_getElem? hsigs).1 hi with ⟨-, hrole, -⟩ | ⟨hi, -⟩
  · exact absurd hrole hfirst
  · exact hi

/-- Two signatures that are valid, one in each of the two roles. -/
theorem existsUnique_signedAs_iff (hsigs : u.signatures = [first, second]) :
    ((∃! i, SignedAs P B u .chronomatter i) ∧ ∃! i, SignedAs P B u .communerdEnvelope i) ↔
      (first.role = .chronomatter ∧ second.role = .communerdEnvelope ∨
        first.role = .communerdEnvelope ∧ second.role = .chronomatter) ∧
      SignedBy P B u 0 first ∧ SignedBy P B u 1 second := by
  constructor
  · rintro ⟨⟨i, hi, -⟩, ⟨j, hj, -⟩⟩
    rw [signedAs_of_getElem? hsigs] at hi hj
    rcases hi with ⟨-, hrole, hsigned⟩ | ⟨-, hrole, hsigned⟩
    · rcases hj with ⟨-, hrole', -⟩ | ⟨-, hrole', hsigned'⟩
      · exact absurd (hrole.symm.trans hrole') (by decide)
      · exact ⟨.inl ⟨hrole, hrole'⟩, hsigned, hsigned'⟩
    · rcases hj with ⟨-, hrole', hsigned'⟩ | ⟨-, hrole', -⟩
      · exact ⟨.inr ⟨hrole', hrole⟩, hsigned', hsigned⟩
      · exact absurd (hrole.symm.trans hrole') (by decide)
  · rintro ⟨⟨hfirst, hsecond⟩ | ⟨hfirst, hsecond⟩, hsigned, hsigned'⟩
    · exact ⟨existsUnique_signedAs_first hsigs hfirst (by rw [hsecond]; decide) hsigned,
        existsUnique_signedAs_second hsigs (by rw [hfirst]; decide) hsecond hsigned'⟩
    · exact ⟨existsUnique_signedAs_second hsigs (by rw [hfirst]; decide) hsecond hsigned',
        existsUnique_signedAs_first hsigs hfirst (by rw [hsecond]; decide) hsigned⟩

/-- What was accepted is signed in both roles exactly if the roles and the keys are right. -/
theorem FastSigned.existsUnique_iff (hexact : Ed25519Exact P) (hkeyed : Ed25519Keyed P)
    (h : FastSigned P B u pubKey first second) :
    ((∃! i, SignedAs P B u .chronomatter i) ∧ ∃! i, SignedAs P B u .communerdEnvelope i) ↔
      RolesAndKeys pubKey first second := by
  rw [existsUnique_signedAs_iff h.signatures_eq]
  constructor
  · rintro ⟨hroles, hfirst, hsecond⟩
    refine ⟨hroles, fun entry hentry ↦ ?_⟩
    rcases List.mem_pair.1 hentry with rfl | rfl
    · exact h.first.key_eq hexact hkeyed hfirst
    · exact h.second.key_eq hexact hkeyed hsecond
  · rintro ⟨hroles, hkeys⟩
    obtain ⟨hlength, tbid, htbid, hkey⟩ := hkeys first (by simp)
    obtain ⟨hlength', tbid', htbid', hkey'⟩ := hkeys second (by simp)
    exact ⟨hroles, h.first.signedBy hlength htbid hkey,
      h.second.signedBy hlength' htbid' hkey'⟩

/-- A fast signature of a secret verifies exactly under its own key. -/
theorem verifyWith_sign_iff (hexact : Ed25519Exact P) (hkeyed : Ed25519Keyed P) (s : TbidSecret)
    (data : Bytes) :
    verifyWith P pubKey "Ed25519" data (SigAlgorithm.ed25519.sign P s data) = .ok true ↔
      (P.ed25519Public s.ed25519).toList = pubKey.take 32 := by
  rw [verifyWith_ed25519_eq_ok]
  constructor
  · rintro ⟨pk, edSig, -, hpk, hsig, hverify⟩
    obtain rfl : P.ed25519Sign s.ed25519 data = edSig := by
      refine FixedBytes.ext (Eq.trans ?_ hsig)
      exact (List.take_of_length_le (FixedBytes.length_toList _).le).symm
    rw [hkeyed] at hverify
    rw [hpk, hverify]
  · intro hkey
    refine ⟨P.ed25519Public s.ed25519, P.ed25519Sign s.ed25519 data,
      (FixedBytes.length_toList _).ge, hkey.symm, ?_, hexact.correct _ _⟩
    exact List.take_of_length_le (FixedBytes.length_toList _).le

/-- What was honestly made is accepted exactly if both signatures are fast ones and both signers
have the named key. -/
theorem exists_verifyAllSignatures_iff (hexact : Ed25519Exact P) (hkeyed : Ed25519Keyed P)
    {chronomatter communerd : TbidSecret} {a b : SigAlgorithm}
    (h : HonestlyMade P B u chronomatter communerd a b) :
    (∃ c, u.verifyAllSignatures P B pubKey = .ok c) ↔ a = .ed25519 ∧ b = .ed25519 ∧
      (P.ed25519Public chronomatter.ed25519).toList = pubKey.take 32 ∧
      (P.ed25519Public communerd.ed25519).toList = pubKey.take 32 := by
  obtain ⟨⟨data, data', hdata, hdata', hsigs⟩, hdemands⟩ := h
  constructor
  · rintro ⟨c, hc⟩
    obtain ⟨-, first, second, hfast⟩ := verifyAllSignatures_eq_ok.1 hc
    obtain ⟨rfl, rfl⟩ : _ = first ∧ _ = second := by
      have heq := hsigs.symm.trans hfast.signatures_eq
      exact ⟨(List.cons.inj heq).1, (List.cons.inj (List.cons.inj heq).2).1⟩
    obtain ⟨rfl : a = .ed25519, x, hx, hverify⟩ := hfast.first
    obtain ⟨rfl : b = .ed25519, y, hy, hverify'⟩ := hfast.second
    obtain rfl := Except.ok.inj (hdata.symm.trans hx)
    obtain rfl := Except.ok.inj (hdata'.symm.trans hy)
    exact ⟨rfl, rfl, (verifyWith_sign_iff hexact hkeyed _ _).1 hverify,
      (verifyWith_sign_iff hexact hkeyed _ _).1 hverify'⟩
  · rintro ⟨rfl, rfl, hkey, hkey'⟩
    refine ⟨_, verifyAllSignatures_eq_ok.2 ⟨rfl, _, _, hsigs, ⟨rfl, data, hdata, ?_⟩,
      ⟨rfl, data', hdata', ?_⟩, Bool.eq_false_iff.2 fun hfull ↦ ?_⟩⟩
    · exact (verifyWith_sign_iff hexact hkeyed _ _).2 hkey
    · exact (verifyWith_sign_iff hexact hkeyed _ _).2 hkey'
    · rcases hdemands hfull with hdual | hdual
      · cases hdual
      · cases hdual

/-- **The gate.** With schemes that accept exactly what the matching key signed, the gate does
with an envelope what it should do exactly under the condition; and what went through the builder
and over the wire it never accepts. -/
theorem gateLaw_iff (hexact : Ed25519Exact P) (hkeyed : Ed25519Keyed P) :
    (∀ (u : UnverifiedSignatureEnvelope R) (pubKey : Bytes),
      GateLaw P B u pubKey ↔ GateCondition P B u pubKey) ∧
    ∀ (b : ExternalizedBuilder R) (ext : Externalized R) (C : Codec (Externalized R))
      (u : UnverifiedSignatureEnvelope R) (pubKey : Bytes), b.build = .ok ext →
      Externalized.reenter C (C.serialize ext) = some u →
      ¬∃ c, u.verifyAllSignatures P B pubKey = .ok c := by
  refine ⟨fun u pubKey ↦ ⟨fun h ↦ ⟨fun first second hfast ↦ ?_, ?_⟩, fun h ↦ ⟨fun c hc ↦ ?_, ?_⟩⟩,
    fun b ext C u pubKey _ hu hok ↦ ?_⟩
  · exact (hfast.existsUnique_iff hexact hkeyed).1
      (h.sound _ (verifyAllSignatures_eq_ok.2 ⟨rfl, first, second, hfast⟩))
  · intro chronomatter communerd a b hmade
    exact (exists_verifyAllSignatures_iff hexact hkeyed hmade).1 (h.complete _ _ _ _ hmade)
  · obtain ⟨-, first, second, hfast⟩ := verifyAllSignatures_eq_ok.1 hc
    exact (hfast.existsUnique_iff hexact hkeyed).2 (h.fast first second hfast)
  · intro chronomatter communerd a b hmade
    exact (exists_verifyAllSignatures_iff hexact hkeyed hmade).2 (h.honest _ _ _ _ hmade)
  · obtain ⟨c, hc⟩ := hok
    rw [verifyAllSignatures_reenter hu] at hc
    exact Result.err_ne_ok _ _ hc

/-- A payload without content, which does not demand a full signature. -/
def unitRecord : BaseRecord Unit :=
  ⟨fun _ ↦ .ok [], fun signatures ↦ .ok (signatures.flatMap SignatureEntry.sig), fun _ ↦ false⟩

/-- The first signature of an envelope that one secret signs in both roles. -/
def dualTagged : SignatureEntry :=
  ⟨.chronomatter, ((default : TbidSecret).tbid .transparent).toHex, .dualKey,
    SigAlgorithm.dualKey.sign .transparent default []⟩

/-- An honestly made envelope, whose chronomatter signature is tagged as a dual-key one. -/
def dualTaggedEnvelope : UnverifiedSignatureEnvelope Unit :=
  ⟨(), [dualTagged, ⟨.communerdEnvelope, dualTagged.tbid, .ed25519,
    SigAlgorithm.ed25519.sign .transparent default dualTagged.sig⟩]⟩

theorem honestlyMade_dualTaggedEnvelope : HonestlyMade .transparent unitRecord dualTaggedEnvelope
    default default .dualKey .ed25519 := by
  refine ⟨⟨[], dualTagged.sig, rfl, ?_, rfl⟩, fun h ↦ absurd h Bool.false_ne_true⟩
  show Except.ok ([] ++ (dualTagged.sig ++ [])) = (Except.ok dualTagged.sig : Result _ _)
  rw [List.nil_append, List.append_nil]

/-- The gate refuses it. -/
theorem not_gateLaw_dualTagged : ¬GateLaw .transparent unitRecord dualTaggedEnvelope
    ((default : TbidSecret).tbid .transparent).rawBytes := by
  intro h
  obtain ⟨c, hc⟩ := h.complete _ _ _ _ honestlyMade_dualTaggedEnvelope
  obtain ⟨-, first, second, hfast⟩ := verifyAllSignatures_eq_ok.1 hc
  obtain rfl : dualTagged = first := (List.cons.inj hfast.signatures_eq).1
  exact absurd hfast.first.1 (by decide)

theorem gateLaw_iff_dualTagged :
    GateLaw .transparent unitRecord dualTaggedEnvelope
        ((default : TbidSecret).tbid .transparent).rawBytes ↔
      GateCondition .transparent unitRecord dualTaggedEnvelope
        ((default : TbidSecret).tbid .transparent).rawBytes :=
  (gateLaw_iff ed25519Exact_transparent ed25519Keyed_transparent).1 _ _

end Law

end Foretias

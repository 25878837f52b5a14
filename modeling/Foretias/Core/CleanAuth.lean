import Foretias.Core.Tick

/-!
# Authentication of inbound data

Inbound data is an `UnverifiedSignatureEnvelope` until a gate turns it into a
`CleanAuthenticated` value:

* `verifyChronon` — a chronon record, against its predecessor when there is one;
* `verifyForetis` — an attestation, against the record of its chronon.

For each gate one theorem says exactly what it accepts (`verifyChronon_some_eq_ok`,
`verifyChronon_none_eq_ok`, `verifyForetis_eq_ok`); later files use these and do not open the
definitions. `fromJsonValueV2` rebuilds the envelope of an attestation from its wire format.
-/

namespace Foretias

/-- Role of the signer in the ordered signature chain. -/
inductive SignerRole
  | chronomatter
  | calendar
  | member
  | communerdEnvelope
  deriving DecidableEq

/-- Signature algorithm used by an entry. -/
inductive SigAlgorithm
  | ed25519
  | dualKey
  deriving DecidableEq

/-- The identifier under which a foretis is verified. -/
def SigAlgorithm.toVerifyId : SigAlgorithm → String
  | ed25519 => "Ed25519"
  | dualKey => "SLH-DSA"

/-- One entry in the ordered signature list of an envelope. -/
structure SignatureEntry where
  /-- Role of the signer. -/
  role : SignerRole
  /-- TBID of the signer, as text. -/
  tbid : String
  /-- Algorithm of the signature. -/
  algorithm : SigAlgorithm
  /-- The signature bytes. -/
  sig : Bytes
  deriving DecidableEq

/-- Inbound data: parsed, not trusted. -/
structure UnverifiedSignatureEnvelope (α : Type) where
  /-- The payload. -/
  inner : α
  /-- The ordered signatures. -/
  signatures : List SignatureEntry

/-- Data that passed a gate. -/
structure CleanAuthenticated (α : Type) where
  /-- The payload. -/
  inner : α
  /-- The ordered signatures. -/
  signatures : List SignatureEntry

/-- `from_parsed`: an envelope without signatures. -/
def UnverifiedSignatureEnvelope.fromParsed {α : Type} (inner : α) :
    UnverifiedSignatureEnvelope α := ⟨inner, []⟩

/-- `from_trusted`: the local gate for trusted data. -/
def CleanAuthenticated.fromTrusted {α : Type} (inner : α) : CleanAuthenticated α := ⟨inner, []⟩

/-- Errors of parsing inbound data. -/
inductive CleanAuthParseError
  /-- Invalid JSON, with the parser's message. -/
  | invalidJson (message : String)
  /-- Bad format. -/
  | badFormat (message : String)
  /-- Unknown signature algorithm identifier. -/
  | unknownAlgorithm (id : String)
  deriving DecidableEq

/-- Errors of the authentication gates. -/
inductive CleanAuthError
  /-- Signature verification failed. -/
  | invalidSignature
  /-- Chain continuity broken. -/
  | chainBreak
  /-- Verification not yet implemented. -/
  | notYetImplemented
  /-- A field has an invalid length. -/
  | invalidLength (message : String)
  /-- Underlying error of the crypto server. -/
  | crypto (e : NodeError)
  deriving DecidableEq

instance : ToString CleanAuthError where
  toString
    | .invalidSignature => "invalid signature"
    | .chainBreak => "chain break"
    | .notYetImplemented => "not yet implemented"
    | .invalidLength message => s!"invalid length: {message}"
    | .crypto e => s!"crypto error: {e}"

namespace UnverifiedSignatureEnvelope

variable (P : Primitives)

/-! ### Chronon records -/

/-- `UnverifiedSignatureEnvelope<ChrononRecord>::verify`. Without a predecessor nothing is
checked against a key: only the number, a key being there, and a version below 1. -/
def verifyChronon (u : UnverifiedSignatureEnvelope ChrononRecord)
    (prev : Option (CleanAuthenticated ChrononRecord)) :
    Result CleanAuthError (CleanAuthenticated ChrononRecord) :=
  match prev with
  | some prev => do
    let valid ← (verifyPair P prev.inner.tbid.toHex prev.inner u.inner).mapErr .crypto
    if !valid then .err .chainBreak
    else pure ⟨u.inner, u.signatures⟩
  | none =>
    if u.inner.chrononNumber ≠ 1 then .err .chainBreak
    else if u.inner.publicKey = [] then .err (.invalidLength "public_key empty")
    else if 1 ≤ u.inner.tbVersion then .err .notYetImplemented
    else pure ⟨u.inner, u.signatures⟩

variable {P} {u : UnverifiedSignatureEnvelope ChrononRecord}
  {prev c : CleanAuthenticated ChrononRecord}

/-- Against a predecessor, exactly the linked records are accepted. -/
theorem verifyChronon_some_eq_ok : u.verifyChronon P (some prev) = .ok c ↔
    verifyPair P prev.inner.tbid.toHex prev.inner u.inner = .ok true ∧
      c = ⟨u.inner, u.signatures⟩ := by
  rw [verifyChronon, Result.bind_eq_ok]
  constructor
  · rintro ⟨valid, hpair, h⟩
    cases valid with
    | false => exact absurd h (Result.err_ne_ok _ _)
    | true => exact ⟨Result.mapErr_eq_ok.1 hpair, (Result.pure_eq_ok.1 h).symm⟩
  · rintro ⟨hpair, rfl⟩
    exact ⟨true, Result.mapErr_eq_ok.2 hpair, rfl⟩

/-- Without a predecessor, exactly the version-0 records of chronon 1 with a key are accepted. -/
theorem verifyChronon_none_eq_ok : u.verifyChronon P none = .ok c ↔
    u.inner.chrononNumber = 1 ∧ u.inner.publicKey ≠ [] ∧ u.inner.tbVersion = 0 ∧
      c = ⟨u.inner, u.signatures⟩ := by
  have hversion : 1 ≤ u.inner.tbVersion ↔ u.inner.tbVersion ≠ 0 := by
    rw [UInt32.le_iff_toNat_le, ne_eq, ← UInt32.toNat_inj]
    exact Nat.one_le_iff_ne_zero
  rw [verifyChronon]
  split
  · rename_i hn
    exact iff_of_false (Result.err_ne_ok _ _) fun h ↦ hn h.1
  split
  · rename_i hk
    exact iff_of_false (Result.err_ne_ok _ _) fun h ↦ h.2.1 hk
  split
  · rename_i hv
    exact iff_of_false (Result.err_ne_ok _ _) fun h ↦ hversion.1 hv h.2.2.1
  · rename_i hn hk hv
    rw [Result.pure_eq_ok, eq_comm]
    exact ⟨fun h ↦ ⟨not_not.1 hn, hk, not_not.1 fun hne ↦ hv (hversion.2 hne), h⟩,
      fun h ↦ h.2.2.2⟩

/-- The version-1 genesis record that a chronomatter with a TBID secret produces is refused. -/
theorem verifyChronon_none_of_tbVersion (hn : u.inner.chrononNumber = 1)
    (hk : u.inner.publicKey ≠ []) (hv : 1 ≤ u.inner.tbVersion) :
    u.verifyChronon P none = .err .notYetImplemented := by
  rw [verifyChronon, if_neg (not_not.2 hn), if_neg hk, if_pos hv]

/-! ### Attestations -/

/-- A single record as a calendar lookup; the number asked for is not looked at. -/
def calendarLookupFromCleanRecord (record : CleanAuthenticated ChrononRecord) : CalendarLookup :=
  ⟨fun _ _ ↦ pure [record.inner]⟩

/-- The first signature of an envelope, empty when there is none. -/
def firstSig (u : UnverifiedSignatureEnvelope ForetisRecord) : Bytes :=
  (u.signatures.head?.map SignatureEntry.sig).getD []

/-- The algorithm the first signature is verified under. -/
def firstAlgorithm (u : UnverifiedSignatureEnvelope ForetisRecord) : String :=
  (u.signatures.head?.map fun s ↦ s.algorithm.toVerifyId).getD "Ed25519"

variable (P)

/-- `UnverifiedSignatureEnvelope<ForetisRecord>::verify`. -/
def verifyForetis (u : UnverifiedSignatureEnvelope ForetisRecord)
    (record : CleanAuthenticated ChrononRecord) (content : Bytes) :
    Result CleanAuthError (CleanAuthenticated ForetisRecord) :=
  if u.inner.chrononNumber ≠ record.inner.chrononNumber then .err .chainBreak
  else if P.sha256 content ≠ u.inner.contentHash then .err .invalidSignature
  else do
    let valid ← (verify P u.inner u.firstSig u.firstAlgorithm content
      (calendarLookupFromCleanRecord record)).mapErr .crypto
    if !valid then .err .invalidSignature
    else pure ⟨u.inner, u.signatures⟩

variable {P}

/-- When an attestation and a record agree on the chronon and the content has the stated hash,
the first signature decides. -/
theorem verifyForetis_of_hash_eq {u : UnverifiedSignatureEnvelope ForetisRecord}
    {record : CleanAuthenticated ChrononRecord} {content : Bytes}
    (hnumber : u.inner.chrononNumber = record.inner.chrononNumber)
    (hhash : P.sha256 content = u.inner.contentHash) :
    u.verifyForetis P record content = (do
      let valid ← ((verifyWith P record.inner.publicKey u.firstAlgorithm (P.postcard u.inner)
        u.firstSig).mapErr .crypto : Result NodeError Bool).mapErr .crypto
      if !valid then .err .invalidSignature
      else pure ⟨u.inner, u.signatures⟩) := by
  rw [verifyForetis, if_neg (not_not.2 hnumber), if_neg (not_not.2 hhash),
    verify_of_head? hhash rfl rfl]

/-- An attestation is accepted exactly if it agrees with the record on the chronon, the content
has the stated hash, and the first signature verifies under the record's key. -/
theorem verifyForetis_eq_ok {u : UnverifiedSignatureEnvelope ForetisRecord}
    {record : CleanAuthenticated ChrononRecord} {content : Bytes}
    {c : CleanAuthenticated ForetisRecord} : u.verifyForetis P record content = .ok c ↔
      u.inner.chrononNumber = record.inner.chrononNumber ∧
      P.sha256 content = u.inner.contentHash ∧
      verifyWith P record.inner.publicKey u.firstAlgorithm (P.postcard u.inner) u.firstSig =
        .ok true ∧ c = ⟨u.inner, u.signatures⟩ := by
  by_cases hnumber : u.inner.chrononNumber = record.inner.chrononNumber
  swap
  · rw [verifyForetis, if_pos hnumber]
    exact iff_of_false (Result.err_ne_ok _ _) fun h ↦ hnumber h.1
  by_cases hhash : P.sha256 content = u.inner.contentHash
  swap
  · rw [verifyForetis, if_neg (not_not.2 hnumber), if_pos hhash]
    exact iff_of_false (Result.err_ne_ok _ _) fun h ↦ hhash h.2.1
  rw [verifyForetis_of_hash_eq hnumber hhash, Result.bind_eq_ok]
  constructor
  · rintro ⟨valid, hvalid, h⟩
    cases valid with
    | false => exact absurd h (Result.err_ne_ok _ _)
    | true =>
      exact ⟨hnumber, hhash, Result.mapErr_eq_ok.1 (Result.mapErr_eq_ok.1 hvalid),
        (Result.pure_eq_ok.1 h).symm⟩
  · rintro ⟨-, -, hsig, rfl⟩
    exact ⟨true, Result.mapErr_eq_ok.2 (Result.mapErr_eq_ok.2 hsig), rfl⟩

/-- The members of a JSON object that the v2 parser reads: `foretis` with the outcome of its
own parse, and the other two when they are strings. -/
structure ForetisJson where
  /-- Member `foretis`. -/
  foretis : Option (Except String ForetisRecord)
  /-- Member `signature`, hex-encoded. -/
  signature : Option String
  /-- Member `signature_algorithm`. -/
  signatureAlgorithm : Option String

/-- `from_json_value_v2`; `none` is a value that is not an object. A signature that is absent,
not hexadecimal or empty leaves the envelope without one. -/
def fromJsonValueV2 (v : Option ForetisJson) :
    Except CleanAuthParseError (UnverifiedSignatureEnvelope ForetisRecord) :=
  match v with
  | none => .error (.badFormat "v2 envelope requires JSON object")
  | some obj =>
    match obj.foretis with
    | none => .error (.badFormat "v2 envelope requires 'foretis' key")
    | some (.error message) => .error (.invalidJson message)
    | some (.ok foretis) =>
      match obj.signature.bind hexDecode with
      | none | some [] => .ok (fromParsed foretis)
      | some (b :: bs) =>
        match obj.signatureAlgorithm with
        | some "SLH-DSA" => .ok ⟨foretis, [⟨.chronomatter, "", .dualKey, b :: bs⟩]⟩
        | some "Ed25519" => .ok ⟨foretis, [⟨.chronomatter, "", .ed25519, b :: bs⟩]⟩
        | some other => .error (.unknownAlgorithm other)
        | none => .error (.badFormat "missing 'signature_algorithm' field")

/-- The wire format of an Ed25519 attestation. -/
def ForetisJson.ofStamped (foretis : ForetisRecord) (signature : Bytes) : ForetisJson :=
  ⟨some (.ok foretis), some (hexEncode signature), some "Ed25519"⟩

/-- The envelope rebuilt from the wire format carries the signature. -/
theorem fromJsonValueV2_ofStamped (foretis : ForetisRecord) {signature : Bytes}
    (h : signature ≠ []) : fromJsonValueV2 (some (.ofStamped foretis signature)) =
      .ok ⟨foretis, [⟨.chronomatter, "", .ed25519, signature⟩]⟩ := by
  obtain ⟨b, bs, rfl⟩ := List.exists_cons_of_ne_nil h
  simp only [fromJsonValueV2, ForetisJson.ofStamped, Option.bind_some, hexDecode_hexEncode]

end UnverifiedSignatureEnvelope

end Foretias

import Foretias.Core.Error

/-!
# Identities, chronon records and attestations

The data the engine signs, stores and exchanges. A `ChrononRecord` says that a time being reached
a chronon and which key it used there; a `ForetisRecord` is an attestation of content at a
chronon, and a `StampedForetis` carries its signature. External attestations of a chronon record
are read by nothing modelled here and are left out.
-/

namespace Foretias

/-- Time Being ID: `Ed25519_PK(32) ‖ SLH-DSA_PK(64)`. -/
structure Tbid where
  /-- Flat 96-byte representation. -/
  inner : FixedBytes 96
  deriving DecidableEq, Inhabited

namespace Tbid

/-- Raw 96-byte representation. -/
def rawBytes (t : Tbid) : Bytes := t.inner.toList

/-- Ed25519 public key (first 32 bytes). -/
def ed25519PublicKey (t : Tbid) : FixedBytes 32 := ⟨t.inner.toList.take 32, by simp⟩

/-- Hex-encoded representation. -/
def toHex (t : Tbid) : String := hexEncode t.rawBytes

/-- `from_hex`: 192 hexadecimal digits, of either case. -/
def fromHex (s : String) : Option Tbid := do
  let bytes ← hexDecode s
  let inner ← FixedBytes.ofBytes? 96 bytes
  return ⟨inner⟩

@[simp] theorem fromHex_toHex (t : Tbid) : fromHex t.toHex = some t := by
  rw [fromHex, toHex, hexDecode_hexEncode]
  simp [rawBytes]

@[simp] theorem length_rawBytes (t : Tbid) : t.rawBytes.length = 96 := t.inner.length_eq

theorem rawBytes_injective : Function.Injective rawBytes := by
  rintro ⟨a⟩ ⟨b⟩ h
  exact congrArg Tbid.mk (FixedBytes.ext h)

@[simp] theorem rawBytes_inj {a b : Tbid} : a.rawBytes = b.rawBytes ↔ a = b :=
  rawBytes_injective.eq_iff

@[simp] theorem toHex_inj {a b : Tbid} : a.toHex = b.toHex ↔ a = b := by
  simp [toHex]

/-- The hexadecimal name of a TBID is 192 bytes of text. -/
@[simp] theorem length_asBytes_toHex (t : Tbid) : (asBytes t.toHex).length = 192 := by
  simp [toHex]

/-- Text that parses as a TBID is 192 bytes, too. -/
theorem length_asBytes_of_fromHex {s : String} {t : Tbid} (h : fromHex s = some t) :
    (asBytes s).length = 192 := by
  obtain ⟨bytes, hbytes, h⟩ := Option.bind_eq_some_iff.1 h
  obtain ⟨inner, hinner, -⟩ := Option.bind_eq_some_iff.1 h
  rw [length_asBytes_of_hexDecode hbytes, FixedBytes.ofBytes?_eq_some.1 hinner, inner.length_eq]

end Tbid

/-- A chronon record, one link of a calendar. -/
structure ChrononRecord where
  /-- The chronon number. -/
  chrononNumber : UInt64
  /-- Public key of this chronon; any length on the wire. -/
  publicKey : Bytes
  /-- Identifier of the signature algorithm, as text. -/
  signatureAlgorithm : String
  /-- Signature over the attestation blob with the previous chronon's key. -/
  forwardForetis : Bytes
  /-- Signature over the attestation blob with this chronon's key. -/
  backwardForetis : Bytes
  /-- Nonce of the attestation blob. -/
  aaNonce : FixedBytes 16
  /-- Number of user stamps counted into this chronon. -/
  chrononStampCount : UInt64
  /-- Version of the genesis attestation format. -/
  tbVersion : UInt32
  /-- The time being the record claims to belong to. -/
  tbid : Tbid
  deriving DecidableEq, Inhabited

namespace ChrononRecord

/-- Chronon 1 is the genesis chronon. -/
def isGenesis (r : ChrononRecord) : Bool := r.chrononNumber == 1

/-- `ChrononRecordBuilder::build`: refuse a zero number and an empty key. -/
def build (r : ChrononRecord) : Except NodeError ChrononRecord :=
  if r.chrononNumber = 0 then .error (.invalidInput "chronon_number must be > 0")
  else if r.publicKey = [] then .error (.invalidInput "public_key must not be empty")
  else .ok r

theorem build_eq_ok {r r' : ChrononRecord} :
    r.build = .ok r' ↔ r.chrononNumber ≠ 0 ∧ r.publicKey ≠ [] ∧ r = r' := by
  unfold build
  split
  · simp [*]
  split
  · simp [*]
  · simp [*]

end ChrononRecord

/-- The payload of an attestation of content at a chronon. -/
structure ForetisRecord where
  /-- The chronon at which the attestation was created. -/
  chrononNumber : UInt64
  /-- SHA-256 hash of the attested content. -/
  contentHash : FixedBytes 32
  /-- TimeBeing identifier of the signing node. -/
  tbid : Tbid
  /-- Echo string of the request. -/
  echo : String
  /-- TimeBeing name. -/
  tbn : String
  /-- Wall-clock time at stamping, as `UE+<nanoseconds>ns`. -/
  timeBeingReferenceTime : String
  deriving DecidableEq, Inhabited

/-- A payload together with its signature. -/
structure StampedForetis where
  /-- The signed payload. -/
  foretis : ForetisRecord
  /-- The signature bytes. -/
  signatureBytes : Bytes
  /-- Identifier of the signature algorithm. -/
  signatureAlgorithm : String
  deriving DecidableEq, Inhabited

end Foretias

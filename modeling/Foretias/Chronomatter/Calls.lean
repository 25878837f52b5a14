import Foretias.Core.Calendar
import Foretias.Library.ErrorState

/-!
# The chronomatter and its calls

A chronomatter counts ticks, keeps the key pairs of the current and the previous tick, and hands
a signed chronon record to its observing calendar at every tick. `stamp` and `daemonTick` are its
two calls. Both advance the tick counter and the key ring before the steps that can fail, and
nothing is rolled back, so a call is a computation whose error result carries the state reached.

What the engine gets from outside during one call — the drawn seed and nonce, the clock, and
whether a cryptographic operation fails — is a `CallEnv`.
-/

namespace Foretias

open ErrorState

variable (P : Primitives)

/-! ### The key ring -/

/-- The key pair of one tick: a seed with the public key derived from it. -/
structure TickKeyPair where
  /-- The public key. -/
  pubKey : FixedBytes 32
  /-- The seed behind the private key handle. -/
  privKey : FixedBytes 32
  /-- The public key is the seed's. -/
  public_eq : P.ed25519Public privKey = pubKey
  deriving DecidableEq

/-- The key pair of a seed. -/
def TickKeyPair.ofSeed (seed : FixedBytes 32) : TickKeyPair P := ⟨P.ed25519Public seed, seed, rfl⟩

/-- The retained key pairs, newest last: the current one and the one before it. -/
structure KeyRing where
  /-- The key pairs. -/
  keys : List (TickKeyPair P)
  /-- Older ones are evicted. -/
  length_le : keys.length ≤ 2
  deriving DecidableEq

variable {P}

namespace KeyRing

/-- A ring without keys. -/
def empty : KeyRing P := ⟨[], by simp⟩

/-- Add a key pair and evict from the front while more than two are held. -/
def push (ring : KeyRing P) (kp : TickKeyPair P) : KeyRing P :=
  let keys := ring.keys ++ [kp]
  ⟨keys.drop (keys.length - 2), by rw [List.length_drop]; omega⟩

/-- The pair `relativeIdx` places before the newest. -/
def slot (ring : KeyRing P) (relativeIdx : ℕ) : Option (TickKeyPair P) :=
  if relativeIdx + 1 ≤ ring.keys.length then ring.keys[ring.keys.length - (relativeIdx + 1)]?
  else none

/-- The pair just stored is in slot 0. -/
@[simp] theorem slot_push_zero (ring : KeyRing P) (kp : TickKeyPair P) :
    (ring.push kp).slot 0 = some kp := by
  obtain ⟨keys, hlen⟩ := ring
  match keys, hlen with
  | [], _ => rfl
  | [_], _ => rfl
  | [_, _], _ => rfl

/-- The pair that was in slot 0 moves to slot 1. -/
@[simp] theorem slot_push_one (ring : KeyRing P) (kp : TickKeyPair P) :
    (ring.push kp).slot 1 = ring.slot 0 := by
  obtain ⟨keys, hlen⟩ := ring
  match keys, hlen with
  | [], _ => rfl
  | [_], _ => rfl
  | [_, _], _ => rfl

end KeyRing

/-! ### The state -/

variable (P) in
/-- A chronomatter with its observing calendar. -/
structure Chronomatter where
  /-- TBID of this time being. -/
  tbid : Tbid
  /-- Its dual-key secret, when it can sign. -/
  tbidSecret : Option { s : TbidSecret // s.tbid P = tbid }
  /-- TimeBeing name. -/
  tbn : String
  /-- Number of the last tick begun. -/
  currentTick : UInt64
  /-- Key pairs of the last ticks. -/
  keypairs : KeyRing P
  /-- The calendar that is notified of new records. -/
  tickObserver : Calendar
  /-- Verify-only mode. -/
  isDormant : Bool
  /-- User stamps since the last attestation. -/
  chrononStampCount : UInt64

namespace Chronomatter

/-- `Chronomatter::new` with a generated secret and an empty observing calendar. -/
def new (secret : TbidSecret) (calendarTbid : Tbid) (calendarTbn : String) : Chronomatter P where
  tbid := secret.tbid P
  tbidSecret := some ⟨secret, rfl⟩
  tbn := "tf-" ++ String.ofList ((secret.tbid P).toHex.toList.take 16)
  currentTick := 0
  keypairs := .empty
  tickObserver := .new calendarTbid calendarTbn
  isDormant := false
  chrononStampCount := 0

/-- `sign_tbid_message`: sign with both keys of the TBID. -/
def signTbidMessage (c : Chronomatter P) (msg : Bytes) : Except NodeError Bytes :=
  match c.tbidSecret with
  | none => .error (.crypto (.badInput "no TBID signing key"))
  | some secret => .ok (tbidSign P secret.1 msg)

/-- The counter after one more tick has begun. -/
def advanceTick (c : Chronomatter P) : Chronomatter P :=
  { c with currentTick := c.currentTick + 1 }

/-- One more user stamp. -/
def countStamp (c : Chronomatter P) : Chronomatter P :=
  { c with chrononStampCount := c.chrononStampCount + 1 }

/-- The stamp counter swapped for zero. -/
def resetStampCount (c : Chronomatter P) : Chronomatter P := { c with chrononStampCount := 0 }

/-- A new key pair in the ring. -/
def storeKeypair (c : Chronomatter P) (kp : TickKeyPair P) : Chronomatter P :=
  { c with keypairs := c.keypairs.push kp }

/-- The observer notified of a record. -/
def notifyObserver (c : Chronomatter P) (record : ChrononRecord) : Chronomatter P :=
  { c with tickObserver := c.tickObserver.onTickAdvance record }

end Chronomatter

/-! ### Calls -/

/-- What one call receives from outside. A fault of an operation is the error it reports. -/
structure CallEnv where
  /-- The seed of the generated key pair. -/
  generate : Except CryptoError (FixedBytes 32)
  /-- Fault of hashing the content. -/
  sha256 : Option CryptoError
  /-- The wall clock, in nanoseconds. -/
  clock : Except String UInt64
  /-- Fault of encoding the payload. -/
  serialize : Option String
  /-- Fault of signing the payload. -/
  foretisSign : Option CryptoError
  /-- Fault of signing the genesis certificate. -/
  genesisSign : Option CryptoError
  /-- The nonce of the attestation blob. -/
  nonce : Except CryptoError (FixedBytes 16)
  /-- Fault of signing with the previous key. -/
  forwardSign : Option CryptoError
  /-- Fault of signing the attestation with the current key. -/
  backwardSign : Option CryptoError

/-- The value of an operation unless it has a fault. -/
def unlessFault {ε α : Type} (fault : Option ε) (a : α) : Except ε α :=
  match fault with
  | none => .ok a
  | some e => .error e

theorem unlessFault_eq_ok {ε α : Type} {fault : Option ε} {a b : α} :
    unlessFault fault a = .ok b ↔ fault = none ∧ a = b := by
  cases fault with
  | none => simp [unlessFault]
  | some e => simp [unlessFault]

variable (P) in
/-- A call: a computation on the chronomatter whose error carries the state reached. -/
abbrev Call := EStateM NodeError (Chronomatter P)

/-- The `?` operator on a cryptographic result. -/
def orCrypto {α : Type} (x : Except CryptoError α) : Call P α :=
  ofResult (x.mapError NodeError.crypto)

theorem orCrypto_eq_ok {α : Type} {x : Except CryptoError α} {s t : Chronomatter P} {a : α} :
    (orCrypto x : Call P α) s = .ok a t ↔ x = .ok a ∧ t = s :=
  ofResult_mapError_eq_ok

namespace Chronomatter

/-- `current_tick.fetch_add(1) + 1`. -/
def fetchAddTick : Call P UInt64 := do
  modify advanceTick
  return (← get).currentTick

/-- `chronon_stamp_count.swap(0)`. -/
def swapStampCount : Call P UInt64 := do
  let stamps := (← get).chrononStampCount
  modify resetStampCount
  return stamps

/-- `generate_and_store_keypair`. -/
def generateAndStoreKeypair (env : CallEnv) : Call P Unit := do
  let seed ← orCrypto env.generate
  modify fun c ↦ c.storeKeypair (.ofSeed P seed)

/-- `keypair_pub`. -/
def keypairPub (relativeIdx : ℕ) : Call P (Option (FixedBytes 32)) := do
  return ((← get).keypairs.slot relativeIdx).map TickKeyPair.pubKey

/-- `sign_with_keypair`. -/
def signWithKeypair (relativeIdx : ℕ) (fault : Option CryptoError) (msg : Bytes) :
    Call P Bytes := do
  let keypairs := (← get).keypairs
  match keypairs.slot relativeIdx with
  | none =>
    let len := keypairs.keys.length
    throw (.internal s!"keypair relative index {relativeIdx} out of range (len={len})")
  | some kp =>
    orCrypto (unlessFault fault (P.ed25519Sign kp.privKey msg).toList)

/-- Forward foretis, backward foretis, nonce and stamp count of an attestation. -/
structure AutoAttestation where
  /-- Signature with the previous key. -/
  forwardForetis : Bytes
  /-- Signature with the current key. -/
  backwardForetis : Bytes
  /-- Nonce of the blob. -/
  aaNonce : FixedBytes 16
  /-- Stamps counted into the tick. -/
  stamps : UInt64

/-- `build_auto_attestation`. -/
def buildAutoAttestation (env : CallEnv) (tick : UInt64) (newPub : FixedBytes 32) :
    Call P AutoAttestation := do
  let tbidStr := (← get).tbid.toHex
  let stamps ← swapStampCount
  if tick = 1 then
    let nonce ← orCrypto env.nonce
    let attestBlob := autoAttestationBlobWithCount tbidStr tick newPub tick newPub stamps nonce
    let sig ← signWithKeypair 0 env.backwardSign attestBlob
    return ⟨sig, sig, nonce, stamps⟩
  else
    let some prevPub ← keypairPub 1 | throw (.internal "missing previous keypair")
    let nonce ← orCrypto env.nonce
    let attestBlob :=
      autoAttestationBlobWithCount tbidStr (tick - 1) prevPub tick newPub stamps nonce
    let forwardSig ← signWithKeypair 1 env.forwardSign attestBlob
    let backwardSig ← signWithKeypair 0 env.backwardSign attestBlob
    return ⟨forwardSig, backwardSig, nonce, stamps⟩

/-- `build_genesis_with_pqc`: the TBID signature of the genesis certificate is embedded in both
foretis and covered by the Ed25519 signature before it. -/
def buildGenesisWithPqc (env : CallEnv) (tick : UInt64) (newPub : FixedBytes 32)
    (secret : TbidSecret) : Call P AutoAttestation := do
  let tbid := (← get).tbid
  let genesisSig ← orCrypto
    (unlessFault env.genesisSign (tbidSign P secret (genesisBlob tbid tick newPub.toList)))
  let stamps ← swapStampCount
  let nonce ← orCrypto env.nonce
  let attestBlob :=
    autoAttestationBlobWithGenesis tbid.toHex tick newPub genesisSig stamps nonce
  let edSig ← signWithKeypair 0 env.backwardSign attestBlob
  return ⟨edSig ++ genesisSig, edSig ++ genesisSig, nonce, stamps⟩

/-- The record of a tick, before `build` checks it. -/
def tickRecord (tbid : Tbid) (tick : UInt64) (newPub : FixedBytes 32) (att : AutoAttestation)
    (tbVersion : UInt32) : ChrononRecord where
  chrononNumber := tick
  publicKey := newPub.toList
  signatureAlgorithm := SignatureAlgorithm.ed25519.toIdString
  forwardForetis := att.forwardForetis
  backwardForetis := att.backwardForetis
  aaNonce := att.aaNonce
  chrononStampCount := att.stamps
  tbVersion := tbVersion
  tbid := tbid

/-- `build_tick_record`: at tick 1 a genesis record, of version 1 when there is a TBID secret. -/
def buildTickRecord (env : CallEnv) (tick : UInt64) (newPub : FixedBytes 32) :
    Call P ChrononRecord := do
  let tbid := (← get).tbid
  if tick = 1 then
    match (← get).tbidSecret with
    | some secret =>
      let att ← buildGenesisWithPqc env tick newPub secret.1
      ofResult (tickRecord tbid tick newPub att 1).build
    | none =>
      let att ← buildAutoAttestation env tick newPub
      ofResult (tickRecord tbid tick newPub att 0).build
  else
    let att ← buildAutoAttestation env tick newPub
    ofResult (tickRecord tbid tick newPub att 0).build

/-- The payload of an attestation. -/
def foretisRecord (c : Chronomatter P) (tick : UInt64) (content : Bytes) (echo : String)
    (nowNs : UInt64) : ForetisRecord where
  chrononNumber := tick
  contentHash := P.sha256 content
  tbid := c.tbid
  echo := echo
  tbn := c.tbn
  timeBeingReferenceTime := s!"UE+{nowNs}ns"

/-- `create_foretis`. -/
def createForetis (env : CallEnv) (tick : UInt64) (content : Bytes) (echo : String) :
    Call P StampedForetis := do
  generateAndStoreKeypair env
  let some newPub ← keypairPub 0 | throw (.internal "keypair not found after generation")
  orCrypto (unlessFault env.sha256 ())
  let nowNs ← ofResult (env.clock.mapError fun e ↦ NodeError.internal s!"clock error: {e}")
  let foretis := (← get).foretisRecord tick content echo nowNs
  let sigInput ← ofResult ((unlessFault env.serialize (P.postcard foretis)).mapError
    fun e ↦ NodeError.internal s!"postcard serialize error: {e}")
  let signatureBytes ← signWithKeypair 0 env.foretisSign sigInput
  let record ← buildTickRecord env tick newPub
  modify fun c ↦ c.notifyObserver record
  return ⟨foretis, signatureBytes, SignatureAlgorithm.ed25519.toIdString⟩

/-- `stamp`. -/
def stamp (env : CallEnv) (content : Bytes) (echo : String) : Call P StampedForetis := do
  if (← get).isDormant then
    throw (.internal "Cannot stamp: Chronomatter is in verify-only mode")
  let tick ← fetchAddTick
  modify countStamp
  createForetis env tick content echo

/-- `daemon_tick`. -/
def daemonTick (env : CallEnv) : Call P Unit := do
  if (← get).isDormant then
    return
  let tick ← fetchAddTick
  generateAndStoreKeypair env
  let some newPub ← keypairPub 0 | throw (.internal "keypair not found after generation")
  let record ← buildTickRecord env tick newPub
  modify fun c ↦ c.notifyObserver record

end Chronomatter

end Foretias

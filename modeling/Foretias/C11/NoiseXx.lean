import Foretias.C11.Merkle
import Foretias.Library.ErrorState
import Mathlib.Logic.Function.Basic

/-!
# The Noise XX session of the C core

`foretiasNoiseStep` drives the handshake of a session, three calls on each side;
`foretiasNoiseSend` and `foretiasNoiseRecv` carry the transport messages after it. Each is a
procedure over a `Session`: the C state, the key module's process-wide variables, and a record
of the libsodium calls made so far. The record is history only: no procedure reads it.

A failing call keeps what it had written to the state before it failed, as the C code does.

The functions of libsodium are parameters (`Sodium`). A pointer to the state or to a length is
never null here; a null input is `none`, and so is a null output. An input is at most
`FORETIAS_NOISE_MAX_MSG` = 65535 bytes long, as the framing below the session sees to: for the
payload of a longer handshake message there is no room on the stack (`readPayload`).
-/

namespace Foretias

open ErrorState

/-- A key, a hash, a scalar or a curve point: `uint8_t[32]`. -/
abbrev Bytes32 := FixedBytes 32

/-- The functions of libsodium that the Noise code calls; `none` is a nonzero return code. -/
structure Sodium where
  /-- `crypto_hash_sha256`. -/
  sha256 : Bytes → Bytes32
  /-- `crypto_auth_hmacsha256`: of a message, under a key. -/
  hmacSha256 : Bytes → Bytes32 → Bytes32
  /-- `crypto_scalarmult_base`. -/
  scalarmultBase : Bytes32 → Option Bytes32
  /-- `crypto_scalarmult`: of a scalar and a point. -/
  scalarmult : Bytes32 → Bytes32 → Option Bytes32
  /-- `crypto_aead_chacha20poly1305_ietf_encrypt`: key, nonce, associated data, plaintext. -/
  aeadEncrypt : Bytes32 → Bytes → Bytes → Bytes → Option Bytes
  /-- `crypto_aead_chacha20poly1305_ietf_decrypt`: key, nonce, associated data, ciphertext. -/
  aeadDecrypt : Bytes32 → Bytes → Bytes → Bytes → Option Bytes
  /-- `crypto_secretbox_easy` of a key: plaintext, nonce, key. -/
  secretboxEasy : Bytes32 → FixedBytes 24 → Bytes32 → Option (FixedBytes 48)
  /-- `crypto_secretbox_open_easy`: ciphertext, nonce, key. -/
  secretboxOpenEasy : FixedBytes 48 → FixedBytes 24 → Bytes32 → Option Bytes32
  /-- The four bytes after the literal `Noise_XX_static_key_ed25519` and its terminator, which
  the HMAC of the static key reads as the end of a 32-byte key. -/
  saltTail : FixedBytes 4

/-! ### The state -/

/-- The secrets a session keeps sealed under the instance key. -/
inductive SecretField
  | chainingKey
  | localStatic
  | sendKey
  | recvKey
  deriving DecidableEq

/-- A sealed secret: the fields `encrypted_*` and `*_nonce`. -/
structure SealedKey where
  /-- 32 bytes of ciphertext and 16 of tag. -/
  encrypted : FixedBytes 48
  /-- The nonce. -/
  nonce : FixedBytes 24
  deriving DecidableEq, Inhabited

/-- `ForetiasNoiseState`. -/
structure ForetiasNoiseState where
  /-- The four sealed secrets. -/
  secrets : SecretField → SealedKey
  /-- `h`. -/
  handshakeHash : Bytes32
  /-- Own static public key. -/
  localStaticPub : Bytes32
  /-- Own ephemeral public key. -/
  localEphemeral : Bytes32
  /-- The peer's ephemeral public key. -/
  remoteEphemeral : Bytes32
  /-- The peer's static public key. -/
  remoteStatic : Bytes32
  /-- Counter of encryptions. -/
  sendNonce : UInt64
  /-- Counter of decryptions. -/
  recvNonce : UInt64
  /-- Handshake calls made. -/
  step : ℕ
  /-- Whether this side sends the first message. -/
  isInitiator : Bool
  /-- Whether the handshake has completed. -/
  handshakeComplete : Bool

/-- The state that `memset(state, 0, sizeof(*state))` leaves. -/
def ForetiasNoiseState.zeroed : ForetiasNoiseState where
  secrets _ := default
  handshakeHash := default
  localStaticPub := default
  localEphemeral := default
  remoteEphemeral := default
  remoteStatic := default
  sendNonce := 0
  recvNonce := 0
  step := 0
  isInitiator := false
  handshakeComplete := false

/-- The static variables of the key module, which every session of the process shares. -/
structure PrivkeyModule where
  /-- `instance_kek`, once initialised. -/
  instanceKek : Option Bytes32
  /-- `key_gen_counter`. -/
  keyGenCounter : UInt64

/-- The calls to libsodium that a session's record keeps, when they return zero. -/
inductive SodiumCall
  /-- `randombytes_buf`. -/
  | randombytes (buf : Bytes32)
  /-- `crypto_scalarmult` of a scalar and a point, and its result. -/
  | scalarmult (n p q : Bytes32)
  /-- An AEAD encryption. -/
  | encrypt (key : Bytes32) (nonce ad plaintext ciphertext : Bytes)
  /-- An AEAD decryption. -/
  | decrypt (key : Bytes32) (nonce ad ciphertext plaintext : Bytes)
  deriving DecidableEq

/-- What a call works on. -/
structure Session extends ForetiasNoiseState where
  /-- The key module. -/
  keyModule : PrivkeyModule
  /-- The libsodium calls of the session, in order. -/
  calls : List SodiumCall

/-- A procedure over a session. -/
abbrev NoiseM := EStateM ForetiasResult Session

namespace Session

/-- The session after one more libsodium call. -/
def record (s : Session) (c : SodiumCall) : Session := { s with calls := s.calls ++ [c] }

/-- The session after an encryption: `(*n)++` on the send counter. -/
def countSend (s : Session) (c : SodiumCall) : Session :=
  { s with sendNonce := s.sendNonce + 1, calls := s.calls ++ [c] }

/-- The session after a decryption: `(*n)++` on the receive counter. -/
def countRecv (s : Session) (c : SodiumCall) : Session :=
  { s with recvNonce := s.recvNonce + 1, calls := s.calls ++ [c] }

/-- The session with the secret `f` sealed as `k`, which has taken a nonce of the module. -/
def store (s : Session) (f : SecretField) (k : SealedKey) : Session :=
  { s with
    secrets := Function.update s.secrets f k
    keyModule := ⟨s.keyModule.instanceKek, s.keyModule.keyGenCounter + 1⟩ }

end Session

variable (C : Sodium)

/-- What the sealed secret `f` opens to under the instance key. -/
def Session.secret (s : Session) (f : SecretField) : Option Bytes32 :=
  s.keyModule.instanceKek.bind fun kek ↦
    C.secretboxOpenEasy (s.secrets f).encrypted (s.secrets f).nonce kek

namespace Session

variable {C} {s : Session} {f g : SecretField} {k : SealedKey} {c : SodiumCall}

@[simp] theorem calls_record : (s.record c).calls = s.calls ++ [c] := rfl

@[simp] theorem calls_countSend : (s.countSend c).calls = s.calls ++ [c] := rfl

@[simp] theorem calls_countRecv : (s.countRecv c).calls = s.calls ++ [c] := rfl

@[simp] theorem secret_record : (s.record c).secret C f = s.secret C f := rfl

@[simp] theorem secret_countSend : (s.countSend c).secret C f = s.secret C f := rfl

@[simp] theorem secret_countRecv : (s.countRecv c).secret C f = s.secret C f := rfl

@[simp] theorem secret_store_of_ne (h : g ≠ f) : (s.store f k).secret C g = s.secret C g := by
  simp only [secret, store, Function.update_of_ne h]

end Session

/-! ### Helpers -/

/-- `_NH_D` and `_NH_H`. -/
def nhD : ℕ := 32

/-- `_NH_T`. -/
def nhT : ℕ := 16

/-- `_nh_mix_hash`. -/
def nhMixHash (h : Bytes32) (d : Bytes) : Bytes32 := C.sha256 (h.toList ++ d)

/-- `_nh_mix_key`: the next chaining key and a cipher key. -/
def nhMixKey (ck dh : Bytes32) : Bytes32 × Bytes32 :=
  let t := C.hmacSha256 dh.toList ck
  let nck := C.hmacSha256 [0x01] t
  (nck, C.hmacSha256 (nck.toList ++ [0x02]) t)

/-- `_nh_split`: the keys of the initiator's and of the responder's messages. -/
def nhSplit (ck : Bytes32) : Bytes32 × Bytes32 :=
  let t := C.hmacSha256 [] ck
  let sk := C.hmacSha256 [0x01] t
  (sk, C.hmacSha256 (sk.toList ++ [0x02]) t)

/-- The 12-byte nonce of a counter: four zeros and `_nh_nonce`. -/
def nhNonce (n : UInt64) : Bytes := List.replicate 4 0 ++ u64Le n

theorem nhNonce_injective : Function.Injective nhNonce := by
  intro m n h
  exact u64Le_injective (List.append_cancel_left h)

/-- `UINT64_MAX`. -/
def uint64Max : UInt64 := 0xFFFFFFFFFFFFFFFF

/-- `_nh_ae_enc`; every caller passes `&state->send_nonce`. Its return code `-1` is that of
`FORETIAS_ERR_BAD_SIG`. -/
def nhAeEnc (k : Bytes32) (ad pt : Bytes) : NoiseM Bytes := do
  let s ← get
  require (s.sendNonce ≠ uint64Max) .errOverflow
  let ct ← ofOption .errBadSig (C.aeadEncrypt k (nhNonce s.sendNonce) ad pt)
  set (s.countSend (.encrypt k (nhNonce s.sendNonce) ad pt ct))
  pure ct

/-- `_nh_ae_dec`; every caller passes `&state->recv_nonce`. -/
def nhAeDec (k : Bytes32) (ad ct : Bytes) : NoiseM Bytes := do
  let s ← get
  require (s.recvNonce ≠ uint64Max) .errOverflow
  let pt ← ofOption .errBadSig (C.aeadDecrypt k (nhNonce s.recvNonce) ad ct)
  set (s.countRecv (.decrypt k (nhNonce s.recvNonce) ad ct pt))
  pure pt

variable {C} in
theorem nhAeEnc_eq_ok {k : Bytes32} {ad pt ct : Bytes} {s t : Session} :
    nhAeEnc C k ad pt s = .ok ct t ↔
      s.sendNonce ≠ uint64Max ∧ C.aeadEncrypt k (nhNonce s.sendNonce) ad pt = some ct ∧
        t = s.countSend (.encrypt k (nhNonce s.sendNonce) ad pt ct) := by
  simp only [nhAeEnc, bind_eq_ok, get_eq_ok, require_eq_ok, ofOption_eq_ok, set_eq_ok,
    pure_eq_ok]
  constructor
  · rintro ⟨_, _, ⟨rfl, rfl⟩, _, _, ⟨hn, rfl⟩, _, _, ⟨henc, rfl⟩, _, _, rfl, rfl, rfl⟩
    exact ⟨hn, henc, rfl⟩
  · rintro ⟨hn, henc, rfl⟩
    exact ⟨s, s, ⟨rfl, rfl⟩, ⟨⟩, s, ⟨hn, rfl⟩, ct, s, ⟨henc, rfl⟩, ⟨⟩, _, rfl, rfl, rfl⟩

variable {C} in
theorem nhAeDec_eq_ok {k : Bytes32} {ad pt ct : Bytes} {s t : Session} :
    nhAeDec C k ad ct s = .ok pt t ↔
      s.recvNonce ≠ uint64Max ∧ C.aeadDecrypt k (nhNonce s.recvNonce) ad ct = some pt ∧
        t = s.countRecv (.decrypt k (nhNonce s.recvNonce) ad ct pt) := by
  simp only [nhAeDec, bind_eq_ok, get_eq_ok, require_eq_ok, ofOption_eq_ok, set_eq_ok,
    pure_eq_ok]
  constructor
  · rintro ⟨_, _, ⟨rfl, rfl⟩, _, _, ⟨hn, rfl⟩, _, _, ⟨hdec, rfl⟩, _, _, rfl, rfl, rfl⟩
    exact ⟨hn, hdec, rfl⟩
  · rintro ⟨hn, hdec, rfl⟩
    exact ⟨s, s, ⟨rfl, rfl⟩, ⟨⟩, s, ⟨hn, rfl⟩, pt, s, ⟨hdec, rfl⟩, ⟨⟩, _, rfl, rfl, rfl⟩

/-- `_nh_eh`: the ciphertext and the next handshake hash. -/
def nhEh (h k : Bytes32) (pt : Bytes) : NoiseM (Bytes × Bytes32) := do
  let ct ← orThrow (nhAeEnc C k h.toList pt) .errBadSig
  pure (ct, nhMixHash C h ct)

/-- `_nh_dec_hash`: the plaintext and the next handshake hash. -/
def nhDecHash (h k : Bytes32) (ct : Bytes) : NoiseM (Bytes × Bytes32) := do
  let pt ← orThrow (nhAeDec C k h.toList ct) .errBadSig
  pure (pt, nhMixHash C h ct)

variable {C} in
theorem nhEh_eq_ok {h k h' : Bytes32} {pt ct : Bytes} {s t : Session} :
    nhEh C h k pt s = .ok (ct, h') t ↔
      nhAeEnc C k h.toList pt s = .ok ct t ∧ h' = nhMixHash C h ct := by
  simp only [nhEh, bind_eq_ok, orThrow_eq_ok, pure_eq_ok, Prod.mk.injEq]
  constructor
  · rintro ⟨_, _, henc, ⟨rfl, rfl⟩, rfl⟩
    exact ⟨henc, rfl⟩
  · rintro ⟨henc, rfl⟩
    exact ⟨ct, t, henc, ⟨rfl, rfl⟩, rfl⟩

variable {C} in
theorem nhDecHash_eq_ok {h k h' : Bytes32} {pt ct : Bytes} {s t : Session} :
    nhDecHash C h k ct s = .ok (pt, h') t ↔
      nhAeDec C k h.toList ct s = .ok pt t ∧ h' = nhMixHash C h ct := by
  simp only [nhDecHash, bind_eq_ok, orThrow_eq_ok, pure_eq_ok, Prod.mk.injEq]
  constructor
  · rintro ⟨_, _, hdec, ⟨rfl, rfl⟩, rfl⟩
    exact ⟨hdec, rfl⟩
  · rintro ⟨hdec, rfl⟩
    exact ⟨pt, t, hdec, ⟨rfl, rfl⟩, rfl⟩

/-- `derive_nonce`. -/
def deriveNonce (counter : UInt64) : FixedBytes 24 :=
  .read 24 (C.sha256 (u64Le counter)).toList

/-- `_nh_decrypt_key` on the fields of the secret `f`, and `foretias_privkey_decrypt`; every
caller reports a failure as `FORETIAS_ERR_BAD_KEY`. -/
def nhDecryptKey (f : SecretField) : NoiseM Bytes32 := do
  let s ← get
  let kek ← ofOption .errBadKey s.keyModule.instanceKek
  ofOption .errBadKey
    (C.secretboxOpenEasy (s.secrets f).encrypted (s.secrets f).nonce kek)

variable {C} in
theorem nhDecryptKey_eq_ok {f : SecretField} {k : Bytes32} {s t : Session} :
    nhDecryptKey C f s = .ok k t ↔ s.secret C f = some k ∧ t = s := by
  simp only [nhDecryptKey, bind_eq_ok, get_eq_ok, ofOption_eq_ok, Session.secret,
    Option.bind_eq_some_iff]
  constructor
  · rintro ⟨_, _, ⟨rfl, rfl⟩, kek, _, ⟨hkek, rfl⟩, hopen, rfl⟩
    exact ⟨⟨kek, hkek, hopen⟩, rfl⟩
  · rintro ⟨⟨kek, hkek, hopen⟩, rfl⟩
    exact ⟨t, t, ⟨rfl, rfl⟩, kek, t, ⟨hkek, rfl⟩, hopen, rfl⟩

/-- `_nh_encrypt_key` into the fields of the secret `f`, and `foretias_privkey_encrypt`; every
caller reports a failure as `FORETIAS_ERR_INTERNAL`. The nonce is written first. -/
def nhEncryptKey (f : SecretField) (plaintext : Bytes32) : NoiseM PUnit := do
  let s ← get
  let kek ← ofOption .errInternal s.keyModule.instanceKek
  let nonce := deriveNonce C (s.keyModule.keyGenCounter + 1)
  set (s.store f ⟨(s.secrets f).encrypted, nonce⟩)
  let encrypted ← ofOption .errInternal (C.secretboxEasy plaintext nonce kek)
  set (s.store f ⟨encrypted, nonce⟩)

/-- A sealed key opens under the key that sealed it, and sealing succeeds. -/
structure SecretboxCorrect : Prop where
  /-- What `crypto_secretbox_easy` seals, `crypto_secretbox_open_easy` opens. -/
  exists_open (k : Bytes32) (nonce : FixedBytes 24) (kek : Bytes32) :
    ∃ c, C.secretboxEasy k nonce kek = some c ∧ C.secretboxOpenEasy c nonce kek = some k

variable {C} in
/-- Under an initialised key module a secret is sealed, and opens to what was sealed. -/
theorem nhEncryptKey_of_kek (hC : SecretboxCorrect C) {s : Session} {kek : Bytes32}
    (hkek : s.keyModule.instanceKek = some kek) (f : SecretField) (k : Bytes32) :
    ∃ a, nhEncryptKey C f k s = .ok ⟨⟩ (s.store f a) ∧ (s.store f a).secret C f = some k := by
  obtain ⟨c, hseal, hopen⟩ := hC.exists_open k (deriveNonce C (s.keyModule.keyGenCounter + 1)) kek
  refine ⟨⟨c, deriveNonce C (s.keyModule.keyGenCounter + 1)⟩, ?_, ?_⟩
  · simp only [nhEncryptKey, bind_eq_ok, get_eq_ok, ofOption_eq_ok, set_eq_ok]
    exact ⟨s, s, ⟨rfl, rfl⟩, kek, s, ⟨hkek, rfl⟩, ⟨⟩, _, rfl, c, _, ⟨hseal, rfl⟩, rfl⟩
  · show s.keyModule.instanceKek.bind _ = some k
    rw [hkek, Option.bind_some]
    simpa [Session.store] using hopen

/-- Decrypt the secret `f` and multiply the point `p` by it, for `_nh_x25519`. -/
def nhX25519 (f : SecretField) (p : Bytes32) : NoiseM Bytes32 := do
  let n ← nhDecryptKey C f
  let dh ← ofOption .errBadKey (C.scalarmult n p)
  modify fun s ↦ s.record (.scalarmult n p dh)
  pure dh

variable {C} in
theorem nhX25519_eq_ok {f : SecretField} {p dh : Bytes32} {s t : Session} :
    nhX25519 C f p s = .ok dh t ↔
      ∃ n, s.secret C f = some n ∧ C.scalarmult n p = some dh ∧
        t = s.record (.scalarmult n p dh) := by
  simp only [nhX25519, bind_eq_ok, nhDecryptKey_eq_ok, ofOption_eq_ok, modify_eq_ok, pure_eq_ok]
  constructor
  · rintro ⟨n, _, ⟨hn, rfl⟩, _, _, ⟨hdh, rfl⟩, _, _, rfl, rfl, rfl⟩
    exact ⟨n, hn, hdh, rfl⟩
  · rintro ⟨n, hn, hdh, rfl⟩
    exact ⟨n, s, ⟨hn, rfl⟩, dh, s, ⟨hdh, rfl⟩, ⟨⟩, _, rfl, rfl, rfl⟩

/-! ### Initialisation -/

/-- The salt of the static key, read as a 32-byte HMAC key. -/
def staticKeySalt : Bytes32 :=
  .read 32 (asBytes "Noise_XX_static_key_ed25519" ++ 0 :: C.saltTail.toList)

/-- The X25519 scalar of an Ed25519 seed. -/
def staticScalar (seed : Bytes32) : Bytes32 :=
  C.hmacSha256 [0x01] (C.hmacSha256 seed.toList (staticKeySalt C))

/-- The protocol name, hashed when it is longer than a hash. -/
def protocolHash : Bytes32 :=
  let proto := asBytes "Noise_XX_25519_ChaChaPoly_SHA256"
  if nhD < proto.length then C.sha256 proto else .read 32 proto

/-- What both initialisers do once they have the seed. -/
def initFromSeed (seed : Bytes32) (theirStaticPub : Option Bytes32) (isInitiator : Bool) :
    NoiseM PUnit := do
  let epub ← ofOption .errBadKey (C.scalarmultBase (staticScalar C seed))
  nhEncryptKey C .localStatic (staticScalar C seed)
  modify fun s ↦ { s with
    localStaticPub := epub
    remoteStatic := theirStaticPub.getD s.remoteStatic
    handshakeHash := protocolHash C }
  nhEncryptKey C .chainingKey (protocolHash C)
  modify fun s ↦ { s with step := 0, isInitiator := isInitiator, handshakeComplete := false }

/-- `memset` of the state; the record of a new session is empty. -/
def zeroState : NoiseM PUnit :=
  modify fun s ↦ ⟨.zeroed, s.keyModule, []⟩

/-- `foretias_noise_init_ed25519`. -/
def foretiasNoiseInitEd25519 (myStaticPriv : Bytes32) (theirStaticPub : Option Bytes32)
    (isInitiator : Bool) : NoiseM PUnit := do
  zeroState
  initFromSeed C myStaticPriv theirStaticPub isInitiator

/-- `foretias_noise_init_with_handle`, with `foretias_privkey_ed25519_get_seed`. -/
def foretiasNoiseInitWithHandle (privHandle : SealedKey) (theirStaticPub : Option Bytes32)
    (isInitiator : Bool) : NoiseM PUnit := do
  zeroState
  let s ← get
  let kek ← ofOption .errInternal s.keyModule.instanceKek
  let seed ← ofOption .errInternal
    (C.secretboxOpenEasy privHandle.encrypted privHandle.nonce kek)
  initFromSeed C seed theirStaticPub isInitiator

/-! ### Handshake -/

/-- The input, unless it is null or shorter than `n`. -/
def requireInput (input : Option Bytes) (n : ℕ) : NoiseM Bytes := do
  let bs ← ofOption .errBadInput input
  require (n ≤ bs.length) .errBadInput
  pure bs

/-- Refuse an output that is null or has room for less than `n` bytes. -/
def requireOutput (output : Option ℕ) (n : ℕ) : NoiseM PUnit := do
  let room ← ofOption .errBadInput output
  require (n ≤ room) .errBadInput

/-- A fresh ephemeral key pair: the public key goes into the state, the private key is sealed
as the secret `f`. -/
def generateEphemeral (f : SecretField) (random : Bytes32) : NoiseM Bytes32 := do
  modify fun s ↦ s.record (.randombytes random)
  let epub ← ofOption .errInternal (C.scalarmultBase random)
  modify fun s ↦ { s with localEphemeral := epub }
  nhEncryptKey C f random
  pure epub

/-- What follows the encrypted static key in a handshake message, when anything does: its
plaintext is dropped. The C code decrypts it into 65535 bytes on the stack
(`FORETIAS_NOISE_MAX_MSG`) without a check of the length: for a longer plaintext it has no defined
outcome and this is no model of it. The callers read frames of at most 65535 bytes. -/
def readPayload (h k : Bytes32) (payload : Bytes) : NoiseM Bytes32 :=
  if 0 < payload.length then do
    require (nhT ≤ payload.length) .errBadInput
    let (_, h) ← orThrow (nhDecHash C h k payload) .errBadSig
    pure h
  else pure h

/-- The end of the handshake's second message on both sides. -/
def storeHandshakeKeys (k ck h : Bytes32) : NoiseM PUnit := do
  nhEncryptKey C .sendKey k
  nhEncryptKey C .chainingKey ck
  modify fun s ↦ { s with handshakeHash := h, step := 2 }

/-- The end of the handshake on both sides. -/
def storeTransportKeys (sendKey recvKey ck h : Bytes32) : NoiseM PUnit := do
  nhEncryptKey C .sendKey sendKey
  nhEncryptKey C .recvKey recvKey
  nhEncryptKey C .chainingKey ck
  modify fun s ↦ { s with handshakeHash := h, step := 3, handshakeComplete := true }

/-- The initiator's `case 0`: write the first message. The output is the bytes written; `none`
leaves the buffer and its length alone. -/
def initiatorStep0 (random : Bytes32) (output : Option ℕ) (h : Bytes32) :
    NoiseM (Option Bytes) := do
  requireOutput output nhD
  let epub ← generateEphemeral C .sendKey random
  modify fun s ↦ { s with handshakeHash := nhMixHash C h epub.toList, step := 1 }
  pure (some epub.toList)

/-- The initiator's `case 1`: read the second message. -/
def initiatorStep1 (input : Option Bytes) (ck h : Bytes32) : NoiseM (Option Bytes) := do
  let input ← requireInput input (nhD + nhD + nhT)
  let re : Bytes32 := .read nhD input
  modify fun s ↦ { s with remoteEphemeral := re }
  let h := nhMixHash C h re.toList
  let ee ← nhX25519 C .sendKey re
  let mixed := nhMixKey C ck ee
  let (rs, h) ← orThrow (nhDecHash C h mixed.2 ((input.drop nhD).take (nhD + nhT))) .errBadSig
  require (rs.length = nhD) .errBadInput
  modify fun s ↦ { s with remoteStatic := .read nhD rs }
  let es ← nhX25519 C .sendKey (.read nhD rs)
  let mixed := nhMixKey C mixed.1 es
  let h ← readPayload C h mixed.2 (input.drop (nhD + nhD + nhT))
  storeHandshakeKeys C mixed.2 mixed.1 h
  pure none

/-- The initiator's `case 2`: write the third message. -/
def initiatorStep2 (output : Option ℕ) (ck h : Bytes32) : NoiseM (Option Bytes) := do
  requireOutput output (nhD + nhT)
  let k ← nhDecryptKey C .sendKey
  let s ← get
  let (ct, h) ← orThrow (nhEh C h k s.localStaticPub.toList) .errInternal
  let se ← nhX25519 C .localStatic s.remoteEphemeral
  let ck := (nhMixKey C ck se).1
  storeTransportKeys C (nhSplit C ck).1 (nhSplit C ck).2 ck h
  pure (some ct)

/-- The responder's `case 0`: read the first message. -/
def responderStep0 (input : Option Bytes) (h : Bytes32) : NoiseM (Option Bytes) := do
  let input ← requireInput input nhD
  let re : Bytes32 := .read nhD input
  modify fun s ↦ { s with
    remoteEphemeral := re
    handshakeHash := nhMixHash C h re.toList
    step := 1 }
  pure none

/-- The responder's `case 1`: write the second message. -/
def responderStep1 (random : Bytes32) (output : Option ℕ) (ck h : Bytes32) :
    NoiseM (Option Bytes) := do
  requireOutput output (nhD + nhD + nhT)
  let epub ← generateEphemeral C .recvKey random
  let h := nhMixHash C h epub.toList
  let s ← get
  let ee ← nhX25519 C .recvKey s.remoteEphemeral
  let mixed := nhMixKey C ck ee
  let (ct, h) ← orThrow (nhEh C h mixed.2 s.localStaticPub.toList) .errInternal
  let es ← nhX25519 C .localStatic s.remoteEphemeral
  let mixed := nhMixKey C mixed.1 es
  storeHandshakeKeys C mixed.2 mixed.1 h
  pure (some (epub.toList ++ ct))

/-- The responder's `case 2`: read the third message. -/
def responderStep2 (input : Option Bytes) (ck h : Bytes32) : NoiseM (Option Bytes) := do
  let input ← requireInput input (nhD + nhT)
  let k ← nhDecryptKey C .sendKey
  let (rs, h) ← orThrow (nhDecHash C h k (input.take (nhD + nhT))) .errBadSig
  require (rs.length = nhD) .errBadInput
  modify fun s ↦ { s with remoteStatic := .read nhD rs }
  let se ← nhX25519 C .recvKey (.read nhD rs)
  let mixed := nhMixKey C ck se
  let h ← readPayload C h mixed.2 (input.drop (nhD + nhT))
  storeTransportKeys C (nhSplit C mixed.1).2 (nhSplit C mixed.1).1 mixed.1 h
  pure none

/-- The two `switch` statements of `foretias_noise_step`. -/
def handshakeCase (isInitiator : Bool) (step : ℕ) (random : Bytes32) (input : Option Bytes)
    (output : Option ℕ) (ck h : Bytes32) : NoiseM (Option Bytes) :=
  match isInitiator, step with
  | true, 0 => initiatorStep0 C random output h
  | true, 1 => initiatorStep1 C input ck h
  | true, 2 => initiatorStep2 C output ck h
  | false, 0 => responderStep0 C input h
  | false, 1 => responderStep1 C random output ck h
  | false, 2 => responderStep2 C input ck h
  | _, _ => throw .errBadInput

/-- `foretias_noise_step`; `random` is what `randombytes_buf` returns if it is called. -/
def foretiasNoiseStep (random : Bytes32) (input : Option Bytes) (output : Option ℕ) :
    NoiseM (Option Bytes) := do
  let s ← get
  require (s.handshakeComplete = false) .errBadInput
  let ck ← nhDecryptKey C .chainingKey
  handshakeCase C s.isInitiator s.step random input output ck s.handshakeHash

/-! ### Transport -/

/-- `foretias_noise_send` of a plaintext, with room for `room` bytes of ciphertext. -/
def foretiasNoiseSend (plaintext : Bytes) (room : ℕ) : NoiseM Bytes := do
  let s ← get
  require (s.handshakeComplete = true) .errBadInput
  require ((plaintext.length + nhT) % 2 ^ 64 ≤ room) .errBadInput
  let sk ← nhDecryptKey C .sendKey
  orThrow (nhAeEnc C sk [] plaintext) .errInternal

/-- `foretias_noise_recv`. -/
def foretiasNoiseRecv (ciphertext : Bytes) : NoiseM Bytes := do
  let s ← get
  require (s.handshakeComplete = true) .errBadInput
  require (nhT ≤ ciphertext.length) .errBadInput
  let rk ← nhDecryptKey C .recvKey
  orThrow (nhAeDec C rk [] ciphertext) .errBadSig

variable {C}

theorem foretiasNoiseSend_eq_ok {plaintext ct : Bytes} {room : ℕ} {s t : Session} :
    foretiasNoiseSend C plaintext room s = .ok ct t ↔
      s.handshakeComplete = true ∧ (plaintext.length + nhT) % 2 ^ 64 ≤ room ∧
        ∃ k, s.secret C .sendKey = some k ∧ nhAeEnc C k [] plaintext s = .ok ct t := by
  simp only [foretiasNoiseSend, bind_eq_ok, get_eq_ok, require_eq_ok, nhDecryptKey_eq_ok,
    orThrow_eq_ok]
  constructor
  · rintro ⟨_, _, ⟨rfl, rfl⟩, _, _, ⟨hc, rfl⟩, _, _, ⟨hroom, rfl⟩, k, _, ⟨hk, rfl⟩, henc⟩
    exact ⟨hc, hroom, k, hk, henc⟩
  · rintro ⟨hc, hroom, k, hk, henc⟩
    exact ⟨s, s, ⟨rfl, rfl⟩, ⟨⟩, s, ⟨hc, rfl⟩, ⟨⟩, s, ⟨hroom, rfl⟩, k, s, ⟨hk, rfl⟩, henc⟩

theorem foretiasNoiseRecv_eq_ok {ciphertext pt : Bytes} {s t : Session} :
    foretiasNoiseRecv C ciphertext s = .ok pt t ↔
      s.handshakeComplete = true ∧ nhT ≤ ciphertext.length ∧
        ∃ k, s.secret C .recvKey = some k ∧ nhAeDec C k [] ciphertext s = .ok pt t := by
  simp only [foretiasNoiseRecv, bind_eq_ok, get_eq_ok, require_eq_ok, nhDecryptKey_eq_ok,
    orThrow_eq_ok]
  constructor
  · rintro ⟨_, _, ⟨rfl, rfl⟩, _, _, ⟨hc, rfl⟩, _, _, ⟨hlen, rfl⟩, k, _, ⟨hk, rfl⟩, hdec⟩
    exact ⟨hc, hlen, k, hk, hdec⟩
  · rintro ⟨hc, hlen, k, hk, hdec⟩
    exact ⟨s, s, ⟨rfl, rfl⟩, ⟨⟩, s, ⟨hc, rfl⟩, ⟨⟩, s, ⟨hlen, rfl⟩, k, s, ⟨hk, rfl⟩, hdec⟩

/-- `NoiseSession::remote_static_pub` of the Rust wrapper. -/
def ForetiasNoiseState.remoteStaticPub (s : ForetiasNoiseState) : Option Bytes32 :=
  if s.handshakeComplete = true ∧ s.remoteStatic.toList.any (· != 0) = true then
    some s.remoteStatic
  else none

theorem ForetiasNoiseState.remoteStaticPub_of_complete {s : ForetiasNoiseState}
    (hs : s.handshakeComplete = true) (hzero : s.remoteStatic ≠ .replicate 32 0) :
    s.remoteStaticPub = some s.remoteStatic := by
  refine if_pos ⟨hs, ?_⟩
  by_contra hany
  apply hzero
  ext1
  refine List.eq_replicate_iff.2 ⟨s.remoteStatic.length_eq, fun b hb ↦ ?_⟩
  by_contra hb0
  exact hany (List.any_eq_true.2 ⟨b, hb, bne_iff_ne.2 hb0⟩)

/-! ### A transparent instance -/

/-- The first byte of a key. -/
def headByte (k : Bytes32) : UInt8 := k.toList.headD 0

/-- A 16-byte tag of what an AEAD ciphertext is bound to. -/
def checksumTag (key : Bytes32) (nonce ad plaintext : Bytes) : FixedBytes 16 :=
  .replicate 16 (checksum (key.toList ++ nonce ++ ad ++ plaintext))

/-- Functions that satisfy the correctness assumptions and can be evaluated: the multiplicative
group of the odd bytes for key agreement, and checksums for the rest. -/
def Sodium.transparent : Sodium where
  sha256 msg := .replicate 32 (checksum msg)
  hmacSha256 msg key := .replicate 32 (checksum (key.toList.take 3 ++ msg))
  scalarmultBase n := some (.replicate 32 (headByte n ||| 1))
  scalarmult n p :=
    if headByte p = 0 then none else some (.replicate 32 ((headByte n ||| 1) * headByte p))
  aeadEncrypt key nonce ad plaintext :=
    some (plaintext ++ (checksumTag key nonce ad plaintext).toList)
  aeadDecrypt key nonce ad ciphertext :=
    let plaintext := ciphertext.take (ciphertext.length - 16)
    if ciphertext = plaintext ++ (checksumTag key nonce ad plaintext).toList then some plaintext
    else none
  secretboxEasy k _ _ := some ⟨k.toList ++ List.replicate 16 0, by simp⟩
  secretboxOpenEasy c _ _ := some (.read 32 c.toList)
  saltTail := default

theorem secretboxCorrect_transparent : SecretboxCorrect .transparent where
  exists_open k _ _ := ⟨_, rfl, congrArg some (FixedBytes.read_append k _)⟩

/-- A key module initialised with the zero key. -/
def PrivkeyModule.zeroKek : PrivkeyModule := ⟨some default, 0⟩

/-- Zeroed memory in which a session can be initialised. -/
def Session.blank : Session := ⟨.zeroed, .zeroKek, []⟩

end Foretias

import Foretias.C11.NoiseXx
import Foretias.Library.KeyEpochs

/-!
# The key module of the C core

The seeds of private keys are kept encrypted under a key that the process draws once, the instance
key, and other parts of the core encrypt their secrets under it too. Every encryption takes its
nonce from one counter, which is hashed.

`KeyMemory` is what the module's functions work on: its static variables, the keys allocated, and a
history of the encryptions made and the instance keys drawn, which no function reads.

* `refines_of_calls` — the counter and the instance key are those of a `KeyEpochs.State`;
* `key_encryption_discipline` — no nonce is used twice under one instance key, and what was
  encrypted since the last cleanup decrypts to what it was made from.
-/

namespace Foretias

open ErrorState

/-- The functions of libsodium that the key module calls; `none` is a nonzero return code. -/
structure KeySodium where
  /-- `crypto_hash_sha256`. -/
  sha256 : Bytes → Bytes32
  /-- `crypto_sign_seed_keypair`: the public key of a seed. -/
  signSeedKeypair : Bytes32 → Option Bytes32
  /-- `crypto_secretbox_easy`: plaintext, nonce, key. -/
  secretboxEasy : Bytes → FixedBytes 24 → Bytes32 → Option Bytes
  /-- `crypto_secretbox_open_easy`: ciphertext, nonce, key. -/
  secretboxOpenEasy : Bytes → FixedBytes 24 → Bytes32 → Option Bytes

/-- `ForetiasCurve`. -/
inductive ForetiasCurve
  | ed25519
  | p256
  deriving DecidableEq

/-- `ForetiasPrivKey`. -/
structure ForetiasPrivKey where
  /-- `encrypted_key` and `nonce`. -/
  sealedSeed : SealedKey
  /-- The cached public key. -/
  publicKey : Bytes32
  /-- The curve identifier. -/
  curve : ForetiasCurve

/-- What the functions of the key module work on. -/
structure KeyMemory where
  /-- The static variables. -/
  keyModule : PrivkeyModule
  /-- The keys allocated, in order: `none` once freed. -/
  handles : List (Option ForetiasPrivKey)
  /-- The instance keys and nonces of the encryptions made, in order. -/
  seals : List (Bytes32 × FixedBytes 24)
  /-- The instance keys drawn, in order. -/
  drawn : List Bytes32

/-- The memory of a new process. -/
def KeyMemory.init : KeyMemory := ⟨⟨none, 0⟩, [], [], []⟩

namespace KeyMemory

/-- The memory with the next value of the counter. -/
def countUp (m : KeyMemory) : KeyMemory :=
  { m with keyModule := ⟨m.keyModule.instanceKek, m.keyModule.keyGenCounter + 1⟩ }

/-- The memory after an encryption. -/
def record (m : KeyMemory) (kek : Bytes32) (nonce : FixedBytes 24) : KeyMemory :=
  { m with seals := m.seals ++ [(kek, nonce)] }

/-- The memory with one more key. -/
def addKey (m : KeyMemory) (key : ForetiasPrivKey) : KeyMemory :=
  { m with handles := m.handles ++ [some key] }

/-- The key that a handle points to. -/
def key (m : KeyMemory) (h : ℕ) : Option ForetiasPrivKey := m.handles[h]?.join

end KeyMemory

variable (K : KeySodium)

/-- `derive_nonce`. -/
def deriveKeyNonce (counter : UInt64) : FixedBytes 24 :=
  .read 24 (K.sha256 (u64Le counter)).toList

/-- `key_gen_counter++`, `derive_nonce` and `crypto_secretbox_easy` under the instance key: the
nonce and the ciphertext. -/
def sealNext {ε : Type} (e : ε) (plaintext : Bytes) :
    EStateM ε KeyMemory (FixedBytes 24 × Bytes) := do
  modify KeyMemory.countUp
  let m ← get
  let nonce := deriveKeyNonce K m.keyModule.keyGenCounter
  let kek ← ofOption e m.keyModule.instanceKek
  modify fun m ↦ m.record kek nonce
  let ciphertext ← ofOption e (K.secretboxEasy plaintext nonce kek)
  pure (nonce, ciphertext)

/-- What both makers of a key do with its seed; `calloc` is whether there is memory. The error is a
null pointer. -/
def keyFromSeed (calloc : Bool) (seed : Bytes32) : EStateM PUnit KeyMemory ℕ := do
  let m ← get
  require (m.keyModule.instanceKek.isSome = true) ⟨⟩
  require (calloc = true) ⟨⟩
  let pub ← ofOption ⟨⟩ (K.signSeedKeypair seed)
  let (nonce, encrypted) ← sealNext K ⟨⟩ seed.toList
  modify fun m ↦ m.addKey ⟨⟨.read 48 encrypted, nonce⟩, pub, .ed25519⟩
  pure m.handles.length

/-- `foretias_privkey_init`; `kek` is what `randombytes_buf` returns if it is called. -/
def foretiasPrivkeyInit (kek : Bytes32) (m : KeyMemory) : KeyMemory :=
  if m.keyModule.instanceKek.isSome then m
  else { m with keyModule := ⟨some kek, 0⟩, drawn := m.drawn ++ [kek] }

/-- `foretias_privkey_cleanup`. -/
def foretiasPrivkeyCleanup (m : KeyMemory) : KeyMemory := { m with keyModule := ⟨none, 0⟩ }

/-- `foretias_privkey_ed25519_generate`; `seed` is what `randombytes_buf` returns. -/
def foretiasPrivkeyEd25519Generate (calloc : Bool) (seed : Bytes32) :
    EStateM PUnit KeyMemory ℕ := keyFromSeed K calloc seed

/-- `foretias_privkey_ed25519_from_seed`. -/
def foretiasPrivkeyEd25519FromSeed (calloc : Bool) (seed : Option Bytes32) :
    EStateM PUnit KeyMemory ℕ := do
  let seed ← ofOption ⟨⟩ seed
  keyFromSeed K calloc seed

/-- `foretias_privkey_encrypt`: the nonce and the ciphertext; `outputs` is whether neither output
pointer is null. -/
def foretiasPrivkeyEncrypt (plaintext : Option Bytes) (outputs : Bool) :
    EStateM ForetiasResult KeyMemory (FixedBytes 24 × Bytes) := do
  let plaintext ← ofOption .errBadInput plaintext
  require (outputs = true) .errBadInput
  let m ← get
  require (m.keyModule.instanceKek.isSome = true) .errInternal
  sealNext K .errInternal plaintext

/-- `foretias_privkey_decrypt`. -/
def foretiasPrivkeyDecrypt (ciphertext : Option Bytes) (nonce : Option (FixedBytes 24))
    (output : Bool) : EStateM ForetiasResult KeyMemory Bytes := do
  let ciphertext ← ofOption .errBadInput ciphertext
  let nonce ← ofOption .errBadInput nonce
  require (output = true) .errBadInput
  let m ← get
  let kek ← ofOption .errInternal m.keyModule.instanceKek
  require (16 ≤ ciphertext.length) .errBadInput
  ofOption .errBadSig (K.secretboxOpenEasy ciphertext nonce kek)

/-- `decrypt_seed`. -/
def decryptSeed (m : KeyMemory) (sealedSeed : SealedKey) : Option Bytes32 := do
  let kek ← m.keyModule.instanceKek
  let seed ← K.secretboxOpenEasy sealedSeed.encrypted.toList sealedSeed.nonce kek
  pure (.read 32 seed)

/-- `foretias_privkey_ed25519_get_seed` of a handle; a handle that was freed has no key. -/
def foretiasPrivkeyEd25519GetSeed (key : Option ℕ) : EStateM ForetiasResult KeyMemory Bytes32 := do
  let h ← ofOption .errBadInput key
  let m ← get
  let key ← ofOption .errBadInput (m.key h)
  ofOption .errInternal (decryptSeed K m key.sealedSeed)

/-- `foretias_privkey_free`. -/
def foretiasPrivkeyFree (key : Option ℕ) (m : KeyMemory) : KeyMemory :=
  match key with
  | some h => { m with handles := m.handles.set h none }
  | none => m

/-! ### Sequences of calls -/

/-- The calls. -/
inductive KeyCall
  /-- `foretias_privkey_init`. -/
  | init (kek : Bytes32)
  /-- `foretias_privkey_cleanup`. -/
  | cleanup
  /-- `foretias_privkey_ed25519_generate`. -/
  | generate (calloc : Bool) (seed : Bytes32)
  /-- `foretias_privkey_ed25519_from_seed`. -/
  | fromSeed (calloc : Bool) (seed : Option Bytes32)
  /-- `foretias_privkey_encrypt`. -/
  | encrypt (plaintext : Option Bytes) (outputs : Bool)
  /-- `foretias_privkey_decrypt`. -/
  | decrypt (ciphertext : Option Bytes) (nonce : Option (FixedBytes 24)) (output : Bool)
  /-- `foretias_privkey_free`. -/
  | free (key : Option ℕ)
  deriving DecidableEq

/-- What a call leaves, whether it succeeds or fails. -/
def KeyCall.exec (m : KeyMemory) : KeyCall → KeyMemory
  | init kek => foretiasPrivkeyInit kek m
  | cleanup => foretiasPrivkeyCleanup m
  | generate calloc seed => finalState (foretiasPrivkeyEd25519Generate K calloc seed m)
  | fromSeed calloc seed => finalState (foretiasPrivkeyEd25519FromSeed K calloc seed m)
  | encrypt plaintext outputs => finalState (foretiasPrivkeyEncrypt K plaintext outputs m)
  | decrypt ciphertext nonce output =>
    finalState (foretiasPrivkeyDecrypt K ciphertext nonce output m)
  | free key => foretiasPrivkeyFree key m

/-- A call, as a step. -/
def KeyStep (m : KeyMemory) (c : KeyCall) (m' : KeyMemory) : Prop := c.exec K m = m'

/-- What a call has encrypted. -/
inductive Encrypted
  /-- The seed of a key, of which there is a handle. -/
  | seed (handle : ℕ) (seed : Bytes32)
  /-- A plaintext, of which there are a nonce and a ciphertext. -/
  | message (nonce : FixedBytes 24) (ciphertext plaintext : Bytes)

/-- The call encrypts `x`: it makes a key, or it returns a ciphertext. -/
inductive KeyCall.Encrypts (m : KeyMemory) : KeyCall → Encrypted → Prop
  /-- A generated key. -/
  | generate {calloc : Bool} {seed : Bytes32} {h : ℕ} {m' : KeyMemory} :
      foretiasPrivkeyEd25519Generate K calloc seed m = .ok h m' →
      Encrypts m (.generate calloc seed) (.seed h seed)
  /-- A key of a given seed. -/
  | fromSeed {calloc : Bool} {seed : Bytes32} {h : ℕ} {m' : KeyMemory} :
      foretiasPrivkeyEd25519FromSeed K calloc (some seed) m = .ok h m' →
      Encrypts m (.fromSeed calloc (some seed)) (.seed h seed)
  /-- A plaintext. -/
  | message {plaintext ciphertext : Bytes} {outputs : Bool} {nonce : FixedBytes 24}
      {m' : KeyMemory} :
      foretiasPrivkeyEncrypt K (some plaintext) outputs m = .ok (nonce, ciphertext) m' →
      Encrypts m (.encrypt (some plaintext) outputs) (.message nonce ciphertext plaintext)

/-- No call drops the instance key or frees the handle. -/
def Encrypted.KeptBy (calls : List KeyCall) : Encrypted → Prop
  | .seed h _ => .cleanup ∉ calls ∧ .free (some h) ∉ calls
  | .message _ _ _ => .cleanup ∉ calls

/-- It decrypts to what it was made from. -/
def Encrypted.DecryptsIn (m : KeyMemory) : Encrypted → Prop
  | .seed h k => foretiasPrivkeyEd25519GetSeed K (some h) m = .ok k m
  | .message nonce ciphertext plaintext =>
    foretiasPrivkeyDecrypt K (some ciphertext) (some nonce) true m = .ok plaintext m

/-! ### The calls and the counter -/

variable {K}

/-- The abstract counter that the variables and the history of the module are those of. -/
structure Refines (K : KeySodium) (m : KeyMemory) (s : KeyEpochs.State Bytes32) : Prop where
  /-- The instance key is the current key. -/
  kek : m.keyModule.instanceKek = s.current
  /-- The counter counts. -/
  counter : m.keyModule.keyGenCounter = UInt64.ofNat s.count
  /-- A number is used as a nonce. -/
  seals : m.seals = s.issued.map fun p ↦ (p.1, deriveKeyNonce K (UInt64.ofNat p.2))
  /-- The instance keys. -/
  drawn : m.drawn = s.drawn

variable {m m' : KeyMemory} {s : KeyEpochs.State Bytes32}

/-- The memory with other keys. -/
theorem Refines.congr (h : Refines K m s) (hmodule : m'.keyModule = m.keyModule)
    (hseals : m'.seals = m.seals) (hdrawn : m'.drawn = m.drawn) : Refines K m' s where
  kek := hmodule ▸ h.kek
  counter := hmodule ▸ h.counter
  seals := hseals.trans h.seals
  drawn := hdrawn.trans h.drawn

/-- Without an instance key nothing is encrypted; with one, the memory after the encryption is the
one with the next number issued, whether the encryption succeeds or fails. -/
theorem finalState_sealNext {ε : Type} {kek : Bytes32} (hkek : m.keyModule.instanceKek = some kek)
    (e : ε) (plaintext : Bytes) :
    finalState (sealNext K e plaintext m) =
      m.countUp.record kek (deriveKeyNonce K (m.keyModule.keyGenCounter + 1)) := by
  have hkek' : m.countUp.keyModule.instanceKek = some kek := hkek
  rw [sealNext, bind_of_ok (modify_apply _ m), bind_of_ok (get_apply _), hkek',
    bind_of_ok (ofOption_some_apply _ _ _), bind_of_ok (modify_apply _ _)]
  cases K.secretboxEasy plaintext (deriveKeyNonce K m.countUp.keyModule.keyGenCounter) kek <;> rfl

/-- A seal that is made issues the next counter of the abstract machine. -/
theorem Refines.issue (h : Refines K m s) {kek : Bytes32}
    (hkek : m.keyModule.instanceKek = some kek) :
    Refines K (m.countUp.record kek (deriveKeyNonce K (m.keyModule.keyGenCounter + 1)))
      s.issue := by
  rw [KeyEpochs.State.issue_of_some (h.kek.symm.trans hkek)]
  have hcounter : m.keyModule.keyGenCounter + 1 = UInt64.ofNat (s.count + 1) := by
    rw [h.counter, UInt64.ofNat_add]
    rfl
  refine ⟨hkek, hcounter, ?_, h.drawn⟩
  show m.seals ++ _ = List.map _ (s.issued ++ _)
  rw [List.map_append, h.seals, hcounter]
  rfl

/-- An encryption issues a number. -/
theorem Refines.sealNext {ε : Type} (h : Refines K m s) {kek : Bytes32}
    (hkek : m.keyModule.instanceKek = some kek) (e : ε) (plaintext : Bytes) :
    Refines K (finalState (sealNext K e plaintext m)) s.issue := by
  rw [finalState_sealNext hkek]
  exact h.issue hkek

/-- Making a key issues a number, or fails before. -/
theorem Refines.keyFromSeed (h : Refines K m s) (calloc : Bool) (seed : Bytes32) :
    Refines K (finalState (keyFromSeed K calloc seed m)) s ∨
      Refines K (finalState (keyFromSeed K calloc seed m)) s.issue := by
  rw [Foretias.keyFromSeed, bind_of_ok (get_apply m)]
  by_cases hsome : m.keyModule.instanceKek.isSome = true
  swap
  · rw [bind_of_error (require_of_false hsome _ m)]
    exact .inl h
  obtain ⟨kek, hkek⟩ := Option.isSome_iff_exists.1 hsome
  rw [bind_of_ok (require_of_true hsome _ m)]
  cases calloc with
  | false =>
    rw [bind_of_error (require_of_false Bool.false_ne_true _ m)]
    exact .inl h
  | true =>
    rw [bind_of_ok (require_of_true rfl _ m)]
    rcases hpub : K.signSeedKeypair seed with - | pub
    · exact .inl h
    rw [bind_of_ok (ofOption_some_apply _ pub m)]
    have hsealed := h.sealNext hkek PUnit.unit seed.toList
    rcases hrun : Foretias.sealNext K PUnit.unit seed.toList m with ⟨r, m₁⟩ | ⟨e, m₁⟩
    · rw [hrun, finalState_ok] at hsealed
      rw [bind_of_ok hrun]
      exact .inr (hsealed.congr rfl rfl rfl)
    · rw [hrun, finalState_error] at hsealed
      rw [bind_of_error hrun]
      exact .inr hsealed

/-- An encryption issues a counter or does nothing, -/
theorem Refines.encrypt (h : Refines K m s) (plaintext : Option Bytes) (outputs : Bool) :
    Refines K (finalState (foretiasPrivkeyEncrypt K plaintext outputs m)) s ∨
      Refines K (finalState (foretiasPrivkeyEncrypt K plaintext outputs m)) s.issue := by
  rw [foretiasPrivkeyEncrypt]
  rcases plaintext with - | plaintext
  · exact .inl h
  rw [bind_of_ok (ofOption_some_apply _ plaintext m)]
  cases outputs with
  | false =>
    rw [bind_of_error (require_of_false Bool.false_ne_true _ m)]
    exact .inl h
  | true =>
    rw [bind_of_ok (require_of_true rfl _ m), bind_of_ok (get_apply m)]
    by_cases hsome : m.keyModule.instanceKek.isSome = true
    · obtain ⟨kek, hkek⟩ := Option.isSome_iff_exists.1 hsome
      rw [bind_of_ok (require_of_true hsome _ m)]
      exact .inr (h.sealNext hkek _ plaintext)
    · rw [bind_of_error (require_of_false hsome _ m)]
      exact .inl h

/-- and an initialisation starts a new epoch. -/
theorem Refines.init (h : Refines K m s) (kek : Bytes32) :
    Refines K (foretiasPrivkeyInit kek m) (s.start kek) := by
  rw [foretiasPrivkeyInit]
  rcases hkek : m.keyModule.instanceKek with - | kek'
  · rw [KeyEpochs.State.start_of_none (h.kek.symm.trans hkek)]
    refine ⟨rfl, rfl, h.seals, ?_⟩
    show m.drawn ++ [kek] = _
    rw [h.drawn]
  · rw [KeyEpochs.State.start_of_some (h.kek.symm.trans hkek)]
    exact h

/-- A decryption changes nothing. -/
theorem preserves_foretiasPrivkeyDecrypt (ciphertext : Option Bytes)
    (nonce : Option (FixedBytes 24)) (output : Bool) :
    Preserves id (foretiasPrivkeyDecrypt K ciphertext nonce output) :=
  .bind (.ofOption _ _) fun _ ↦ .bind (.ofOption _ _) fun _ ↦ .bind (.require _) fun _ ↦
    .bind .get fun _ ↦ .bind (.ofOption _ _) fun _ ↦ .bind (.require _) fun _ ↦ .ofOption _ _

/-- Every call performs one operation of the counter, or none. -/
theorem Refines.exec (h : Refines K m s) (c : KeyCall) :
    ∃ ops t, Run KeyEpochs.State.Step s ops t ∧ Refines K (c.exec K m) t := by
  have hissue : ∀ {m'}, Refines K m' s ∨ Refines K m' s.issue →
      ∃ ops t, Run KeyEpochs.State.Step s ops t ∧ Refines K m' t := by
    rintro m' (h' | h')
    · exact ⟨[], s, .nil s, h'⟩
    · exact ⟨[.issue], s.issue, .cons rfl (.nil _), h'⟩
  cases c with
  | init kek => exact ⟨[.start kek], s.start kek, .cons rfl (.nil _), h.init kek⟩
  | cleanup => exact ⟨[.stop], s.stop, .cons rfl (.nil _), rfl, rfl, h.seals, h.drawn⟩
  | generate calloc seed => exact hissue (h.keyFromSeed calloc seed)
  | fromSeed calloc seed =>
    rcases seed with - | seed
    · exact hissue (.inl h)
    · refine hissue ?_
      have hrun : foretiasPrivkeyEd25519FromSeed K calloc (some seed) m =
        Foretias.keyFromSeed K calloc seed m := bind_of_ok (ofOption_some_apply _ seed m)
      rw [KeyCall.exec, hrun]
      exact h.keyFromSeed calloc seed
  | encrypt plaintext outputs => exact hissue (h.encrypt plaintext outputs)
  | decrypt ciphertext nonce output =>
    have hsame : finalState (foretiasPrivkeyDecrypt K ciphertext nonce output m) = m :=
      preserves_foretiasPrivkeyDecrypt ciphertext nonce output m
    refine hissue (.inl ?_)
    rw [KeyCall.exec, hsame]
    exact h
  | free key =>
    refine hissue (.inl ?_)
    rcases key with - | key
    · exact h
    · exact h.congr rfl rfl rfl

/-- Every sequence of calls is one of operations of the counter. -/
theorem refines_of_calls {calls : List KeyCall} (hrun : Run (KeyStep K) .init calls m) :
    ∃ ops s, Run KeyEpochs.State.Step .init ops s ∧ Refines K m s := by
  refine Run.invariant (I := fun m ↦ ∃ ops s, Run KeyEpochs.State.Step .init ops s ∧ Refines K m s)
    ?_ hrun ⟨[], .init, .nil _, rfl, rfl, rfl, rfl⟩
  rintro m c _ ⟨ops, s, hops, hs⟩ rfl
  obtain ⟨ops', t, hops', ht⟩ := hs.exec c
  exact ⟨ops ++ ops', t, Run.append_iff.2 ⟨s, hops, hops'⟩, ht⟩

/-- No nonce is used twice under one instance key. -/
theorem nodup_seals {calls : List KeyCall} (hrun : Run (KeyStep K) .init calls m)
    (hderive : Function.Injective (deriveKeyNonce K)) (hfresh : m.drawn.Nodup)
    (hcount : m.seals.length < 2 ^ 64) : m.seals.Nodup := by
  obtain ⟨ops, s, hops, hs⟩ := refines_of_calls hrun
  have hsound := KeyEpochs.State.sound_of_run hops
  rw [hs.seals, List.length_map] at hcount
  rw [hs.seals]
  refine (KeyEpochs.State.nodup_issued hops (hs.drawn ▸ hfresh)).map_on ?_
  rintro ⟨k, n⟩ hn ⟨k', n'⟩ hn' heq
  obtain ⟨rfl, hnonce⟩ := Prod.mk.inj heq
  have hle := hsound.number_le k n hn
  have hle' := hsound.number_le k n' hn'
  have hnat : (UInt64.ofNat n).toNat = (UInt64.ofNat n').toNat := by rw [hderive hnonce]
  rw [UInt64.toNat_ofNat', UInt64.toNat_ofNat', Nat.mod_eq_of_lt (by omega),
    Nat.mod_eq_of_lt (by omega)] at hnat
  rw [hnat]

/-! ### What was encrypted -/

/-- Opening inverts sealing for the same key and nonce, and a ciphertext is its plaintext and a tag
long. -/
structure SecretboxInverts (K : KeySodium) : Prop where
  /-- What `crypto_secretbox_easy` seals, `crypto_secretbox_open_easy` opens. -/
  open_easy {plaintext ciphertext : Bytes} {nonce : FixedBytes 24} {kek : Bytes32} :
    K.secretboxEasy plaintext nonce kek = some ciphertext →
      K.secretboxOpenEasy ciphertext nonce kek = some plaintext
  /-- `crypto_secretbox_MACBYTES` is 16. -/
  length_eq {plaintext ciphertext : Bytes} {nonce : FixedBytes 24} {kek : Bytes32} :
    K.secretboxEasy plaintext nonce kek = some ciphertext →
      ciphertext.length = plaintext.length + 16

/-- The instance key opens it. -/
def Encrypted.OpensIn (K : KeySodium) (m : KeyMemory) : Encrypted → Prop
  | .seed h k => ∃ key kek, m.key h = some key ∧ m.keyModule.instanceKek = some kek ∧
      K.secretboxOpenEasy key.sealedSeed.encrypted.toList key.sealedSeed.nonce kek = some k.toList
  | .message nonce ciphertext plaintext => ∃ kek, m.keyModule.instanceKek = some kek ∧
      16 ≤ ciphertext.length ∧ K.secretboxOpenEasy ciphertext nonce kek = some plaintext

theorem KeyMemory.key_eq_some {h : ℕ} {key : ForetiasPrivKey} :
    m.key h = some key ↔ m.handles[h]? = some (some key) := Option.join_eq_some_iff

theorem KeyMemory.key_addKey_of_some {h : ℕ} {key : ForetiasPrivKey} (hkey : m.key h = some key)
    (key' : ForetiasPrivKey) : (m.addKey key').key h = some key := by
  rw [key_eq_some] at hkey ⊢
  have hlt := (List.getElem?_eq_some_iff.1 hkey).1
  show (m.handles ++ [some key'])[h]? = _
  rw [List.getElem?_append_left hlt, hkey]

theorem KeyMemory.key_addKey_length (key : ForetiasPrivKey) :
    (m.addKey key).key m.handles.length = some key :=
  key_eq_some.2 List.getElem?_concat_length

/-- A part of the memory that encryptions and new keys keep. -/
structure KeyInvariant (I : KeyMemory → Prop) : Prop where
  /-- The counter moves on. -/
  countUp {m : KeyMemory} : I m → I m.countUp
  /-- An encryption. -/
  record {m : KeyMemory} (kek : Bytes32) (nonce : FixedBytes 24) : I m → I (m.record kek nonce)
  /-- A new key. -/
  addKey {m : KeyMemory} (key : ForetiasPrivKey) : I m → I (m.addKey key)

namespace KeyInvariant

variable {I : KeyMemory → Prop} (hI : KeyInvariant I)

include hI

theorem sealNext {ε : Type} (e : ε) (plaintext : Bytes) : Maintains I (sealNext K e plaintext) :=
  .bind (.modify fun _ ↦ hI.countUp) fun _ ↦ .bind .get fun _ ↦ .bind (.ofOption _ _) fun kek ↦
    .bind (.modify fun _ ↦ hI.record kek _) fun _ ↦ .bind (.ofOption _ _) fun _ ↦ .pure _

theorem keyFromSeed (calloc : Bool) (seed : Bytes32) : Maintains I (keyFromSeed K calloc seed) :=
  .bind .get fun _ ↦ .bind (.require _) fun _ ↦ .bind (.require _) fun _ ↦
    .bind (.ofOption _ _) fun _ ↦ .bind (hI.sealNext _ _) fun _ ↦
    .bind (.modify fun _ ↦ hI.addKey _) fun _ ↦ .pure _

theorem encrypt (plaintext : Option Bytes) (outputs : Bool) :
    Maintains I (foretiasPrivkeyEncrypt K plaintext outputs) :=
  .bind (.ofOption _ _) fun _ ↦ .bind (.require _) fun _ ↦ .bind .get fun _ ↦
    .bind (.require _) fun _ ↦ hI.sealNext _ _

end KeyInvariant

/-- What the instance key opens, it opens after encryptions and new keys. -/
theorem keyInvariant_opensIn (x : Encrypted) : KeyInvariant (x.OpensIn K) := by
  cases x with
  | seed h k =>
    refine ⟨fun hm ↦ hm, fun _ _ hm ↦ hm, fun key' hm ↦ ?_⟩
    obtain ⟨key, kek, hkey, hopen⟩ := hm
    exact ⟨key, kek, KeyMemory.key_addKey_of_some hkey key', hopen⟩
  | message nonce ciphertext plaintext => exact ⟨fun hm ↦ hm, fun _ _ hm ↦ hm, fun _ hm ↦ hm⟩

namespace Encrypted

variable {x : Encrypted}

theorem OpensIn.isSome_kek (h : x.OpensIn K m) : m.keyModule.instanceKek.isSome = true := by
  cases x with
  | seed =>
    obtain ⟨_, kek, _, hkek, _⟩ := h
    rw [hkek]
    rfl
  | message =>
    obtain ⟨kek, hkek, _⟩ := h
    rw [hkek]
    rfl

/-- The calls that do not drop the key or free the handle keep it. -/
theorem OpensIn.exec (h : x.OpensIn K m) {c : KeyCall} (hc : x.KeptBy [c]) :
    x.OpensIn K (c.exec K m) := by
  have hI := keyInvariant_opensIn (K := K) x
  cases c with
  | init kek =>
    rw [KeyCall.exec, foretiasPrivkeyInit, if_pos h.isSome_kek]
    exact h
  | cleanup =>
    cases x with
    | seed => exact absurd (List.mem_singleton_self _) hc.1
    | message => exact absurd (List.mem_singleton_self _) hc
  | generate calloc seed => exact hI.keyFromSeed calloc seed m h
  | fromSeed calloc seed =>
    exact Maintains.bind (.ofOption _ _) (fun seed ↦ hI.keyFromSeed calloc seed) m h
  | encrypt plaintext outputs => exact hI.encrypt plaintext outputs m h
  | decrypt ciphertext nonce output =>
    have hsame : finalState (foretiasPrivkeyDecrypt K ciphertext nonce output m) = m :=
      preserves_foretiasPrivkeyDecrypt ciphertext nonce output m
    rw [KeyCall.exec, hsame]
    exact h
  | free key =>
    rcases key with - | h'
    · exact h
    cases x with
    | seed i k =>
      obtain ⟨key, kek, hkey, hopen⟩ := h
      have hne : h' ≠ i := fun heq ↦ hc.2 (heq ▸ List.mem_singleton_self _)
      refine ⟨key, kek, KeyMemory.key_eq_some.2 ?_, hopen⟩
      show (m.handles.set h' none)[i]? = _
      rw [List.getElem?_set_ne hne]
      exact KeyMemory.key_eq_some.1 hkey
    | message => exact h

/-- What is opened decrypts. -/
theorem OpensIn.decryptsIn (h : x.OpensIn K m) : x.DecryptsIn K m := by
  cases x with
  | seed i k =>
    obtain ⟨key, kek, hkey, hkek, hopen⟩ := h
    have hseed : decryptSeed K m key.sealedSeed = some k := by
      rw [decryptSeed, hkek]
      show (K.secretboxOpenEasy _ _ kek).bind _ = _
      rw [hopen]
      exact congrArg some (FixedBytes.read_toList k)
    rw [DecryptsIn, foretiasPrivkeyEd25519GetSeed, bind_of_ok (ofOption_some_apply _ i m),
      bind_of_ok (get_apply m), hkey, bind_of_ok (ofOption_some_apply _ key m), hseed]
    rfl
  | message nonce ciphertext plaintext =>
    obtain ⟨kek, hkek, hlen, hopen⟩ := h
    rw [DecryptsIn, foretiasPrivkeyDecrypt, bind_of_ok (ofOption_some_apply _ ciphertext m),
      bind_of_ok (ofOption_some_apply _ nonce m), bind_of_ok (require_of_true rfl _ m),
      bind_of_ok (get_apply m), hkek, bind_of_ok (ofOption_some_apply _ kek m),
      bind_of_ok (require_of_true hlen _ m), hopen]
    rfl

end Encrypted

/-- An encryption that succeeds was made under the instance key. -/
theorem exists_of_sealNext_eq_ok {ε : Type} {e : ε} {plaintext ciphertext : Bytes}
    {nonce : FixedBytes 24} (h : sealNext K e plaintext m = .ok (nonce, ciphertext) m') :
    ∃ kek, m'.keyModule.instanceKek = some kek ∧
      K.secretboxEasy plaintext nonce kek = some ciphertext ∧ m'.handles = m.handles := by
  rw [sealNext, modify_bind_eq_ok, get_bind_eq_ok] at h
  obtain ⟨kek, hkek, h⟩ := ofOption_bind_eq_ok.1 h
  rw [modify_bind_eq_ok] at h
  obtain ⟨c, hseal, h⟩ := ofOption_bind_eq_ok.1 h
  obtain ⟨hpair, rfl⟩ := pure_eq_ok.1 h
  obtain ⟨rfl, rfl⟩ := Prod.mk.inj hpair
  exact ⟨kek, hkek, hseal, rfl⟩

/-- A ciphertext is of its plaintext, under the instance key. -/
theorem exists_of_encrypt_eq_ok {plaintext ciphertext : Bytes} {outputs : Bool}
    {nonce : FixedBytes 24}
    (h : foretiasPrivkeyEncrypt K (some plaintext) outputs m = .ok (nonce, ciphertext) m') :
    ∃ kek, m'.keyModule.instanceKek = some kek ∧
      K.secretboxEasy plaintext nonce kek = some ciphertext := by
  obtain ⟨_, hsame, hsealed⟩ := ofOption_bind_eq_ok.1 h
  obtain rfl := Option.some.inj hsame
  rw [require_bind_eq_ok, get_bind_eq_ok, require_bind_eq_ok] at hsealed
  obtain ⟨kek, hkek, hseal, -⟩ := exists_of_sealNext_eq_ok hsealed.2.2
  exact ⟨kek, hkek, hseal⟩

/-- The seed of a new key opens. -/
theorem opensIn_of_keyFromSeed (hK : SecretboxInverts K) {calloc : Bool} {seed : Bytes32} {h : ℕ}
    (hrun : keyFromSeed K calloc seed m = .ok h m') : (Encrypted.seed h seed).OpensIn K m' := by
  rw [keyFromSeed, get_bind_eq_ok, require_bind_eq_ok, require_bind_eq_ok] at hrun
  obtain ⟨-, -, hrun⟩ := hrun
  obtain ⟨pub, -, hrun⟩ := ofOption_bind_eq_ok.1 hrun
  obtain ⟨⟨nonce, encrypted⟩, m₁, hsealed, hrun⟩ := bind_eq_ok.1 hrun
  obtain ⟨kek, hkek, hseal, hhandles⟩ := exists_of_sealNext_eq_ok hsealed
  rw [modify_bind_eq_ok] at hrun
  obtain ⟨rfl, rfl⟩ := pure_eq_ok.1 hrun
  refine ⟨_, kek, hhandles ▸ KeyMemory.key_addKey_length _, hkek, ?_⟩
  have hlength : encrypted.length = 48 := by rw [hK.length_eq hseal, seed.length_eq]
  show K.secretboxOpenEasy (FixedBytes.read 48 encrypted).toList nonce kek = _
  rw [FixedBytes.toList_read hlength]
  exact hK.open_easy hseal

/-- What a call encrypts, the instance key opens after it. -/
theorem KeyCall.Encrypts.opensIn (hK : SecretboxInverts K) {c : KeyCall} {x : Encrypted}
    (h : c.Encrypts K m x) : x.OpensIn K (c.exec K m) := by
  cases h with
  | generate hrun =>
    rw [exec, hrun]
    exact opensIn_of_keyFromSeed hK hrun
  | @fromSeed calloc seed i m' hrun =>
    rw [exec, hrun]
    have hsame : foretiasPrivkeyEd25519FromSeed K calloc (some seed) m =
      keyFromSeed K calloc seed m := bind_of_ok (ofOption_some_apply _ seed m)
    exact opensIn_of_keyFromSeed hK (hsame.symm.trans hrun)
  | @message plaintext ciphertext outputs nonce m' hrun =>
    rw [exec, hrun]
    obtain ⟨kek, hkek, hseal⟩ := exists_of_encrypt_eq_ok hrun
    have hlength := hK.length_eq hseal
    exact ⟨kek, hkek, by omega, hK.open_easy hseal⟩

/-- What later calls keep, the first of them keeps. -/
theorem Encrypted.KeptBy.of_cons {x : Encrypted} {c : KeyCall} {calls : List KeyCall}
    (h : x.KeptBy (c :: calls)) : x.KeptBy [c] ∧ x.KeptBy calls := by
  cases x with
  | seed i k =>
    obtain ⟨hcleanup, hfree⟩ := h
    rw [List.mem_cons, not_or] at hcleanup hfree
    exact ⟨⟨fun hmem ↦ hcleanup.1 (List.mem_singleton.1 hmem),
      fun hmem ↦ hfree.1 (List.mem_singleton.1 hmem)⟩, hcleanup.2, hfree.2⟩
  | message nonce ciphertext plaintext =>
    obtain ⟨hc, hcalls⟩ := not_or.1 (fun hmem ↦ h (List.mem_cons.2 hmem))
    exact ⟨fun hmem ↦ hc (List.mem_singleton.1 hmem), hcalls⟩

/-- It stays so over calls that keep it. -/
theorem Encrypted.OpensIn.of_run {x : Encrypted} {calls : List KeyCall} (h : x.OpensIn K m)
    (hkept : x.KeptBy calls) (hrun : Run (KeyStep K) m calls m') : x.OpensIn K m' := by
  induction calls generalizing m with
  | nil => exact Run.nil_iff.1 hrun ▸ h
  | cons c calls ih =>
    obtain ⟨_, rfl, hrun⟩ := Run.cons_iff.1 hrun
    exact ih (h.exec hkept.of_cons.1) hkept.of_cons.2 hrun

/-- In every sequence of calls of a process, no two encryptions under one instance key use the same
nonce, and whatever one of the calls encrypted, without a cleanup since or its handle freed,
decrypts to what it was made from. -/
theorem key_encryption_discipline (hderive : Function.Injective (deriveKeyNonce K))
    (hK : SecretboxInverts K) {calls : List KeyCall} (hrun : Run (KeyStep K) .init calls m)
    (hfresh : m.drawn.Nodup) (hcount : m.seals.length < 2 ^ 64) :
    m.seals.Nodup ∧
      ∀ pre c post x u, calls = pre ++ c :: post → Run (KeyStep K) .init pre u →
        c.Encrypts K u x → x.KeptBy post → x.DecryptsIn K m := by
  refine ⟨nodup_seals hrun hderive hfresh hcount, ?_⟩
  rintro pre c post x u rfl hpre hencrypts hkept
  obtain ⟨u', hpre', hpost⟩ := Run.append_iff.1 hrun
  obtain rfl := Run.unique (fun h h' ↦ h.symm.trans h') hpre hpre'
  obtain ⟨_, rfl, hpost⟩ := Run.cons_iff.1 hpost
  exact ((hencrypts.opensIn hK).of_run hkept hpost).decryptsIn

/-- Functions that satisfy the assumptions and can be evaluated: a hash that copies, and a zero tag
for encryption. -/
def KeySodium.transparent : KeySodium where
  sha256 msg := .read 32 msg
  signSeedKeypair seed := some seed
  secretboxEasy plaintext _ _ := some (plaintext ++ List.replicate 16 0)
  secretboxOpenEasy ciphertext _ _ := some (ciphertext.take (ciphertext.length - 16))

theorem injective_deriveKeyNonce_transparent :
    Function.Injective (deriveKeyNonce .transparent) := by
  intro a b h
  have htake : ∀ c, (deriveKeyNonce .transparent c).toList.take 8 = u64Le c := fun _ ↦ rfl
  exact u64Le_injective (by rw [← htake, ← htake, h])

theorem secretboxInverts_transparent : SecretboxInverts .transparent where
  open_easy h := by
    obtain rfl := Option.some.inj h
    show some (List.take _ _) = _
    rw [List.length_append, List.length_replicate, Nat.add_sub_cancel, List.take_left']
    rfl
  length_eq h := by
    obtain rfl := Option.some.inj h
    rw [List.length_append, List.length_replicate]

/-- Two encryptions, a cleanup, and one more under another instance key. -/
def callsWithCleanup : List KeyCall :=
  [.init (.replicate 32 1), .fromSeed true (some (.replicate 32 7)), .encrypt (some [1, 2]) true,
    .cleanup, .init (.replicate 32 2), .generate true (.replicate 32 8)]

theorem key_encryption_discipline_withCleanup :
    ∃ m, Run (KeyStep .transparent) .init callsWithCleanup m ∧ m.seals.length = 3 ∧
      m.seals.Nodup ∧
      ∀ pre c post x u, callsWithCleanup = pre ++ c :: post →
        Run (KeyStep .transparent) .init pre u → c.Encrypts .transparent u x → x.KeptBy post →
          x.DecryptsIn .transparent m := by
  have hrun : Run (KeyStep .transparent) .init callsWithCleanup
      (callsWithCleanup.foldl (fun m c ↦ c.exec .transparent m) .init) :=
    .cons rfl (.cons rfl (.cons rfl (.cons rfl (.cons rfl (.cons rfl (.nil _))))))
  exact ⟨_, hrun, by decide +kernel,
    key_encryption_discipline injective_deriveKeyNonce_transparent secretboxInverts_transparent hrun
      (by decide +kernel) (by decide +kernel)⟩

end Foretias

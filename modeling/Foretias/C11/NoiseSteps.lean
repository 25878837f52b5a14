import Foretias.C11.NoiseCalls

/-!
# Handshake steps that succeed

A `Party` is what a session takes from its initialisation: an instance key, a static scalar and
its public key. `Handshaking` is what every call of the handshake relies on and keeps until the
handshake completes. The lemmas here say what the blocks of a step compute when they succeed;
under an initialised key module the sealing of secrets always does.
-/

namespace Foretias

open ErrorState

/-- The keys a session is initialised with. -/
structure Party (C : Sodium) where
  /-- The instance key of its process. -/
  kek : Bytes32
  /-- The static scalar. -/
  scalar : Bytes32
  /-- The static public key. -/
  pub : Bytes32
  /-- They belong together. -/
  base : C.scalarmultBase scalar = some pub

variable {C : Sodium}

/-- The handshake of the party `A` is about to make its call `n`. -/
structure Handshaking (A : Party C) (isInitiator : Bool) (n : ℕ) (s : Session) : Prop where
  /-- The key module is that of the initialisation. -/
  kek : s.keyModule.instanceKek = some A.kek
  /-- The handshake goes on. -/
  incomplete : s.handshakeComplete = false
  /-- The role. -/
  role : s.isInitiator = isInitiator
  /-- The position. -/
  step : s.step = n
  /-- The static scalar is sealed. -/
  static : s.secret C .localStatic = some A.scalar
  /-- The static public key. -/
  pub : s.localStaticPub = A.pub

/-- A call that finds the same instance key finds the same secrets. -/
theorem Session.secret_under {s : Session} {M : PrivkeyModule}
    (hM : M.instanceKek = s.keyModule.instanceKek) (f : SecretField) :
    (s.under M).secret C f = s.secret C f := by
  show M.instanceKek.bind _ = _
  rw [hM]
  rfl

/-- `foretias_noise_step` goes to the case of its role and position. -/
theorem foretiasNoiseStep_of_handshaking {A : Party C} {isInitiator : Bool} {n : ℕ} {ck : Bytes32}
    {s : Session} (hs : Handshaking A isInitiator n s) (hck : s.secret C .chainingKey = some ck)
    (random : Bytes32) (input : Option Bytes) (output : Option ℕ) :
    foretiasNoiseStep C random input output s =
      handshakeCase C isInitiator n random input output ck s.handshakeHash s := by
  rw [foretiasNoiseStep, bind_of_ok (get_apply s), bind_of_ok (require_of_true hs.incomplete _ s),
    bind_of_ok (nhDecryptKey_eq_ok.2 ⟨hck, rfl⟩), hs.role, hs.step]

/-! ### Inputs and outputs -/

theorem requireInput_eq_ok {input : Option Bytes} {n : ℕ} {bs : Bytes} {s t : Session} :
    requireInput input n s = .ok bs t ↔ input = some bs ∧ n ≤ bs.length ∧ t = s := by
  simp only [requireInput, bind_eq_ok, ofOption_eq_ok, require_eq_ok, pure_eq_ok]
  constructor
  · rintro ⟨_, _, ⟨rfl, rfl⟩, _, _, ⟨hn, rfl⟩, rfl, rfl⟩
    exact ⟨rfl, hn, rfl⟩
  · rintro ⟨rfl, hn, rfl⟩
    exact ⟨bs, t, ⟨rfl, rfl⟩, ⟨⟩, t, ⟨hn, rfl⟩, rfl, rfl⟩

theorem requireOutput_eq_ok {output : Option ℕ} {n : ℕ} {u : PUnit} {s t : Session} :
    requireOutput output n s = .ok u t ↔ (∃ room, output = some room ∧ n ≤ room) ∧ t = s := by
  simp only [requireOutput, bind_eq_ok, ofOption_eq_ok, require_eq_ok]
  constructor
  · rintro ⟨room, _, ⟨rfl, rfl⟩, hn, rfl⟩
    exact ⟨⟨room, rfl, hn⟩, rfl⟩
  · rintro ⟨⟨room, rfl, hn⟩, rfl⟩
    exact ⟨room, t, ⟨rfl, rfl⟩, hn, rfl⟩

theorem requireOutput_some {room n : ℕ} (h : n ≤ room) (s : Session) :
    requireOutput (some room) n s = .ok ⟨⟩ s := requireOutput_eq_ok.2 ⟨⟨room, rfl, h⟩, rfl⟩

theorem orThrow_nhEh {h k : Bytes32} {pt : Bytes} {s : Session} (ct : Bytes)
    (hn : s.sendNonce ≠ uint64Max)
    (hct : C.aeadEncrypt k (nhNonce s.sendNonce) h.toList pt = some ct) (e : ForetiasResult) :
    orThrow (nhEh C h k pt) e s =
      .ok (ct, nhMixHash C h ct) (s.countSend (.encrypt k (nhNonce s.sendNonce) h.toList pt ct)) :=
  orThrow_of_ok (nhEh_eq_ok.2 ⟨nhAeEnc_eq_ok.2 ⟨hn, hct, rfl⟩, rfl⟩) e

theorem orThrow_nhDecHash {h k : Bytes32} {ct : Bytes} {s : Session} (pt : Bytes)
    (hn : s.recvNonce ≠ uint64Max)
    (hpt : C.aeadDecrypt k (nhNonce s.recvNonce) h.toList ct = some pt) (e : ForetiasResult) :
    orThrow (nhDecHash C h k ct) e s =
      .ok (pt, nhMixHash C h ct) (s.countRecv (.decrypt k (nhNonce s.recvNonce) h.toList ct pt)) :=
  orThrow_of_ok (nhDecHash_eq_ok.2 ⟨nhAeDec_eq_ok.2 ⟨hn, hpt, rfl⟩, rfl⟩) e

/-- A message that ends with the encrypted static key has no payload to read. -/
theorem readPayload_nil (h k : Bytes32) (s : Session) :
    readPayload C h k [] s = .ok h s := rfl

/-! ### Storing keys -/

/-- A secret that was sealed is sealed under the instance key. -/
theorem exists_store_of_nhEncryptKey (hC : SecretboxCorrect C) {f : SecretField} {k : Bytes32}
    {s t : Session} {u : PUnit} (h : nhEncryptKey C f k s = .ok u t) :
    ∃ kek a, s.keyModule.instanceKek = some kek ∧ t = s.store f a ∧ t.secret C f = some k := by
  cases hkek : s.keyModule.instanceKek with
  | none =>
    rw [nhEncryptKey, bind_of_ok (get_apply s), hkek] at h
    cases h
  | some kek =>
    obtain ⟨a, ha, hopen⟩ := nhEncryptKey_of_kek hC hkek f k
    rw [ha] at h
    cases h
    exact ⟨kek, a, rfl, rfl, hopen⟩

namespace Session

/-- The session with a fresh ephemeral key, before its private half is sealed. -/
def withEphemeral (s : Session) (e epub : Bytes32) : Session :=
  { s with localEphemeral := epub, calls := s.calls ++ [.randombytes e] }

/-- The session after `storeHandshakeKeys`, with the two sealed keys. -/
def handshakeStored (s : Session) (a b : SealedKey) (h : Bytes32) : Session :=
  { (s.store .sendKey a).store .chainingKey b with handshakeHash := h, step := 2 }

/-- The session after `storeTransportKeys`, with the three sealed keys. -/
def transportStored (s : Session) (a b c : SealedKey) (h : Bytes32) : Session :=
  { ((s.store .sendKey a).store .recvKey b).store .chainingKey c with
    handshakeHash := h
    step := 3
    handshakeComplete := true }

theorem secret_handshakeStored {s : Session} {a b : SealedKey} {h : Bytes32} {f : SecretField}
    (hsend : f ≠ .sendKey) (hck : f ≠ .chainingKey) :
    (s.handshakeStored a b h).secret C f = s.secret C f := by
  show ((s.store .sendKey a).store .chainingKey b).secret C f = _
  rw [secret_store_of_ne hck, secret_store_of_ne hsend]

end Session

section Store

variable (hC : SecretboxCorrect C) {s : Session} (kek : Bytes32)
  (hkek : s.keyModule.instanceKek = some kek)

include hC hkek

theorem generateEphemeral_of_kek {e epub : Bytes32} (hbase : C.scalarmultBase e = some epub)
    (f : SecretField) :
    ∃ a, generateEphemeral C f e s = .ok epub ((s.withEphemeral e epub).store f a) ∧
      ((s.withEphemeral e epub).store f a).secret C f = some e := by
  obtain ⟨a, ha, hopen⟩ := nhEncryptKey_of_kek hC (s := s.withEphemeral e epub) hkek f e
  refine ⟨a, ?_, hopen⟩
  rw [generateEphemeral, bind_of_ok (modify_apply _ s), bind_of_ok (ofOption_eq_ok.2 ⟨hbase, rfl⟩),
    bind_of_ok (modify_apply _ _)]
  exact bind_of_ok ha

theorem storeHandshakeKeys_of_kek (k ck h : Bytes32) :
    Returns (storeHandshakeKeys C k ck h) s ⟨⟩ fun t ↦ ∃ a b, t = s.handshakeStored a b h ∧
      t.secret C .sendKey = some k ∧ t.secret C .chainingKey = some ck := by
  obtain ⟨a, ha, hsend⟩ := nhEncryptKey_of_kek hC hkek .sendKey k
  obtain ⟨b, hb, hck⟩ := nhEncryptKey_of_kek hC (s := s.store .sendKey a) hkek .chainingKey ck
  refine .bind ha (.bind hb (.of_ok (modify_apply _ _) ⟨a, b, rfl, ?_, hck⟩))
  exact (Session.secret_store_of_ne (by decide)).trans hsend

theorem storeTransportKeys_of_kek (sk rk ck h : Bytes32) :
    Returns (storeTransportKeys C sk rk ck h) s ⟨⟩ fun t ↦ ∃ a b c, t = s.transportStored a b c h ∧
      t.secret C .sendKey = some sk ∧ t.secret C .recvKey = some rk := by
  obtain ⟨a, ha, hsend⟩ := nhEncryptKey_of_kek hC hkek .sendKey sk
  obtain ⟨b, hb, hrecv⟩ := nhEncryptKey_of_kek hC (s := s.store .sendKey a) hkek .recvKey rk
  obtain ⟨c, hc, -⟩ := nhEncryptKey_of_kek hC (s := (s.store .sendKey a).store .recvKey b) hkek
    .chainingKey ck
  refine .bind ha (.bind hb (.bind hc (.of_ok (modify_apply _ _) ⟨a, b, c, rfl, ?_, ?_⟩)))
  · show (((s.store .sendKey a).store .recvKey b).store .chainingKey c).secret C .sendKey = _
    rw [Session.secret_store_of_ne (by decide), Session.secret_store_of_ne (by decide), hsend]
  · show (((s.store .sendKey a).store .recvKey b).store .chainingKey c).secret C .recvKey = _
    rw [Session.secret_store_of_ne (by decide), hrecv]

end Store

end Foretias

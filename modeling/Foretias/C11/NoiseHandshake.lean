import Foretias.C11.NoiseSteps

/-!
# An undisturbed Noise XX handshake

The two sides of a handshake are two state machines that mix the same values in the same order:
the hashes of the messages so far, and three key agreements (`Agreements`), each computed by one
side from its own scalar and the other's point and by the other the other way round. The six
lemmas on single calls say what each side computes on the other's message; `exchange` puts them
together.
-/

namespace Foretias

open ErrorState

variable (C : Sodium)

/-! ### Assumptions on libsodium -/

/-- Key agreement: every scalar has a public key, two parties with each other's public keys agree,
and the zero point is refused. -/
structure KeyAgreementCorrect : Prop where
  /-- `crypto_scalarmult_base` succeeds. -/
  exists_base (n : Bytes32) : ∃ p, C.scalarmultBase n = some p
  /-- `crypto_scalarmult` succeeds on a public key. -/
  exists_scalarmult {n q : Bytes32} (m : Bytes32) (hq : C.scalarmultBase n = some q) :
    ∃ dh, C.scalarmult m q = some dh
  /-- Diffie-Hellman commutes. -/
  comm {m n p q : Bytes32} (hp : C.scalarmultBase m = some p) (hq : C.scalarmultBase n = some q) :
    C.scalarmult m q = C.scalarmult n p
  /-- `crypto_scalarmult` refuses the zero point. -/
  scalarmult_zero (n : Bytes32) : C.scalarmult n (.replicate 32 0) = none

/-- Authenticated encryption: encryption succeeds, adds a tag, and is inverted by decryption. -/
structure AeadCorrect : Prop where
  /-- Encryption succeeds. -/
  exists_ciphertext (k : Bytes32) (nonce ad pt : Bytes) :
    ∃ ct, C.aeadEncrypt k nonce ad pt = some ct
  /-- A ciphertext is longer than its plaintext by a tag. -/
  length_eq {k : Bytes32} {nonce ad pt ct : Bytes} (h : C.aeadEncrypt k nonce ad pt = some ct) :
    ct.length = pt.length + nhT
  /-- Decryption inverts encryption. -/
  decrypt {k : Bytes32} {nonce ad pt ct : Bytes} (h : C.aeadEncrypt k nonce ad pt = some ct) :
    C.aeadDecrypt k nonce ad ct = some pt

theorem headByte_replicate (b : UInt8) : headByte (.replicate 32 b) = b := rfl

theorem or_one_ne_zero (b : UInt8) : b ||| 1 ≠ 0 := by
  intro h
  have hbit := congrArg (fun b ↦ b.toNat.testBit 0) h
  simp at hbit

theorem keyAgreementCorrect_transparent : KeyAgreementCorrect .transparent where
  exists_base n := ⟨_, rfl⟩
  exists_scalarmult m hq := by
    obtain rfl := Option.some_inj.1 hq
    exact ⟨_, if_neg (or_one_ne_zero _)⟩
  comm {m n p q} hp hq := by
    obtain rfl := Option.some_inj.1 hp
    obtain rfl := Option.some_inj.1 hq
    show (if _ then _ else _) = if _ then _ else _
    rw [headByte_replicate, headByte_replicate, if_neg (or_one_ne_zero _),
      if_neg (or_one_ne_zero _), UInt8.mul_comm]
  scalarmult_zero n := rfl

theorem aeadCorrect_transparent : AeadCorrect .transparent where
  exists_ciphertext k nonce ad pt := ⟨_, rfl⟩
  length_eq h := by
    obtain rfl := Option.some_inj.1 h
    rw [List.length_append, FixedBytes.length_toList]
    rfl
  decrypt {k nonce ad pt ct} h := by
    obtain rfl := Option.some_inj.1 h
    have htake : (pt ++ (checksumTag k nonce ad pt).toList).take
        ((pt ++ (checksumTag k nonce ad pt).toList).length - 16) = pt := by
      rw [List.length_append, FixedBytes.length_toList, Nat.add_sub_cancel, List.take_left]
    show (if _ = _ ++ _ then _ else _) = _
    rw [htake, if_pos rfl]

/-! ### The key schedule -/

/-- The results of the three key agreements of a handshake. -/
structure Agreements where
  /-- Of the two ephemeral keys. -/
  ee : Bytes32
  /-- Of the initiator's ephemeral and the responder's static key. -/
  es : Bytes32
  /-- Of the initiator's static and the responder's ephemeral key. -/
  se : Bytes32

namespace Agreements

variable (d : Agreements)

/-- The chaining key and the cipher key after the first agreement. -/
def afterEe : Bytes32 × Bytes32 := nhMixKey C (protocolHash C) d.ee

/-- After the second. -/
def afterEs : Bytes32 × Bytes32 := nhMixKey C (d.afterEe C).1 d.es

/-- After the third. -/
def afterSe : Bytes32 × Bytes32 := nhMixKey C (d.afterEs C).1 d.se

/-- The keys of the initiator's and of the responder's transport messages. -/
def transport : Bytes32 × Bytes32 := nhSplit C (d.afterSe C).1

end Agreements

variable {C}

/-- The handshake of `A` before its call `n`, with its hash and its counters. -/
structure Progress (A : Party C) (isInitiator : Bool) (n : ℕ) (h : Bytes32)
    (sendNonce recvNonce : UInt64) (s : Session) : Prop extends Handshaking A isInitiator n s where
  /-- The hash. -/
  hash : s.handshakeHash = h
  /-- The send counter. -/
  send : s.sendNonce = sendNonce
  /-- The receive counter. -/
  recv : s.recvNonce = recvNonce

namespace Progress

variable {A : Party C} {isInitiator : Bool} {n : ℕ} {h : Bytes32} {sendNonce recvNonce : UInt64}
  {s : Session}

/-- A call finds the session as the last one left it when the instance key is the same. -/
theorem under (hs : Progress A isInitiator n h sendNonce recvNonce s) {M : PrivkeyModule}
    (hM : M.instanceKek = some A.kek) :
    Progress A isInitiator n h sendNonce recvNonce (s.under M) where
  kek := hM
  incomplete := hs.incomplete
  role := hs.role
  step := hs.step
  static := (Session.secret_under (hM.trans hs.kek.symm) _).trans hs.static
  pub := hs.pub
  hash := hs.hash
  send := hs.send
  recv := hs.recv

end Progress

/-! ### Initialisation -/

/-- A zeroed session initialised from a seed is before its first call. -/
theorem exists_party_of_initFromSeed (hC : SecretboxCorrect C) {seed : Bytes32}
    {theirStaticPub : Option Bytes32} {isInitiator : Bool} {M : PrivkeyModule} {s : Session}
    (h : initFromSeed C seed theirStaticPub isInitiator ⟨.zeroed, M, []⟩ = .ok ⟨⟩ s) :
    ∃ A : Party C, Progress A isInitiator 0 (protocolHash C) 0 0 s ∧
      s.secret C .chainingKey = some (protocolHash C) ∧ s.calls = [] := by
  simp only [initFromSeed, bind_eq_ok, ofOption_eq_ok, modify_eq_ok] at h
  obtain ⟨epub, _, ⟨hbase, rfl⟩, _, _, hstatic, _, _, rfl, _, _, hchaining, rfl⟩ := h
  obtain ⟨kek, a, hkek, rfl, hstatic⟩ := exists_store_of_nhEncryptKey hC hstatic
  obtain ⟨_, b, -, rfl, hchaining⟩ := exists_store_of_nhEncryptKey hC hchaining
  refine ⟨⟨kek, staticScalar C seed, epub, hbase⟩, ?_, hchaining, rfl⟩
  exact ⟨⟨hkek, rfl, rfl, rfl, (Session.secret_store_of_ne (by decide)).trans hstatic, rfl⟩,
    rfl, rfl, rfl⟩

theorem exists_party_of_init (hC : SecretboxCorrect C) {init : NoiseInit}
    {theirStaticPub : Option Bytes32} {isInitiator : Bool} {memory s : Session}
    (h : init.run C theirStaticPub isInitiator memory = .ok ⟨⟩ s) :
    ∃ A : Party C, Progress A isInitiator 0 (protocolHash C) 0 0 s ∧
      s.secret C .chainingKey = some (protocolHash C) ∧ s.calls = [] := by
  cases init with
  | ed25519 seed =>
    obtain ⟨_, _, hzero, h⟩ := bind_eq_ok.1 h
    cases hzero
    exact exists_party_of_initFromSeed hC h
  | withHandle handle =>
    obtain ⟨_, _, hzero, h⟩ := bind_eq_ok.1 h
    cases hzero
    simp only [bind_eq_ok, get_eq_ok, ofOption_eq_ok] at h
    obtain ⟨_, _, ⟨rfl, rfl⟩, kek, _, ⟨-, rfl⟩, seed, _, ⟨-, rfl⟩, h⟩ := h
    exact exists_party_of_initFromSeed hC h

/-- The session of `A` once its handshake has completed. -/
structure Established (A : Party C) (h : Bytes32) (sendNonce recvNonce : UInt64)
    (sendKey recvKey remoteStatic : Bytes32) (s : Session) : Prop where
  /-- The key module is that of the initialisation. -/
  kek : s.keyModule.instanceKek = some A.kek
  /-- The handshake is complete. -/
  complete : s.handshakeComplete = true
  /-- The hash. -/
  hash : s.handshakeHash = h
  /-- The send counter. -/
  send : s.sendNonce = sendNonce
  /-- The receive counter. -/
  recv : s.recvNonce = recvNonce
  /-- The key of the messages sent. -/
  sendKey : s.secret C .sendKey = some sendKey
  /-- The key of the messages received. -/
  recvKey : s.secret C .recvKey = some recvKey
  /-- The peer. -/
  remoteStatic : s.remoteStatic = remoteStatic

/-! ### The six calls -/

section Calls

variable (hC : SecretboxCorrect C) {A : Party C} {h ck : Bytes32} {n m : UInt64} {s : Session}

include hC

theorem initiator_writeFirst (hs : Progress A true 0 h n m s)
    (hck : s.secret C .chainingKey = some ck) {e epub : Bytes32}
    (hbase : C.scalarmultBase e = some epub) (input : Option Bytes) {room : ℕ}
    (hroom : nhD ≤ room) :
    Returns (foretiasNoiseStep C e input (some room)) s (some epub.toList) fun t ↦
      Progress A true 1 (nhMixHash C h epub.toList) n m t ∧
        t.secret C .chainingKey = some ck ∧ t.secret C .sendKey = some e := by
  obtain ⟨a, hgen, hsend⟩ := generateEphemeral_of_kek hC A.kek hs.kek hbase .sendKey
  refine .congr (foretiasNoiseStep_of_handshaking hs.toHandshaking hck _ _ _) ?_
  rw [hs.hash]
  refine .bind (requireOutput_some hroom s) (.bind hgen (.of_ok rfl ⟨?_, ?_, hsend⟩))
  · exact ⟨⟨hs.kek, hs.incomplete, hs.role, rfl,
      (Session.secret_store_of_ne (by decide)).trans hs.static, hs.pub⟩, rfl, hs.send, hs.recv⟩
  · exact (Session.secret_store_of_ne (by decide)).trans hck

omit hC in
theorem responder_readFirst (hs : Progress A false 0 h n m s)
    (hck : s.secret C .chainingKey = some ck) (re : Bytes32) (random : Bytes32)
    (output : Option ℕ) :
    Returns (foretiasNoiseStep C random (some re.toList) output) s none fun t ↦
      Progress A false 1 (nhMixHash C h re.toList) n m t ∧
        t.secret C .chainingKey = some ck ∧ t.remoteEphemeral = re := by
  have hread : FixedBytes.read nhD re.toList = re := FixedBytes.read_toList re
  refine .congr (foretiasNoiseStep_of_handshaking hs.toHandshaking hck _ _ _) ?_
  rw [hs.hash]
  refine .bind (requireInput_eq_ok.2 ⟨rfl, re.length_eq.ge, rfl⟩) (.of_ok rfl ⟨?_, hck, hread⟩)
  exact ⟨⟨hs.kek, hs.incomplete, hs.role, rfl, hs.static, hs.pub⟩,
    congrArg (fun re ↦ nhMixHash C h re.toList) hread, hs.send, hs.recv⟩

theorem responder_writeSecond (hs : Progress A false 1 h n m s)
    (hck : s.secret C .chainingKey = some ck) {e epub ee es : Bytes32} {ct : Bytes}
    (hbase : C.scalarmultBase e = some epub) (hee : C.scalarmult e s.remoteEphemeral = some ee)
    (hn : n ≠ uint64Max)
    (hct : C.aeadEncrypt (nhMixKey C ck ee).2 (nhNonce n) (nhMixHash C h epub.toList).toList
      A.pub.toList = some ct)
    (hes : C.scalarmult A.scalar s.remoteEphemeral = some es) (input : Option Bytes) {room : ℕ}
    (hroom : nhD + nhD + nhT ≤ room) :
    Returns (foretiasNoiseStep C e input (some room)) s (some (epub.toList ++ ct)) fun t ↦
      Progress A false 2 (nhMixHash C (nhMixHash C h epub.toList) ct) (n + 1) m t ∧
        t.secret C .chainingKey = some (nhMixKey C (nhMixKey C ck ee).1 es).1 ∧
        t.secret C .sendKey = some (nhMixKey C (nhMixKey C ck ee).1 es).2 ∧
        t.secret C .recvKey = some e := by
  obtain ⟨a, hgen, hrecv⟩ := generateEphemeral_of_kek hC A.kek hs.kek hbase .recvKey
  obtain rfl := hs.send
  rw [← hs.pub] at hct
  refine .congr (foretiasNoiseStep_of_handshaking hs.toHandshaking hck _ _ _) ?_
  rw [hs.hash]
  refine .bind (requireOutput_some hroom s) (.bind hgen (.bind (get_apply _) ?_))
  refine .bind (nhX25519_eq_ok.2 ⟨e, hrecv, hee, rfl⟩) ?_
  refine .bind (orThrow_nhEh ct ?_ ?_ _) ?_
  · exact hn
  · exact hct
  refine .bind (nhX25519_eq_ok.2 ⟨A.scalar, ?_, hes, rfl⟩) ?_
  · exact (Session.secret_store_of_ne (by decide)).trans hs.static
  refine .andThen (storeHandshakeKeys_of_kek hC A.kek ?_ _ _ _) ?_
  · exact hs.kek
  rintro _ ⟨b, c, rfl, hsend, hck'⟩
  refine .of_ok rfl ⟨?_, hck', hsend, ?_⟩
  · exact ⟨⟨hs.kek, hs.incomplete, hs.role, rfl, (Session.secret_handshakeStored (by decide)
      (by decide)).trans ((Session.secret_store_of_ne (by decide)).trans hs.static), hs.pub⟩,
      rfl, rfl, hs.recv⟩
  · exact (Session.secret_handshakeStored (by decide) (by decide)).trans hrecv

theorem initiator_readSecond (hs : Progress A true 1 h n m s)
    (hck : s.secret C .chainingKey = some ck) {e re rs ee es : Bytes32} {ct : Bytes}
    (hsend : s.secret C .sendKey = some e) (hee : C.scalarmult e re = some ee)
    (hm : m ≠ uint64Max) (hlen : ct.length = nhD + nhT)
    (hct : C.aeadDecrypt (nhMixKey C ck ee).2 (nhNonce m) (nhMixHash C h re.toList).toList ct =
      some rs.toList)
    (hes : C.scalarmult e rs = some es) (random : Bytes32) (output : Option ℕ) :
    Returns (foretiasNoiseStep C random (some (re.toList ++ ct)) output) s none fun t ↦
      Progress A true 2 (nhMixHash C (nhMixHash C h re.toList) ct) n (m + 1) t ∧
        t.secret C .chainingKey = some (nhMixKey C (nhMixKey C ck ee).1 es).1 ∧
        t.secret C .sendKey = some (nhMixKey C (nhMixKey C ck ee).1 es).2 ∧
        t.remoteEphemeral = re ∧ t.remoteStatic = rs := by
  obtain rfl := hs.recv
  have hinput : nhD + nhD + nhT ≤ (re.toList ++ ct).length := by
    rw [List.length_append, re.length_eq, hlen]
    decide
  have hre : FixedBytes.read nhD (re.toList ++ ct) = re := FixedBytes.read_append re ct
  have hrs : FixedBytes.read nhD rs.toList = rs := FixedBytes.read_toList rs
  have hdrop : (re.toList ++ ct).drop nhD = ct := List.drop_left' re.length_eq
  have hrest : (re.toList ++ ct).drop (nhD + nhD + nhT) = [] := by
    rw [List.drop_eq_nil_iff, List.length_append, re.length_eq, hlen]
    decide
  refine .congr (foretiasNoiseStep_of_handshaking hs.toHandshaking hck _ _ _) ?_
  rw [hs.hash]
  refine .bind (requireInput_eq_ok.2 ⟨rfl, hinput, rfl⟩) ?_
  rw [hre, hdrop, hrest, List.take_of_length_le hlen.le]
  refine .bind (modify_apply _ _) (.bind (nhX25519_eq_ok.2 ⟨e, hsend, hee, rfl⟩) ?_)
  refine .bind (orThrow_nhDecHash rs.toList ?_ ?_ _) ?_
  · exact hm
  · exact hct
  refine .bind (require_of_true rs.length_eq _ _) (.bind (modify_apply _ _) ?_)
  rw [hrs]
  refine .bind (nhX25519_eq_ok.2 ⟨e, hsend, hes, rfl⟩) (.bind (readPayload_nil _ _ _) ?_)
  refine .andThen (storeHandshakeKeys_of_kek hC A.kek ?_ _ _ _) ?_
  · exact hs.kek
  rintro _ ⟨a, b, rfl, hsend', hck'⟩
  refine .of_ok rfl ⟨?_, hck', hsend', rfl, rfl⟩
  exact ⟨⟨hs.kek, hs.incomplete, hs.role, rfl, (Session.secret_handshakeStored (by decide)
    (by decide)).trans hs.static, hs.pub⟩, rfl, hs.send, rfl⟩

theorem initiator_writeThird (hs : Progress A true 2 h n m s)
    (hck : s.secret C .chainingKey = some ck) {k se : Bytes32} {ct : Bytes}
    (hsend : s.secret C .sendKey = some k) (hn : n ≠ uint64Max)
    (hct : C.aeadEncrypt k (nhNonce n) h.toList A.pub.toList = some ct)
    (hse : C.scalarmult A.scalar s.remoteEphemeral = some se) (random : Bytes32)
    (input : Option Bytes) {room : ℕ} (hroom : nhD + nhT ≤ room) :
    Returns (foretiasNoiseStep C random input (some room)) s (some ct) fun t ↦
      Established A (nhMixHash C h ct) (n + 1) m (nhSplit C (nhMixKey C ck se).1).1
        (nhSplit C (nhMixKey C ck se).1).2 s.remoteStatic t := by
  obtain rfl := hs.send
  rw [← hs.pub] at hct
  refine .congr (foretiasNoiseStep_of_handshaking hs.toHandshaking hck _ _ _) ?_
  rw [hs.hash]
  refine .bind (requireOutput_some hroom s) (.bind (nhDecryptKey_eq_ok.2 ⟨hsend, rfl⟩) ?_)
  refine .bind (get_apply s) (.bind (orThrow_nhEh ct hn hct _) ?_)
  refine .bind (nhX25519_eq_ok.2 ⟨A.scalar, hs.static, hse, rfl⟩) ?_
  refine .andThen (storeTransportKeys_of_kek hC A.kek ?_ _ _ _ _) ?_
  · exact hs.kek
  rintro _ ⟨a, b, c, rfl, hsk, hrk⟩
  exact .of_ok rfl ⟨hs.kek, rfl, rfl, rfl, hs.recv, hsk, hrk, rfl⟩

theorem responder_readThird (hs : Progress A false 2 h n m s)
    (hck : s.secret C .chainingKey = some ck) {e k rs se : Bytes32} {ct : Bytes}
    (hsend : s.secret C .sendKey = some k) (hrecv : s.secret C .recvKey = some e)
    (hm : m ≠ uint64Max) (hlen : ct.length = nhD + nhT)
    (hct : C.aeadDecrypt k (nhNonce m) h.toList ct = some rs.toList)
    (hse : C.scalarmult e rs = some se) (random : Bytes32) (output : Option ℕ) :
    Returns (foretiasNoiseStep C random (some ct) output) s none fun t ↦
      Established A (nhMixHash C h ct) n (m + 1) (nhSplit C (nhMixKey C ck se).1).2
        (nhSplit C (nhMixKey C ck se).1).1 rs t := by
  obtain rfl := hs.recv
  have hrs : FixedBytes.read nhD rs.toList = rs := FixedBytes.read_toList rs
  have hrest : ct.drop (nhD + nhT) = [] := List.drop_eq_nil_of_le hlen.le
  refine .congr (foretiasNoiseStep_of_handshaking hs.toHandshaking hck _ _ _) ?_
  rw [hs.hash]
  refine .bind (requireInput_eq_ok.2 ⟨rfl, hlen.ge, rfl⟩) ?_
  rw [hrest, List.take_of_length_le hlen.le]
  refine .bind (nhDecryptKey_eq_ok.2 ⟨hsend, rfl⟩) (.bind (orThrow_nhDecHash _ hm hct _) ?_)
  refine .bind (require_of_true rs.length_eq _ _) (.bind (modify_apply _ _) ?_)
  rw [hrs]
  refine .bind (nhX25519_eq_ok.2 ⟨e, hrecv, hse, rfl⟩) (.bind (readPayload_nil _ _ _) ?_)
  refine .andThen (storeTransportKeys_of_kek hC A.kek ?_ _ _ _ _) ?_
  · exact hs.kek
  rintro _ ⟨a, b, c, rfl, hsk, hrk⟩
  exact .of_ok rfl ⟨hs.kek, rfl, rfl, hs.send, rfl, hsk, hrk, rfl⟩

end Calls

end Foretias

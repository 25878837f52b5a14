import Foretias.C11.NoiseFailures
import Foretias.C11.NoiseHandshake
import Foretias.Library.Run

/-!
# What a completed Noise XX handshake has checked

The network may deliver any bytes in any order. A session that reports completion has decrypted
the peer's static key in a handshake message, and has then made the agreement of its own ephemeral
key with that static key; whatever it decrypts from then on is decrypted under a key that comes
from this agreement (`CheckedUnder`).

The handshake itself may end before anything is decrypted so. Its messages carry no payload: the
initiator reads the static key, and the responder reads it, as the last thing of a message, and the
agreement with it is confirmed by the first transport message only. Nor is the static key compared
with one that the initialiser was given.

* `authenticated_of_run` — through every run of a session, what its completion says of the peer.
-/

namespace Foretias

open ErrorState

variable {C : Sodium}

/-! ### The agreements of a side -/

namespace Agreements

variable (C) (d : Agreements) (isInitiator : Bool)

/-- Of own ephemeral and the peer's static key. -/
def withPeer : Bytes32 := if isInitiator then d.es else d.se

/-- Of own static and the peer's ephemeral key. -/
def withOwn : Bytes32 := if isInitiator then d.se else d.es

/-- The cipher key of the peer's static key. -/
def staticKey : Bytes32 := if isInitiator then (d.afterEe C).2 else (d.afterEs C).2

/-- The cipher key of what follows the peer's static key in its message. -/
def payloadKey : Bytes32 := if isInitiator then (d.afterEs C).2 else (d.afterSe C).2

/-- The key of the transport messages received. -/
def recvKey : Bytes32 := if isInitiator then (d.transport C).2 else (d.transport C).1

end Agreements

/-! ### The record of decryptions -/

/-- The key of a decryption. -/
def SodiumCall.openKey? : SodiumCall → Option Bytes32
  | decrypt key _ _ _ _ => some key
  | _ => none

/-- The session made the call `c`, and every decryption since was under one of `keys`. -/
def CheckedUnder (keys : List Bytes32) (c : SodiumCall) (s : Session) : Prop :=
  ∃ before after, s.calls = before ++ c :: after ∧
    ∀ key ∈ after.filterMap SodiumCall.openKey?, key ∈ keys

namespace CheckedUnder

variable {keys keys' : List Bytes32} {c c' : SodiumCall} {s t : Session}

theorem mono (hs : CheckedUnder keys c s) (hkeys : keys ⊆ keys') : CheckedUnder keys' c s := by
  obtain ⟨before, after, hcalls, hafter⟩ := hs
  exact ⟨before, after, hcalls, fun key hkey ↦ hkeys (hafter key hkey)⟩

theorem congr (hs : CheckedUnder keys c s) (ht : t.calls = s.calls) : CheckedUnder keys c t := by
  rwa [CheckedUnder, ht]

/-- One more call is checked when it decrypts under one of the keys, if it decrypts. -/
theorem concat (hs : CheckedUnder keys c s) (ht : t.calls = s.calls ++ [c'])
    (hc' : ∀ key, c'.openKey? = some key → key ∈ keys) : CheckedUnder keys c t := by
  obtain ⟨before, after, hcalls, hafter⟩ := hs
  refine ⟨before, after ++ [c'], ?_, fun key hkey ↦ ?_⟩
  · rw [ht, hcalls, List.append_assoc, List.cons_append]
  · rw [List.filterMap_append, List.mem_append] at hkey
    obtain hkey | hkey := hkey
    · exact hafter key hkey
    · obtain ⟨c'', hmem, hopen⟩ := List.mem_filterMap.1 hkey
      obtain rfl := List.mem_singleton.1 hmem
      exact hc' key hopen

theorem writeInvariant : WriteInvariant (CheckedUnder keys c) where
  congr hs hcalls _ _ := hs.congr hcalls
  randombytes _ hs := hs.concat rfl fun _ h ↦ nomatch h
  scalarmult _ _ _ hs := hs.concat rfl fun _ h ↦ nomatch h
  encrypt _ _ _ _ hs _ := hs.concat rfl fun _ h ↦ nomatch h

end CheckedUnder

/-- A call that a session has made stays in its record. -/
theorem mem_calls_callInvariant (c : SodiumCall) : CallInvariant fun s ↦ c ∈ s.calls where
  congr hs hcalls _ _ := hcalls ▸ hs
  randombytes _ hs := List.mem_append_left _ hs
  scalarmult _ _ _ hs := List.mem_append_left _ hs
  encrypt _ _ _ _ hs _ := List.mem_append_left _ hs
  decrypt _ _ _ _ hs _ := List.mem_append_left _ hs

/-! ### What the blocks of a step did when they succeeded -/

/-- A fresh ephemeral key is stored sealed, and can be opened. -/
theorem exists_store_of_generateEphemeral (hC : SecretboxCorrect C) {f : SecretField}
    {e epub : Bytes32} {s t : Session} (h : generateEphemeral C f e s = .ok epub t) :
    ∃ a, t = (s.withEphemeral e epub).store f a ∧ t.secret C f = some e := by
  simp only [generateEphemeral, bind_eq_ok, modify_eq_ok, ofOption_eq_ok, pure_eq_ok] at h
  obtain ⟨_, _, rfl, _, _, ⟨-, rfl⟩, _, _, rfl, _, _, hseal, rfl, rfl⟩ := h
  obtain ⟨_, a, -, rfl, hopen⟩ := exists_store_of_nhEncryptKey hC hseal
  exact ⟨a, rfl, hopen⟩

/-- Keys are stored only under an initialised key module. -/
theorem exists_handshakeStored (hC : SecretboxCorrect C) {k ck h : Bytes32} {u : PUnit}
    {s t : Session} (hstore : storeHandshakeKeys C k ck h s = .ok u t) :
    ∃ a b, t = s.handshakeStored a b h ∧ t.secret C .sendKey = some k ∧
      t.secret C .chainingKey = some ck := by
  obtain ⟨_, _, hsend, -⟩ := bind_eq_ok.1 hstore
  obtain ⟨kek, _, hkek, -⟩ := exists_store_of_nhEncryptKey hC hsend
  exact ((storeHandshakeKeys_of_kek hC kek hkek k ck h).eq_ok hstore).2

/-- So are the two transport keys. -/
theorem exists_transportStored (hC : SecretboxCorrect C) {sk rk ck h : Bytes32} {u : PUnit}
    {s t : Session} (hstore : storeTransportKeys C sk rk ck h s = .ok u t) :
    ∃ a b c, t = s.transportStored a b c h ∧ t.secret C .sendKey = some sk ∧
      t.secret C .recvKey = some rk := by
  obtain ⟨_, _, hsend, -⟩ := bind_eq_ok.1 hstore
  obtain ⟨kek, _, hkek, -⟩ := exists_store_of_nhEncryptKey hC hsend
  exact ((storeTransportKeys_of_kek hC kek hkek sk rk ck h).eq_ok hstore).2

/-- What was decrypted is in the record. -/
theorem exists_decrypt_of_nhDecHash {h k h' : Bytes32} {ct pt : Bytes} {s t : Session}
    (hdec : nhDecHash C h k ct s = .ok (pt, h') t) :
    ∃ nonce ad ct, .decrypt k nonce ad ct pt ∈ t.calls := by
  obtain ⟨-, -, rfl⟩ := nhAeDec_eq_ok.1 (nhDecHash_eq_ok.1 hdec).1
  exact ⟨_, _, _, List.mem_append_right _ (List.mem_singleton_self _)⟩

/-- The session after some calls that decrypt. -/
def Session.opened (s : Session) (recvNonce : UInt64) (calls : List SodiumCall) : Session :=
  { s with recvNonce := recvNonce, calls := s.calls ++ calls }

/-- The session with the peer's ephemeral key. -/
def Session.withRemoteEphemeral (s : Session) (re : Bytes32) : Session :=
  { s with remoteEphemeral := re }

/-- The session with the peer's static key. -/
def Session.withRemoteStatic (s : Session) (rs : Bytes32) : Session := { s with remoteStatic := rs }

/-- A payload, where there is one, is decrypted under the key at that point. -/
theorem exists_opened_of_readPayload {h k h' : Bytes32} {payload : Bytes} {s t : Session}
    (hread : readPayload C h k payload s = .ok h' t) :
    ∃ n calls, t = s.opened n calls ∧ ∀ key ∈ calls.filterMap SodiumCall.openKey?, key = k := by
  by_cases hlen : 0 < payload.length
  · rw [readPayload, if_pos hlen] at hread
    simp only [bind_eq_ok, require_eq_ok, orThrow_eq_ok] at hread
    obtain ⟨_, _, ⟨-, rfl⟩, ⟨pt, _⟩, u, hdec, hpure⟩ := hread
    obtain rfl : t = u := (pure_eq_ok.1 hpure).2
    obtain ⟨-, -, rfl⟩ := nhAeDec_eq_ok.1 (nhDecHash_eq_ok.1 hdec).1
    exact ⟨_, _, rfl, fun key hkey ↦ List.mem_singleton.1 hkey⟩
  · rw [readPayload, if_neg hlen] at hread
    obtain ⟨-, rfl⟩ := pure_eq_ok.1 hread
    refine ⟨t.recvNonce, [], ?_, fun key hkey ↦ absurd hkey List.not_mem_nil⟩
    rw [Session.opened, List.append_nil]

/-! ### The stages of a handshake -/

section Stages

variable (A : Party C) (e : Bytes32) (d : Agreements)

/-- The initiator has written the first message, with the ephemeral scalar `e`. -/
structure WroteFirst (s : Session) : Prop extends Handshaking A true 1 s where
  /-- No agreement is mixed in yet. -/
  chainingKey : s.secret C .chainingKey = some (protocolHash C)
  /-- The ephemeral scalar is kept in the slot of the sending key. -/
  sendKey : s.secret C .sendKey = some e
  /-- It was drawn in this session. -/
  fresh : .randombytes e ∈ s.calls

/-- The initiator has read the second message. -/
structure ReadSecond (s : Session) : Prop extends Handshaking A true 2 s where
  /-- Two agreements are mixed in. -/
  chainingKey : s.secret C .chainingKey = some (d.afterEs C).1
  /-- The ephemeral scalar was drawn in this session. -/
  fresh : .randombytes e ∈ s.calls
  /-- The first agreement. -/
  ee : C.scalarmult e s.remoteEphemeral = some d.ee
  /-- The second. -/
  es : C.scalarmult e s.remoteStatic = some d.es
  /-- The peer's static key was decrypted. -/
  received : ∃ nonce ad ct,
    .decrypt (d.afterEe C).2 nonce ad ct s.remoteStatic.toList ∈ s.calls
  /-- What was decrypted after the second agreement was under a key that comes from it. -/
  checked : CheckedUnder [(d.afterEs C).2] (.scalarmult e s.remoteStatic d.es) s

/-- The responder has written the second message, with the ephemeral scalar `e`. -/
structure WroteSecond (s : Session) : Prop extends Handshaking A false 2 s where
  /-- Two agreements are mixed in. -/
  chainingKey : s.secret C .chainingKey = some (d.afterEs C).1
  /-- The cipher key after the second. -/
  sendKey : s.secret C .sendKey = some (d.afterEs C).2
  /-- The ephemeral scalar is kept in the slot of the receiving key. -/
  recvKey : s.secret C .recvKey = some e
  /-- It was drawn in this session. -/
  fresh : .randombytes e ∈ s.calls
  /-- The first agreement. -/
  ee : C.scalarmult e s.remoteEphemeral = some d.ee
  /-- The second. -/
  es : C.scalarmult A.scalar s.remoteEphemeral = some d.es

end Stages

/-- What a side in the role `isInitiator` that reports completion has done, with the ephemeral
scalar `e` and the agreements `d`. -/
structure Authenticated (C : Sodium) (isInitiator : Bool) (e : Bytes32) (d : Agreements)
    (s : Session) : Prop where
  /-- The ephemeral scalar was drawn in this session. -/
  fresh : .randombytes e ∈ s.calls
  /-- The agreement with the peer's ephemeral key. -/
  ee : C.scalarmult e s.remoteEphemeral = some d.ee
  /-- The agreement of own ephemeral and the peer's static key. -/
  withPeer : C.scalarmult e s.remoteStatic = some (d.withPeer isInitiator)
  /-- The agreement of own static and the peer's ephemeral key. -/
  withOwn : ∃ n, C.scalarmultBase n = some s.localStaticPub ∧
    C.scalarmult n s.remoteEphemeral = some (d.withOwn isInitiator)
  /-- The peer's static key was decrypted. -/
  received : ∃ nonce ad ct,
    .decrypt (d.staticKey C isInitiator) nonce ad ct s.remoteStatic.toList ∈ s.calls
  /-- Every decryption since the agreement with it was under a key that comes from it. -/
  checked : CheckedUnder [d.payloadKey C isInitiator, d.recvKey C isInitiator]
    (.scalarmult e s.remoteStatic (d.withPeer isInitiator)) s
  /-- So is every later one. -/
  recvKey : s.secret C .recvKey = some (d.recvKey C isInitiator)

/-- Where the session of the party `A` stands. -/
inductive Stage (A : Party C) (s : Session) : Bool → Prop
  | start {isInitiator : Bool} (hs : Handshaking A isInitiator 0 s)
      (hck : s.secret C .chainingKey = some (protocolHash C)) : Stage A s isInitiator
  | wroteFirst {e : Bytes32} (hs : WroteFirst A e s) : Stage A s true
  | readFirst (hs : Handshaking A false 1 s)
      (hck : s.secret C .chainingKey = some (protocolHash C)) : Stage A s false
  | readSecond {e : Bytes32} {d : Agreements} (hs : ReadSecond A e d s) : Stage A s true
  | wroteSecond {e : Bytes32} {d : Agreements} (hs : WroteSecond A e d s) : Stage A s false
  | completed {isInitiator : Bool} {e : Bytes32} {d : Agreements}
      (hcomplete : s.handshakeComplete = true) (hs : Authenticated C isInitiator e d s) :
      Stage A s isInitiator

/-! ### The calls that succeed -/

section Success

variable (hC : SecretboxCorrect C) {A : Party C} {e h : Bytes32} {d : Agreements}
  {input out : Option Bytes} {output : Option ℕ} {s t : Session}

include hC

/-- What the first message leaves at its writer, -/
theorem wroteFirst_of_ok (hs : Handshaking A true 0 s)
    (hck : s.secret C .chainingKey = some (protocolHash C))
    (hstep : initiatorStep0 C e output h s = .ok out t) : WroteFirst A e t := by
  simp only [initiatorStep0, bind_eq_ok, requireOutput_eq_ok, modify_eq_ok, pure_eq_ok] at hstep
  obtain ⟨_, _, ⟨-, rfl⟩, epub, _, hgen, _, _, rfl, -, rfl⟩ := hstep
  obtain ⟨a, rfl, hsend⟩ := exists_store_of_generateEphemeral hC hgen
  refine ⟨⟨hs.kek, hs.incomplete, hs.role, rfl, ?_, hs.pub⟩, ?_, hsend, ?_⟩
  · exact (Session.secret_store_of_ne (by decide)).trans hs.static
  · exact (Session.secret_store_of_ne (by decide)).trans hck
  · exact List.mem_append_right _ (List.mem_singleton_self _)

omit hC in
/-- and at its reader; -/
theorem readFirst_of_ok (hs : Handshaking A false 0 s)
    (hck : s.secret C .chainingKey = some (protocolHash C))
    (hstep : responderStep0 C input h s = .ok out t) :
    Handshaking A false 1 t ∧ t.secret C .chainingKey = some (protocolHash C) := by
  simp only [responderStep0, bind_eq_ok, requireInput_eq_ok, modify_eq_ok, pure_eq_ok] at hstep
  obtain ⟨_, _, ⟨-, -, rfl⟩, _, _, rfl, -, rfl⟩ := hstep
  exact ⟨⟨hs.kek, hs.incomplete, hs.role, rfl, hs.static, hs.pub⟩, hck⟩

/-- what the second one leaves at its reader, -/
theorem readSecond_of_ok (hs : WroteFirst A e s)
    (hstep : initiatorStep1 C input (protocolHash C) h s = .ok out t) :
    ∃ d, ReadSecond A e d t := by
  have hfresh : .randombytes e ∈ t.calls :=
    ((mem_calls_callInvariant _).initiatorStep1 input _ h).of_ok hs.fresh hstep
  simp only [initiatorStep1, bind_eq_ok, requireInput_eq_ok, modify_eq_ok, orThrow_eq_ok,
    require_eq_ok, pure_eq_ok] at hstep
  obtain ⟨input, _, ⟨-, -, rfl⟩, _, s₁, hs₁, ee, _, hx, ⟨rs, h₁⟩, _, hdec, _, _, ⟨hlen, rfl⟩,
    hstep⟩ := hstep
  have hrs : (FixedBytes.read nhD rs).toList = rs := FixedBytes.toList_read hlen
  obtain ⟨nonce, ad, ct, hreceived⟩ := exists_decrypt_of_nhDecHash hdec
  rw [← hrs] at hreceived
  obtain rfl : s₁ = Session.withRemoteEphemeral _ _ := hs₁
  obtain ⟨n, hn, hee, rfl⟩ := nhX25519_eq_ok.1 hx
  obtain rfl : e = n := Option.some_inj.1 (hs.sendKey.symm.trans hn)
  obtain ⟨-, -, rfl⟩ := nhAeDec_eq_ok.1 (nhDecHash_eq_ok.1 hdec).1
  obtain ⟨_, s₂, hs₂, es, _, hx, h₂, _, hread, _, _, hstore, -, rfl⟩ := hstep
  obtain rfl : s₂ = Session.withRemoteStatic _ _ := hs₂
  obtain ⟨n, hn, hes, rfl⟩ := nhX25519_eq_ok.1 hx
  obtain rfl : e = n := Option.some_inj.1 (hs.sendKey.symm.trans hn)
  obtain ⟨m, calls, rfl, hcalls⟩ := exists_opened_of_readPayload hread
  obtain ⟨a, b, rfl, -, hck⟩ := exists_handshakeStored hC hstore
  refine ⟨⟨ee, es, default⟩, ?_, hck, hfresh, hee, hes, ⟨nonce, ad, ct, ?_⟩, ?_⟩
  · exact ⟨hs.kek, hs.incomplete, hs.role, rfl, (Session.secret_handshakeStored (by decide)
      (by decide)).trans hs.static, hs.pub⟩
  · exact List.mem_append_left _ (List.mem_append_left _ hreceived)
  · refine ⟨_, calls, List.append_assoc _ _ _, fun key hkey ↦ ?_⟩
    exact List.mem_singleton.2 (hcalls key hkey)

/-- What the third message adds to what the second has shown. -/
theorem authenticated_of_initiator_ok (hs : ReadSecond A e d s)
    (hstep : initiatorStep2 C output (d.afterEs C).1 h s = .ok out t) :
    t.handshakeComplete = true ∧ ∃ d, Authenticated C true e d t := by
  have hchecked := (CheckedUnder.writeInvariant.initiatorStep2 output _ h).of_ok hs.checked hstep
  have hmem : ∀ c ∈ s.calls, c ∈ t.calls := fun c hc ↦
    ((mem_calls_callInvariant c).initiatorStep2 output _ h).of_ok hc hstep
  simp only [initiatorStep2, bind_eq_ok, requireOutput_eq_ok, nhDecryptKey_eq_ok, get_eq_ok,
    orThrow_eq_ok, pure_eq_ok] at hstep
  obtain ⟨_, _, ⟨-, rfl⟩, k, _, ⟨-, rfl⟩, _, _, ⟨rfl, rfl⟩, ⟨ct, h₁⟩, _, henc, hstep⟩ := hstep
  obtain ⟨-, -, rfl⟩ := nhAeEnc_eq_ok.1 (nhEh_eq_ok.1 henc).1
  obtain ⟨se, _, hx, _, _, hstore, -, rfl⟩ := hstep
  obtain ⟨n, hn, hse, rfl⟩ := nhX25519_eq_ok.1 hx
  obtain rfl : A.scalar = n := Option.some_inj.1 (hs.static.symm.trans hn)
  obtain ⟨a, b, c, rfl, -, hrecv⟩ := exists_transportStored hC hstore
  obtain ⟨nonce, ad, ct', hreceived⟩ := hs.received
  refine ⟨rfl, ⟨d.ee, d.es, se⟩, hmem _ hs.fresh, hs.ee, hs.es, ⟨A.scalar, ?_, hse⟩,
    ⟨nonce, ad, ct', hmem _ hreceived⟩, ?_, hrecv⟩
  · rw [A.base, ← hs.pub]
    rfl
  · exact hchecked.mono fun key hkey ↦ List.mem_cons.2 (.inl (List.mem_singleton.1 hkey))

/-- and at its writer. -/
theorem wroteSecond_of_ok (hs : Handshaking A false 1 s)
    (hstep : responderStep1 C e output (protocolHash C) h s = .ok out t) :
    ∃ d, WroteSecond A e d t := by
  simp only [responderStep1, bind_eq_ok, requireOutput_eq_ok, get_eq_ok, orThrow_eq_ok,
    pure_eq_ok] at hstep
  obtain ⟨_, s, ⟨-, rfl⟩, epub, _, hgen, _, _, ⟨rfl, rfl⟩, ee, _, hx, hstep⟩ := hstep
  obtain ⟨a, rfl, hrecv⟩ := exists_store_of_generateEphemeral hC hgen
  obtain ⟨n, hn, hee, rfl⟩ := nhX25519_eq_ok.1 hx
  obtain rfl : e = n := Option.some_inj.1 (hrecv.symm.trans hn)
  obtain ⟨⟨ct, h₁⟩, _, henc, es, _, hx, _, _, hstore, -, rfl⟩ := hstep
  obtain ⟨-, -, rfl⟩ := nhAeEnc_eq_ok.1 (nhEh_eq_ok.1 henc).1
  obtain ⟨n, hn, hes, rfl⟩ := nhX25519_eq_ok.1 hx
  have hstatic : ((s.withEphemeral e epub).store .recvKey a).secret C .localStatic =
      some A.scalar := (Session.secret_store_of_ne (by decide)).trans hs.static
  obtain rfl : A.scalar = n := Option.some_inj.1 (hstatic.symm.trans hn)
  obtain ⟨b, c, rfl, hsend, hck⟩ := exists_handshakeStored hC hstore
  refine ⟨⟨ee, es, default⟩, ?_, hck, hsend, ?_, ?_, hee, hes⟩
  · exact ⟨hs.kek, hs.incomplete, hs.role, rfl, (Session.secret_handshakeStored (by decide)
      (by decide)).trans hstatic, hs.pub⟩
  · exact (Session.secret_handshakeStored (by decide) (by decide)).trans hrecv
  · refine List.mem_append_left _ (List.mem_append_left _ (List.mem_append_left _ ?_))
    exact List.mem_append_right _ (List.mem_singleton_self _)

/-- What reading the third message shows. -/
theorem authenticated_of_responder_ok (hs : WroteSecond A e d s)
    (hstep : responderStep2 C input (d.afterEs C).1 h s = .ok out t) :
    t.handshakeComplete = true ∧ ∃ d, Authenticated C false e d t := by
  have hfresh : .randombytes e ∈ t.calls :=
    ((mem_calls_callInvariant _).responderStep2 input _ h).of_ok hs.fresh hstep
  simp only [responderStep2, bind_eq_ok, requireInput_eq_ok, nhDecryptKey_eq_ok, modify_eq_ok,
    orThrow_eq_ok, require_eq_ok, pure_eq_ok] at hstep
  obtain ⟨input, _, ⟨-, -, rfl⟩, k, _, ⟨hk, rfl⟩, ⟨rs, h₁⟩, _, hdec, _, _, ⟨hlen, rfl⟩, hstep⟩ :=
    hstep
  obtain rfl : (d.afterEs C).2 = k := Option.some_inj.1 (hs.sendKey.symm.trans hk)
  have hrs : (FixedBytes.read nhD rs).toList = rs := FixedBytes.toList_read hlen
  obtain ⟨nonce, ad, ct, hreceived⟩ := exists_decrypt_of_nhDecHash hdec
  rw [← hrs] at hreceived
  obtain ⟨-, -, rfl⟩ := nhAeDec_eq_ok.1 (nhDecHash_eq_ok.1 hdec).1
  obtain ⟨_, s₁, hs₁, se, _, hx, h₂, _, hread, _, _, hstore, -, rfl⟩ := hstep
  obtain rfl : s₁ = Session.withRemoteStatic _ _ := hs₁
  obtain ⟨n, hn, hse, rfl⟩ := nhX25519_eq_ok.1 hx
  obtain rfl : e = n := Option.some_inj.1 (hs.recvKey.symm.trans hn)
  obtain ⟨m, calls, rfl, hcalls⟩ := exists_opened_of_readPayload hread
  obtain ⟨a, b, c, rfl, -, hrecv⟩ := exists_transportStored hC hstore
  refine ⟨rfl, ⟨d.ee, d.es, se⟩, hfresh, hs.ee, hse, ⟨A.scalar, ?_, hs.es⟩,
    ⟨nonce, ad, ct, ?_⟩, ?_, hrecv⟩
  · rw [A.base, ← hs.pub]
    rfl
  · exact List.mem_append_left _ (List.mem_append_left _ hreceived)
  · refine ⟨_, calls, List.append_assoc _ _ _, fun key hkey ↦ ?_⟩
    exact List.mem_cons.2 (.inl (hcalls key hkey))

end Success

/-! ### The calls that fail -/

section Failure

variable {A : Party C} {e : Bytes32} {d : Agreements} {isInitiator : Bool} {s t : Session}

theorem WroteFirst.of_beforeSecond (hs : WroteFirst A e s)
    (h : t.beforeSecond = s.beforeSecond) (hcalls : ∀ c ∈ s.calls, c ∈ t.calls) :
    WroteFirst A e t where
  toHandshaking := hs.toHandshaking.of_core (congrArg (·.1) h)
  chainingKey := (Session.chainingKey_of_core (congrArg (·.1) h)).trans hs.chainingKey
  sendKey := (Session.secret_congr (Session.kek_of_core (congrArg (·.1) h))
    (congrArg (·.2) h)).trans hs.sendKey
  fresh := hcalls _ hs.fresh

theorem ReadSecond.of_beforeThird (hs : ReadSecond A e d s) (h : t.beforeThird = s.beforeThird)
    (hcalls : ∀ c ∈ s.calls, c ∈ t.calls)
    (hchecked : CheckedUnder [(d.afterEs C).2] (.scalarmult e s.remoteStatic d.es) t) :
    ReadSecond A e d t := by
  have hre : t.remoteEphemeral = s.remoteEphemeral := congrArg (·.2.2.1) h
  have hrs : t.remoteStatic = s.remoteStatic := congrArg (·.2.2.2) h
  obtain ⟨nonce, ad, ct, hreceived⟩ := hs.received
  constructor
  · exact hs.toHandshaking.of_core (congrArg (·.1) h)
  · exact (Session.chainingKey_of_core (congrArg (·.1) h)).trans hs.chainingKey
  · exact hcalls _ hs.fresh
  · exact hre ▸ hs.ee
  · exact hrs ▸ hs.es
  · exact ⟨nonce, ad, ct, hrs ▸ hcalls _ hreceived⟩
  · exact hrs ▸ hchecked

theorem WroteSecond.of_awaitingThird (hs : WroteSecond A e d s)
    (h : t.awaitingThird = s.awaitingThird) (hcalls : ∀ c ∈ s.calls, c ∈ t.calls) :
    WroteSecond A e d t := by
  have hkek := Session.kek_of_core (congrArg (·.1) h)
  have hre : t.remoteEphemeral = s.remoteEphemeral := congrArg (·.2.2.2) h
  constructor
  · exact hs.toHandshaking.of_core (congrArg (·.1) h)
  · exact (Session.chainingKey_of_core (congrArg (·.1) h)).trans hs.chainingKey
  · exact (Session.secret_congr hkek (congrArg (·.2.1) h)).trans hs.sendKey
  · exact (Session.secret_congr hkek (congrArg (·.2.2.1) h)).trans hs.recvKey
  · exact hcalls _ hs.fresh
  · exact hre ▸ hs.ee
  · exact hre ▸ hs.es

theorem Authenticated.under (hs : Authenticated C isInitiator e d s) {M : PrivkeyModule}
    (hM : M.instanceKek = s.keyModule.instanceKek) :
    Authenticated C isInitiator e d (s.under M) where
  fresh := hs.fresh
  ee := hs.ee
  withPeer := hs.withPeer
  withOwn := hs.withOwn
  received := hs.received
  checked := hs.checked
  recvKey := (Session.secret_under hM _).trans hs.recvKey

end Failure

/-! ### Handshake calls -/

section Steps

variable (hC : SecretboxCorrect C) {A : Party C} {e : Bytes32} {d : Agreements}
  {isInitiator : Bool} {s : Session} (random : Bytes32) (input : Option Bytes)
  (output : Option ℕ)

/-- A handshake call after completion changes nothing. -/
theorem finalState_step_of_complete (hs : s.handshakeComplete = true) :
    finalState (foretiasNoiseStep C random input output s) = s := by
  rw [foretiasNoiseStep, bind_of_ok (get_apply s), bind_apply, require_of_false (by simp [hs])]
  rfl

include hC

/-- A call of `foretias_noise_step` takes a session from its start to a stage, -/
theorem stage_of_start (hs : Handshaking A isInitiator 0 s)
    (hck : s.secret C .chainingKey = some (protocolHash C)) :
    Stage A (finalState (foretiasNoiseStep C random input output s)) isInitiator := by
  rw [foretiasNoiseStep_of_handshaking hs hck]
  cases isInitiator with
  | true =>
    show Stage A (finalState (initiatorStep0 C random output s.handshakeHash s)) true
    cases hrun : initiatorStep0 C random output s.handshakeHash s with
    | ok out t => exact .wroteFirst (wroteFirst_of_ok hC hs hck hrun)
    | error r t =>
      have hcore := keepsOnError_initiatorStep0 random output s.handshakeHash s r t hrun
      exact .start (hs.of_core hcore) ((Session.chainingKey_of_core hcore).trans hck)
  | false =>
    show Stage A (finalState (responderStep0 C input s.handshakeHash s)) false
    cases hrun : responderStep0 C input s.handshakeHash s with
    | ok out t =>
      obtain ⟨ht, hck'⟩ := readFirst_of_ok hs hck hrun
      exact .readFirst ht hck'
    | error r t =>
      have hcore := keepsOnError_responderStep0 input s.handshakeHash s r t hrun
      exact .start (hs.of_core hcore) ((Session.chainingKey_of_core hcore).trans hck)

/-- the initiator from its first message, -/
theorem stage_of_wroteFirst (hs : WroteFirst A e s) :
    Stage A (finalState (foretiasNoiseStep C random input output s)) true := by
  rw [foretiasNoiseStep_of_handshaking hs.toHandshaking hs.chainingKey]
  show Stage A (finalState (initiatorStep1 C input _ s.handshakeHash s)) true
  cases hrun : initiatorStep1 C input (protocolHash C) s.handshakeHash s with
  | ok out t =>
    obtain ⟨d, ht⟩ := readSecond_of_ok hC hs hrun
    exact .readSecond ht
  | error r t =>
    have hmem : ∀ c ∈ s.calls, c ∈ t.calls := fun c hc ↦
      ((mem_calls_callInvariant c).initiatorStep1 input _ _).of_error hc hrun
    have hkept := keepsOnError_initiatorStep1 hC A.kek input _ _ s hs.kek r t hrun
    exact .wroteFirst (hs.of_beforeSecond hkept hmem)

/-- the responder from that message, -/
theorem stage_of_readFirst (hs : Handshaking A false 1 s)
    (hck : s.secret C .chainingKey = some (protocolHash C)) :
    Stage A (finalState (foretiasNoiseStep C random input output s)) false := by
  rw [foretiasNoiseStep_of_handshaking hs hck]
  show Stage A (finalState (responderStep1 C random output _ s.handshakeHash s)) false
  cases hrun : responderStep1 C random output (protocolHash C) s.handshakeHash s with
  | ok out t =>
    obtain ⟨d, ht⟩ := wroteSecond_of_ok hC hs hrun
    exact .wroteSecond ht
  | error r t =>
    have hcore := keepsOnError_responderStep1 hC A.kek random output _ _ s hs.kek r t hrun
    exact .readFirst (hs.of_core hcore) ((Session.chainingKey_of_core hcore).trans hck)

/-- the initiator from the second message, -/
theorem stage_of_readSecond (hs : ReadSecond A e d s) :
    Stage A (finalState (foretiasNoiseStep C random input output s)) true := by
  rw [foretiasNoiseStep_of_handshaking hs.toHandshaking hs.chainingKey]
  show Stage A (finalState (initiatorStep2 C output _ s.handshakeHash s)) true
  cases hrun : initiatorStep2 C output (d.afterEs C).1 s.handshakeHash s with
  | ok out t =>
    obtain ⟨hcomplete, d, ht⟩ := authenticated_of_initiator_ok hC hs hrun
    exact .completed hcomplete ht
  | error r t =>
    have hmem : ∀ c ∈ s.calls, c ∈ t.calls := fun c hc ↦
      ((mem_calls_callInvariant c).initiatorStep2 output _ _).of_error hc hrun
    have hchecked :=
      (CheckedUnder.writeInvariant.initiatorStep2 output _ _).of_error hs.checked hrun
    have hkept := keepsOnError_initiatorStep2 hC A.kek output _ _ s hs.kek r t hrun
    exact .readSecond (hs.of_beforeThird hkept hmem hchecked)

/-- and the responder from it. -/
theorem stage_of_wroteSecond (hs : WroteSecond A e d s) :
    Stage A (finalState (foretiasNoiseStep C random input output s)) false := by
  rw [foretiasNoiseStep_of_handshaking hs.toHandshaking hs.chainingKey]
  show Stage A (finalState (responderStep2 C input _ s.handshakeHash s)) false
  cases hrun : responderStep2 C input (d.afterEs C).1 s.handshakeHash s with
  | ok out t =>
    obtain ⟨hcomplete, d, ht⟩ := authenticated_of_responder_ok hC hs hrun
    exact .completed hcomplete ht
  | error r t =>
    have hmem : ∀ c ∈ s.calls, c ∈ t.calls := fun c hc ↦
      ((mem_calls_callInvariant c).responderStep2 input _ _).of_error hc hrun
    have hkept := keepsOnError_responderStep2 hC A.kek input _ _ s hs.kek r t hrun
    exact .wroteSecond (hs.of_awaitingThird hkept hmem)

/-- **A call of `foretias_noise_step` leaves a session at some stage**, whether it succeeds or not;
-/
theorem Stage.step (hs : Stage A s isInitiator) :
    Stage A (finalState (foretiasNoiseStep C random input output s)) isInitiator := by
  cases hs with
  | start hs hck => exact stage_of_start hC random input output hs hck
  | wroteFirst hs => exact stage_of_wroteFirst hC random input output hs
  | readFirst hs hck => exact stage_of_readFirst hC random input output hs hck
  | readSecond hs => exact stage_of_readSecond hC random input output hs
  | wroteSecond hs => exact stage_of_wroteSecond hC random input output hs
  | completed hcomplete hs =>
    rw [finalState_step_of_complete random input output hcomplete]
    exact .completed hcomplete hs

end Steps

/-! ### Transport calls -/

section Transport

variable {A : Party C} {e : Bytes32} {d : Agreements} {isInitiator : Bool} {s : Session}

/-- A send before completion changes nothing. -/
theorem finalState_send_of_incomplete (hs : s.handshakeComplete = false) (plaintext : Bytes)
    (room : ℕ) : finalState (foretiasNoiseSend C plaintext room s) = s := by
  rw [foretiasNoiseSend, bind_of_ok (get_apply s), bind_apply, require_of_false (by simp [hs])]
  rfl

/-- A receive before completion changes nothing. -/
theorem finalState_recv_of_incomplete (hs : s.handshakeComplete = false) (ciphertext : Bytes) :
    finalState (foretiasNoiseRecv C ciphertext s) = s := by
  rw [foretiasNoiseRecv, bind_of_ok (get_apply s), bind_apply, require_of_false (by simp [hs])]
  rfl

/-- What a side has done does not change when its counters go on, if what it opens then is under a
key that it may open with. -/
theorem Authenticated.count (hs : Authenticated C isInitiator e d s) (sendNonce recvNonce : UInt64)
    {c : SodiumCall} (hc : ∀ key, c.openKey? = some key →
      key ∈ [d.payloadKey C isInitiator, d.recvKey C isInitiator]) :
    Authenticated C isInitiator e d { s with sendNonce, recvNonce, calls := s.calls ++ [c] } where
  fresh := List.mem_append_left _ hs.fresh
  ee := hs.ee
  withPeer := hs.withPeer
  withOwn := hs.withOwn
  received := by
    obtain ⟨nonce, ad, ct, hreceived⟩ := hs.received
    exact ⟨nonce, ad, ct, List.mem_append_left _ hreceived⟩
  checked := hs.checked.concat rfl hc
  recvKey := hs.recvKey

/-- A session is complete, or its handshake is going on. -/
theorem Stage.incomplete_or (hs : Stage A s isInitiator) :
    s.handshakeComplete = false ∨
      s.handshakeComplete = true ∧ ∃ e d, Authenticated C isInitiator e d s := by
  cases hs with
  | start hs | readFirst hs => exact .inl hs.incomplete
  | wroteFirst hs | readSecond hs | wroteSecond hs => exact .inl hs.incomplete
  | completed hcomplete hs => exact .inr ⟨hcomplete, _, _, hs⟩

/-- so does sending, -/
theorem Stage.send (hs : Stage A s isInitiator) (plaintext : Bytes) (room : ℕ) :
    Stage A (finalState (foretiasNoiseSend C plaintext room s)) isInitiator := by
  obtain hincomplete | ⟨hcomplete, e, d, hauth⟩ := hs.incomplete_or
  · rwa [finalState_send_of_incomplete hincomplete]
  cases hrun : foretiasNoiseSend C plaintext room s with
  | ok ct t =>
    obtain ⟨-, -, k, -, henc⟩ := foretiasNoiseSend_eq_ok.1 hrun
    obtain ⟨-, -, rfl⟩ := nhAeEnc_eq_ok.1 henc
    exact .completed hcomplete (hauth.count _ _ fun _ h ↦ absurd h.symm (Option.some_ne_none _))
  | error r t =>
    obtain rfl : t = s := keepsOnError_foretiasNoiseSend plaintext room s r t hrun
    exact hs

/-- and receiving. -/
theorem Stage.recv (hs : Stage A s isInitiator) (ciphertext : Bytes) :
    Stage A (finalState (foretiasNoiseRecv C ciphertext s)) isInitiator := by
  obtain hincomplete | ⟨hcomplete, e, d, hauth⟩ := hs.incomplete_or
  · rwa [finalState_recv_of_incomplete hincomplete]
  cases hrun : foretiasNoiseRecv C ciphertext s with
  | ok pt t =>
    obtain ⟨-, -, k, hk, hdec⟩ := foretiasNoiseRecv_eq_ok.1 hrun
    obtain rfl : d.recvKey C isInitiator = k := Option.some_inj.1 (hauth.recvKey.symm.trans hk)
    obtain ⟨-, -, rfl⟩ := nhAeDec_eq_ok.1 hdec
    refine .completed hcomplete (hauth.count _ _ fun key hkey ↦ ?_)
    rw [← Option.some_inj.1 hkey]
    exact List.mem_cons_of_mem _ (List.mem_singleton_self _)
  | error r t =>
    obtain rfl : t = s := keepsOnError_foretiasNoiseRecv ciphertext s r t hrun
    exact hs

end Transport

/-! ### Runs -/

section Runs

variable {A : Party C} {isInitiator : Bool} {s t : Session} {M : PrivkeyModule}

/-- A call finds the session where the last one left it. -/
theorem Stage.under (hs : Stage A s isInitiator) (hM : M.instanceKek = s.keyModule.instanceKek) :
    Stage A (s.under M) isInitiator := by
  have hcore : (s.under M).core = s.core := Prod.ext hM rfl
  cases hs with
  | start hs hck =>
    exact .start (hs.of_core hcore) ((Session.chainingKey_of_core hcore).trans hck)
  | wroteFirst hs => exact .wroteFirst (hs.of_beforeSecond (Prod.ext hcore rfl) fun _ hc ↦ hc)
  | readFirst hs hck =>
    exact .readFirst (hs.of_core hcore) ((Session.chainingKey_of_core hcore).trans hck)
  | readSecond hs =>
    exact .readSecond (hs.of_beforeThird (Prod.ext hcore rfl) (fun _ hc ↦ hc) hs.checked)
  | wroteSecond hs =>
    exact .wroteSecond (hs.of_awaitingThird (Prod.ext hcore rfl) fun _ hc ↦ hc)
  | completed hcomplete hs => exact .completed hcomplete (hs.under hM)

/-- The call finds the instance key that the last one left. -/
def SameKek (s : Session) (i : PrivkeyModule × NoiseCall) : Prop :=
  i.1.instanceKek = s.keyModule.instanceKek

/-- Whether each of a list of calls finds the instance key that the last one left. -/
def Session.keepsKek (C : Sodium) (s : Session) : List (PrivkeyModule × NoiseCall) → Bool
  | [] => true
  | i :: is =>
    i.1.instanceKek = s.keyModule.instanceKek &&
      (finalState (i.2.run C (s.under i.1))).keepsKek C is

theorem guardedRun_after (s : Session) (is : List (PrivkeyModule × NoiseCall))
    (h : s.keepsKek C is = true) : Run (Guarded (CallStep C) SameKek) s is (s.after C is) := by
  induction is generalizing s with
  | nil => exact .nil s
  | cons i is ih =>
    rw [Session.keepsKek, Bool.and_eq_true, decide_eq_true_iff] at h
    exact .cons ⟨h.1, rfl⟩ (ih _ h.2)

/-- Each call under the same instance key leaves a session at some stage. -/
theorem Stage.of_callStep (hC : SecretboxCorrect C) {i : PrivkeyModule × NoiseCall}
    (hs : Stage A s isInitiator) (hstep : Guarded (CallStep C) SameKek s i t) :
    Stage A t isInitiator := by
  obtain ⟨hM, rfl⟩ := hstep
  have hs := hs.under hM
  obtain ⟨M, step | send | recv⟩ := i
  · exact hs.step hC _ _ _
  · rw [NoiseCall.run, finalState_bind_pure]
    exact hs.send _ _
  · rw [NoiseCall.run, finalState_bind_pure]
    exact hs.recv _

end Runs

/-- **What completion says of the peer.** In every run of a session under one instance key, with
any bytes from the network and any failures, a session that reports completion reports a static
key that it decrypted in this handshake; and it has made the agreement of a fresh ephemeral key
with that static key, which the holder of the static private key makes too, and has decrypted
nothing since but under keys that come from the agreement. -/
theorem authenticated_of_run (hbox : SecretboxCorrect C) (hdh : KeyAgreementCorrect C)
    {init : NoiseInit} {theirStaticPub : Option Bytes32} {isInitiator : Bool}
    {memory s₀ s : Session} {is : List (PrivkeyModule × NoiseCall)}
    (hinit : init.run C theirStaticPub isInitiator memory = .ok ⟨⟩ s₀)
    (hrun : Run (Guarded (CallStep C) SameKek) s₀ is s) (hcomplete : s.handshakeComplete = true) :
    s.remoteStaticPub = some s.remoteStatic ∧ ∃ e d, Authenticated C isInitiator e d s ∧
      ∀ n epub, C.scalarmultBase n = some s.remoteStatic → C.scalarmultBase e = some epub →
        C.scalarmult n epub = some (d.withPeer isInitiator) := by
  obtain ⟨A, hA, hck, -⟩ := exists_party_of_init hbox hinit
  have hstage : Stage A s isInitiator :=
    hrun.invariant (I := fun s ↦ Stage A s isInitiator)
      (fun hs hstep ↦ hs.of_callStep hbox hstep) (.start hA.toHandshaking hck)
  obtain hincomplete | ⟨-, e, d, hauth⟩ := hstage.incomplete_or
  · rw [hcomplete] at hincomplete
    cases hincomplete
  refine ⟨ForetiasNoiseState.remoteStaticPub_of_complete hcomplete fun hzero ↦ ?_, e, d, hauth,
    fun n epub hn hepub ↦ ?_⟩
  · have hpeer := hauth.withPeer
    rw [hzero, hdh.scalarmult_zero] at hpeer
    cases hpeer
  · rw [← hauth.withPeer, hdh.comm hn hepub]

/-! ### A peer without its static private key -/

/-- A second message for the first message `first`, with any static key `rs`: it takes the
ephemeral scalar `e` and no other private key. -/
def impostorSecond (C : Sodium) (e rs : Bytes32) (first : Bytes) : Option Bytes := do
  let epub ← C.scalarmultBase e
  let ee ← C.scalarmult e (.read nhD first)
  let h := nhMixHash C (nhMixHash C (protocolHash C) first) epub.toList
  let ct ← C.aeadEncrypt (nhMixKey C (protocolHash C) ee).2 (nhNonce 0) h.toList rs.toList
  pure (epub.toList ++ ct)

/-- An initiator that was given the static key made of sevens. -/
def pinnedSession : Session :=
  finalState ((NoiseInit.ed25519 (.replicate 32 5)).run .transparent (some (.replicate 32 7)) true
    .blank)

/-- Its handshake with a peer that shows the static key made of elevens. -/
def impostorHandshake : List (PrivkeyModule × NoiseCall) :=
  [.step (.replicate 32 3) none (some 128),
    .step default (impostorSecond .transparent (.replicate 32 9) (.replicate 32 11)
      (List.replicate 32 3)) (some 128),
    .step default none (some 128)].map fun c ↦ (.zeroKek, c)

theorem pinnedSession_eq :
    (NoiseInit.ed25519 (.replicate 32 5)).run .transparent (some (.replicate 32 7)) true .blank =
      .ok ⟨⟩ pinnedSession := rfl

theorem run_impostorHandshake :
    Run (Guarded (CallStep .transparent) SameKek) pinnedSession impostorHandshake
      (pinnedSession.after .transparent impostorHandshake) :=
  guardedRun_after _ _ (by decide +kernel)

theorem complete_impostorHandshake :
    (pinnedSession.after .transparent impostorHandshake).handshakeComplete = true := by
  decide +kernel

theorem authenticated_of_run_impostorHandshake :
    (pinnedSession.after .transparent impostorHandshake).remoteStaticPub =
        some (pinnedSession.after .transparent impostorHandshake).remoteStatic ∧
      ∃ e d, Authenticated .transparent true e d
          (pinnedSession.after .transparent impostorHandshake) ∧
        ∀ n epub, Sodium.transparent.scalarmultBase n =
            some (pinnedSession.after .transparent impostorHandshake).remoteStatic →
          Sodium.transparent.scalarmultBase e = some epub →
            Sodium.transparent.scalarmult n epub = some (d.withPeer true) :=
  authenticated_of_run secretboxCorrect_transparent keyAgreementCorrect_transparent
    pinnedSession_eq run_impostorHandshake complete_impostorHandshake

/-- The sessions that some run takes to completion, from an initialisation with the static key
`theirStaticPub`. -/
def ReportsCompletion (C : Sodium) (theirStaticPub : Option Bytes32) (s : Session) : Prop :=
  ∃ (init : NoiseInit) (isInitiator : Bool) (memory s₀ : Session)
    (is : List (PrivkeyModule × NoiseCall)),
    init.run C theirStaticPub isInitiator memory = .ok ⟨⟩ s₀ ∧
      Run (Guarded (CallStep C) SameKek) s₀ is s ∧ s.handshakeComplete = true

/-- Whether the call is an agreement with the point `p`. -/
def SodiumCall.agreesWith (p : Bytes32) : SodiumCall → Bool
  | scalarmult _ q _ => q = p
  | _ => false

/-- Whether anything was decrypted after an agreement with the point `p`. -/
def checkedAgreement (p : Bytes32) (calls : List SodiumCall) : Bool :=
  (calls.dropWhile fun c ↦ !c.agreesWith p).any fun c ↦ c.openKey?.isSome

/-- Completion does not say that the static key reported is the one given to the initialiser, nor
that anything was checked under a key from the agreement with it. -/
theorem completion_without_peer :
    (¬∀ C, SecretboxCorrect C → KeyAgreementCorrect C → AeadCorrect C →
      ∀ theirStaticPub s, ReportsCompletion C theirStaticPub s →
        ∀ p, theirStaticPub = some p → s.remoteStaticPub = some p) ∧
    ¬∀ C, SecretboxCorrect C → KeyAgreementCorrect C → AeadCorrect C →
      ∀ theirStaticPub s, ReportsCompletion C theirStaticPub s →
        checkedAgreement s.remoteStatic s.calls = true := by
  have hdone : ReportsCompletion .transparent (some (.replicate 32 7))
      (pinnedSession.after .transparent impostorHandshake) :=
    ⟨_, _, _, _, _, pinnedSession_eq, run_impostorHandshake, complete_impostorHandshake⟩
  constructor
  · intro hclaim
    have hpinned := hclaim .transparent secretboxCorrect_transparent
      keyAgreementCorrect_transparent aeadCorrect_transparent _ _ hdone _ rfl
    exact absurd hpinned (by decide +kernel)
  · intro hclaim
    have hchecked := hclaim .transparent secretboxCorrect_transparent
      keyAgreementCorrect_transparent aeadCorrect_transparent _ _ hdone
    exact absurd hchecked (by decide +kernel)

end Foretias

import Foretias.C11.NoiseXx
import Foretias.Library.Run

/-!
# Runs of a Noise session

A session is used by calls in any order, with any inputs, each of which may fail. The key module
is the process's, so a call finds its variables as other users of the module left them.

What holds of the record of libsodium calls and the two counters is kept by every call once it is
kept by the few places that make such a call (`CallInvariant`).
-/

namespace Foretias

open ErrorState

/-- The initialisers of a session, with the private key. -/
inductive NoiseInit
  /-- `foretias_noise_init_ed25519`. -/
  | ed25519 (myStaticPriv : Bytes32)
  /-- `foretias_noise_init_with_handle`. -/
  | withHandle (privHandle : SealedKey)

/-- The calls on a session. -/
inductive NoiseCall
  /-- `foretias_noise_step`. -/
  | step (random : Bytes32) (input : Option Bytes) (output : Option ℕ)
  /-- `foretias_noise_send`. -/
  | send (plaintext : Bytes) (room : ℕ)
  /-- `foretias_noise_recv`. -/
  | recv (ciphertext : Bytes)

/-- The session as a call finds it when the key module's variables are `M`. -/
def Session.under (s : Session) (M : PrivkeyModule) : Session := { s with keyModule := M }

variable (C : Sodium)

/-- Initialise a session. -/
def NoiseInit.run (theirStaticPub : Option Bytes32) (isInitiator : Bool) :
    NoiseInit → NoiseM PUnit
  | ed25519 myStaticPriv => foretiasNoiseInitEd25519 C myStaticPriv theirStaticPub isInitiator
  | withHandle privHandle => foretiasNoiseInitWithHandle C privHandle theirStaticPub isInitiator

/-- Make a call. -/
def NoiseCall.run : NoiseCall → NoiseM (Option Bytes)
  | step random input output => foretiasNoiseStep C random input output
  | send plaintext room => do
    let ct ← foretiasNoiseSend C plaintext room
    pure (some ct)
  | recv ciphertext => do
    let pt ← foretiasNoiseRecv C ciphertext
    pure (some pt)

/-- A call takes a session to the state it leaves, whether it succeeds or fails. -/
def CallStep (s : Session) (i : PrivkeyModule × NoiseCall) (t : Session) : Prop :=
  t = finalState (i.2.run C (s.under i.1))

/-- The session that a list of calls leaves. -/
def Session.after (s : Session) (is : List (PrivkeyModule × NoiseCall)) : Session :=
  is.foldl (fun s i ↦ finalState (i.2.run C (s.under i.1))) s

theorem run_after (s : Session) (is : List (PrivkeyModule × NoiseCall)) :
    Run (CallStep C) s is (s.after C is) := by
  induction is generalizing s with
  | nil => exact .nil s
  | cons i is ih => exact .cons rfl (ih _)

/-- A session of the transparent instance, whose static key is made of one byte. -/
def Session.sample (seed : UInt8) (isInitiator : Bool) : Session :=
  finalState ((NoiseInit.ed25519 (.replicate 32 seed)).run .transparent none isInitiator .blank)

/-! ### What a failing send or receive keeps -/

section Failures

variable {C}

theorem preserves_nhDecryptKey {γ : Type} {π : Session → γ} (f : SecretField) :
    Preserves π (nhDecryptKey C f) :=
  .bind .get fun _ ↦ .bind (.ofOption _ _) fun _ ↦ .ofOption _ _

/-- An encryption that fails leaves the counter as it was. -/
theorem keepsOnError_nhAeEnc (k : Bytes32) (ad pt : Bytes) :
    KeepsOnError id (nhAeEnc C k ad pt) :=
  .bind .get fun _ ↦ .bind (.require _) fun _ ↦ .bind (.ofOption _ _) fun _ ↦
    .of_forall_ok fun _ ↦ ⟨_, _, rfl⟩

/-- A decryption that fails leaves the counter as it was. -/
theorem keepsOnError_nhAeDec (k : Bytes32) (ad ct : Bytes) :
    KeepsOnError id (nhAeDec C k ad ct) :=
  .bind .get fun _ ↦ .bind (.require _) fun _ ↦ .bind (.ofOption _ _) fun _ ↦
    .of_forall_ok fun _ ↦ ⟨_, _, rfl⟩

/-- A send that fails changes nothing. -/
theorem keepsOnError_foretiasNoiseSend (plaintext : Bytes) (room : ℕ) :
    KeepsOnError id (foretiasNoiseSend C plaintext room) :=
  .bind .get fun _ ↦ .bind (.require _) fun _ ↦ .bind (.require _) fun _ ↦
    .bind (preserves_nhDecryptKey _) fun _ ↦ .orThrow (keepsOnError_nhAeEnc _ _ _) _

/-- A receive that fails changes nothing. -/
theorem keepsOnError_foretiasNoiseRecv (ciphertext : Bytes) :
    KeepsOnError id (foretiasNoiseRecv C ciphertext) :=
  .bind .get fun _ ↦ .bind (.require _) fun _ ↦ .bind (.require _) fun _ ↦
    .bind (preserves_nhDecryptKey _) fun _ ↦ .orThrow (keepsOnError_nhAeDec _ _ _) _

end Failures

/-! ### What the procedures that only write keep -/

/-- A property of the record and the counters that random bytes, key agreements and
encryptions keep. -/
structure WriteInvariant (I : Session → Prop) : Prop where
  /-- Nothing else is read. -/
  congr {s t : Session} : I s → t.calls = s.calls → t.sendNonce = s.sendNonce →
    t.recvNonce = s.recvNonce → I t
  /-- Random bytes. -/
  randombytes {s : Session} (buf : Bytes32) : I s → I (s.record (.randombytes buf))
  /-- A key agreement. -/
  scalarmult {s : Session} (n p q : Bytes32) : I s → I (s.record (.scalarmult n p q))
  /-- An encryption under the nonce of the send counter. -/
  encrypt {s : Session} (k : Bytes32) (ad pt ct : Bytes) : I s → s.sendNonce ≠ uint64Max →
    I (s.countSend (.encrypt k (nhNonce s.sendNonce) ad pt ct))

/-- A write invariant that decryptions keep too. -/
structure CallInvariant (I : Session → Prop) : Prop extends WriteInvariant I where
  /-- A decryption. -/
  decrypt {s : Session} (k : Bytes32) (ad ct pt : Bytes) : I s → s.recvNonce ≠ uint64Max →
    I (s.countRecv (.decrypt k (nhNonce s.recvNonce) ad ct pt))

variable {C} {I : Session → Prop}

/-! A procedure that only calls procedures below keeps what they keep, so each rule here follows
its procedure's text. -/

theorem maintains_nhDecryptKey (f : SecretField) : Maintains I (nhDecryptKey C f) :=
  .bind .get fun _ ↦ .bind (.ofOption _ _) fun _ ↦ .ofOption _ _

theorem maintains_requireInput (input : Option Bytes) (n : ℕ) :
    Maintains I (requireInput input n) :=
  .bind (.ofOption _ _) fun _ ↦ .bind (.require _) fun _ ↦ .pure _

theorem maintains_requireOutput (output : Option ℕ) (n : ℕ) :
    Maintains I (requireOutput output n) :=
  .bind (.ofOption _ _) fun _ ↦ .require _

namespace WriteInvariant

theorem modify (hI : WriteInvariant I) {f : Session → Session}
    (hcalls : ∀ s, (f s).calls = s.calls) (hsend : ∀ s, (f s).sendNonce = s.sendNonce)
    (hrecv : ∀ s, (f s).recvNonce = s.recvNonce) : Maintains I (modify f : NoiseM PUnit) :=
  .modify fun s hs ↦ hI.congr hs (hcalls s) (hsend s) (hrecv s)

theorem nhX25519 (hI : WriteInvariant I) (f : SecretField) (p : Bytes32) :
    Maintains I (nhX25519 C f p) :=
  .bind (maintains_nhDecryptKey f) fun n ↦ .bind (.ofOption _ _) fun q ↦
    .bind (.modify fun _ ↦ hI.scalarmult n p q) fun _ ↦ .pure _

theorem nhEncryptKey (hI : WriteInvariant I) (f : SecretField) (k : Bytes32) :
    Maintains I (nhEncryptKey C f k) := by
  intro s hs
  rw [Foretias.nhEncryptKey, bind_of_ok (get_apply s)]
  have hstore : ∀ a, I (s.store f a) := fun a ↦ hI.congr hs rfl rfl rfl
  cases s.keyModule.instanceKek with
  | none => exact hs
  | some kek =>
    rw [bind_of_ok (ofOption_some_apply _ kek s), bind_of_ok (set_apply s _)]
    cases C.secretboxEasy k (deriveNonce C (s.keyModule.keyGenCounter + 1)) kek with
    | none => exact hstore _
    | some c => exact hstore _

theorem nhAeEnc (hI : WriteInvariant I) (k : Bytes32) (ad pt : Bytes) :
    Maintains I (nhAeEnc C k ad pt) := by
  intro s hs
  rw [Foretias.nhAeEnc, bind_of_ok (get_apply s)]
  by_cases hn : s.sendNonce ≠ uint64Max
  · rw [bind_of_ok (require_of_true hn _ s)]
    cases C.aeadEncrypt k (nhNonce s.sendNonce) ad pt with
    | none => exact hs
    | some ct => exact hI.encrypt k ad pt ct hs hn
  · rw [bind_apply, require_of_false hn]
    exact hs

theorem nhEh (hI : WriteInvariant I) (h k : Bytes32) (pt : Bytes) :
    Maintains I (nhEh C h k pt) :=
  .bind (.orThrow (hI.nhAeEnc k _ pt) _) fun _ ↦ .pure _

theorem generateEphemeral (hI : WriteInvariant I) (f : SecretField) (random : Bytes32) :
    Maintains I (generateEphemeral C f random) :=
  .bind (.modify fun _ ↦ hI.randombytes random) fun _ ↦ .bind (.ofOption _ _) fun _ ↦
    .bind (hI.modify (fun _ ↦ rfl) (fun _ ↦ rfl) fun _ ↦ rfl) fun _ ↦
    .bind (hI.nhEncryptKey f random) fun _ ↦ .pure _

theorem storeHandshakeKeys (hI : WriteInvariant I) (k ck h : Bytes32) :
    Maintains I (storeHandshakeKeys C k ck h) :=
  .bind (hI.nhEncryptKey _ k) fun _ ↦ .bind (hI.nhEncryptKey _ ck) fun _ ↦
    hI.modify (fun _ ↦ rfl) (fun _ ↦ rfl) fun _ ↦ rfl

theorem storeTransportKeys (hI : WriteInvariant I) (sk rk ck h : Bytes32) :
    Maintains I (storeTransportKeys C sk rk ck h) :=
  .bind (hI.nhEncryptKey _ sk) fun _ ↦ .bind (hI.nhEncryptKey _ rk) fun _ ↦
    .bind (hI.nhEncryptKey _ ck) fun _ ↦ hI.modify (fun _ ↦ rfl) (fun _ ↦ rfl) fun _ ↦ rfl

theorem initFromSeed (hI : WriteInvariant I) (seed : Bytes32) (theirStaticPub : Option Bytes32)
    (isInitiator : Bool) : Maintains I (initFromSeed C seed theirStaticPub isInitiator) :=
  .bind (.ofOption _ _) fun _ ↦ .bind (hI.nhEncryptKey _ _) fun _ ↦
    .bind (hI.modify (fun _ ↦ rfl) (fun _ ↦ rfl) fun _ ↦ rfl) fun _ ↦
    .bind (hI.nhEncryptKey _ _) fun _ ↦ hI.modify (fun _ ↦ rfl) (fun _ ↦ rfl) fun _ ↦ rfl

/-- What holds of a zeroed state holds of what an initialiser leaves. -/
theorem of_init (hI : WriteInvariant I) (hzero : ∀ M, I ⟨.zeroed, M, []⟩) (init : NoiseInit)
    (theirStaticPub : Option Bytes32) (isInitiator : Bool) (s : Session) :
    I (finalState (init.run C theirStaticPub isInitiator s)) := by
  cases init with
  | ed25519 seed => exact hI.initFromSeed seed theirStaticPub isInitiator _ (hzero _)
  | withHandle handle =>
    have hrest : Maintains I (do
        let s ← get
        let kek ← ofOption .errInternal s.keyModule.instanceKek
        let seed ← ofOption .errInternal
          (C.secretboxOpenEasy handle.encrypted handle.nonce kek)
        Foretias.initFromSeed C seed theirStaticPub isInitiator : NoiseM PUnit) :=
      .bind .get fun _ ↦ .bind (.ofOption _ _) fun _ ↦ .bind (.ofOption _ _) fun seed ↦
        hI.initFromSeed seed theirStaticPub isInitiator
    exact hrest _ (hzero _)

theorem initiatorStep0 (hI : WriteInvariant I) (random : Bytes32) (output : Option ℕ)
    (h : Bytes32) : Maintains I (initiatorStep0 C random output h) :=
  .bind (maintains_requireOutput _ _) fun _ ↦ .bind (hI.generateEphemeral _ random) fun _ ↦
    .bind (hI.modify (fun _ ↦ rfl) (fun _ ↦ rfl) fun _ ↦ rfl) fun _ ↦ .pure _

theorem initiatorStep2 (hI : WriteInvariant I) (output : Option ℕ) (ck h : Bytes32) :
    Maintains I (initiatorStep2 C output ck h) :=
  .bind (maintains_requireOutput _ _) fun _ ↦ .bind (maintains_nhDecryptKey _) fun _ ↦
    .bind .get fun _ ↦ .bind (.orThrow (hI.nhEh _ _ _) _) fun _ ↦
    .bind (hI.nhX25519 _ _) fun _ ↦ .bind (hI.storeTransportKeys _ _ _ _) fun _ ↦ .pure _

theorem responderStep0 (hI : WriteInvariant I) (input : Option Bytes) (h : Bytes32) :
    Maintains I (responderStep0 C input h) :=
  .bind (maintains_requireInput _ _) fun _ ↦
    .bind (hI.modify (fun _ ↦ rfl) (fun _ ↦ rfl) fun _ ↦ rfl) fun _ ↦
    .pure _

theorem responderStep1 (hI : WriteInvariant I) (random : Bytes32) (output : Option ℕ)
    (ck h : Bytes32) : Maintains I (responderStep1 C random output ck h) :=
  .bind (maintains_requireOutput _ _) fun _ ↦ .bind (hI.generateEphemeral _ random) fun _ ↦
    .bind .get fun _ ↦ .bind (hI.nhX25519 _ _) fun _ ↦
    .bind (.orThrow (hI.nhEh _ _ _) _) fun _ ↦ .bind (hI.nhX25519 _ _) fun _ ↦
    .bind (hI.storeHandshakeKeys _ _ _) fun _ ↦ .pure _

theorem foretiasNoiseSend (hI : WriteInvariant I) (plaintext : Bytes) (room : ℕ) :
    Maintains I (foretiasNoiseSend C plaintext room) :=
  .bind .get fun _ ↦ .bind (.require _) fun _ ↦ .bind (.require _) fun _ ↦
    .bind (maintains_nhDecryptKey _) fun _ ↦ .orThrow (hI.nhAeEnc _ _ _) _

end WriteInvariant

/-! ### What every call keeps -/

namespace CallInvariant

theorem nhAeDec (hI : CallInvariant I) (k : Bytes32) (ad ct : Bytes) :
    Maintains I (nhAeDec C k ad ct) := by
  intro s hs
  rw [Foretias.nhAeDec, bind_of_ok (get_apply s)]
  by_cases hn : s.recvNonce ≠ uint64Max
  · rw [bind_of_ok (require_of_true hn _ s)]
    cases C.aeadDecrypt k (nhNonce s.recvNonce) ad ct with
    | none => exact hs
    | some pt => exact hI.decrypt k ad ct pt hs hn
  · rw [bind_apply, require_of_false hn]
    exact hs

theorem nhDecHash (hI : CallInvariant I) (h k : Bytes32) (ct : Bytes) :
    Maintains I (nhDecHash C h k ct) :=
  .bind (.orThrow (hI.nhAeDec k _ ct) _) fun _ ↦ .pure _

theorem readPayload (hI : CallInvariant I) (h k : Bytes32) (payload : Bytes) :
    Maintains I (readPayload C h k payload) :=
  .ite (.bind (.require _) fun _ ↦ .bind (.orThrow (hI.nhDecHash _ _ _) _) fun _ ↦ .pure _)
    (.pure _)

theorem initiatorStep1 (hI : CallInvariant I) (input : Option Bytes) (ck h : Bytes32) :
    Maintains I (initiatorStep1 C input ck h) :=
  .bind (maintains_requireInput _ _) fun _ ↦
    .bind (hI.modify (fun _ ↦ rfl) (fun _ ↦ rfl) fun _ ↦ rfl) fun _ ↦
    .bind (hI.nhX25519 _ _) fun _ ↦ .bind (.orThrow (hI.nhDecHash _ _ _) _) fun _ ↦
    .bind (.require _) fun _ ↦ .bind (hI.modify (fun _ ↦ rfl) (fun _ ↦ rfl) fun _ ↦ rfl) fun _ ↦
    .bind (hI.nhX25519 _ _) fun _ ↦ .bind (hI.readPayload _ _ _) fun _ ↦
    .bind (hI.storeHandshakeKeys _ _ _) fun _ ↦ .pure _

theorem responderStep2 (hI : CallInvariant I) (input : Option Bytes) (ck h : Bytes32) :
    Maintains I (responderStep2 C input ck h) :=
  .bind (maintains_requireInput _ _) fun _ ↦ .bind (maintains_nhDecryptKey _) fun _ ↦
    .bind (.orThrow (hI.nhDecHash _ _ _) _) fun _ ↦ .bind (.require _) fun _ ↦
    .bind (hI.modify (fun _ ↦ rfl) (fun _ ↦ rfl) fun _ ↦ rfl) fun _ ↦
    .bind (hI.nhX25519 _ _) fun _ ↦
    .bind (hI.readPayload _ _ _) fun _ ↦ .bind (hI.storeTransportKeys _ _ _ _) fun _ ↦ .pure _

theorem handshakeCase (hI : CallInvariant I) (isInitiator : Bool) (step : ℕ) (random : Bytes32)
    (input : Option Bytes) (output : Option ℕ) (ck h : Bytes32) :
    Maintains I (handshakeCase C isInitiator step random input output ck h) := by
  unfold Foretias.handshakeCase
  split
  · exact hI.initiatorStep0 random output h
  · exact hI.initiatorStep1 input ck h
  · exact hI.initiatorStep2 output ck h
  · exact hI.responderStep0 input h
  · exact hI.responderStep1 random output ck h
  · exact hI.responderStep2 input ck h
  · exact .throw _

theorem foretiasNoiseStep (hI : CallInvariant I) (random : Bytes32) (input : Option Bytes)
    (output : Option ℕ) : Maintains I (foretiasNoiseStep C random input output) :=
  .bind .get fun _ ↦ .bind (.require _) fun _ ↦ .bind (maintains_nhDecryptKey _) fun _ ↦
    hI.handshakeCase _ _ _ _ _ _ _

theorem foretiasNoiseRecv (hI : CallInvariant I) (ciphertext : Bytes) :
    Maintains I (foretiasNoiseRecv C ciphertext) :=
  .bind .get fun _ ↦ .bind (.require _) fun _ ↦ .bind (.require _) fun _ ↦
    .bind (maintains_nhDecryptKey _) fun _ ↦ .orThrow (hI.nhAeDec _ _ _) _

theorem run (hI : CallInvariant I) (c : NoiseCall) : Maintains I (c.run C) := by
  cases c with
  | step random input output => exact hI.foretiasNoiseStep random input output
  | send plaintext room => exact .bind (hI.foretiasNoiseSend plaintext room) fun _ ↦ .pure _
  | recv ciphertext => exact .bind (hI.foretiasNoiseRecv ciphertext) fun _ ↦ .pure _

/-- A call invariant holds through every run. -/
theorem of_run (hI : CallInvariant I) {s t : Session} {is : List (PrivkeyModule × NoiseCall)}
    (hrun : Run (CallStep C) s is t) (hs : I s) : I t := by
  refine hrun.invariant (fun {s i t} hs hstep ↦ ?_) hs
  rw [hstep]
  exact hI.run i.2 _ (hI.congr hs rfl rfl rfl)

end CallInvariant

end Foretias

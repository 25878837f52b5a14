import Foretias.C11.NoiseFailures
import Mathlib.Data.Set.Insert

/-!
# Errors of a Noise session

A call that returns an error should leave the session as if it had not been made. A receive does;
a handshake step does unless it fails after it has counted a message part or taken over a new
ephemeral key (`Session.Spoils`).

What "as if" means is settled by comparing two sessions: `Session.Alike` says that they agree in all
that later calls read, and the calls on two such sessions answer the same (`answers_eq`).
-/

namespace Foretias

open ErrorState

variable {C : Sodium}

namespace Session

/-- Two sessions that agree but for the record of calls, the own ephemeral key, which no later call
reads, and the sealed secrets outside `L`. -/
structure Alike (L : Set SecretField) (s t : Session) : Prop where
  /-- The sealed secrets in `L`. -/
  secrets : ∀ f ∈ L, t.secrets f = s.secrets f
  /-- The hash. -/
  handshakeHash : t.handshakeHash = s.handshakeHash
  /-- The own static public key. -/
  localStaticPub : t.localStaticPub = s.localStaticPub
  /-- The peer's ephemeral public key. -/
  remoteEphemeral : t.remoteEphemeral = s.remoteEphemeral
  /-- The peer's static public key. -/
  remoteStatic : t.remoteStatic = s.remoteStatic
  /-- The counter of encryptions. -/
  sendNonce : t.sendNonce = s.sendNonce
  /-- The counter of decryptions. -/
  recvNonce : t.recvNonce = s.recvNonce
  /-- The position. -/
  step : t.step = s.step
  /-- The role. -/
  isInitiator : t.isInitiator = s.isInitiator
  /-- Whether the handshake has completed. -/
  handshakeComplete : t.handshakeComplete = s.handshakeComplete

/-- The same for two sessions in the middle of a call, which found the same key module. -/
structure AlikeInCall (L : Set SecretField) (s t : Session) : Prop extends Alike L s t where
  /-- The key module. -/
  keyModule : t.keyModule = s.keyModule

variable {L : Set SecretField} {s t : Session}

theorem Alike.refl (s : Session) : Alike L s s := ⟨fun _ _ ↦ rfl, rfl, rfl, rfl, rfl, rfl, rfl, rfl,
  rfl, rfl⟩

/-- The record of calls is not compared. -/
theorem Alike.record (s : Session) (c : SodiumCall) : Alike L s (s.record c) :=
  { Alike.refl s with }

theorem Alike.under (h : Alike L s t) (M : PrivkeyModule) :
    AlikeInCall L (s.under M) (t.under M) := ⟨{ h with }, rfl⟩

/-- Sessions that agree in more secrets agree in fewer. -/
theorem AlikeInCall.mono {L' : Set SecretField} (h : AlikeInCall L s t) (hL : L' ⊆ L) :
    AlikeInCall L' s t := { h with secrets := fun f hf ↦ h.secrets f (hL hf) }

/-- Sealing the secret `f` on both sides. -/
theorem AlikeInCall.store {L' : Set SecretField} {f : SecretField} {a b : SealedKey}
    (h : AlikeInCall L s t) (hL : L' ⊆ insert f L) (hab : f ∈ L' → b = a) :
    AlikeInCall L' (s.store f a) (t.store f b) := by
  refine { h with secrets := fun g hg ↦ ?_, keyModule := ?_ }
  · show Function.update t.secrets f b g = Function.update s.secrets f a g
    rcases eq_or_ne g f with rfl | hne
    · rw [Function.update_self, Function.update_self, hab hg]
    · rw [Function.update_of_ne hne, Function.update_of_ne hne]
      exact h.secrets g ((hL hg).resolve_left hne)
  · show PrivkeyModule.mk _ _ = PrivkeyModule.mk _ _
    rw [h.keyModule]

end Session

open Session

/-! ### Blocks of two calls -/

section Blocks

variable {L L' : Set SecretField}

/-- Opening a secret in `L` reads only what is compared. -/
theorem agrees_nhDecryptKey {f : SecretField} (hf : f ∈ L) :
    Agrees (AlikeInCall L) (AlikeInCall L) (nhDecryptKey C f) (nhDecryptKey C f) :=
  .get_bind fun u v h ↦ by
    rw [h.keyModule, h.secrets f hf]
    exact .andThen (.ofOption _ _) fun _ ↦ .ofOption _ _

/-- Sealing a secret adds it to those in which the sessions agree. -/
theorem agrees_nhEncryptKey {f : SecretField} (hL' : L' ⊆ insert f L) (k : Bytes32) :
    Agrees (AlikeInCall L) (AlikeInCall L') (nhEncryptKey C f k) (nhEncryptKey C f k) :=
  .get_bind fun u v h ↦ by
    rw [h.keyModule]
    refine .andThen (.ofOption _ _) fun kek ↦ .andThen (.set ?_) fun _ ↦
      .andThen (.ofOption _ _) fun c ↦ .set (h.store hL' fun _ ↦ rfl)
    -- The first write keeps the ciphertext that is there.
    exact h.store (Set.subset_insert f L) fun hf ↦ by rw [h.secrets f hf]

/-- A Diffie-Hellman result depends on its secret alone. -/
theorem agrees_nhX25519 {f : SecretField} (hf : f ∈ L) (p : Bytes32) :
    Agrees (AlikeInCall L) (AlikeInCall L) (nhX25519 C f p) (nhX25519 C f p) :=
  .andThen (agrees_nhDecryptKey hf) fun _ ↦ .andThen (.ofOption _ _) fun _ ↦
    .andThen (.modify fun _ _ h ↦ { h with }) fun _ ↦ .pure _

/-- Encryption reads the counter and no secret. -/
theorem agrees_nhAeEnc (k : Bytes32) (ad pt : Bytes) :
    Agrees (AlikeInCall L) (AlikeInCall L) (nhAeEnc C k ad pt) (nhAeEnc C k ad pt) :=
  .get_bind fun u v h ↦ by
    rw [h.sendNonce]
    refine .andThen (.require _) fun _ ↦ .andThen (.ofOption _ _) fun ct ↦
      .andThen (.set ?_) fun _ ↦ .pure _
    exact { h with sendNonce := congrArg (· + 1) h.sendNonce }

/-- So does decryption. -/
theorem agrees_nhAeDec (k : Bytes32) (ad ct : Bytes) :
    Agrees (AlikeInCall L) (AlikeInCall L) (nhAeDec C k ad ct) (nhAeDec C k ad ct) :=
  .get_bind fun u v h ↦ by
    rw [h.recvNonce]
    refine .andThen (.require _) fun _ ↦ .andThen (.ofOption _ _) fun pt ↦
      .andThen (.set ?_) fun _ ↦ .pure _
    exact { h with recvNonce := congrArg (· + 1) h.recvNonce }

theorem agrees_nhEh (h k : Bytes32) (pt : Bytes) :
    Agrees (AlikeInCall L) (AlikeInCall L) (nhEh C h k pt) (nhEh C h k pt) :=
  .andThen (.orThrow (agrees_nhAeEnc k _ pt) _) fun _ ↦ .pure _

theorem agrees_nhDecHash (h k : Bytes32) (ct : Bytes) :
    Agrees (AlikeInCall L) (AlikeInCall L) (nhDecHash C h k ct) (nhDecHash C h k ct) :=
  .andThen (.orThrow (agrees_nhAeDec k _ ct) _) fun _ ↦ .pure _

/-- What a message carries besides is read with the counter alone. -/
theorem agrees_readPayload (h k : Bytes32) (payload : Bytes) :
    Agrees (AlikeInCall L) (AlikeInCall L) (readPayload C h k payload)
      (readPayload C h k payload) :=
  .ite (.andThen (.require _) fun _ ↦ .andThen (.orThrow (agrees_nhDecHash _ _ _) _) fun _ ↦
    .pure _) (.pure _)

theorem agrees_requireInput (input : Option Bytes) (n : ℕ) :
    Agrees (AlikeInCall L) (AlikeInCall L) (requireInput input n) (requireInput input n) :=
  .andThen (.ofOption _ _) fun _ ↦ .andThen (.require _) fun _ ↦ .pure _

theorem agrees_requireOutput (output : Option ℕ) (n : ℕ) :
    Agrees (AlikeInCall L) (AlikeInCall L) (requireOutput output n) (requireOutput output n) :=
  .andThen (.ofOption _ _) fun _ ↦ .require _

/-- A new ephemeral key replaces the sealed one on both sides. -/
theorem agrees_generateEphemeral {f : SecretField} (hL : L ⊆ L') (hL' : L' ⊆ insert f L)
    (random : Bytes32) :
    Agrees (AlikeInCall L) (AlikeInCall L') (generateEphemeral C f random)
      (generateEphemeral C f random) :=
  .andThen (.modify fun _ _ h ↦ { h with }) fun _ ↦ .andThen (.ofOption _ _) fun _ ↦
    .andThen (.modify fun _ _ h ↦ { h with }) fun _ ↦
    .bind (fun _ _ h ↦ h.mono hL) (agrees_nhEncryptKey hL' random) fun _ ↦ .pure _

theorem agrees_storeHandshakeKeys (k ck h : Bytes32) :
    Agrees (AlikeInCall L) (AlikeInCall L) (storeHandshakeKeys C k ck h)
      (storeHandshakeKeys C k ck h) :=
  .andThen (agrees_nhEncryptKey (Set.subset_insert _ L) k) fun _ ↦
    .andThen (agrees_nhEncryptKey (Set.subset_insert _ L) ck) fun _ ↦
    .modify fun _ _ hst ↦ { hst with handshakeHash := rfl, step := rfl }

/-- Once the transport keys are sealed, the sessions agree in them. -/
theorem agrees_storeTransportKeys (sk rk ck h : Bytes32) :
    Agrees (AlikeInCall L) (AlikeInCall L) (storeTransportKeys C sk rk ck h)
      (storeTransportKeys C sk rk ck h) :=
  .andThen (agrees_nhEncryptKey (Set.subset_insert _ L) sk) fun _ ↦
    .andThen (agrees_nhEncryptKey (Set.subset_insert _ L) rk) fun _ ↦
    .andThen (agrees_nhEncryptKey (Set.subset_insert _ L) ck) fun _ ↦
    .modify fun _ _ hst ↦ { hst with handshakeHash := rfl, step := rfl, handshakeComplete := rfl }

end Blocks

/-! ### Two calls -/

/-- The second message is written alike whatever was sealed as the ephemeral key before: the call
seals a new one. -/
theorem agrees_responderStep1 {L : Set SecretField} (hL : Set.univ ⊆ insert .recvKey L)
    (random : Bytes32) (output : Option ℕ) (ck h : Bytes32) :
    Agrees (AlikeInCall L) (AlikeInCall Set.univ) (responderStep1 C random output ck h)
      (responderStep1 C random output ck h) := by
  refine .andThen (agrees_requireOutput _ _) fun _ ↦
    .bind (fun _ _ h ↦ h.mono (Set.subset_univ L))
      (agrees_generateEphemeral (Set.subset_univ L) hL random) fun epub ↦
      .get_bind fun u v huv ↦ ?_
  rw [huv.remoteEphemeral, huv.localStaticPub]
  exact .andThen (agrees_nhX25519 (Set.mem_univ _) _) fun _ ↦
    .andThen (.orThrow (agrees_nhEh _ _ _) _) fun _ ↦
    .andThen (agrees_nhX25519 (Set.mem_univ _) _) fun _ ↦
    .andThen (agrees_storeHandshakeKeys _ _ _) fun _ ↦ .pure _

/-- The cases of a step: each reads the chaining key and the secrets of its position. -/
theorem agrees_handshakeCase (isInitiator : Bool) (step : ℕ) (random : Bytes32)
    (input : Option Bytes) (output : Option ℕ) (ck h : Bytes32) :
    Agrees (AlikeInCall Set.univ) (AlikeInCall Set.univ)
      (handshakeCase C isInitiator step random input output ck h)
      (handshakeCase C isInitiator step random input output ck h) := by
  unfold handshakeCase
  split
  · exact .andThen (agrees_requireOutput _ _) fun _ ↦
      .andThen (agrees_generateEphemeral Set.Subset.rfl (Set.subset_insert _ _) _) fun _ ↦
      .andThen (.modify fun _ _ hst ↦ { hst with handshakeHash := rfl, step := rfl }) fun _ ↦
      .pure _
  · exact .andThen (agrees_requireInput _ _) fun _ ↦
      .andThen (.modify fun _ _ hst ↦ { hst with remoteEphemeral := rfl }) fun _ ↦
      .andThen (agrees_nhX25519 (Set.mem_univ _) _) fun _ ↦
      .andThen (.orThrow (agrees_nhDecHash _ _ _) _) fun _ ↦ .andThen (.require _) fun _ ↦
      .andThen (.modify fun _ _ hst ↦ { hst with remoteStatic := rfl }) fun _ ↦
      .andThen (agrees_nhX25519 (Set.mem_univ _) _) fun _ ↦
      .andThen (agrees_readPayload _ _ _) fun _ ↦
      .andThen (agrees_storeHandshakeKeys _ _ _) fun _ ↦ .pure _
  · refine .andThen (agrees_requireOutput _ _) fun _ ↦
      .andThen (agrees_nhDecryptKey (Set.mem_univ _)) fun _ ↦ .get_bind fun u v huv ↦ ?_
    rw [huv.remoteEphemeral, huv.localStaticPub]
    exact .andThen (.orThrow (agrees_nhEh _ _ _) _) fun _ ↦
      .andThen (agrees_nhX25519 (Set.mem_univ _) _) fun _ ↦
      .andThen (agrees_storeTransportKeys _ _ _ _) fun _ ↦ .pure _
  · exact .andThen (agrees_requireInput _ _) fun _ ↦
      .andThen (.modify fun _ _ hst ↦
        { hst with remoteEphemeral := rfl, handshakeHash := rfl, step := rfl }) fun _ ↦ .pure _
  · exact agrees_responderStep1 (Set.subset_insert _ _) random output ck h
  · exact .andThen (agrees_requireInput _ _) fun _ ↦
      .andThen (agrees_nhDecryptKey (Set.mem_univ _)) fun _ ↦
      .andThen (.orThrow (agrees_nhDecHash _ _ _) _) fun _ ↦ .andThen (.require _) fun _ ↦
      .andThen (.modify fun _ _ hst ↦ { hst with remoteStatic := rfl }) fun _ ↦
      .andThen (agrees_nhX25519 (Set.mem_univ _) _) fun _ ↦
      .andThen (agrees_readPayload _ _ _) fun _ ↦
      .andThen (agrees_storeTransportKeys _ _ _ _) fun _ ↦ .pure _
  · exact .throw _

/-- A step answers the same on two sessions that agree in every secret. -/
theorem agrees_foretiasNoiseStep (random : Bytes32) (input : Option Bytes) (output : Option ℕ) :
    Agrees (AlikeInCall Set.univ) (AlikeInCall Set.univ) (foretiasNoiseStep C random input output)
      (foretiasNoiseStep C random input output) :=
  .get_bind fun u v h ↦ by
    rw [h.handshakeComplete, h.isInitiator, h.step, h.handshakeHash]
    exact .andThen (.require _) fun _ ↦ .andThen (agrees_nhDecryptKey (Set.mem_univ _)) fun _ ↦
      agrees_handshakeCase _ _ _ _ _ _ _

theorem agrees_foretiasNoiseSend (plaintext : Bytes) (room : ℕ) :
    Agrees (AlikeInCall Set.univ) (AlikeInCall Set.univ) (foretiasNoiseSend C plaintext room)
      (foretiasNoiseSend C plaintext room) :=
  .get_bind fun u v h ↦ by
    rw [h.handshakeComplete]
    exact .andThen (.require _) fun _ ↦ .andThen (.require _) fun _ ↦
      .andThen (agrees_nhDecryptKey (Set.mem_univ _)) fun _ ↦ .orThrow (agrees_nhAeEnc _ _ _) _

theorem agrees_foretiasNoiseRecv (ciphertext : Bytes) :
    Agrees (AlikeInCall Set.univ) (AlikeInCall Set.univ) (foretiasNoiseRecv C ciphertext)
      (foretiasNoiseRecv C ciphertext) :=
  .get_bind fun u v h ↦ by
    rw [h.handshakeComplete]
    exact .andThen (.require _) fun _ ↦ .andThen (.require _) fun _ ↦
      .andThen (agrees_nhDecryptKey (Set.mem_univ _)) fun _ ↦ .orThrow (agrees_nhAeDec _ _ _) _

/-- So does every call. -/
theorem agrees_run (c : NoiseCall) :
    Agrees (AlikeInCall Set.univ) (AlikeInCall Set.univ) (c.run C) (c.run C) := by
  cases c with
  | step random input output => exact agrees_foretiasNoiseStep random input output
  | send plaintext room => exact .andThen (agrees_foretiasNoiseSend plaintext room) fun _ ↦ .pure _
  | recv ciphertext => exact .andThen (agrees_foretiasNoiseRecv ciphertext) fun _ ↦ .pure _

/-! ### The calls that follow -/

namespace Session

/-- A responder that has yet to write the second message. -/
structure AwaitsSecond (s : Session) : Prop where
  /-- The role. -/
  role : s.isInitiator = false
  /-- The position. -/
  step : s.step = 1
  /-- The handshake goes on. -/
  incomplete : s.handshakeComplete = false

/-- Two sessions that later calls do not tell apart: before the second message, the secret that the
call will seal may differ. -/
def Indistinct (s t : Session) : Prop :=
  Alike Set.univ s t ∨ (Alike {SecretField.recvKey}ᶜ s t ∧ s.AwaitsSecond)

variable (C) in
/-- What a list of calls answers, from the session `s` on. -/
def answers (s : Session) :
    List (PrivkeyModule × NoiseCall) → List (Except ForetiasResult (Option Bytes))
  | [] => []
  | i :: is =>
    outcome (i.2.run C (s.under i.1)) :: answers (finalState (i.2.run C (s.under i.1))) is

end Session

section Later

variable (hC : SecretboxCorrect C)

include hC

/-- Whatever a step has written before it fails, the core is as it was. -/
theorem keepsOnError_handshakeCase (kek : Bytes32) (isInitiator : Bool) (step : ℕ)
    (random : Bytes32) (input : Option Bytes) (output : Option ℕ) (ck h : Bytes32) :
    KeepsOnErrorFrom (fun c ↦ c.1 = some kek) Session.core
      (handshakeCase C isInitiator step random input output ck h) := by
  intro s hs e t herror
  unfold handshakeCase at herror
  split at herror
  · exact keepsOnError_initiatorStep0 _ _ _ s e t herror
  · exact congrArg Prod.fst (keepsOnError_initiatorStep1 hC kek _ _ _ s hs e t herror)
  · exact congrArg Prod.fst (keepsOnError_initiatorStep2 hC kek _ _ _ s hs e t herror)
  · exact keepsOnError_responderStep0 _ _ s e t herror
  · exact keepsOnError_responderStep1 hC kek _ _ _ _ s hs e t herror
  · exact congrArg Prod.fst (keepsOnError_responderStep2 hC kek _ _ _ s hs e t herror)
  · cases herror
    rfl

variable {s t : Session} {e : ForetiasResult}

/-- A failing step leaves the position and the secrets that it reads first alone. -/
theorem core_of_step_error {random : Bytes32} {input : Option Bytes} {output : Option ℕ}
    (h : foretiasNoiseStep C random input output s = .error e t) : t.core = s.core := by
  rw [foretiasNoiseStep, bind_of_ok (get_apply s)] at h
  by_cases hcomplete : s.handshakeComplete = false
  swap
  · rw [bind_of_error (require_of_false hcomplete _ s)] at h
    cases h
    rfl
  rw [bind_of_ok (require_of_true hcomplete _ s)] at h
  cases hck : nhDecryptKey C .chainingKey s with
  | error e' t' =>
    rw [bind_of_error hck] at h
    cases h
    have hpreserves : Preserves Session.core (nhDecryptKey C .chainingKey) :=
      preserves_nhDecryptKey _
    exact hpreserves.keepsOnError s _ _ hck
  | ok ck s' =>
    obtain ⟨hsecret, rfl⟩ := nhDecryptKey_eq_ok.1 hck
    obtain ⟨kek, hkek, -⟩ := Option.bind_eq_some_iff.1 hsecret
    rw [bind_of_ok hck] at h
    exact keepsOnError_handshakeCase hC kek _ _ _ _ _ _ _ _ hkek _ _ h

end Later

/-- During the handshake only steps do something. -/
theorem run_of_incomplete {s : Session} (hs : s.handshakeComplete = false) {c : NoiseCall}
    (hc : ∀ random input output, c ≠ .step random input output) :
    c.run C s = .error .errBadInput s := by
  have hfalse : ¬s.handshakeComplete = true := Bool.eq_false_iff.1 hs
  cases c with
  | step random input output => exact absurd rfl (hc random input output)
  | send plaintext room =>
    have hsend : foretiasNoiseSend C plaintext room s = .error .errBadInput s := by
      rw [foretiasNoiseSend, bind_of_ok (get_apply s)]
      exact bind_of_error (require_of_false hfalse _ s)
    exact bind_of_error hsend
  | recv ciphertext =>
    have hrecv : foretiasNoiseRecv C ciphertext s = .error .errBadInput s := by
      rw [foretiasNoiseRecv, bind_of_ok (get_apply s)]
      exact bind_of_error (require_of_false hfalse _ s)
    exact bind_of_error hrecv

namespace Session

variable {s t : Session}

/-- To await the second message is a matter of the core. -/
theorem AwaitsSecond.of_core (hs : s.AwaitsSecond) (h : t.core = s.core) : t.AwaitsSecond where
  role := (congrArg (·.2.2.1) h).trans hs.role
  step := (congrArg (·.2.2.2.1) h).trans hs.step
  incomplete := (congrArg (·.2.1) h).trans hs.incomplete

/-- The step that writes the second message, on two sessions that differ in the secret it seals. -/
theorem matches_step_of_awaitsSecond {L : Set SecretField} (hck : SecretField.chainingKey ∈ L)
    (hL : Set.univ ⊆ insert .recvKey L) (h : AlikeInCall L s t) (hs : s.AwaitsSecond)
    (random : Bytes32) (input : Option Bytes) (output : Option ℕ) :
    Matches (AlikeInCall L) (AlikeInCall Set.univ) (foretiasNoiseStep C random input output s)
      (foretiasNoiseStep C random input output t) := by
  rw [foretiasNoiseStep, bind_of_ok (get_apply s), bind_of_ok (get_apply t), h.handshakeComplete,
    h.isInitiator, h.step, h.handshakeHash, hs.role, hs.step]
  exact (Agrees.andThen (.require _) fun _ ↦ .andThen (agrees_nhDecryptKey hck) fun _ ↦
    agrees_responderStep1 hL _ _ _ _) h

/-- One call on two sessions that later calls do not tell apart. -/
theorem Indistinct.run (hC : SecretboxCorrect C) (h : Indistinct s t) (M : PrivkeyModule)
    (c : NoiseCall) :
    outcome (c.run C (t.under M)) = outcome (c.run C (s.under M)) ∧
      Indistinct (finalState (c.run C (s.under M))) (finalState (c.run C (t.under M))) := by
  rcases h with h | ⟨h, hs⟩
  · have hrun := agrees_run (C := C) c (h.under M)
    exact ⟨hrun.outcome_eq.symm, .inl hrun.finalState.toAlike⟩
  have hs' : (s.under M).AwaitsSecond := ⟨hs.role, hs.step, hs.incomplete⟩
  have ht : (t.under M).handshakeComplete = false := h.handshakeComplete.trans hs.incomplete
  by_cases hc : ∀ random input output, c ≠ .step random input output
  · rw [run_of_incomplete hs'.incomplete hc, run_of_incomplete ht hc]
    exact ⟨rfl, .inr ⟨(h.under M).toAlike, hs'⟩⟩
  push Not at hc
  obtain ⟨random, input, output, rfl⟩ := hc
  have hstep := matches_step_of_awaitsSecond (C := C) (L := {SecretField.recvKey}ᶜ)
    (by decide) (fun f _ ↦ em (f = .recvKey)) (h.under M) hs' random input output
  refine ⟨hstep.outcome_eq.symm, ?_⟩
  show Indistinct (finalState (foretiasNoiseStep C random input output (s.under M)))
    (finalState (foretiasNoiseStep C random input output (t.under M)))
  generalize foretiasNoiseStep C random input output (t.under M) = r at hstep
  cases hs'' : foretiasNoiseStep C random input output (s.under M) with
  | ok out s' =>
    rw [hs''] at hstep
    cases hstep with
    | ok _ hst => exact .inl hst.toAlike
  | error e s' =>
    rw [hs''] at hstep
    cases hstep with
    | error _ hst => exact .inr ⟨hst.toAlike, hs'.of_core (core_of_step_error hC hs'')⟩

/-- Later calls answer the same. -/
theorem Indistinct.answers_eq (hC : SecretboxCorrect C) (h : Indistinct s t)
    (is : List (PrivkeyModule × NoiseCall)) : t.answers C is = s.answers C is := by
  induction is generalizing s t with
  | nil => rfl
  | cons i is ih =>
    obtain ⟨houtcome, hfinal⟩ := h.run hC i.1 i.2
    rw [answers, answers, houtcome, ih hfinal]

/-! ### The steps that spoil a session -/

variable (C)

/-- The encrypted static key of the second message opens. -/
def OpensSecond (s : Session) (ck : Bytes32) (input : Bytes) : Prop :=
  s.recvNonce ≠ uint64Max ∧ ∃ e dh rs, s.secret C .sendKey = some e ∧
    C.scalarmult e (.read nhD input) = some dh ∧
    C.aeadDecrypt (nhMixKey C ck dh).2 (nhNonce s.recvNonce)
      (nhMixHash C s.handshakeHash (FixedBytes.read nhD input).toList).toList
      ((input.drop nhD).take (nhD + nhT)) = some rs

/-- The encrypted static key of the third message opens. -/
def OpensThird (s : Session) (input : Bytes) : Prop :=
  s.recvNonce ≠ uint64Max ∧ ∃ k rs, s.secret C .sendKey = some k ∧
    C.aeadDecrypt k (nhNonce s.recvNonce) s.handshakeHash.toList (input.take (nhD + nhT)) = some rs

/-- The own static key is encrypted for the second message, under the ephemeral key `random`. -/
def SealsSecond (s : Session) (ck random : Bytes32) : Prop :=
  s.sendNonce ≠ uint64Max ∧ ∃ epub dh ct, C.scalarmultBase random = some epub ∧
    C.scalarmult random s.remoteEphemeral = some dh ∧
    C.aeadEncrypt (nhMixKey C ck dh).2 (nhNonce s.sendNonce)
      (nhMixHash C s.handshakeHash epub.toList).toList s.localStaticPub.toList = some ct

/-- The own static key is encrypted for the third message. -/
def SealsThird (s : Session) : Prop :=
  s.sendNonce ≠ uint64Max ∧ ∃ k ct, s.secret C .sendKey = some k ∧
    C.aeadEncrypt k (nhNonce s.sendNonce) s.handshakeHash.toList s.localStaticPub.toList = some ct

/-- The second message is long enough, and it opens or brings a new ephemeral key. -/
def SpoiledBySecond (s : Session) (ck : Bytes32) (input : Option Bytes) : Prop :=
  ∃ bs, input = some bs ∧ nhD + nhD + nhT ≤ bs.length ∧
    (.read nhD bs ≠ s.remoteEphemeral ∨ s.OpensSecond C ck bs)

/-- The third message is long enough and opens. -/
def SpoiledByThird (s : Session) (input : Option Bytes) : Prop :=
  ∃ bs, input = some bs ∧ nhD + nhT ≤ bs.length ∧ s.OpensThird C bs

/-- There is room for a message of `n` bytes. -/
def HasRoomFor (output : Option ℕ) (n : ℕ) : Prop := ∃ room, output = some room ∧ n ≤ room

/-- The case of the role and the position counts a part of a message, or takes over another
ephemeral key. -/
def SpoilsUnder (s : Session) (ck random : Bytes32) (input : Option Bytes) (output : Option ℕ) :
    Prop :=
  match s.isInitiator, s.step with
  | true, 1 => s.SpoiledBySecond C ck input
  | true, 2 => HasRoomFor output (nhD + nhT) ∧ s.SealsThird C
  | false, 1 => HasRoomFor output (nhD + nhD + nhT) ∧ s.SealsSecond C ck random
  | false, 2 => s.SpoiledByThird C input
  | _, _ => False

/-- A step that, should it fail, does so after it has counted a part of a message or has taken over
another ephemeral key. -/
def Spoils (s : Session) (random : Bytes32) (input : Option Bytes) (output : Option ℕ) : Prop :=
  s.handshakeComplete = false ∧
    ∃ ck, s.secret C .chainingKey = some ck ∧ s.SpoilsUnder C ck random input output

variable {C}

/-- A counter has moved on, or the ephemeral key is another. -/
def Moved (s t : Session) : Prop :=
  s.sendNonce < t.sendNonce ∨ s.recvNonce < t.recvNonce ∨ t.remoteEphemeral ≠ s.remoteEphemeral

end Session

/-! ### Steps that fail -/

theorem lt_add_one_of_ne_uint64Max {n : UInt64} (h : n ≠ uint64Max) : n < n + 1 := by
  have hmax : n.toNat ≠ uint64Max.toNat := fun hn ↦ h (UInt64.toNat_inj.1 hn)
  have hlt : n.toNat < 2 ^ 64 := n.toNat_lt
  have hone : uint64Max.toNat = 2 ^ 64 - 1 := rfl
  rw [UInt64.lt_iff_toNat_lt, UInt64.toNat_add]
  show n.toNat < (n.toNat + 1) % 2 ^ 64
  omega

/-- The counter of encryptions does not go back. -/
theorem sendNonce_gt_callInvariant (n : UInt64) : CallInvariant fun s ↦ n < s.sendNonce where
  congr hs _ hsend _ := hsend ▸ hs
  randombytes _ hs := hs
  scalarmult _ _ _ hs := hs
  encrypt _ _ _ _ hs hmax := UInt64.lt_trans hs (lt_add_one_of_ne_uint64Max hmax)
  decrypt _ _ _ _ hs _ := hs

/-- The counter of decryptions does not go back. -/
theorem recvNonce_gt_callInvariant (n : UInt64) : CallInvariant fun s ↦ n < s.recvNonce where
  congr hs _ _ hrecv := hrecv ▸ hs
  randombytes _ hs := hs
  scalarmult _ _ _ hs := hs
  encrypt _ _ _ _ hs _ := hs
  decrypt _ _ _ _ hs hmax := UInt64.lt_trans hs (lt_add_one_of_ne_uint64Max hmax)

/-! Each block of a step either succeeds, or fails and changes nothing. -/

section Cases

variable (s : Session)

/-- An input of `n` bytes or an error. -/
theorem requireInput_cases (input : Option Bytes) (n : ℕ) :
    (∃ bs, input = some bs ∧ n ≤ bs.length ∧ requireInput input n s = .ok bs s) ∨
      ((¬∃ bs, input = some bs ∧ n ≤ bs.length) ∧
        ∃ e, requireInput input n s = .error e s) := by
  by_cases h : ∃ bs, input = some bs ∧ n ≤ bs.length
  · obtain ⟨bs, hbs, hlen⟩ := h
    exact .inl ⟨bs, hbs, hlen, requireInput_eq_ok.2 ⟨hbs, hlen, rfl⟩⟩
  · refine .inr ⟨h, (preserves_requireInput input n).keepsOnError.exists_error fun bs t hok ↦ h ?_⟩
    obtain ⟨hbs, hlen, -⟩ := requireInput_eq_ok.1 hok
    exact ⟨bs, hbs, hlen⟩

/-- Room for `n` bytes or an error. -/
theorem requireOutput_cases (output : Option ℕ) (n : ℕ) :
    (HasRoomFor output n ∧ requireOutput output n s = .ok ⟨⟩ s) ∨
      (¬HasRoomFor output n ∧ ∃ e, requireOutput output n s = .error e s) := by
  by_cases h : HasRoomFor output n
  · exact .inl ⟨h, requireOutput_eq_ok.2 ⟨h, rfl⟩⟩
  · exact .inr ⟨h, (preserves_requireOutput output n).keepsOnError.exists_error
      fun _ _ hok ↦ h (requireOutput_eq_ok.1 hok).1⟩

/-- The secret is opened or it is missing. -/
theorem nhDecryptKey_cases (f : SecretField) :
    (∃ k, s.secret C f = some k ∧ nhDecryptKey C f s = .ok k s) ∨
      (s.secret C f = none ∧ ∃ e, nhDecryptKey C f s = .error e s) := by
  cases hk : s.secret C f with
  | some k => exact .inl ⟨k, rfl, nhDecryptKey_eq_ok.2 ⟨hk, rfl⟩⟩
  | none =>
    refine .inr ⟨rfl, (preserves_nhDecryptKey f).keepsOnError.exists_error fun k t hok ↦ ?_⟩
    exact Option.some_ne_none k ((nhDecryptKey_eq_ok.1 hok).1.symm.trans hk)

/-- Both the secret and the result are there, or there is an error. -/
theorem nhX25519_cases (f : SecretField) (p : Bytes32) :
    (∃ n dh, s.secret C f = some n ∧ C.scalarmult n p = some dh ∧
        nhX25519 C f p s = .ok dh (s.record (.scalarmult n p dh))) ∨
      ((¬∃ n dh, s.secret C f = some n ∧ C.scalarmult n p = some dh) ∧
        ∃ e, nhX25519 C f p s = .error e s) := by
  have hkeeps : KeepsOnError id (nhX25519 C f p) :=
    .bind (preserves_nhDecryptKey f) fun _ ↦ .bind (.ofOption _ _) fun _ ↦
      .of_forall_ok fun _ ↦ ⟨_, _, rfl⟩
  by_cases h : ∃ n dh, s.secret C f = some n ∧ C.scalarmult n p = some dh
  · obtain ⟨n, dh, hn, hdh⟩ := h
    exact .inl ⟨n, dh, hn, hdh, nhX25519_eq_ok.2 ⟨n, hn, hdh, rfl⟩⟩
  · refine .inr ⟨h, hkeeps.exists_error fun dh t hok ↦ h ?_⟩
    obtain ⟨n, hn, hdh, -⟩ := nhX25519_eq_ok.1 hok
    exact ⟨n, dh, hn, hdh⟩

/-- An encryption counts; it fails at the last number or when libsodium refuses. -/
theorem orThrow_nhEh_cases (h k : Bytes32) (pt : Bytes) (e : ForetiasResult) :
    (∃ ct, (s.sendNonce ≠ uint64Max ∧
        C.aeadEncrypt k (nhNonce s.sendNonce) h.toList pt = some ct) ∧
        ∃ t, orThrow (nhEh C h k pt) e s = .ok (ct, nhMixHash C h ct) t ∧
          s.sendNonce < t.sendNonce) ∨
      ((¬∃ ct, s.sendNonce ≠ uint64Max ∧
        C.aeadEncrypt k (nhNonce s.sendNonce) h.toList pt = some ct) ∧
        ∃ e', orThrow (nhEh C h k pt) e s = .error e' s) := by
  have hkeeps : KeepsOnError id (orThrow (nhEh C h k pt) e) :=
    .orThrow (.bind_pure (.orThrow (keepsOnError_nhAeEnc k _ pt) _) _) e
  by_cases hct : ∃ ct, s.sendNonce ≠ uint64Max ∧
      C.aeadEncrypt k (nhNonce s.sendNonce) h.toList pt = some ct
  · obtain ⟨ct, hmax, hct⟩ := hct
    exact .inl ⟨ct, ⟨hmax, hct⟩, _, orThrow_nhEh ct hmax hct e, lt_add_one_of_ne_uint64Max hmax⟩
  · refine .inr ⟨hct, hkeeps.exists_error fun r t hok ↦ hct ?_⟩
    obtain ⟨hmax, henc, -⟩ := nhAeEnc_eq_ok.1 (nhEh_eq_ok.1 (orThrow_eq_ok.1 hok)).1
    exact ⟨r.1, hmax, henc⟩

/-- So does a decryption. -/
theorem orThrow_nhDecHash_cases (h k : Bytes32) (ct : Bytes) (e : ForetiasResult) :
    (∃ pt, (s.recvNonce ≠ uint64Max ∧
        C.aeadDecrypt k (nhNonce s.recvNonce) h.toList ct = some pt) ∧
        ∃ t, orThrow (nhDecHash C h k ct) e s = .ok (pt, nhMixHash C h ct) t ∧
          s.recvNonce < t.recvNonce) ∨
      ((¬∃ pt, s.recvNonce ≠ uint64Max ∧
        C.aeadDecrypt k (nhNonce s.recvNonce) h.toList ct = some pt) ∧
        ∃ e', orThrow (nhDecHash C h k ct) e s = .error e' s) := by
  have hkeeps : KeepsOnError id (orThrow (nhDecHash C h k ct) e) :=
    .orThrow (.bind_pure (.orThrow (keepsOnError_nhAeDec k _ ct) _) _) e
  by_cases hpt : ∃ pt, s.recvNonce ≠ uint64Max ∧
      C.aeadDecrypt k (nhNonce s.recvNonce) h.toList ct = some pt
  · obtain ⟨pt, hmax, hpt⟩ := hpt
    exact .inl ⟨pt, ⟨hmax, hpt⟩, _, orThrow_nhDecHash pt hmax hpt e,
      lt_add_one_of_ne_uint64Max hmax⟩
  · refine .inr ⟨hpt, hkeeps.exists_error fun r t hok ↦ hpt ?_⟩
    obtain ⟨hmax, hdec, -⟩ := nhAeDec_eq_ok.1 (nhDecHash_eq_ok.1 (orThrow_eq_ok.1 hok)).1
    exact ⟨r.1, hmax, hdec⟩

/-- Under an initialised key module only the public key of an ephemeral key can be missing. -/
theorem generateEphemeral_cases (hC : SecretboxCorrect C) {kek : Bytes32}
    (hkek : s.keyModule.instanceKek = some kek) (f : SecretField) (e : Bytes32) :
    (∃ epub a, C.scalarmultBase e = some epub ∧
        generateEphemeral C f e s = .ok epub ((s.withEphemeral e epub).store f a) ∧
        ((s.withEphemeral e epub).store f a).secret C f = some e) ∨
      (C.scalarmultBase e = none ∧
        generateEphemeral C f e s = .error .errInternal (s.record (.randombytes e))) := by
  cases hbase : C.scalarmultBase e with
  | none =>
    refine .inr ⟨rfl, ?_⟩
    rw [generateEphemeral, bind_of_ok (modify_apply _ s), hbase]
    exact bind_of_error (ofOption_none_apply _ _)
  | some epub =>
    obtain ⟨a, ha, hopen⟩ := generateEphemeral_of_kek hC kek hkek hbase f
    exact .inl ⟨epub, a, rfl, ha, hopen⟩

end Cases

section Failing

variable {s t : Session} {e : ForetiasResult}

theorem ignoresCalls_remoteEphemeral : IgnoresCalls fun s : Session ↦ s.remoteEphemeral :=
  ⟨fun _ _ ↦ rfl, fun _ _ ↦ rfl, fun _ _ ↦ rfl⟩

/-- Reading the static key of the second message: it fails and leaves the session alike, or it
counts the part and goes on. -/
theorem readSecond_cases {α : Type} (s : Session) (ck : Bytes32) (bs : Bytes)
    (rest : Bytes32 → Bytes × Bytes32 → NoiseM α) :
    let x : NoiseM α := nhX25519 C .sendKey (.read nhD bs) >>= fun dh ↦
      orThrow (nhDecHash C (nhMixHash C s.handshakeHash (FixedBytes.read nhD bs : Bytes32).toList)
        (nhMixKey C ck dh).2 ((bs.drop nhD).take (nhD + nhT))) ForetiasResult.errBadSig >>= rest dh
    (¬s.OpensSecond C ck bs ∧ ∃ e t, x s = .error e t ∧ Alike Set.univ s t) ∨
      (s.OpensSecond C ck bs ∧ ∃ dh r t, x s = rest dh r t ∧ s.recvNonce < t.recvNonce) := by
  intro x
  rcases nhX25519_cases s .sendKey (.read nhD bs) with ⟨n, dh, hn, hmul, hdh⟩ | ⟨hnone, e, hdh⟩
  swap
  · exact .inl ⟨fun ⟨_, n, dh, _, hn, hmul, _⟩ ↦ hnone ⟨n, dh, hn, hmul⟩, e, s, bind_of_error hdh,
      .refl s⟩
  have hx : x s = (orThrow (nhDecHash C _ (nhMixKey C ck dh).2 _) _ >>= rest dh) _ :=
    bind_of_ok hdh
  rw [hx]
  rcases orThrow_nhDecHash_cases (C := C) (s.record (.scalarmult n (.read nhD bs) dh))
    (nhMixHash C s.handshakeHash (FixedBytes.read nhD bs : Bytes32).toList) (nhMixKey C ck dh).2
    ((bs.drop nhD).take (nhD + nhT)) .errBadSig with ⟨rs, ⟨hmax, hrs⟩, t, ht, hlt⟩ | ⟨hnone, e, he⟩
  · exact .inr ⟨⟨hmax, n, dh, rs, hn, hmul, hrs⟩, dh, _, t, bind_of_ok ht, hlt⟩
  · refine .inl ⟨fun ⟨hmax, n', dh', rs, hn', hmul', hopen⟩ ↦ ?_, e, _, bind_of_error he,
      .record s _⟩
    obtain rfl := Option.some.inj (hn.symm.trans hn')
    obtain rfl := Option.some.inj (hmul.symm.trans hmul')
    exact hnone ⟨rs, hmax, hopen⟩

/-- A second message that is refused. -/
theorem initiatorStep1_error {input : Option Bytes} {ck : Bytes32}
    (h : initiatorStep1 C input ck s.handshakeHash s = .error e t) :
    (¬s.SpoiledBySecond C ck input ∧ Alike Set.univ s t) ∨
      (s.SpoiledBySecond C ck input ∧ s.Moved t) := by
  rw [initiatorStep1] at h
  rcases requireInput_cases s input (nhD + nhD + nhT) with ⟨bs, hbs, hlen, hin⟩ | ⟨hshort, e', hin⟩
  swap
  · obtain ⟨-, rfl⟩ := EStateM.Result.error.inj ((bind_of_error hin).symm.trans h)
    exact .inl ⟨fun ⟨bs, hbs, hlen, _⟩ ↦ hshort ⟨bs, hbs, hlen⟩, .refl s⟩
  rw [bind_of_ok hin, bind_of_ok (modify_apply _ _)] at h
  by_cases hre : .read nhD bs = s.remoteEphemeral
  swap
  -- The new ephemeral key stays, whatever fails.
  · refine .inr ⟨⟨bs, hbs, hlen, .inl hre⟩, .inr (.inr ?_)⟩
    have hπ := ignoresCalls_remoteEphemeral
    have ht : t.remoteEphemeral = .read nhD bs := by
      suffices hrest : Preserves (fun s : Session ↦ s.remoteEphemeral) _ from
        hrest.keepsOnError _ e t h
      exact .bind (preserves_nhX25519 hπ _ _) fun _ ↦
        .bind (.orThrow (preserves_nhDecHash hπ _ _ _) _) fun _ ↦ .bind (.require _) fun _ ↦
        .bind (.modify fun _ ↦ rfl) fun _ ↦ .bind (preserves_nhX25519 hπ _ _) fun _ ↦
        .bind (preserves_readPayload hπ _ _ _) fun _ ↦
        .bind (.bind (preserves_nhEncryptKey (fun _ _ ↦ rfl) _) fun _ ↦
          .bind (preserves_nhEncryptKey (fun _ _ ↦ rfl) _) fun _ ↦ .modify fun _ ↦ rfl)
        fun _ ↦ .pure _
    rw [ht]
    exact hre
  have hsame : ({ s with remoteEphemeral := .read nhD bs } : Session) = s := by rw [hre]
  rw [hsame] at h
  rcases readSecond_cases s ck bs _ with ⟨hopens, e', t', hx, ht⟩ | ⟨hopens, dh, r, u, hx, hu⟩
  · obtain ⟨-, rfl⟩ := EStateM.Result.error.inj (hx.symm.trans h)
    refine .inl ⟨fun ⟨bs', hbs', _, hspoils⟩ ↦ ?_, ht⟩
    obtain rfl := Option.some.inj (hbs.symm.trans hbs')
    exact hopens (hspoils.resolve_left fun hne ↦ hne hre)
  · refine .inr ⟨⟨bs, hbs, hlen, .inr hopens⟩, .inr (.inl ?_)⟩
    have hI := recvNonce_gt_callInvariant s.recvNonce
    refine Maintains.of_error (I := fun u ↦ s.recvNonce < u.recvNonce) ?_ hu (hx.symm.trans h)
    exact .bind (.require _) fun _ ↦
      .bind (hI.modify (fun _ ↦ rfl) (fun _ ↦ rfl) fun _ ↦ rfl) fun _ ↦
      .bind (hI.nhX25519 _ _) fun _ ↦ .bind (hI.readPayload _ _ _) fun _ ↦
      .bind (hI.storeHandshakeKeys _ _ _) fun _ ↦ .pure _

/-- A third message that is refused. -/
theorem responderStep2_error {input : Option Bytes} {ck : Bytes32}
    (h : responderStep2 C input ck s.handshakeHash s = .error e t) :
    (¬s.SpoiledByThird C input ∧ Alike Set.univ s t) ∨
      (s.SpoiledByThird C input ∧ s.Moved t) := by
  rw [responderStep2] at h
  rcases requireInput_cases s input (nhD + nhT) with ⟨bs, hbs, hlen, hin⟩ | ⟨hshort, e', hin⟩
  swap
  · obtain ⟨-, rfl⟩ := EStateM.Result.error.inj ((bind_of_error hin).symm.trans h)
    exact .inl ⟨fun ⟨bs, hbs, hlen, _⟩ ↦ hshort ⟨bs, hbs, hlen⟩, .refl s⟩
  rw [bind_of_ok hin] at h
  rcases nhDecryptKey_cases (C := C) s .sendKey with ⟨k, hk, hkey⟩ | ⟨hnone, e', hkey⟩
  swap
  · obtain ⟨-, rfl⟩ := EStateM.Result.error.inj ((bind_of_error hkey).symm.trans h)
    refine .inl ⟨fun ⟨bs, _, _, _, k, _, hk, _⟩ ↦ ?_, .refl s⟩
    exact Option.some_ne_none k (hk.symm.trans hnone)
  rw [bind_of_ok hkey] at h
  rcases orThrow_nhDecHash_cases (C := C) s s.handshakeHash k (bs.take (nhD + nhT)) .errBadSig with
    ⟨rs, ⟨hmax, hrs⟩, u, hu, hlt⟩ | ⟨hnone, e', he⟩
  · refine .inr ⟨⟨bs, hbs, hlen, hmax, k, rs, hk, hrs⟩, .inr (.inl ?_)⟩
    rw [bind_of_ok hu] at h
    have hI := recvNonce_gt_callInvariant s.recvNonce
    refine Maintains.of_error (I := fun u ↦ s.recvNonce < u.recvNonce) ?_ hlt h
    exact .bind (.require _) fun _ ↦
      .bind (hI.modify (fun _ ↦ rfl) (fun _ ↦ rfl) fun _ ↦ rfl) fun _ ↦
      .bind (hI.nhX25519 _ _) fun _ ↦ .bind (hI.readPayload _ _ _) fun _ ↦
      .bind (hI.storeTransportKeys _ _ _ _) fun _ ↦ .pure _
  · obtain ⟨-, rfl⟩ := EStateM.Result.error.inj ((bind_of_error he).symm.trans h)
    refine .inl ⟨fun ⟨bs', hbs', _, hmax, k', rs, hk', hrs⟩ ↦ ?_, .refl s⟩
    obtain rfl := Option.some.inj (hbs.symm.trans hbs')
    obtain rfl := Option.some.inj (hk.symm.trans hk')
    exact hnone ⟨rs, hmax, hrs⟩

/-- A third message that is not written. -/
theorem initiatorStep2_error {output : Option ℕ} {ck : Bytes32}
    (h : initiatorStep2 C output ck s.handshakeHash s = .error e t) :
    (¬(HasRoomFor output (nhD + nhT) ∧ s.SealsThird C) ∧ Alike Set.univ s t) ∨
      ((HasRoomFor output (nhD + nhT) ∧ s.SealsThird C) ∧ s.Moved t) := by
  rw [initiatorStep2] at h
  rcases requireOutput_cases s output (nhD + nhT) with ⟨hroom, hout⟩ | ⟨hroom, e', hout⟩
  swap
  · obtain ⟨-, rfl⟩ := EStateM.Result.error.inj ((bind_of_error hout).symm.trans h)
    exact .inl ⟨fun hspoils ↦ hroom hspoils.1, .refl s⟩
  rw [bind_of_ok hout] at h
  rcases nhDecryptKey_cases (C := C) s .sendKey with ⟨k, hk, hkey⟩ | ⟨hnone, e', hkey⟩
  swap
  · obtain ⟨-, rfl⟩ := EStateM.Result.error.inj ((bind_of_error hkey).symm.trans h)
    refine .inl ⟨fun ⟨_, _, k, _, hk, _⟩ ↦ ?_, .refl s⟩
    exact Option.some_ne_none k (hk.symm.trans hnone)
  rw [bind_of_ok hkey, bind_of_ok (get_apply s)] at h
  rcases orThrow_nhEh_cases (C := C) s s.handshakeHash k s.localStaticPub.toList .errInternal with
    ⟨ct, ⟨hmax, hct⟩, u, hu, hlt⟩ | ⟨hnone, e', he⟩
  · refine .inr ⟨⟨hroom, hmax, k, ct, hk, hct⟩, .inl ?_⟩
    rw [bind_of_ok hu] at h
    have hI := sendNonce_gt_callInvariant s.sendNonce
    refine Maintains.of_error (I := fun u ↦ s.sendNonce < u.sendNonce) ?_ hlt h
    exact .bind (hI.nhX25519 _ _) fun _ ↦ .bind (hI.storeTransportKeys _ _ _ _) fun _ ↦ .pure _
  · obtain ⟨-, rfl⟩ := EStateM.Result.error.inj ((bind_of_error he).symm.trans h)
    refine .inl ⟨fun ⟨_, hmax, k', ct, hk', hct⟩ ↦ ?_, .refl s⟩
    obtain rfl := Option.some.inj (hk.symm.trans hk')
    exact hnone ⟨ct, hmax, hct⟩

section Sealing

variable (hC : SecretboxCorrect C) {kek : Bytes32} (hkek : s.keyModule.instanceKek = some kek)

include hC hkek

/-- A first message that is not written. -/
theorem initiatorStep0_error {random : Bytes32} {output : Option ℕ} {h : Bytes32}
    (herror : initiatorStep0 C random output h s = .error e t) : Alike Set.univ s t := by
  rw [initiatorStep0] at herror
  rcases requireOutput_cases s output nhD with ⟨-, hout⟩ | ⟨-, e', hout⟩
  swap
  · obtain ⟨-, rfl⟩ := EStateM.Result.error.inj ((bind_of_error hout).symm.trans herror)
    exact .refl s
  rw [bind_of_ok hout] at herror
  rcases generateEphemeral_cases s hC hkek .sendKey random with ⟨epub, a, -, hgen, -⟩ | ⟨-, hgen⟩
  · rw [bind_of_ok hgen] at herror
    cases herror
  · obtain ⟨-, rfl⟩ := EStateM.Result.error.inj ((bind_of_error hgen).symm.trans herror)
    exact .record s _

/-- A second message that is not written. -/
theorem responderStep1_error {random : Bytes32} {output : Option ℕ} {ck : Bytes32}
    (h : responderStep1 C random output ck s.handshakeHash s = .error e t) :
    (¬(HasRoomFor output (nhD + nhD + nhT) ∧ s.SealsSecond C ck random) ∧
        Alike {SecretField.recvKey}ᶜ s t) ∨
      ((HasRoomFor output (nhD + nhD + nhT) ∧ s.SealsSecond C ck random) ∧ s.Moved t) := by
  rw [responderStep1] at h
  rcases requireOutput_cases s output (nhD + nhD + nhT) with ⟨hroom, hout⟩ | ⟨hroom, e', hout⟩
  swap
  · obtain ⟨-, rfl⟩ := EStateM.Result.error.inj ((bind_of_error hout).symm.trans h)
    exact .inl ⟨fun hspoils ↦ hroom hspoils.1, .refl s⟩
  rw [bind_of_ok hout] at h
  rcases generateEphemeral_cases s hC hkek .recvKey random with
    ⟨epub, a, hepub, hgen, hsealed⟩ | ⟨hnone, hgen⟩
  swap
  · obtain ⟨-, rfl⟩ := EStateM.Result.error.inj ((bind_of_error hgen).symm.trans h)
    refine .inl ⟨fun ⟨_, _, epub, _, _, hepub, _⟩ ↦ ?_, .record s _⟩
    exact Option.some_ne_none epub (hepub.symm.trans hnone)
  rw [bind_of_ok hgen, bind_of_ok (get_apply _)] at h
  have hstored : Alike {SecretField.recvKey}ᶜ s ((s.withEphemeral random epub).store .recvKey a) :=
    { Alike.refl (L := {SecretField.recvKey}ᶜ) s with
      secrets := fun f hf ↦ Function.update_of_ne hf _ _ }
  rcases nhX25519_cases (C := C) ((s.withEphemeral random epub).store .recvKey a) .recvKey
    s.remoteEphemeral with ⟨n, dh, hn, hmul, hdh⟩ | ⟨hnone, e', hdh⟩
  swap
  · obtain ⟨-, rfl⟩ := EStateM.Result.error.inj ((bind_of_error hdh).symm.trans h)
    exact .inl ⟨fun ⟨_, _, _, dh, _, _, hmul, _⟩ ↦ hnone ⟨random, dh, hsealed, hmul⟩, hstored⟩
  obtain rfl := Option.some.inj (hsealed.symm.trans hn)
  have hre : ((s.withEphemeral random epub).store .recvKey a).remoteEphemeral = s.remoteEphemeral :=
    rfl
  have hpub : ((s.withEphemeral random epub).store .recvKey a).localStaticPub = s.localStaticPub :=
    rfl
  rw [hre, hpub, bind_of_ok hdh] at h
  dsimp only at h
  rcases orThrow_nhEh_cases (C := C)
    (((s.withEphemeral random epub).store .recvKey a).record
      (.scalarmult random s.remoteEphemeral dh))
    (nhMixHash C s.handshakeHash epub.toList) (nhMixKey C ck dh).2 s.localStaticPub.toList
    .errInternal with ⟨ct, ⟨hmax, hct⟩, u, hu, hlt⟩ | ⟨hnone, e', he⟩
  · refine .inr ⟨⟨hroom, hmax, epub, dh, ct, hepub, hmul, hct⟩, .inl ?_⟩
    rw [bind_of_ok hu] at h
    have hI := sendNonce_gt_callInvariant s.sendNonce
    refine Maintains.of_error (I := fun u ↦ s.sendNonce < u.sendNonce) ?_ hlt h
    exact .bind (hI.nhX25519 _ _) fun _ ↦ .bind (hI.storeHandshakeKeys _ _ _) fun _ ↦ .pure _
  · obtain ⟨-, rfl⟩ := EStateM.Result.error.inj ((bind_of_error he).symm.trans h)
    refine .inl ⟨fun ⟨_, hmax, epub', dh', ct, hepub', hmul', hct⟩ ↦ ?_, { hstored with }⟩
    obtain rfl := Option.some.inj (hepub.symm.trans hepub')
    obtain rfl := Option.some.inj (hmul.symm.trans hmul')
    exact hnone ⟨ct, hmax, hct⟩

end Sealing

/-- A first message that is refused. -/
theorem responderStep0_error {input : Option Bytes} {h : Bytes32}
    (herror : responderStep0 C input h s = .error e t) : Alike Set.univ s t := by
  rw [responderStep0] at herror
  rcases requireInput_cases s input nhD with ⟨bs, -, -, hin⟩ | ⟨-, e', hin⟩
  · rw [bind_of_ok hin] at herror
    cases herror
  · obtain ⟨-, rfl⟩ := EStateM.Result.error.inj ((bind_of_error hin).symm.trans herror)
    exact .refl s

/-- What becomes of a session in a step that fails, once the chaining key is open. -/
theorem handshakeCase_error_cases (hC : SecretboxCorrect C) {kek : Bytes32}
    (hkek : s.keyModule.instanceKek = some kek) (hcomplete : s.handshakeComplete = false)
    {random ck : Bytes32} {input : Option Bytes} {output : Option ℕ}
    (h : handshakeCase C s.isInitiator s.step random input output ck s.handshakeHash s =
      .error e t) :
    (¬s.SpoilsUnder C ck random input output ∧ Indistinct s t) ∨
      (s.SpoilsUnder C ck random input output ∧ s.Moved t) := by
  rw [SpoilsUnder]
  rcases hrole : s.isInitiator with _ | _
  · rw [hrole] at h
    match hstep : s.step with
    | 0 => exact .inl ⟨not_false, .inl (responderStep0_error (hstep ▸ h))⟩
    | 1 =>
      exact (responderStep1_error hC hkek (hstep ▸ h)).imp_left
        (And.imp_right fun ht ↦ .inr ⟨ht, hrole, hstep, hcomplete⟩)
    | 2 => exact (responderStep2_error (hstep ▸ h)).imp_left (And.imp_right .inl)
    | n + 3 =>
      rw [hstep] at h
      cases h
      exact .inl ⟨not_false, .inl (.refl s)⟩
  · rw [hrole] at h
    match hstep : s.step with
    | 0 => exact .inl ⟨not_false, .inl (initiatorStep0_error hC hkek (hstep ▸ h))⟩
    | 1 => exact (initiatorStep1_error (hstep ▸ h)).imp_left (And.imp_right .inl)
    | 2 => exact (initiatorStep2_error (hstep ▸ h)).imp_left (And.imp_right .inl)
    | n + 3 =>
      rw [hstep] at h
      cases h
      exact .inl ⟨not_false, .inl (.refl s)⟩

/-- What becomes of a session in a step that fails: later calls do not notice, or something has
moved. -/
theorem step_error_cases (hC : SecretboxCorrect C) {random : Bytes32} {input : Option Bytes}
    {output : Option ℕ} (h : foretiasNoiseStep C random input output s = .error e t) :
    (¬s.Spoils C random input output ∧ Indistinct s t) ∨
      (s.Spoils C random input output ∧ s.Moved t) := by
  rw [foretiasNoiseStep, bind_of_ok (get_apply s)] at h
  by_cases hcomplete : s.handshakeComplete = false
  swap
  · rw [bind_of_error (require_of_false hcomplete _ s)] at h
    cases h
    exact .inl ⟨fun hspoils ↦ hcomplete hspoils.1, .inl (.refl s)⟩
  rw [bind_of_ok (require_of_true hcomplete _ s)] at h
  rcases nhDecryptKey_cases (C := C) s .chainingKey with ⟨ck, hck, hkey⟩ | ⟨hnone, e', hkey⟩
  swap
  · obtain ⟨-, rfl⟩ := EStateM.Result.error.inj ((bind_of_error hkey).symm.trans h)
    refine .inl ⟨fun hspoils ↦ ?_, .inl (.refl s)⟩
    obtain ⟨ck, hck, -⟩ := hspoils.2
    exact Option.some_ne_none ck (hck.symm.trans hnone)
  obtain ⟨kek, hkek, -⟩ := Option.bind_eq_some_iff.1 hck
  rw [bind_of_ok hkey] at h
  have hspoils : s.Spoils C random input output ↔ s.SpoilsUnder C ck random input output := by
    refine ⟨fun hspoils ↦ ?_, fun hunder ↦ ⟨hcomplete, ck, hck, hunder⟩⟩
    obtain ⟨ck', hck', hunder⟩ := hspoils.2
    exact Option.some.inj (hck'.symm.trans hck) ▸ hunder
  rw [hspoils]
  exact handshakeCase_error_cases hC hkek hcomplete h

end Failing

/-! ### Error atomicity -/

variable (C) in
/-- The session `t` after a failed call is as good as the session `s` before it: the nonces, the
chaining key, the handshake hash, the remote keys and the step are the same, and so is what any
calls that follow answer. -/
structure Session.Unaffected (s t : Session) : Prop where
  /-- The counter of encryptions. -/
  sendNonce : t.sendNonce = s.sendNonce
  /-- The counter of decryptions. -/
  recvNonce : t.recvNonce = s.recvNonce
  /-- The sealed chaining key. -/
  chainingKey : t.secrets .chainingKey = s.secrets .chainingKey
  /-- The hash. -/
  handshakeHash : t.handshakeHash = s.handshakeHash
  /-- The peer's ephemeral public key. -/
  remoteEphemeral : t.remoteEphemeral = s.remoteEphemeral
  /-- The peer's static public key. -/
  remoteStatic : t.remoteStatic = s.remoteStatic
  /-- The position. -/
  step : t.step = s.step
  /-- The calls that follow. -/
  answers (is : List (PrivkeyModule × NoiseCall)) : t.answers C is = s.answers C is

namespace Session

variable {s t : Session}

/-- Sessions that agree in the chaining key and in all answers are as good as one. -/
theorem Alike.unaffected {L : Set SecretField} (h : Alike L s t)
    (hck : SecretField.chainingKey ∈ L) (hanswers : ∀ is, t.answers C is = s.answers C is) :
    Unaffected C s t where
  sendNonce := h.sendNonce
  recvNonce := h.recvNonce
  chainingKey := h.secrets _ hck
  handshakeHash := h.handshakeHash
  remoteEphemeral := h.remoteEphemeral
  remoteStatic := h.remoteStatic
  step := h.step
  answers := hanswers

/-- Sessions that no later call tells apart are. -/
theorem Indistinct.unaffected (hC : SecretboxCorrect C) (h : Indistinct s t) :
    Unaffected C s t := by
  have hanswers := h.answers_eq hC
  rcases h with h | ⟨h, -⟩
  · exact h.unaffected (Set.mem_univ _) hanswers
  · exact h.unaffected (fun hck ↦ SecretField.noConfusion hck) hanswers

/-- A counter that has gone on or another ephemeral key is seen. -/
theorem Moved.not_unaffected (h : s.Moved t) : ¬Unaffected C s t := by
  intro hsame
  rcases h with h | h | h
  · exact UInt64.lt_irrefl _ (hsame.sendNonce ▸ h)
  · exact UInt64.lt_irrefl _ (hsame.recvNonce ▸ h)
  · exact h hsame.remoteEphemeral

end Session

variable (C) in
/-- The calls that, should they fail, leave something behind. -/
def NoiseCall.Spoils (s : Session) : NoiseCall → Prop
  | step random input output => s.Spoils C random input output
  | send _ _ => False
  | recv _ => False

/-- A call that returns an error leaves the session unaffected exactly if it is not one of the
handshake steps that spoil it. -/
theorem unaffected_iff_of_run_error (hC : SecretboxCorrect C) {c : NoiseCall} {s t : Session}
    {e : ForetiasResult} (h : c.run C s = .error e t) : s.Unaffected C t ↔ ¬c.Spoils C s := by
  cases c with
  | step random input output =>
    rcases step_error_cases hC h with ⟨hspoils, ht⟩ | ⟨hspoils, ht⟩
    · exact iff_of_true (ht.unaffected hC) hspoils
    · exact iff_of_false ht.not_unaffected fun hnot ↦ hnot hspoils
  | send plaintext room =>
    have hkeeps : KeepsOnError id ((NoiseCall.send plaintext room).run C) :=
      .bind_pure (keepsOnError_foretiasNoiseSend plaintext room) _
    have ht : t = s := hkeeps s e t h
    rw [ht]
    exact iff_of_true ((Alike.refl s).unaffected (Set.mem_univ _) fun _ ↦ rfl) not_false
  | recv ciphertext =>
    have hkeeps : KeepsOnError id ((NoiseCall.recv ciphertext).run C) :=
      .bind_pure (keepsOnError_foretiasNoiseRecv ciphertext) _
    have ht : t = s := hkeeps s e t h
    rw [ht]
    exact iff_of_true ((Alike.refl s).unaffected (Set.mem_univ _) fun _ ↦ rfl) not_false

/-- An initiator that has written its first message. -/
def Session.wroteFirst : Session :=
  (Session.sample 5 true).after .transparent [(.zeroKek, .step (.replicate 32 3) none (some 128))]

/-- The message with which a responder answers it. -/
def sampleSecond : Bytes :=
  let s := (Session.sample 7 false).after .transparent
    [(.zeroKek, .step default (some (List.replicate 32 3)) none)]
  match (NoiseCall.step (.replicate 32 9) none (some 128)).run .transparent s with
  | .ok out _ => out.getD []
  | .error _ _ => []

/-- The initiator reads a second message. -/
def readSecond (message : Bytes) : NoiseCall := .step default (some message) none

/-- A second message that lacks its last byte. -/
theorem unaffected_iff_truncated :
    ∃ e t, (readSecond (sampleSecond.take 79)).run .transparent .wroteFirst = .error e t ∧
      (Session.wroteFirst.Unaffected .transparent t ↔
        ¬(readSecond (sampleSecond.take 79)).Spoils .transparent .wroteFirst) := by
  have hfails : (outcome ((readSecond (sampleSecond.take 79)).run .transparent
      .wroteFirst)).isOk = false := by decide +kernel
  cases h : (readSecond (sampleSecond.take 79)).run .transparent .wroteFirst with
  | ok out t =>
    rw [h] at hfails
    cases hfails
  | error e t => exact ⟨e, t, rfl, unaffected_iff_of_run_error secretboxCorrect_transparent h⟩

/-- The answer with one more byte fails, and the answer itself is refused after it. -/
theorem not_unaffected_trailingByte :
    ∃ e t, (readSecond (sampleSecond ++ [0])).run .transparent .wroteFirst = .error e t ∧
      ¬Session.wroteFirst.Unaffected .transparent t := by
  have hfails : (outcome ((readSecond (sampleSecond ++ [0])).run .transparent
      .wroteFirst)).isOk = false := by decide +kernel
  have hbefore : (Session.wroteFirst.answers .transparent
      [(.zeroKek, readSecond sampleSecond)]).map Except.isOk = [true] := by decide +kernel
  have hafter : ((finalState ((readSecond (sampleSecond ++ [0])).run .transparent
      .wroteFirst)).answers .transparent [(.zeroKek, readSecond sampleSecond)]).map Except.isOk =
        [false] := by decide +kernel
  cases h : (readSecond (sampleSecond ++ [0])).run .transparent .wroteFirst with
  | ok out t =>
    rw [h] at hfails
    cases hfails
  | error e t =>
    refine ⟨e, t, rfl, fun hsame ↦ ?_⟩
    rw [h, finalState_error, hsame.answers, hbefore] at hafter
    exact absurd hafter (by decide)

end Foretias

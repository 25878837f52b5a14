import Foretias.C11.NoiseSteps

/-!
# Handshake calls that fail

A handshake call that fails has often written part of its message's data into the state already.
What it leaves alone is what the call can be made again from: the sealed secrets that it reads and
the position of the handshake. Its last block, which replaces these, does not fail once the key
module is initialised.
-/

namespace Foretias

open ErrorState

variable {C : Sodium}

namespace Session

/-- What every failing handshake call leaves alone. -/
def core (s : Session) : Option Bytes32 × Bool × Bool × ℕ × SealedKey × SealedKey × Bytes32 :=
  (s.keyModule.instanceKek, s.handshakeComplete, s.isInitiator, s.step, s.secrets .localStatic,
    s.secrets .chainingKey, s.localStaticPub)

/-- Two sessions with one instance key and one sealed value of `f` hold one secret. -/
theorem secret_congr {s t : Session} {f : SecretField}
    (hkek : t.keyModule.instanceKek = s.keyModule.instanceKek)
    (hf : t.secrets f = s.secrets f) : t.secret C f = s.secret C f := by
  rw [secret, secret, hkek, hf]

variable {s t : Session} (h : t.core = s.core)

include h

theorem kek_of_core : t.keyModule.instanceKek = s.keyModule.instanceKek := congrArg (·.1) h

theorem chainingKey_of_core : t.secret C .chainingKey = s.secret C .chainingKey :=
  secret_congr (kek_of_core h) (congrArg (·.2.2.2.2.2.1) h)

end Session

/-- The handshake stays where it was. -/
theorem Handshaking.of_core {A : Party C} {isInitiator : Bool} {n : ℕ} {s t : Session}
    (hs : Handshaking A isInitiator n s) (h : t.core = s.core) : Handshaking A isInitiator n t where
  kek := (Session.kek_of_core h).trans hs.kek
  incomplete := (congrArg (·.2.1) h).trans hs.incomplete
  role := (congrArg (·.2.2.1) h).trans hs.role
  step := (congrArg (·.2.2.2.1) h).trans hs.step
  static := (Session.secret_congr (Session.kek_of_core h) (congrArg (·.2.2.2.2.1) h)).trans
    hs.static
  pub := (congrArg (·.2.2.2.2.2.2) h).trans hs.pub

/-! ### What the blocks of a step leave alone -/

/-- A part of the state that holds no record of calls, no counter and no hash. -/
structure IgnoresCalls {γ : Type} (π : Session → γ) : Prop where
  /-- The record. -/
  record (s : Session) (c : SodiumCall) : π (s.record c) = π s
  /-- The send counter. -/
  countSend (s : Session) (c : SodiumCall) : π (s.countSend c) = π s
  /-- The receive counter. -/
  countRecv (s : Session) (c : SodiumCall) : π (s.countRecv c) = π s

section Blocks

variable {γ : Type} {π : Session → γ}

theorem preserves_requireInput (input : Option Bytes) (n : ℕ) :
    Preserves π (requireInput input n) :=
  .bind (.ofOption _ _) fun _ ↦ .bind (.require _) fun _ ↦ .pure _

theorem preserves_requireOutput (output : Option ℕ) (n : ℕ) :
    Preserves π (requireOutput output n) :=
  .bind (.ofOption _ _) fun _ ↦ .require _

variable (hπ : IgnoresCalls π)

include hπ

theorem preserves_nhX25519 (f : SecretField) (p : Bytes32) : Preserves π (nhX25519 C f p) :=
  .bind (preserves_nhDecryptKey f) fun _ ↦ .bind (.ofOption _ _) fun _ ↦
    .bind (.modify fun s ↦ hπ.record s _) fun _ ↦ .pure _

theorem preserves_nhAeEnc (k : Bytes32) (ad pt : Bytes) : Preserves π (nhAeEnc C k ad pt) := by
  intro s
  cases h : nhAeEnc C k ad pt s with
  | ok ct t =>
    obtain ⟨-, -, rfl⟩ := nhAeEnc_eq_ok.1 h
    exact hπ.countSend s _
  | error e t =>
    exact congrArg π (keepsOnError_nhAeEnc k ad pt s e t h)

theorem preserves_nhAeDec (k : Bytes32) (ad ct : Bytes) : Preserves π (nhAeDec C k ad ct) := by
  intro s
  cases h : nhAeDec C k ad ct s with
  | ok pt t =>
    obtain ⟨-, -, rfl⟩ := nhAeDec_eq_ok.1 h
    exact hπ.countRecv s _
  | error e t =>
    exact congrArg π (keepsOnError_nhAeDec k ad ct s e t h)

theorem preserves_nhEh (h k : Bytes32) (pt : Bytes) : Preserves π (nhEh C h k pt) :=
  .bind (.orThrow (preserves_nhAeEnc hπ _ _ _) _) fun _ ↦ .pure _

theorem preserves_nhDecHash (h k : Bytes32) (ct : Bytes) : Preserves π (nhDecHash C h k ct) :=
  .bind (.orThrow (preserves_nhAeDec hπ _ _ _) _) fun _ ↦ .pure _

theorem preserves_readPayload (h k : Bytes32) (payload : Bytes) :
    Preserves π (readPayload C h k payload) :=
  .ite (.bind (.require _) fun _ ↦ .bind (.orThrow (preserves_nhDecHash hπ _ _ _) _) fun _ ↦
    .pure _) (.pure _)

omit hπ in
theorem preserves_nhEncryptKey {f : SecretField} (hstore : ∀ s a, π (s.store f a) = π s)
    (k : Bytes32) : Preserves π (nhEncryptKey C f k) := by
  intro s
  rw [nhEncryptKey, bind_of_ok (get_apply s)]
  cases s.keyModule.instanceKek with
  | none => rfl
  | some kek =>
    rw [bind_of_ok (ofOption_some_apply _ kek s), bind_of_ok (set_apply s _)]
    cases C.secretboxEasy k (deriveNonce C (s.keyModule.keyGenCounter + 1)) kek with
    | none => exact hstore s _
    | some c => exact hstore s _

theorem preserves_generateEphemeral {f : SecretField} (hstore : ∀ s a, π (s.store f a) = π s)
    (hephemeral : ∀ s (epub : Bytes32), π { s with localEphemeral := epub } = π s)
    (random : Bytes32) : Preserves π (generateEphemeral C f random) :=
  .bind (.modify fun s ↦ hπ.record s _) fun _ ↦ .bind (.ofOption _ _) fun epub ↦
    .bind (.modify fun s ↦ hephemeral s epub) fun _ ↦
    .bind (preserves_nhEncryptKey hstore random) fun _ ↦ .pure _

end Blocks

/-! ### What a failing step leaves alone -/

section Steps

variable (hC : SecretboxCorrect C) {γ : Type} {J : γ → Prop} {π : Session → γ} {kek : Bytes32}
  (hJ : ∀ s, J (π s) → s.keyModule.instanceKek = some kek)

include hC hJ

theorem keepsOnError_storeHandshakeKeys (k ck h : Bytes32) (out : Option Bytes) :
    KeepsOnErrorFrom J π (do
      storeHandshakeKeys C k ck h
      pure out) := by
  refine .of_forall_ok fun s hs ↦ ?_
  obtain ⟨t, ht, -⟩ := storeHandshakeKeys_of_kek hC kek (hJ s hs) k ck h
  exact ⟨out, t, bind_of_ok ht⟩

theorem keepsOnError_storeTransportKeys (sk rk ck h : Bytes32) (out : Option Bytes) :
    KeepsOnErrorFrom J π (do
      storeTransportKeys C sk rk ck h
      pure out) := by
  refine .of_forall_ok fun s hs ↦ ?_
  obtain ⟨t, ht, -⟩ := storeTransportKeys_of_kek hC kek (hJ s hs) sk rk ck h
  exact ⟨out, t, bind_of_ok ht⟩

end Steps

/-- The first message can be written again. -/
theorem keepsOnError_initiatorStep0 (random : Bytes32) (output : Option ℕ) (h : Bytes32) :
    KeepsOnError Session.core (initiatorStep0 C random output h) :=
  .bind (preserves_requireOutput _ _) fun _ ↦
    .bind (preserves_generateEphemeral ⟨fun _ _ ↦ rfl, fun _ _ ↦ rfl, fun _ _ ↦ rfl⟩
      (fun _ _ ↦ rfl) (fun _ _ ↦ rfl) _) fun _ ↦ .of_forall_ok fun _ ↦ ⟨_, _, rfl⟩

/-- A first message that is refused changes nothing. -/
theorem keepsOnError_responderStep0 (input : Option Bytes) (h : Bytes32) :
    KeepsOnError Session.core (responderStep0 C input h) :=
  .bind (preserves_requireInput _ _) fun _ ↦ .of_forall_ok fun _ ↦ ⟨_, _, rfl⟩

/-- The second message can be written again, under a new ephemeral key. -/
theorem keepsOnError_responderStep1 (hC : SecretboxCorrect C) (kek random : Bytes32)
    (output : Option ℕ) (ck h : Bytes32) :
    KeepsOnErrorFrom (fun c ↦ c.1 = some kek) Session.core
      (responderStep1 C random output ck h) := by
  have hπ : IgnoresCalls Session.core := ⟨fun _ _ ↦ rfl, fun _ _ ↦ rfl, fun _ _ ↦ rfl⟩
  exact .bind (preserves_requireOutput _ _) fun _ ↦
    .bind (preserves_generateEphemeral hπ (fun _ _ ↦ rfl) (fun _ _ ↦ rfl) _) fun _ ↦
    .bind .get fun _ ↦ .bind (preserves_nhX25519 hπ _ _) fun _ ↦
    .bind (.orThrow (preserves_nhEh hπ _ _ _) _) fun _ ↦ .bind (preserves_nhX25519 hπ _ _) fun _ ↦
    keepsOnError_storeHandshakeKeys hC (fun _ hs ↦ hs) _ _ _ _

/-- What reading the second message relies on. -/
def Session.beforeSecond (s : Session) := (s.core, s.secrets .sendKey)

/-- Another second message can be read. -/
theorem keepsOnError_initiatorStep1 (hC : SecretboxCorrect C) (kek : Bytes32)
    (input : Option Bytes) (ck h : Bytes32) :
    KeepsOnErrorFrom (fun c ↦ c.1.1 = some kek) Session.beforeSecond
      (initiatorStep1 C input ck h) := by
  have hπ : IgnoresCalls Session.beforeSecond := ⟨fun _ _ ↦ rfl, fun _ _ ↦ rfl, fun _ _ ↦ rfl⟩
  exact .bind (preserves_requireInput _ _) fun _ ↦ .bind (.modify fun _ ↦ rfl) fun _ ↦
    .bind (preserves_nhX25519 hπ _ _) fun _ ↦
    .bind (.orThrow (preserves_nhDecHash hπ _ _ _) _) fun _ ↦ .bind (.require _) fun _ ↦
    .bind (.modify fun _ ↦ rfl) fun _ ↦ .bind (preserves_nhX25519 hπ _ _) fun _ ↦
    .bind (preserves_readPayload hπ _ _ _) fun _ ↦
    keepsOnError_storeHandshakeKeys hC (fun _ hs ↦ hs) _ _ _ _

/-- What writing the third message relies on. -/
def Session.beforeThird (s : Session) :=
  (s.core, s.secrets .sendKey, s.remoteEphemeral, s.remoteStatic)

/-- The third message can be written again. -/
theorem keepsOnError_initiatorStep2 (hC : SecretboxCorrect C) (kek : Bytes32) (output : Option ℕ)
    (ck h : Bytes32) :
    KeepsOnErrorFrom (fun c ↦ c.1.1 = some kek) Session.beforeThird
      (initiatorStep2 C output ck h) := by
  have hπ : IgnoresCalls Session.beforeThird := ⟨fun _ _ ↦ rfl, fun _ _ ↦ rfl, fun _ _ ↦ rfl⟩
  exact .bind (preserves_requireOutput _ _) fun _ ↦ .bind (preserves_nhDecryptKey _) fun _ ↦
    .bind .get fun _ ↦ .bind (.orThrow (preserves_nhEh hπ _ _ _) _) fun _ ↦
    .bind (preserves_nhX25519 hπ _ _) fun _ ↦
    keepsOnError_storeTransportKeys hC (fun _ hs ↦ hs) _ _ _ _ _

/-- What reading the third message relies on. -/
def Session.awaitingThird (s : Session) :=
  (s.core, s.secrets .sendKey, s.secrets .recvKey, s.remoteEphemeral)

/-- Another third message can be read. -/
theorem keepsOnError_responderStep2 (hC : SecretboxCorrect C) (kek : Bytes32)
    (input : Option Bytes) (ck h : Bytes32) :
    KeepsOnErrorFrom (fun c ↦ c.1.1 = some kek) Session.awaitingThird
      (responderStep2 C input ck h) := by
  have hπ : IgnoresCalls Session.awaitingThird := ⟨fun _ _ ↦ rfl, fun _ _ ↦ rfl, fun _ _ ↦ rfl⟩
  exact .bind (preserves_requireInput _ _) fun _ ↦ .bind (preserves_nhDecryptKey _) fun _ ↦
    .bind (.orThrow (preserves_nhDecHash hπ _ _ _) _) fun _ ↦ .bind (.require _) fun _ ↦
    .bind (.modify fun _ ↦ rfl) fun _ ↦ .bind (preserves_nhX25519 hπ _ _) fun _ ↦
    .bind (preserves_readPayload hπ _ _ _) fun _ ↦
    keepsOnError_storeTransportKeys hC (fun _ hs ↦ hs) _ _ _ _ _

end Foretias

import Foretias.C11.NoiseHandshake
import Foretias.Library.Run

/-!
# Agreement of an undisturbed Noise XX session

`exchange` makes the six calls of a handshake, each side given the other's messages as they were
written. Afterwards the two sessions are joined by a `NoiseLink` that delivers in order; its
invariant `InSync` follows the messages in flight: the next one to be received was encrypted under
the nonce that the receiver has reached, and so on up to the nonce that the sender has reached.

The counters are not set back when the handshake ends: each side has encrypted and decrypted one
static key under them, so the transport starts at one.

* `noise_xx_agreement` — the handshake completes, with equal keys, and the link is exact.
-/

namespace Foretias

open ErrorState

variable (C : Sodium)

/-- The two sides of a session. -/
inductive Side
  | initiator
  | responder
  deriving DecidableEq

/-- The peer's side. -/
def Side.other : Side → Side
  | initiator => responder
  | responder => initiator

@[simp] theorem Side.other_other (x : Side) : x.other.other = x := by cases x <;> rfl

theorem Side.other_ne (x : Side) : x.other ≠ x := by cases x <;> decide

theorem Side.eq_or_eq_other (x y : Side) : y = x ∨ y = x.other := by
  cases x <;> cases y <;> decide

/-! ### The handshake -/

/-- What a handshake call finds besides the session: the key module, the value of
`randombytes_buf`, the input of a call that only writes, and the room for output. -/
structure StepEnv where
  /-- The key module's variables. -/
  keyModule : PrivkeyModule
  /-- What `randombytes_buf` returns. -/
  random : Bytes32
  /-- An input that is not read. -/
  input : Option Bytes
  /-- The room for output. -/
  room : Option ℕ

/-- A call of `foretias_noise_step` as the caller sees it. -/
def StepEnv.call (E : StepEnv) (input : Option Bytes) (s : Session) :
    Except ForetiasResult (Option Bytes × Session) :=
  match foretiasNoiseStep C E.random input E.room (s.under E.keyModule) with
  | .ok out t => .ok (out, t)
  | .error e _ => .error e

/-- The calls of both sides, the messages delivered as written: the `n`-th call of a side finds
`env side n`. -/
def exchange (env : Side → ℕ → StepEnv) (i r : Session) :
    Except ForetiasResult (Session × Session) := do
  let (first, i) ← (env .initiator 0).call C (env .initiator 0).input i
  let (_, r) ← (env .responder 0).call C first r
  let (second, r) ← (env .responder 1).call C (env .responder 1).input r
  let (_, i) ← (env .initiator 1).call C second i
  let (third, i) ← (env .initiator 2).call C (env .initiator 2).input i
  let (_, r) ← (env .responder 2).call C third r
  pure (i, r)

/-- The calls of a side keep the instance key that its session was initialised under. -/
def KeepsKek (env : ℕ → StepEnv) (s : Session) : Prop :=
  ∀ n, (env n).keyModule.instanceKek = s.keyModule.instanceKek

/-- Each writing call has room for its message. -/
structure HasRoom (env : Side → ℕ → StepEnv) : Prop where
  /-- The first message. -/
  first : ∃ room, (env .initiator 0).room = some room ∧ nhD ≤ room
  /-- The second message. -/
  second : ∃ room, (env .responder 1).room = some room ∧ nhD + nhD + nhT ≤ room
  /-- The third message. -/
  third : ∃ room, (env .initiator 2).room = some room ∧ nhD + nhT ≤ room

section Exchange

variable {C}

/-- A call that is shown to return does so in its environment. -/
theorem StepEnv.call_of_returns {E : StepEnv} {input out : Option Bytes} {s : Session}
    {P : Session → Prop}
    (h : Returns (foretiasNoiseStep C E.random input E.room) (s.under E.keyModule) out P) :
    ∃ t, E.call C input s = .ok (out, t) ∧ P t := by
  obtain ⟨t, ht, hP⟩ := h
  exact ⟨t, by rw [StepEnv.call, ht], hP⟩

theorem ok_bind {ε α β : Type} (a : α) (f : α → Except ε β) : (Except.ok a >>= f) = f a := rfl

/-- The two sides of a handshake end with the keys of one key schedule, in opposite roles. -/
theorem exists_exchange (hbox : SecretboxCorrect C) (hdh : KeyAgreementCorrect C)
    (haead : AeadCorrect C) {A B : Party C} {env : Side → ℕ → StepEnv} {i r : Session}
    (hi : Progress A true 0 (protocolHash C) 0 0 i)
    (hick : i.secret C .chainingKey = some (protocolHash C))
    (hr : Progress B false 0 (protocolHash C) 0 0 r)
    (hrck : r.secret C .chainingKey = some (protocolHash C))
    (hikek : KeepsKek (env .initiator) i) (hrkek : KeepsKek (env .responder) r)
    (hroom : HasRoom env) :
    ∃ i' r' d h, exchange C env i r = .ok (i', r') ∧
      Established A h 1 1 (Agreements.transport C d).1 (Agreements.transport C d).2 B.pub i' ∧
      Established B h 1 1 (Agreements.transport C d).2 (Agreements.transport C d).1 A.pub r' := by
  have hikek : ∀ n, (env .initiator n).keyModule.instanceKek = some A.kek :=
    fun n ↦ (hikek n).trans hi.kek
  have hrkek : ∀ n, (env .responder n).keyModule.instanceKek = some B.kek :=
    fun n ↦ (hrkek n).trans hr.kek
  obtain ⟨room₁, hroom₁, hle₁⟩ := hroom.first
  obtain ⟨room₂, hroom₂, hle₂⟩ := hroom.second
  obtain ⟨room₃, hroom₃, hle₃⟩ := hroom.third
  -- the ephemeral public keys, and each agreement from both sides
  obtain ⟨epub, hepub⟩ := hdh.exists_base (env .initiator 0).random
  obtain ⟨rpub, hrpub⟩ := hdh.exists_base (env .responder 1).random
  obtain ⟨ee, hee⟩ := hdh.exists_scalarmult (env .initiator 0).random hrpub
  obtain ⟨es, hes⟩ := hdh.exists_scalarmult (env .initiator 0).random B.base
  obtain ⟨se, hse⟩ := hdh.exists_scalarmult A.scalar hrpub
  have hee' := (hdh.comm hepub hrpub).symm.trans hee
  have hes' := (hdh.comm hepub B.base).symm.trans hes
  have hse' := (hdh.comm A.base hrpub).symm.trans hse
  obtain ⟨ct, hct⟩ := haead.exists_ciphertext (nhMixKey C (protocolHash C) ee).2 (nhNonce 0)
    (nhMixHash C (nhMixHash C (protocolHash C) epub.toList) rpub.toList).toList B.pub.toList
  obtain ⟨ct', hct'⟩ := haead.exists_ciphertext
    (nhMixKey C (nhMixKey C (protocolHash C) ee).1 es).2 (nhNonce 0)
    (nhMixHash C (nhMixHash C (nhMixHash C (protocolHash C) epub.toList) rpub.toList) ct).toList
    A.pub.toList
  have hlen : ct.length = nhD + nhT := (haead.length_eq hct).trans (by rw [B.pub.length_eq]; rfl)
  have hlen' : ct'.length = nhD + nhT :=
    (haead.length_eq hct').trans (by rw [A.pub.length_eq]; rfl)
  have hne : (0 : UInt64) ≠ uint64Max := by decide
  -- a call finds the secrets that the last one left
  have hisec : ∀ n (s : Session), s.keyModule.instanceKek = some A.kek →
      ∀ f, (s.under (env .initiator n).keyModule).secret C f = s.secret C f :=
    fun n s hs f ↦ Session.secret_under ((hikek n).trans hs.symm) f
  have hrsec : ∀ n (s : Session), s.keyModule.instanceKek = some B.kek →
      ∀ f, (s.under (env .responder n).keyModule).secret C f = s.secret C f :=
    fun n s hs f ↦ Session.secret_under ((hrkek n).trans hs.symm) f
  -- the first message
  obtain ⟨i₁, hi₁, hp₁, hick₁, hisend₁⟩ := StepEnv.call_of_returns (E := env .initiator 0) <| by
    rw [hroom₁]
    exact initiator_writeFirst hbox (hi.under (hikek 0)) ((hisec 0 i hi.kek _).trans hick) hepub
      (env .initiator 0).input hle₁
  obtain ⟨r₁, hr₁, hq₁, hrck₁, hre₁⟩ := StepEnv.call_of_returns (E := env .responder 0)
    (responder_readFirst (hr.under (hrkek 0)) ((hrsec 0 r hr.kek _).trans hrck) epub _ _)
  -- the second message
  obtain ⟨r₂, hr₂, hq₂, hrck₂, hrsend₂, hrrecv₂⟩ :=
    StepEnv.call_of_returns (E := env .responder 1) <| by
      rw [hroom₂]
      exact responder_writeSecond hbox (hq₁.under (hrkek 1)) ((hrsec 1 r₁ hq₁.kek _).trans hrck₁)
        hrpub ((congrArg _ hre₁).trans hee') hne hct ((congrArg _ hre₁).trans hes')
        (env .responder 1).input hle₂
  obtain ⟨i₂, hi₂, hp₂, hick₂, hisend₂, hire₂, hirs₂⟩ :=
    StepEnv.call_of_returns (E := env .initiator 1)
      (initiator_readSecond hbox (hp₁.under (hikek 1)) ((hisec 1 i₁ hp₁.kek _).trans hick₁)
        ((hisec 1 i₁ hp₁.kek _).trans hisend₁) hee hne hlen (haead.decrypt hct) hes _ _)
  -- the third message
  obtain ⟨i₃, hi₃, hp₃⟩ := StepEnv.call_of_returns (E := env .initiator 2) <| by
    rw [hroom₃]
    exact initiator_writeThird hbox (hp₂.under (hikek 2)) ((hisec 2 i₂ hp₂.kek _).trans hick₂)
      ((hisec 2 i₂ hp₂.kek _).trans hisend₂) hne hct' ((congrArg _ hire₂).trans hse)
      (env .initiator 2).random (env .initiator 2).input hle₃
  obtain ⟨r₃, hr₃, hq₃⟩ := StepEnv.call_of_returns (E := env .responder 2)
    (responder_readThird hbox (hq₂.under (hrkek 2)) ((hrsec 2 r₂ hq₂.kek _).trans hrck₂)
      ((hrsec 2 r₂ hq₂.kek _).trans hrsend₂) ((hrsec 2 r₂ hq₂.kek _).trans hrrecv₂) hne hlen'
      (haead.decrypt hct') hse' _ _)
  refine ⟨i₃, r₃, ⟨ee, es, se⟩, _, ?_, hirs₂ ▸ hp₃, hq₃⟩
  simp only [exchange, hi₁, hr₁, hr₂, hi₂, hi₃, hr₃, ok_bind]
  rfl

end Exchange

/-! ### The transport -/

/-- Two sessions and the messages in flight towards each, with their plaintexts. -/
structure NoiseLink where
  /-- The session of a side. -/
  session : Side → Session
  /-- The messages in flight towards a side, oldest first: plaintext and ciphertext. -/
  inFlight : Side → List (Bytes × Bytes)

/-- What happens on a link. -/
inductive LinkEvent
  /-- A side sends a plaintext with room for a ciphertext. -/
  | send (side : Side) (keyModule : PrivkeyModule) (plaintext : Bytes) (room : ℕ)
  /-- A side receives the oldest message in flight towards it, when there is one. -/
  | recv (side : Side) (keyModule : PrivkeyModule)

/-- The side at which an event happens. -/
def LinkEvent.side : LinkEvent → Side
  | send side _ _ _ => side
  | recv side _ => side

/-- The key module that an event finds. -/
def LinkEvent.keyModule : LinkEvent → PrivkeyModule
  | send _ keyModule _ _ => keyModule
  | recv _ keyModule => keyModule

namespace NoiseLink

/-- Two sessions with nothing in flight. -/
def start (i r : Session) : NoiseLink where
  session
    | .initiator => i
    | .responder => r
  inFlight _ := []

/-- The link after a side's session changes to `t`. -/
def setSession (l : NoiseLink) (side : Side) (t : Session) : NoiseLink :=
  ⟨Function.update l.session side t, l.inFlight⟩

/-- The link after the messages towards a side change to `q`. -/
def setInFlight (l : NoiseLink) (side : Side) (q : List (Bytes × Bytes)) : NoiseLink :=
  ⟨l.session, Function.update l.inFlight side q⟩

/-- A send puts the ciphertext in flight when it succeeds. -/
def send (l : NoiseLink) (side : Side) (M : PrivkeyModule) (plaintext : Bytes) (room : ℕ) :
    NoiseLink :=
  match foretiasNoiseSend C plaintext room ((l.session side).under M) with
  | .ok ct t => (l.setSession side t).setInFlight side.other
      (l.inFlight side.other ++ [(plaintext, ct)])
  | .error _ t => l.setSession side t

/-- A receive takes the oldest message in flight. -/
def recv (l : NoiseLink) (side : Side) (M : PrivkeyModule) : NoiseLink :=
  match l.inFlight side with
  | [] => l
  | (_, ct) :: rest =>
    (l.setSession side
      (finalState (foretiasNoiseRecv C ct ((l.session side).under M)))).setInFlight side rest

/-- One event. -/
def next (l : NoiseLink) : LinkEvent → NoiseLink
  | .send side M plaintext room => l.send C side M plaintext room
  | .recv side M => l.recv C side M

end NoiseLink

/-- An event at a side whose process still has the instance key of that side's session. -/
def LinkStep (l : NoiseLink) (e : LinkEvent) (l' : NoiseLink) : Prop :=
  e.keyModule.instanceKek = (l.session e.side).keyModule.instanceKek ∧ l' = l.next C e

variable {C}

/-- The messages of a list are encrypted under consecutive nonces, from `n` up to `n'`. -/
def EncryptedInOrder (C : Sodium) (key : Bytes32) : UInt64 → List (Bytes × Bytes) → UInt64 → Prop
  | n, [], n' => n = n'
  | n, (pt, ct) :: rest, n' => n ≠ uint64Max ∧ C.aeadEncrypt key (nhNonce n) [] pt = some ct ∧
      EncryptedInOrder C key (n + 1) rest n'

/-- A message that is encrypted under the next counter goes on the queue. -/
theorem EncryptedInOrder.concat {key : Bytes32} {n n' : UInt64} {q : List (Bytes × Bytes)}
    {pt ct : Bytes} (hq : EncryptedInOrder C key n q n') (hn' : n' ≠ uint64Max)
    (hct : C.aeadEncrypt key (nhNonce n') [] pt = some ct) :
    EncryptedInOrder C key n (q ++ [(pt, ct)]) (n' + 1) := by
  induction q generalizing n with
  | nil =>
    obtain rfl : n = n' := hq
    exact ⟨hn', hct, rfl⟩
  | cons m q ih => exact ⟨hq.1, hq.2.1, ih hq.2.2⟩

/-- The two sessions share the key of each direction, and the messages in flight are the next that
their receiver expects. -/
structure InSync (C : Sodium) (key : Side → Bytes32) (l : NoiseLink) : Prop where
  /-- The handshakes are complete. -/
  complete (x : Side) : (l.session x).handshakeComplete = true
  /-- The key under which a side sends. -/
  sendKey (x : Side) : (l.session x).secret C .sendKey = some (key x)
  /-- The key under which a side receives. -/
  recvKey (x : Side) : (l.session x).secret C .recvKey = some (key x.other)
  /-- The messages towards a side. -/
  inOrder (x : Side) : EncryptedInOrder C (key x.other) (l.session x).recvNonce (l.inFlight x)
    (l.session x.other).sendNonce

section InSync

variable {key : Side → Bytes32} {l l' : NoiseLink} {x : Side} {M : PrivkeyModule}

/-- The oldest message in flight decrypts to its plaintext. -/
theorem recv_of_inSync (hC : AeadCorrect C) (hl : InSync C key l) {pt ct : Bytes}
    {rest : List (Bytes × Bytes)} (hx : l.inFlight x = (pt, ct) :: rest)
    (hM : M.instanceKek = (l.session x).keyModule.instanceKek) :
    foretiasNoiseRecv C ct ((l.session x).under M) =
      .ok pt (((l.session x).under M).countRecv
        (.decrypt (key x.other) (nhNonce (l.session x).recvNonce) [] ct pt)) := by
  have hq := hl.inOrder x
  rw [hx] at hq
  obtain ⟨hn, hct, -⟩ := hq
  have hlen : nhT ≤ ct.length := by
    rw [hC.length_eq hct]
    exact Nat.le_add_left _ _
  have hk := (Session.secret_under hM _).trans (hl.recvKey x)
  exact foretiasNoiseRecv_eq_ok.2 ⟨hl.complete x, hlen, key x.other, hk,
    nhAeDec_eq_ok.2 ⟨hn, hC.decrypt hct, rfl⟩⟩

/-- A side whose counter is not exhausted can send. -/
theorem send_of_inSync (hC : AeadCorrect C) (hl : InSync C key l) {pt : Bytes} {room : ℕ}
    (hM : M.instanceKek = (l.session x).keyModule.instanceKek)
    (hn : (l.session x).sendNonce ≠ uint64Max) (hroom : pt.length + nhT ≤ room) :
    ∃ ct t, foretiasNoiseSend C pt room ((l.session x).under M) = .ok ct t := by
  obtain ⟨ct, hct⟩ := hC.exists_ciphertext (key x) (nhNonce (l.session x).sendNonce) [] pt
  have hk := (Session.secret_under hM _).trans (hl.sendKey x)
  exact ⟨ct, _, foretiasNoiseSend_eq_ok.2 ⟨hl.complete x, (Nat.mod_le _ _).trans hroom, key x, hk,
    nhAeEnc_eq_ok.2 ⟨hn, hct, rfl⟩⟩⟩

/-- Two sessions stay in step when one of them changes, with the messages in flight. -/
theorem InSync.update (hl : InSync C key l) {t : Session} {q : Side → List (Bytes × Bytes)}
    (hcomplete : t.handshakeComplete = true) (hsend : t.secret C .sendKey = some (key x))
    (hrecv : t.secret C .recvKey = some (key x.other))
    (hin : EncryptedInOrder C (key x.other) t.recvNonce (q x) (l.session x.other).sendNonce)
    (hout : EncryptedInOrder C (key x) (l.session x.other).recvNonce (q x.other) t.sendNonce) :
    InSync C key ⟨Function.update l.session x t, q⟩ := by
  have hself : (⟨Function.update l.session x t, q⟩ : NoiseLink).session x = t :=
    Function.update_self _ _ _
  have hother : (⟨Function.update l.session x t, q⟩ : NoiseLink).session x.other =
      l.session x.other := Function.update_of_ne x.other_ne _ _
  constructor
  all_goals
    intro y
    obtain rfl | rfl := x.eq_or_eq_other y
  · rwa [hself]
  · rw [hother]
    exact hl.complete _
  · rwa [hself]
  · rw [hother]
    exact hl.sendKey _
  · rwa [hself]
  · rw [hother]
    exact hl.recvKey _
  · rwa [hself, hother]
  · rwa [hother, Side.other_other, hself]

/-- A send keeps the sessions in step, and puts a message in flight when it succeeds. -/
theorem inSync_send (hl : InSync C key l) (hM : M.instanceKek = (l.session x).keyModule.instanceKek)
    (plaintext : Bytes) (room : ℕ) : InSync C key (l.send C x M plaintext room) := by
  have hsend := (Session.secret_under hM _).trans (hl.sendKey x)
  have hrecv := (Session.secret_under hM _).trans (hl.recvKey x)
  have hin := hl.inOrder x
  have hout := hl.inOrder x.other
  rw [Side.other_other] at hout
  rw [NoiseLink.send]
  cases hrun : foretiasNoiseSend C plaintext room ((l.session x).under M) with
  | ok ct t =>
    obtain ⟨hcomplete, -, k, hk, henc⟩ := foretiasNoiseSend_eq_ok.1 hrun
    obtain rfl : key x = k := Option.some_inj.1 (hsend.symm.trans hk)
    obtain ⟨hn, hct, rfl⟩ := nhAeEnc_eq_ok.1 henc
    refine hl.update hcomplete hsend hrecv ?_ ?_
    · rw [Function.update_of_ne x.other_ne.symm]
      exact hin
    · rw [Function.update_self]
      exact hout.concat hn hct
  | error e t =>
    obtain rfl : t = (l.session x).under M := keepsOnError_foretiasNoiseSend _ _ _ _ _ hrun
    exact hl.update (hl.complete x) hsend hrecv hin hout

/-- A receive keeps the sessions in step. -/
theorem inSync_recv (hC : AeadCorrect C) (hl : InSync C key l)
    (hM : M.instanceKek = (l.session x).keyModule.instanceKek) :
    InSync C key (l.recv C x M) := by
  rw [NoiseLink.recv]
  cases hx : l.inFlight x with
  | nil => exact hl
  | cons m rest =>
    have hin := hl.inOrder x
    have hout := hl.inOrder x.other
    rw [Side.other_other] at hout
    rw [hx] at hin
    dsimp only
    rw [recv_of_inSync hC hl hx hM]
    refine hl.update (hl.complete x) ((Session.secret_under hM _).trans (hl.sendKey x))
      ((Session.secret_under hM _).trans (hl.recvKey x)) ?_ ?_
    · rw [Function.update_self]
      exact hin.2.2
    · rw [Function.update_of_ne x.other_ne]
      exact hout

/-- Each step of the link keeps the two sides in step, -/
theorem inSync_step (hC : AeadCorrect C) {e : LinkEvent} (hl : InSync C key l)
    (hstep : LinkStep C l e l') : InSync C key l' := by
  obtain ⟨hM, rfl⟩ := hstep
  cases e with
  | send side M plaintext room => exact inSync_send hl hM plaintext room
  | recv side M => exact inSync_recv hC hl hM

/-- and so does a run. -/
theorem inSync_of_run (hC : AeadCorrect C) {events : List LinkEvent}
    (hrun : Run (LinkStep C) l events l') (hl : InSync C key l) : InSync C key l' :=
  hrun.invariant (fun hl hstep ↦ inSync_step hC hl hstep) hl

end InSync

/-! ### The result -/

/-- What the two sides of a handshake from `i₀` and `r₀` hold at its end, with the counters at
`n`. -/
structure Agreement (C : Sodium) (n : UInt64) (i₀ r₀ i r : Session) : Prop where
  /-- Both report completion. -/
  complete : i.handshakeComplete = true ∧ r.handshakeComplete = true
  /-- The handshake hashes are equal. -/
  hash_eq : i.handshakeHash = r.handshakeHash
  /-- The initiator sends under the key under which the responder receives. -/
  initiatorKey : ∃ k, i.secret C .sendKey = some k ∧ r.secret C .recvKey = some k
  /-- The responder sends under the key under which the initiator receives. -/
  responderKey : ∃ k, r.secret C .sendKey = some k ∧ i.secret C .recvKey = some k
  /-- The initiator's counters. -/
  initiatorNonces : i.sendNonce = n ∧ i.recvNonce = n
  /-- The responder's counters. -/
  responderNonces : r.sendNonce = n ∧ r.recvNonce = n
  /-- The initiator reports the responder's static key. -/
  initiatorPeer : i.remoteStaticPub = some r₀.localStaticPub
  /-- The responder reports the initiator's static key. -/
  responderPeer : r.remoteStaticPub = some i₀.localStaticPub

/-- After any sends and receives in any order, the next message that a side receives is returned
as it was sent, and a side whose counter is not exhausted can send. -/
def ExactTransport (C : Sodium) (i r : Session) : Prop :=
  ∀ events l, Run (LinkStep C) (.start i r) events l →
    ∀ x M, M.instanceKek = (l.session x).keyModule.instanceKek →
      (∀ pt ct rest, l.inFlight x = (pt, ct) :: rest →
        ∃ t, foretiasNoiseRecv C ct ((l.session x).under M) = .ok pt t) ∧
      ∀ pt room, (l.session x).sendNonce ≠ uint64Max → pt.length + nhT ≤ room →
        ∃ ct t, foretiasNoiseSend C pt room ((l.session x).under M) = .ok ct t

/-- A party's public key is not the empty one. -/
theorem Party.pub_ne_zero (hdh : KeyAgreementCorrect C) (A : Party C) :
    A.pub ≠ .replicate 32 0 := by
  intro hzero
  obtain ⟨dh, hdh'⟩ := hdh.exists_scalarmult A.scalar A.base
  rw [hzero, hdh.scalarmult_zero] at hdh'
  cases hdh'

/-- Two sessions that have agreed start in step. -/
theorem inSync_start {A B : Party C} {h : Bytes32} {n : UInt64} {sk rk ra rb : Bytes32}
    {i r : Session} (hi : Established A h n n sk rk ra i) (hr : Established B h n n rk sk rb r) :
    InSync C (fun | .initiator => sk | .responder => rk) (.start i r) := by
  constructor
  all_goals
    rintro (_ | _)
  · exact hi.complete
  · exact hr.complete
  · exact hi.sendKey
  · exact hr.sendKey
  · exact hi.recvKey
  · exact hr.recvKey
  · exact hi.recv.trans hr.send.symm
  · exact hr.recv.trans hi.send.symm

/-- **Agreement.** A handshake whose messages are delivered as written completes on both sides in
three messages without an error, with equal hashes, keys in opposite roles, each other's static
keys and all counters at one; and the transport after it is exact. -/
theorem noise_xx_agreement (hbox : SecretboxCorrect C) (hdh : KeyAgreementCorrect C)
    (haead : AeadCorrect C) {iInit rInit : NoiseInit} {iPinned rPinned : Option Bytes32}
    {iMemory rMemory i₀ r₀ : Session} (hi : iInit.run C iPinned true iMemory = .ok ⟨⟩ i₀)
    (hr : rInit.run C rPinned false rMemory = .ok ⟨⟩ r₀) {env : Side → ℕ → StepEnv}
    (hikek : KeepsKek (env .initiator) i₀) (hrkek : KeepsKek (env .responder) r₀)
    (hroom : HasRoom env) :
    ∃ i r, exchange C env i₀ r₀ = .ok (i, r) ∧ Agreement C 1 i₀ r₀ i r ∧ ExactTransport C i r := by
  obtain ⟨A, hA, hAck, -⟩ := exists_party_of_init hbox hi
  obtain ⟨B, hB, hBck, -⟩ := exists_party_of_init hbox hr
  obtain ⟨i, r, d, h, hexchange, hi', hr'⟩ :=
    exists_exchange hbox hdh haead hA hAck hB hBck hikek hrkek hroom
  refine ⟨i, r, hexchange, ?_, fun events l hrun x M hM ↦ ?_⟩
  · constructor
    · exact ⟨hi'.complete, hr'.complete⟩
    · exact hi'.hash.trans hr'.hash.symm
    · exact ⟨_, hi'.sendKey, hr'.recvKey⟩
    · exact ⟨_, hr'.sendKey, hi'.recvKey⟩
    · exact ⟨hi'.send, hi'.recv⟩
    · exact ⟨hr'.send, hr'.recv⟩
    · rw [hB.pub, ← hi'.remoteStatic]
      exact ForetiasNoiseState.remoteStaticPub_of_complete hi'.complete
        (hi'.remoteStatic ▸ B.pub_ne_zero hdh)
    · rw [hA.pub, ← hr'.remoteStatic]
      exact ForetiasNoiseState.remoteStaticPub_of_complete hr'.complete
        (hr'.remoteStatic ▸ A.pub_ne_zero hdh)
  · have hsync := inSync_of_run haead hrun (inSync_start hi' hr')
    constructor
    · intro pt ct rest hx
      exact ⟨_, recv_of_inSync haead hsync hx hM⟩
    · intro pt room hn hlen
      exact send_of_inSync haead hsync hM hn hlen

/-! ### A concrete handshake -/

/-- Calls with the buffers of the Rust wrapper, and one ephemeral key for each call. -/
def sampleEnv (_ : Side) (n : ℕ) : StepEnv :=
  ⟨.zeroKek, .replicate 32 (UInt8.ofNat n), none, some 128⟩

theorem sample_eq (seed : UInt8) (isInitiator : Bool) :
    (NoiseInit.ed25519 (.replicate 32 seed)).run .transparent none isInitiator .blank =
      .ok ⟨⟩ (.sample seed isInitiator) := rfl

theorem hasRoom_sampleEnv : HasRoom sampleEnv :=
  ⟨⟨128, rfl, by decide⟩, ⟨128, rfl, by decide⟩, ⟨128, rfl, by decide⟩⟩

theorem noise_xx_agreement_sample :
    ∃ i r, exchange .transparent sampleEnv (.sample 5 true) (.sample 7 false) = .ok (i, r) ∧
      Agreement .transparent 1 (.sample 5 true) (.sample 7 false) i r ∧
      ExactTransport .transparent i r :=
  noise_xx_agreement secretboxCorrect_transparent keyAgreementCorrect_transparent
    aeadCorrect_transparent (sample_eq 5 true) (sample_eq 7 false) (fun _ ↦ rfl) (fun _ ↦ rfl)
    hasRoom_sampleEnv

/-- The counters of the handshake go on into the transport. -/
theorem transport_nonces_not_zero :
    ¬∀ (C : Sodium), SecretboxCorrect C → KeyAgreementCorrect C → AeadCorrect C →
      ∀ (iInit rInit : NoiseInit) (iPinned rPinned : Option Bytes32)
        (iMemory rMemory i₀ r₀ : Session),
        iInit.run C iPinned true iMemory = .ok ⟨⟩ i₀ →
        rInit.run C rPinned false rMemory = .ok ⟨⟩ r₀ →
        ∀ env : Side → ℕ → StepEnv, KeepsKek (env .initiator) i₀ → KeepsKek (env .responder) r₀ →
          HasRoom env →
          ∃ i r, exchange C env i₀ r₀ = .ok (i, r) ∧ Agreement C 0 i₀ r₀ i r ∧
            ExactTransport C i r := by
  intro hclaim
  obtain ⟨i, r, hexchange, hagree, -⟩ := hclaim .transparent secretboxCorrect_transparent
    keyAgreementCorrect_transparent aeadCorrect_transparent _ _ _ _ _ _ _ _ (sample_eq 5 true)
    (sample_eq 7 false) sampleEnv (fun _ ↦ rfl) (fun _ ↦ rfl) hasRoom_sampleEnv
  have hnonce : (exchange .transparent sampleEnv (.sample 5 true) (.sample 7 false)).toOption.map
      (fun sessions ↦ sessions.1.sendNonce) = some 1 := by decide +kernel
  rw [hexchange] at hnonce
  have hone : i.sendNonce = 1 := Option.some_inj.1 hnonce
  rw [hagree.initiatorNonces.1] at hone
  exact absurd hone (by decide)

end Foretias

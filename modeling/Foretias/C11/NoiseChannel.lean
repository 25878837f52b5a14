import Foretias.C11.NoiseAgreement
import Foretias.C11.NoiseNonces

/-!
# A Noise transport under attack

Once a handshake is done, the network may alter, drop, repeat, reorder, reflect and inject what it
carries. Of the cipher it is assumed that a ciphertext which opens under a nonce was made under that
nonce by the other side (`Unforged`): the network has no key, and each direction has its own.

The rest is the counters' doing. A receive that fails leaves the session as it was, so a side has
received as many messages as its counter has moved, and the only ciphertext that opens next is the
next one sent (`InOrder`).

* `received_prefix_of_attack` — what a side receives is a beginning of what the other side sent, and
  whatever was delivered before, the next genuine message is received.
-/

namespace Foretias

open ErrorState

/-- A message that a side has sent, with the counter it was encrypted under. -/
structure SentMessage where
  /-- The counter. -/
  nonce : UInt64
  /-- What was to be sent. -/
  plaintext : Bytes
  /-- What was put on the wire. -/
  ciphertext : Bytes
  deriving DecidableEq

/-- A side of the transport. -/
structure Endpoint where
  /-- Its session. -/
  session : Session
  /-- The messages sent, in order. -/
  sent : List SentMessage
  /-- The plaintexts received, in order. -/
  received : List Bytes

namespace Endpoint

variable (C : Sodium) (p : Endpoint) (M : PrivkeyModule)

/-- A side at the end of a handshake. -/
def start (s : Session) : Endpoint := ⟨s, [], []⟩

/-- A send. -/
def send (plaintext : Bytes) (room : ℕ) : Endpoint :=
  match foretiasNoiseSend C plaintext room (p.session.under M) with
  | .ok ct t => ⟨t, p.sent ++ [⟨p.session.sendNonce, plaintext, ct⟩], p.received⟩
  | .error _ t => { p with session := t }

/-- A receive of whatever the network delivers. -/
def receive (ciphertext : Bytes) : Endpoint :=
  match foretiasNoiseRecv C ciphertext (p.session.under M) with
  | .ok pt t => ⟨t, p.sent, p.received ++ [pt]⟩
  | .error _ t => { p with session := t }

variable {C p M} in
/-- A send that succeeds adds a message. -/
theorem send_of_ok {plaintext ct : Bytes} {room : ℕ} {t : Session}
    (h : foretiasNoiseSend C plaintext room (p.session.under M) = .ok ct t) :
    p.send C M plaintext room =
      ⟨t, p.sent ++ [⟨p.session.sendNonce, plaintext, ct⟩], p.received⟩ := by
  rw [send, h]

/-- A side forgets nothing that it sent. -/
theorem prefix_send (plaintext : Bytes) (room : ℕ) :
    p.sent <+: (p.send C M plaintext room).sent := by
  rw [send]
  cases foretiasNoiseSend C plaintext room (p.session.under M) with
  | ok ct t => exact List.prefix_append _ _
  | error e t => exact List.prefix_rfl

@[simp] theorem sent_receive (ciphertext : Bytes) :
    (p.receive C M ciphertext).sent = p.sent := by
  rw [receive]
  cases foretiasNoiseRecv C ciphertext (p.session.under M) <;> rfl

@[simp] theorem received_send (plaintext : Bytes) (room : ℕ) :
    (p.send C M plaintext room).received = p.received := by
  rw [send]
  cases foretiasNoiseSend C plaintext room (p.session.under M) <;> rfl

end Endpoint

/-- What happens at a side. -/
inductive AttackEvent
  /-- It sends a plaintext with room for a ciphertext. -/
  | send (side : Side) (keyModule : PrivkeyModule) (plaintext : Bytes) (room : ℕ)
  /-- The network delivers bytes to it. -/
  | deliver (side : Side) (keyModule : PrivkeyModule) (ciphertext : Bytes)

namespace AttackEvent

/-- The side at which it happens. -/
def side : AttackEvent → Side
  | send side _ _ _ => side
  | deliver side _ _ => side

/-- The key module that it finds. -/
def keyModule : AttackEvent → PrivkeyModule
  | send _ keyModule _ _ => keyModule
  | deliver _ keyModule _ => keyModule

/-- The side after it. -/
def exec (C : Sodium) (p : Endpoint) : AttackEvent → Endpoint
  | send _ M plaintext room => p.send C M plaintext room
  | deliver _ M ciphertext => p.receive C M ciphertext

/-- Both sides after it. -/
def next (C : Sodium) (l : Side → Endpoint) (e : AttackEvent) : Side → Endpoint :=
  Function.update l e.side (e.exec C (l e.side))

end AttackEvent

variable (C : Sodium)

/-- One event, at a side whose process still has the instance key of its session. -/
def AttackStep (l : Side → Endpoint) (e : AttackEvent) (l' : Side → Endpoint) : Prop :=
  e.keyModule.instanceKek = (l e.side).session.keyModule.instanceKek ∧ l' = e.next C l

/-- One event at a side that is seen on its own. -/
def EndpointStep (p : Endpoint) (e : AttackEvent) (q : Endpoint) : Prop :=
  e.keyModule.instanceKek = p.session.keyModule.instanceKek ∧ q = e.exec C p

/-- What the network delivers is no forgery: if it opens under the receiver's key and counter, it
was made under this counter by the other side. -/
def Unforged (l : Side → Endpoint) : AttackEvent → Prop
  | .send _ _ _ _ => True
  | .deliver x _ ciphertext => ∀ k pt, (l x).session.secret C .recvKey = some k →
      C.aeadDecrypt k (nhNonce (l x).session.recvNonce) [] ciphertext = some pt →
        ∃ m ∈ (l x.other).sent, m.nonce = (l x).session.recvNonce ∧ m.ciphertext = ciphertext

variable {C}

/-! ### A side and its counters -/

/-- What a side has sent was encrypted under its key and the values of its counter, from `n` on. -/
structure SentInOrder (C : Sodium) (key : Bytes32) (n : UInt64) (p : Endpoint) : Prop where
  /-- The handshake is complete. -/
  complete : p.session.handshakeComplete = true
  /-- The key. -/
  sendKey : p.session.secret C .sendKey = some key
  /-- The counter has moved by one for each message. -/
  count : p.session.sendNonce.toNat = n.toNat + p.sent.length
  /-- The messages. -/
  encrypted {k : ℕ} {m : SentMessage} (hm : p.sent[k]? = some m) :
    m.nonce.toNat = n.toNat + k ∧ m.nonce ≠ uint64Max ∧
      C.aeadEncrypt key (nhNonce m.nonce) [] m.plaintext = some m.ciphertext

/-- What the side `p` has received is a beginning of what `q` has sent, and its counter has moved by
one for each message. -/
structure ReceivedInOrder (C : Sodium) (key : Bytes32) (n : UInt64) (q p : Endpoint) : Prop where
  /-- The key. -/
  recvKey : p.session.secret C .recvKey = some key
  /-- The counter. -/
  count : p.session.recvNonce.toNat = n.toNat + p.received.length
  /-- The messages. -/
  received : p.received <+: q.sent.map SentMessage.plaintext

/-- The sides `p` and `q` are in order, each with the other. -/
structure InOrder (C : Sodium) (key : Side → Bytes32) (n : Side → UInt64) (l : Side → Endpoint) :
    Prop where
  /-- What each side has sent. -/
  sent (x : Side) : SentInOrder C (key x) (n x) (l x)
  /-- What each side has received. -/
  received (x : Side) : ReceivedInOrder C (key x.other) (n x.other) (l x.other) (l x)

section Endpoint

variable {key : Bytes32} {n : UInt64} {p q : Endpoint} {M : PrivkeyModule} {plaintext : Bytes}
  {room : ℕ} {ciphertext : Bytes}

/-- A send encrypts under the counter's value and moves the counter, or does nothing. -/
theorem Endpoint.send_cases (hkey : (p.session.under M).secret C .sendKey = some key) :
    p.send C M plaintext room = { p with session := p.session.under M } ∨
      ∃ ct, p.session.sendNonce ≠ uint64Max ∧
        C.aeadEncrypt key (nhNonce p.session.sendNonce) [] plaintext = some ct ∧
        p.send C M plaintext room =
          ⟨(p.session.under M).countSend
              (.encrypt key (nhNonce p.session.sendNonce) [] plaintext ct),
            p.sent ++ [⟨p.session.sendNonce, plaintext, ct⟩], p.received⟩ := by
  rw [send]
  rcases hrun : foretiasNoiseSend C plaintext room (p.session.under M) with ⟨ct, t⟩ | ⟨e, t⟩
  · obtain ⟨-, -, k, hk, henc⟩ := foretiasNoiseSend_eq_ok.1 hrun
    obtain rfl : key = k := Option.some_inj.1 (hkey.symm.trans hk)
    obtain ⟨hn, hct, rfl⟩ := nhAeEnc_eq_ok.1 henc
    exact .inr ⟨ct, hn, hct, rfl⟩
  · obtain rfl : t = p.session.under M := keepsOnError_foretiasNoiseSend _ _ _ _ _ hrun
    exact .inl rfl

/-- A receive opens what was delivered and moves the counter, or does nothing. -/
theorem Endpoint.receive_cases (hkey : (p.session.under M).secret C .recvKey = some key) :
    p.receive C M ciphertext = { p with session := p.session.under M } ∨
      ∃ pt, p.session.recvNonce ≠ uint64Max ∧
        C.aeadDecrypt key (nhNonce p.session.recvNonce) [] ciphertext = some pt ∧
        p.receive C M ciphertext =
          ⟨(p.session.under M).countRecv
              (.decrypt key (nhNonce p.session.recvNonce) [] ciphertext pt),
            p.sent, p.received ++ [pt]⟩ := by
  rw [receive]
  rcases hrun : foretiasNoiseRecv C ciphertext (p.session.under M) with ⟨pt, t⟩ | ⟨e, t⟩
  · obtain ⟨-, -, k, hk, hdec⟩ := foretiasNoiseRecv_eq_ok.1 hrun
    obtain rfl : key = k := Option.some_inj.1 (hkey.symm.trans hk)
    obtain ⟨hn, hpt, rfl⟩ := nhAeDec_eq_ok.1 hdec
    exact .inr ⟨pt, hn, hpt, rfl⟩
  · obtain rfl : t = p.session.under M := keepsOnError_foretiasNoiseRecv _ _ _ _ hrun
    exact .inl rfl

/-- A side goes on with the key module that it found. -/
theorem Endpoint.keyModule_send (hkey : (p.session.under M).secret C .sendKey = some key) :
    (p.send C M plaintext room).session.keyModule = M := by
  obtain heq | ⟨ct, -, -, heq⟩ := Endpoint.send_cases hkey
  all_goals rw [heq]; rfl

theorem Endpoint.keyModule_receive (hkey : (p.session.under M).secret C .recvKey = some key) :
    (p.receive C M ciphertext).session.keyModule = M := by
  obtain heq | ⟨pt, -, -, heq⟩ := Endpoint.receive_cases hkey
  all_goals rw [heq]; rfl

/-- A send adds a message under the counter's value, or does nothing. -/
theorem SentInOrder.send (hp : SentInOrder C key n p)
    (hM : M.instanceKek = p.session.keyModule.instanceKek) (plaintext : Bytes) (room : ℕ) :
    SentInOrder C key n (p.send C M plaintext room) := by
  have hkey := (Session.secret_under hM _).trans hp.sendKey
  obtain heq | ⟨ct, hn, hct, heq⟩ := Endpoint.send_cases hkey
  · rw [heq]
    exact ⟨hp.complete, hkey, hp.count, hp.encrypted⟩
  rw [heq]
  refine ⟨hp.complete, hkey, ?_, fun {k m} hm ↦ ?_⟩
  · show (p.session.sendNonce + 1).toNat = n.toNat + (p.sent ++ [_]).length
    rw [UInt64.toNat_add_one_of_lt (toNat_lt_of_ne_max hn), hp.count, List.length_append,
      List.length_singleton, Nat.add_assoc]
  · rcases Nat.lt_or_ge k p.sent.length with hlt | hge
    · rw [List.getElem?_append_left hlt] at hm
      exact hp.encrypted hm
    · obtain ⟨hk, hm⟩ := List.getElem?_eq_some_iff.1 (List.getElem?_append_right hge ▸ hm)
      obtain rfl : k = p.sent.length := Nat.le_antisymm (Nat.sub_eq_zero_iff_le.1
        (Nat.lt_one_iff.1 hk)) hge
      obtain rfl : _ = m := (List.getElem_singleton _).symm.trans hm
      exact ⟨hp.count, hn, hct⟩

/-- A receive does nothing to what was sent. -/
theorem SentInOrder.receive (hp : SentInOrder C key n p) {recvKey : Bytes32}
    (hrecv : p.session.secret C .recvKey = some recvKey)
    (hM : M.instanceKek = p.session.keyModule.instanceKek) (ciphertext : Bytes) :
    SentInOrder C key n (p.receive C M ciphertext) := by
  have hkey := (Session.secret_under hM _).trans hp.sendKey
  obtain heq | ⟨pt, -, -, heq⟩ := Endpoint.receive_cases ((Session.secret_under hM _).trans hrecv)
  all_goals
    rw [heq]
    exact ⟨hp.complete, hkey, hp.count, hp.encrypted⟩

/-- A send does nothing to what was received. -/
theorem ReceivedInOrder.send (hp : ReceivedInOrder C key n q p) {sendKey : Bytes32}
    (hsend : p.session.secret C .sendKey = some sendKey)
    (hM : M.instanceKek = p.session.keyModule.instanceKek) (plaintext : Bytes) (room : ℕ) :
    ReceivedInOrder C key n q (p.send C M plaintext room) := by
  have hkey := (Session.secret_under hM _).trans hp.recvKey
  obtain heq | ⟨ct, -, -, heq⟩ := Endpoint.send_cases ((Session.secret_under hM _).trans hsend)
  all_goals
    rw [heq]
    exact ⟨hkey, hp.count, hp.received⟩

/-- Whatever is delivered to a side, it sends in order. -/
theorem SentInOrder.of_run {recvKey : Bytes32} {events : List AttackEvent}
    (hrun : Run (EndpointStep C) p events q) (hp : SentInOrder C key n p)
    (hrecv : p.session.secret C .recvKey = some recvKey) : SentInOrder C key n q := by
  suffices hinv : SentInOrder C key n q ∧ q.session.secret C .recvKey = some recvKey from hinv.1
  refine hrun.invariant (I := fun p ↦ SentInOrder C key n p ∧
    p.session.secret C .recvKey = some recvKey) (fun {p e q} hp hstep ↦ ?_) ⟨hp, hrecv⟩
  obtain ⟨hp, hrecv⟩ := hp
  obtain ⟨hM, rfl⟩ := hstep
  cases e with
  | send x M plaintext room =>
    replace hM : M.instanceKek = p.session.keyModule.instanceKek := hM
    refine ⟨hp.send hM plaintext room, ?_⟩
    obtain heq | ⟨ct, -, -, heq⟩ :=
      Endpoint.send_cases ((Session.secret_under hM _).trans hp.sendKey)
    all_goals
      rw [AttackEvent.exec, heq]
      exact (Session.secret_under hM _).trans hrecv
  | deliver x M ciphertext =>
    replace hM : M.instanceKek = p.session.keyModule.instanceKek := hM
    refine ⟨hp.receive hrecv hM ciphertext, ?_⟩
    obtain heq | ⟨pt, -, -, heq⟩ :=
      Endpoint.receive_cases ((Session.secret_under hM _).trans hrecv)
    all_goals
      rw [AttackEvent.exec, heq]
      exact (Session.secret_under hM _).trans hrecv

/-- What the other side sends or receives does nothing to what was received. -/
theorem ReceivedInOrder.mono {q' : Endpoint} (hp : ReceivedInOrder C key n q p)
    (hsent : q.sent <+: q'.sent) : ReceivedInOrder C key n q' p :=
  ⟨hp.recvKey, hp.count, hp.received.trans (hsent.map _)⟩

/-- The message sent under the counter's value is the next one: it opens to its plaintext. -/
theorem ReceivedInOrder.next (haead : AeadCorrect C) (hq : SentInOrder C key n q)
    (hp : ReceivedInOrder C key n q p) {m : SentMessage} (hm : m ∈ q.sent)
    (hn : m.nonce = p.session.recvNonce) :
    q.sent[p.received.length]? = some m ∧
      C.aeadDecrypt key (nhNonce p.session.recvNonce) [] m.ciphertext = some m.plaintext := by
  obtain ⟨k, hk⟩ := List.mem_iff_getElem?.1 hm
  obtain ⟨hcount, -, henc⟩ := hq.encrypted hk
  have hlength : k = p.received.length := by
    have := hp.count
    rw [hn] at hcount
    omega
  exact ⟨hlength ▸ hk, hn ▸ haead.decrypt henc⟩

/-- A receive of what is no forgery takes the next message, or does nothing. -/
theorem ReceivedInOrder.receive (haead : AeadCorrect C) (hq : SentInOrder C key n q)
    (hp : ReceivedInOrder C key n q p) (hM : M.instanceKek = p.session.keyModule.instanceKek)
    (hunforged : ∀ pt, C.aeadDecrypt key (nhNonce p.session.recvNonce) [] ciphertext = some pt →
      ∃ m ∈ q.sent, m.nonce = p.session.recvNonce ∧ m.ciphertext = ciphertext) :
    ReceivedInOrder C key n q (p.receive C M ciphertext) := by
  have hkey := (Session.secret_under hM _).trans hp.recvKey
  obtain heq | ⟨pt, hn, hpt, heq⟩ := Endpoint.receive_cases hkey
  · rw [heq]
    exact ⟨hkey, hp.count, hp.received⟩
  obtain ⟨m, hm, hnonce, rfl⟩ := hunforged pt hpt
  obtain ⟨hnext, hopen⟩ := hp.next haead hq hm hnonce
  obtain rfl : m.plaintext = pt := Option.some_inj.1 (hopen.symm.trans hpt)
  rw [heq]
  refine ⟨hkey, ?_, ?_⟩
  · show (p.session.recvNonce + 1).toNat = n.toNat + (p.received ++ [_]).length
    rw [UInt64.toNat_add_one_of_lt (toNat_lt_of_ne_max hn), hp.count, List.length_append,
      List.length_singleton, Nat.add_assoc]
  · have htake := List.prefix_iff_eq_take.1 hp.received
    refine List.prefix_iff_eq_take.2 ?_
    rw [List.length_append, List.length_singleton, List.take_add_one, ← htake, List.getElem?_map,
      hnext]
    rfl

/-- The next message opens. -/
theorem ReceivedInOrder.recv_next (haead : AeadCorrect C) (hq : SentInOrder C key n q)
    (hp : ReceivedInOrder C key n q p) (hcomplete : p.session.handshakeComplete = true)
    {m : SentMessage} (hm : q.sent[p.received.length]? = some m)
    (hM : M.instanceKek = p.session.keyModule.instanceKek) :
    ∃ t, foretiasNoiseRecv C m.ciphertext (p.session.under M) = .ok m.plaintext t := by
  obtain ⟨hcount, hn, henc⟩ := hq.encrypted hm
  have hnonce : m.nonce = p.session.recvNonce := UInt64.toNat_inj.1 (hcount.trans hp.count.symm)
  rw [hnonce] at hn henc
  have hlength : nhT ≤ m.ciphertext.length := by
    rw [haead.length_eq henc]
    exact Nat.le_add_left _ _
  exact ⟨_, (foretiasNoiseRecv_eq_ok (s := p.session.under M)).2
    ⟨hcomplete, hlength, key, (Session.secret_under hM _).trans hp.recvKey,
      nhAeDec_eq_ok.2 ⟨hn, haead.decrypt henc, rfl⟩⟩⟩

/-- A receive of the next message takes it. -/
theorem ReceivedInOrder.receive_next (haead : AeadCorrect C) (hq : SentInOrder C key n q)
    (hp : ReceivedInOrder C key n q p) (hcomplete : p.session.handshakeComplete = true)
    {m : SentMessage} (hm : q.sent[p.received.length]? = some m)
    (hM : M.instanceKek = p.session.keyModule.instanceKek) :
    (p.receive C M m.ciphertext).received = p.received ++ [m.plaintext] := by
  obtain ⟨t, hrun⟩ := hp.recv_next haead hq hcomplete hm hM
  rw [Endpoint.receive, hrun]

/-- A side whose counter is not exhausted can send what it has room for. -/
theorem SentInOrder.exists_send (haead : AeadCorrect C) (hp : SentInOrder C key n p)
    (hM : M.instanceKek = p.session.keyModule.instanceKek) (hn : p.session.sendNonce ≠ uint64Max)
    (hroom : plaintext.length + nhT ≤ room) :
    ∃ ct t, foretiasNoiseSend C plaintext room (p.session.under M) = .ok ct t := by
  obtain ⟨ct, hct⟩ := haead.exists_ciphertext key (nhNonce p.session.sendNonce) [] plaintext
  have hkey := (Session.secret_under hM _).trans hp.sendKey
  exact ⟨ct, _, foretiasNoiseSend_eq_ok.2 ⟨hp.complete, (Nat.mod_le _ _).trans hroom, key, hkey,
    nhAeEnc_eq_ok.2 ⟨hn, hct, rfl⟩⟩⟩

/-- A side that receives the messages sent in order, from the one that it misses on, receives all of
them. -/
theorem ReceivedInOrder.receive_all (haead : AeadCorrect C) (hq : SentInOrder C key n q)
    {key' : Bytes32} {n' : UInt64} {pre rest : List SentMessage} (hsent : q.sent = pre ++ rest)
    (hp : ReceivedInOrder C key n q p) (hp' : SentInOrder C key' n' p)
    (hlength : p.received.length = pre.length)
    (hM : M.instanceKek = p.session.keyModule.instanceKek) :
    (rest.foldl (fun p m ↦ p.receive C M m.ciphertext) p).received =
      q.sent.map SentMessage.plaintext := by
  induction rest generalizing pre p with
  | nil =>
    refine hp.received.eq_of_length ?_
    rw [List.length_map, hlength, hsent, List.append_nil]
  | cons m rest ih =>
    have hm : q.sent[p.received.length]? = some m := by
      rw [hlength, hsent, List.getElem?_append_right (Nat.le_refl _), Nat.sub_self,
        List.getElem?_cons_zero]
    have hnext := hp.receive_next haead hq hp'.complete hm hM
    have hnonce : m.nonce = p.session.recvNonce :=
      UInt64.toNat_inj.1 ((hq.encrypted hm).1.trans hp.count.symm)
    have hmem : m ∈ q.sent := hsent ▸ List.mem_append_right _ List.mem_cons_self
    refine ih (hsent.trans (List.append_cons pre m rest))
      (hp.receive haead hq hM fun _ _ ↦ ⟨m, hmem, hnonce, rfl⟩)
      (hp'.receive hp.recvKey hM _) ?_ ?_
    · rw [hnext, List.length_append, List.length_append, hlength, List.length_singleton,
        List.length_singleton]
    · rw [Endpoint.keyModule_receive ((Session.secret_under hM _).trans hp.recvKey)]

end Endpoint

/-! ### Runs -/

section Run

variable {key : Side → Bytes32} {n : Side → UInt64} {l l' : Side → Endpoint} {x : Side}
  {e : AttackEvent}

/-- The sides stay in order when one of them changes and forgets nothing that it sent. -/
theorem InOrder.update (hl : InOrder C key n l) {p : Endpoint}
    (hsent : SentInOrder C (key x) (n x) p)
    (hreceived : ReceivedInOrder C (key x.other) (n x.other) (l x.other) p)
    (hle : (l x).sent <+: p.sent) : InOrder C key n (Function.update l x p) := by
  have hself : Function.update l x p x = p := Function.update_self _ _ _
  have hother : Function.update l x p x.other = l x.other :=
    Function.update_of_ne x.other_ne _ _
  constructor
  all_goals
    intro y
    obtain rfl | rfl := x.eq_or_eq_other y
  · rwa [hself]
  · rw [hother]
    exact hl.sent _
  · rwa [hself, hother]
  · have hmono : ReceivedInOrder C (key x.other.other) (n x.other.other) p (l x.other) :=
      (hl.received x.other).mono (by rwa [Side.other_other])
    rw [Side.other_other] at hmono ⊢
    rwa [hother, hself]

/-- What an event does to a side, when it delivers no forgery. -/
theorem InOrder.step (haead : AeadCorrect C) (hl : InOrder C key n l)
    (hstep : Guarded (AttackStep C) (Unforged C) l e l') : InOrder C key n l' := by
  obtain ⟨hunforged, hM, rfl⟩ := hstep
  have hsent := hl.sent e.side
  have hreceived := hl.received e.side
  cases e with
  | send x M plaintext room =>
    exact hl.update (hsent.send hM plaintext room)
      (hreceived.send hsent.sendKey hM plaintext room) (Endpoint.prefix_send _ _ _ _ _)
  | deliver x M ciphertext =>
    refine hl.update (hsent.receive hreceived.recvKey hM ciphertext)
      (hreceived.receive haead (hl.sent _) hM fun pt hpt ↦ hunforged _ pt hreceived.recvKey hpt) ?_
    simp only [AttackEvent.exec, Endpoint.sent_receive, List.prefix_rfl]

theorem InOrder.of_run (haead : AeadCorrect C) {events : List AttackEvent}
    (hrun : Run (Guarded (AttackStep C) (Unforged C)) l events l') (hl : InOrder C key n l) :
    InOrder C key n l' :=
  hrun.invariant (fun hl hstep ↦ hl.step haead hstep) hl

/-- The next message sent is received, whatever came before. -/
theorem InOrder.receive_next (haead : AeadCorrect C) (hl : InOrder C key n l) {m : SentMessage}
    (hm : (l x.other).sent[(l x).received.length]? = some m) {M : PrivkeyModule}
    (hM : M.instanceKek = (l x).session.keyModule.instanceKek) :
    ((l x).receive C M m.ciphertext).received = (l x).received ++ [m.plaintext] :=
  (hl.received x).receive_next haead (hl.sent x.other) (hl.sent x).complete hm hM

/-- The two sides of the transport at the end of a handshake. -/
def attackStart (i r : Session) (x : Side) : Endpoint :=
  .start ((NoiseLink.start i r).session x)

theorem inOrder_start {i r : Session} (h : InSync C key (.start i r)) :
    InOrder C key (fun x ↦ ((NoiseLink.start i r).session x).sendNonce) (attackStart i r) where
  sent x := ⟨h.complete x, h.sendKey x, rfl, nofun⟩
  received x := ⟨h.recvKey x, congrArg UInt64.toNat (h.inOrder x), List.nil_prefix⟩

end Run

section Handshake

variable {iInit rInit : NoiseInit} {iPinned rPinned : Option Bytes32}
  {iMemory rMemory i₀ r₀ i r : Session} {env : Side → ℕ → StepEnv}

/-- After a handshake whose messages were delivered as written, the sides are in order. -/
theorem exists_inOrder_of_exchange (hbox : SecretboxCorrect C) (hdh : KeyAgreementCorrect C)
    (haead : AeadCorrect C) (hi : iInit.run C iPinned true iMemory = .ok ⟨⟩ i₀)
    (hr : rInit.run C rPinned false rMemory = .ok ⟨⟩ r₀)
    (hikek : KeepsKek (env .initiator) i₀) (hrkek : KeepsKek (env .responder) r₀)
    (hroom : HasRoom env) (hexchange : exchange C env i₀ r₀ = .ok (i, r)) :
    ∃ key, InOrder C key (fun x ↦ ((NoiseLink.start i r).session x).sendNonce)
      (attackStart i r) := by
  obtain ⟨A, hA, hAck, -⟩ := exists_party_of_init hbox hi
  obtain ⟨B, hB, hBck, -⟩ := exists_party_of_init hbox hr
  obtain ⟨i', r', d, h, hexchange', hi', hr'⟩ :=
    exists_exchange hbox hdh haead hA hAck hB hBck hikek hrkek hroom
  obtain ⟨rfl, rfl⟩ := Prod.mk.inj (Except.ok.inj (hexchange.symm.trans hexchange'))
  exact ⟨_, inOrder_start (inSync_start hi' hr')⟩

/-- **The transport is a channel.** After a handshake whose messages were delivered as written,
whatever the network does to the transport short of forging a ciphertext, what a side has received
is a beginning of what the other side has sent, and the next message sent, once it is delivered, is
received. -/
theorem received_prefix_of_attack (hbox : SecretboxCorrect C) (hdh : KeyAgreementCorrect C)
    (haead : AeadCorrect C) (hi : iInit.run C iPinned true iMemory = .ok ⟨⟩ i₀)
    (hr : rInit.run C rPinned false rMemory = .ok ⟨⟩ r₀)
    (hikek : KeepsKek (env .initiator) i₀) (hrkek : KeepsKek (env .responder) r₀)
    (hroom : HasRoom env) (hexchange : exchange C env i₀ r₀ = .ok (i, r))
    {events : List AttackEvent} {l : Side → Endpoint}
    (hrun : Run (Guarded (AttackStep C) (Unforged C)) (attackStart i r) events l) (x : Side) :
    (l x).received <+: (l x.other).sent.map SentMessage.plaintext ∧
      ∀ m, (l x.other).sent[(l x).received.length]? = some m →
        ∀ M, M.instanceKek = (l x).session.keyModule.instanceKek →
          ((l x).receive C M m.ciphertext).received = (l x).received ++ [m.plaintext] := by
  obtain ⟨key, hstart⟩ :=
    exists_inOrder_of_exchange hbox hdh haead hi hr hikek hrkek hroom hexchange
  have hl := hstart.of_run haead hrun
  exact ⟨(hl.received x).received, fun m hm M hM ↦ hl.receive_next haead hm hM⟩

end Handshake

/-! ### A concrete attack -/

/-- The sessions of a handshake between two samples. -/
@[irreducible] def sampleSessions : Session × Session :=
  match exchange .transparent sampleEnv (.sample 5 true) (.sample 7 false) with
  | .ok sessions => sessions
  | .error _ => (.blank, .blank)

theorem keepsKek_sampleEnv (x : Side) (seed : UInt8) (isInitiator : Bool) :
    KeepsKek (sampleEnv x) (.sample seed isInitiator) := fun _ ↦ rfl

theorem exchange_samples : exchange .transparent sampleEnv (.sample 5 true) (.sample 7 false) =
    .ok (sampleSessions.1, sampleSessions.2) := by
  obtain ⟨A, hA, hAck, -⟩ := exists_party_of_init secretboxCorrect_transparent (sample_eq 5 true)
  obtain ⟨B, hB, hBck, -⟩ := exists_party_of_init secretboxCorrect_transparent (sample_eq 7 false)
  have h := exists_exchange secretboxCorrect_transparent keyAgreementCorrect_transparent
    aeadCorrect_transparent hA hAck hB hBck (keepsKek_sampleEnv .initiator 5 true)
    (keepsKek_sampleEnv .responder 7 false) hasRoom_sampleEnv
  obtain ⟨i, r, -, -, hexchange, -⟩ := h
  have heq : sampleSessions = (i, r) := by
    unfold sampleSessions
    rw [hexchange]
  rw [hexchange, Prod.eta, heq]

/-- A message, with bytes injected before it. -/
def sampleAttack : List AttackEvent :=
  [.send .initiator .zeroKek [1, 2] 18, .deliver .responder .zeroKek [9],
    .deliver .responder .zeroKek ([1, 2] ++ List.replicate 16 196)]

/-- The sides after it. -/
def sampleAttacked : Side → Endpoint :=
  sampleAttack.foldl (AttackEvent.next .transparent) (attackStart sampleSessions.1 sampleSessions.2)

theorem run_sampleAttack : Run (Guarded (AttackStep .transparent) (Unforged .transparent))
    (attackStart sampleSessions.1 sampleSessions.2) sampleAttack sampleAttacked := by
  refine .cons ⟨trivial, by decide +kernel, rfl⟩
    (.cons ⟨fun k pt _ hpt ↦ ?_, by decide +kernel, rfl⟩
      (.cons ⟨fun k pt _ _ ↦ ?_, by decide +kernel, rfl⟩ (.nil _)))
  · -- one byte is less than a tag
    obtain ⟨htag, -⟩ := (Option.ite_none_right_eq_some).1 hpt
    exact absurd (congrArg List.length htag) (by simp)
  · exact ⟨⟨1, [1, 2], [1, 2] ++ List.replicate 16 196⟩, by decide +kernel, by decide +kernel, rfl⟩

theorem received_prefix_of_sampleAttack :
    (sampleAttacked .responder).received = [[1, 2]] ∧
      ((sampleAttacked .responder).received <+:
          (sampleAttacked .initiator).sent.map SentMessage.plaintext ∧
        ∀ m, (sampleAttacked .initiator).sent[(sampleAttacked .responder).received.length]? =
            some m →
          ∀ M, M.instanceKek = (sampleAttacked .responder).session.keyModule.instanceKek →
            ((sampleAttacked .responder).receive .transparent M m.ciphertext).received =
              (sampleAttacked .responder).received ++ [m.plaintext]) :=
  ⟨by decide +kernel, received_prefix_of_attack secretboxCorrect_transparent
    keyAgreementCorrect_transparent aeadCorrect_transparent (sample_eq 5 true) (sample_eq 7 false)
    (keepsKek_sampleEnv .initiator 5 true) (keepsKek_sampleEnv .responder 7 false)
    hasRoom_sampleEnv exchange_samples run_sampleAttack .responder⟩

end Foretias

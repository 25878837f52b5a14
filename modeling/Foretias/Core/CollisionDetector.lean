import Foretias.Core.Crypto
import Foretias.Library.SlidingWindow

/-!
# Identity collisions

A node broadcasts signed heartbeats with a random nonce each, and watches those that arrive. One
that has the node's own peer ID and key and a nonce that the node does not know is taken for proof
that another node uses the same key. Own nonces are kept in a window of configured size, which
forgets the oldest.

* `onHeartbeat_run_iff` — which heartbeats are reported after any run, by the nonces that were
  registered in it.
-/

namespace Foretias

/-! ### Heartbeats -/

/-- The two bytes of a 16-bit word, least significant first. -/
def u16Le (n : UInt16) : Bytes := [n.toUInt8, (n >>> 8).toUInt8]

/-- A signed heartbeat. -/
structure Heartbeat where
  /-- The node that it claims to be of, as text. -/
  peerId : String
  /-- Time of the broadcast. -/
  timestampNs : UInt64
  /-- Random. -/
  nonce : FixedBytes 16
  /-- 1 for Ed25519. -/
  curve : UInt8
  /-- Over `canonical`. -/
  signature : Bytes
  deriving DecidableEq

/-- `canonical`: the bytes that are signed. -/
def Heartbeat.canonical (hb : Heartbeat) : Bytes :=
  let pid := asBytes hb.peerId
  u16Le (UInt16.ofNat pid.length) ++ pid ++ u64Le hb.timestampNs ++ hb.nonce.toList ++ [hb.curve]

/-! ### The detector -/

/-- A collision that was found. -/
inductive CollisionEvent
  | confirmed (foreignHeartbeat : Heartbeat)
  deriving DecidableEq

/-- `CollisionDetector`. -/
structure CollisionDetector where
  /-- The node's peer ID, as text. -/
  myPeerId : String
  /-- The node's key. -/
  myPubKey : FixedBytes 32
  /-- The nonces of own heartbeats that are remembered, oldest first. -/
  myNonces : List (FixedBytes 16)
  /-- How many are to be remembered. -/
  nonceWindow : ℕ
  /-- No more are, but for the last one. -/
  length_le : myNonces.length ≤ max nonceWindow 1

namespace CollisionDetector

/-- `CollisionDetector::new`. -/
def new (myPeerId : String) (myPubKey : FixedBytes 32) (nonceWindow : ℕ) : CollisionDetector where
  myPeerId
  myPubKey
  myNonces := []
  nonceWindow
  length_le := Nat.zero_le _

/-- `register_own_nonce`. -/
def registerOwnNonce (d : CollisionDetector) (nonce : FixedBytes 16) : CollisionDetector :=
  { d with
    myNonces := pushWindow d.nonceWindow d.myNonces nonce
    length_le := length_pushWindow_le d.length_le }

variable (P : Primitives)

/-- `on_heartbeat`. -/
def onHeartbeat (d : CollisionDetector) (hb : Heartbeat) : Option CollisionEvent :=
  if hb.peerId ≠ d.myPeerId then none
  else if d.myNonces.any (· == hb.nonce) = true then none
  else if h : 64 ≤ hb.signature.length then
    let sig : FixedBytes 64 :=
      ⟨hb.signature.take 64, by rw [List.length_take, Nat.min_eq_left h]⟩
    if P.ed25519Verify d.myPubKey hb.canonical sig = true then some (.confirmed hb) else none
  else none

end CollisionDetector

/-- The heartbeat's signature is valid under the key. -/
def Heartbeat.SignedBy (P : Primitives) (hb : Heartbeat) (key : FixedBytes 32) : Prop :=
  ∃ sig : FixedBytes 64, hb.signature.take 64 = sig.toList ∧
    P.ed25519Verify key hb.canonical sig = true

/-- The heartbeat with a signature over what it says. -/
def Heartbeat.sign (P : Primitives) (seed : FixedBytes 32) (hb : Heartbeat) : Heartbeat :=
  { hb with signature := (P.ed25519Sign seed hb.canonical).toList }

theorem Heartbeat.signedBy_sign {P : Primitives} (hed : Ed25519Correct P) (seed : FixedBytes 32)
    (hb : Heartbeat) : (hb.sign P seed).SignedBy P (P.ed25519Public seed) :=
  ⟨P.ed25519Sign seed hb.canonical, List.take_of_length_le (FixedBytes.length_toList _).le,
    hed seed hb.canonical⟩

namespace CollisionDetector

variable {P : Primitives} {d : CollisionDetector} {hb : Heartbeat}

/-- What is reported, and when. -/
theorem onHeartbeat_eq_some {event : CollisionEvent} :
    d.onHeartbeat P hb = some event ↔
      event = .confirmed hb ∧ hb.peerId = d.myPeerId ∧ hb.nonce ∉ d.myNonces ∧
        hb.SignedBy P d.myPubKey := by
  have hknown : d.myNonces.any (· == hb.nonce) = true ↔ hb.nonce ∈ d.myNonces := by simp
  rw [onHeartbeat]
  split
  · rename_i hpeer
    exact iff_of_false (Option.some_ne_none _).symm fun h ↦ hpeer h.2.1
  split
  · rename_i hmem
    exact iff_of_false (Option.some_ne_none _).symm fun h ↦ h.2.2.1 (hknown.1 hmem)
  split
  · rename_i hpeer hmem hlen
    dsimp only
    split
    · rename_i hverify
      rw [Option.some_inj]
      constructor
      · rintro rfl
        exact ⟨rfl, not_not.1 hpeer, mt hknown.2 hmem, _, rfl, hverify⟩
      · rintro ⟨rfl, -⟩
        rfl
    · rename_i hverify
      refine iff_of_false (Option.some_ne_none _).symm ?_
      rintro ⟨-, -, -, sig, hsig, hvalid⟩
      refine hverify ?_
      rw [← hvalid]
      exact congrArg _ (FixedBytes.ext hsig)
  · rename_i hlen
    refine iff_of_false (Option.some_ne_none _).symm ?_
    rintro ⟨-, -, -, sig, hsig, -⟩
    have hlength := congrArg List.length hsig
    rw [List.length_take, sig.length_eq] at hlength
    omega

end CollisionDetector

/-! ### Runs -/

/-- What happens at a detector. -/
inductive DetectorEvent
  /-- A heartbeat with the nonce is about to be broadcast. -/
  | register (nonce : FixedBytes 16)
  /-- A heartbeat arrives. -/
  | arrive (hb : Heartbeat)

/-- The nonces registered in a run, in order. -/
def registeredNonces : List DetectorEvent → List (FixedBytes 16)
  | [] => []
  | .register nonce :: events => nonce :: registeredNonces events
  | .arrive _ :: events => registeredNonces events

theorem registeredNonces_append (events events' : List DetectorEvent) :
    registeredNonces (events ++ events') = registeredNonces events ++ registeredNonces events' := by
  induction events with
  | nil => rfl
  | cons event events ih =>
    cases event with
    | register nonce => exact congrArg (nonce :: ·) ih
    | arrive hb => exact ih

namespace CollisionDetector

/-- The detector after an event. -/
def after (d : CollisionDetector) : DetectorEvent → CollisionDetector
  | .register nonce => d.registerOwnNonce nonce
  | .arrive _ => d

/-- The detector after a run of a new one. -/
def run (myPeerId : String) (myPubKey : FixedBytes 32) (nonceWindow : ℕ)
    (events : List DetectorEvent) : CollisionDetector :=
  events.foldl after (.new myPeerId myPubKey nonceWindow)

@[simp] theorem myNonces_registerOwnNonce (d : CollisionDetector) (nonce : FixedBytes 16) :
    (d.registerOwnNonce nonce).myNonces = pushWindow d.nonceWindow d.myNonces nonce := rfl

section Run

variable {myPeerId : String} {myPubKey : FixedBytes 32} {nonceWindow : ℕ}

theorem run_append_singleton (events : List DetectorEvent) (event : DetectorEvent) :
    run myPeerId myPubKey nonceWindow (events ++ [event]) =
      (run myPeerId myPubKey nonceWindow events).after event := List.foldl_concat ..

/-- A run keeps whose detector it is. -/
theorem run_identity (events : List DetectorEvent) :
    (run myPeerId myPubKey nonceWindow events).myPeerId = myPeerId ∧
    (run myPeerId myPubKey nonceWindow events).myPubKey = myPubKey ∧
    (run myPeerId myPubKey nonceWindow events).nonceWindow = nonceWindow := by
  induction events using List.reverseRecOn with
  | nil => exact ⟨rfl, rfl, rfl⟩
  | append_singleton events event ih =>
    rw [run_append_singleton]
    cases event with
    | register nonce => exact ih
    | arrive hb => exact ih

/-- A run keeps the last of the registered nonces. -/
theorem myNonces_run (events : List DetectorEvent) :
    (run myPeerId myPubKey nonceWindow events).myNonces =
      (registeredNonces events).rtake (max nonceWindow 1) := by
  induction events using List.reverseRecOn with
  | nil => exact (List.rtake_nil _).symm
  | append_singleton events event ih =>
    rw [run_append_singleton, registeredNonces_append]
    cases event with
    | register nonce =>
      rw [after, myNonces_registerOwnNonce, (run_identity events).2.2, ih, pushWindow_rtake]
      rfl
    | arrive hb =>
      rw [registeredNonces, registeredNonces, List.append_nil]
      exact ih

theorem onHeartbeat_run_eq_some {P : Primitives} {events : List DetectorEvent} {hb : Heartbeat}
    {event : CollisionEvent} :
    (run myPeerId myPubKey nonceWindow events).onHeartbeat P hb = some event ↔
      event = .confirmed hb ∧ hb.peerId = myPeerId ∧
        hb.nonce ∉ (registeredNonces events).rtake (max nonceWindow 1) ∧
        hb.SignedBy P myPubKey := by
  obtain ⟨hpeer, hkey, -⟩ := @run_identity myPeerId myPubKey nonceWindow events
  rw [onHeartbeat_eq_some, hpeer, hkey, myNonces_run]

/-- **After any run a heartbeat is reported exactly if it has the node's peer ID, is signed with
the node's key, and its nonce is not among the last that the node registered**: an own heartbeat
is not while less than a window of others came after it, and a foreign one always is. -/
theorem onHeartbeat_run_iff (P : Primitives) (events : List DetectorEvent) (hb : Heartbeat) :
    (∀ event, (run myPeerId myPubKey nonceWindow events).onHeartbeat P hb = some event ↔
      event = .confirmed hb ∧ hb.peerId = myPeerId ∧
        hb.nonce ∉ (registeredNonces events).rtake (max nonceWindow 1) ∧
        hb.SignedBy P myPubKey) ∧
    (∀ pre post, registeredNonces events = pre ++ hb.nonce :: post →
      post.length < max nonceWindow 1 →
      (run myPeerId myPubKey nonceWindow events).onHeartbeat P hb = none) ∧
    (hb.peerId = myPeerId → hb.SignedBy P myPubKey → hb.nonce ∉ registeredNonces events →
      (run myPeerId myPubKey nonceWindow events).onHeartbeat P hb = some (.confirmed hb)) := by
  refine ⟨fun event ↦ onHeartbeat_run_eq_some, fun pre post hevents hlen ↦ ?_,
    fun hpeer hsigned hnonce ↦ ?_⟩
  · by_contra hreported
    obtain ⟨event, hevent⟩ := Option.ne_none_iff_exists'.1 hreported
    obtain ⟨-, -, hout, -⟩ := onHeartbeat_run_eq_some.1 hevent
    refine hout ?_
    rw [hevents]
    exact mem_rtake_append_cons hlen
  · exact onHeartbeat_run_eq_some.2 ⟨rfl, hpeer, fun h ↦ hnonce (mem_of_mem_rtake h), hsigned⟩

end Run

end CollisionDetector

/-! ### A late echo -/

/-- The heartbeat of the owner of the zero key with the nonce. -/
def zeroHeartbeat (nonce : FixedBytes 16) : Heartbeat :=
  .sign .transparent default
    { peerId := "me", timestampNs := 0, nonce, curve := 1, signature := [] }

/-- The nonces of eleven broadcasts. -/
def elevenNonces : List (FixedBytes 16) :=
  [0, 1, 2, 3, 4, 5, 6, 7, 8, 9, 10].map (FixedBytes.replicate 16)

/-- With a window of ten, the first own heartbeat is reported when it comes back after ten others
were broadcast. -/
theorem not_onHeartbeat_registered :
    ¬∀ (myPeerId : String) (myPubKey : FixedBytes 32) (nonceWindow : ℕ)
      (events : List DetectorEvent) (hb : Heartbeat), hb.nonce ∈ registeredNonces events →
      (CollisionDetector.run myPeerId myPubKey nonceWindow events).onHeartbeat .transparent hb =
        none := by
  intro h
  have hreported : (CollisionDetector.run "me" default 10
      (elevenNonces.map DetectorEvent.register)).onHeartbeat .transparent
        (zeroHeartbeat (.replicate 16 0)) =
      some (.confirmed (zeroHeartbeat (.replicate 16 0))) := by
    refine CollisionDetector.onHeartbeat_run_eq_some.2 ⟨rfl, rfl, ?_, ?_⟩
    · decide
    · exact Heartbeat.signedBy_sign ed25519Exact_transparent.correct default _
  rw [h _ _ _ _ _ (by decide)] at hreported
  cases hreported

end Foretias

import Foretias.Chronomatter.Integrity
import Foretias.Core.CollisionDetector
import Foretias.Library.Codec
import Foretias.Server.PeerRegistration

/-!
# Dormancy after a collision

A node broadcasts heartbeats, watches for those of another node with its key, and answers stamp
requests and ticks. Its tasks are the heartbeat loop, the gossip loop, the swarm's command loop,
and the calls of its chronomatter. On a collision the gossip loop sends the command to enter
dormancy, and the swarm asks libp2p to disconnect its peers and to remove its listeners. Nothing
sets the flag that the calls look at, and the heartbeat loop looks at no flag.

Whom the swarm is connected to and whether `gossip.publish` takes a message is up to libp2p: both
are inputs of the turn that asks for them.

* `handle_rests_iff` — when one event neither advances the calendar nor broadcasts a heartbeat.
* `rests_after_dormancy_iff` — the same for all events after the swarm went dormant.
-/

namespace Foretias

open Chronomatter ErrorState

variable {P : Primitives}

/-! ### Calls that advance the calendar -/

namespace Chronomatter

variable {c : Chronomatter P} {op : Op}

/-- A chronomatter that is not in verify-only mode holds its secret: `new` gives it one, and
`from_calendar`, which gives it none, sets the flag. -/
def Signs (c : Chronomatter P) : Prop := c.isDormant = false → c.tbidSecret.isSome

/-- What a call has to find so that the calendar takes a record of it. -/
structure Advances (c : Chronomatter P) (op : Op) : Prop where
  /-- The chronomatter is not in verify-only mode. -/
  awake : c.isDormant = false
  /-- Nothing that the call performs has a fault. -/
  faultless : op.Faultless (c.currentTick + 1)
  /-- The tick counter does not wrap. -/
  ne_zero : c.currentTick + 1 ≠ 0
  /-- Past the first tick a previous pair is held. -/
  previous : c.currentTick + 1 ≠ 1 → (c.keypairs.slot 0).isSome
  /-- The calendar has no record of this tick or a later one. -/
  above : c.tickObserver.Above (c.currentTick + 1)

/-- In verify-only mode a call leaves the chronomatter as it is. -/
theorem exec_of_isDormant (hdormant : c.isDormant = true) (op : Op) :
    finalState (op.exec c) = c := by
  cases op with
  | stamp env content echo =>
    rw [Op.exec, map_eq_pure_bind, bind_apply, Chronomatter.stamp, bind_apply]
    simp only [get_apply, hdormant]
    rfl
  | daemonTick env =>
    rw [Op.exec, bind_apply, Chronomatter.daemonTick, bind_apply]
    simp only [get_apply, hdormant]
    rfl

theorem Signs.exec (h : c.Signs) (op : Op) : (finalState (op.exec c)).Signs := by
  cases hdormant : c.isDormant with
  | true =>
    rw [exec_of_isDormant hdormant]
    exact h
  | false =>
    intro _
    cases hexec : op.exec c with
    | ok r t =>
      obtain ⟨kp, record, -, rfl, -⟩ := exec_eq_ok hdormant hexec
      exact h hdormant
    | error e t =>
      have hkept : t.tbidSecret.isSome = c.tbidSecret.isSome :=
        congrArg (fun k ↦ k.2.1) (exec_eq_error hdormant hexec)
      exact hkept.trans (h hdormant)

/-- A call leaves the calendar as it is exactly if it does not find what it needs. -/
theorem tickObserver_exec_iff (hsigns : c.Signs) :
    (finalState (op.exec c)).tickObserver = c.tickObserver ↔ ¬c.Advances op := by
  cases hdormant : c.isDormant with
  | true =>
    rw [exec_of_isDormant hdormant]
    refine iff_of_true rfl fun h ↦ ?_
    rw [h.awake] at hdormant
    cases hdormant
  | false =>
    cases hexec : op.exec c with
    | ok r t =>
      obtain ⟨kp, record, hproduced, rfl, -, hfaultless⟩ := exec_eq_ok hdormant hexec
      have hticks : (c.completed kp record).tickObserver.ticks = _ :=
        Calendar.ticks_onTickAdvance record
      rw [hproduced.chrononNumber_eq] at hticks
      by_cases habove : c.tickObserver.Above (c.currentTick + 1)
      · rw [if_pos habove] at hticks
        refine iff_of_false (fun h ↦ ?_) (not_not.2 ⟨hdormant, hfaultless (hsigns hdormant),
          hproduced.chrononNumber_eq ▸ hproduced.chrononNumber_ne_zero, fun hne ↦ ?_, habove⟩)
        · have hsame := (congrArg Calendar.ticks h).symm.trans hticks
          exact absurd (List.append_right_eq_self.1 hsame.symm) (List.cons_ne_nil _ _)
        · obtain ⟨-, prev, hprev, -⟩ := hproduced.linked (hproduced.chrononNumber_eq ▸ hne)
          exact Option.isSome_iff_exists.2 ⟨prev, hprev⟩
      · refine iff_of_true ?_ fun h ↦ habove h.above
        rw [← hproduced.chrononNumber_eq] at habove
        show c.tickObserver.onTickAdvance record = c.tickObserver
        rw [Calendar.onTickAdvance, Calendar.append, dif_neg habove]
    | error e t =>
      have hkept : t.tickObserver = c.tickObserver :=
        congrArg (fun k ↦ k.2.2.2.2) (exec_eq_error hdormant hexec)
      refine iff_of_true hkept fun h ↦ ?_
      obtain ⟨r, s, hok⟩ :=
        exists_exec_eq_ok hdormant (hsigns hdormant) h.ne_zero h.previous h.faultless
      rw [hok] at hexec
      cases hexec

end Chronomatter

/-! ### The node -/

/-- A command to the swarm. -/
inductive NodeCommand
  | publishHeartbeat (heartbeat : Heartbeat) (ns : String)
  | enterDormancy
  | other (command : SwarmCommand)

/-- `serde_json`, for heartbeats. -/
structure HeartbeatFormat where
  /-- `serde_json::to_vec`. -/
  heartbeatJson : Heartbeat → Bytes
  /-- `serde_json::from_slice`. -/
  parseHeartbeat : Bytes → Option Heartbeat
  /-- JSON inverts its own encoding. -/
  parseHeartbeat_heartbeatJson : ∀ hb, parseHeartbeat (heartbeatJson hb) = some hb

/-- What libp2p answers in a turn of the swarm loop that takes a command. -/
structure SwarmAnswers where
  /-- `swarm.connected_peers`. -/
  connectedPeers : List String
  /-- The outcome of `gossip.publish`. -/
  publish : Except String Unit

/-- What the swarm loop hands to libp2p. -/
inductive SwarmCall
  | disconnectPeerId (peer : String)
  | removeListener (id : ℕ)
  | publish (topic : String) (bytes : Bytes) (outcome : Except String Unit)

/-- The message of a `gossip.publish` that returned `Ok`. -/
def SwarmCall.broadcast? : SwarmCall → Option (String × Bytes)
  | .publish topic bytes (.ok ()) => some (topic, bytes)
  | _ => none

variable (P) in
/-- A node with its swarm, as far as heartbeats and dormancy go. -/
structure HeartbeatNode where
  /-- Its chronomatter, which its stamp requests and its daemon ticks call. -/
  chronomatter : Chronomatter P
  /-- The chronomatter is of one of its two constructors. -/
  signs : chronomatter.Signs
  /-- The key of its crypto server. -/
  seed : FixedBytes 32
  /-- The text of its peer ID. -/
  peerIdStr : String
  /-- The namespace. -/
  ns : String
  /-- The detector, shared by the heartbeat loop and the gossip loop. -/
  detector : CollisionDetector
  /-- The commands that the swarm has yet to take. -/
  commands : List NodeCommand
  /-- The listeners that the swarm loop has noted. -/
  listenerIds : List ℕ
  /-- What the swarm loop has handed to libp2p. -/
  calls : List SwarmCall
  /-- The swarm has handled the command to enter dormancy. -/
  dormancyEntered : Bool

/-- What happens at a node. -/
inductive NodeEvent
  /-- The interval of the heartbeat loop ends. -/
  | heartbeatTurn (nonce : Except CryptoError (FixedBytes 16)) (now : Option UInt64)
      (fault : Option CryptoError)
  /-- The gossip loop takes a message on the heartbeat topic. -/
  | heartbeatMessage (data : Bytes)
  /-- The swarm takes a command. -/
  | command (answers : SwarmAnswers)
  /-- Another task sends the swarm a command. -/
  | send (command : SwarmCommand)
  /-- A listener is ready. -/
  | listening (id : ℕ)
  /-- A listener is closed or has failed. -/
  | listenerClosed (id : ℕ)
  /-- A stamp is requested or a tick is due. -/
  | call (op : Op)

namespace HeartbeatNode

/-- A node whose swarm has just started. -/
def start (chronomatter : Chronomatter P) (signs : chronomatter.Signs) (seed : FixedBytes 32)
    (peerIdStr ns : String) (nonceWindow : ℕ) : HeartbeatNode P where
  chronomatter
  signs
  seed
  peerIdStr
  ns
  detector := .new peerIdStr (P.ed25519Public seed) nonceWindow
  commands := []
  listenerIds := []
  calls := []
  dormancyEntered := false

/-- The heartbeats that were broadcast, with their topics. -/
def broadcasts (n : HeartbeatNode P) : List (String × Bytes) :=
  n.calls.filterMap SwarmCall.broadcast?

/-- `heartbeat_topic`. -/
def heartbeatTopic (ns : String) : String := s!"/foretias/{ns}/heartbeat/v1"

/-- A turn of `heartbeat_broadcast_loop`. -/
def heartbeatTurn (n : HeartbeatNode P) (nonce : Except CryptoError (FixedBytes 16))
    (now : Option UInt64) (fault : Option CryptoError) : HeartbeatNode P :=
  match nonce with
  | .error _ => n
  | .ok nonce =>
    let hb : Heartbeat :=
      { peerId := n.peerIdStr, timestampNs := now.getD 0, nonce, curve := 1, signature := [] }
    let hb := if fault.isNone then hb.sign P n.seed else hb
    { n with
      detector := n.detector.registerOwnNonce nonce
      commands := n.commands ++ [.publishHeartbeat hb n.ns] }

/-- `handle_heartbeat`. -/
def handleHeartbeat (F : HeartbeatFormat) (n : HeartbeatNode P) (data : Bytes) :
    HeartbeatNode P :=
  match F.parseHeartbeat data with
  | none => n
  | some hb =>
    match n.detector.onHeartbeat P hb with
    | none => n
    | some (.confirmed _) => { n with commands := n.commands ++ [.enterDormancy] }

/-- A turn of `swarm_loop` that takes a command. An error of `gossip.publish` is only logged. -/
def takeCommand (F : HeartbeatFormat) (n : HeartbeatNode P) (answers : SwarmAnswers) :
    HeartbeatNode P :=
  match n.commands with
  | [] => n
  | .enterDormancy :: commands =>
    { n with
      commands
      listenerIds := []
      calls := n.calls ++ answers.connectedPeers.map .disconnectPeerId ++
        n.listenerIds.map .removeListener
      dormancyEntered := true }
  | .publishHeartbeat heartbeat ns :: commands =>
    { n with
      commands
      calls := n.calls ++
        [.publish (heartbeatTopic ns) (F.heartbeatJson heartbeat) answers.publish] }
  | .other _ :: commands => { n with commands }

/-- The node after an event. -/
def handle (F : HeartbeatFormat) (n : HeartbeatNode P) : NodeEvent → HeartbeatNode P
  | .heartbeatTurn nonce now fault => n.heartbeatTurn nonce now fault
  | .heartbeatMessage data => n.handleHeartbeat F data
  | .command answers => n.takeCommand F answers
  | .send command => { n with commands := n.commands ++ [.other command] }
  | .listening id => { n with listenerIds := n.listenerIds.insert id }
  | .listenerClosed id => { n with listenerIds := n.listenerIds.erase id }
  | .call op =>
    { n with chronomatter := finalState (op.exec n.chronomatter), signs := n.signs.exec op }

/-- The step relation of a node. -/
def Step (F : HeartbeatFormat) (n : HeartbeatNode P) (e : NodeEvent) (t : HeartbeatNode P) : Prop :=
  n.handle F e = t

/-! ### Rest -/

/-- The calendar did not advance, and no heartbeat was broadcast. -/
structure Rests (n t : HeartbeatNode P) : Prop where
  tickObserver_eq : t.chronomatter.tickObserver = n.chronomatter.tickObserver
  broadcasts_eq : t.broadcasts = n.broadcasts

theorem Rests.refl (n : HeartbeatNode P) : n.Rests n := ⟨rfl, rfl⟩

theorem Rests.trans {n t u : HeartbeatNode P} (h : n.Rests t) (h' : t.Rests u) : n.Rests u :=
  ⟨h'.tickObserver_eq.trans h.tickObserver_eq, h'.broadcasts_eq.trans h.broadcasts_eq⟩

/-- What an event has to find so that the node rests: a call does not find all that it needs, and
`gossip.publish` does not take the heartbeat that the swarm hands it. -/
def Quiet (n : HeartbeatNode P) : NodeEvent → Prop
  | .call op => ¬n.chronomatter.Advances op
  | .command answers => ∀ heartbeat ns commands,
      n.commands = .publishHeartbeat heartbeat ns :: commands → answers.publish ≠ .ok ()
  | _ => True

theorem call_rests_iff {n : HeartbeatNode P} {op : Op} {F : HeartbeatFormat} :
    n.Rests (n.handle F (.call op)) ↔ ¬n.chronomatter.Advances op := by
  rw [← tickObserver_exec_iff n.signs]
  exact ⟨Rests.tickObserver_eq, fun h ↦ ⟨h, rfl⟩⟩

/-! ### Commands -/

theorem broadcasts_of_calls {n t : HeartbeatNode P} {calls : List SwarmCall}
    (h : t.calls = n.calls ++ calls) :
    t.broadcasts = n.broadcasts ++ calls.filterMap SwarmCall.broadcast? := by
  rw [broadcasts, h, List.filterMap_append, broadcasts]

theorem takeCommand_rests_iff {F : HeartbeatFormat} {n : HeartbeatNode P}
    {answers : SwarmAnswers} :
    n.Rests (n.takeCommand F answers) ↔ n.Quiet (.command answers) := by
  rw [takeCommand, Quiet]
  split
  · rename_i hnil
    refine iff_of_true (.refl n) fun _ _ _ h ↦ ?_
    rw [hnil] at h
    cases h
  · rename_i commands hcommands
    have hsilent : ∀ call ∈ answers.connectedPeers.map SwarmCall.disconnectPeerId ++
        n.listenerIds.map SwarmCall.removeListener, call.broadcast? = none := by
      intro call hcall
      obtain hcall | hcall := List.mem_append.1 hcall
      all_goals
        obtain ⟨_, -, rfl⟩ := List.mem_map.1 hcall
        rfl
    refine iff_of_true ⟨rfl, ?_⟩ fun _ _ _ h ↦ ?_
    · rw [broadcasts_of_calls (List.append_assoc _ _ _), List.filterMap_eq_nil_iff.2 hsilent,
        List.append_nil]
    · rw [hcommands] at h
      cases h
  · rename_i heartbeat ns commands hcommands
    set t : HeartbeatNode P := { n with
      commands
      calls := n.calls ++ [.publish (heartbeatTopic ns) (F.heartbeatJson heartbeat)
        answers.publish] }
    have hafter : t.broadcasts = n.broadcasts ++ _ := broadcasts_of_calls rfl
    constructor
    · intro h _ _ _ _ hok
      rw [h.broadcasts_eq, hok] at hafter
      exact absurd (List.append_right_eq_self.1 hafter.symm) (List.cons_ne_nil _ _)
    · intro h
      refine ⟨rfl, hafter.trans ?_⟩
      cases hpublish : answers.publish with
      | ok u => exact absurd hpublish (h _ _ _ hcommands)
      | error e => exact List.append_nil _
  · rename_i command commands hcommands
    refine iff_of_true ⟨rfl, rfl⟩ fun _ _ _ h ↦ ?_
    rw [hcommands] at h
    cases h

/-! ### Events -/

/-- A heartbeat that arrives can only add a command. -/
theorem handleHeartbeat_rests (F : HeartbeatFormat) (n : HeartbeatNode P) (data : Bytes) :
    n.Rests (n.handleHeartbeat F data) := by
  rw [handleHeartbeat]
  split
  · exact .refl n
  split
  · exact .refl n
  · exact ⟨rfl, rfl⟩

/-- The heartbeat loop only sends. -/
theorem heartbeatTurn_rests (n : HeartbeatNode P) (nonce : Except CryptoError (FixedBytes 16))
    (now : Option UInt64) (fault : Option CryptoError) :
    n.Rests (n.heartbeatTurn nonce now fault) := by
  cases nonce with
  | error e => exact .refl n
  | ok nonce => exact ⟨rfl, rfl⟩

/-- An event leaves the node at rest exactly if it finds what it has to. -/
theorem handle_rests_iff {F : HeartbeatFormat} {n : HeartbeatNode P} {e : NodeEvent} :
    n.Rests (n.handle F e) ↔ n.Quiet e := by
  cases e with
  | heartbeatTurn nonce now fault =>
    exact iff_of_true (heartbeatTurn_rests n nonce now fault) trivial
  | heartbeatMessage data => exact iff_of_true (handleHeartbeat_rests F n data) trivial
  | command answers => exact takeCommand_rests_iff
  | send command => exact iff_of_true ⟨rfl, rfl⟩ trivial
  | listening id => exact iff_of_true ⟨rfl, rfl⟩ trivial
  | listenerClosed id => exact iff_of_true ⟨rfl, rfl⟩ trivial
  | call op => exact call_rests_iff

/-- The swarm stays dormant. -/
theorem dormancyEntered_handle {F : HeartbeatFormat} {n : HeartbeatNode P} (e : NodeEvent)
    (h : n.dormancyEntered = true) : (n.handle F e).dormancyEntered = true := by
  cases e with
  | heartbeatTurn nonce now fault =>
    cases nonce with
    | error e => exact h
    | ok nonce => exact h
  | heartbeatMessage data =>
    rw [handle, handleHeartbeat]
    split
    · exact h
    split
    · exact h
    · exact h
  | command answers =>
    rw [handle, takeCommand]
    split
    · exact h
    · rfl
    · exact h
    · exact h
  | send command => exact h
  | listening id => exact h
  | listenerClosed id => exact h
  | call op => exact h

/-- The event is a heartbeat that the detector confirms for a collision. -/
def Confirms (F : HeartbeatFormat) (n : HeartbeatNode P) (e : NodeEvent) : Prop :=
  ∃ data hb event, e = .heartbeatMessage data ∧ F.parseHeartbeat data = some hb ∧
    n.detector.onHeartbeat P hb = some event

/-- The swarm has entered dormancy or is about to. -/
def Collided (n : HeartbeatNode P) : Prop :=
  n.dormancyEntered = true ∨ NodeCommand.enterDormancy ∈ n.commands

/-- The command to enter dormancy comes of a confirmed collision only. -/
theorem collided_handle {F : HeartbeatFormat} {n : HeartbeatNode P} {e : NodeEvent}
    (h : (n.handle F e).Collided) : n.Collided ∨ n.Confirms F e := by
  cases e with
  | heartbeatTurn nonce now fault =>
    cases nonce with
    | error e => exact .inl h
    | ok nonce =>
      refine .inl (h.imp_right fun hmem ↦ ?_)
      rcases List.mem_append.1 hmem with hmem | hmem
      · exact hmem
      · cases List.mem_singleton.1 hmem
  | heartbeatMessage data =>
    rw [handle, handleHeartbeat] at h
    cases hparse : F.parseHeartbeat data with
    | none =>
      rw [hparse] at h
      exact .inl h
    | some hb =>
      rw [hparse] at h
      dsimp only at h
      split at h
      · exact .inl h
      · rename_i foreign hevent
        exact .inr ⟨data, hb, _, rfl, hparse, hevent⟩
  | command answers =>
    rw [handle, takeCommand] at h
    split at h
    · exact .inl h
    · rename_i commands hcommands
      exact .inl (.inr (hcommands ▸ List.mem_cons_self))
    · rename_i heartbeat ns commands hcommands
      exact .inl (h.imp_right fun hmem ↦ hcommands ▸ List.mem_cons_of_mem _ hmem)
    · rename_i command commands hcommands
      exact .inl (h.imp_right fun hmem ↦ hcommands ▸ List.mem_cons_of_mem _ hmem)
  | send command =>
    refine .inl (h.imp_right fun hmem ↦ ?_)
    rcases List.mem_append.1 hmem with hmem | hmem
    · exact hmem
    · cases List.mem_singleton.1 hmem
  | listening id => exact .inl h
  | listenerClosed id => exact .inl h
  | call op => exact .inl h

/-- The swarm of a node enters dormancy only after a heartbeat was confirmed. -/
theorem exists_confirms_of_run {F : HeartbeatFormat} {n t : HeartbeatNode P}
    {events : List NodeEvent} (hrun : Run (Step F) n events t) (hn : ¬n.Collided)
    (ht : t.Collided) :
    ∃ pre e post u, events = pre ++ e :: post ∧ Run (Step F) n pre u ∧ u.Confirms F e := by
  induction hrun with
  | nil n => exact absurd ht hn
  | @cons n m t e events hstep _ ih =>
    obtain rfl : n.handle F e = m := hstep
    by_cases hm : (n.handle F e).Collided
    · exact ⟨[], e, events, n, rfl, .nil n, (collided_handle hm).resolve_left hn⟩
    · obtain ⟨pre, e', post, u, rfl, hpre, hconfirms⟩ := ih hm ht
      exact ⟨e :: pre, e', post, u, rfl, .cons rfl hpre, hconfirms⟩

/-- **After a collision the node rests exactly as long as no call finds all that it needs and no
heartbeat is taken by `gossip.publish`.** -/
theorem rests_after_dormancy_iff (F : HeartbeatFormat) (n : HeartbeatNode P)
    (events : List NodeEvent) :
    (Run.AllSteps (Step F) (fun n _ t ↦ n.dormancyEntered = true → n.Rests t) n events ↔
      Run.AllSteps (Step F) (fun n e _ ↦ n.dormancyEntered = true → n.Quiet e) n events) ∧
    ∀ t, n.dormancyEntered = true → Run (Step F) n events t →
      Run.AllSteps (Step F) (fun n e _ ↦ n.dormancyEntered = true → n.Quiet e) n events →
      n.Rests t := by
  constructor
  · refine Run.allSteps_congr (I := fun _ ↦ True) ?_ (fun _ _ _ ↦ trivial) trivial
    rintro n e t - rfl
    exact imp_congr_right fun _ ↦ handle_rests_iff
  · intro t hentered hrun hquiet
    induction hrun with
    | nil n => exact .refl n
    | @cons n t u e events hstep _ ih =>
      obtain ⟨hhere, hrest⟩ := hquiet _ hstep
      obtain rfl : n.handle F e = t := hstep
      exact (handle_rests_iff.2 (hhere hentered)).trans
        (ih (dormancyEntered_handle e hentered) hrest)

end HeartbeatNode

/-! ### A stamp and a heartbeat after a collision -/

instance : Encodable Heartbeat :=
  .ofLeftInverse
    (fun hb ↦ (hb.peerId, hb.timestampNs, hb.nonce, hb.curve, hb.signature))
    (fun ⟨peerId, timestampNs, nonce, curve, signature⟩ ↦
      ⟨peerId, timestampNs, nonce, curve, signature⟩)
    fun _ ↦ rfl

/-- Heartbeats written in unary. -/
def HeartbeatFormat.unary : HeartbeatFormat where
  heartbeatJson := Codec.unary.serialize
  parseHeartbeat := Codec.unary.parse
  parseHeartbeat_heartbeatJson := Codec.unary.parse_serialize

/-- An active node of the zero key that was just started. -/
def activeNode : HeartbeatNode .transparent :=
  .start (.new default default "") (fun _ ↦ rfl) default "me" "mainnet" 10

/-- A foreign heartbeat arrives at the active node, which is connected to one peer, and the swarm
takes the command. -/
def collision : List NodeEvent :=
  [.heartbeatMessage (HeartbeatFormat.unary.heartbeatJson (zeroHeartbeat default)),
    .command ⟨["peer"], .ok ()⟩]

theorem run_collision : Run (HeartbeatNode.Step .unary) activeNode collision
    { activeNode with calls := [.disconnectPeerId "peer"], dormancyEntered := true } := by
  have hconfirmed : activeNode.detector.onHeartbeat .transparent (zeroHeartbeat default) =
      some (.confirmed (zeroHeartbeat default)) :=
    CollisionDetector.onHeartbeat_eq_some.2 ⟨rfl, rfl, List.not_mem_nil,
      Heartbeat.signedBy_sign ed25519Exact_transparent.correct default _⟩
  have hsent : activeNode.handleHeartbeat .unary
      (HeartbeatFormat.unary.heartbeatJson (zeroHeartbeat default)) =
        { activeNode with commands := [.enterDormancy] } := by
    rw [HeartbeatNode.handleHeartbeat, HeartbeatFormat.parseHeartbeat_heartbeatJson]
    dsimp only
    rw [hconfirmed]
    rfl
  exact .cons hsent (.cons rfl (.nil _))

/-- The next stamp advances the calendar, and with a new connection the next heartbeat is
broadcast. -/
theorem not_rests_after_dormancy :
    (¬∀ (pre post : List NodeEvent) (n t : HeartbeatNode .transparent),
      Run (HeartbeatNode.Step .unary) activeNode pre n → n.dormancyEntered = true →
      Run (HeartbeatNode.Step .unary) n post t →
      t.chronomatter.tickObserver.ticks = n.chronomatter.tickObserver.ticks) ∧
    ¬∀ (pre post : List NodeEvent) (n t : HeartbeatNode .transparent),
      Run (HeartbeatNode.Step .unary) activeNode pre n → n.dormancyEntered = true →
      Run (HeartbeatNode.Step .unary) n post t → t.broadcasts = n.broadcasts := by
  constructor
  · intro h
    have hclear : (Op.stamp (.clear default) [] "").Faultless (0 + 1) :=
      ⟨CallEnv.buildsTick_clear _ _, CallEnv.stampsContent_clear _⟩
    obtain ⟨r, c, hexec⟩ := exists_exec_eq_ok (c := activeNode.chronomatter) rfl rfl (by decide)
      (fun h ↦ absurd rfl h) hclear
    have hrun := h collision [.call (.stamp (.clear default) [] "")] _ _ run_collision rfl
      (.cons rfl (.nil _))
    have hsame : c.tickObserver.ticks = [] :=
      (congrArg (fun s ↦ (finalState s).tickObserver.ticks) hexec).symm.trans hrun
    obtain ⟨kp, record, hproduced, rfl, -⟩ := exec_eq_ok rfl hexec
    have hstep : InStep activeNode.chronomatter := inStep_new default default ""
    rw [hproduced.ticks_completed hstep] at hsame
    cases hsame
  · intro h
    have hrun := h collision [.heartbeatTurn (.ok default) none none, .command ⟨["peer"], .ok ()⟩]
      _ _ run_collision rfl (.cons rfl (.cons rfl (.nil _)))
    cases hrun

end Foretias

import Foretias.Server.CommandQueue
import Foretias.Server.RelationshipBinding

/-!
# Liveness levels

A relationship is probed on three levels: L1 by a recent RPC or a ping, L2 by an authenticated
ping, L3 by a stamp. Each level is a loop of its own, and what one leaves to the next are atomic
flags. A cycle is cut here where it waits or reads a flag, so that the others, the queue worker and
the binding's transitions come in between; of the last cycles the machine keeps, for the statements
only, what they set.

L2 sends its challenge as a stamp request, and a responder answers with a stamp. No one sets the
flag of a rejected binding.

* `l2Outcome_of_honest` — an honest responder's answer is never accepted.
* `allSteps_livenessLaw_iff` — the runs in which the levels do what they should do, exactly.
-/

namespace Foretias

/-! ### The answer to an authenticated ping -/

/-- The members of a JSON object that the parsers of a stamp and of a pong read. -/
structure StampAnswer extends UnverifiedSignatureEnvelope.ForetisJson where
  /-- Member `responder_tbid`, when it is a string. -/
  responderTbid : Option String
  /-- Member `challenge_echo`, when it is a string. -/
  challengeEcho : Option String

/-- `UnverifiedSignatureEnvelopeAuthenticatedPong::from_json_value`: all members must be there. -/
def AuthenticatedPong.fromJsonValue (v : Option StampAnswer) : Option AuthenticatedPong := do
  let obj ← v
  return {
    responderTbid := ← obj.responderTbid
    challengeEcho := ← obj.challengeEcho
    signature := ← obj.signature
    signatureAlgorithm := ← obj.signatureAlgorithm }

/-- What an L2 cycle sets for an answer; nothing where the verification panics. -/
def l2Outcome (P : Primitives) (targetTbid : Tbid) (challenge : Bytes)
    (answer : Except TransportError (Option StampAnswer)) : Option Bool :=
  match answer with
  | .error _ => some false
  | .ok raw =>
    match AuthenticatedPong.fromJsonValue raw with
    | none => some false
    | some unprocessed =>
      match unprocessed.verify P challenge targetTbid with
      | .ok _ => some true
      | .error (.err _) => some false
      | .error .panic => none

/-- What a server sends for the result of a stamp request. -/
def stampAnswer : Except RpcError StampReply → Except TransportError (Option StampAnswer)
  | .ok reply => .ok (some ⟨reply.toJson, none, none⟩)
  | .error e => .error (.rpc e.code e.message)

/-- The answer to an L2 request of a server that holds the key of the target: that of its handler,
whatever the server receives from outside. -/
def HonestAnswer {P : Primitives} {A : Type} (C : Codec (CalendarData A)) (targetTbid : Tbid)
    (challenge : Bytes) (answer : Except TransportError (Option StampAnswer)) : Prop :=
  ∃ (server : TimeFamilyServer P) (env : StampEnv), server.chronomatter.tbid = targetTbid ∧
    server.chronomatter.tbidSecret.isSome = true ∧
    answer = stampAnswer
      (handleStamp C env ⟨some (hexEncode challenge), some "auth-ping"⟩ server).1

/-- **An honest responder is never confirmed**: the members of a pong are not in its answer. -/
theorem l2Outcome_of_honest {P : Primitives} {A : Type} {C : Codec (CalendarData A)}
    {targetTbid : Tbid} {challenge : Bytes} {answer : Except TransportError (Option StampAnswer)}
    (h : HonestAnswer (P := P) C targetTbid challenge answer) :
    l2Outcome P targetTbid challenge answer = some false := by
  obtain ⟨server, env, -, -, rfl⟩ := h
  rcases (handleStamp C env ⟨some (hexEncode challenge), some "auth-ping"⟩ server).1 with e | reply
  · rfl
  · rfl

/-! ### The machine -/

/-- Where the L1 task stands. -/
inductive L1Phase
  /-- Between two cycles. -/
  | idle
  /-- In `resolve_peer`. -/
  | resolving
  /-- In `do_ping`. -/
  | pinging
  /-- Cancelled. -/
  | ended
  deriving DecidableEq

/-- Where the L2 task stands. -/
inductive L2Phase
  /-- Between two cycles. -/
  | idle
  /-- In `resolve_peer`, after the L1 flag was read. -/
  | resolving
  /-- Waiting for the answer to a challenge. -/
  | asked (challenge : FixedBytes 32)
  /-- Cancelled, or panicked. -/
  | ended
  deriving DecidableEq

/-- Where the L3 task stands. -/
inductive L3Phase
  /-- Between two cycles. -/
  | idle
  /-- The L2 flag was read. -/
  | l2Read
  /-- In `resolve_peer`, after the flag of the binding was read. -/
  | resolving
  /-- In `execute_stamp`, after the stamp was sent. -/
  | stamping
  /-- Cancelled, or panicked. -/
  | ended
  deriving DecidableEq

/-- The tasks of a relationship and what they share. -/
structure LivenessMachine where
  /-- The flags. -/
  flags : LivenessCycleFlags
  /-- The state of the relationship. -/
  relationship : CommunerdetteState
  /-- The L1 task. -/
  l1 : L1Phase
  /-- The L2 task. -/
  l2 : L2Phase
  /-- The L3 task. -/
  l3 : L3Phase
  /-- What the last completed L1 cycle set. -/
  lastL1 : Option Bool
  /-- What the last completed L2 cycle set. -/
  lastL2 : Option Bool
  /-- What the last L1 cycle set that completed since the L2 task read the flag. -/
  sinceL1Read : Option Bool
  /-- What the last L2 cycle set that completed since the L3 task read the flag. -/
  sinceL2Read : Option Bool

/-- What happens next. -/
inductive LivenessEvent
  /-- An L1 cycle starts, at a time. -/
  | l1Tick (nowNs : UInt64)
  /-- `resolve_peer` of the L1 cycle returns. -/
  | l1Resolved (found : Bool)
  /-- Its ping returns. -/
  | l1Ponged (ok : Bool)
  /-- An L2 cycle starts. -/
  | l2Tick
  /-- `resolve_peer` of the L2 cycle returns; with a peer, the challenge drawn is sent. -/
  | l2Resolved (challenge : Option (FixedBytes 32))
  /-- Its request returns, or times out. -/
  | l2Answered (answer : Except TransportError (Option StampAnswer))
  /-- An L3 cycle starts. -/
  | l3Tick
  /-- It reads the flag of the binding. -/
  | l3ReadBinding
  /-- Its `resolve_peer` returns; with a peer, the stamp is sent. -/
  | l3Resolved (found : Bool)
  /-- Its stamp returns, or panics. -/
  | l3Stamped (panicked : Bool)
  /-- The L1 task ends. -/
  | l1Cancelled
  /-- The L2 task ends. -/
  | l2Cancelled
  /-- The L3 task ends. -/
  | l3Cancelled
  /-- The queue worker reports a success. -/
  | rpcSucceeded (nowNs : UInt64)
  /-- `mark_binding_verified`. -/
  | markVerified (peerId jsonRpc : Option String) (verifiedAtNs : UInt64)
  /-- `mark_binding_rejected`. -/
  | markRejected (reason : String) (observedAtNs : UInt64)

namespace LivenessMachine

/-- The machine before the first cycle. -/
def new : LivenessMachine :=
  ⟨.new, .default, .idle, .idle, .idle, none, none, none, none⟩

variable (s : LivenessMachine)

/-- An L1 cycle completes. -/
def completeL1 (ok : Bool) : LivenessMachine :=
  { s with
    flags := { s.flags with l1LastOk := ok }
    l1 := .idle
    lastL1 := some ok
    sinceL1Read := some ok }

/-- An L2 cycle completes. -/
def completeL2 (ok : Bool) : LivenessMachine :=
  { s with
    flags := { s.flags with l2LastOk := ok }
    l2 := .idle
    lastL2 := some ok
    sinceL2Read := some ok }

/-- A recent application RPC succeeded; the operations saturate. -/
def recentRpc (intervalMs nowNs : UInt64) : Bool :=
  0 < s.flags.lastApplicationRpcNs.toNat ∧
    nowNs.toNat - s.flags.lastApplicationRpcNs.toNat < min (intervalMs.toNat * 1000000) (2 ^ 64 - 1)

variable (P : Primitives) (targetTbid : Tbid) (l1IntervalMs : UInt64)

/-- The next step, if the tasks stand so that it can be taken. -/
def next : LivenessEvent → Option LivenessMachine
  | .l1Tick nowNs =>
    if s.l1 ≠ .idle then none
    else if s.recentRpc l1IntervalMs nowNs then some (s.completeL1 true)
    else some { s with l1 := .resolving }
  | .l1Resolved found =>
    if s.l1 ≠ .resolving then none
    else if found then some { s with l1 := .pinging }
    else some (s.completeL1 false)
  | .l1Ponged ok => if s.l1 ≠ .pinging then none else some (s.completeL1 ok)
  | .l2Tick =>
    if s.l2 ≠ .idle then none
    else if s.flags.l1LastOk then some { s with l2 := .resolving, sinceL1Read := none }
    else some (s.completeL2 false)
  | .l2Resolved challenge =>
    if s.l2 ≠ .resolving then none
    else
      match challenge with
      | some challenge => some { s with l2 := .asked challenge }
      | none => some (s.completeL2 false)
  | .l2Answered answer =>
    match s.l2 with
    | .asked challenge =>
      match l2Outcome P targetTbid challenge.toList answer with
      | some ok => some (s.completeL2 ok)
      | none => some { s with l2 := .ended }
    | _ => none
  | .l3Tick =>
    if s.l3 ≠ .idle then none
    else if s.flags.l2LastOk then some { s with l3 := .l2Read, sinceL2Read := none }
    else some s
  | .l3ReadBinding =>
    if s.l3 ≠ .l2Read then none
    else some { s with l3 := if s.flags.bindingRejected then .idle else .resolving }
  | .l3Resolved found =>
    if s.l3 ≠ .resolving then none
    else some { s with l3 := if found then .stamping else .idle }
  | .l3Stamped panicked =>
    if s.l3 ≠ .stamping then none
    else some { s with l3 := if panicked then .ended else .idle }
  | .l1Cancelled => if s.l1 ≠ .idle then none else some { s with l1 := .ended }
  | .l2Cancelled => if s.l2 ≠ .idle then none else some { s with l2 := .ended }
  | .l3Cancelled => if s.l3 ≠ .idle then none else some { s with l3 := .ended }
  | .rpcSucceeded nowNs =>
    some { s with flags := { s.flags with lastApplicationRpcNs := nowNs } }
  | .markVerified peerId jsonRpc verifiedAtNs =>
    some { s with relationship := s.relationship.markBindingVerified peerId jsonRpc verifiedAtNs }
  | .markRejected reason observedAtNs =>
    some { s with relationship := s.relationship.markBindingRejected reason observedAtNs }

/-- A step of the machine. -/
def step (s : LivenessMachine) (e : LivenessEvent) (t : LivenessMachine) : Prop :=
  s.next P targetTbid l1IntervalMs e = some t

end LivenessMachine

/-! ### What the levels should do -/

/-- The binding is `Rejected`. -/
def TbidBindingStatus.isRejected : TbidBindingStatus → Bool
  | rejected .. => true
  | _ => false

section Law

variable {P : Primitives} {A : Type} (C : Codec (CalendarData A)) (targetTbid : Tbid)

/-- What a step should keep to. -/
structure LivenessLaw (s : LivenessMachine) (e : LivenessEvent) (t : LivenessMachine) : Prop where
  /-- An L2 request is sent only if the last completed L1 cycle set its flag to ok. -/
  l2 : ∀ challenge, e = .l2Resolved (some challenge) → s.lastL1 = some true
  /-- An L3 stamp is sent only if the last completed L2 cycle succeeded and the binding is not
  rejected. -/
  l3 : e = .l3Resolved true → s.lastL2 = some true ∧ s.relationship.binding.isRejected = false
  /-- An honest responder that holds the key is confirmed. -/
  honest : ∀ challenge answer, s.l2 = .asked challenge → e = .l2Answered answer →
    HonestAnswer (P := P) C targetTbid challenge.toList answer → t.flags.l2LastOk = true

/-- When it does. -/
structure LivenessCondition (s : LivenessMachine) (e : LivenessEvent) : Prop where
  /-- An L2 request is sent when an L1 cycle has completed, and since the L2 cycle read the flag
  none, or the last one with success. -/
  l2 : ∀ challenge, e = .l2Resolved (some challenge) →
    s.lastL1 ≠ none ∧ s.sinceL1Read ≠ some false
  /-- An L3 stamp is sent when an L2 cycle has completed, and since the L3 cycle read the flag
  none, or the last one with success, and the binding is not rejected. -/
  l3 : e = .l3Resolved true → s.lastL2 ≠ none ∧ s.sinceL2Read ≠ some false ∧
    s.relationship.binding.isRejected = false
  /-- No honest responder that holds the key answers. -/
  honest : ∀ challenge answer, s.l2 = .asked challenge → e = .l2Answered answer →
    ¬HonestAnswer (P := P) C targetTbid challenge.toList answer

end Law

/-! ### What the flags say -/

/-- A task read a flag as ok: nothing has completed since and the last result was not a failure,
or the last result is that of a cycle that has completed since. -/
def ReadAsOk (last since : Option Bool) : Prop :=
  since = none ∧ last ≠ some false ∨ since ≠ none ∧ last = since

/-- So the last result is a success exactly if there is one and no failure has come since. -/
theorem ReadAsOk.eq_some_true_iff {last since : Option Bool} (h : ReadAsOk last since) :
    last = some true ↔ last ≠ none ∧ since ≠ some false := by
  rcases h with ⟨rfl, hlast⟩ | ⟨hsince, rfl⟩
  · rcases last with - | - | -
    · simp
    · exact absurd rfl hlast
    · simp
  · rcases last with - | - | -
    · exact absurd rfl hsince
    · simp
    · simp

namespace LivenessMachine

/-- What a step can make of the machine. -/
inductive Move (s : LivenessMachine) : LivenessMachine → Prop
  /-- An L1 cycle completes. -/
  | completeL1 (ok : Bool) : Move s (s.completeL1 ok)
  /-- An L2 cycle completes. -/
  | completeL2 (ok : Bool) : Move s (s.completeL2 ok)
  /-- The L1 task goes on. -/
  | l1 (l1 : L1Phase) : Move s { s with l1 }
  /-- An L2 cycle reads the L1 flag as ok. -/
  | readL1 (hflag : s.flags.l1LastOk = true) :
    Move s { s with l2 := .resolving, sinceL1Read := none }
  /-- The L2 task goes on. -/
  | l2 {l2 : L2Phase} (hl2 : l2 ≠ .resolving) : Move s { s with l2 }
  /-- An L3 cycle reads the L2 flag as ok. -/
  | readL2 (hflag : s.flags.l2LastOk = true) :
    Move s { s with l3 := .l2Read, sinceL2Read := none }
  /-- The L3 task goes on. -/
  | l3 {l3 : L3Phase}
    (hl3 : l3 = .l2Read ∨ l3 = .resolving → s.l3 = .l2Read ∨ s.l3 = .resolving) :
    Move s { s with l3 }
  /-- An L3 cycle is skipped. -/
  | skip : Move s s
  /-- A success is reported. -/
  | rpc (nowNs : UInt64) : Move s { s with flags := { s.flags with lastApplicationRpcNs := nowNs } }
  /-- The relationship changes. -/
  | binding (relationship : CommunerdetteState) : Move s { s with relationship }

section Step

variable {P : Primitives} {targetTbid : Tbid} {l1IntervalMs : UInt64} {s t : LivenessMachine}
  {e : LivenessEvent}

/-- A step that is taken only where a condition fails. -/
theorem of_guarded {p : Prop} [Decidable p] {next : Option LivenessMachine}
    (h : (if p then none else next) = some t) : ¬p ∧ next = some t := by
  split at h
  · cases h
  · rename_i hp
    exact ⟨hp, h⟩

theorem Move.of_some (h : s.Move t) {u : LivenessMachine} (hu : some t = some u) : s.Move u :=
  Option.some.inj hu ▸ h

/-- A step is one of the moves. -/
theorem move_of_step (hstep : s.step P targetTbid l1IntervalMs e t) : s.Move t := by
  have hnext : s.next P targetTbid l1IntervalMs e = some t := hstep
  cases e with
  | l1Tick nowNs =>
    obtain ⟨-, hnext⟩ := of_guarded hnext
    split at hnext
    · exact (Move.completeL1 true).of_some hnext
    · exact (Move.l1 _).of_some hnext
  | l1Resolved found =>
    obtain ⟨-, hnext⟩ := of_guarded hnext
    split at hnext
    · exact (Move.l1 _).of_some hnext
    · exact (Move.completeL1 false).of_some hnext
  | l1Ponged ok => exact (Move.completeL1 ok).of_some (of_guarded hnext).2
  | l2Tick =>
    obtain ⟨-, hnext⟩ := of_guarded hnext
    split at hnext
    · rename_i hflag
      exact (Move.readL1 hflag).of_some hnext
    · exact (Move.completeL2 false).of_some hnext
  | l2Resolved challenge =>
    obtain ⟨-, hnext⟩ := of_guarded hnext
    rcases challenge with - | challenge
    · exact (Move.completeL2 false).of_some hnext
    · exact (Move.l2 L2Phase.noConfusion).of_some hnext
  | l2Answered answer =>
    simp only [next] at hnext
    split at hnext
    · split at hnext
      · exact (Move.completeL2 _).of_some hnext
      · exact (Move.l2 L2Phase.noConfusion).of_some hnext
    · cases hnext
  | l3Tick =>
    obtain ⟨-, hnext⟩ := of_guarded hnext
    split at hnext
    · rename_i hflag
      exact (Move.readL2 hflag).of_some hnext
    · exact Move.skip.of_some hnext
  | l3ReadBinding =>
    obtain ⟨hl3, hnext⟩ := of_guarded hnext
    exact (Move.l3 fun _ ↦ .inl (not_not.1 hl3)).of_some hnext
  | l3Resolved found =>
    obtain ⟨hl3, hnext⟩ := of_guarded hnext
    exact (Move.l3 fun _ ↦ .inr (not_not.1 hl3)).of_some hnext
  | l3Stamped panicked =>
    obtain ⟨-, hnext⟩ := of_guarded hnext
    refine (Move.l3 fun hl3 ↦ ?_).of_some hnext
    rcases panicked
    · exact absurd hl3 (by decide)
    · exact absurd hl3 (by decide)
  | l1Cancelled => exact (Move.l1 _).of_some (of_guarded hnext).2
  | l2Cancelled => exact (Move.l2 L2Phase.noConfusion).of_some (of_guarded hnext).2
  | l3Cancelled =>
    exact (Move.l3 fun hl3 ↦ absurd hl3 (by decide)).of_some (of_guarded hnext).2
  | rpcSucceeded nowNs => exact (Move.rpc nowNs).of_some hnext
  | markVerified peerId jsonRpc verifiedAtNs => exact (Move.binding _).of_some hnext
  | markRejected reason observedAtNs => exact (Move.binding _).of_some hnext

/-- A turn of the queue worker on the shared flags is a success that is reported, or none. -/
theorem exists_step_of_turn {T : Type} {net : Network T} {q q' : QueueMachine T} {nowNs : UInt64}
    (hturn : q.turn P net targetTbid nowNs = some q') (hflags : s.flags = q.flags) :
    s.flags = q'.flags ∨ ∃ t, s.step P targetTbid l1IntervalMs (.rpcSucceeded nowNs) t ∧
      t.flags = q'.flags := by
  rcases QueueMachine.flags_turn hturn with h | h
  · exact .inl (hflags.trans h.symm)
  · refine .inr ⟨_, rfl, ?_⟩
    rw [h, ← hflags]

/-- No step sets the flag of a rejected binding. -/
theorem bindingRejected_step (hstep : s.step P targetTbid l1IntervalMs e t) :
    t.flags.bindingRejected = s.flags.bindingRejected := by
  cases move_of_step hstep <;> rfl

/-- The flag is never set. -/
theorem bindingRejected_run {es : List LivenessEvent}
    (hrun : Run (LivenessMachine.step P targetTbid l1IntervalMs) new es s) :
    s.flags.bindingRejected = false :=
  hrun.invariant (I := fun s ↦ s.flags.bindingRejected = false)
    (fun h hstep ↦ (bindingRejected_step hstep).trans h) rfl

end Step

/-- The flags are what the last completed cycles set, and true before the first ones. -/
structure Tracked (s : LivenessMachine) : Prop where
  /-- The L1 flag. -/
  l1 : s.flags.l1LastOk = s.lastL1.getD true
  /-- The L2 flag. -/
  l2 : s.flags.l2LastOk = s.lastL2.getD true
  /-- The L2 cycle read the L1 flag. -/
  l1Read : s.l2 = .resolving → ReadAsOk s.lastL1 s.sinceL1Read
  /-- The L3 cycle read the L2 flag. -/
  l2Read : s.l3 = .l2Read ∨ s.l3 = .resolving → ReadAsOk s.lastL2 s.sinceL2Read

theorem tracked_new : new.Tracked :=
  ⟨rfl, rfl, fun h ↦ absurd h (by decide), fun h ↦ absurd h (by decide)⟩

variable {s t : LivenessMachine}

/-- A flag that is set was not set by a failure. -/
theorem ne_some_false_of_getD {last : Option Bool} {flag : Bool} (hflag : flag = last.getD true)
    (htrue : flag = true) : last ≠ some false := by
  rintro rfl
  exact Bool.false_ne_true (hflag.symm.trans htrue)

/-- Each move keeps the flags tracked. -/
theorem Tracked.move (h : s.Tracked) (hmove : s.Move t) : t.Tracked := by
  cases hmove with
  | completeL1 ok =>
    exact ⟨rfl, h.l2, fun _ ↦ .inr ⟨Option.some_ne_none ok, rfl⟩, h.l2Read⟩
  | completeL2 ok =>
    refine ⟨h.l1, rfl, fun hl2 ↦ ?_, fun _ ↦ .inr ⟨Option.some_ne_none ok, rfl⟩⟩
    exact absurd hl2 L2Phase.noConfusion
  | l1 l1 => exact ⟨h.l1, h.l2, h.l1Read, h.l2Read⟩
  | readL1 hflag =>
    exact ⟨h.l1, h.l2, fun _ ↦ .inl ⟨rfl, ne_some_false_of_getD h.l1 hflag⟩, h.l2Read⟩
  | l2 hl2 => exact ⟨h.l1, h.l2, fun heq ↦ absurd heq hl2, h.l2Read⟩
  | readL2 hflag =>
    exact ⟨h.l1, h.l2, h.l1Read, fun _ ↦ .inl ⟨rfl, ne_some_false_of_getD h.l2 hflag⟩⟩
  | l3 hl3 => exact ⟨h.l1, h.l2, h.l1Read, fun heq ↦ h.l2Read (hl3 heq)⟩
  | skip => exact h
  | rpc nowNs => exact ⟨h.l1, h.l2, h.l1Read, h.l2Read⟩
  | binding relationship => exact ⟨h.l1, h.l2, h.l1Read, h.l2Read⟩

end LivenessMachine

/-! ### The law -/

section Main

open LivenessMachine

variable {P : Primitives} {A : Type} {C : Codec (CalendarData A)} {targetTbid : Tbid}
  {l1IntervalMs : UInt64} {s t : LivenessMachine} {e : LivenessEvent}

/-- An honest answer completes the L2 cycle with a failure. -/
theorem step_of_honest {challenge : FixedBytes 32}
    {answer : Except TransportError (Option StampAnswer)} (hl2 : s.l2 = .asked challenge)
    (hhonest : HonestAnswer (P := P) C targetTbid challenge.toList answer) :
    s.step P targetTbid l1IntervalMs (.l2Answered answer) (s.completeL2 false) := by
  show s.next P targetTbid l1IntervalMs (.l2Answered answer) = _
  simp only [next, hl2, l2Outcome_of_honest hhonest]

/-- So the flag is false after it. -/
theorem l2LastOk_of_honest {challenge : FixedBytes 32}
    {answer : Except TransportError (Option StampAnswer)} (hl2 : s.l2 = .asked challenge)
    (hhonest : HonestAnswer (P := P) C targetTbid challenge.toList answer)
    (hstep : s.step P targetTbid l1IntervalMs (.l2Answered answer) t) :
    t.flags.l2LastOk = false := by
  have heq : s.next P targetTbid l1IntervalMs (.l2Answered answer) = some (s.completeL2 false) :=
    step_of_honest hl2 hhonest
  rw [← Option.some.inj (heq.symm.trans hstep)]
  rfl

/-- Where the flags are tracked, a step keeps to the law exactly under the condition. -/
theorem livenessLaw_step_iff (h : s.Tracked) (hstep : s.step P targetTbid l1IntervalMs e t) :
    LivenessLaw (P := P) C targetTbid s e t ↔ LivenessCondition (P := P) C targetTbid s e := by
  have hl2 (challenge) (he : e = .l2Resolved (some challenge)) :
      s.lastL1 = some true ↔ s.lastL1 ≠ none ∧ s.sinceL1Read ≠ some false := by
    subst he
    exact (h.l1Read (not_not.1 (of_guarded hstep).1)).eq_some_true_iff
  have hl3 (he : e = .l3Resolved true) :
      s.lastL2 = some true ↔ s.lastL2 ≠ none ∧ s.sinceL2Read ≠ some false := by
    subst he
    exact (h.l2Read (.inr (not_not.1 (of_guarded hstep).1))).eq_some_true_iff
  constructor
  · intro hlaw
    refine ⟨fun challenge he ↦ (hl2 challenge he).1 (hlaw.l2 challenge he), fun he ↦ ?_,
      fun challenge answer hasked he hhonest ↦ ?_⟩
    · obtain ⟨hok, hbinding⟩ := hlaw.l3 he
      obtain ⟨hsome, hsince⟩ := (hl3 he).1 hok
      exact ⟨hsome, hsince, hbinding⟩
    · have htrue := hlaw.honest challenge answer hasked he hhonest
      subst he
      rw [l2LastOk_of_honest hasked hhonest hstep] at htrue
      exact Bool.false_ne_true htrue
  · intro hcondition
    refine ⟨fun challenge he ↦ (hl2 challenge he).2 (hcondition.l2 challenge he), fun he ↦ ?_,
      fun challenge answer hasked he hhonest ↦ ?_⟩
    · obtain ⟨hsome, hsince, hbinding⟩ := hcondition.l3 he
      exact ⟨(hl3 he).2 ⟨hsome, hsince⟩, hbinding⟩
    · exact absurd hhonest (hcondition.honest challenge answer hasked he)

/-- **Liveness levels.** In a run of the cycles, in any order and with successes and transitions of
the binding in between, all steps keep to the law exactly if all meet the condition. -/
theorem allSteps_livenessLaw_iff (P : Primitives) {A : Type} (C : Codec (CalendarData A))
    (targetTbid : Tbid) (l1IntervalMs : UInt64) (es : List LivenessEvent) :
    Run.AllSteps (LivenessMachine.step P targetTbid l1IntervalMs)
        (LivenessLaw (P := P) C targetTbid) .new es ↔
      Run.AllSteps (LivenessMachine.step P targetTbid l1IntervalMs)
        (fun s e _ ↦ LivenessCondition (P := P) C targetTbid s e) .new es :=
  Run.allSteps_congr (I := Tracked) (fun h hstep ↦ livenessLaw_step_iff h hstep)
    (fun h hstep _ ↦ h.move (move_of_step hstep)) tracked_new

/-- An honest server's answer to an L2 request. -/
def honestAnswer (challenge : FixedBytes 32) : Except TransportError (Option StampAnswer) :=
  stampAnswer (handleStamp (.unary : Codec (CalendarData Unit)) ⟨"", .clear default, none⟩
    ⟨some (hexEncode challenge.toList), some "auth-ping"⟩
    (.new default : TimeFamilyServer .transparent)).1

/-- An L1 cycle that pings, and an L2 cycle that an honest server answers. -/
theorem not_allSteps_honestAnswer :
    ¬Run.AllSteps
      (LivenessMachine.step .transparent ((default : TbidSecret).tbid .transparent) 5000)
      (LivenessLaw (P := .transparent) (.unary : Codec (CalendarData Unit))
        ((default : TbidSecret).tbid .transparent)) .new
      [.l1Tick 0, .l1Resolved true, .l1Ponged true, .l2Tick, .l2Resolved (some default),
        .l2Answered (honestAnswer default)] := by
  intro h
  have hhonest : HonestAnswer (P := .transparent) (.unary : Codec (CalendarData Unit))
      ((default : TbidSecret).tbid .transparent) (default : FixedBytes 32).toList
      (honestAnswer default) := ⟨_, _, rfl, rfl, rfl⟩
  have hasked := ((((h _ rfl).2 _ rfl).2 _ rfl).2 _ rfl).2 _ rfl
  obtain ⟨hlaw, -⟩ := hasked.2 _ (step_of_honest rfl hhonest)
  exact Bool.false_ne_true (hlaw.honest default _ rfl rfl hhonest)

end Main

end Foretias

import Foretias.Library.MaxHeap
import Foretias.Library.Run
import Foretias.Server.SingleRecords

/-!
# The command queue

A worker takes commands from a channel into a heap and executes the best one. Taking is the only
branch of its `select!`, and executing stands under `else`, which runs only where no branch can:
once the channel is closed and empty. On `Shutdown` the worker drains the channel into the heap
and leaves its loop, and what is on the heap is dropped.

The machine is the senders, the channel and the worker together. Each command is numbered, for the
statements only, by how many the worker received before it (`Arrived.arrival`).

* `drainLaw_close` — a channel that is closed is drained: each command is executed and answered
  once, the best one first.
* `queueLaw_iff` — while the channel is open, and where it ends with `Shutdown`, no command is ever
  executed.
-/

namespace Foretias

open ErrorState

/-! ### Commands -/

/-- Request priority, lowest first. -/
inductive CommunerdettePriority
  | bulk
  | normal
  | high
  | critical
  deriving DecidableEq

/-- The derived order is that of the declaration. -/
def CommunerdettePriority.rank : CommunerdettePriority → ℕ
  | bulk => 0
  | normal => 1
  | high => 2
  | critical => 3

theorem CommunerdettePriority.rank_injective {a b : CommunerdettePriority}
    (h : a.rank = b.rank) : a = b := by
  cases a <;> cases b <;> first | rfl | cases h

/-- A command other than `Shutdown`, without the sender that its result goes to and the timeout,
which is the network's. -/
inductive QueueRequest
  | calendarSlice (tickStart count : UInt64)
  | stamp (content : Bytes) (echo : String)
  deriving DecidableEq

/-- `CommunerdetteCommand`. -/
inductive CommunerdetteCommand
  | request (r : QueueRequest)
  | shutdown
  deriving DecidableEq

/-- `QueuedCommand`. -/
structure QueuedCommand where
  /-- The priority. -/
  priority : CommunerdettePriority
  /-- The sequence number. -/
  sequence : UInt64
  /-- The command. -/
  command : CommunerdetteCommand
  deriving DecidableEq

/-- `Ord` of `QueuedCommand`: higher priority, and then lower sequence, is higher. -/
def QueuedCommand.cmp (self other : QueuedCommand) : Ordering :=
  (compare self.priority.rank other.priority.rank).then
    (compare other.sequence.toNat self.sequence.toNat)

/-- A queued command, with how many the worker received before it. -/
structure Arrived extends QueuedCommand where
  /-- How many were received before. -/
  arrival : ℕ
  deriving DecidableEq

/-- The heap may hand out `a` before `b`. -/
def Arrived.MayPrecede (a b : Arrived) : Prop :=
  a.toQueuedCommand.cmp b.toQueuedCommand ≠ .lt

section Order

variable {a b c : Arrived}

theorem Arrived.mayPrecede_iff : a.MayPrecede b ↔ b.priority.rank < a.priority.rank ∨
    b.priority.rank = a.priority.rank ∧ a.sequence.toNat ≤ b.sequence.toNat := by
  rw [MayPrecede, QueuedCommand.cmp, ne_eq, Ordering.then_eq_lt, Nat.compare_eq_lt,
    Nat.compare_eq_eq, Nat.compare_eq_lt]
  omega

instance : DecidableRel Arrived.MayPrecede := fun a b ↦
  inferInstanceAs (Decidable (a.toQueuedCommand.cmp b.toQueuedCommand ≠ .lt))

instance : Std.Total Arrived.MayPrecede := ⟨fun a b ↦ by
  rw [Arrived.mayPrecede_iff, Arrived.mayPrecede_iff]
  omega⟩

instance : IsTrans Arrived Arrived.MayPrecede := ⟨fun a b c hab hbc ↦ by
  rw [Arrived.mayPrecede_iff] at hab hbc ⊢
  omega⟩

end Order

/-! ### Executing -/

/-- Shared atomic flags of the tasks of a relationship. -/
structure LivenessCycleFlags where
  /-- The last L1 cycle was ok. -/
  l1LastOk : Bool
  /-- The last L2 cycle was ok. -/
  l2LastOk : Bool
  /-- The binding is `Rejected`. -/
  bindingRejected : Bool
  /-- When the last application RPC succeeded. -/
  lastApplicationRpcNs : UInt64
  deriving DecidableEq

/-- `LivenessCycleFlags::new`. -/
def LivenessCycleFlags.new : LivenessCycleFlags := ⟨true, true, false, 0⟩

/-- What is sent back for a command. -/
inductive QueueAnswer
  | calendarSlice (result : Except LineError (List CleanChronon))
  | stamp (result : Except LineError (CleanAuthenticated ForetisRecord))

/-- `result.is_ok()`. -/
def QueueAnswer.isOk : QueueAnswer → Bool
  | calendarSlice result => result.isOk
  | stamp result => result.isOk

section Execute

variable (P : Primitives) {T : Type} (net : Network T) (tbid : Tbid)

/-- `execute_calendar_slice`. -/
def Network.executeCalendarSlice (tickStart count : UInt64) : LineCall T (List CleanChronon) := do
  net.resolvePeer tbid
  let raw ← net.doCalendarSlice tickStart count
  ofResult ((gateChrononRecords P tbid raw).mapErr .gate)

/-- The result of a call, or nothing where it panicked. -/
def answerOf {A : Type} (wrap : Except LineError A → QueueAnswer) :
    EStateM.Result (Stop LineError) (LineState T) A → Option QueueAnswer × LineState T
  | .ok a line => (some (wrap (.ok a)), line)
  | .error (.err e) line => (some (wrap (.error e)), line)
  | .error .panic line => (none, line)

/-- Execute a command. -/
def QueueRequest.execute (line : LineState T) : QueueRequest → Option QueueAnswer × LineState T
  | calendarSlice tickStart count =>
    answerOf .calendarSlice (net.executeCalendarSlice P tbid tickStart count line)
  | stamp content echo => answerOf .stamp (net.executeStamp P tbid content echo line)

end Execute

/-! ### The machine -/

/-- Where the worker's task stands. -/
inductive QueuePhase
  /-- In its loop. -/
  | running
  /-- Ended. -/
  | finished
  /-- Ended by a panic. -/
  | panicked
  deriving DecidableEq

/-- How the senders end. -/
inductive QueueEnd
  /-- They send `Shutdown`. -/
  | shutdown (priority : CommunerdettePriority)
  /-- They close the channel. -/
  | close
  deriving DecidableEq

/-- The senders, the channel and the worker. -/
structure QueueMachine (T : Type) where
  /-- What the senders have still to send. -/
  todo : List (CommunerdettePriority × QueueRequest)
  /-- How they end then; `none` when they have, or keep the channel open. -/
  ending : Option QueueEnd
  /-- The channel. -/
  rx : List (CommunerdettePriority × CommunerdetteCommand)
  /-- It is closed. -/
  closed : Bool
  /-- The worker's heap. -/
  heap : MaxHeap Arrived.MayPrecede
  /-- The next sequence number. -/
  sequence : UInt64
  /-- The line that commands are executed on. -/
  line : LineState T
  /-- The flags. -/
  flags : LivenessCycleFlags
  /-- Where the worker's task stands. -/
  phase : QueuePhase
  /-- The commands executed, with what was sent back for them. -/
  log : List (Arrived × QueueAnswer)

/-- A step of the senders, or a turn of the worker's loop at a time. -/
inductive QueueEvent
  | sender
  | turn (nowNs : UInt64)
  deriving DecidableEq

namespace QueueMachine

variable {T : Type}

/-- The machine before the first step. -/
def start (sequence : UInt64) (todo : List (CommunerdettePriority × QueueRequest))
    (ending : Option QueueEnd) (line : LineState T) (flags : LivenessCycleFlags) :
    QueueMachine T :=
  ⟨todo, ending, [], false, .empty, sequence, line, flags, .running, []⟩

/-- How many commands the worker has received: those executed and those on the heap. -/
def received (s : QueueMachine T) : ℕ := s.log.length + s.heap.toList.length

/-- Send on the channel, which has no receiver once the worker has ended. -/
def send (s : QueueMachine T) (priority : CommunerdettePriority)
    (command : CommunerdetteCommand) : QueueMachine T :=
  if s.phase = .running then { s with rx := s.rx ++ [(priority, command)] } else s

/-- The senders' next step. -/
def senderStep (s : QueueMachine T) : Option (QueueMachine T) :=
  match s.todo, s.ending with
  | (priority, r) :: todo, _ => some { s.send priority (.request r) with todo }
  | [], some (.shutdown priority) => some { s.send priority .shutdown with ending := none }
  | [], some .close => some { s with closed := true, ending := none }
  | [], none => none

/-- Push a command on the heap, under the next sequence number. -/
def push (s : QueueMachine T) (command : CommunerdettePriority × CommunerdetteCommand) :
    QueueMachine T :=
  { s with
    heap := s.heap.push ⟨⟨command.1, s.sequence, command.2⟩, s.received⟩
    sequence := s.sequence + 1 }

variable (P : Primitives) (net : Network T) (tbid : Tbid)

/-- Execute a command that was popped, and send the result back. -/
def execute (s : QueueMachine T) (nowNs : UInt64) (q : Arrived) : QueueMachine T :=
  match q.command with
  | .shutdown => { s with phase := .finished }
  | .request r =>
    match r.execute P net tbid s.line with
    | (some answer, line) =>
      { s with
        line
        flags := if answer.isOk then { s.flags with lastApplicationRpcNs := nowNs } else s.flags
        log := s.log ++ [(q, answer)] }
    | (none, line) => { s with line, phase := .panicked }

/-- A turn of the worker's loop. It waits while the channel is open and empty, and sleeps where
the channel is closed and the heap empty. -/
def turn (s : QueueMachine T) (nowNs : UInt64) : Option (QueueMachine T) :=
  match s.phase, s.rx with
  | .running, command :: rx =>
    if command.2 = .shutdown then
      some { rx.foldl push (s.push command) with rx := [], phase := .finished }
    else some { s.push command with rx }
  | .running, [] =>
    if s.closed then
      match s.heap.pop with
      | some (q, heap) => some (execute P net tbid { s with heap } nowNs q)
      | none => some s
    else none
  | _, _ => none

/-- A step of the machine. -/
def step (s : QueueMachine T) : QueueEvent → QueueMachine T → Prop
  | .sender, t => s.senderStep = some t
  | .turn nowNs, t => s.turn P net tbid nowNs = some t

end QueueMachine

/-! ### What the worker should do -/

section Law

variable (P : Primitives) {T : Type} (net : Network T) (tbid : Tbid)
  (sequence : UInt64) (cmds : List (CommunerdettePriority × QueueRequest)) (line : LineState T)
  (flags : LivenessCycleFlags)

/-- A step that executes a command chooses, among those received, one of the highest priority and
of these the one that arrived first. -/
def ChoosesBest (s t : QueueMachine T) : Prop :=
  ∀ q answer, t.log = s.log ++ [(q, answer)] → ∀ q' ∈ t.heap.toList,
    q'.priority.rank < q.priority.rank ∨ q'.priority = q.priority ∧ q.arrival < q'.arrival

/-- Each of the commands was executed and answered once. -/
structure Drained (s : QueueMachine T) : Prop where
  /-- Each one was executed once. -/
  once : (s.log.map fun entry ↦ entry.1.arrival).Perm (List.range cmds.length)
  /-- What was executed is the command that arrived in that place. -/
  command : ∀ entry ∈ s.log, (cmds[entry.1.arrival]?).map (fun cmd ↦ (cmd.1, .request cmd.2)) =
    some (entry.1.priority, entry.1.command)

/-- Whatever the order of steps, the best command is chosen, and once the senders have ended the
worker gets to all commands. -/
structure DrainLaw (ending : QueueEnd) : Prop where
  /-- The best command is chosen. -/
  best : ∀ es s e t, Run (QueueMachine.step P net tbid)
    (.start sequence cmds (some ending) line flags) es s → s.step P net tbid e t → ChoosesBest s t
  /-- All commands are executed. -/
  drained : ∀ es s, Run (QueueMachine.step P net tbid)
    (.start sequence cmds (some ending) line flags) es s → s.todo = [] → s.ending = none →
    ∀ clock : ℕ → UInt64, ∃ n t, Run (QueueMachine.step P net tbid) s
      ((List.range n).map fun i ↦ .turn (clock i)) t ∧ Drained cmds t

/-- When all commands were sent and the channel stays open, some command is executed. -/
def OpenLaw : Prop :=
  ∀ es s, Run (QueueMachine.step P net tbid) (.start sequence cmds none line flags) es s →
    s.todo = [] → cmds ≠ [] →
    ∃ turns t, (∀ e ∈ turns, ∃ nowNs, e = .turn nowNs) ∧
      Run (QueueMachine.step P net tbid) s turns t ∧ t.log ≠ []

/-- What the worker should do with commands that are sent before an end. -/
structure QueueLaw (ending : QueueEnd) : Prop where
  /-- It executes all of them, the best ones first, -/
  drain : DrainLaw P net tbid sequence cmds line flags ending
  /-- and also while the channel stays open. -/
  stayingOpen : OpenLaw P net tbid sequence cmds line flags

end Law

namespace QueueMachine

/-! ### Steps -/

section Steps

variable {P : Primitives} {T : Type} {net : Network T} {tbid : Tbid} {s t : QueueMachine T}
  {nowNs : UInt64} {e : QueueEvent}

theorem send_of_running (h : s.phase = .running) (priority : CommunerdettePriority)
    (command : CommunerdetteCommand) :
    s.send priority command = { s with rx := s.rx ++ [(priority, command)] } :=
  if_pos h

/-- Sending changes nothing but the channel. -/
theorem send_eq (priority : CommunerdettePriority) (command : CommunerdetteCommand) :
    ∃ rx, s.send priority command = { s with rx } := by
  rw [send]
  split
  · exact ⟨_, rfl⟩
  · exact ⟨s.rx, rfl⟩

/-- Draining the channel changes nothing but the heap and the sequence. -/
theorem foldl_push_eq (commands : List (CommunerdettePriority × CommunerdetteCommand)) :
    ∃ heap sequence, commands.foldl push s = { s with heap, sequence } := by
  induction commands generalizing s with
  | nil => exact ⟨s.heap, s.sequence, rfl⟩
  | cons command commands ih =>
    obtain ⟨heap, sequence, h⟩ := @ih (s.push command)
    exact ⟨heap, sequence, h⟩

/-- What the senders do next: send a command, or end. -/
theorem senderStep_cases (h : s.senderStep = some t) :
    (∃ cmd todo, s.todo = cmd :: todo ∧ t = { s.send cmd.1 (.request cmd.2) with todo }) ∨
    (∃ priority, s.ending = some (.shutdown priority) ∧
      t = { s.send priority .shutdown with ending := none }) ∨
    (s.todo = [] ∧ s.ending = some .close ∧ t = { s with closed := true, ending := none }) := by
  unfold senderStep at h
  split at h
  · rename_i priority r todo htodo
    exact .inl ⟨(priority, r), todo, htodo, (Option.some.inj h).symm⟩
  · rename_i priority htodo hending
    exact .inr (.inl ⟨priority, hending, (Option.some.inj h).symm⟩)
  · rename_i htodo hending
    exact .inr (.inr ⟨htodo, hending, (Option.some.inj h).symm⟩)
  · cases h

/-- What a turn of the worker does: take a command, drain and end, execute a command, or sleep. -/
theorem turn_cases (h : s.turn P net tbid nowNs = some t) :
    (∃ command rx, s.rx = command :: rx ∧
      (command.2 = .shutdown ∧
          t = { rx.foldl push (s.push command) with rx := [], phase := .finished } ∨
        command.2 ≠ .shutdown ∧ t = { s.push command with rx })) ∨
    (s.rx = [] ∧ s.closed = true ∧
      ((∃ q heap, s.heap.pop = some (q, heap) ∧
          t = execute P net tbid { s with heap } nowNs q) ∨
        s.heap.pop = none ∧ t = s)) := by
  unfold turn at h
  split at h
  · rename_i command rx _ hrx
    refine .inl ⟨command, rx, hrx, ?_⟩
    split at h
    · rename_i hshutdown
      exact .inl ⟨hshutdown, (Option.some.inj h).symm⟩
    · rename_i hshutdown
      exact .inr ⟨hshutdown, (Option.some.inj h).symm⟩
  · rename_i hrx
    split at h
    · rename_i hclosed
      refine .inr ⟨hrx, hclosed, ?_⟩
      split at h
      · rename_i q heap hpop
        exact .inl ⟨q, heap, hpop, (Option.some.inj h).symm⟩
      · rename_i hpop
        exact .inr ⟨hpop, (Option.some.inj h).symm⟩
    · cases h
  · cases h

/-- A command that does not panic is answered. -/
theorem execute_of_returns {q : Arrived} {r : QueueRequest} {answer : QueueAnswer}
    {line : LineState T} (hq : q.command = .request r)
    (hr : r.execute P net tbid s.line = (some answer, line)) :
    ∃ flags, execute P net tbid s nowNs q =
      { s with line, flags, log := s.log ++ [(q, answer)] } := by
  rw [execute, hq]
  simp only [hr]
  exact ⟨_, rfl⟩

/-- The worker in its loop waits only on an open channel. -/
theorem exists_turn (hrunning : s.phase = .running) (hclosed : s.closed = true) :
    ∃ t, s.turn P net tbid nowNs = some t := by
  rw [turn, hrunning]
  rcases s.rx with - | ⟨command, rx⟩
  · simp only [if_pos hclosed]
    rcases s.heap.pop with - | ⟨q, heap⟩
    · exact ⟨_, rfl⟩
    · exact ⟨_, rfl⟩
  · simp only
    split
    · exact ⟨_, rfl⟩
    · exact ⟨_, rfl⟩

/-- Of the flags a turn writes only when the last RPC succeeded. -/
theorem flags_turn (h : s.turn P net tbid nowNs = some t) :
    t.flags = s.flags ∨ t.flags = { s.flags with lastApplicationRpcNs := nowNs } := by
  rcases turn_cases h with ⟨command, rx, -, ⟨-, rfl⟩ | ⟨-, rfl⟩⟩ |
    ⟨-, -, ⟨q, heap, -, rfl⟩ | ⟨-, rfl⟩⟩
  · obtain ⟨heap, sequence, hpush⟩ := foldl_push_eq (s := s.push command) rx
    rw [hpush]
    exact .inl rfl
  · exact .inl rfl
  · rw [execute]
    split
    · exact .inl rfl
    split
    · show (if _ then _ else _) = _ ∨ (if _ then _ else _) = _
      split
      · exact .inr rfl
      · exact .inl rfl
    · exact .inl rfl
  · exact .inl rfl

/-! ### The channel that stays open -/

/-- The channel is not closed and will not be, and nothing was executed. -/
structure NeverClosed (s : QueueMachine T) : Prop where
  /-- The senders do not close it. -/
  ending : s.ending ≠ some .close
  /-- It is open. -/
  closed : s.closed = false
  /-- Nothing was executed. -/
  log : s.log = []

/-- Only on a closed channel is a command executed. -/
theorem NeverClosed.step (h : s.NeverClosed) (hstep : s.step P net tbid e t) : t.NeverClosed := by
  rcases e with - | nowNs
  · rcases senderStep_cases hstep with ⟨cmd, todo, -, rfl⟩ | ⟨priority, -, rfl⟩ | ⟨-, hending, -⟩
    · obtain ⟨rx, hrx⟩ := s.send_eq cmd.1 (.request cmd.2)
      rw [hrx]
      exact ⟨h.ending, h.closed, h.log⟩
    · obtain ⟨rx, hrx⟩ := s.send_eq priority .shutdown
      rw [hrx]
      exact ⟨(Option.some_ne_none _).symm, h.closed, h.log⟩
    · exact absurd hending h.ending
  · rcases turn_cases hstep with ⟨command, rx, -, ⟨-, rfl⟩ | ⟨-, rfl⟩⟩ | ⟨-, hclosed, -⟩
    · obtain ⟨heap, sequence, hpush⟩ := foldl_push_eq (s := s.push command) rx
      rw [hpush]
      exact ⟨h.ending, h.closed, h.log⟩
    · exact ⟨h.ending, h.closed, h.log⟩
    · exact absurd (h.closed.symm.trans hclosed) Bool.false_ne_true

theorem NeverClosed.run {es : List QueueEvent} (hrun : Run (QueueMachine.step P net tbid) s es t)
    (h : s.NeverClosed) : t.NeverClosed :=
  hrun.invariant NeverClosed.step h

theorem neverClosed_start {sequence : UInt64}
    {cmds : List (CommunerdettePriority × QueueRequest)} {ending : Option QueueEnd}
    {line : LineState T} {flags : LivenessCycleFlags} (hending : ending ≠ some .close) :
    (start sequence cmds ending line flags).NeverClosed :=
  ⟨hending, rfl, rfl⟩

/-- The senders can always go on to send what they have to send, whatever the worker does. -/
theorem exists_run_sent (s : QueueMachine T) : ∃ es t,
    Run (QueueMachine.step P net tbid) s es t ∧ t.todo = [] ∧ t.ending = s.ending := by
  obtain ⟨todo, htodo⟩ : ∃ todo, s.todo = todo := ⟨_, rfl⟩
  induction todo generalizing s with
  | nil => exact ⟨[], s, .nil s, htodo, rfl⟩
  | cons cmd todo ih =>
    obtain ⟨rx, hrx⟩ := s.send_eq cmd.1 (.request cmd.2)
    have hstep : s.step P net tbid .sender { s.send cmd.1 (.request cmd.2) with todo } := by
      show s.senderStep = _
      rw [senderStep, htodo]
    obtain ⟨es, t, hrun, ht, hending⟩ := ih { s.send cmd.1 (.request cmd.2) with todo } rfl
    refine ⟨.sender :: es, t, .cons hstep hrun, ht, hending.trans ?_⟩
    rw [hrx]

end Steps

end QueueMachine

/-! ### The channel that is closed -/

/-- The command that arrives in the `i`-th place. -/
def arrived (sequence : UInt64) (i : ℕ) (cmd : CommunerdettePriority × QueueRequest) : Arrived :=
  ⟨⟨cmd.1, sequence + UInt64.ofNat i, .request cmd.2⟩, i⟩

/-- Commands in the order in which they arrive. -/
def arrivals (sequence : UInt64) (cmds : List (CommunerdettePriority × QueueRequest)) :
    List Arrived :=
  cmds.zipIdx.map fun cmd ↦ arrived sequence cmd.2 cmd.1

section Arrivals

variable {sequence : UInt64} {cmds : List (CommunerdettePriority × QueueRequest)} {q q' : Arrived}

theorem length_arrivals : (arrivals sequence cmds).length = cmds.length := by
  rw [arrivals, List.length_map, List.length_zipIdx]

theorem arrivals_concat (cmd : CommunerdettePriority × QueueRequest) :
    arrivals sequence (cmds ++ [cmd]) =
      arrivals sequence cmds ++ [arrived sequence cmds.length cmd] := by
  rw [arrivals, List.zipIdx_append, List.map_append, arrivals]
  simp

theorem mem_arrivals : q ∈ arrivals sequence cmds ↔
    ∃ cmd, cmds[q.arrival]? = some cmd ∧ q = arrived sequence q.arrival cmd := by
  rw [arrivals, List.mem_map]
  constructor
  · rintro ⟨⟨cmd, i⟩, hmem, rfl⟩
    exact ⟨cmd, List.mem_zipIdx_iff_getElem?.1 hmem, rfl⟩
  · rintro ⟨cmd, hcmd, hq⟩
    exact ⟨(cmd, q.arrival), List.mem_zipIdx_iff_getElem?.2 hcmd, hq.symm⟩

/-- They arrive in the places from `0` on. -/
theorem map_arrival_arrivals :
    (arrivals sequence cmds).map Arrived.arrival = List.range cmds.length := by
  rw [arrivals, List.map_map, List.range_eq_range', ← List.zipIdx_map_snd 0 cmds]
  rfl

/-- While the sequence numbers do not wrap around, the order of two arrivals with one priority is
that of their places. -/
theorem best_of_mayPrecede (hwrap : sequence.toNat + cmds.length ≤ 2 ^ 64)
    (hq : q ∈ arrivals sequence cmds) (hq' : q' ∈ arrivals sequence cmds)
    (hne : q.arrival ≠ q'.arrival) (h : q.MayPrecede q') :
    q'.priority.rank < q.priority.rank ∨
      q'.priority.rank = q.priority.rank ∧ q.arrival < q'.arrival := by
  have hsequence {q : Arrived} (hq : q ∈ arrivals sequence cmds) :
      q.sequence.toNat = sequence.toNat + q.arrival := by
    obtain ⟨cmd, hcmd, heq⟩ := mem_arrivals.1 hq
    obtain ⟨hlt, -⟩ := List.getElem?_eq_some_iff.1 hcmd
    rw [heq]
    show (sequence + UInt64.ofNat q.arrival).toNat = sequence.toNat + q.arrival
    rw [UInt64.toNat_add, UInt64.toNat_ofNat']
    omega
  rw [Arrived.mayPrecede_iff, hsequence hq, hsequence hq'] at h
  omega

end Arrivals

/-- The commands that were sent are on the channel, on the heap or executed, each once. -/
structure Accounted {T : Type} (sequence : UInt64)
    (cmds sent : List (CommunerdettePriority × QueueRequest)) (s : QueueMachine T) : Prop where
  /-- The others are still to be sent. -/
  cmds_eq : cmds = sent ++ s.todo
  /-- The worker is in its loop. -/
  running : s.phase = .running
  /-- The senders are to close the channel, -/
  ending : s.ending = some .close ∨ s.ending = none
  /-- or have, -/
  closed : s.ending = none → s.closed = true
  /-- once they have sent all commands. -/
  todo : s.closed = true → s.todo = []
  /-- The channel holds what the worker has not received. -/
  rx_eq : s.rx = (sent.drop s.received).map fun cmd ↦ (cmd.1, .request cmd.2)
  /-- What it has received is executed or on the heap. -/
  perm : (s.log.map Prod.fst ++ s.heap.toList).Perm (arrivals sequence (sent.take s.received))
  /-- The next sequence number. -/
  sequence_eq : s.sequence = sequence + UInt64.ofNat s.received

namespace Accounted

open QueueMachine

variable {P : Primitives} {T : Type} {net : Network T} {tbid : Tbid} {s t : QueueMachine T}
  {nowNs : UInt64} {e : QueueEvent} {sequence : UInt64}
  {cmds sent : List (CommunerdettePriority × QueueRequest)}

theorem received_le (h : Accounted sequence cmds sent s) : s.received ≤ sent.length := by
  have hlength := h.perm.length_eq
  rw [length_arrivals, List.length_append, List.length_map, List.length_take] at hlength
  have hreceived : s.received = s.log.length + s.heap.toList.length := rfl
  omega

theorem start_close (line : LineState T) (flags : LivenessCycleFlags) :
    Accounted sequence cmds [] (.start sequence cmds (some .close) line flags) where
  cmds_eq := rfl
  running := rfl
  ending := .inl rfl
  closed h := absurd h (Option.some_ne_none _)
  todo h := absurd h Bool.false_ne_true
  rx_eq := rfl
  perm := .nil
  sequence_eq := (UInt64.add_zero sequence).symm

/-- The senders send a command, -/
theorem send (h : Accounted sequence cmds sent s) {cmd : CommunerdettePriority × QueueRequest}
    {todo : List (CommunerdettePriority × QueueRequest)} (htodo : s.todo = cmd :: todo) :
    Accounted sequence cmds (sent ++ [cmd]) { s.send cmd.1 (.request cmd.2) with todo } := by
  rw [send_of_running h.running]
  refine ⟨?_, h.running, h.ending, h.closed, fun hclosed ↦ ?_, ?_, ?_, h.sequence_eq⟩
  · rw [List.append_assoc]
    exact h.cmds_eq.trans (congrArg (sent ++ ·) htodo)
  · exact absurd (htodo.symm.trans (h.todo hclosed)) (List.cons_ne_nil _ _)
  · show s.rx ++ [(cmd.1, _)] = ((sent ++ [cmd]).drop s.received).map _
    rw [List.drop_append_of_le_length h.received_le, List.map_append, h.rx_eq]
    rfl
  · show List.Perm _ (arrivals sequence ((sent ++ [cmd]).take s.received))
    rw [List.take_append_of_le_length h.received_le]
    exact h.perm

/-- or close the channel. -/
theorem close (h : Accounted sequence cmds sent s) (htodo : s.todo = []) :
    Accounted sequence cmds sent { s with closed := true, ending := none } :=
  ⟨h.cmds_eq, h.running, .inr rfl, fun _ ↦ rfl, fun _ ↦ htodo, h.rx_eq, h.perm, h.sequence_eq⟩

/-- The worker takes a command, -/
theorem push (h : Accounted sequence cmds sent s)
    {command : CommunerdettePriority × CommunerdetteCommand}
    {rx : List (CommunerdettePriority × CommunerdetteCommand)} (hrx : s.rx = command :: rx) :
    Accounted sequence cmds sent { s.push command with rx } := by
  have hdrop := h.rx_eq
  rw [hrx, eq_comm, List.map_eq_cons_iff] at hdrop
  obtain ⟨cmd, rest, hdrop, rfl, rfl⟩ := hdrop
  have hget : sent[s.received]? = some cmd := by
    rw [← List.head?_drop, hdrop]
    rfl
  have hreceived : (s.push (cmd.1, .request cmd.2)).received = s.received + 1 := by
    show s.log.length + (s.heap.push _).toList.length = s.log.length + s.heap.toList.length + 1
    rw [MaxHeap.length_push]
    rfl
  have htake : sent.take (s.received + 1) = sent.take s.received ++ [cmd] := by
    rw [List.take_add_one, hget]
    rfl
  have hlength : (sent.take s.received).length = s.received :=
    List.length_take_of_le h.received_le
  refine ⟨h.cmds_eq, h.running, h.ending, h.closed, h.todo, ?_, ?_, ?_⟩
  · show _ = (sent.drop (s.push (cmd.1, .request cmd.2)).received).map _
    rw [hreceived, ← List.tail_drop, hdrop]
    rfl
  · show List.Perm _ (arrivals sequence (sent.take (s.push (cmd.1, .request cmd.2)).received))
    rw [hreceived, htake, arrivals_concat, hlength]
    have hpush : (s.push (cmd.1, .request cmd.2)).heap.toList.Perm
        (arrived sequence s.received cmd :: s.heap.toList) := by
      rw [arrived, ← h.sequence_eq]
      exact MaxHeap.perm_push
    refine (hpush.append_left _).trans (List.perm_middle.trans ?_)
    exact (h.perm.cons _).trans (List.perm_append_singleton _ _).symm
  · show s.sequence + 1 = sequence + UInt64.ofNat (s.push (cmd.1, .request cmd.2)).received
    rw [hreceived, h.sequence_eq, UInt64.ofNat_add, UInt64.add_assoc]
    rfl

/-- or executes one. -/
theorem pop (h : Accounted sequence cmds sent s) {q : Arrived}
    {heap : MaxHeap Arrived.MayPrecede} (hpop : s.heap.pop = some (q, heap)) (answer : QueueAnswer)
    (line : LineState T) (flags : LivenessCycleFlags) :
    Accounted sequence cmds sent { s with heap, line, flags, log := s.log ++ [(q, answer)] } := by
  have hheap := MaxHeap.pop_eq_some.1 hpop
  have hreceived : QueueMachine.received
      { s with heap, line, flags, log := s.log ++ [(q, answer)] } = s.received := by
    show (s.log ++ [(q, answer)]).length + heap.toList.length =
      s.log.length + s.heap.toList.length
    rw [hheap, List.length_append, List.length_singleton, List.length_cons]
    omega
  refine ⟨h.cmds_eq, h.running, h.ending, h.closed, h.todo, ?_, ?_, ?_⟩
  · rw [hreceived]
    exact h.rx_eq
  · rw [hreceived]
    show ((s.log ++ [(q, answer)]).map Prod.fst ++ heap.toList).Perm _
    rw [List.map_append, List.append_assoc]
    show (s.log.map Prod.fst ++ q :: heap.toList).Perm _
    rw [← hheap]
    exact h.perm
  · rw [hreceived]
    exact h.sequence_eq

end Accounted

/-- No execution of the command panics. -/
def QueueRequest.Returns (P : Primitives) {T : Type} (net : Network T) (tbid : Tbid)
    (r : QueueRequest) : Prop :=
  ∀ line, ∃ answer line', r.execute P net tbid line = (some answer, line')

namespace Accounted

open QueueMachine

variable {P : Primitives} {T : Type} {net : Network T} {tbid : Tbid} {s t : QueueMachine T}
  {nowNs : UInt64} {e : QueueEvent} {sequence : UInt64}
  {cmds sent : List (CommunerdettePriority × QueueRequest)}

/-- A command on the heap is one of those that arrived. -/
theorem mem_arrivals_of_mem_heap (h : Accounted sequence cmds sent s) {q : Arrived}
    (hq : q ∈ s.heap.toList) : q ∈ arrivals sequence (sent.take s.received) :=
  h.perm.mem_iff.1 (List.mem_append_right _ hq)

/-- No two commands on the heap have one place among the arrivals. -/
theorem nodup_arrival (h : Accounted sequence cmds sent s) :
    (s.heap.toList.map Arrived.arrival).Nodup := by
  have hall := h.perm.map Arrived.arrival
  rw [map_arrival_arrivals, List.map_append] at hall
  exact (List.nodup_append.1 (hall.nodup_iff.2 List.nodup_range)).2.1

/-- What a turn does where no command panics. -/
theorem turn (hreturns : ∀ cmd ∈ cmds, cmd.2.Returns P net tbid)
    (h : Accounted sequence cmds sent s) (hturn : s.turn P net tbid nowNs = some t) :
    (∃ command rx, s.rx = command :: rx ∧ t = { s.push command with rx }) ∨
    (s.rx = [] ∧ s.closed = true ∧ ∃ q heap answer line flags, s.heap.pop = some (q, heap) ∧
      t = { s with heap, line, flags, log := s.log ++ [(q, answer)] }) ∨
    (s.rx = [] ∧ s.heap.pop = none ∧ t = s) := by
  rcases turn_cases hturn with ⟨command, rx, hrx, ⟨hshutdown, -⟩ | ⟨-, ht⟩⟩ |
    ⟨hrx, hclosed, ⟨q, heap, hpop, rfl⟩ | ⟨hpop, rfl⟩⟩
  · -- a `Shutdown` was not sent
    have hmem : command ∈ (sent.drop s.received).map fun cmd ↦
        (cmd.1, CommunerdetteCommand.request cmd.2) := by
      rw [← h.rx_eq, hrx]
      exact List.mem_cons_self
    obtain ⟨cmd, -, rfl⟩ := List.mem_map.1 hmem
    cases hshutdown
  · exact .inl ⟨command, rx, hrx, ht⟩
  · have hq : q ∈ s.heap.toList := by
      rw [MaxHeap.pop_eq_some.1 hpop]
      exact List.mem_cons_self
    obtain ⟨cmd, hcmd, heq⟩ := mem_arrivals.1 (h.mem_arrivals_of_mem_heap hq)
    have hmem : cmd ∈ cmds := by
      rw [h.cmds_eq]
      exact List.mem_append_left _ (List.mem_of_mem_take (List.mem_of_getElem? hcmd))
    have hcommand : q.command = .request cmd.2 := by rw [heq]; rfl
    obtain ⟨answer, line, hexecute⟩ := hreturns cmd hmem s.line
    obtain ⟨flags, hflags⟩ := execute_of_returns (s := { s with heap }) hcommand hexecute
    exact .inr (.inl ⟨hrx, hclosed, q, heap, answer, line, flags, hpop, hflags⟩)
  · exact .inr (.inr ⟨hrx, hpop, rfl⟩)

/-- Each step keeps the account, -/
theorem step (hreturns : ∀ cmd ∈ cmds, cmd.2.Returns P net tbid)
    (h : Accounted sequence cmds sent s) (hstep : s.step P net tbid e t) :
    ∃ sent', Accounted sequence cmds sent' t := by
  rcases e with - | nowNs
  · rcases senderStep_cases hstep with ⟨cmd, todo, htodo, rfl⟩ | ⟨priority, hending, -⟩ |
      ⟨htodo, -, rfl⟩
    · exact ⟨_, h.send htodo⟩
    · rcases h.ending with hclose | hnone
      · cases hclose.symm.trans hending
      · cases hnone.symm.trans hending
    · exact ⟨_, h.close htodo⟩
  · rcases h.turn hreturns hstep with ⟨command, rx, hrx, rfl⟩ |
      ⟨-, -, q, heap, answer, line, flags, hpop, rfl⟩ | ⟨-, -, rfl⟩
    · exact ⟨sent, h.push hrx⟩
    · exact ⟨sent, h.pop hpop answer line flags⟩
    · exact ⟨sent, h⟩

/-- and so does every run. -/
theorem run {es : List QueueEvent} (hreturns : ∀ cmd ∈ cmds, cmd.2.Returns P net tbid)
    (hrun : Run (QueueMachine.step P net tbid) s es t) (h : Accounted sequence cmds sent s) :
    ∃ sent', Accounted sequence cmds sent' t :=
  hrun.invariant (I := fun s ↦ ∃ sent, Accounted sequence cmds sent s)
    (fun ⟨_, h⟩ ↦ h.step hreturns) ⟨sent, h⟩

/-- The command that is executed is the best one. -/
theorem choosesBest (hreturns : ∀ cmd ∈ cmds, cmd.2.Returns P net tbid)
    (hwrap : sequence.toNat + cmds.length ≤ 2 ^ 64) (h : Accounted sequence cmds sent s)
    (hstep : s.step P net tbid e t) : ChoosesBest s t := by
  have hsame (hlog : t.log = s.log) : ChoosesBest s t := by
    intro q answer hq
    exact absurd (List.self_eq_append_right.1 (hlog.symm.trans hq)) (List.cons_ne_nil _ _)
  rcases e with - | nowNs
  · rcases senderStep_cases hstep with ⟨cmd, todo, -, rfl⟩ | ⟨priority, -, rfl⟩ | ⟨-, -, rfl⟩
    · obtain ⟨rx, hrx⟩ := s.send_eq cmd.1 (.request cmd.2)
      exact hsame (by rw [hrx])
    · obtain ⟨rx, hrx⟩ := s.send_eq priority .shutdown
      exact hsame (by rw [hrx])
    · exact hsame rfl
  rcases h.turn hreturns hstep with ⟨command, rx, -, rfl⟩ |
    ⟨-, -, q₀, heap, answer₀, line, flags, hpop, rfl⟩ | ⟨-, -, rfl⟩
  · exact hsame rfl
  · intro q answer hlog q' (hq' : q' ∈ heap.toList)
    obtain ⟨rfl, rfl⟩ : q₀ = q ∧ answer₀ = answer := by
      have hentry := List.append_cancel_left hlog
      simpa using hentry
    have hheap := MaxHeap.pop_eq_some.1 hpop
    have hnodup := h.nodup_arrival
    rw [hheap, List.map_cons, List.nodup_cons] at hnodup
    have hne : q₀.arrival ≠ q'.arrival := fun heq ↦
      hnodup.1 (heq ▸ List.mem_map_of_mem hq')
    have hlength : (sent.take s.received).length ≤ cmds.length := by
      rw [h.cmds_eq, List.length_append, List.length_take]
      omega
    have hmem {q : Arrived} (hq : q ∈ q₀ :: heap.toList) :
        q ∈ arrivals sequence (sent.take s.received) :=
      h.mem_arrivals_of_mem_heap (hheap ▸ hq)
    rcases best_of_mayPrecede (by omega) (hmem List.mem_cons_self)
      (hmem (List.mem_cons_of_mem _ hq')) hne (MaxHeap.rel_of_pop hpop hq') with hlt | ⟨heq, hlt⟩
    · exact .inl hlt
    · exact .inr ⟨CommunerdettePriority.rank_injective heq, hlt⟩
  · exact hsame rfl

/-- Where nothing is left, all commands were executed. -/
theorem drained (h : Accounted sequence cmds sent s) (htodo : s.todo = []) (hrx : s.rx = [])
    (hheap : s.heap.toList = []) : Drained cmds s := by
  obtain rfl : cmds = sent := by rw [h.cmds_eq, htodo, List.append_nil]
  have hdrop := h.rx_eq
  rw [hrx, eq_comm, List.map_eq_nil_iff, List.drop_eq_nil_iff] at hdrop
  have hperm := h.perm
  rw [hheap, List.append_nil, List.take_of_length_le hdrop] at hperm
  constructor
  · have honce := hperm.map Arrived.arrival
    rw [map_arrival_arrivals, List.map_map] at honce
    exact honce
  · intro entry hentry
    obtain ⟨cmd, hcmd, heq⟩ := mem_arrivals.1 (hperm.mem_iff.1 (List.mem_map_of_mem hentry))
    rw [hcmd, heq]
    rfl

/-- On a closed channel a turn goes on, where a command takes two turns: it is taken, and then it
is executed. -/
theorem exists_progress (hreturns : ∀ cmd ∈ cmds, cmd.2.Returns P net tbid)
    (h : Accounted sequence cmds sent s) (hclosed : s.closed = true) {left : ℕ}
    (hleft : 2 * s.rx.length + s.heap.toList.length = left + 1) (nowNs : UInt64) :
    ∃ t, s.step P net tbid (.turn nowNs) t ∧ Accounted sequence cmds sent t ∧ t.closed = true ∧
      2 * t.rx.length + t.heap.toList.length = left := by
  obtain ⟨t, hturn⟩ := exists_turn h.running hclosed
  rcases h.turn hreturns hturn with ⟨command, rx, hrx, rfl⟩ |
    ⟨hrx, -, q, heap, answer, line, flags, hpop, rfl⟩ | ⟨hrx, hpop, -⟩
  · refine ⟨_, hturn, h.push hrx, hclosed, ?_⟩
    show 2 * rx.length + (s.heap.push _).toList.length = left
    rw [MaxHeap.length_push]
    rw [hrx, List.length_cons] at hleft
    omega
  · refine ⟨_, hturn, h.pop hpop answer line flags, hclosed, ?_⟩
    show 2 * s.rx.length + heap.toList.length = left
    rw [MaxHeap.pop_eq_some.1 hpop, List.length_cons] at hleft
    omega
  · rw [hrx, MaxHeap.pop_eq_none.1 hpop] at hleft
    exact absurd hleft (Nat.succ_ne_zero left).symm

/-- On a closed channel the worker's turns get to all commands. -/
theorem exists_drained (hreturns : ∀ cmd ∈ cmds, cmd.2.Returns P net tbid)
    (h : Accounted sequence cmds sent s) (hclosed : s.closed = true) (clock : ℕ → UInt64) :
    ∃ n t, Run (QueueMachine.step P net tbid) s ((List.range n).map fun i ↦ .turn (clock i)) t ∧
      Drained cmds t := by
  obtain ⟨left, hleft⟩ : ∃ left, 2 * s.rx.length + s.heap.toList.length = left := ⟨_, rfl⟩
  induction left generalizing s clock with
  | zero =>
    exact ⟨0, s, .nil s, h.drained (h.todo hclosed) (List.eq_nil_of_length_eq_zero (by omega))
      (List.eq_nil_of_length_eq_zero (by omega))⟩
  | succ left ih =>
    obtain ⟨t, hstep, hsent, hclosed', hleft'⟩ := h.exists_progress hreturns hclosed hleft (clock 0)
    obtain ⟨n, u, hrun, hdrained⟩ := ih hsent hclosed' (fun i ↦ clock (i + 1)) hleft'
    refine ⟨n + 1, u, ?_, hdrained⟩
    rw [List.range_succ_eq_map, List.map_cons, List.map_map]
    exact .cons hstep hrun

end Accounted

/-! ### The law -/

section Law

variable {P : Primitives} {T : Type} {net : Network T} {tbid : Tbid}
  {sequence : UInt64} {cmds : List (CommunerdettePriority × QueueRequest)} {line : LineState T}
  {flags : LivenessCycleFlags}

/-- **A channel that is closed is drained**: where no command panics and the sequence numbers do
not wrap around, each command is executed and answered once, the best one first. -/
theorem drainLaw_close (hreturns : ∀ cmd ∈ cmds, cmd.2.Returns P net tbid)
    (hwrap : sequence.toNat + cmds.length ≤ 2 ^ 64) :
    DrainLaw P net tbid sequence cmds line flags .close where
  best es s e t hrun hstep := by
    obtain ⟨sent, h⟩ := (Accounted.start_close line flags).run hreturns hrun
    exact h.choosesBest hreturns hwrap hstep
  drained es s hrun _ hending clock := by
    obtain ⟨sent, h⟩ := (Accounted.start_close line flags).run hreturns hrun
    exact h.exists_drained hreturns (h.closed hending) clock

theorem Drained.length_log {s : QueueMachine T} (h : Drained cmds s) :
    s.log.length = cmds.length := by
  have hlength := h.once.length_eq
  rwa [List.length_map, List.length_range] at hlength

/-- **Where the commands end with `Shutdown`** none is ever executed. -/
theorem drainLaw_shutdown_iff {priority : CommunerdettePriority} :
    DrainLaw P net tbid sequence cmds line flags (.shutdown priority) ↔ cmds = [] := by
  have hstart : (QueueMachine.start sequence cmds (some (.shutdown priority)) line
      flags).NeverClosed :=
    QueueMachine.neverClosed_start fun h ↦ by cases h
  constructor
  · intro h
    obtain ⟨es, s, hrun, htodo, hending⟩ : ∃ es s, Run (QueueMachine.step P net tbid)
        (.start sequence cmds (some (.shutdown priority)) line flags) es s ∧ s.todo = [] ∧
          s.ending = some (.shutdown priority) :=
      QueueMachine.exists_run_sent _
    have hstep : s.step P net tbid .sender { s.send priority .shutdown with ending := none } := by
      show s.senderStep = _
      rw [QueueMachine.senderStep, htodo, hending]
    have hended := Run.concat_iff.2 ⟨s, hrun, hstep⟩
    obtain ⟨rx, hrx⟩ := s.send_eq priority .shutdown
    obtain ⟨n, t, hturns, hdrained⟩ := h.drained _ _ hended (by rw [hrx]; exact htodo) rfl
      fun _ ↦ 0
    have hlog := ((hstart.run hended).run hturns).log
    rw [← List.length_eq_zero_iff, ← hdrained.length_log, hlog]
    rfl
  · rintro rfl
    refine ⟨fun es s e t hrun hstep q answer hlog ↦ ?_, fun es s hrun _ _ clock ↦ ?_⟩
    · rw [((hstart.run hrun).step hstep).log, eq_comm, List.append_eq_nil_iff] at hlog
      exact absurd hlog.2 (List.cons_ne_nil _ _)
    · refine ⟨0, s, .nil s, ?_, ?_⟩
      · rw [(hstart.run hrun).log]
        exact .nil
      · rw [(hstart.run hrun).log]
        exact fun entry hentry ↦ absurd hentry List.not_mem_nil

/-- **While the channel is open** none is ever executed. -/
theorem openLaw_iff : OpenLaw P net tbid sequence cmds line flags ↔ cmds = [] := by
  constructor
  · intro h
    by_contra hne
    obtain ⟨es, s, hrun, htodo, -⟩ : ∃ es s, Run (QueueMachine.step P net tbid)
        (.start sequence cmds none line flags) es s ∧ s.todo = [] ∧ s.ending = none :=
      QueueMachine.exists_run_sent _
    obtain ⟨turns, t, -, hturns, hlog⟩ := h es s hrun htodo hne
    have hstart : (QueueMachine.start sequence cmds none line flags).NeverClosed :=
      QueueMachine.neverClosed_start fun h ↦ by cases h
    exact hlog ((hstart.run hrun).run hturns).log
  · rintro rfl es s hrun htodo hne
    exact absurd rfl hne

end Law

/-- **The command queue.** The worker does what it should do with a sequence of commands exactly
where there are none: it executes no command while the channel is open, nor, where the senders end
with `Shutdown`, after it. -/
theorem queueLaw_iff (P : Primitives) {T : Type} (net : Network T) (tbid : Tbid)
    (sequence : UInt64) (cmds : List (CommunerdettePriority × QueueRequest)) (line : LineState T)
    (flags : LivenessCycleFlags) (ending : QueueEnd) :
    QueueLaw P net tbid sequence cmds line flags ending ↔ cmds = [] := by
  constructor
  · intro h
    exact openLaw_iff.1 h.stayingOpen
  · rintro rfl
    refine ⟨?_, openLaw_iff.2 rfl⟩
    rcases ending with priority | -
    · exact drainLaw_shutdown_iff.2 rfl
    · refine drainLaw_close (fun cmd hcmd ↦ absurd hcmd List.not_mem_nil) ?_
      show sequence.toNat + 0 ≤ 2 ^ 64
      exact sequence.toNat_lt.le

/-- One stamp request, which is never executed unless the channel is closed. -/
theorem not_queueLaw_stamp : ¬QueueLaw .transparent (madeUpNetwork default) default 0
    [(.normal, .stamp [] "")] ⟨(), []⟩ .new .close := by
  intro h
  exact absurd (openLaw_iff.1 h.stayingOpen) (List.cons_ne_nil _ _)

end Foretias

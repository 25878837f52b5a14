import Foretias.Library.Run
import Foretias.Server.HistoryDump
import Mathlib.Data.Finset.Card

/-!
# The workers of the mirror pool

Workers take tasks from one queue. A task runs without interruption up to its next request to a
peer, so a worker that has sent one is a continuation (`Waiting`), and a step of the pool takes a
task or resumes such a continuation with the peer's answer. What a continuation remembers may no
longer hold when it is resumed: the set of mirrors that it had read, that there was room for one
more, and the enrolment that a counted failure was about.

* `exists_run_initiateDump` — a dump that nothing interrupts is `handleInitiateDump`.
* `sound_of_safeRun` — in runs whose steps find what they rely on, the pool is sound in every
  state reached.
-/

namespace Foretias

open ErrorState

/-- The part of `CalendarTask` that is about mirrors. -/
inductive PoolTask
  /-- Look for one more mirror. -/
  | findNewMirror
  /-- Stream the full local history to the mirror. -/
  | initiateDump (mirror : PeerAddr)
  /-- Push each new record to the mirror. -/
  | startStream (mirror : PeerAddr)
  /-- Probe the mirror. -/
  | exploreMirror (mirror : PeerAddr)
  /-- Drop the mirror. -/
  | expireMirror (mirror : PeerAddr)
  deriving DecidableEq

/-- A worker that waits for an answer. -/
inductive Waiting
  /-- `known_peers`. -/
  | knownPeers
  /-- `mirror_announce` to a peer; the set of mirrors is as it was read before. -/
  | announce (alreadyMirroring : Finset String) (peer : PeerAddr) (rest : List PeerAddr)
  /-- `history_dump_chunk`, with the chunks that are left and the number of all records. -/
  | dumpChunk (mirror : PeerAddr) (rest : List (List ChrononRecord)) (total : ℕ)
  /-- `history_dump_complete`. -/
  | dumpComplete (mirror : PeerAddr) (total : ℕ)
  /-- `mirror_health_check`. -/
  | healthCheck (mirror : PeerAddr)

/-- `MAX_HEALTH_FAILURES`. -/
def maxHealthFailures : UInt32 := 3

/-- `DUMP_CHUNK_SIZE`. -/
def dumpChunkSize : ℕ := 1

/-- The context of the workers with its `MirrorState`, the queue, the workers that wait, and a
history that none of them reads. -/
structure MirrorPool where
  /-- A dispatcher is wired. -/
  dispatcher : Bool
  /-- Number of workers. -/
  workerCount : ℕ
  /-- TBID of the local time family, hex-encoded. -/
  localTbidHex : String
  /-- Below this a fresh `FindNewMirror` is enqueued. -/
  minMirrors : ℕ
  /-- At this `FindNewMirror` stops. -/
  targetMirrors : ℕ
  /-- Active mirrors. -/
  mirrors : Finset String
  /-- Consecutive failures of health checks. -/
  healthFailures : String → Option UInt32
  /-- The queue. -/
  queue : List PoolTask
  /-- Workers that wait. -/
  waiting : Multiset Waiting
  /-- How often a mirror was enrolled. -/
  enrolments : String → ℕ
  /-- How many history dumps to it were begun. -/
  dumps : String → ℕ
  /-- Consecutive failures of its health checks since it was last enrolled. -/
  streak : String → ℕ
  /-- Mirrors that have had as many as there may be, since they were last enrolled. -/
  due : Finset String
  /-- A mirror was dropped that had not. -/
  droppedEarly : Bool

/-- A step. -/
inductive PoolEvent
  /-- `Calendar::enqueue_task`, from outside. -/
  | enqueue (task : PoolTask)
  /-- A worker takes the next task; a dump reads the calendar's records. -/
  | take (records : List ChrononRecord)
  /-- The known peers arrive. -/
  | knownPeers (candidates : List PeerAddr)
  /-- The answer to an announcement. -/
  | announced (alreadyMirroring : Finset String) (peer : PeerAddr) (rest : List PeerAddr)
      (answer : Except String Bool)
  /-- The answer to a chunk. -/
  | chunkAnswered (mirror : PeerAddr) (rest : List (List ChrononRecord)) (total : ℕ)
      (answer : Except String UInt64)
  /-- The answer to a completion request. -/
  | dumpCompleted (mirror : PeerAddr) (total : ℕ) (answer : Except String UInt64)
  /-- The answer to a health check. -/
  | healthChecked (mirror : PeerAddr) (answer : Except String UInt64)

namespace MirrorPool

/-- `start_pool`, with the counts that are set. -/
def new (dispatcher : Bool) (workerCount : ℕ) (localTbidHex : String)
    (minMirrors targetMirrors : ℕ) : MirrorPool where
  dispatcher
  workerCount
  localTbidHex
  minMirrors
  targetMirrors
  mirrors := ∅
  healthFailures _ := none
  queue := []
  waiting := 0
  enrolments _ := 0
  dumps _ := 0
  streak _ := 0
  due := ∅
  droppedEarly := false

variable (s : MirrorPool)

/-- `enqueue`. -/
def enqueue (task : PoolTask) : MirrorPool := { s with queue := s.queue ++ [task] }

/-- The worker waits. -/
def await (w : Waiting) : MirrorPool := { s with waiting := w ::ₘ s.waiting }

/-! ### Finding mirrors -/

/-- `handle_find_new_mirror`, up to its first request. -/
def findNewMirror : MirrorPool :=
  if s.dispatcher = false then s
  else if s.targetMirrors ≤ s.mirrors.card then s
  else if s.localTbidHex = "" then s
  else s.await .knownPeers

/-- The loop over the candidates, up to the next announcement. -/
def announceNext (alreadyMirroring : Finset String) : List PeerAddr → MirrorPool
  | [] => s
  | peer :: rest =>
    -- A mirror that was enrolled since the set was read is announced to again.
    if peer.jsonRpc ∈ alreadyMirroring then announceNext alreadyMirroring rest
    else s.await (.announce alreadyMirroring peer rest)

/-- A peer is inserted among the mirrors. -/
def enrol (peer : PeerAddr) : MirrorPool :=
  if peer.jsonRpc ∈ s.mirrors then s
  else
    { s with
      mirrors := insert peer.jsonRpc s.mirrors
      enrolments :=
        Function.update s.enrolments peer.jsonRpc (s.enrolments peer.jsonRpc + 1)
      streak := Function.update s.streak peer.jsonRpc 0
      due := s.due.erase peer.jsonRpc }

/-- An announcement is answered. -/
def announced (alreadyMirroring : Finset String) (peer : PeerAddr) (rest : List PeerAddr) :
    Except String Bool → MirrorPool
  | .ok true =>
    -- The target is compared with after the peer has been enrolled, not before.
    let s := (s.enrol peer).enqueue (.initiateDump peer)
    if s.targetMirrors ≤ s.mirrors.card then s else s.announceNext alreadyMirroring rest
  | .ok false => s.announceNext alreadyMirroring rest
  | .error _ => s.announceNext alreadyMirroring rest

/-! ### Dumps -/

/-- The next chunk, or the completion request. -/
def dumpNext (mirror : PeerAddr) (total : ℕ) : List (List ChrononRecord) → MirrorPool
  | [] => s.await (.dumpComplete mirror total)
  | _ :: rest => s.await (.dumpChunk mirror rest total)

/-- `handle_initiate_dump`, up to its first request. -/
def initiateDump (mirror : PeerAddr) (records : List ChrononRecord) : MirrorPool :=
  if s.dispatcher = false then s
  else if s.localTbidHex = "" then s
  else
    dumpNext
      { s with dumps := Function.update s.dumps mirror.jsonRpc (s.dumps mirror.jsonRpc + 1) }
      mirror records.length (chunks dumpChunkSize records)

/-- A chunk is answered; a failure ends the dump. -/
def chunkAnswered (mirror : PeerAddr) (rest : List (List ChrononRecord)) (total : ℕ) :
    Except String UInt64 → MirrorPool
  | .ok _ => s.dumpNext mirror total rest
  | .error _ => s

/-- A completion request is answered; that of an empty dump is not looked at. -/
def dumpCompleted (mirror : PeerAddr) (total : ℕ) : Except String UInt64 → MirrorPool
  | .ok _ => if total = 0 then s else s.enqueue (.startStream mirror)
  | .error _ => s

/-! ### Health -/

/-- `handle_explore_mirror`, up to its request. -/
def exploreMirror (mirror : PeerAddr) : MirrorPool :=
  if s.dispatcher = false then s
  else if s.localTbidHex = "" then s
  else s.await (.healthCheck mirror)

/-- A health check has failed. -/
def checkFailed (mirror : PeerAddr) (failures : UInt32) : MirrorPool :=
  { s with
    healthFailures := Function.update s.healthFailures mirror.jsonRpc (some failures)
    streak := Function.update s.streak mirror.jsonRpc (s.streak mirror.jsonRpc + 1)
    due := if maxHealthFailures.toNat ≤ s.streak mirror.jsonRpc + 1 then
      insert mirror.jsonRpc s.due else s.due }

/-- A health check is answered; the counter wraps around. -/
def healthChecked (mirror : PeerAddr) : Except String UInt64 → MirrorPool
  | .ok _ =>
    { s with
      healthFailures := Function.update s.healthFailures mirror.jsonRpc (some 0)
      streak := Function.update s.streak mirror.jsonRpc 0 }
  | .error _ =>
    -- A peer need not be a mirror for its failures to be counted.
    let failures := (s.healthFailures mirror.jsonRpc).getD 0 + 1
    let s := s.checkFailed mirror failures
    if maxHealthFailures ≤ failures then s.enqueue (.expireMirror mirror) else s

/-- `handle_expire_mirror`. -/
def expireMirror (mirror : PeerAddr) : MirrorPool :=
  if mirror.jsonRpc ∉ s.mirrors then s
  else
    let s := { s with
      mirrors := s.mirrors.erase mirror.jsonRpc
      healthFailures := Function.update s.healthFailures mirror.jsonRpc none
      droppedEarly := s.droppedEarly || decide (mirror.jsonRpc ∉ s.due) }
    if s.mirrors.card < s.minMirrors then s.enqueue .findNewMirror else s

/-- `handle_task`, up to its first request. -/
def handleTask (records : List ChrononRecord) : PoolTask → MirrorPool
  | .findNewMirror => s.findNewMirror
  | .initiateDump mirror => s.initiateDump mirror records
  | .startStream _ => s
  | .exploreMirror mirror => s.exploreMirror mirror
  | .expireMirror mirror => s.expireMirror mirror

end MirrorPool

/-- The steps of the pool. -/
inductive PoolStep : MirrorPool → PoolEvent → MirrorPool → Prop
  | enqueue (s : MirrorPool) (task : PoolTask) : PoolStep s (.enqueue task) (s.enqueue task)
  /-- A free worker takes the next task. -/
  | take {s : MirrorPool} {task : PoolTask} {queue : List PoolTask}
      (records : List ChrononRecord) (hfree : s.waiting.card < s.workerCount)
      (hqueue : s.queue = task :: queue) :
      PoolStep s (.take records) ({ s with queue }.handleTask records task)
  | knownPeers {s : MirrorPool} {waiting : Multiset Waiting} (candidates : List PeerAddr)
      (hwaiting : s.waiting = .knownPeers ::ₘ waiting) :
      PoolStep s (.knownPeers candidates)
        ({ s with waiting }.announceNext s.mirrors candidates)
  | announced {s : MirrorPool} {waiting : Multiset Waiting} {alreadyMirroring : Finset String}
      {peer : PeerAddr} {rest : List PeerAddr} (answer : Except String Bool)
      (hwaiting : s.waiting = .announce alreadyMirroring peer rest ::ₘ waiting) :
      PoolStep s (.announced alreadyMirroring peer rest answer)
        ({ s with waiting }.announced alreadyMirroring peer rest answer)
  | chunkAnswered {s : MirrorPool} {waiting : Multiset Waiting} {mirror : PeerAddr}
      {rest : List (List ChrononRecord)} {total : ℕ} (answer : Except String UInt64)
      (hwaiting : s.waiting = .dumpChunk mirror rest total ::ₘ waiting) :
      PoolStep s (.chunkAnswered mirror rest total answer)
        ({ s with waiting }.chunkAnswered mirror rest total answer)
  | dumpCompleted {s : MirrorPool} {waiting : Multiset Waiting} {mirror : PeerAddr} {total : ℕ}
      (answer : Except String UInt64)
      (hwaiting : s.waiting = .dumpComplete mirror total ::ₘ waiting) :
      PoolStep s (.dumpCompleted mirror total answer)
        ({ s with waiting }.dumpCompleted mirror total answer)
  | healthChecked {s : MirrorPool} {waiting : Multiset Waiting} {mirror : PeerAddr}
      (answer : Except String UInt64)
      (hwaiting : s.waiting = .healthCheck mirror ::ₘ waiting) :
      PoolStep s (.healthChecked mirror answer) ({ s with waiting }.healthChecked mirror answer)

namespace MirrorPool

variable {s : MirrorPool}

/-! ### A dump by itself -/

/-- The tasks of a dump, in the queue of all tasks. -/
def ofCalendarTask : CalendarTask → PoolTask
  | .initiateDump mirror => .initiateDump mirror
  | .startStream mirror => .startStream mirror

section Dump

variable {σ : Type} (dispatcher : MirrorDispatcher σ) (mirror : PeerAddr)

/-- What is left of a dump, in steps: each answer is the one that the dispatcher gives. -/
theorem exists_run_dumpNext (s : MirrorPool) (total : ℕ) (rest : List (List ChrononRecord))
    (sent : ℕ) (net : σ) :
    ∃ es, Run PoolStep (s.dumpNext mirror total rest) es
      (match (sendChunks dispatcher mirror s.localTbidHex rest sent >>= fun _ ↦
          dispatcher.historyDumpComplete mirror s.localTbidHex total) net with
        | .ok reported _ => s.dumpCompleted mirror total (.ok reported.toUInt64)
        | .error _ _ => s) := by
  induction rest generalizing sent net with
  | nil =>
    show ∃ es, Run PoolStep (s.await (.dumpComplete mirror total)) es
      (match dispatcher.historyDumpComplete mirror s.localTbidHex total net with
        | .ok reported _ => s.dumpCompleted mirror total (.ok reported.toUInt64)
        | .error _ _ => s)
    rcases dispatcher.historyDumpComplete mirror s.localTbidHex total net with
      ⟨reported, net'⟩ | ⟨e, net'⟩
    · exact ⟨_, .cons (.dumpCompleted (.ok reported.toUInt64) rfl) (.nil _)⟩
    · exact ⟨_, .cons (.dumpCompleted (.error "") rfl) (.nil _)⟩
  | cons chunk rest ih =>
    rw [sendChunks, bind_assoc]
    rcases hchunk : dispatcher.historyDumpChunk mirror s.localTbidHex chunk net with
      ⟨accepted, net'⟩ | ⟨e, net'⟩
    · -- The answer resumes the worker at the next chunk, in the pool that it left.
      obtain ⟨es, hrun⟩ := ih (sent + accepted) net'
      rw [bind_of_ok hchunk]
      exact ⟨_, .cons (.chunkAnswered (.ok accepted.toUInt64) rfl) hrun⟩
    · rw [bind_of_error hchunk]
      exact ⟨_, .cons (.chunkAnswered (.error "") rfl) (.nil _)⟩

/-- A worker that is not interrupted dumps as `handleInitiateDump` does. -/
theorem exists_run_initiateDump (hdispatcher : s.dispatcher = true)
    (records : List ChrononRecord) (net : σ) :
    ∃ es t, Run PoolStep (s.initiateDump mirror records) es t ∧ t.waiting = s.waiting ∧
      t.queue = s.queue ++ (handleInitiateDump (some dispatcher) mirror s.localTbidHex
        dumpChunkSize records net).1.map ofCalendarTask := by
  rw [initiateDump, if_neg (Bool.not_eq_false _ ▸ hdispatcher)]
  split
  next hkey =>
    rw [handleInitiateDump, if_pos hkey]
    exact ⟨[], s, .nil s, rfl, (List.append_nil _).symm⟩
  next hkey =>
    obtain ⟨es, hrun⟩ := exists_run_dumpNext dispatcher mirror
      { s with dumps := Function.update s.dumps mirror.jsonRpc (s.dumps mirror.jsonRpc + 1) }
      records.length (chunks dumpChunkSize records) 0 net
    refine ⟨es, _, hrun, ?_⟩
    by_cases hnil : records = []
    · rw [hnil, handleInitiateDump_nil hkey, chunks_nil, sendChunks, pure_bind]
      dsimp only
      split
      · exact ⟨rfl, (List.append_nil _).symm⟩
      · exact ⟨rfl, (List.append_nil _).symm⟩
    · rw [handleInitiateDump_of_ne hkey hnil, dumpRecords]
      rcases hsend : sendChunks dispatcher mirror s.localTbidHex (chunks dumpChunkSize records) 0
        net with ⟨sent, net'⟩ | ⟨e, net'⟩
      · rw [bind_of_ok hsend, bind_of_ok hsend]
        rcases hcomplete : dispatcher.historyDumpComplete mirror s.localTbidHex records.length
          net' with ⟨reported, net''⟩ | ⟨e, net''⟩
        · rw [bind_of_ok hcomplete]
          dsimp only
          rw [dumpCompleted, if_neg (mt List.length_eq_zero_iff.1 hnil)]
          exact ⟨rfl, rfl⟩
        · rw [bind_of_error hcomplete]
          exact ⟨rfl, (List.append_nil _).symm⟩
      · rw [bind_of_error hsend, bind_of_error hsend]
        exact ⟨rfl, (List.append_nil _).symm⟩

end Dump

/-! ### What is to hold -/

/-- The steps that find what they rely on. An accepted peer is not a mirror by now, there is room
for it, no failure of it is counted, and no task to drop it is left from before; and only workers
enqueue dumps and the dropping of mirrors. -/
def Safe (s : MirrorPool) : PoolEvent → Prop
  | .enqueue task => (∀ mirror, task ≠ .initiateDump mirror) ∧ ∀ mirror, task ≠ .expireMirror mirror
  | .announced _ peer _ answer =>
    answer = .ok true → peer.jsonRpc ∉ s.mirrors ∧ s.mirrors.card < s.targetMirrors ∧
      (s.healthFailures peer.jsonRpc).getD 0 = 0 ∧ .expireMirror peer ∉ s.queue
  | _ => True

/-- What is to hold of the pool. -/
structure Sound (s : MirrorPool) : Prop where
  /-- There are no more mirrors than there may be. -/
  count : s.mirrors.card ≤ s.targetMirrors
  /-- There are no more dumps to a mirror than enrolments of it. -/
  dumps : ∀ mirror, s.dumps mirror ≤ s.enrolments mirror
  /-- No mirror was dropped before its health checks had failed often enough. -/
  dropped : s.droppedEarly = false

/-! ### The invariant -/

/-- What the steps keep: the pool is sound with the dumps that are queued, the counter of a mirror
is about its present enrolment, and so is a task to drop it. -/
structure Kept (s : MirrorPool) : Prop where
  /-- There are no more mirrors than there may be. -/
  count : s.mirrors.card ≤ s.targetMirrors
  /-- There are no more dumps, begun or queued, to a mirror than enrolments of it. -/
  dumps : ∀ mirror, s.dumps mirror + s.queue.count (.initiateDump ⟨mirror⟩) ≤ s.enrolments mirror
  /-- Only failures since the last enrolment are counted. -/
  failures : ∀ mirror ∈ s.mirrors,
    ((s.healthFailures mirror).getD 0).toNat ≤ s.streak mirror
  /-- A mirror that is to be dropped has failed often enough. -/
  expiring : ∀ mirror ∈ s.mirrors, .expireMirror ⟨mirror⟩ ∈ s.queue → mirror ∈ s.due
  /-- No mirror was dropped before. -/
  dropped : s.droppedEarly = false

theorem Kept.sound (h : s.Kept) : s.Sound :=
  ⟨h.count, fun mirror ↦ (Nat.le_add_right _ _).trans (h.dumps mirror), h.dropped⟩

/-- A new pool is in order. -/
theorem kept_new (dispatcher : Bool) (workerCount : ℕ) (localTbidHex : String)
    (minMirrors targetMirrors : ℕ) :
    (new dispatcher workerCount localTbidHex minMirrors targetMirrors).Kept where
  count := Nat.zero_le _
  dumps _ := le_rfl
  failures _ h := absurd h (Finset.notMem_empty _)
  expiring _ h := absurd h (Finset.notMem_empty _)
  dropped := rfl

/-- A worker that waits leaves it in order. -/
theorem Kept.await (h : s.Kept) (w : Waiting) : (s.await w).Kept :=
  ⟨h.count, h.dumps, h.failures, h.expiring, h.dropped⟩

theorem Kept.resume (h : s.Kept) (waiting : Multiset Waiting) : Kept { s with waiting } :=
  ⟨h.count, h.dumps, h.failures, h.expiring, h.dropped⟩

/-- So does a new task that is neither a dump nor drops a mirror that is not due. -/
theorem Kept.enqueue (h : s.Kept) {task : PoolTask} (hdump : ∀ mirror, task ≠ .initiateDump mirror)
    (hexpire : ∀ mirror ∈ s.mirrors, task = .expireMirror ⟨mirror⟩ → mirror ∈ s.due) :
    (s.enqueue task).Kept where
  count := h.count
  dumps mirror := by
    have hdumps := h.dumps mirror
    show s.dumps mirror + (s.queue ++ [task]).count _ ≤ s.enrolments mirror
    rw [List.count_append, List.count_singleton, if_neg, Nat.add_zero]
    · exact hdumps
    · exact fun heq ↦ hdump _ (eq_of_beq heq)
  failures := h.failures
  expiring mirror hmem hqueued := by
    rcases List.mem_append.1 hqueued with hqueued | hqueued
    · exact h.expiring mirror hmem hqueued
    · exact hexpire mirror hmem (List.mem_singleton.1 hqueued).symm
  dropped := h.dropped

/-- What is left of the queue is kept. -/
theorem Kept.tail (h : s.Kept) {task : PoolTask} {queue : List PoolTask}
    (hqueue : s.queue = task :: queue) : Kept { s with queue } where
  count := h.count
  dumps mirror := by
    have hdumps := h.dumps mirror
    have hle := List.count_le_count_cons (a := PoolTask.initiateDump ⟨mirror⟩) (b := task)
      (l := queue)
    rw [hqueue] at hdumps
    show s.dumps mirror + queue.count _ ≤ s.enrolments mirror
    omega
  failures := h.failures
  expiring mirror hmem hqueued :=
    h.expiring mirror hmem (hqueue ▸ List.mem_cons_of_mem task hqueued)
  dropped := h.dropped

/-! ### The parts of the tasks -/

/-- A search for a mirror leaves the pool in order. -/
theorem kept_findNewMirror (h : s.Kept) : s.findNewMirror.Kept := by
  rw [findNewMirror]
  split
  · exact h
  split
  · exact h
  split
  · exact h
  · exact h.await _

/-- So does the next announcement to a candidate, -/
theorem kept_announceNext (h : s.Kept) (alreadyMirroring : Finset String)
    (candidates : List PeerAddr) : (s.announceNext alreadyMirroring candidates).Kept := by
  induction candidates with
  | nil => exact h
  | cons peer rest ih =>
    rw [announceNext]
    split
    · exact ih
    · exact h.await _

/-- A new mirror begins without failures, and its dump is queued. -/
theorem kept_enrol (h : s.Kept) {peer : PeerAddr} (hnew : peer.jsonRpc ∉ s.mirrors)
    (hroom : s.mirrors.card < s.targetMirrors)
    (hfailures : (s.healthFailures peer.jsonRpc).getD 0 = 0)
    (hexpiring : .expireMirror peer ∉ s.queue) :
    ((s.enrol peer).enqueue (.initiateDump peer)).Kept := by
  rw [enrol, if_neg hnew]
  refine ⟨?_, fun mirror ↦ ?_, fun mirror hmem ↦ ?_, fun mirror hmem hqueued ↦ ?_, h.dropped⟩
  · show (insert peer.jsonRpc s.mirrors).card ≤ s.targetMirrors
    rw [Finset.card_insert_of_notMem hnew]
    exact hroom
  · -- One more enrolment pays for the dump that is queued.
    have hdumps := h.dumps mirror
    show s.dumps mirror + (s.queue ++ [PoolTask.initiateDump peer]).count _ ≤
      Function.update s.enrolments peer.jsonRpc _ mirror
    rw [List.count_append, List.count_singleton]
    rcases eq_or_ne mirror peer.jsonRpc with rfl | hne
    · rw [Function.update_self, if_pos (beq_self_eq_true _)]
      omega
    · rw [Function.update_of_ne hne, if_neg, Nat.add_zero]
      · exact hdumps
      · exact fun heq ↦ hne (congrArg PeerAddr.jsonRpc
          (PoolTask.initiateDump.inj (eq_of_beq heq))).symm
  · show ((s.healthFailures mirror).getD 0).toNat ≤ Function.update s.streak peer.jsonRpc 0 mirror
    rcases eq_or_ne mirror peer.jsonRpc with rfl | hne
    · rw [hfailures]
      exact Nat.zero_le _
    · rw [Function.update_of_ne hne]
      exact h.failures mirror ((Finset.mem_insert.1 hmem).resolve_left hne)
  · have hqueued : .expireMirror ⟨mirror⟩ ∈ s.queue := by
      rcases List.mem_append.1 hqueued with hqueued | hqueued
      · exact hqueued
      · exact absurd (List.mem_singleton.1 hqueued) PoolTask.noConfusion
    rcases eq_or_ne mirror peer.jsonRpc with rfl | hne
    · exact absurd hqueued hexpiring
    · have hdue := h.expiring mirror ((Finset.mem_insert.1 hmem).resolve_left hne) hqueued
      exact Finset.mem_erase.2 ⟨hne, hdue⟩

/-- and the answer to it, if that is safe. -/
theorem kept_announced (h : s.Kept) {alreadyMirroring : Finset String} {peer : PeerAddr}
    {rest : List PeerAddr} {answer : Except String Bool}
    (hsafe : s.Safe (.announced alreadyMirroring peer rest answer)) :
    (s.announced alreadyMirroring peer rest answer).Kept := by
  rcases answer with e | _ | _
  · exact kept_announceNext h _ _
  · exact kept_announceNext h _ _
  · obtain ⟨hnew, hroom, hfailures, hexpiring⟩ := hsafe rfl
    have henrol := kept_enrol h hnew hroom hfailures hexpiring
    rw [announced]
    split
    · exact henrol
    · exact kept_announceNext henrol _ _

/-- The next chunk of a dump leaves the pool in order, -/
theorem kept_dumpNext (h : s.Kept) (mirror : PeerAddr) (total : ℕ)
    (rest : List (List ChrononRecord)) : (s.dumpNext mirror total rest).Kept := by
  rcases rest with - | ⟨chunk, rest⟩
  · exact h.await _
  · exact h.await _

/-- A dump that was queued is begun. -/
theorem kept_initiateDump (h : s.Kept) {mirror : PeerAddr} {queue : List PoolTask}
    (hqueue : s.queue = .initiateDump mirror :: queue) (records : List ChrononRecord) :
    ({ s with queue }.initiateDump mirror records).Kept := by
  have htail := h.tail hqueue
  rw [initiateDump]
  split
  · exact htail
  split
  · exact htail
  · have hbegun : Kept { s with
        queue
        dumps := Function.update s.dumps mirror.jsonRpc (s.dumps mirror.jsonRpc + 1) } := by
      refine ⟨htail.count, fun mirror' ↦ ?_, htail.failures, htail.expiring, htail.dropped⟩
      have hdumps := h.dumps mirror'
      rw [hqueue] at hdumps
      show Function.update s.dumps mirror.jsonRpc _ mirror' + queue.count _ ≤ s.enrolments mirror'
      rcases eq_or_ne mirror' mirror.jsonRpc with rfl | hne
      · rw [Function.update_self]
        rw [List.count_cons_self] at hdumps
        omega
      · rw [Function.update_of_ne hne]
        exact htail.dumps mirror'
    exact kept_dumpNext hbegun _ _ _

/-- and the answer to it does, -/
theorem kept_chunkAnswered (h : s.Kept) (mirror : PeerAddr) (rest : List (List ChrononRecord))
    (total : ℕ) (answer : Except String UInt64) :
    (s.chunkAnswered mirror rest total answer).Kept := by
  rcases answer with e | accepted
  · exact h
  · exact kept_dumpNext h mirror total rest

/-- and the end of the dump. -/
theorem kept_dumpCompleted (h : s.Kept) (mirror : PeerAddr) (total : ℕ)
    (answer : Except String UInt64) : (s.dumpCompleted mirror total answer).Kept := by
  rcases answer with e | reported
  · exact h
  · rw [dumpCompleted]
    split
    · exact h
    · exact h.enqueue (fun _ ↦ PoolTask.noConfusion) fun _ _ ↦ PoolTask.noConfusion

/-- A probe leaves the pool in order, -/
theorem kept_exploreMirror (h : s.Kept) (mirror : PeerAddr) : (s.exploreMirror mirror).Kept := by
  rw [exploreMirror]
  split
  · exact h
  split
  · exact h
  · exact h.await _

/-- A failure is counted by the counter and by the history; the counter may wrap around. -/
theorem kept_checkFailed (h : s.Kept) {mirror : PeerAddr} {failures : UInt32}
    (hfailures : mirror.jsonRpc ∈ s.mirrors → failures.toNat ≤ s.streak mirror.jsonRpc + 1) :
    (s.checkFailed mirror failures).Kept := by
  refine ⟨h.count, h.dumps, fun mirror' hmem ↦ ?_, fun mirror' hmem hqueued ↦ ?_, h.dropped⟩
  · show ((Function.update s.healthFailures mirror.jsonRpc _ mirror').getD 0).toNat ≤
      Function.update s.streak mirror.jsonRpc _ mirror'
    rcases eq_or_ne mirror' mirror.jsonRpc with rfl | hne
    · rw [Function.update_self, Function.update_self]
      exact hfailures hmem
    · rw [Function.update_of_ne hne, Function.update_of_ne hne]
      exact h.failures mirror' hmem
  · have hdue := h.expiring mirror' hmem hqueued
    show mirror' ∈ if _ then insert mirror.jsonRpc s.due else s.due
    split
    · exact Finset.mem_insert_of_mem hdue
    · exact hdue

/-- and its answer does. -/
theorem kept_healthChecked (h : s.Kept) (mirror : PeerAddr) (answer : Except String UInt64) :
    (s.healthChecked mirror answer).Kept := by
  rcases answer with e | tickCount
  · -- The counter is at most the streak, so a mirror that is to be dropped has failed often enough.
    have hfailures : mirror.jsonRpc ∈ s.mirrors →
        ((s.healthFailures mirror.jsonRpc).getD 0 + 1).toNat ≤ s.streak mirror.jsonRpc + 1 := by
      intro hmem
      have hle := h.failures _ hmem
      rw [UInt32.toNat_add]
      exact (Nat.mod_le _ _).trans (Nat.succ_le_succ hle)
    have hfailed := kept_checkFailed h hfailures
    rw [healthChecked]
    split
    next hmax =>
      refine hfailed.enqueue (fun _ ↦ PoolTask.noConfusion) fun mirror' hmem heq ↦ ?_
      obtain rfl := congrArg PeerAddr.jsonRpc (PoolTask.expireMirror.inj heq)
      have hstreak : maxHealthFailures.toNat ≤ s.streak mirror.jsonRpc + 1 :=
        (UInt32.le_iff_toNat_le.1 hmax).trans (hfailures hmem)
      show mirror.jsonRpc ∈ if _ then insert mirror.jsonRpc s.due else s.due
      rw [if_pos hstreak]
      exact Finset.mem_insert_self _ _
    next => exact hfailed
  · refine ⟨h.count, h.dumps, fun mirror' hmem ↦ ?_, h.expiring, h.dropped⟩
    show ((Function.update s.healthFailures mirror.jsonRpc (some 0) mirror').getD 0).toNat ≤
      Function.update s.streak mirror.jsonRpc 0 mirror'
    rcases eq_or_ne mirror' mirror.jsonRpc with rfl | hne
    · rw [Function.update_self, Function.update_self]
      exact le_rfl
    · rw [Function.update_of_ne hne, Function.update_of_ne hne]
      exact h.failures mirror' hmem

/-- A mirror is dropped by a task that was queued. -/
theorem kept_expireMirror (h : s.Kept) {mirror : PeerAddr} {queue : List PoolTask}
    (hqueue : s.queue = .expireMirror mirror :: queue) :
    ({ s with queue }.expireMirror mirror).Kept := by
  have htail := h.tail hqueue
  rw [expireMirror]
  split
  next => exact htail
  next hmem =>
    have hmem : mirror.jsonRpc ∈ s.mirrors := not_not.1 hmem
    have hdue : mirror.jsonRpc ∈ s.due :=
      h.expiring _ hmem (hqueue ▸ List.mem_cons_self)
    have hdropped : Kept { s with
        queue
        mirrors := s.mirrors.erase mirror.jsonRpc
        healthFailures := Function.update s.healthFailures mirror.jsonRpc none
        droppedEarly := s.droppedEarly || decide (mirror.jsonRpc ∉ s.due) } := by
      refine ⟨(Finset.card_erase_le).trans h.count, htail.dumps, fun mirror' hmem' ↦ ?_,
        fun mirror' hmem' ↦ htail.expiring mirror' (Finset.mem_of_mem_erase hmem'), ?_⟩
      · obtain ⟨hne, hmem'⟩ := Finset.mem_erase.1 hmem'
        show ((Function.update s.healthFailures mirror.jsonRpc none mirror').getD 0).toNat ≤ _
        rw [Function.update_of_ne hne]
        exact h.failures mirror' hmem'
      · show (s.droppedEarly || _) = false
        rw [h.dropped, decide_eq_false (not_not.2 hdue)]
        rfl
    dsimp only
    split
    · exact hdropped.enqueue (fun _ ↦ PoolTask.noConfusion) fun _ _ ↦ PoolTask.noConfusion
    · exact hdropped

/-- A worker that takes a task from the queue leaves the pool in order. -/
theorem kept_handleTask (h : s.Kept) {task : PoolTask} {queue : List PoolTask}
    (hqueue : s.queue = task :: queue) (records : List ChrononRecord) :
    ({ s with queue }.handleTask records task).Kept := by
  have htail := h.tail hqueue
  rcases task with _ | mirror | mirror | mirror | mirror
  case findNewMirror => exact kept_findNewMirror htail
  case initiateDump => exact kept_initiateDump h hqueue records
  case startStream => exact htail
  case exploreMirror => exact kept_exploreMirror htail mirror
  case expireMirror => exact kept_expireMirror h hqueue

/-! ### Steps and runs -/

/-- **Every safe step leaves a pool in order that is in order.** -/
theorem kept_step {e : PoolEvent} {s' : MirrorPool} (h : s.Kept)
    (hstep : Guarded PoolStep Safe s e s') : s'.Kept := by
  obtain ⟨hsafe, hstep⟩ := hstep
  -- Only what is enqueued and what is accepted may break the invariant.
  rcases hstep with _ | ⟨records, -, hqueue⟩ | _ | ⟨answer, -⟩ | _ | _ | _
  case enqueue task =>
    obtain ⟨hdump, hexpire⟩ := hsafe
    exact h.enqueue hdump fun mirror _ heq ↦ absurd heq (hexpire _)
  case take => exact kept_handleTask h hqueue records
  case knownPeers => exact kept_announceNext (h.resume _) _ _
  case announced => exact kept_announced (h.resume _) hsafe
  case chunkAnswered => exact kept_chunkAnswered (h.resume _) _ _ _ _
  case dumpCompleted => exact kept_dumpCompleted (h.resume _) _ _ _
  case healthChecked => exact kept_healthChecked (h.resume _) _ _

/-- In runs of safe steps the pool is sound in every state reached. -/
theorem sound_of_safeRun {dispatcher : Bool} {workerCount : ℕ} {localTbidHex : String}
    {minMirrors targetMirrors : ℕ} {es : List PoolEvent}
    (hrun : Run (Guarded PoolStep Safe)
      (new dispatcher workerCount localTbidHex minMirrors targetMirrors) es s) : s.Sound :=
  (hrun.invariant (I := Kept) (fun h hstep ↦ kept_step h hstep)
    (kept_new dispatcher workerCount localTbidHex minMirrors targetMirrors)).sound

/-- A dump of no records begins with its completion request. -/
theorem take_initiateDump_nil {mirror : PeerAddr} {queue : List PoolTask}
    (hdispatcher : s.dispatcher = true) (hlocal : s.localTbidHex ≠ "")
    (hfree : s.waiting.card < s.workerCount) (hqueue : s.queue = .initiateDump mirror :: queue) :
    PoolStep s (.take []) ({ s with
      queue
      dumps := Function.update s.dumps mirror.jsonRpc (s.dumps mirror.jsonRpc + 1) }.await
        (.dumpComplete mirror 0)) := by
  have hstep := PoolStep.take [] hfree hqueue
  rw [handleTask, initiateDump, if_neg (by simp [hdispatcher]), if_neg hlocal, chunks_nil] at hstep
  exact hstep

/-- A mirror is explored by a health check. -/
theorem take_exploreMirror {mirror : PeerAddr} {queue : List PoolTask}
    (hdispatcher : s.dispatcher = true) (hlocal : s.localTbidHex ≠ "")
    (hfree : s.waiting.card < s.workerCount) (hqueue : s.queue = .exploreMirror mirror :: queue) :
    PoolStep s (.take []) ({ s with queue }.await (.healthCheck mirror)) := by
  have hstep := PoolStep.take [] hfree hqueue
  rw [handleTask, exploreMirror, if_neg (by simp [hdispatcher]), if_neg hlocal] at hstep
  exact hstep

/-- Two peers are found and accept; the dumps to them are begun, and a health check fails. -/
theorem sound_two_mirrors : ∃ s : MirrorPool,
    Run (Guarded PoolStep Safe) (new true 4 "00" 1 3) [.enqueue .findNewMirror, .take [],
      .knownPeers [⟨"a"⟩, ⟨"b"⟩], .announced ∅ ⟨"a"⟩ [⟨"b"⟩] (.ok true),
      .announced ∅ ⟨"b"⟩ [] (.ok true), .take [], .enqueue (.exploreMirror ⟨"a"⟩), .take [],
      .take [], .healthChecked ⟨"a"⟩ (.error "timeout")] s ∧
    s.mirrors = {"a", "b"} ∧ s.dumps "b" = 1 ∧ s.streak "a" = 1 ∧ s.Sound := by
  let s₁ := (new true 4 "00" 1 3).enqueue .findNewMirror
  let s₂ := { s₁ with queue := [] }.await .knownPeers
  let s₃ := { s₂ with waiting := 0 }.await (.announce ∅ ⟨"a"⟩ [⟨"b"⟩])
  let s₄ := { s₃ with waiting := 0 }.announced ∅ ⟨"a"⟩ [⟨"b"⟩] (.ok true)
  let s₅ := { s₄ with waiting := 0 }.announced ∅ ⟨"b"⟩ [] (.ok true)
  let s₆ := { s₅ with
    queue := [.initiateDump ⟨"b"⟩]
    dumps := Function.update s₅.dumps "a" 1 }.await (.dumpComplete ⟨"a"⟩ 0)
  let s₇ := s₆.enqueue (.exploreMirror ⟨"a"⟩)
  let s₈ := { s₇ with
    queue := [.exploreMirror ⟨"a"⟩]
    dumps := Function.update s₇.dumps "b" 1 }.await (.dumpComplete ⟨"b"⟩ 0)
  let s₉ := { s₈ with queue := [] }.await (.healthCheck ⟨"a"⟩)
  let s₁₀ := { s₉ with waiting := s₈.waiting }.healthChecked ⟨"a"⟩ (.error "timeout")
  have hrun : Run (Guarded PoolStep Safe) (new true 4 "00" 1 3) [.enqueue .findNewMirror, .take [],
      .knownPeers [⟨"a"⟩, ⟨"b"⟩], .announced ∅ ⟨"a"⟩ [⟨"b"⟩] (.ok true),
      .announced ∅ ⟨"b"⟩ [] (.ok true), .take [], .enqueue (.exploreMirror ⟨"a"⟩), .take [],
      .take [], .healthChecked ⟨"a"⟩ (.error "timeout")] s₁₀ := by
    refine .cons (t := s₁) ⟨?_, .enqueue _ _⟩ (.cons (t := s₂) ⟨trivial, ?_⟩
      (.cons (t := s₃) ⟨trivial, .knownPeers _ rfl⟩ (.cons (t := s₄) ⟨fun _ ↦ ?_, .announced _ rfl⟩
      (.cons (t := s₅) ⟨fun _ ↦ ?_, .announced _ rfl⟩ (.cons (t := s₆) ⟨trivial, ?_⟩
      (.cons (t := s₇) ⟨?_, .enqueue _ _⟩ (.cons (t := s₈) ⟨trivial, ?_⟩ (.cons (t := s₉)
      ⟨trivial, ?_⟩ (.cons (t := s₁₀) ⟨trivial, .healthChecked _ rfl⟩ (.nil _))))))))))
    · exact ⟨fun _ ↦ PoolTask.noConfusion, fun _ ↦ PoolTask.noConfusion⟩
    · exact PoolStep.take (s := s₁) [] (by decide +kernel) rfl
    · exact ⟨by decide +kernel, by decide +kernel, rfl, by decide +kernel⟩
    · exact ⟨by decide +kernel, by decide +kernel, rfl, by decide +kernel⟩
    · exact take_initiateDump_nil (s := s₅) rfl (by decide) (by decide) rfl
    · exact ⟨fun _ ↦ PoolTask.noConfusion, fun _ ↦ PoolTask.noConfusion⟩
    · exact take_initiateDump_nil (s := s₇) rfl (by decide) (by decide) rfl
    · exact take_exploreMirror (s := s₈) rfl (by decide) (by decide) rfl
  exact ⟨s₁₀, hrun, by decide +kernel, by decide +kernel, by decide +kernel, sound_of_safeRun hrun⟩

/-- Two workers look for mirrors at once: the one announces to `a`, `b` and `c` and is below the
target when it has enrolled `a` and `b`; before `c` answers, the other one enrols `d`. -/
theorem not_sound_two_searches :
    ¬∀ (es : List PoolEvent) (s : MirrorPool),
      Run PoolStep (new true 4 "00" 1 3) es s → s.Sound := by
  intro h
  let search := (new true 4 "00" 1 3).enqueue .findNewMirror
  let s₁ := search.enqueue .findNewMirror
  let s₂ := { s₁ with queue := [.findNewMirror] }.await .knownPeers
  let s₃ := { s₂ with waiting := 0 }.await (.announce ∅ ⟨"a"⟩ [⟨"b"⟩, ⟨"c"⟩])
  let s₄ := { s₃ with queue := [] }.await .knownPeers
  let s₅ := { s₄ with waiting := s₃.waiting }.await (.announce ∅ ⟨"d"⟩ [])
  let other : Multiset Waiting := {.announce ∅ ⟨"d"⟩ []}
  let s₆ := { s₅ with waiting := other }.announced ∅ ⟨"a"⟩ [⟨"b"⟩, ⟨"c"⟩] (.ok true)
  let s₇ := { s₆ with waiting := other }.announced ∅ ⟨"b"⟩ [⟨"c"⟩] (.ok true)
  let s₈ := { s₇ with waiting := {Waiting.announce ∅ ⟨"c"⟩ []} }.announced ∅ ⟨"d"⟩ [] (.ok true)
  let s₉ := { s₈ with waiting := 0 }.announced ∅ ⟨"c"⟩ [] (.ok true)
  have hrun : Run PoolStep (new true 4 "00" 1 3) [.enqueue .findNewMirror,
      .enqueue .findNewMirror, .take [], .knownPeers [⟨"a"⟩, ⟨"b"⟩, ⟨"c"⟩], .take [],
      .knownPeers [⟨"d"⟩], .announced ∅ ⟨"a"⟩ [⟨"b"⟩, ⟨"c"⟩] (.ok true),
      .announced ∅ ⟨"b"⟩ [⟨"c"⟩] (.ok true), .announced ∅ ⟨"d"⟩ [] (.ok true),
      .announced ∅ ⟨"c"⟩ [] (.ok true)] s₉ := by
    refine .cons (.enqueue _ _) (.cons (.enqueue _ _) (.cons (t := s₂) ?_ (.cons (t := s₃) ?_
      (.cons (t := s₄) ?_ (.cons (t := s₅) ?_ (.cons (t := s₆) ?_ (.cons (t := s₇) ?_
      (.cons (t := s₈) ?_ (.cons (t := s₉) ?_ (.nil _))))))))))
    · exact PoolStep.take (s := s₁) [] (Nat.zero_lt_succ _) rfl
    · exact .knownPeers _ rfl
    · exact PoolStep.take (s := s₃) [] (Nat.succ_lt_succ (Nat.zero_lt_succ _)) rfl
    · exact .knownPeers _ rfl
    · exact .announced _ (Multiset.cons_swap _ _ 0)
    · exact .announced _ rfl
    · exact .announced _ (Multiset.cons_swap _ _ 0)
    · exact .announced _ rfl
  exact absurd (h _ _ hrun).count (by decide)

end MirrorPool

end Foretias

import Foretias.Library.Run
import Foretias.Server.SwarmQueries

/-!
# Requests over libp2p

A request that the swarm loop receives is given to a task of its own, and the task's response comes
back through a queue; while it runs, the loop takes commands and events, other tasks run, and other
connections change the server. The steps of a node come in any order.

* `answered_of_request` — the handler of a request runs once at most, and what it makes is sent once
  at most, on the request's own channel; a panic is never answered;
* `rpcCall_eq_local` — a caller over libp2p gets what the method's handler answers at the server.
-/

namespace Foretias

open ErrorState SwarmLoop
open scoped List

/-! ### The handler -/

section Handler

variable (T : RpcText) {σ : Type} (handlers : RpcHandlers σ) (method : String) (params : JsonValue)

/-- The envelope of a request, which has no id. -/
def envelope : JsonValue :=
  .object [("jsonrpc", .string "2.0"), ("method", .string method), ("params", params)]

/-- `CommunerdRpcHandler::handle`. -/
def handleRpc : EStateM PUnit σ (Except TransportError JsonValue) := fun s ↦
  match processRequestFromValue handlers (envelope method params) s with
  | .ok response t => .ok (.ok response.toJson) t
  | .error (.err e) t => .ok (.error (.rpc internalErrorCode.toInt (toString e))) t
  | .error .panic t => .error ⟨⟩ t

/-- What a task sends to the loop. -/
def taskBytes : EStateM PUnit σ Bytes := do
  match ← handleRpc handlers method params with
  | .ok result => pure (asBytes (T.render result))
  | .error _ => pure []

end Handler

/-- A task that is spawned for a request. -/
structure RpcTask where
  /-- The number of the request. -/
  id : InboundId
  /-- The method. -/
  method : String
  /-- The parameters. -/
  params : JsonValue

section Task

variable (T : RpcText) {σ : Type} (handlers : RpcHandlers σ)

/-- The task runs: the response, unless it panics, and the server afterwards. -/
def RpcTask.run (task : RpcTask) (s : σ) : Option Bytes × σ :=
  match taskBytes T handlers task.method task.params s with
  | .ok bytes t => (some bytes, t)
  | .error _ t => (none, t)

/-- The task that the loop spawns for a request with these bytes. -/
def requestTask (id : InboundId) (bytes : Bytes) : Option RpcTask :=
  match T.parseBytes bytes with
  | .error _ => none
  | .ok value => some ⟨id, ((value.get? "method").bind JsonValue.asStr?).getD "",
      (value.get? "params").getD .null⟩

end Task

/-! ### What a caller gets -/

/-- How a caller's wait for its reply ends. -/
inductive ReplyWait
  | replied (result : Except TransportError JsonValue)
  | dropped
  | elapsed

/-- `Libp2pTransport::rpc_call`. If there is a swarm, `send` gives it the request for a peer, unless
it has ended, and waits for the reply. -/
def Libp2pTransport.rpcCall (swarm : Option (PeerId → JsonValue → Option ReplyWait))
    (peerId : Option PeerId) (method : String) (params : JsonValue) :
    Except TransportError JsonValue :=
  match swarm with
  | none => .error (.connect "libp2p swarm not active")
  | some send =>
    match peerId with
    | none => .error (.unsupported "peer has no libp2p PeerId")
    | some peer =>
      match send peer (rpcRequest method params) with
      | none => .error (.connect "swarm channel closed")
      | some (.replied result) => result
      | some .dropped => .error (.connect "oneshot dropped")
      | some .elapsed => .error .timeout

/-- An error of a call as a transport reports it. -/
def PtPError.toTransport : PtPError → TransportError
  | .connect message => .connect message
  | .timeout => .timeout
  | .noise message => .connect message
  | .decode message => .decode message
  | .rpc code message => .rpc code.toInt message

section Outcome

variable {T : RpcText} {σ : Type} {handlers : RpcHandlers σ} {method : String} {params : JsonValue}
  {s t : σ}

/-- A response that is read back is decoded to what it says. -/
theorem decodeResponse_toJson {response : JsonRpcResponse} {bytes : Bytes}
    (hparse : T.parseBytes bytes = .ok response.toJson) :
    decodeResponse T bytes = response.outcome.mapError PtPError.toTransport := by
  rw [decodeResponse, hparse]
  obtain ⟨version, result, error, id, dormant, rfl, hone⟩ := response
  rcases error with - | e <;> rcases result with - | result
  · cases hone
  · rfl
  · show Except.error (TransportError.rpc (Int32.toInt _) e.message) =
      .error (.rpc e.code.toInt e.message)
    rw [← toInt32_asI64?_ofInt32 e.code]
    rfl
  · cases hone

theorem processRequestFromValue_envelope :
    processRequestFromValue handlers (envelope method params) =
      (RpcMethod.ofName? method).elim
        (pure (.failure none methodNotFoundCode s!"method '{method}' not found"))
        fun m ↦ orThrow (handlers m params) .panic := by
  have hversion : ((envelope method params).get? "jsonrpc").bind JsonValue.asStr? = some "2.0" :=
    rfl
  have hname : ((envelope method params).get? "method").bind JsonValue.asStr? = some method := rfl
  rw [processRequestFromValue, hversion]
  dsimp only
  rw [if_neg (not_not_intro rfl), hname]
  dsimp only
  rcases RpcMethod.ofName? method with - | m <;> rfl

/-- The handler makes of a request what the local call does. -/
theorem localCall_of_handleRpc {result : Except TransportError JsonValue}
    (h : handleRpc handlers method params s = .ok result t) :
    ∃ response : JsonRpcResponse, result = .ok response.toJson ∧
      localCall handlers method params s = .ok response.outcome t := by
  rw [handleRpc, processRequestFromValue_envelope] at h
  rw [localCall]
  rcases hmethod : RpcMethod.ofName? method with - | m
  · rw [hmethod, Option.elim_none] at h
    obtain ⟨rfl, rfl⟩ := EStateM.Result.ok.inj h
    exact ⟨_, rfl, rfl⟩
  · rw [hmethod, Option.elim_some] at h
    rcases hhandler : handlers m params s with ⟨response, u⟩ | ⟨e, u⟩
    · rw [orThrow_of_ok hhandler] at h
      obtain ⟨rfl, rfl⟩ := EStateM.Result.ok.inj h
      exact ⟨response, rfl, bind_of_ok hhandler⟩
    · simp only [orThrow, hhandler] at h
      cases h

end Outcome

/-! ### The node -/

/-- The swarm loop of a server with a handler, and the tasks it has started. -/
structure SwarmNode (σ : Type) where
  /-- The loop. -/
  loop : SwarmLoop
  /-- The tasks that have not run yet. -/
  tasks : List RpcTask
  /-- `inbound_res_rx`. -/
  results : List (InboundId × Bytes)
  /-- The server. -/
  server : σ

namespace SwarmNode

/-- The node of a server when the loop is started. -/
def start {σ : Type} (s : σ) : SwarmNode σ := ⟨SwarmLoop.start, [], [], s⟩

/-- What happens at a node. -/
inductive RpcEvent (σ : Type)
  /-- The loop takes a command. -/
  | command (c : Command)
  /-- The loop takes an event. -/
  | event (e : Event)
  /-- A task runs in a state of the server and makes a response, or panics. -/
  | handled (task : RpcTask) (s : σ) (bytes : Option Bytes)
  /-- The loop takes the oldest response. -/
  | answered (id : InboundId) (bytes : Bytes)
  /-- The rest of the server does something. -/
  | others

/-- The task that an action of the loop spawns. -/
def spawned : Action → Option RpcTask
  | .spawn id method params => some ⟨id, method, params⟩
  | _ => none

variable (T : RpcText) {σ : Type} (handlers : RpcHandlers σ)

/-- The loop takes an input. -/
def take (n : SwarmNode σ) (i : Input) : SwarmNode σ :=
  { n with
    loop := (n.loop.turn T true i).1
    tasks := n.tasks ++ (n.loop.turn T true i).2.filterMap spawned }

/-- A step of a node. -/
inductive NodeStep : SwarmNode σ → RpcEvent σ → SwarmNode σ → Prop
  | command (n : SwarmNode σ) (c : Command) : NodeStep n (.command c) (n.take T (.command c))
  | event (n : SwarmNode σ) (e : Event) : NodeStep n (.event e) (n.take T (.event e))
  | handled {n : SwarmNode σ} {pre post : List RpcTask} {task : RpcTask}
      (htasks : n.tasks = pre ++ task :: post) :
      NodeStep n (.handled task n.server (task.run T handlers n.server).1)
        { n with
          tasks := pre ++ post
          results := n.results ++
            (task.run T handlers n.server).1.toList.map (task.id, ·)
          server := (task.run T handlers n.server).2 }
  | answered {n : SwarmNode σ} {id : InboundId} {bytes : Bytes}
      {rest : List (InboundId × Bytes)} (hresults : n.results = (id, bytes) :: rest) :
      NodeStep n (.answered id bytes)
        { n with loop := (n.loop.turn T true (.inboundResult id bytes)).1, results := rest }
  | others (n : SwarmNode σ) (t : σ) : NodeStep n .others { n with server := t }

/-! ### What a trace tells of a request -/

namespace RpcEvent

/-- What the loop takes. -/
def toInput : RpcEvent σ → Option Input
  | command c => some (.command c)
  | event e => some (.event e)
  | answered id bytes => some (.inboundResult id bytes)
  | _ => none

/-- A request is received under a number. -/
def Asks (id : InboundId) : RpcEvent σ → Prop
  | event e => SwarmLoop.Asks id (.event e)
  | _ => False

/-- The task that is spawned under a number. -/
def taskFor (id : InboundId) : RpcEvent σ → Option RpcTask
  | event (.request id' bytes _ _) => if id' = id then requestTask T id' bytes else none
  | _ => none

/-- The task that runs under a number, with the state and the response. -/
def handledFor (id : InboundId) : RpcEvent σ → Option (RpcTask × σ × Option Bytes)
  | handled task s bytes => if task.id = id then some (task, s, bytes) else none
  | _ => none

/-- The response that the loop takes under a number. -/
def answeredFor (id : InboundId) : RpcEvent σ → Option Bytes
  | answered id' bytes => if id' = id then some bytes else none
  | _ => none

end RpcEvent

open RpcEvent

/-- What the loop of a node does. -/
def log (events : List (RpcEvent σ)) : List Action :=
  SwarmLoop.start.log T true (events.filterMap toInput)

/-- What it sends for the request with a number. -/
def responses (events : List (RpcEvent σ)) (id : InboundId) : List Action :=
  (log T events).filter fun a ↦ keyOf a = some (.inbound id)

variable {T handlers} {n n' : SwarmNode σ} {e : RpcEvent σ} {events : List (RpcEvent σ)}
  {id : InboundId}

/-- The loop spawns a task for a request that it parses, and no other. -/
theorem spawned_turn (s : SwarmLoop) (i : Input) : (s.turn T true i).2.filterMap spawned =
    match i with
    | .event (.request id bytes _ _) => (requestTask T id bytes).toList
    | _ => [] := by
  have hnone : ∀ a : Action, a.Answers → spawned a = none := by
    intro a ha
    cases a with
    | spawn id method params => exact absurd ha fun h ↦ h
    | _ => rfl
  cases i with
  | inboundResult id bytes => exact filterMap_eq_nil_of_answers hnone answers_of_mem_inboundResult
  | command c =>
    cases c with
    | putRecord key record started => cases started <;> rfl
    | enterDormancy connected =>
      refine List.filterMap_eq_nil_iff.2 fun a ha ↦ ?_
      obtain ha | ha := List.mem_append.1 ha
      all_goals
        obtain ⟨_, -, rfl⟩ := List.mem_map.1 ha
        rfl
    | publishProbity report ns => cases report <;> rfl
    | publishHeartbeat heartbeat ns => cases heartbeat <;> rfl
    | _ => rfl
  | event e =>
    cases e with
    | request id bytes channel peer =>
      simp only [turn, onEvent, requestTask]
      cases T.parseBytes bytes <;> rfl
    | _ => exact filterMap_eq_nil_of_answers hnone (answers_of_mem_onEvent fun h ↦ h)

/-- The tasks of a request that have not run. -/
def pendingFor (n : SwarmNode σ) (id : InboundId) : List RpcTask :=
  n.tasks.filter fun task ↦ task.id = id

theorem pendingFor_take (n : SwarmNode σ) (i : Input) (id : InboundId) :
    (n.take T i).pendingFor id = n.pendingFor id ++
      match i with
      | .event e => (taskFor T id (.event e : RpcEvent σ)).toList
      | _ => [] := by
  rw [pendingFor, take, List.filter_append, spawned_turn]
  refine congrArg _ ?_
  cases i with
  | event e =>
    cases e with
    | request id' bytes channel peer =>
      show List.filter _ (requestTask T id' bytes).toList =
        (if id' = id then requestTask T id' bytes else none).toList
      rw [requestTask]
      rcases T.parseBytes bytes with err | value
      · split_ifs <;> rfl
      · by_cases hid : id' = id
        · rw [if_pos hid]
          exact List.filter_cons_of_pos (decide_eq_true hid)
        · rw [if_neg hid]
          exact List.filter_cons_of_neg (by simpa using hid)
    | _ => rfl
  | _ => rfl

/-- A step moves a task from those that have not run to those that have, or adds one. -/
theorem NodeStep.tasks (h : NodeStep T handlers n e n') (id : InboundId) :
    n'.pendingFor id ++ (handledFor id e).toList.map Prod.fst ~
      n.pendingFor id ++ (taskFor T id e).toList := by
  cases h with
  | command c =>
    rw [pendingFor_take]
    exact (List.append_nil _).symm ▸ .refl _
  | event e =>
    rw [pendingFor_take]
    exact (List.append_nil _).symm ▸ .refl _
  | @handled pre post task htasks =>
    show (pre ++ post).filter _ ++ (handledFor id (.handled task n.server _)).toList.map _ ~ _
    rw [pendingFor, htasks, List.filter_append, List.filter_append, handledFor, List.append_assoc]
    show _ ~ _ ++ ((task :: post).filter _) ++ []
    rw [List.append_nil]
    refine List.Perm.append_left _ ?_
    by_cases hid : task.id = id
    · rw [if_pos hid, List.filter_cons, if_pos (decide_eq_true hid)]
      exact List.perm_append_comm
    · rw [if_neg hid, List.filter_cons, if_neg (by simpa using hid)]
      exact (List.append_nil _).symm ▸ .refl _
  | answered hresults => exact .refl _
  | others t => exact .refl _

/-- A step puts a response into the queue or takes one out. -/
theorem NodeStep.results (h : NodeStep T handlers n e n') (id : InboundId) :
    EntryTable.under id n.results ++ (handledFor id e).toList.filterMap (·.2.2) =
      (answeredFor id e).toList ++ EntryTable.under id n'.results := by
  cases h with
  | command c => exact List.append_nil _
  | event e => exact List.append_nil _
  | @handled pre post task htasks =>
    rw [EntryTable.under_append, handledFor]
    refine congrArg _ ?_
    by_cases hid : task.id = id
    · rw [if_pos hid, ← hid, EntryTable.under_map_self]
      rcases (task.run T handlers n.server).1 with - | bytes <;> rfl
    · rw [if_neg hid, EntryTable.under_map_of_ne hid]
      rfl
  | @answered id' bytes rest hresults =>
    rw [hresults, answeredFor]
    by_cases hid : id' = id
    · subst hid
      rw [EntryTable.under_cons_self, if_pos rfl]
      exact List.append_nil _
    · rw [EntryTable.under_cons_of_ne hid, if_neg hid]
      exact List.append_nil _
  | others t => exact List.append_nil _

theorem filterMap_cons_eq {α β : Type} (f : α → Option β) (a : α) (as : List α) :
    (a :: as).filterMap f = (f a).toList ++ as.filterMap f := by
  rw [List.filterMap_eq_flatMap_toList, List.flatMap_cons, ← List.filterMap_eq_flatMap_toList]

/-- The tasks of a request after a run. -/
theorem tasks_of_run (h : Run (NodeStep T handlers) n events n') (id : InboundId) :
    n'.pendingFor id ++ (events.filterMap (handledFor id)).map Prod.fst ~
      n.pendingFor id ++ events.filterMap (taskFor T id) := by
  induction h with
  | nil => exact .refl _
  | @cons n m n' e events hstep hrun ih =>
    rw [filterMap_cons_eq, filterMap_cons_eq, List.map_append]
    calc n'.pendingFor id ++ ((handledFor id e).toList.map Prod.fst ++
            (events.filterMap (handledFor id)).map Prod.fst)
        ~ (n'.pendingFor id ++ (events.filterMap (handledFor id)).map Prod.fst) ++
            (handledFor id e).toList.map Prod.fst := by
          rw [List.append_assoc]
          exact List.perm_append_comm.append_left _
      _ ~ (m.pendingFor id ++ events.filterMap (taskFor T id)) ++
            (handledFor id e).toList.map Prod.fst := ih.append_right _
      _ ~ (m.pendingFor id ++ (handledFor id e).toList.map Prod.fst) ++
            events.filterMap (taskFor T id) := by
          rw [List.append_assoc, List.append_assoc]
          exact List.perm_append_comm.append_left _
      _ ~ (n.pendingFor id ++ (taskFor T id e).toList) ++ events.filterMap (taskFor T id) :=
        (hstep.tasks id).append_right _
      _ ~ n.pendingFor id ++ ((taskFor T id e).toList ++ events.filterMap (taskFor T id)) := by
        rw [List.append_assoc]

/-- The responses to a request after a run. -/
theorem results_of_run (h : Run (NodeStep T handlers) n events n') (id : InboundId) :
    EntryTable.under id n.results ++ (events.filterMap (handledFor id)).filterMap (·.2.2) =
      events.filterMap (answeredFor id) ++ EntryTable.under id n'.results := by
  induction h with
  | nil => exact List.append_nil _
  | @cons n m n' e events hstep hrun ih =>
    rw [filterMap_cons_eq, filterMap_cons_eq, List.filterMap_append, ← List.append_assoc,
      hstep.results id, List.append_assoc, ih, List.append_assoc]

/-- A task runs as its handler does. -/
theorem handledFor_of_run (h : Run (NodeStep T handlers) n events n') {task : RpcTask} {s : σ}
    {bytes : Option Bytes} (hmem : (task, s, bytes) ∈ events.filterMap (handledFor id)) :
    bytes = (task.run T handlers s).1 := by
  obtain ⟨e, he, hfor⟩ := List.mem_filterMap.1 hmem
  obtain ⟨-, u, v, -, -, -, hstep, -⟩ := h.exists_step_of_mem he
  cases hstep with
  | handled htasks =>
    obtain ⟨-, heq⟩ := Option.ite_none_right_eq_some.1 hfor
    obtain ⟨rfl, rfl, rfl⟩ := by simpa using heq
    rfl
  | _ => cases hfor

/-! ### A request and its response -/

variable {s₀ : σ} {pre post : List (RpcEvent σ)} {bytes : Bytes} {channel : ℕ} {peer : PeerId}
  {task : RpcTask}

theorem taskFor_of_not_asks (h : ¬e.Asks id) : taskFor T id e = none := by
  cases e with
  | event e =>
    cases e with
    | request id' bytes channel peer => exact if_neg h
    | _ => rfl
  | _ => rfl

/-- Of a request that was not received, nothing is told. -/
theorem untouched_of_run (hrun : Run (NodeStep T handlers) (start s₀) pre n)
    (hpre : ∀ e ∈ pre, ¬e.Asks id) : pre.filterMap (answeredFor id) = [] := by
  have htasks := tasks_of_run hrun id
  rw [List.filterMap_eq_nil_iff.2 fun e he ↦ taskFor_of_not_asks (hpre e he)] at htasks
  obtain ⟨-, hhandled⟩ := List.append_eq_nil_iff.1 (List.perm_nil.1 htasks)
  have hresults := results_of_run hrun id
  rw [List.map_eq_nil_iff.1 hhandled] at hresults
  exact (List.append_eq_nil_iff.1 hresults.symm).1

theorem findSome?_toInput (events : List (RpcEvent σ)) (id : InboundId) :
    (events.filterMap toInput).findSome? (resultFor id) = events.findSome? (answeredFor id) := by
  induction events with
  | nil => rfl
  | cons e events ih =>
    cases e with
    | answered id' bytes =>
      show ((Input.inboundResult id' bytes :: events.filterMap toInput).findSome? (resultFor id)) =
        _
      rw [List.findSome?_cons, List.findSome?_cons, ih]
      rfl
    | _ => exact ih

/-- The loop sends the first response that it takes. -/
theorem responses_eq (htask : requestTask T id bytes = some task) (hpre : ∀ e ∈ pre, ¬e.Asks id)
    (hpost : ∀ e ∈ post, ¬e.Asks id) :
    responses T (pre ++ .event (.request id bytes channel peer) :: post) id =
      ((post.filterMap (answeredFor id)).head?.map (.sendResponse id channel)).toList := by
  have hparse : (T.parseBytes bytes).isOk = true := by
    rcases hparsed : T.parseBytes bytes with err | value
    · rw [requestTask, hparsed] at htask
      cases htask
    · rfl
  have hasks : ∀ {es : List (RpcEvent σ)}, (∀ e ∈ es, ¬e.Asks id) →
      ∀ i ∈ es.filterMap toInput, ¬SwarmLoop.Asks id i := by
    intro es hes i hi
    obtain ⟨e, he, hinput⟩ := List.mem_filterMap.1 hi
    cases e with
    | command c =>
      obtain rfl := Option.some_inj.1 hinput
      exact fun h ↦ h
    | event e =>
      obtain rfl := Option.some_inj.1 hinput
      exact hes _ he
    | answered id' bytes =>
      obtain rfl := Option.some_inj.1 hinput
      exact fun h ↦ h
    | _ => cases hinput
  have hinputs : (pre ++ .event (.request id bytes channel peer) :: post).filterMap toInput =
      pre.filterMap toInput ++ .event (.request id bytes channel peer) :: post.filterMap toInput :=
    List.filterMap_append
  rw [responses, log, hinputs, responses_of_request hparse (hasks hpre) (hasks hpost),
    findSome?_toInput, List.head?_filterMap]

/-- The task of a request is either not yet run or was run once, as its handler does. -/
theorem handled_of_request
    (hrun : Run (NodeStep T handlers) (start s₀)
      (pre ++ .event (.request id bytes channel peer) :: post) n)
    (htask : requestTask T id bytes = some task) (hpre : ∀ e ∈ pre, ¬e.Asks id)
    (hpost : ∀ e ∈ post, ¬e.Asks id) :
    (n.pendingFor id = [task] ∧
        (pre ++ .event (.request id bytes channel peer) :: post).filterMap (handledFor id) = []) ∨
      ∃ s, n.pendingFor id = [] ∧
        (pre ++ .event (.request id bytes channel peer) :: post).filterMap (handledFor id) =
          [(task, s, (task.run T handlers s).1)] := by
  have hspawned : (pre ++ .event (.request id bytes channel peer) :: post).filterMap
      (taskFor T id) = [task] := by
    have hself : taskFor T id (.event (.request id bytes channel peer) : RpcEvent σ) = some task :=
      (if_pos rfl).trans htask
    rw [List.filterMap_append, List.filterMap_cons_some hself,
      List.filterMap_eq_nil_iff.2 fun e he ↦ taskFor_of_not_asks (hpre e he),
      List.filterMap_eq_nil_iff.2 fun e he ↦ taskFor_of_not_asks (hpost e he)]
    rfl
  have htasks := tasks_of_run hrun id
  rw [hspawned] at htasks
  obtain ⟨hpending, hhandled⟩ | ⟨hpending, hhandled⟩ :=
    List.append_eq_singleton_iff.1 (List.perm_singleton.1 htasks)
  · refine .inr ?_
    obtain ⟨⟨task', s, r⟩, hone, heq⟩ := List.map_eq_singleton_iff.1 hhandled
    obtain rfl : task = task' := heq.symm
    obtain rfl := handledFor_of_run hrun (hone ▸ List.mem_singleton_self _)
    exact ⟨s, hpending, hone⟩
  · exact .inl ⟨hpending, List.map_eq_nil_iff.1 hhandled⟩

/-- The results of a request's task are those that were taken after it, and those in the queue. -/
theorem results_of_request
    (hrun : Run (NodeStep T handlers) (start s₀)
      (pre ++ .event (.request id bytes channel peer) :: post) n) (hpre : ∀ e ∈ pre, ¬e.Asks id) :
    ((pre ++ .event (.request id bytes channel peer) :: post).filterMap
        (handledFor id)).filterMap (·.2.2) =
      post.filterMap (answeredFor id) ++ EntryTable.under id n.results := by
  have hanswered : (pre ++ .event (.request id bytes channel peer) :: post).filterMap
      (answeredFor id) = post.filterMap (answeredFor id) := by
    obtain ⟨m, hprerun, -⟩ := Run.append_iff.1 hrun
    rw [List.filterMap_append, untouched_of_run hprerun hpre]
    rfl
  rw [← hanswered]
  exact results_of_run hrun id

/-- **A request is answered once, by its own handler.** libp2p gives each request that is received a
number of its own. At any time, the request's task has not run, and nothing was sent for it; or it
has run once, in some state of the server, and the response that it made is sent or in the queue,
once, for the channel that the request came with. If it panicked, there is none. -/
theorem answered_of_request (T : RpcText) (handlers : RpcHandlers σ) {s₀ : σ}
    {pre post : List (RpcEvent σ)} {id : InboundId} {bytes : Bytes} {channel : ℕ} {peer : PeerId}
    {task : RpcTask} {n : SwarmNode σ}
    (hrun : Run (NodeStep T handlers) (start s₀)
      (pre ++ .event (.request id bytes channel peer) :: post) n)
    (htask : requestTask T id bytes = some task) (hpre : ∀ e ∈ pre, ¬e.Asks id)
    (hpost : ∀ e ∈ post, ¬e.Asks id) :
    let events := pre ++ .event (.request id bytes channel peer) :: post
    (n.pendingFor id = [task] ∧ events.filterMap (handledFor id) = [] ∧
        responses T events id = []) ∨
      ∃ s, n.pendingFor id = [] ∧
        events.filterMap (handledFor id) = [(task, s, (task.run T handlers s).1)] ∧
        responses T events id ++
            (EntryTable.under id n.results).map (.sendResponse id channel) =
          (task.run T handlers s).1.toList.map (.sendResponse id channel) := by
  intro events
  have hresults := results_of_request hrun hpre
  have hresponses : responses T events id = _ := responses_eq htask hpre hpost
  rcases handled_of_request hrun htask hpre hpost with ⟨hpending, hnone⟩ | ⟨s, hpending, hone⟩
  · rw [hnone] at hresults
    refine .inl ⟨hpending, hnone, ?_⟩
    rw [hresponses, (List.append_eq_nil_iff.1 hresults.symm).1]
    rfl
  · refine .inr ⟨s, hpending, hone, ?_⟩
    rw [hone] at hresults
    rw [hresponses]
    rcases hr : (task.run T handlers s).1 with - | b
    · rw [hr] at hresults
      obtain ⟨hnone, hqueue⟩ := List.append_eq_nil_iff.1 hresults.symm
      rw [hnone, hqueue]
      rfl
    · rw [hr] at hresults
      obtain ⟨hnone, hqueue⟩ | ⟨hone, hqueue⟩ := List.append_eq_singleton_iff.1 hresults.symm
      · rw [hnone, hqueue]
        rfl
      · rw [hone, hqueue]
        rfl

/-- A response that is sent is what the request's handler made of it. -/
theorem exists_of_sendResponse
    (hrun : Run (NodeStep T handlers) (start s₀)
      (pre ++ .event (.request id bytes channel peer) :: post) n)
    (htask : requestTask T id bytes = some task) (hpre : ∀ e ∈ pre, ¬e.Asks id)
    (hpost : ∀ e ∈ post, ¬e.Asks id) {response : Bytes}
    (hsent : .sendResponse id channel response ∈
      log T (pre ++ .event (.request id bytes channel peer) :: post)) :
    ∃ s t, (task, s, some response) ∈
        (pre ++ .event (.request id bytes channel peer) :: post).filterMap (handledFor id) ∧
      taskBytes T handlers task.method task.params s = .ok response t := by
  have hmem : Action.sendResponse id channel response ∈ responses T _ id :=
    List.mem_filter.2 ⟨hsent, decide_eq_true rfl⟩
  rw [responses_eq htask hpre hpost] at hmem
  obtain ⟨b, hfirst, heq⟩ := Option.map_eq_some_iff.1 (Option.mem_toList.1 hmem)
  obtain ⟨-, -, rfl⟩ := Action.sendResponse.inj heq
  have hresult := List.mem_append_left (EntryTable.under id n.results)
    (List.mem_of_mem_head? hfirst)
  rw [← results_of_request hrun hpre] at hresult
  obtain ⟨⟨task', s, result⟩, hhandled, hsome⟩ := List.mem_filterMap.1 hresult
  obtain rfl : result = some b := hsome
  rcases handled_of_request hrun htask hpre hpost with ⟨-, hnone⟩ | ⟨s', -, hone⟩
  · rw [hnone] at hhandled
    exact absurd hhandled List.not_mem_nil
  · have hself := hhandled
    rw [hone] at hself
    obtain ⟨rfl, hself⟩ := Prod.mk.inj (List.mem_singleton.1 hself)
    obtain ⟨rfl, hrun⟩ := Prod.mk.inj hself
    rw [RpcTask.run] at hrun
    rcases htaskrun : taskBytes T handlers task'.method task'.params s with ⟨b', t⟩ | ⟨e, t⟩
    · rw [htaskrun] at hrun
      obtain rfl := Option.some_inj.1 hrun
      exact ⟨s, t, hhandled, htaskrun⟩
    · rw [htaskrun] at hrun
      cases hrun

/-- **A call over libp2p is a local call.** The caller's loop and the server's node each go through
any run of their own, and libp2p hands the caller's loop only responses that the server has sent for
the request. Then a caller of `rpc_call` gets what the method's handler answers, in some state of
the server in which it ran, be it a result or an error; or it is told that there was no answer. -/
theorem rpcCall_eq_local {method : String} {params : JsonValue}
    (hparse : T.parseBytes (asBytes (T.render (rpcRequest method params))) =
      .ok (rpcRequest method params))
    (hread : ∀ s t result, handleRpc handlers method params s = .ok (.ok result) t →
      T.parseBytes (asBytes (T.render result)) = .ok result)
    -- the server
    (hrun : Run (NodeStep T handlers) (start s₀)
      (pre ++ .event (.request id (asBytes (T.render (rpcRequest method params))) channel peer) ::
        post) n)
    (hpre : ∀ e ∈ pre, ¬e.Asks id) (hpost : ∀ e ∈ post, ¬e.Asks id)
    -- the caller
    {hasHandler : Bool} {before after : List Input} {server : PeerId} {caller : ℕ}
    {out : OutboundId} (hbefore : ∀ i ∈ before, ¬Sends out i) (hafter : ∀ i ∈ after, ¬Sends out i)
    (hnetwork : ∀ response, .event (.response out response) ∈ after →
      .sendResponse id channel response ∈ log T (pre ++ .event (.request id
        (asBytes (T.render (rpcRequest method params))) channel peer) :: post))
    {send : PeerId → JsonValue → Option ReplyWait}
    (hsend : ∀ result, send server (rpcRequest method params) = some (.replied result) →
      .reply out caller result ∈ SwarmLoop.start.log T hasHandler (before ++
        .command (.requestResponse server (rpcRequest method params) caller out) :: after)) :
    (∃ e, Libp2pTransport.rpcCall (some send) (some server) method params = .error e ∧
        (e = .timeout ∨ ∃ text, e = .connect text)) ∨
      ∃ s t answer bytes, (⟨id, method, params⟩, s, some bytes) ∈
          (pre ++ .event (.request id (asBytes (T.render (rpcRequest method params))) channel
            peer) :: post).filterMap (handledFor id) ∧
        localCall handlers method params s = .ok answer t ∧
        Libp2pTransport.rpcCall (some send) (some server) method params =
          answer.mapError PtPError.toTransport := by
  rcases hwait : send server (rpcRequest method params) with - | wait
  · exact .inl ⟨_, by rw [Libp2pTransport.rpcCall, hwait], .inr ⟨_, rfl⟩⟩
  cases wait with
  | dropped => exact .inl ⟨_, by rw [Libp2pTransport.rpcCall, hwait], .inr ⟨_, rfl⟩⟩
  | elapsed => exact .inl ⟨_, by rw [Libp2pTransport.rpcCall, hwait], .inl rfl⟩
  | replied result =>
    have hcall : Libp2pTransport.rpcCall (some send) (some server) method params = result := by
      rw [Libp2pTransport.rpcCall, hwait]
    have hreply := (List.mem_filter (p := fun a ↦ keyOf a = some (.rpc out))).2
      ⟨hsend result hwait, decide_eq_true rfl⟩
    rw [sent_of_request hbefore hafter] at hreply
    obtain ⟨i, hi, hfirst⟩ := List.exists_of_findSome?_eq_some (Option.mem_toList.1 hreply)
    obtain ⟨result', hanswer, heq⟩ := Option.map_eq_some_iff.1 hfirst
    obtain ⟨-, -, rfl⟩ := Action.reply.inj heq
    rw [hcall]
    unfold answerTo at hanswer
    split at hanswer
    · rename_i out' response
      obtain ⟨rfl, hdecoded⟩ := Option.ite_none_right_eq_some.1 hanswer
      have htask : requestTask T id (asBytes (T.render (rpcRequest method params))) =
          some ⟨id, method, params⟩ := by
        rw [requestTask, hparse]
        rfl
      obtain ⟨s, t, hmem, hbytes⟩ :=
        exists_of_sendResponse hrun htask hpre hpost (hnetwork response hi)
      obtain ⟨handled, u, hhandle, hrest⟩ := bind_eq_ok.1 hbytes
      obtain ⟨r, rfl, hlocal⟩ := localCall_of_handleRpc hhandle
      obtain ⟨rfl, rfl⟩ := pure_eq_ok.1 hrest
      refine .inr ⟨s, t, r.outcome, _, hmem, hlocal, ?_⟩
      rw [← Option.some_inj.1 hdecoded]
      exact decodeResponse_toJson (hread s t _ hhandle)
    · rename_i out' failure
      obtain ⟨-, hfailure⟩ := Option.ite_none_right_eq_some.1 hanswer
      obtain rfl := Option.some_inj.1 hfailure
      refine .inl ⟨_, rfl, ?_⟩
      cases failure with
      | timeout => exact .inl rfl
      | other text => exact .inr ⟨text, rfl⟩
    · cases hanswer

/-! ### A concrete node -/

/-- `serde_json` for a request to `ping` and its response. -/
def pingPong : RpcText where
  parse := RpcText.pings.parse
  parseBytes bs :=
    if bs = asBytes pingText then .ok (rpcRequest "ping" (.object []))
    else if bs = asBytes pongText then .ok pong.toJson
    else .error "expected value at line 1 column 1"
  render := RpcText.pings.render

/-- The task of a request to `ping`. -/
def pingTask : RpcTask := ⟨3, "ping", .object []⟩

/-- What happens after a request to `ping`. -/
def pingEvents : List (RpcEvent ℕ) :=
  [.handled pingTask 0 (some (asBytes pongText)), .answered 3 (asBytes pongText)]

/-- A request to `ping` is received and answered. -/
def pingTrace : List (RpcEvent ℕ) :=
  [] ++ .event (.request 3 (asBytes (pingPong.render (rpcRequest "ping" (.object [])))) 9
    Communerd.zeroPeer) :: pingEvents

/-- The node afterwards. -/
def pingedNode : SwarmNode ℕ :=
  ⟨SwarmLoop.start.run pingPong true (pingTrace.filterMap toInput), [], [], 1⟩

theorem parseBytes_ping :
    pingPong.parseBytes (asBytes (pingPong.render (rpcRequest "ping" (.object [])))) =
      .ok (rpcRequest "ping" (.object [])) := by
  show (if asBytes pingText = asBytes pingText then Except.ok (rpcRequest "ping" (.object []))
    else if asBytes pingText = asBytes pongText then .ok pong.toJson
    else .error "expected value at line 1 column 1") = _
  exact if_pos rfl

theorem parseBytes_pong : pingPong.parseBytes (asBytes (pingPong.render pong.toJson)) =
    .ok pong.toJson := by
  show (if asBytes pongText = asBytes pingText then Except.ok (rpcRequest "ping" (.object []))
    else if asBytes pongText = asBytes pongText then .ok pong.toJson
    else .error "expected value at line 1 column 1") = _
  rw [if_neg (by decide +kernel), if_pos rfl]

theorem requestTask_ping :
    requestTask pingPong 3 (asBytes (pingPong.render (rpcRequest "ping" (.object [])))) =
      some pingTask := by
  rw [requestTask, parseBytes_ping]
  rfl

theorem not_asks_pingEvents : ∀ e ∈ pingEvents, ¬e.Asks 3 := by simp [pingEvents, RpcEvent.Asks]

theorem run_pingTrace :
    Run (NodeStep pingPong pingHandlers) (start 0) pingTrace pingedNode := by
  have htasks : ((start 0).take pingPong (.event (.request 3
      (asBytes (pingPong.render (rpcRequest "ping" (.object [])))) 9
        Communerd.zeroPeer))).tasks = [] ++ [pingTask] := by
    rw [take, spawned_turn]
    dsimp only
    rw [requestTask_ping]
    rfl
  exact .cons (.event _ _) (.cons (.handled htasks) (.cons (.answered rfl) (.nil _)))

theorem answered_of_request_ping :
    (pingedNode.pendingFor 3 = [pingTask] ∧ pingTrace.filterMap (handledFor 3) = [] ∧
        responses pingPong pingTrace 3 = []) ∨
      ∃ s, pingedNode.pendingFor 3 = [] ∧
        pingTrace.filterMap (handledFor 3) =
          [(pingTask, s, (pingTask.run pingPong pingHandlers s).1)] ∧
        responses pingPong pingTrace 3 ++
            (EntryTable.under 3 pingedNode.results).map (.sendResponse 3 9) =
          (pingTask.run pingPong pingHandlers s).1.toList.map (.sendResponse 3 9) :=
  answered_of_request pingPong pingHandlers run_pingTrace requestTask_ping
    (fun _ he ↦ absurd he List.not_mem_nil) not_asks_pingEvents

/-- The response is sent. -/
theorem sendResponse_mem_pingTrace :
    .sendResponse 3 9 (asBytes pongText) ∈ log pingPong pingTrace := by
  have hmem : Action.sendResponse 3 9 (asBytes pongText) ∈ responses pingPong pingTrace 3 := by
    have heq : responses pingPong pingTrace 3 = _ :=
      responses_eq requestTask_ping (fun e he ↦ absurd he List.not_mem_nil) not_asks_pingEvents
    exact heq ▸ List.mem_singleton_self _
  exact (List.mem_filter.1 hmem).1

/-- What the caller's loop takes after the request. -/
def pingedInputs : List Input := [.event (.response 5 (asBytes pongText))]

theorem not_sends_pingedInputs : ∀ i ∈ pingedInputs, ¬Sends 5 i := by simp [pingedInputs, Sends]

/-- The caller waits for the reply. -/
def pingWait (_ : PeerId) (_ : JsonValue) : Option ReplyWait :=
  some (.replied (.ok (.object [("pong", .bool true)])))

/-- The caller's loop replies. -/
theorem reply_mem_pingedInputs (result : Except TransportError JsonValue)
    (h : pingWait Communerd.zeroPeer (rpcRequest "ping" (.object [])) = some (.replied result)) :
    .reply 5 7 result ∈ SwarmLoop.start.log pingPong true
      ([] ++ .command (.requestResponse Communerd.zeroPeer (rpcRequest "ping" (.object [])) 7 5) ::
        pingedInputs) := by
  have hparse : pingPong.parseBytes (asBytes pongText) = .ok pong.toJson := parseBytes_pong
  have hdecoded : decodeResponse pingPong (asBytes pongText) =
      .ok (.object [("pong", .bool true)]) := decodeResponse_toJson hparse
  rw [← ReplyWait.replied.inj (Option.some_inj.1 h), ← hdecoded]
  exact List.mem_cons_of_mem _ (List.mem_singleton_self _)

theorem rpcCall_eq_local_ping :
    ∃ s t answer bytes, (pingTask, s, some bytes) ∈ pingTrace.filterMap (handledFor 3) ∧
      localCall pingHandlers "ping" (.object []) s = .ok answer t ∧
      Libp2pTransport.rpcCall (some pingWait) (some Communerd.zeroPeer) "ping" (.object []) =
        answer.mapError PtPError.toTransport := by
  obtain ⟨e, he, -⟩ | h := rpcCall_eq_local parseBytes_ping
    (fun s t result h ↦ by
      obtain ⟨hresult, -⟩ := EStateM.Result.ok.inj h
      rw [← Except.ok.inj hresult]
      exact parseBytes_pong)
    run_pingTrace (fun e he ↦ absurd he List.not_mem_nil) not_asks_pingEvents
    (fun i hi ↦ absurd hi List.not_mem_nil) not_sends_pingedInputs
    (fun response h ↦ by
      obtain rfl : response = asBytes pongText := by simpa [pingedInputs] using h
      exact sendResponse_mem_pingTrace)
    reply_mem_pingedInputs
  · cases he
  · exact h

end SwarmNode

end Foretias

import Foretias.Library.EntryTable
import Foretias.Server.ChrononAttestation
import Foretias.Server.JsonRpc
import Foretias.Server.PeerRegistration

/-!
# The swarm loop

`swarm_loop` owns the libp2p swarm. It takes commands of the server, events of the network and
responses of the handlers it has started, one at a time, and keeps four maps: the callers that wait
for a response, by request; the channels that wait for one, by inbound request; and the keys of the
DHT queries under way, with the records found. In which order the inputs come is not the loop's to
choose, so they are a list.

The four maps are one table of entries that the loop serves (`serves_entries`), so what it sends for
a key depends on the key's own events, whatever else comes in between (`sent_log`).
-/

namespace Foretias

/-- `PeerCapability::provider_key_suffix`. -/
def PeerCapability.providerKeySuffix : PeerCapability → String
  | attestWilling => "/foretias/attest-willing/v1"
  | mirrorWilling => "/foretias/mirror-willing/v1"
  | verifierWilling => "/foretias/verifier-willing/v1"

/-- `PeerCapability::provider_key`. -/
def PeerCapability.providerKey (c : PeerCapability) (ns : String) : Bytes :=
  asBytes (ns ++ c.providerKeySuffix)

namespace SwarmLoop

/-! ### Inputs and actions -/

/-- The number of a DHT query. -/
abbrev QueryId := ℕ

/-- The number of a request that is sent. -/
abbrev OutboundId := ℕ

/-- The number of a request that is received. -/
abbrev InboundId := ℕ

/-- The number of a listener. -/
abbrev ListenerId := ℕ

/-- A record of the DHT. -/
structure KadRecord where
  /-- The key. -/
  key : Bytes
  /-- The value. -/
  value : Bytes
  deriving DecidableEq

/-- A command to the loop, with what libp2p returns to the loop's call. -/
inductive Command
  | bootstrap
  | provide (key : Bytes)
  | getProviders (key : Bytes)
  | putRecord (key : Bytes) (record : KadRecord) (started : Except String QueryId)
  | putRecordTo (key : Bytes) (record : KadRecord) (peers : List PeerId) (query : QueryId)
  | storeRecordLocal (record : KadRecord)
  | getRecord (key : Bytes) (query : QueryId)
  | dial (addr : String)
  | addAddress (peer : PeerId) (addr : String)
  | enterDormancy (connected : List PeerId)
  | publishProbity (report : Except String Bytes) (ns : String)
  | publishHeartbeat (heartbeat : Except String Bytes) (ns : String)
  | provideForCapability (capability : PeerCapability) (ns : String)
  | getProvidersForCapability (capability : PeerCapability) (ns : String)
  | requestResponse (peer : PeerId) (request : JsonValue) (reply : ℕ) (id : OutboundId)

/-- `request_response::OutboundFailure`. -/
inductive OutboundFailure
  | timeout
  | other (text : String)

/-- An event of the swarm. -/
inductive Event
  | newListenAddr (address : String) (id : ListenerId)
  | listenerClosed (id : ListenerId)
  | connectionEstablished (peer : PeerId)
  | connectionClosed (peer : PeerId)
  | identified (peer : PeerId)
  | pingSuccess (peer : PeerId)
  | bootstrapOk
  | foundRecord (query : QueryId) (record : KadRecord)
  | getRecordFinished (query : QueryId)
  | getRecordError (query : QueryId)
  | putRecordOk (query : QueryId)
  | putRecordError (query : QueryId) (text : String)
  | foundProviders (providers : List PeerId)
  | request (id : InboundId) (bytes : Bytes) (channel : ℕ) (peer : PeerId)
  | response (id : OutboundId) (bytes : Bytes)
  | outboundFailure (id : OutboundId) (failure : OutboundFailure)
  | gossip (topic : String) (data : Bytes) (source : PeerId)
  | other

/-- What the loop takes in one turn. -/
inductive Input
  /-- A handler's response. -/
  | inboundResult (id : InboundId) (bytes : Bytes)
  /-- A command. -/
  | command (c : Command)
  /-- An event. -/
  | event (e : Event)

/-- `NetworkEvent`, of which the server is told. -/
inductive NetworkEvent
  | connected (peer : PeerId)
  | disconnected (peer : PeerId)
  | identified (peer : PeerId)
  | pingSuccess (peer : PeerId)
  | dhtPeerDiscovered (peer : PeerId)
  | dhtBootstrapComplete
  | gossipMessage (data : Bytes) (source : PeerId)
  | heartbeatMessage (data : Bytes) (source : PeerId)
  | listenReady (address : String)
  | recordRetrieved (key : Bytes) (records : List KadRecord)
  | recordPutOk (key : Bytes)
  | recordPutError (key : Bytes) (error : String)

/-- What the loop does. A reply, a response or the notice of a query's end carries the number that
its entry was kept under. -/
inductive Action
  | bootstrap
  | startProviding (key : Bytes)
  | getProviders (key : Bytes)
  | putRecord (record : KadRecord)
  | putRecordTo (record : KadRecord) (peers : List PeerId)
  | storeLocal (record : KadRecord)
  | getRecord (key : Bytes)
  | dial (addr : String)
  | addAddress (peer : PeerId) (addr : String)
  | disconnect (peer : PeerId)
  | removeListener (id : ListenerId)
  | publish (topic : String) (bytes : Bytes)
  | sendRequest (peer : PeerId) (bytes : Bytes)
  | reply (id : OutboundId) (caller : ℕ) (result : Except TransportError JsonValue)
  | sendResponse (id : InboundId) (channel : ℕ) (bytes : Bytes)
  | spawn (id : InboundId) (method : String) (params : JsonValue)
  | notify (query : Option QueryId) (event : NetworkEvent)

end SwarmLoop

open SwarmLoop in
/-- What the loop keeps. -/
structure SwarmLoop where
  /-- The listeners. -/
  listenerIds : List ListenerId
  /-- The address that is shown. -/
  localMultiaddr : Option String
  /-- The keys of the records that are being got, with the records found. -/
  pendingGetRecord : EntryTable QueryId (Bytes × List KadRecord)
  /-- The keys of the records that are being put. -/
  pendingPutRecord : EntryTable QueryId Bytes
  /-- The callers of requests. -/
  pendingRpc : EntryTable OutboundId ℕ
  /-- The channels of requests that were received. -/
  pendingInbound : EntryTable InboundId (ℕ × PeerId)

namespace SwarmLoop

/-! ### The loop -/

/-- The loop when it is started. -/
def start : SwarmLoop := ⟨[], none, fun _ ↦ none, fun _ ↦ none, fun _ ↦ none, fun _ ↦ none⟩

/-- What the caller of a request is told of the response. -/
def decodeResponse (T : RpcText) (bytes : Bytes) : Except TransportError JsonValue :=
  match T.parseBytes bytes with
  | .error e => .error (.decode e)
  | .ok val =>
    match val.get? "error" with
    | some err =>
      let code := (((err.get? "code").bind JsonValue.asI64?).getD (-1)).toInt32
      let message := ((err.get? "message").bind JsonValue.asStr?).getD "unknown"
      .error (.rpc code.toInt message)
    | none => .ok ((val.get? "result").getD .null)

/-- What the caller is told of a failure. -/
def OutboundFailure.toError : OutboundFailure → TransportError
  | timeout => .timeout
  | other text => .connect text

/-- `probity_topic`. -/
def probityTopic (ns : String) : String := s!"/foretias/{ns}/probity/v1"

/-- `heartbeat_topic`. -/
def heartbeatTopic (ns : String) : String := s!"/foretias/{ns}/heartbeat/v1"

/-- A topic that the loop takes for one of heartbeats. -/
def IsHeartbeatTopic (topic : String) : Prop :=
  "/foretias/".toList <+: topic.toList ∧ "/heartbeat/v1".toList <:+ topic.toList

instance : DecidablePred IsHeartbeatTopic := fun _ ↦ inferInstanceAs (Decidable (_ ∧ _))

variable (T : RpcText) (hasHandler : Bool) (s : SwarmLoop)

/-- The turn of a command. -/
def onCommand : Command → SwarmLoop × List Action
  | .bootstrap => (s, [.bootstrap])
  | .provide key => (s, [.startProviding key])
  | .getProviders key => (s, [.getProviders key])
  | .putRecord key record (.ok query) =>
    ({ s with pendingPutRecord := Function.update s.pendingPutRecord query (some key) },
      [.putRecord record])
  | .putRecord key record (.error e) =>
    (s, [.putRecord record, .notify none (.recordPutError key e)])
  | .putRecordTo key record peers query =>
    ({ s with pendingPutRecord := Function.update s.pendingPutRecord query (some key) },
      [.putRecordTo record peers])
  | .storeRecordLocal record => (s, [.storeLocal record])
  | .getRecord key query =>
    ({ s with pendingGetRecord := Function.update s.pendingGetRecord query (some (key, [])) },
      [.getRecord key])
  | .dial addr => (s, [.dial addr])
  | .addAddress peer addr => (s, [.addAddress peer addr])
  | .enterDormancy connected =>
    ({ s with listenerIds := [] },
      connected.map .disconnect ++ s.listenerIds.map .removeListener)
  | .publishProbity report ns => (s, report.toOption.toList.map (.publish (probityTopic ns)))
  | .publishHeartbeat heartbeat ns =>
    (s, heartbeat.toOption.toList.map (.publish (heartbeatTopic ns)))
  | .provideForCapability capability ns => (s, [.startProviding (capability.providerKey ns)])
  | .getProvidersForCapability capability ns => (s, [.getProviders (capability.providerKey ns)])
  | .requestResponse peer request reply id =>
    ({ s with pendingRpc := Function.update s.pendingRpc id (some reply) },
      [.sendRequest peer (asBytes (T.render request))])

/-- The turn of an event. -/
def onEvent : Event → SwarmLoop × List Action
  | .newListenAddr address id =>
    ({ s with
        listenerIds := if id ∈ s.listenerIds then s.listenerIds else id :: s.listenerIds
        localMultiaddr := s.localMultiaddr.or (some address) },
      [.notify none (.listenReady address)])
  | .listenerClosed id => ({ s with listenerIds := s.listenerIds.filter (· ≠ id) }, [])
  | .connectionEstablished peer => (s, [.notify none (.connected peer)])
  | .connectionClosed peer => (s, [.notify none (.disconnected peer)])
  | .identified peer => (s, [.notify none (.identified peer)])
  | .pingSuccess peer => (s, [.notify none (.pingSuccess peer)])
  | .bootstrapOk => (s, [.notify none .dhtBootstrapComplete])
  | .foundRecord query record =>
    match s.pendingGetRecord query with
    | some (key, records) =>
      ({ s with
          pendingGetRecord :=
            Function.update s.pendingGetRecord query (some (key, records ++ [record])) }, [])
    | none => (s, [])
  | .getRecordFinished query =>
    ({ s with pendingGetRecord := Function.update s.pendingGetRecord query none },
      match s.pendingGetRecord query with
      | some (key, records) => [.notify (some query) (.recordRetrieved key records)]
      | none => [])
  | .getRecordError query =>
    ({ s with pendingGetRecord := Function.update s.pendingGetRecord query none }, [])
  | .putRecordOk query =>
    ({ s with pendingPutRecord := Function.update s.pendingPutRecord query none },
      match s.pendingPutRecord query with
      | some key => [.notify (some query) (.recordPutOk key)]
      | none => [])
  | .putRecordError query text =>
    ({ s with pendingPutRecord := Function.update s.pendingPutRecord query none },
      match s.pendingPutRecord query with
      | some key => [.notify (some query) (.recordPutError key text)]
      | none => [])
  | .foundProviders providers =>
    (s, providers.map fun peer ↦ .notify none (.dhtPeerDiscovered peer))
  | .request id bytes channel peer =>
    match T.parseBytes bytes with
    | .error _ => (s, [])
    | .ok value =>
      if hasHandler then
        ({ s with pendingInbound := Function.update s.pendingInbound id (some (channel, peer)) },
          [.spawn id (((value.get? "method").bind JsonValue.asStr?).getD "")
            ((value.get? "params").getD .null)])
      else (s, [])
  | .response id bytes =>
    ({ s with pendingRpc := Function.update s.pendingRpc id none },
      match s.pendingRpc id with
      | some caller => [.reply id caller (decodeResponse T bytes)]
      | none => [])
  | .outboundFailure id failure =>
    ({ s with pendingRpc := Function.update s.pendingRpc id none },
      match s.pendingRpc id with
      | some caller => [.reply id caller (.error failure.toError)]
      | none => [])
  | .gossip topic data source =>
    (s, [.notify none (if IsHeartbeatTopic topic then .heartbeatMessage data source
      else .gossipMessage data source)])
  | .other => (s, [])

/-- One turn of the loop. -/
def turn : Input → SwarmLoop × List Action
  | .inboundResult id bytes =>
    ({ s with pendingInbound := Function.update s.pendingInbound id none },
      match s.pendingInbound id with
      | some (channel, _) => [.sendResponse id channel bytes]
      | none => [])
  | .command c => s.onCommand T c
  | .event e => s.onEvent T hasHandler e

/-- The loop after its inputs. -/
def run : SwarmLoop → List Input → SwarmLoop
  | s, [] => s
  | s, i :: is => run (s.turn T hasHandler i).1 is

/-- What it does meanwhile. -/
def log : SwarmLoop → List Input → List Action
  | _, [] => []
  | s, i :: is => (s.turn T hasHandler i).2 ++ log (s.turn T hasHandler i).1 is

/-! ### Which turns answer only -/

/-- A caller, a channel or the server is told something. -/
def Action.Answers : Action → Prop
  | .reply _ _ _ => True
  | .sendResponse _ _ _ => True
  | .notify _ _ => True
  | _ => False

/-- The request that an event is. -/
def Event.IsRequest : Event → Prop
  | .request _ _ _ _ => True
  | _ => False

variable {T hasHandler s}

/-- The turn of an event that is no request answers, and does nothing else. -/
theorem answers_of_mem_onEvent {e : Event} (he : ¬e.IsRequest) :
    ∀ a ∈ (s.onEvent T hasHandler e).2, a.Answers := by
  have hnil : ∀ a ∈ ([] : List Action), a.Answers := fun a ha ↦ absurd ha List.not_mem_nil
  have hone {a : Action} (ha : a.Answers) : ∀ b ∈ [a], b.Answers := List.forall_mem_singleton.2 ha
  cases e with
  | foundRecord query record =>
    rw [onEvent]
    rcases s.pendingGetRecord query with - | ⟨key, records⟩ <;> exact hnil
  | getRecordFinished query =>
    rw [onEvent]
    rcases s.pendingGetRecord query with - | ⟨key, records⟩
    · exact hnil
    · exact hone trivial
  | putRecordOk query =>
    rw [onEvent]
    rcases s.pendingPutRecord query with - | key
    · exact hnil
    · exact hone trivial
  | putRecordError query text =>
    rw [onEvent]
    rcases s.pendingPutRecord query with - | key
    · exact hnil
    · exact hone trivial
  | foundProviders providers =>
    intro a ha
    obtain ⟨_, -, rfl⟩ := List.mem_map.1 ha
    trivial
  | request id bytes channel peer => exact absurd trivial he
  | response id bytes =>
    rw [onEvent]
    rcases s.pendingRpc id with - | caller
    · exact hnil
    · exact hone trivial
  | outboundFailure id failure =>
    rw [onEvent]
    rcases s.pendingRpc id with - | caller
    · exact hnil
    · exact hone trivial
  | newListenAddr address id => exact hone trivial
  | connectionEstablished peer => exact hone trivial
  | connectionClosed peer => exact hone trivial
  | identified peer => exact hone trivial
  | pingSuccess peer => exact hone trivial
  | bootstrapOk => exact hone trivial
  | gossip topic data source => exact hone trivial
  | _ => exact hnil

/-- So does that of a handler's response. -/
theorem answers_of_mem_inboundResult {id : InboundId} {bytes : Bytes} :
    ∀ a ∈ (s.turn T hasHandler (.inboundResult id bytes)).2, a.Answers := by
  rw [turn]
  rcases s.pendingInbound id with - | ⟨channel, peer⟩
  · exact fun a ha ↦ absurd ha List.not_mem_nil
  · exact List.forall_mem_singleton.2 trivial

/-- Where only answers are made, nothing else is found. -/
theorem filterMap_eq_nil_of_answers {γ : Type} {f : Action → Option γ}
    (hf : ∀ a, a.Answers → f a = none) {actions : List Action} (h : ∀ a ∈ actions, a.Answers) :
    actions.filterMap f = [] :=
  List.filterMap_eq_nil_iff.2 fun a ha ↦ hf a (h a ha)

/-! ### Tables -/

section Serves

variable {K α β : Type} [DecidableEq K]

variable (T hasHandler) in
/-- The loop serves a table: what it keeps in `table` and does as told by `out` are those of the
events that its inputs are for the table. -/
structure Serves (table : SwarmLoop → EntryTable K α) (events : Input → List (K × EntryEvent α β))
    (out : Action → Option (K × β)) : Prop where
  /-- The entries after a turn. -/
  table_turn (s : SwarmLoop) (i : Input) :
    table (s.turn T hasHandler i).1 = (table s).after (events i)
  /-- What is sent in a turn. -/
  out_turn (s : SwarmLoop) (i : Input) :
    (s.turn T hasHandler i).2.filterMap out = (table s).outputs (events i)

variable {table : SwarmLoop → EntryTable K α} {events : Input → List (K × EntryEvent α β)}
  {out : Action → Option (K × β)}

/-- The table after a run is that of the run's events, -/
theorem Serves.table_run (h : Serves T hasHandler table events out) (s : SwarmLoop)
    (is : List Input) :
    table (s.run T hasHandler is) = (table s).after (is.flatMap events) := by
  induction is generalizing s with
  | nil => rfl
  | cons i is ih =>
    rw [List.flatMap_cons, EntryTable.after_append, ← h.table_turn]
    exact ih _

/-- and what the loop puts out is what the table does for them. -/
theorem Serves.out_log (h : Serves T hasHandler table events out) (s : SwarmLoop)
    (is : List Input) :
    (s.log T hasHandler is).filterMap out = (table s).outputs (is.flatMap events) := by
  induction is generalizing s with
  | nil => rfl
  | cons i is ih =>
    rw [List.flatMap_cons, EntryTable.outputs_append, ← h.out_turn, ← h.table_turn, ← ih,
      ← List.filterMap_append]
    rfl

end Serves

/-! ### The entries of the loop -/

/-- The key of an entry in one of the four maps. -/
inductive EntryKey
  | rpc (id : OutboundId)
  | inbound (id : InboundId)
  | getRecord (query : QueryId)
  | putRecord (query : QueryId)
  deriving DecidableEq

/-- An entry of one of the four maps. -/
inductive Entry
  | caller (caller : ℕ)
  | channel (channel : ℕ) (peer : PeerId)
  | records (key : Bytes) (records : List KadRecord)
  | putKey (key : Bytes)

/-- The four maps as one table. -/
def entries (s : SwarmLoop) : EntryTable EntryKey Entry
  | .rpc id => (s.pendingRpc id).map .caller
  | .inbound id => (s.pendingInbound id).map fun e ↦ .channel e.1 e.2
  | .getRecord query => (s.pendingGetRecord query).map fun e ↦ .records e.1 e.2
  | .putRecord query => (s.pendingPutRecord query).map .putKey

namespace Entry

/-- A caller is told a result. -/
def reply (id : OutboundId) (result : Except TransportError JsonValue) : Entry → Option Action
  | caller c => some (.reply id c result)
  | _ => none

/-- A response is sent to a channel. -/
def respond (id : InboundId) (bytes : Bytes) : Entry → Option Action
  | channel c _ => some (.sendResponse id c bytes)
  | _ => none

/-- A record is added. -/
def add (record : KadRecord) : Entry → Entry
  | records key rs => records key (rs ++ [record])
  | e => e

/-- The records are handed over. -/
def retrieved (query : QueryId) : Entry → Option Action
  | records key rs => some (.notify (some query) (.recordRetrieved key rs))
  | _ => none

/-- The end of a put is told. -/
def put (query : QueryId) (event : Bytes → NetworkEvent) : Entry → Option Action
  | putKey key => some (.notify (some query) (event key))
  | _ => none

end Entry

variable (T hasHandler) in
/-- What an input is for the entries. -/
def entryEvents : Input → List (EntryKey × EntryEvent Entry Action)
  | .inboundResult id bytes => [(.inbound id, .closed (Entry.respond id bytes))]
  | .command (.putRecord key _ (.ok query)) => [(.putRecord query, .opened (.putKey key))]
  | .command (.putRecordTo key _ _ query) => [(.putRecord query, .opened (.putKey key))]
  | .command (.getRecord key query) => [(.getRecord query, .opened (.records key []))]
  | .command (.requestResponse _ _ reply id) => [(.rpc id, .opened (.caller reply))]
  | .event (.foundRecord query record) => [(.getRecord query, .updated (.add record))]
  | .event (.getRecordFinished query) => [(.getRecord query, .closed (Entry.retrieved query))]
  | .event (.getRecordError query) => [(.getRecord query, .closed fun _ ↦ none)]
  | .event (.putRecordOk query) => [(.putRecord query, .closed (Entry.put query .recordPutOk))]
  | .event (.putRecordError query text) =>
    [(.putRecord query, .closed (Entry.put query (.recordPutError · text)))]
  | .event (.request id bytes channel peer) =>
    if hasHandler = true ∧ (T.parseBytes bytes).isOk = true then
      [(.inbound id, .opened (.channel channel peer))]
    else []
  | .event (.response id bytes) => [(.rpc id, .closed (Entry.reply id (decodeResponse T bytes)))]
  | .event (.outboundFailure id failure) =>
    [(.rpc id, .closed (Entry.reply id (.error failure.toError)))]
  | _ => []

/-- The key of the entry that an action is made of, if it is made of one. -/
def keyOf : Action → Option EntryKey
  | .reply id _ _ => some (.rpc id)
  | .sendResponse id _ _ => some (.inbound id)
  | .notify (some query) (.recordRetrieved _ _) => some (.getRecord query)
  | .notify (some query) _ => some (.putRecord query)
  | _ => none

/-- An action that is made of an entry, with the entry's key. -/
def sentFor (a : Action) : Option (EntryKey × Action) := (keyOf a).map (·, a)

/-! The four maps change the table at keys of their own. -/

section Update

variable (s)

theorem entries_update_rpc (id : OutboundId) (v : Option ℕ) :
    entries { s with pendingRpc := Function.update s.pendingRpc id v } =
      Function.update s.entries (.rpc id) (v.map .caller) := by
  funext k
  cases k with
  | rpc id' =>
    by_cases h : id' = id
    · subst h
      simp [entries]
    · simp [entries, h]
  | _ => rfl

theorem entries_update_inbound (id : InboundId) (v : Option (ℕ × PeerId)) :
    entries { s with pendingInbound := Function.update s.pendingInbound id v } =
      Function.update s.entries (.inbound id) (v.map fun e ↦ .channel e.1 e.2) := by
  funext k
  cases k with
  | inbound id' =>
    by_cases h : id' = id
    · subst h
      simp [entries]
    · simp [entries, h]
  | _ => rfl

theorem entries_update_getRecord (query : QueryId) (v : Option (Bytes × List KadRecord)) :
    entries { s with pendingGetRecord := Function.update s.pendingGetRecord query v } =
      Function.update s.entries (.getRecord query) (v.map fun e ↦ .records e.1 e.2) := by
  funext k
  cases k with
  | getRecord query' =>
    by_cases h : query' = query
    · subst h
      simp [entries]
    · simp [entries, h]
  | _ => rfl

theorem entries_update_putRecord (query : QueryId) (v : Option Bytes) :
    entries { s with pendingPutRecord := Function.update s.pendingPutRecord query v } =
      Function.update s.entries (.putRecord query) (v.map .putKey) := by
  funext k
  cases k with
  | putRecord query' =>
    by_cases h : query' = query
    · subst h
      simp [entries]
    · simp [entries, h]
  | _ => rfl

end Update

/-- The loop serves the table of its entries. -/
theorem serves_entries : Serves T hasHandler entries (entryEvents T hasHandler) sentFor where
  table_turn s i := by
    cases i with
    | inboundResult id bytes => exact entries_update_inbound s id none
    | command c =>
      cases c with
      | putRecord key record started =>
        cases started with
        | ok query => exact entries_update_putRecord s query (some key)
        | error e => rfl
      | putRecordTo key record peers query => exact entries_update_putRecord s query (some key)
      | getRecord key query => exact entries_update_getRecord s query (some (key, []))
      | requestResponse peer request reply id => exact entries_update_rpc s id (some reply)
      | _ => rfl
    | event e =>
      cases e with
      | foundRecord query record =>
        show _ = Function.update s.entries (.getRecord query)
          ((s.entries (.getRecord query)).map (.add record))
        simp only [turn, onEvent]
        rcases hentry : s.pendingGetRecord query with - | ⟨key, records⟩
        · have hnone : s.entries (.getRecord query) = none := by rw [entries, hentry]; rfl
          rw [hnone]
          exact (Function.update_eq_self_iff.2 hnone.symm).symm
        · have hsome : s.entries (.getRecord query) = some (.records key records) := by
            rw [entries, hentry]; rfl
          rw [hsome]
          exact entries_update_getRecord s query (some (key, records ++ [record]))
      | getRecordFinished query => exact entries_update_getRecord s query none
      | getRecordError query => exact entries_update_getRecord s query none
      | putRecordOk query => exact entries_update_putRecord s query none
      | putRecordError query text => exact entries_update_putRecord s query none
      | request id bytes channel peer =>
        simp only [turn, onEvent, entryEvents]
        rcases T.parseBytes bytes with e | value
        · cases hasHandler <;> rfl
        · cases hasHandler with
          | false => rfl
          | true => exact entries_update_inbound s id (some (channel, peer))
      | response id bytes => exact entries_update_rpc s id none
      | outboundFailure id failure => exact entries_update_rpc s id none
      | _ => rfl
  out_turn s i := by
    cases i with
    | inboundResult id bytes =>
      simp only [turn, entryEvents, EntryTable.outputs, entries]
      rcases s.pendingInbound id with - | ⟨channel, peer⟩ <;> rfl
    | command c =>
      cases c with
      | putRecord key record started => cases started <;> rfl
      | enterDormancy connected =>
        refine List.filterMap_eq_nil_iff.2 fun a ha ↦ ?_
        obtain ha | ha := List.mem_append.1 ha
        all_goals
          obtain ⟨_, -, rfl⟩ := List.mem_map.1 ha
          rfl
      | publishProbity report ns => cases report <;> rfl
      | publishHeartbeat heartbeat ns => cases heartbeat <;> rfl
      | _ => rfl
    | event e =>
      cases e with
      | foundRecord query record =>
        simp only [turn, onEvent]
        cases s.pendingGetRecord query <;> rfl
      | getRecordFinished query =>
        simp only [turn, onEvent, entryEvents, EntryTable.outputs, entries]
        rcases s.pendingGetRecord query with - | ⟨key, records⟩ <;> rfl
      | putRecordOk query =>
        simp only [turn, onEvent, entryEvents, EntryTable.outputs, entries]
        cases s.pendingPutRecord query <;> rfl
      | putRecordError query text =>
        simp only [turn, onEvent, entryEvents, EntryTable.outputs, entries]
        cases s.pendingPutRecord query <;> rfl
      | foundProviders providers =>
        refine List.filterMap_eq_nil_iff.2 fun a ha ↦ ?_
        obtain ⟨_, -, rfl⟩ := List.mem_map.1 ha
        rfl
      | request id bytes channel peer =>
        simp only [turn, onEvent, entryEvents]
        cases T.parseBytes bytes <;> cases hasHandler <;> rfl
      | response id bytes =>
        simp only [turn, onEvent, entryEvents, EntryTable.outputs, entries]
        cases s.pendingRpc id <;> rfl
      | outboundFailure id failure =>
        simp only [turn, onEvent, entryEvents, EntryTable.outputs, entries]
        cases s.pendingRpc id <;> rfl
      | getRecordError query =>
        simp only [turn, onEvent, entryEvents, EntryTable.outputs, entries]
        cases s.pendingGetRecord query <;> rfl
      | _ => rfl

/-! ### What is sent for an entry -/

variable (T hasHandler) in
/-- What an input is for the entry under a key. -/
def eventsAt (k : EntryKey) (i : Input) : List (EntryEvent Entry Action) :=
  EntryTable.under k (entryEvents T hasHandler i)

theorem under_filterMap_sentFor (k : EntryKey) (actions : List Action) :
    EntryTable.under k (actions.filterMap sentFor) =
      actions.filter fun a ↦ keyOf a = some k := by
  induction actions with
  | nil => rfl
  | cons a actions ih =>
    rcases hkey : keyOf a with - | k'
    · have hsent : sentFor a = none := by rw [sentFor, hkey]; rfl
      rw [List.filterMap_cons_none hsent, ih, List.filter_cons_of_neg]
      simp [hkey]
    · have hsent : sentFor a = some (k', a) := by rw [sentFor, hkey]; rfl
      rw [List.filterMap_cons_some hsent]
      by_cases h : k' = k
      · subst h
        rw [EntryTable.under_cons_self, ih, List.filter_cons_of_pos]
        simp [hkey]
      · rw [EntryTable.under_cons_of_ne h, ih, List.filter_cons_of_neg]
        simp [hkey, h]

/-- What the loop sends for a key depends on the key's own events. -/
theorem sent_log (s : SwarmLoop) (is : List Input) (k : EntryKey) :
    ((s.log T hasHandler is).filter fun a ↦ keyOf a = some k) =
      entryOutputs (s.entries k) (is.flatMap (eventsAt T hasHandler k)) := by
  rw [← under_filterMap_sentFor, serves_entries.out_log, EntryTable.outputs_filter,
    EntryTable.under_flatMap]
  rfl

/-- What is sent for an entry that is opened once. -/
theorem sent_of_opened {k : EntryKey} {entry : Entry} {pre post : List Input} {i : Input}
    (hopened : eventsAt T hasHandler k i = [.opened entry])
    (hpre : ∀ j ∈ pre, ∀ e ∈ eventsAt T hasHandler k j, ¬e.IsOpened)
    (hpost : ∀ j ∈ post, ∀ e ∈ eventsAt T hasHandler k j, ¬e.IsOpened) :
    ((start.log T hasHandler (pre ++ i :: post)).filter fun a ↦ keyOf a = some k) =
      (settle entry (post.flatMap (eventsAt T hasHandler k))).toList := by
  have hnone : start.entries k = none := by cases k <;> rfl
  rw [sent_log, List.flatMap_append, List.flatMap_cons, hopened, hnone]
  refine entryOutputs_opened (fun e he ↦ ?_) fun e he ↦ ?_
  · obtain ⟨j, hj, he⟩ := List.mem_flatMap.1 he
    exact hpre j hj e he
  · obtain ⟨j, hj, he⟩ := List.mem_flatMap.1 he
    exact hpost j hj e he

variable (T hasHandler) in
/-- An input takes an entry out and sends an answer, or is nothing to the entry's key. -/
def Answers (k : EntryKey) (entry : Entry) (answer : Input → Option Action) (i : Input) : Prop :=
  eventsAt T hasHandler k i = [] ∧ answer i = none ∨
    ∃ f a, eventsAt T hasHandler k i = [.closed f] ∧ f entry = some a ∧ answer i = some a

variable {k : EntryKey} {entry : Entry} {answer : Input → Option Action} {pre post : List Input}
  {i : Input}

/-- An answer opens nothing under its key. -/
theorem Answers.not_isOpened (h : Answers T hasHandler k entry answer i) :
    ∀ e ∈ eventsAt T hasHandler k i, ¬e.IsOpened := by
  obtain ⟨hnil, -⟩ | ⟨f, a, hclosed, -, -⟩ := h
  · rw [hnil]
    exact fun e he ↦ absurd he List.not_mem_nil
  · rw [hclosed]
    exact List.forall_mem_singleton.2 fun h ↦ h

/-- What is sent for an entry that nothing changes: the first answer. -/
theorem sent_of_answers (hopened : eventsAt T hasHandler k i = [.opened entry])
    (hpre : ∀ j ∈ pre, Answers T hasHandler k entry answer j)
    (hpost : ∀ j ∈ post, Answers T hasHandler k entry answer j) :
    ((start.log T hasHandler (pre ++ i :: post)).filter fun a ↦ keyOf a = some k) =
      (post.findSome? answer).toList := by
  rw [sent_of_opened hopened (fun j hj ↦ (hpre j hj).not_isOpened)
    fun j hj ↦ (hpost j hj).not_isOpened]
  exact congrArg Option.toList (settle_flatMap hpost)

end SwarmLoop

end Foretias

import Foretias.Server.SwarmLoop

/-!
# Requests and queries of the swarm loop

A caller of the loop's hands over a request or a query with a channel or a key, and the loop keeps
it under the number that libp2p gives it until an event has this number.

* `replies_of_request` — a caller gets the first answer or failure of its own request, and nothing
  else;
* `retrieved_of_getRecord` — a get hands over all records that were found for it, once;
* `put_of_putRecord` — the end of a put is told once.
-/

namespace Foretias

namespace SwarmLoop

variable {T : RpcText} {hasHandler : Bool}

/-! ### Requests that are sent -/

/-- A request is sent under a number. -/
def Sends (id : OutboundId) : Input → Prop
  | .command (.requestResponse _ _ _ id') => id' = id
  | _ => False

variable (T) in
/-- What an input answers to the request with a number. -/
def answerTo (id : OutboundId) : Input → Option (Except TransportError JsonValue)
  | .event (.response id' bytes) => if id' = id then some (decodeResponse T bytes) else none
  | .event (.outboundFailure id' failure) =>
    if id' = id then some (.error failure.toError) else none
  | _ => none

theorem answers_rpc {id : OutboundId} {i : Input} (h : ¬Sends id i) (caller : ℕ) :
    Answers T hasHandler (.rpc id) (.caller caller)
      (fun i ↦ (answerTo T id i).map (.reply id caller)) i := by
  have hinbound : ∀ id' e, EntryTable.under (EntryKey.rpc id) [(EntryKey.inbound id', e)] =
      ([] : List (EntryEvent Entry Action)) := fun _ _ ↦ EntryTable.under_cons_of_ne (by simp)
  cases i with
  | inboundResult id' bytes => exact .inl ⟨hinbound _ _, rfl⟩
  | command c =>
    cases c with
    | putRecord key record started => cases started <;> exact .inl ⟨rfl, rfl⟩
    | requestResponse peer request reply id' =>
      exact .inl ⟨EntryTable.under_cons_of_ne fun heq ↦ h (EntryKey.rpc.inj heq), rfl⟩
    | _ => exact .inl ⟨rfl, rfl⟩
  | event e =>
    cases e with
    | request id' bytes channel peer =>
      refine .inl ⟨?_, rfl⟩
      rw [eventsAt, entryEvents]
      split_ifs
      · exact hinbound _ _
      · rfl
    | response id' bytes =>
      rw [Answers, eventsAt, entryEvents, EntryTable.under_singleton, answerTo]
      by_cases hid : id' = id
      · subst hid
        exact .inr ⟨_, _, if_pos rfl, rfl, congrArg (Option.map _) (if_pos rfl)⟩
      · exact .inl ⟨if_neg fun heq ↦ hid (EntryKey.rpc.inj heq),
          congrArg (Option.map _) (if_neg hid)⟩
    | outboundFailure id' failure =>
      rw [Answers, eventsAt, entryEvents, EntryTable.under_singleton, answerTo]
      by_cases hid : id' = id
      · subst hid
        exact .inr ⟨_, _, if_pos rfl, rfl, congrArg (Option.map _) (if_pos rfl)⟩
      · exact .inl ⟨if_neg fun heq ↦ hid (EntryKey.rpc.inj heq),
          congrArg (Option.map _) (if_neg hid)⟩
    | _ => exact .inl ⟨rfl, rfl⟩

/-- What is sent to a caller is what the first response or failure under its request's number
brings. -/
theorem sent_of_request {T : RpcText} {hasHandler : Bool} {pre post : List Input} {peer : PeerId}
    {request : JsonValue} {caller : ℕ} {id : OutboundId} (hpre : ∀ i ∈ pre, ¬Sends id i)
    (hpost : ∀ i ∈ post, ¬Sends id i) :
    ((start.log T hasHandler
        (pre ++ .command (.requestResponse peer request caller id) :: post)).filter
          fun a ↦ keyOf a = some (.rpc id)) =
      (post.findSome? fun i ↦ (answerTo T id i).map (.reply id caller)).toList := by
  have hopened : eventsAt T hasHandler (.rpc id)
      (.command (.requestResponse peer request caller id)) = [.opened (.caller caller)] :=
    (EntryTable.under_singleton).trans (if_pos rfl)
  exact sent_of_answers hopened (fun j hj ↦ answers_rpc (hpre j hj) caller)
    fun j hj ↦ answers_rpc (hpost j hj) caller

/-- **A caller gets the first answer to its own request.** libp2p gives each request a number of its
own; then the caller is told the first response or failure under this number, decoded, and is told
nothing else, whatever commands, events and handlers' results come in between. -/
theorem replies_of_request (T : RpcText) (hasHandler : Bool) {pre post : List Input} {peer : PeerId}
    {request : JsonValue} {caller : ℕ} {id : OutboundId} (hpre : ∀ i ∈ pre, ¬Sends id i)
    (hpost : ∀ i ∈ post, ¬Sends id i) :
    ((start.log T hasHandler
        (pre ++ .command (.requestResponse peer request caller id) :: post)).filter
          fun a ↦ keyOf a = some (.rpc id)) =
      ((post.findSome? (answerTo T id)).map (.reply id caller)).toList := by
  rw [sent_of_request hpre hpost, List.map_findSome?]
  rfl

theorem decodeResponse_pong : decodeResponse .pings (asBytes pongText) =
    .ok (.object [("pong", .bool true)]) := by
  have hparse : RpcText.pings.parseBytes (asBytes pongText) = .ok pong.toJson := by
    show (if asBytes pongText = asBytes pongText then Except.ok pong.toJson else
      .error "expected value at line 1 column 1") = _
    exact if_pos rfl
  rw [decodeResponse, hparse]
  rfl

/-- Two calls of `ping`: the response to the one comes between what is for the other. -/
theorem replies_of_request_pong :
    ((start.log .pings true ([.event (.response 5 [])] ++
        .command (.requestResponse Communerd.zeroPeer (rpcRequest "ping" (.object [])) 7 5) ::
          [.command (.requestResponse Communerd.zeroPeer (rpcRequest "ping" (.object [])) 8 6),
            .event (.outboundFailure 6 .timeout), .event (.response 5 (asBytes pongText)),
            .event (.outboundFailure 5 .timeout)])).filter
              fun a ↦ keyOf a = some (.rpc 5)) =
      [.reply 5 7 (.ok (.object [("pong", .bool true)]))] := by
  rw [replies_of_request .pings true (by simp [Sends]) (by simp [Sends])]
  show ([decodeResponse .pings (asBytes pongText)].map (Action.reply 5 7)) = _
  rw [decodeResponse_pong]
  rfl

/-! ### Requests that are received -/

/-- A request is received under a number. -/
def Asks (id : InboundId) : Input → Prop
  | .event (.request id' _ _ _) => id' = id
  | _ => False

/-- The result that an input brings for the request with a number. -/
def resultFor (id : InboundId) : Input → Option Bytes
  | .inboundResult id' bytes => if id' = id then some bytes else none
  | _ => none

theorem answers_inbound {id : InboundId} {i : Input} (h : ¬Asks id i) (channel : ℕ)
    (peer : PeerId) : Answers T hasHandler (.inbound id) (.channel channel peer)
      (fun i ↦ (resultFor id i).map (.sendResponse id channel)) i := by
  cases i with
  | inboundResult id' bytes =>
    rw [Answers, eventsAt, entryEvents, EntryTable.under_singleton, resultFor]
    by_cases hid : id' = id
    · subst hid
      exact .inr ⟨_, _, if_pos rfl, rfl, congrArg (Option.map _) (if_pos rfl)⟩
    · exact .inl ⟨if_neg fun heq ↦ hid (EntryKey.inbound.inj heq),
        congrArg (Option.map _) (if_neg hid)⟩
  | command c =>
    cases c with
    | putRecord key record started =>
      cases started with
      | ok query => exact .inl ⟨EntryTable.under_cons_of_ne (by simp), rfl⟩
      | error e => exact .inl ⟨rfl, rfl⟩
    | _ => exact .inl ⟨rfl, rfl⟩
  | event e =>
    cases e with
    | request id' bytes channel' peer' =>
      refine .inl ⟨?_, rfl⟩
      rw [eventsAt, entryEvents]
      split_ifs
      · exact EntryTable.under_cons_of_ne fun heq ↦ h (EntryKey.inbound.inj heq)
      · rfl
    | _ => exact .inl ⟨rfl, rfl⟩

/-- A request that is received and parsed is answered on its channel with the first result that
comes under its number, and with nothing else. -/
theorem responses_of_request {pre post : List Input} {id : InboundId} {bytes : Bytes}
    {channel : ℕ} {peer : PeerId} (hparse : (T.parseBytes bytes).isOk = true)
    (hpre : ∀ i ∈ pre, ¬Asks id i) (hpost : ∀ i ∈ post, ¬Asks id i) :
    ((start.log T true (pre ++ .event (.request id bytes channel peer) :: post)).filter
        fun a ↦ keyOf a = some (.inbound id)) =
      ((post.findSome? (resultFor id)).map (.sendResponse id channel)).toList := by
  have hopened : eventsAt T true (.inbound id) (.event (.request id bytes channel peer)) =
      [.opened (.channel channel peer)] := by
    rw [eventsAt, entryEvents, if_pos ⟨rfl, hparse⟩]
    exact EntryTable.under_singleton.trans (if_pos rfl)
  rw [sent_of_answers hopened (fun j hj ↦ answers_inbound (hpre j hj) channel peer)
    fun j hj ↦ answers_inbound (hpost j hj) channel peer, List.map_findSome?]
  rfl

/-! ### DHT queries -/

/-- A put is begun under a number. -/
def StartsPut (query : QueryId) : Input → Prop
  | .command (.putRecord _ _ (.ok query')) => query' = query
  | .command (.putRecordTo _ _ _ query') => query' = query
  | _ => False

/-- The put that an input begins, with its key. -/
def begunPut : Input → Option (QueryId × Bytes)
  | .command (.putRecord key _ (.ok query)) => some (query, key)
  | .command (.putRecordTo key _ _ query) => some (query, key)
  | _ => none

/-- What an input tells of the put of a key with a number. -/
def putEnd (query : QueryId) (key : Bytes) : Input → Option NetworkEvent
  | .event (.putRecordOk query') => if query' = query then some (.recordPutOk key) else none
  | .event (.putRecordError query' text) =>
    if query' = query then some (.recordPutError key text) else none
  | _ => none

theorem answers_put {query : QueryId} {i : Input} (h : ¬StartsPut query i) (key : Bytes) :
    Answers T hasHandler (.putRecord query) (.putKey key)
      (fun i ↦ (putEnd query key i).map (.notify (some query))) i := by
  cases i with
  | inboundResult id bytes => exact .inl ⟨EntryTable.under_cons_of_ne (by simp), rfl⟩
  | command c =>
    cases c with
    | putRecord key record started =>
      cases started with
      | ok query' =>
        exact .inl ⟨EntryTable.under_cons_of_ne fun heq ↦ h (EntryKey.putRecord.inj heq), rfl⟩
      | error e => exact .inl ⟨rfl, rfl⟩
    | putRecordTo key record peers query' =>
      exact .inl ⟨EntryTable.under_cons_of_ne fun heq ↦ h (EntryKey.putRecord.inj heq), rfl⟩
    | _ => exact .inl ⟨rfl, rfl⟩
  | event e =>
    cases e with
    | request id bytes channel peer =>
      refine .inl ⟨?_, rfl⟩
      rw [eventsAt, entryEvents]
      split_ifs
      · exact EntryTable.under_cons_of_ne (by simp)
      · rfl
    | putRecordOk query' =>
      rw [Answers, eventsAt, entryEvents, EntryTable.under_singleton, putEnd]
      by_cases hquery : query' = query
      · subst hquery
        exact .inr ⟨_, _, if_pos rfl, rfl, congrArg (Option.map _) (if_pos rfl)⟩
      · exact .inl ⟨if_neg fun heq ↦ hquery (EntryKey.putRecord.inj heq),
          congrArg (Option.map _) (if_neg hquery)⟩
    | putRecordError query' text =>
      rw [Answers, eventsAt, entryEvents, EntryTable.under_singleton, putEnd]
      by_cases hquery : query' = query
      · subst hquery
        exact .inr ⟨_, _, if_pos rfl, rfl, congrArg (Option.map _) (if_pos rfl)⟩
      · exact .inl ⟨if_neg fun heq ↦ hquery (EntryKey.putRecord.inj heq),
          congrArg (Option.map _) (if_neg hquery)⟩
    | _ => exact .inl ⟨rfl, rfl⟩

/-- A get is begun under a number. -/
def StartsGet (query : QueryId) : Input → Prop
  | .command (.getRecord _ query') => query' = query
  | _ => False

/-- A get with a number ends. -/
def EndsGet (query : QueryId) : Input → Prop
  | .event (.getRecordFinished query') => query' = query
  | .event (.getRecordError query') => query' = query
  | _ => False

/-- The record that an input finds for a get with a number. -/
def foundFor (query : QueryId) : Input → Option KadRecord
  | .event (.foundRecord query' record) => if query' = query then some record else none
  | _ => none

/-- An input that neither begins nor ends a get may find a record for it. -/
theorem eventsAt_get {query : QueryId} {i : Input} (hstarts : ¬StartsGet query i)
    (hends : ¬EndsGet query i) :
    eventsAt T hasHandler (.getRecord query) i =
      (foundFor query i).toList.map fun record ↦ .updated (.add record) := by
  cases i with
  | inboundResult id bytes => exact EntryTable.under_cons_of_ne (by simp)
  | command c =>
    cases c with
    | putRecord key record started => cases started <;> rfl
    | getRecord key query' =>
      exact EntryTable.under_cons_of_ne fun heq ↦ hstarts (EntryKey.getRecord.inj heq)
    | _ => rfl
  | event e =>
    cases e with
    | request id bytes channel peer =>
      rw [eventsAt, entryEvents]
      split_ifs
      · exact EntryTable.under_cons_of_ne (by simp)
      · rfl
    | foundRecord query' record =>
      rw [eventsAt, entryEvents, EntryTable.under_singleton, foundFor]
      by_cases hquery : query' = query
      · subst hquery
        rw [if_pos rfl, if_pos rfl]
        rfl
      · rw [if_neg fun heq ↦ hquery (EntryKey.getRecord.inj heq), if_neg hquery]
        rfl
    | getRecordFinished query' =>
      exact EntryTable.under_cons_of_ne fun heq ↦ hends (EntryKey.getRecord.inj heq)
    | getRecordError query' =>
      exact EntryTable.under_cons_of_ne fun heq ↦ hends (EntryKey.getRecord.inj heq)
    | _ => rfl

theorem not_isOpened_get {query : QueryId} {i : Input} (h : ¬StartsGet query i) :
    ∀ e ∈ eventsAt T hasHandler (.getRecord query) i, ¬e.IsOpened := by
  by_cases hends : EndsGet query i
  · cases i with
    | event e =>
      cases e with
      | getRecordFinished query' =>
        rw [eventsAt, entryEvents, EntryTable.under_singleton]
        split_ifs
        · exact List.forall_mem_singleton.2 fun h ↦ h
        · exact fun e he ↦ absurd he List.not_mem_nil
      | getRecordError query' =>
        rw [eventsAt, entryEvents, EntryTable.under_singleton]
        split_ifs
        · exact List.forall_mem_singleton.2 fun h ↦ h
        · exact fun e he ↦ absurd he List.not_mem_nil
      | _ => exact absurd hends fun h ↦ h
    | _ => exact absurd hends fun h ↦ h
  · rw [eventsAt_get h hends]
    intro e he
    obtain ⟨record, -, rfl⟩ := List.mem_map.1 he
    exact fun h ↦ h

/-- The records that are found are added to the entry. -/
theorem settle_found {query : QueryId} {key : Bytes} {records : List KadRecord} {found : List Input}
    (hfound : ∀ i ∈ found, ¬StartsGet query i ∧ ¬EndsGet query i)
    (events : List (EntryEvent Entry Action)) :
    settle (.records key records)
        (found.flatMap (eventsAt T hasHandler (.getRecord query)) ++ events) =
      settle (.records key (records ++ found.filterMap (foundFor query))) events := by
  induction found generalizing records with
  | nil => rw [List.filterMap_nil, List.append_nil]; rfl
  | cons i found ih =>
    rw [List.forall_mem_cons] at hfound
    rw [List.flatMap_cons, eventsAt_get hfound.1.1 hfound.1.2, List.append_assoc]
    rcases hi : foundFor query i with - | record
    · rw [List.filterMap_cons_none hi]
      exact ih hfound.2
    · rw [List.filterMap_cons_some hi, List.append_cons]
      exact ih hfound.2

/-- **A get hands over every record that was found for it, once.** libp2p gives each query a number
of its own. Of a get, nothing is told until it ends; when it is finished, the server is told its key
with all records that were found for it, in their order, and nothing after that; of one that ends
with an error the server is told nothing. -/
theorem retrieved_of_getRecord (T : RpcText) (hasHandler : Bool) {pre found rest : List Input}
    {key : Bytes} {query : QueryId} (hpre : ∀ i ∈ pre, ¬StartsGet query i)
    (hfound : ∀ i ∈ found, ¬StartsGet query i ∧ ¬EndsGet query i)
    (hrest : ∀ i ∈ rest, ¬StartsGet query i) :
    ((start.log T hasHandler (pre ++ .command (.getRecord key query) :: found)).filter
        fun a ↦ keyOf a = some (.getRecord query)) = [] ∧
      ((start.log T hasHandler (pre ++ .command (.getRecord key query) ::
          (found ++ .event (.getRecordFinished query) :: rest))).filter
            fun a ↦ keyOf a = some (.getRecord query)) =
        [.notify (some query) (.recordRetrieved key (found.filterMap (foundFor query)))] ∧
      ((start.log T hasHandler (pre ++ .command (.getRecord key query) ::
          (found ++ .event (.getRecordError query) :: rest))).filter
            fun a ↦ keyOf a = some (.getRecord query)) = [] := by
  have hopened : eventsAt T hasHandler (.getRecord query) (.command (.getRecord key query)) =
      [.opened (.records key [])] := EntryTable.under_singleton.trans (if_pos rfl)
  have hend {e : Event} : ∀ i ∈ found ++ .event e :: rest, ¬StartsGet query i := by
    intro i hi
    obtain hi | hi := List.mem_append.1 hi
    · exact (hfound i hi).1
    · obtain rfl | hi := List.mem_cons.1 hi
      · exact fun h ↦ h
      · exact hrest i hi
  refine ⟨?_, ?_, ?_⟩
  · rw [sent_of_opened hopened (fun j hj ↦ not_isOpened_get (hpre j hj))
      fun j hj ↦ not_isOpened_get (hfound j hj).1]
    have hsettle : settle (.records key [])
        (found.flatMap (eventsAt T hasHandler (.getRecord query)) ++ []) = none :=
      settle_found hfound []
    rw [List.append_nil] at hsettle
    rw [hsettle]
    rfl
  · rw [sent_of_opened hopened (fun j hj ↦ not_isOpened_get (hpre j hj))
      fun j hj ↦ not_isOpened_get (hend j hj), List.flatMap_append, settle_found hfound,
      List.flatMap_cons]
    have hfinished : eventsAt T hasHandler (.getRecord query) (.event (.getRecordFinished query)) =
        [.closed (Entry.retrieved query)] := EntryTable.under_singleton.trans (if_pos rfl)
    rw [hfinished]
    rfl
  · rw [sent_of_opened hopened (fun j hj ↦ not_isOpened_get (hpre j hj))
      fun j hj ↦ not_isOpened_get (hend j hj), List.flatMap_append, settle_found hfound,
      List.flatMap_cons]
    have herror : eventsAt T hasHandler (.getRecord query) (.event (.getRecordError query)) =
        [.closed fun _ ↦ none] := EntryTable.under_singleton.trans (if_pos rfl)
    rw [herror]
    rfl

/-- A get of which two records are found, while one is found for another get. -/
theorem retrieved_of_getRecord_two :
    ((start.log .pings true ([] ++ .command (.getRecord [1] 3) ::
        [.event (.foundRecord 3 ⟨[1], [7]⟩), .event (.foundRecord 4 ⟨[2], [9]⟩),
          .event (.foundRecord 3 ⟨[1], [8]⟩)])).filter
            fun a ↦ keyOf a = some (.getRecord 3)) = [] ∧
      ((start.log .pings true ([] ++ .command (.getRecord [1] 3) ::
        ([.event (.foundRecord 3 ⟨[1], [7]⟩), .event (.foundRecord 4 ⟨[2], [9]⟩),
          .event (.foundRecord 3 ⟨[1], [8]⟩)] ++ .event (.getRecordFinished 3) ::
            [.event (.foundRecord 3 ⟨[1], [6]⟩)]))).filter
              fun a ↦ keyOf a = some (.getRecord 3)) =
        [.notify (some 3) (.recordRetrieved [1] [⟨[1], [7]⟩, ⟨[1], [8]⟩])] ∧
      ((start.log .pings true ([] ++ .command (.getRecord [1] 3) ::
        ([.event (.foundRecord 3 ⟨[1], [7]⟩), .event (.foundRecord 4 ⟨[2], [9]⟩),
          .event (.foundRecord 3 ⟨[1], [8]⟩)] ++ .event (.getRecordError 3) ::
            [.event (.foundRecord 3 ⟨[1], [6]⟩)]))).filter
              fun a ↦ keyOf a = some (.getRecord 3)) = [] :=
  retrieved_of_getRecord .pings true (by simp) (by simp [StartsGet, EndsGet]) (by simp [StartsGet])

/-- **The end of a put is told once.** Of a put, whether to the nearest peers or to those that are
given, the server is told the first success or error that has the put's number, with the key that it
asked for, and nothing else. -/
theorem put_of_putRecord (T : RpcText) (hasHandler : Bool) {pre post : List Input} {i : Input}
    {key : Bytes} {query : QueryId} (hbegun : begunPut i = some (query, key))
    (hpre : ∀ j ∈ pre, ¬StartsPut query j) (hpost : ∀ j ∈ post, ¬StartsPut query j) :
    ((start.log T hasHandler (pre ++ i :: post)).filter
        fun a ↦ keyOf a = some (.putRecord query)) =
      ((post.findSome? (putEnd query key)).map (.notify (some query))).toList := by
  have hopened : eventsAt T hasHandler (.putRecord query) i = [.opened (.putKey key)] := by
    unfold begunPut at hbegun
    split at hbegun
    all_goals
      first
      | cases hbegun
        exact EntryTable.under_singleton.trans (if_pos rfl)
      | cases hbegun
  rw [sent_of_answers hopened (fun j hj ↦ answers_put (hpre j hj) key)
    fun j hj ↦ answers_put (hpost j hj) key, List.map_findSome?]
  rfl

end SwarmLoop

end Foretias

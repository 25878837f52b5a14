import Foretias.Server.SwarmLoop

/-!
# Topics of gossip

A node publishes its heartbeats and its reports on probity under two topics of its namespace, and
subscribes to these two. The loop that gets a message looks at its topic's beginning and end to tell
the one from the other. No namespace, whatever text it is, makes a topic of the one kind look like
one of the other, and no two namespaces share a topic; nor do they share a provider key
(`PeerCapability.providerKey_inj`).

Which messages gossipsub hands to a node, how often and in which order, is not the code's: they are
whatever events the node's loop takes.

* `told_of_run` — the loop tells the server of each message that it is handed, once and in order,
  and of no other;
* `heard_of_delivered` — if these are messages under the node's topics that some nodes' loops have
  published, the server hears as heartbeats and as reports what was published as such for its own
  namespace.
-/

namespace Foretias

namespace PeerCapability

/-- No suffix of a capability ends another. -/
theorem eq_of_suffix {c c' : PeerCapability}
    (h : c.providerKeySuffix.toList <:+ c'.providerKeySuffix.toList) : c = c' := by
  revert h
  cases c <;> cases c' <;> decide

/-- The provider keys of two capabilities or two namespaces are different, whatever text the
namespaces are. -/
theorem providerKey_inj {c c' : PeerCapability} {ns ns' : String} :
    c.providerKey ns = c'.providerKey ns' ↔ c = c' ∧ ns = ns' := by
  refine ⟨fun h ↦ ?_, fun ⟨hc, hns⟩ ↦ hc ▸ hns ▸ rfl⟩
  have hlist := congrArg String.toList (asBytes_injective h)
  rw [String.toList_append, String.toList_append] at hlist
  have hsuffix : c.providerKeySuffix.toList <:+ ns'.toList ++ c'.providerKeySuffix.toList :=
    ⟨_, hlist⟩
  obtain hle | hle := Nat.le_total c.providerKeySuffix.toList.length
    c'.providerKeySuffix.toList.length
  · obtain rfl := eq_of_suffix
      (List.suffix_of_suffix_length_le hsuffix (List.suffix_append _ _) hle)
    exact ⟨rfl, String.toList_inj.1 (List.append_cancel_right hlist)⟩
  · obtain rfl := eq_of_suffix
      (List.suffix_of_suffix_length_le (List.suffix_append _ _) hsuffix hle)
    exact ⟨rfl, String.toList_inj.1 (List.append_cancel_right hlist)⟩

end PeerCapability

namespace SwarmLoop

/-! ### Topics -/

theorem toList_probityTopic (ns : String) :
    (probityTopic ns).toList = "/foretias/".toList ++ ns.toList ++ "/probity/v1".toList := by
  rw [probityTopic, String.toList_append, String.toList_append]
  rfl

theorem toList_heartbeatTopic (ns : String) :
    (heartbeatTopic ns).toList = "/foretias/".toList ++ ns.toList ++ "/heartbeat/v1".toList := by
  rw [heartbeatTopic, String.toList_append, String.toList_append]
  rfl

/-- The loop knows the topics of heartbeats. -/
theorem isHeartbeatTopic_heartbeatTopic (ns : String) : IsHeartbeatTopic (heartbeatTopic ns) := by
  rw [IsHeartbeatTopic, toList_heartbeatTopic]
  refine ⟨?_, List.suffix_append _ _⟩
  rw [List.append_assoc]
  exact List.prefix_append _ _

/-- The end of a probity topic is not that of a heartbeat topic, whatever stands before it. -/
theorem not_isHeartbeatTopic_probityTopic (ns : String) : ¬IsHeartbeatTopic (probityTopic ns) := by
  rintro ⟨-, hsuffix⟩
  rw [toList_probityTopic] at hsuffix
  have hshort : "/probity/v1".toList <:+ "/heartbeat/v1".toList :=
    List.suffix_of_suffix_length_le (List.suffix_append _ _) hsuffix (by decide)
  exact absurd hshort (by decide)

/-- Namespaces have topics of their own for reports, -/
theorem probityTopic_inj {ns ns' : String} : probityTopic ns = probityTopic ns' ↔ ns = ns' := by
  refine ⟨fun h ↦ ?_, fun h ↦ h ▸ rfl⟩
  have hlist := congrArg String.toList h
  rw [toList_probityTopic, toList_probityTopic] at hlist
  exact String.toList_inj.1 (List.append_cancel_left (List.append_cancel_right hlist))

/-- and for heartbeats. -/
theorem heartbeatTopic_inj {ns ns' : String} :
    heartbeatTopic ns = heartbeatTopic ns' ↔ ns = ns' := by
  refine ⟨fun h ↦ ?_, fun h ↦ h ▸ rfl⟩
  have hlist := congrArg String.toList h
  rw [toList_heartbeatTopic, toList_heartbeatTopic] at hlist
  exact String.toList_inj.1 (List.append_cancel_left (List.append_cancel_right hlist))

/-- No topic is of both kinds. -/
theorem probityTopic_ne_heartbeatTopic (ns ns' : String) : probityTopic ns ≠ heartbeatTopic ns' :=
  fun h ↦ not_isHeartbeatTopic_probityTopic ns (h ▸ isHeartbeatTopic_heartbeatTopic ns')

/-- The topics that `build_and_spawn_swarm` subscribes to. -/
def subscriptions (ns : String) : List String := [probityTopic ns, heartbeatTopic ns]

/-- A node subscribes to the reports of its own namespace, -/
theorem probityTopic_mem_subscriptions {ns ns' : String} :
    probityTopic ns' ∈ subscriptions ns ↔ ns' = ns := by
  rw [subscriptions, List.mem_pair, probityTopic_inj]
  exact or_iff_left (probityTopic_ne_heartbeatTopic _ _)

/-- and to its heartbeats. -/
theorem heartbeatTopic_mem_subscriptions {ns ns' : String} :
    heartbeatTopic ns' ∈ subscriptions ns ↔ ns' = ns := by
  rw [subscriptions, List.mem_pair, heartbeatTopic_inj]
  exact or_iff_right (probityTopic_ne_heartbeatTopic _ _).symm

/-! ### What a node publishes -/

section Published

variable {T : RpcText} {hasHandler : Bool} {s : SwarmLoop} {topic : String} {bytes : Bytes}

/-- An input asks to publish bytes under a topic. -/
def Publishes (topic : String) (bytes : Bytes) (i : Input) : Prop :=
  ∃ ns, (i = .command (.publishProbity (.ok bytes) ns) ∧ topic = probityTopic ns) ∨
    (i = .command (.publishHeartbeat (.ok bytes) ns) ∧ topic = heartbeatTopic ns)

/-- Answers to callers are no messages of gossip. -/
theorem not_publish_of_answers {actions : List Action} (h : ∀ a ∈ actions, a.Answers) :
    .publish topic bytes ∉ actions :=
  fun hmem ↦ h _ hmem

/-- One turn publishes what it is asked to. -/
theorem publishes_of_mem_turn {i : Input} (h : .publish topic bytes ∈ (s.turn T hasHandler i).2) :
    Publishes topic bytes i := by
  cases i with
  | inboundResult id result => exact absurd h (not_publish_of_answers answers_of_mem_inboundResult)
  | command c =>
    cases c with
    | publishProbity report ns =>
      obtain ⟨sent, hsent, hpublish⟩ := List.mem_map.1 h
      obtain ⟨rfl, rfl⟩ := Action.publish.inj hpublish
      cases report with
      | error e => cases hsent
      | ok sent' =>
        obtain rfl := List.mem_singleton.1 hsent
        exact ⟨ns, .inl ⟨rfl, rfl⟩⟩
    | publishHeartbeat heartbeat ns =>
      obtain ⟨sent, hsent, hpublish⟩ := List.mem_map.1 h
      obtain ⟨rfl, rfl⟩ := Action.publish.inj hpublish
      cases heartbeat with
      | error e => cases hsent
      | ok sent' =>
        obtain rfl := List.mem_singleton.1 hsent
        exact ⟨ns, .inr ⟨rfl, rfl⟩⟩
    | enterDormancy connected =>
      obtain h | h := List.mem_append.1 h
      all_goals
        obtain ⟨_, -, heq⟩ := List.mem_map.1 h
        cases heq
    | putRecord key record started =>
      cases started with
      | ok query => cases List.mem_singleton.1 h
      | error e => simp [turn, onCommand] at h
    | _ => cases List.mem_singleton.1 h
  | event e =>
    cases e with
    | request id request channel peer =>
      simp only [turn, onEvent] at h
      cases hparse : T.parseBytes request with
      | error e => simp [hparse] at h
      | ok value => cases hasHandler <;> simp [hparse] at h
    | _ => exact absurd h (not_publish_of_answers (answers_of_mem_onEvent fun h ↦ h))

/-- Whatever a loop publishes in a run, it was asked to. -/
theorem exists_publishes_of_mem_log {is : List Input}
    (h : .publish topic bytes ∈ s.log T hasHandler is) : ∃ i ∈ is, Publishes topic bytes i := by
  induction is generalizing s with
  | nil => cases h
  | cons i is ih =>
    rw [log] at h
    obtain h | h := List.mem_append.1 h
    · exact ⟨i, List.mem_cons_self, publishes_of_mem_turn h⟩
    · obtain ⟨j, hj, hpublishes⟩ := ih h
      exact ⟨j, List.mem_cons_of_mem _ hj, hpublishes⟩

/-- Only a request to publish a heartbeat publishes under a topic of heartbeats. -/
theorem publishes_heartbeatTopic {ns : String} {i : Input} :
    Publishes (heartbeatTopic ns) bytes i ↔ i = .command (.publishHeartbeat (.ok bytes) ns) := by
  constructor
  · rintro ⟨ns', ⟨-, h⟩ | ⟨rfl, h⟩⟩
    · exact absurd h.symm (probityTopic_ne_heartbeatTopic _ _)
    · rw [heartbeatTopic_inj.1 h]
  · exact fun h ↦ ⟨ns, .inr ⟨h, rfl⟩⟩

/-- Only a request to publish a report does under a topic of reports. -/
theorem publishes_probityTopic {ns : String} {i : Input} :
    Publishes (probityTopic ns) bytes i ↔ i = .command (.publishProbity (.ok bytes) ns) := by
  constructor
  · rintro ⟨ns', ⟨rfl, h⟩ | ⟨-, h⟩⟩
    · rw [probityTopic_inj.1 h]
    · exact absurd h (probityTopic_ne_heartbeatTopic _ _)
  · exact fun h ↦ ⟨ns, .inl ⟨h, rfl⟩⟩

end Published

/-! ### What a node is told -/

section Told

variable {T : RpcText} {hasHandler : Bool} {s : SwarmLoop}

/-- The message of gossip that an input is, as the server is to be told of it. -/
def delivered? : Input → Option NetworkEvent
  | .event (.gossip topic data source) =>
    some (if IsHeartbeatTopic topic then .heartbeatMessage data source
      else .gossipMessage data source)
  | _ => none

/-- What the server is told of gossip. -/
def told? : Action → Option NetworkEvent
  | .notify _ (.gossipMessage data source) => some (.gossipMessage data source)
  | .notify _ (.heartbeatMessage data source) => some (.heartbeatMessage data source)
  | _ => none

/-- In one turn the server is told of the message that the turn is handed. -/
theorem told_of_turn (i : Input) :
    (s.turn T hasHandler i).2.filterMap told? = (delivered? i).toList := by
  cases i with
  | inboundResult id bytes =>
    rw [turn]
    rcases s.pendingInbound id with - | ⟨channel, peer⟩ <;> rfl
  | command c =>
    cases c with
    | putRecord key record started => cases started <;> rfl
    | enterDormancy connected =>
      refine List.filterMap_eq_nil_iff.2 fun a ha ↦ ?_
      obtain ha | ha := List.mem_append.1 ha
      all_goals
        obtain ⟨_, -, rfl⟩ := List.mem_map.1 ha
        rfl
    | publishProbity report ns => cases report <;> rfl
    | publishHeartbeat heartbeat ns => cases heartbeat <;> rfl
    | _ => rfl
  | event e =>
    cases e with
    | gossip topic data source =>
      simp only [turn, onEvent, delivered?]
      split_ifs <;> rfl
    | foundRecord query record =>
      simp only [turn, onEvent]
      rcases s.pendingGetRecord query with - | ⟨key, records⟩ <;> rfl
    | getRecordFinished query =>
      simp only [turn, onEvent]
      rcases s.pendingGetRecord query with - | ⟨key, records⟩ <;> rfl
    | putRecordOk query =>
      simp only [turn, onEvent]
      rcases s.pendingPutRecord query with - | key <;> rfl
    | putRecordError query text =>
      simp only [turn, onEvent]
      rcases s.pendingPutRecord query with - | key <;> rfl
    | foundProviders providers =>
      refine List.filterMap_eq_nil_iff.2 fun a ha ↦ ?_
      obtain ⟨_, -, rfl⟩ := List.mem_map.1 ha
      rfl
    | request id bytes channel peer =>
      simp only [turn, onEvent]
      cases T.parseBytes bytes <;> cases hasHandler <;> rfl
    | response id bytes =>
      simp only [turn, onEvent]
      rcases s.pendingRpc id with - | caller <;> rfl
    | outboundFailure id failure =>
      simp only [turn, onEvent]
      rcases s.pendingRpc id with - | caller <;> rfl
    | _ => rfl

/-- In a run the server is told of each message of gossip, in order, and of nothing else as
gossip. -/
theorem told_of_run (is : List Input) :
    (s.log T hasHandler is).filterMap told? = is.filterMap delivered? := by
  induction is generalizing s with
  | nil => rfl
  | cons i is ih =>
    rw [log, List.filterMap_append, told_of_turn, ih, List.filterMap_eq_flatMap_toList,
      List.filterMap_eq_flatMap_toList, List.flatMap_cons]

end Told

/-! ### From node to node -/

/-- **Namespaces and kinds of messages do not mix.** A node in a namespace is handed messages under
its two topics that some nodes have published, be some of them lost, repeated or out of order. Then
its server is told of each of them once, in the order in which they came, and hears as heartbeats
and as reports on probity only what a node was asked to publish as such for this namespace; for
every text of the namespaces. -/
theorem heard_of_delivered {T : RpcText} {hasHandler : Bool} {s : SwarmLoop} {ns : String}
    {is : List Input} {ι : Type} {T' : ι → RpcText} {hasHandler' : ι → Bool}
    {others : ι → List Input}
    (hnetwork : ∀ topic data source, .event (.gossip topic data source) ∈ is →
      topic ∈ subscriptions ns ∧
        ∃ k, .publish topic data ∈ start.log (T' k) (hasHandler' k) (others k)) :
    (s.log T hasHandler is).filterMap told? = is.filterMap delivered? ∧
    (∀ data source, .heartbeatMessage data source ∈ (s.log T hasHandler is).filterMap told? →
      ∃ k, .command (.publishHeartbeat (.ok data) ns) ∈ others k) ∧
    ∀ data source, .gossipMessage data source ∈ (s.log T hasHandler is).filterMap told? →
      ∃ k, .command (.publishProbity (.ok data) ns) ∈ others k := by
  have htold : (s.log T hasHandler is).filterMap told? = is.filterMap delivered? :=
    told_of_run is
  have hpublished : ∀ topic data source, .event (.gossip topic data source) ∈ is →
      (topic = probityTopic ns ∨ topic = heartbeatTopic ns) ∧
        ∃ k, ∃ i ∈ others k, Publishes topic data i := by
    intro topic data source hmem
    obtain ⟨hsubscribed, k, hk⟩ := hnetwork topic data source hmem
    exact ⟨List.mem_pair.1 hsubscribed, k, exists_publishes_of_mem_log hk⟩
  -- what is told came as a message under one of the two topics
  have hevent : ∀ event ∈ (s.log T hasHandler is).filterMap told?, ∃ topic data source,
      .event (.gossip topic data source) ∈ is ∧ event = if IsHeartbeatTopic topic then
        .heartbeatMessage data source else .gossipMessage data source := by
    intro event hmem
    rw [htold] at hmem
    obtain ⟨i, hi, hdelivered⟩ := List.mem_filterMap.1 hmem
    unfold delivered? at hdelivered
    split at hdelivered
    · exact ⟨_, _, _, hi, (Option.some_inj.1 hdelivered).symm⟩
    · cases hdelivered
  refine ⟨htold, fun data source hmem ↦ ?_, fun data source hmem ↦ ?_⟩
  · obtain ⟨topic, data', source', hmem, hkind⟩ := hevent _ hmem
    obtain ⟨rfl | rfl, k, i, hi, hpublishes⟩ := hpublished _ _ _ hmem
    · rw [if_neg (not_isHeartbeatTopic_probityTopic ns)] at hkind
      cases hkind
    · rw [if_pos (isHeartbeatTopic_heartbeatTopic ns)] at hkind
      cases hkind
      exact ⟨k, publishes_heartbeatTopic.1 hpublishes ▸ hi⟩
  · obtain ⟨topic, data', source', hmem, hkind⟩ := hevent _ hmem
    obtain ⟨rfl | rfl, k, i, hi, hpublishes⟩ := hpublished _ _ _ hmem
    · rw [if_neg (not_isHeartbeatTopic_probityTopic ns)] at hkind
      cases hkind
      exact ⟨k, publishes_probityTopic.1 hpublishes ▸ hi⟩
    · rw [if_pos (isHeartbeatTopic_heartbeatTopic ns)] at hkind
      cases hkind

/-- What two nodes are asked to publish. -/
def publishers : Bool → List Input
  | false => [.command (.publishProbity (.ok [1]) "a"), .command (.publishHeartbeat (.ok [2]) "a"),
      .command (.publishHeartbeat (.ok [3]) "a/heartbeat/v1")]
  | true => [.command (.publishHeartbeat (.ok [4]) "a")]

/-- What a node in the namespace `a` is handed of it: the heartbeat of the second node twice, and
the report of the first node in between. -/
def handed : List Input :=
  [.event (.gossip (heartbeatTopic "a") [4] Communerd.zeroPeer), .event .other,
    .event (.gossip (probityTopic "a") [1] Communerd.zeroPeer),
    .event (.gossip (heartbeatTopic "a") [4] Communerd.zeroPeer)]

theorem publish_mem_log : ∀ topic data source, .event (.gossip topic data source) ∈ handed →
    topic ∈ subscriptions "a" ∧
      ∃ k, .publish topic data ∈ start.log .pings true (publishers k) := by
  intro topic data source hmem
  have hcases : (topic = heartbeatTopic "a" ∧ data = [4] ∧ source = Communerd.zeroPeer) ∨
      (topic = probityTopic "a" ∧ data = [1] ∧ source = Communerd.zeroPeer) := by
    simpa [handed, or_comm, or_assoc] using hmem
  obtain ⟨rfl, rfl, -⟩ | ⟨rfl, rfl, -⟩ := hcases
  · exact ⟨heartbeatTopic_mem_subscriptions.2 rfl, true, List.mem_singleton_self _⟩
  · exact ⟨probityTopic_mem_subscriptions.2 rfl, false, List.mem_cons_self⟩

theorem heard_of_delivered_two_nodes :
    (start.log .pings true handed).filterMap told? =
      [.heartbeatMessage [4] Communerd.zeroPeer, .gossipMessage [1] Communerd.zeroPeer,
        .heartbeatMessage [4] Communerd.zeroPeer] ∧
    (∀ data source, .heartbeatMessage data source ∈ (start.log .pings true handed).filterMap told? →
      ∃ k, .command (.publishHeartbeat (.ok data) "a") ∈ publishers k) ∧
    ∀ data source, .gossipMessage data source ∈ (start.log .pings true handed).filterMap told? →
      ∃ k, .command (.publishProbity (.ok data) "a") ∈ publishers k := by
  have hhanded : handed.filterMap delivered? =
      [.heartbeatMessage [4] Communerd.zeroPeer, .gossipMessage [1] Communerd.zeroPeer,
        .heartbeatMessage [4] Communerd.zeroPeer] := by
    simp only [handed, List.filterMap_cons, List.filterMap_nil, delivered?,
      if_pos (isHeartbeatTopic_heartbeatTopic "a"), if_neg (not_isHeartbeatTopic_probityTopic "a")]
  rw [← hhanded]
  exact heard_of_delivered publish_mem_log

end SwarmLoop

end Foretias

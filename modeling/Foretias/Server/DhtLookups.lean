import Foretias.Library.PendingCalls
import Foretias.Library.Run
import Foretias.Server.FamilyExchange
import Foretias.Server.TbidIndex

/-!
# Lookups in the DHT

Any number of calls of `lookup_tbid` and `fetch_and_cache_family_record` run at once, each waiting
in a map of pending calls for the event of its key, while the gossip event loop treats one event
after another. The loop answers a pending family lookup by the key of the event. But a pending TBID
lookup it takes from the map whatever its key, and drops the others; a second call for one key
replaces the entry of the first; and a family lookup whose time is up removes its key from the wrong
map.

* `LookupStep` — the steps of the calls and of the loop.
* `LookupGuard` — the states before a step in which it does none of this.
-/

namespace Foretias

/-- What a call asks for. -/
structure DhtQuery where
  /-- The TBID, hex-encoded. -/
  tbidHex : String
  /-- The namespace. -/
  ns : String

/-- The key that `lookup_tbid` asks for. -/
def DhtQuery.lookupKey (q : DhtQuery) : Bytes := Communerd.tbidKey q.ns q.tbidHex

/-- The key that `fetch_and_cache_family_record` asks for. -/
def DhtQuery.fetchKey (q : DhtQuery) : Bytes := asBytes (familyKey q.ns q.tbidHex)

/-- Where the gossip event loop stands. -/
inductive GossipLoop
  /-- It was not started, or a panic has ended it. -/
  | stopped
  /-- It waits for an event. -/
  | idle
  /-- In `handle_peer_records`, if the event is one of peers, before the rest of its records. -/
  | peerRecords (key : Bytes) (rest records : List Bytes)
  /-- In `handle_tbid_records`, before the rest of the records. -/
  | tbidRecords (key : Bytes) (rest : List Bytes) (valid : List PeerRegistrationRecord)

/-- The key of the event that the loop is treating. -/
def GossipLoop.key : GossipLoop → Option Bytes
  | stopped => none
  | idle => none
  | peerRecords key _ _ => some key
  | tbidRecords key _ _ => some key

/-- Family records that passed the gate. -/
abbrev CleanFamily := CleanFullyAuthenticated FamilyRecord

/-- A `Communerd`, as far as lookups go. -/
structure LookupState where
  /-- The connection and the family cache. -/
  node : FamilyNode
  /-- The gossip event loop. -/
  loop : GossipLoop
  /-- The TBID index. -/
  index : TbidIndex
  /-- The calls of `lookup_tbid`, and `pending_lookups`. -/
  lookups : PendingCalls DhtQuery Bytes (Option PeerRegistrationRecord)
    (Option PeerRegistrationRecord)
  /-- The calls of `fetch_and_cache_family_record`, and `pending_family_lookups`. -/
  fetches : PendingCalls DhtQuery Bytes (Option Bytes) (Result Empty (Option CleanFamily))

/-- The state after `Communerd::new`. -/
def LookupState.new : LookupState where
  node := ⟨false, false, fun _ ↦ none⟩
  loop := .stopped
  index _ := none
  lookups := .new
  fetches := .new

/-- A step of a call, by its number, or of the loop. -/
inductive LookupEvent
  | enableP2p
  | beginLookup (i : ℕ) (q : DhtQuery)
  | registerLookup (i : ℕ)
  | resumeLookup (i : ℕ)
  | expireLookup (i : ℕ)
  | removeLookup (i : ℕ)
  | beginFetch (i : ℕ) (q : DhtQuery)
  | registerFetch (i : ℕ)
  | resumeFetch (i : ℕ)
  | expireFetch (i : ℕ)
  | removeFetch (i : ℕ)
  | receive (key : Bytes) (records : List Bytes)
  | peerRecord
  | dispatch
  | tbidRecord
  | drain (k : Option Bytes)

variable (P : Primitives) (F : PeerFormat) (J : FamilyFormat)

namespace LookupState

/-- Where a lookup stands that has read the index. -/
def beginLookup (s : LookupState) (q : DhtQuery) :
    CallPhase (Option PeerRegistrationRecord) (Option PeerRegistrationRecord) :=
  match s.index q.tbidHex with
  | some record => .returned (some record)
  | none => if s.node.connected then .begun else .returned none

/-- Where a family lookup stands that has read the cache. -/
def beginFetch (s : LookupState) (q : DhtQuery) :
    CallPhase (Option Bytes) (Result Empty (Option CleanFamily)) :=
  match s.node.familyCache q.tbidHex with
  | some cached => .returned (.ok (some cached))
  | none => if s.node.connected then .begun else .returned (.ok none)

/-- A family lookup goes on with what it was sent. -/
def resumeFetch (s : LookupState) (i : ℕ) (q : DhtQuery) (sent : Option Bytes) : LookupState :=
  match sent with
  | none => { s with fetches := s.fetches.setPhase i q (.returned (.ok none)) }
  | some record =>
    match s.node.receiveFamilyRecord P J q.tbidHex record with
    | .ok (found, node) =>
      { s with node, fetches := s.fetches.setPhase i q (.returned (.ok found)) }
    | .error stop => { s with fetches := s.fetches.setPhase i q (.returned (.error stop)) }

/-- The loop treats one record of an event of peers. -/
def peerRecord (s : LookupState) (key value : Bytes) (rest records : List Bytes) : LookupState :=
  match receivePeerRecord P F value with
  | .ok _ => { s with loop := .peerRecords key rest records }
  | .error _ => { s with loop := .stopped }

/-- The loop goes by the key of the event, once its peers are treated. -/
def dispatch (s : LookupState) (key : Bytes) (records : List Bytes) : LookupState :=
  { s with
    loop := if IsTbidKey key then .tbidRecords key records [] else .idle
    fetches :=
      if KeyEndsWith key "/v1" ∧ KeyContains key "/family/" then
        s.fetches.take key (.sent records.head?)
      else s.fetches }

/-- The loop treats one record of an event of a TBID. -/
def tbidRecord (s : LookupState) (key value : Bytes) (rest : List Bytes)
    (valid : List PeerRegistrationRecord) : LookupState :=
  match receivePeerRecord P F value with
  | .ok none => { s with loop := .tbidRecords key rest valid }
  | .ok (some record) =>
    { s with loop := .tbidRecords key rest (valid ++ [record]), index := s.index.insert record }
  | .error _ => { s with loop := .stopped }

variable {P F J} {s : LookupState}

@[simp] theorem lookups_resumeFetch (i : ℕ) (q : DhtQuery) (sent : Option Bytes) :
    (s.resumeFetch P J i q sent).lookups = s.lookups := by
  unfold resumeFetch
  split
  · rfl
  · split
    · rfl
    · rfl

@[simp] theorem lookups_peerRecord (key value : Bytes) (rest records : List Bytes) :
    (s.peerRecord P F key value rest records).lookups = s.lookups := by
  unfold peerRecord
  split
  · rfl
  · rfl

@[simp] theorem fetches_peerRecord (key value : Bytes) (rest records : List Bytes) :
    (s.peerRecord P F key value rest records).fetches = s.fetches := by
  unfold peerRecord
  split
  · rfl
  · rfl

@[simp] theorem lookups_tbidRecord (key value : Bytes) (rest : List Bytes)
    (valid : List PeerRegistrationRecord) :
    (s.tbidRecord P F key value rest valid).lookups = s.lookups := by
  unfold tbidRecord
  split
  · rfl
  · rfl
  · rfl

@[simp] theorem fetches_tbidRecord (key value : Bytes) (rest : List Bytes)
    (valid : List PeerRegistrationRecord) :
    (s.tbidRecord P F key value rest valid).fetches = s.fetches := by
  unfold tbidRecord
  split
  · rfl
  · rfl
  · rfl

end LookupState

/-- The steps of the calls and of the loop. -/
inductive LookupStep : LookupState → LookupEvent → LookupState → Prop
  /-- The swarm and the loop are started. -/
  | enableP2p {s : LookupState} (hnew : s.node.hasPeerId = false) :
      LookupStep s .enableP2p
        { s with node := { s.node with hasPeerId := true, connected := true }, loop := .idle }
  /-- A call reads the index. -/
  | beginLookup {s : LookupState} {i : ℕ} {q : DhtQuery} (hnew : s.lookups.calls i = none) :
      LookupStep s (.beginLookup i q)
        { s with lookups := s.lookups.setPhase i q (s.beginLookup q) }
  /-- It registers and asks the swarm. -/
  | registerLookup {s : LookupState} {i : ℕ} {q : DhtQuery}
      (hcall : s.lookups.calls i = some ⟨q, .begun⟩) :
      LookupStep s (.registerLookup i)
        { s with lookups := s.lookups.register DhtQuery.lookupKey i q }
  /-- It is sent a result. -/
  | resumeLookup {s : LookupState} {i : ℕ} {q : DhtQuery} {result : Option PeerRegistrationRecord}
      (hcall : s.lookups.calls i = some ⟨q, .waiting (.sent result)⟩) :
      LookupStep s (.resumeLookup i)
        { s with lookups := s.lookups.setPhase i q (.returned result) }
  /-- Its channel is closed. -/
  | closedLookup {s : LookupState} {i : ℕ} {q : DhtQuery}
      (hcall : s.lookups.calls i = some ⟨q, .waiting .closed⟩) :
      LookupStep s (.resumeLookup i)
        { s with lookups := s.lookups.setPhase i q (.returned none) }
  /-- Its time is up. -/
  | expireLookup {s : LookupState} {i : ℕ} {q : DhtQuery} (hwaits : s.lookups.Waits i q) :
      LookupStep s (.expireLookup i) { s with lookups := s.lookups.setPhase i q .expired }
  /-- It removes the entry under its key, and returns. -/
  | removeLookup {s : LookupState} {i : ℕ} {q : DhtQuery}
      (hcall : s.lookups.calls i = some ⟨q, .expired⟩) :
      LookupStep s (.removeLookup i)
        { s with
          lookups := (s.lookups.take q.lookupKey .closed).setPhase i q (.returned none) }
  /-- A family lookup reads the cache. -/
  | beginFetch {s : LookupState} {i : ℕ} {q : DhtQuery} (hnew : s.fetches.calls i = none) :
      LookupStep s (.beginFetch i q)
        { s with fetches := s.fetches.setPhase i q (s.beginFetch q) }
  /-- It registers and asks the swarm. -/
  | registerFetch {s : LookupState} {i : ℕ} {q : DhtQuery}
      (hcall : s.fetches.calls i = some ⟨q, .begun⟩) :
      LookupStep s (.registerFetch i)
        { s with fetches := s.fetches.register DhtQuery.fetchKey i q }
  /-- It is sent bytes, or that there are none. -/
  | resumeFetch {s : LookupState} {i : ℕ} {q : DhtQuery} {sent : Option Bytes}
      (hcall : s.fetches.calls i = some ⟨q, .waiting (.sent sent)⟩) :
      LookupStep s (.resumeFetch i) (s.resumeFetch P J i q sent)
  /-- Its channel is closed. -/
  | closedFetch {s : LookupState} {i : ℕ} {q : DhtQuery}
      (hcall : s.fetches.calls i = some ⟨q, .waiting .closed⟩) :
      LookupStep s (.resumeFetch i)
        { s with fetches := s.fetches.setPhase i q (.returned (.ok none)) }
  /-- Its time is up. -/
  | expireFetch {s : LookupState} {i : ℕ} {q : DhtQuery} (hwaits : s.fetches.Waits i q) :
      LookupStep s (.expireFetch i) { s with fetches := s.fetches.setPhase i q .expired }
  /-- It removes its key from `pending_lookups`, which is the other map, and returns. -/
  | removeFetch {s : LookupState} {i : ℕ} {q : DhtQuery}
      (hcall : s.fetches.calls i = some ⟨q, .expired⟩) :
      LookupStep s (.removeFetch i)
        { s with
          lookups := s.lookups.take q.fetchKey .closed
          fetches := s.fetches.setPhase i q (.returned (.ok none)) }
  /-- The loop receives an event. -/
  | receive {s : LookupState} {key : Bytes} {records : List Bytes} (hidle : s.loop = .idle) :
      LookupStep s (.receive key records)
        { s with
          loop := .peerRecords key (if KeyEndsWith key "/peers/v1" then records else []) records }
  | peerRecord {s : LookupState} {key value : Bytes} {rest records : List Bytes}
      (hloop : s.loop = .peerRecords key (value :: rest) records) :
      LookupStep s .peerRecord (s.peerRecord P F key value rest records)
  | dispatch {s : LookupState} {key : Bytes} {records : List Bytes}
      (hloop : s.loop = .peerRecords key [] records) :
      LookupStep s .dispatch (s.dispatch key records)
  | tbidRecord {s : LookupState} {key value : Bytes} {rest : List Bytes}
      {valid : List PeerRegistrationRecord}
      (hloop : s.loop = .tbidRecords key (value :: rest) valid) :
      LookupStep s .tbidRecord (s.tbidRecord P F key value rest valid)
  /-- The loop drains the pending lookups: any one of them is sent the first record. -/
  | drain {s : LookupState} {key k : Bytes} {valid : List PeerRegistrationRecord} {i : ℕ}
      (hloop : s.loop = .tbidRecords key [] valid) (hentry : s.lookups.entries k = some i) :
      LookupStep s (.drain (some k))
        { s with
          loop := .idle
          lookups := (s.lookups.take k (.sent valid.head?)).clear DhtQuery.lookupKey }
  /-- There is no pending lookup. -/
  | drainNone {s : LookupState} {key : Bytes} {valid : List PeerRegistrationRecord}
      (hloop : s.loop = .tbidRecords key [] valid) (hnone : ∀ k, s.lookups.entries k = none) :
      LookupStep s (.drain none) { s with loop := .idle }

end Foretias

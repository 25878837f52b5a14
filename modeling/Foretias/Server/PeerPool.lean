import Foretias.Library.Run
import Foretias.Server.TbidIndex

/-!
# The peer pool

`PeerPool` keeps the known peers in a list, and recognises a peer by its JSON-RPC address alone.
The DHT tells of peers by two routes: a registration record carries an address and a peer id, a
discovery carries only a peer id, and its address is the empty one. So of all peers that were
discovered only the first is kept (`second_discovered_dropped`), a peer that comes again keeps the
address and the time of its first event, and one removal of a discovered peer removes all.

* `addPeer_right_iff`, `removePeer_right_iff` — when a call leaves the pool with every peer once and
  as its latest events describe it, exactly.
* `allSteps_right_iff` — the sequences of events that do so throughout, exactly.
-/

namespace Foretias

/-! ### The pool -/

/-- The list of known peers. -/
abbrev PeerPool := List Communerd.PeerAddr

namespace PeerPool

variable (P : Primitives) (F : PeerFormat) (parse : String → Option PeerId)

/-- The pool of a new `Communerd`, from the addresses of its configuration. -/
def configured (peers : List String) : PeerPool := peers.map fun jsonRpc ↦ ⟨jsonRpc, none, 0⟩

variable (pool : PeerPool)

/-- `add_peer`. -/
def addPeer (addr : Communerd.PeerAddr) : PeerPool :=
  if ∃ p ∈ pool, p.jsonRpc = addr.jsonRpc then pool else pool ++ [addr]

/-- `remove_peer`. -/
def removePeer (addr : Communerd.PeerAddr) : PeerPool :=
  pool.filter fun p ↦ p.jsonRpc ≠ addr.jsonRpc

/-- The address that a registration record tells of, at a time that the clock tells, or 0. -/
def recordAddr (record : PeerRegistrationRecord) (now : Option UInt64) : Communerd.PeerAddr :=
  ⟨record.jsonRpc, parse record.peerId, now.getD 0⟩

/-- One turn of the loop of `handle_peer_records`: other tasks may reach the pool between two. -/
def handlePeerRecord (value : Bytes) (now : Option UInt64) : PeerPool :=
  match acceptedRecord P F value with
  | none => pool
  | some record => pool.addPeer (recordAddr parse record now)

/-- `handle_peer_records`, if nothing else reaches the pool meanwhile; each record with the time
that the clock tells when it is added. -/
def handlePeerRecords (records : List (Bytes × Option UInt64)) : PeerPool :=
  records.foldl (fun pool record ↦ handlePeerRecord P F parse pool record.1 record.2) pool

/-- The address of a peer that was discovered. -/
def discoveredAddr (p : PeerId) (now : Option UInt64) : Communerd.PeerAddr :=
  ⟨"", some p, now.getD 0⟩

/-- `handle_dht_peer_discovered`. -/
def handleDhtPeerDiscovered (p : PeerId) (now : Option UInt64) : PeerPool :=
  pool.addPeer (discoveredAddr p now)

end PeerPool

/-! ### What a pool should hold -/

/-- What a peer is known by: its id, or its address when no id is known. -/
inductive PeerKey
  | id (p : PeerId)
  | address (jsonRpc : String)
  deriving DecidableEq

namespace Communerd.PeerAddr

/-- What an address tells the peer by. -/
def key (addr : PeerAddr) : PeerKey :=
  match addr.peerId with
  | some p => .id p
  | none => .address addr.jsonRpc

/-- A call that is given an address means this peer. -/
def Means (addr p : PeerAddr) : Prop :=
  match addr.peerId with
  | some id => p.peerId = some id
  | none => p.jsonRpc = addr.jsonRpc

instance (addr p : PeerAddr) : Decidable (addr.Means p) :=
  match h : addr.peerId with
  | some id => decidable_of_iff (p.peerId = some id) (by rw [Means, h])
  | none => decidable_of_iff (p.jsonRpc = addr.jsonRpc) (by rw [Means, h])

/-- A peer as the latest event tells of it: one without an address leaves the one known. -/
def updating (addr : PeerAddr) : Option PeerAddr → PeerAddr
  | none => addr
  | some old => if addr.jsonRpc = "" then { addr with jsonRpc := old.jsonRpc } else addr

variable {addr p q : PeerAddr}

theorem peerId_eq_of_key_eq (h : p.key = q.key) : p.peerId = q.peerId := by
  rw [key, key] at h
  rcases hp : p.peerId with - | x <;> rcases hq : q.peerId with - | y <;> rw [hp, hq] at h
  · cases h
  · cases h
  · exact congrArg some (PeerKey.id.inj h)

/-- A peer is as an event tells of it if it has its time, and its address unless it tells none. -/
theorem updating_eq_iff (hkey : p.key = addr.key) : addr.updating (some p) = p ↔
    p.lastSeenNs = addr.lastSeenNs ∧ (addr.jsonRpc = "" ∨ p.jsonRpc = addr.jsonRpc) := by
  have hid := peerId_eq_of_key_eq hkey
  rw [updating]
  obtain ⟨jsonRpc, peerId, lastSeenNs⟩ := p
  obtain ⟨jsonRpc', peerId', lastSeenNs'⟩ := addr
  obtain rfl : peerId = peerId' := hid
  by_cases hempty : jsonRpc' = ""
  · simp [hempty, eq_comm]
  · simp [hempty, eq_comm, and_comm]

end Communerd.PeerAddr

/-- The peers that were added or discovered and not removed since, as their latest events tell. -/
abbrev ExpectedPeers := PeerKey → Option Communerd.PeerAddr

namespace ExpectedPeers

variable (E : ExpectedPeers)

/-- The peers of a configuration. -/
def configured (peers : List String) : ExpectedPeers
  | .id _ => none
  | .address jsonRpc => if jsonRpc ∈ peers then some ⟨jsonRpc, none, 0⟩ else none

/-- A peer was added or discovered. -/
def add (addr : Communerd.PeerAddr) : ExpectedPeers :=
  Function.update E addr.key (some (addr.updating (E addr.key)))

/-- A peer was removed. -/
def remove (addr : Communerd.PeerAddr) : ExpectedPeers :=
  fun k ↦ (E k).filter fun p ↦ ¬addr.Means p

end ExpectedPeers

/-- The pool holds what it should: each peer once, as its latest events tell, and no other. -/
def PeerPool.Right (pool : PeerPool) (E : ExpectedPeers) : Prop :=
  ∀ k, (pool.filter fun p ↦ p.key = k) = (E k).toList

/-! ### When one call keeps it right -/

namespace PeerPool

variable {pool : PeerPool} {E : ExpectedPeers} {addr p : Communerd.PeerAddr}

theorem Right.expected_of_mem (h : pool.Right E) (hp : p ∈ pool) : E p.key = some p := by
  have hmem : p ∈ (E p.key).toList := by
    rw [← h p.key]
    exact List.mem_filter.2 ⟨hp, decide_eq_true rfl⟩
  exact Option.mem_toList.1 hmem

theorem Right.mem_of_expected (h : pool.Right E) {k : PeerKey} (hp : E k = some p) :
    p ∈ pool ∧ p.key = k := by
  have hmem : p ∈ pool.filter fun p ↦ p.key = k := by
    rw [h k]
    exact Option.mem_toList.2 hp
  exact ⟨(List.mem_filter.1 hmem).1, of_decide_eq_true (List.mem_filter.1 hmem).2⟩

theorem Right.expected_eq_none (h : pool.Right E) {k : PeerKey} :
    E k = none ↔ ∀ p ∈ pool, p.key ≠ k := by
  constructor
  · intro hnone p hp hkey
    have hsome := h.expected_of_mem hp
    rw [hkey, hnone] at hsome
    cases hsome
  · intro hne
    rcases hk : E k with - | p
    · rfl
    · obtain ⟨hp, hkey⟩ := h.mem_of_expected hk
      exact absurd hkey (hne p hp)

/-- A call of `add_peer` finds neither the address nor the peer in the pool, or it finds the peer
as the call tells of it, and does not push for the address. -/
def AddMeets (pool : PeerPool) (addr : Communerd.PeerAddr) : Prop :=
  (∀ p ∈ pool, p.jsonRpc ≠ addr.jsonRpc ∧ p.key ≠ addr.key) ∨
    (∃ p ∈ pool, p.key = addr.key ∧ p.lastSeenNs = addr.lastSeenNs ∧
      (addr.jsonRpc = "" ∨ p.jsonRpc = addr.jsonRpc)) ∧ ∃ q ∈ pool, q.jsonRpc = addr.jsonRpc

/-- A call of `remove_peer` means the peers that have its address, and no other. -/
def RemoveMeets (pool : PeerPool) (addr : Communerd.PeerAddr) : Prop :=
  ∀ p ∈ pool, p.jsonRpc = addr.jsonRpc ↔ addr.Means p

/-- A pool that stays as it is has the peer already, as the call tells of it. -/
theorem Right.add_iff (h : pool.Right E) : pool.Right (E.add addr) ↔
    ∃ p ∈ pool, p.key = addr.key ∧ p.lastSeenNs = addr.lastSeenNs ∧
      (addr.jsonRpc = "" ∨ p.jsonRpc = addr.jsonRpc) := by
  constructor
  · intro hright
    have hupdated : E.add addr addr.key = some (addr.updating (E addr.key)) :=
      Function.update_self ..
    obtain ⟨hp, hkey⟩ := hright.mem_of_expected hupdated
    have hold : E addr.key = some (addr.updating (E addr.key)) := by
      rw [← h.expected_of_mem hp, hkey]
    have hsame : addr.updating (some (addr.updating (E addr.key))) = addr.updating (E addr.key) :=
      congrArg addr.updating hold.symm
    exact ⟨_, hp, hkey, (Communerd.PeerAddr.updating_eq_iff hkey).1 hsame⟩
  · rintro ⟨p, hp, hkey, hmeets⟩
    have hold : E addr.key = some p := hkey ▸ h.expected_of_mem hp
    have hsame : E.add addr = E := by
      rw [ExpectedPeers.add, hold, (Communerd.PeerAddr.updating_eq_iff hkey).2 hmeets, ← hold,
        Function.update_eq_self]
    rw [hsame]
    exact h

/-- A pool in which the call pushes for a new address does not have the peer. -/
theorem Right.append_iff (h : pool.Right E) (hnew : ∀ p ∈ pool, p.jsonRpc ≠ addr.jsonRpc) :
    PeerPool.Right (pool ++ [addr]) (E.add addr) ↔ ∀ p ∈ pool, p.key ≠ addr.key := by
  constructor
  · intro hright p hp hkey
    -- two peers of one key in the pool are one peer
    have hold := hright.expected_of_mem (List.mem_append_left [addr] hp)
    have hadded :=
      hright.expected_of_mem (List.mem_append_right pool (List.mem_singleton_self addr))
    rw [hkey] at hold
    obtain rfl := Option.some_inj.1 (hold.symm.trans hadded)
    exact hnew p hp rfl
  · intro hkeys k
    rw [List.filter_append, h k]
    rcases eq_or_ne addr.key k with rfl | hne
    · have hnone : E addr.key = none := h.expected_eq_none.2 hkeys
      rw [ExpectedPeers.add, Function.update_self, hnone, List.filter_singleton]
      simp [Communerd.PeerAddr.updating]
    · rw [ExpectedPeers.add, Function.update_of_ne (Ne.symm hne), List.filter_singleton]
      simp [hne]

/-- **`add_peer`**: it pushes a new peer at a new address, or has nothing to do. -/
theorem addPeer_right_iff (h : pool.Right E) :
    (pool.addPeer addr).Right (E.add addr) ↔ pool.AddMeets addr := by
  rw [addPeer]
  split
  · rename_i hfound
    have hnotNew : ¬∀ p ∈ pool, p.jsonRpc ≠ addr.jsonRpc ∧ p.key ≠ addr.key := by
      obtain ⟨p, hp, hjsonRpc⟩ := hfound
      exact fun hnew ↦ (hnew p hp).1 hjsonRpc
    rw [AddMeets, or_iff_right hnotNew, and_iff_left hfound]
    exact h.add_iff
  · rename_i hfound
    have hnew : ∀ p ∈ pool, p.jsonRpc ≠ addr.jsonRpc := fun p hp heq ↦ hfound ⟨p, hp, heq⟩
    rw [AddMeets, or_iff_left (fun hboth ↦ hfound hboth.2), h.append_iff hnew]
    exact ⟨fun hkeys p hp ↦ ⟨hnew p hp, hkeys p hp⟩, fun hboth p hp ↦ (hboth p hp).2⟩

/-- **`remove_peer`**: it takes out all peers at an address. -/
theorem removePeer_right_iff (h : pool.Right E) :
    (pool.removePeer addr).Right (E.remove addr) ↔ pool.RemoveMeets addr := by
  have hkept : ∀ {p}, p ∈ pool.removePeer addr ↔ p ∈ pool ∧ p.jsonRpc ≠ addr.jsonRpc := by
    simp [removePeer]
  have hexpected : ∀ {p}, p ∈ pool → (E.remove addr p.key = some p ↔ ¬addr.Means p) := by
    intro p hp
    rw [ExpectedPeers.remove, h.expected_of_mem hp]
    simp [Option.filter]
  constructor
  · intro hright p hp
    constructor
    · intro hjsonRpc
      by_contra hnot
      obtain ⟨hmem, -⟩ := hright.mem_of_expected ((hexpected hp).2 hnot)
      exact (hkept.1 hmem).2 hjsonRpc
    · intro hmeans
      by_contra hne
      exact (hexpected hp).1 (hright.expected_of_mem (hkept.2 ⟨hp, hne⟩)) hmeans
  · intro hmeets k
    rw [removePeer, List.filter_comm, h k, ExpectedPeers.remove]
    rcases hk : E k with - | p
    · rfl
    · have hp := hmeets p (h.mem_of_expected hk).1
      rw [Option.toList_some, List.filter_singleton]
      simp [Option.filter, hp, apply_ite Option.toList]

/-- **The pool of a configuration**: each address once. -/
theorem configured_right_iff {peers : List String} :
    (configured peers).Right (.configured peers) ↔ peers.Nodup := by
  have haddress : ∀ a, (configured peers).filter (fun p ↦ p.key = .address a) =
      List.replicate (peers.count a) ⟨a, none, 0⟩ := by
    intro a
    have hkey : ((fun p : Communerd.PeerAddr ↦ decide (p.key = .address a)) ∘
        fun jsonRpc ↦ ⟨jsonRpc, none, 0⟩) = fun b ↦ decide (b = a) := by
      funext b
      simp [Communerd.PeerAddr.key]
    rw [configured, List.filter_map, hkey, List.filter_eq a, List.map_replicate]
  have hid : ∀ id, (configured peers).filter (fun p ↦ p.key = .id id) = [] := by
    intro id
    rw [configured, List.filter_map]
    simp [Function.comp_def, Communerd.PeerAddr.key]
  rw [List.nodup_iff_count_le_one]
  constructor
  · intro hright a
    have hlength := congrArg List.length (hright (.address a))
    rw [haddress, List.length_replicate] at hlength
    rw [hlength]
    exact Option.length_toList_le
  · intro hcount k
    rcases k with id | a
    · exact hid id
    · rw [haddress, ExpectedPeers.configured]
      split
      · rename_i hmem
        rw [Nat.le_antisymm (hcount a) (List.count_pos_iff.2 hmem)]
        rfl
      · rename_i hmem
        rw [List.count_eq_zero.2 hmem]
        rfl

end PeerPool

/-! ### Sequences of events -/

/-- What reaches the pool: calls of `Communerd`, the records of an event one by one, and
discoveries. -/
inductive PeerPoolEvent
  | add (addr : Communerd.PeerAddr)
  | remove (addr : Communerd.PeerAddr)
  | record (value : Bytes) (now : Option UInt64)
  | discovered (p : PeerId) (now : Option UInt64)

/-- The pool, and what it should hold. -/
structure PeerPoolState where
  pool : PeerPool
  expected : ExpectedPeers

namespace PeerPoolState

/-- A new `Communerd`. -/
def new (peers : List String) : PeerPoolState := ⟨.configured peers, .configured peers⟩

variable (P : Primitives) (F : PeerFormat) (parse : String → Option PeerId) (s : PeerPoolState)

/-- What an event makes of the pool, by the source's functions, and of what it should hold. -/
def step : PeerPoolEvent → PeerPoolState
  | .add addr => ⟨s.pool.addPeer addr, s.expected.add addr⟩
  | .remove addr => ⟨s.pool.removePeer addr, s.expected.remove addr⟩
  | .record value now => ⟨s.pool.handlePeerRecord P F parse value now,
      match acceptedRecord P F value with
      | none => s.expected
      | some record => s.expected.add (PeerPool.recordAddr parse record now)⟩
  | .discovered p now => ⟨s.pool.handleDhtPeerDiscovered p now,
      s.expected.add (PeerPool.discoveredAddr p now)⟩

/-- An event as a step. -/
def Step (s : PeerPoolState) (event : PeerPoolEvent) (s' : PeerPoolState) : Prop :=
  s.step P F parse event = s'

/-- After an event the pool holds what it should. -/
def Keeps (_ : PeerPoolState) (_ : PeerPoolEvent) (s' : PeerPoolState) : Prop :=
  s'.pool.Right s'.expected

/-- An event finds the pool so that it can be recorded there. -/
def Meets (s : PeerPoolState) (event : PeerPoolEvent) (_ : PeerPoolState) : Prop :=
  match event with
  | .add addr => s.pool.AddMeets addr
  | .remove addr => s.pool.RemoveMeets addr
  | .record value now => ∀ record ∈ acceptedRecord P F value,
      s.pool.AddMeets (PeerPool.recordAddr parse record now)
  | .discovered p now => s.pool.AddMeets (PeerPool.discoveredAddr p now)

variable {P F parse} {s s' : PeerPoolState} {event : PeerPoolEvent}

/-- The events of the records of one call make of the pool what the call does. -/
theorem pool_of_run_records {records : List (Bytes × Option UInt64)}
    (hrun : Run (Step P F parse) s (records.map fun record ↦ .record record.1 record.2) s') :
    s'.pool = s.pool.handlePeerRecords P F parse records := by
  induction records generalizing s with
  | nil =>
    obtain rfl := Run.nil_iff.1 hrun
    rfl
  | cons record records ih =>
    obtain ⟨u, hstep, hrest⟩ := Run.cons_iff.1 hrun
    subst hstep
    exact ih hrest

theorem keeps_iff (h : s.pool.Right s.expected) (hstep : Step P F parse s event s') :
    Keeps s event s' ↔ Meets P F parse s event s' := by
  subst hstep
  rcases event with addr | addr | ⟨value, now⟩ | ⟨p, now⟩
  · exact PeerPool.addPeer_right_iff h
  · exact PeerPool.removePeer_right_iff h
  · rw [Keeps, Meets, step, PeerPool.handlePeerRecord]
    rcases acceptedRecord P F value with - | record
    · exact iff_of_true h fun _ hrecord ↦ nomatch hrecord
    · simpa using PeerPool.addPeer_right_iff h
  · exact PeerPool.addPeer_right_iff h

end PeerPoolState

open PeerPoolState in
/-- **The pool holds every peer once, as its latest events tell, from the configuration on and
after each event, exactly if** the configured addresses are distinct and every event finds the pool
so that it can be recorded there. -/
theorem allSteps_right_iff (P : Primitives) (F : PeerFormat) (parse : String → Option PeerId)
    (peers : List String) (events : List PeerPoolEvent) :
    (new peers).pool.Right (new peers).expected ∧
        Run.AllSteps (Step P F parse) Keeps (new peers) events ↔
      peers.Nodup ∧ Run.AllSteps (Step P F parse) (Meets P F parse) (new peers) events := by
  rw [show (new peers).pool.Right (new peers).expected ↔ peers.Nodup from
    PeerPool.configured_right_iff]
  refine and_congr_right fun hnodup ↦ ?_
  exact Run.allSteps_congr (I := fun s ↦ s.pool.Right s.expected) keeps_iff
    (fun _ _ hkeeps ↦ hkeeps) (PeerPool.configured_right_iff.2 hnodup)

open PeerPoolState in
/-- **Of two peers that are discovered only the first is kept**: both have the empty address. -/
theorem second_discovered_dropped : ∃ p q : PeerId, p ≠ q ∧
    ∀ (P : Primitives) (F : PeerFormat) (parse : String → Option PeerId),
      ¬((new []).pool.Right (new []).expected ∧ Run.AllSteps (Step P F parse) Keeps (new [])
        [.discovered p (some 1), .discovered q (some 2)]) := by
  let p : PeerId := ⟨"12D3KooA", by decide⟩
  let q : PeerId := ⟨"12D3KooB", by decide⟩
  have hne : p ≠ q := by decide
  refine ⟨p, q, hne, fun P F parse ⟨_, hall⟩ ↦ ?_⟩
  obtain ⟨hfirst, hrest⟩ := hall _ rfl
  have hmeets : PeerPool.AddMeets [⟨"", some p, 1⟩] ⟨"", some q, 2⟩ :=
    (@keeps_iff P F parse _ _ (.discovered q (some 2)) hfirst rfl).1 (hrest _ rfl).1
  rcases hmeets with hnew | ⟨⟨r, hr, hkey, -⟩, -⟩
  · exact (hnew _ (List.mem_singleton_self _)).1 rfl
  · obtain rfl := List.mem_singleton.1 hr
    exact hne (PeerKey.id.inj hkey)

end Foretias

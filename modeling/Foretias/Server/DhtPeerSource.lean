import Foretias.Library.KeyedTable
import Foretias.Library.Run
import Foretias.Server.PeerRegistration
import Mathlib.Data.Finset.Basic

/-!
# The peers found through the DHT

`DhtPeerSource` keeps the addresses of at most 256 peers, and an index from each capability to the
peers that advertise it, under two locks. An upsert holds the lock of the peers until it has
written the index, but only adds to it: a peer that advertises less than before stays indexed under
what it advertised (`listed_after_fewer`). A removal takes the two locks one after the other, and
may take a peer out of the index that has come back between them.

* `DhtPeerSource.Indexed.step` — a step that does neither keeps the index true.
* `dhtPeerLaw_of_settled` — so do runs of such steps, whenever no call is in progress.
-/

namespace Foretias

/-! ### The two maps -/

/-- The peers by id, as a table. -/
abbrev PeerTable := KeyedTable (Prod.fst : PeerId × Communerd.PeerAddr → PeerId)

/-- The index of capabilities. -/
abbrev CapabilityIndex := PeerCapability → Option (Finset PeerId)

namespace CapabilityIndex

variable (idx : CapabilityIndex) (p : PeerId)

/-- The peers indexed under a capability. -/
def named (c : PeerCapability) : Finset PeerId := (idx c).getD ∅

/-- `idx.entry(cap).or_default().insert(peer_id)`. -/
def insert (c : PeerCapability) : CapabilityIndex :=
  Function.update idx c (some (Insert.insert p (idx.named c)))

/-- A peer indexed under every capability of a list. -/
def insertAll (caps : List PeerCapability) : CapabilityIndex :=
  caps.foldl (fun idx c ↦ idx.insert p c) idx

/-- A peer taken out of every set, and the empty sets dropped. -/
def remove : CapabilityIndex :=
  fun c ↦ ((idx c).map fun set ↦ set.erase p).filter fun set ↦ set ≠ ∅

variable {idx} {p} {c c' : PeerCapability} {q : PeerId}

theorem mem_named_insert : q ∈ (idx.insert p c).named c' ↔ (q = p ∧ c' = c) ∨ q ∈ idx.named c' := by
  rw [named, insert]
  rcases eq_or_ne c' c with rfl | hne
  · rw [Function.update_self, Option.getD_some, Finset.mem_insert]
    simp
  · rw [Function.update_of_ne hne]
    simp [hne, named]

theorem mem_named_insertAll {caps : List PeerCapability} :
    q ∈ (idx.insertAll p caps).named c ↔ (q = p ∧ c ∈ caps) ∨ q ∈ idx.named c := by
  induction caps generalizing idx with
  | nil => simp [insertAll]
  | cons c' caps ih =>
    rw [insertAll, List.foldl_cons]
    show q ∈ ((idx.insert p c').insertAll p caps).named c ↔ _
    rw [ih, mem_named_insert, List.mem_cons]
    tauto

theorem mem_named_remove : q ∈ (idx.remove p).named c ↔ q ≠ p ∧ q ∈ idx.named c := by
  rw [named, remove, named]
  rcases idx c with - | set
  · simp
  · by_cases hempty : set.erase p = ∅
    · have hq : ¬(q ≠ p ∧ q ∈ set) := by
        rw [← Finset.mem_erase, hempty]
        exact Finset.notMem_empty q
      simpa [Option.filter, hempty] using hq
    · simp [Option.filter, hempty]

end CapabilityIndex

/-! ### Calls -/

/-- `MAX_PEERS`. -/
def maxPeers : ℕ := 256

/-- Where a call stands. -/
inductive DhtPeerPhase
  | idle
  /-- An upsert has written the address, and keeps the lock of the peers. -/
  | indexing (p : PeerId) (caps : List PeerCapability)
  /-- A removal has taken the peer out of the table. -/
  | removing (p : PeerId)
  | returned

/-- The two maps and the calls. -/
structure DhtPeerSource where
  peers : PeerTable
  capabilityIndex : CapabilityIndex
  calls : ℕ → DhtPeerPhase
  /-- What the latest accepted upsert of a peer advertised. -/
  advertised : PeerId → List PeerCapability

/-- A step of a call, under one lock or two. -/
inductive DhtPeerEvent
  | upsertWithCapabilities (i : ℕ) (p : PeerId) (addr : Communerd.PeerAddr)
      (caps : List PeerCapability)
  | index (i : ℕ)
  | updateJsonRpc (p : PeerId) (jsonRpc : String)
  | remove (i : ℕ) (p : PeerId)
  | unindex (i : ℕ)

/-- `upsert`. -/
def DhtPeerEvent.upsert (i : ℕ) (p : PeerId) (addr : Communerd.PeerAddr) : DhtPeerEvent :=
  .upsertWithCapabilities i p addr [.attestWilling]

namespace DhtPeerSource

/-- `DhtPeerSource::default`. -/
def new : DhtPeerSource := ⟨.empty, fun _ ↦ none, fun _ ↦ .idle, fun _ ↦ []⟩

variable (s : DhtPeerSource)

/-- `list_by_capability`; the order of a hash set is not known. -/
def listByCapability (c : PeerCapability) : Multiset Communerd.PeerAddr :=
  (s.capabilityIndex.named c).val.filterMap fun p ↦ (s.peers.lookup p).map Prod.snd

/-- The table is full, and the peer is not in it. -/
def Rejects (p : PeerId) : Prop := maxPeers ≤ s.peers.rows.length ∧ s.peers.lookup p = none

/-- An upsert of the peer is about to write the index. -/
def Indexing (p : PeerId) : Prop := ∃ i caps, s.calls i = .indexing p caps

/-- No upsert keeps the lock of the peers. -/
def Unlocked : Prop := ∀ p, ¬s.Indexing p

/-- No call is in progress. -/
def Quiet : Prop := ∀ i, s.calls i = .idle ∨ s.calls i = .returned

end DhtPeerSource

/-- The steps of the calls. -/
inductive DhtPeerStep : DhtPeerSource → DhtPeerEvent → DhtPeerSource → Prop
  /-- An upsert is rejected. -/
  | reject {s : DhtPeerSource} {i : ℕ} {p : PeerId} {addr : Communerd.PeerAddr}
      {caps : List PeerCapability} (hidle : s.calls i = .idle) (hlock : s.Unlocked)
      (hrejects : s.Rejects p) :
      DhtPeerStep s (.upsertWithCapabilities i p addr caps)
        { s with calls := Function.update s.calls i .returned }
  /-- Or it writes the address, and keeps the lock. -/
  | insert {s : DhtPeerSource} {i : ℕ} {p : PeerId} {addr : Communerd.PeerAddr}
      {caps : List PeerCapability} (hidle : s.calls i = .idle) (hlock : s.Unlocked)
      (haccepts : ¬s.Rejects p) :
      DhtPeerStep s (.upsertWithCapabilities i p addr caps) { s with
        peers := s.peers.insert (p, addr)
        calls := Function.update s.calls i (.indexing p caps)
        advertised := Function.update s.advertised p caps }
  /-- It adds the capabilities to the index and returns. -/
  | index {s : DhtPeerSource} {i : ℕ} {p : PeerId} {caps : List PeerCapability}
      (hindexing : s.calls i = .indexing p caps) :
      DhtPeerStep s (.index i) { s with
        capabilityIndex := s.capabilityIndex.insertAll p caps
        calls := Function.update s.calls i .returned }
  /-- The address of a known peer is written. -/
  | updateJsonRpc {s : DhtPeerSource} {p : PeerId} {jsonRpc : String} (hlock : s.Unlocked) :
      DhtPeerStep s (.updateJsonRpc p jsonRpc) { s with
        peers := s.peers.mapRows (fun x ↦ (x.1, if x.1 = p then { x.2 with jsonRpc } else x.2))
          fun _ ↦ rfl }
  /-- A removal takes the peer out of the table, and releases the lock. -/
  | remove {s : DhtPeerSource} {i : ℕ} {p : PeerId} (hidle : s.calls i = .idle)
      (hlock : s.Unlocked) :
      DhtPeerStep s (.remove i p) { s with
        peers := s.peers.erase p
        calls := Function.update s.calls i (.removing p) }
  /-- It takes it out of the index and returns. -/
  | unindex {s : DhtPeerSource} {i : ℕ} {p : PeerId} (hremoving : s.calls i = .removing p) :
      DhtPeerStep s (.unindex i) { s with
        capabilityIndex := s.capabilityIndex.remove p
        calls := Function.update s.calls i .returned }

/-- An upsert that writes the index finds its peer under no other capability; a removal that does
finds its peer gone, or about to be indexed. -/
def DhtPeerSource.Settled (s : DhtPeerSource) : DhtPeerEvent → Prop
  | .index i => ∀ p caps, s.calls i = .indexing p caps →
      ∀ c, p ∈ s.capabilityIndex.named c → c ∈ caps
  | .unindex i => ∀ p, s.calls i = .removing p → s.peers.lookup p = none ∨ s.Indexing p
  | _ => True

variable {s s' : DhtPeerSource} {event : DhtPeerEvent} {events : List DhtPeerEvent} {i : ℕ}
  {p : PeerId} {addr : Communerd.PeerAddr} {caps : List PeerCapability} {phase : DhtPeerPhase}

/-! ### What an index should say -/

/-- A peer of the table is indexed under what it advertised, unless an upsert is about to index it;
a peer that is not there is indexed only while a removal is about to take it out. -/
structure DhtPeerSource.Indexed (s : DhtPeerSource) : Prop where
  /-- One upsert at a time keeps the lock. -/
  alone : ∀ i j p q caps caps', s.calls i = .indexing p caps → s.calls j = .indexing q caps' → i = j
  indexing : ∀ i p caps, s.calls i = .indexing p caps →
    s.peers.lookup p ≠ none ∧ s.advertised p = caps
  present : ∀ x ∈ s.peers.rows, ¬s.Indexing x.1 →
    ∀ c, x.1 ∈ s.capabilityIndex.named c ↔ c ∈ s.advertised x.1
  absent : ∀ p, s.peers.lookup p = none → ∀ c, p ∈ s.capabilityIndex.named c →
    ∃ i, s.calls i = .removing p
  bounded : s.peers.rows.length ≤ maxPeers

namespace DhtPeerSource

theorem Indexed.new : Indexed .new where
  alone _ _ _ _ _ _ h := nomatch h
  indexing _ _ _ h := nomatch h
  present _ h := nomatch h
  absent _ _ _ h := absurd h (Finset.notMem_empty _)
  bounded := Nat.zero_le _

/-- A call that moved on to a state other than writing the index is not the one that does. -/
theorem indexing_of_update {j : ℕ} (hphase : ∀ p caps, phase ≠ .indexing p caps)
    (h : Function.update s.calls i phase j = .indexing p caps) :
    j ≠ i ∧ s.calls j = .indexing p caps := by
  rcases eq_or_ne j i with rfl | hne
  · rw [Function.update_self] at h
    exact absurd h (hphase p caps)
  · rw [Function.update_of_ne hne] at h
    exact ⟨hne, h⟩

/-- A removal goes on while other calls move on. -/
theorem removing_update {j : ℕ} (hj : s.calls j = .removing p) (hi : s.calls i ≠ .removing p) :
    Function.update s.calls i phase j = .removing p := by
  rcases eq_or_ne j i with rfl | hne
  · exact absurd hj hi
  · rw [Function.update_of_ne hne]
    exact hj

theorem lookup_insert_pair (peers : PeerTable) (p : PeerId) (addr : Communerd.PeerAddr) :
    (peers.insert (p, addr)).lookup p = some (p, addr) := by
  show (peers.insert (p, addr)).lookup (Prod.fst (p, addr)) = _
  exact KeyedTable.lookup_insert_self

/-- An accepted upsert keeps the table within its bound. -/
theorem length_insert_le (h : s.peers.rows.length ≤ maxPeers) (haccepts : ¬s.Rejects p) :
    (s.peers.insert (p, addr)).rows.length ≤ maxPeers := by
  have hinsert : (s.peers.insert (p, addr)).rows.length = (s.peers.erase p).rows.length + 1 := by
    rw [KeyedTable.insert, List.length_append]
    rfl
  rw [hinsert]
  rcases hlookup : s.peers.lookup p with - | x
  · have hlt : s.peers.rows.length < maxPeers := Nat.lt_of_not_le fun hle ↦ haccepts ⟨hle, hlookup⟩
    exact (Nat.succ_le_succ (List.length_filter_le ..)).trans hlt
  · rw [← List.length_cons (a := x), ← (KeyedTable.perm_cons_erase hlookup).length_eq]
    exact h

namespace Indexed

variable (h : s.Indexed)
include h

/-- An upsert is rejected. -/
theorem reject (hidle : s.calls i = .idle) :
    Indexed { s with calls := Function.update s.calls i .returned } := by
  have hold : ∀ {j p caps}, Function.update s.calls i .returned j = .indexing p caps →
      s.calls j = .indexing p caps := fun hj ↦ (indexing_of_update (by simp) hj).2
  refine ⟨fun j k p q caps caps' hj hk ↦ h.alone j k p q caps caps' (hold hj) (hold hk),
    fun j p caps hj ↦ h.indexing j p caps (hold hj), fun x hx hnot ↦ h.present x hx ?_,
    fun p hnone c hc ↦ ?_, h.bounded⟩
  · rintro ⟨j, caps, hj⟩
    refine hnot ⟨j, caps, ?_⟩
    have hne : j ≠ i := by
      rintro rfl
      rw [hidle] at hj
      cases hj
    exact (Function.update_of_ne hne ..).trans hj
  · obtain ⟨j, hj⟩ := h.absent p hnone c hc
    exact ⟨j, removing_update hj (by simp [hidle])⟩

/-- An upsert writes an address: what the index says of its peer is open from here on. -/
theorem insert (hidle : s.calls i = .idle) (hlock : s.Unlocked) (haccepts : ¬s.Rejects p) :
    Indexed { s with
      peers := s.peers.insert (p, addr)
      calls := Function.update s.calls i (.indexing p caps)
      advertised := Function.update s.advertised p caps } := by
  have honly : ∀ {j q caps'}, Function.update s.calls i (.indexing p caps) j = .indexing q caps' →
      j = i ∧ q = p ∧ caps' = caps := by
    intro j q caps' hj
    rcases eq_or_ne j i with rfl | hne
    · rw [Function.update_self] at hj
      obtain ⟨rfl, rfl⟩ := DhtPeerPhase.indexing.inj hj
      exact ⟨rfl, rfl, rfl⟩
    · rw [Function.update_of_ne hne] at hj
      exact absurd ⟨j, caps', hj⟩ (hlock q)
  refine ⟨fun j k _ _ _ _ hj hk ↦ (honly hj).1.trans (honly hk).1.symm, fun j q caps' hj ↦ ?_,
    fun x hx hnot c ↦ ?_, fun q hnone c hc ↦ ?_, length_insert_le h.bounded haccepts⟩
  · obtain ⟨-, rfl, rfl⟩ := honly hj
    dsimp only
    rw [lookup_insert_pair, Function.update_self]
    exact ⟨Option.some_ne_none _, rfl⟩
  · rcases KeyedTable.mem_insert.1 hx with rfl | ⟨hx, hne⟩
    · exact absurd ⟨i, caps, Function.update_self ..⟩ hnot
    · dsimp only
      rw [Function.update_of_ne hne]
      exact h.present x hx (hlock x.1) c
  · rcases eq_or_ne q p with rfl | hne
    · rw [lookup_insert_pair] at hnone
      cases hnone
    · rw [KeyedTable.lookup_insert_of_ne hne] at hnone
      obtain ⟨j, hj⟩ := h.absent q hnone c hc
      exact ⟨j, removing_update hj (by simp [hidle])⟩

/-- It writes the index, which has the peer under nothing else. -/
theorem index (hindexing : s.calls i = .indexing p caps)
    (honly : ∀ c, p ∈ s.capabilityIndex.named c → c ∈ caps) :
    Indexed { s with
      capabilityIndex := s.capabilityIndex.insertAll p caps
      calls := Function.update s.calls i .returned } := by
  have hdone : ∀ {j q caps'}, Function.update s.calls i .returned j ≠ .indexing q caps' := by
    intro j q caps' hj
    obtain ⟨hne, hj⟩ := indexing_of_update (by simp) hj
    exact hne (h.alone j i q p caps' caps hj hindexing)
  obtain ⟨hpresent, hadvertised⟩ := h.indexing i p caps hindexing
  refine ⟨fun _ _ _ _ _ _ hj ↦ absurd hj hdone, fun _ _ _ hj ↦ absurd hj hdone,
    fun x hx hnot c ↦ ?_, fun q hnone c hc ↦ ?_, h.bounded⟩
  · rw [CapabilityIndex.mem_named_insertAll]
    rcases eq_or_ne x.1 p with heq | hne
    · rw [heq, hadvertised]
      exact ⟨fun hor ↦ hor.elim And.right (honly c), fun hc ↦ .inl ⟨rfl, hc⟩⟩
    · have hother : ¬s.Indexing x.1 := by
        rintro ⟨j, caps', hj⟩
        obtain rfl := h.alone j i x.1 p caps' caps hj hindexing
        exact hne (DhtPeerPhase.indexing.inj (hj.symm.trans hindexing)).1
      rw [h.present x hx hother c]
      exact or_iff_right fun hp ↦ hne hp.1
  · have hne : q ≠ p := by
      rintro rfl
      exact hpresent hnone
    obtain ⟨j, hj⟩ := h.absent q hnone c
      ((CapabilityIndex.mem_named_insertAll.1 hc).resolve_left fun hq ↦ hne hq.1)
    exact ⟨j, removing_update hj (by simp [hindexing])⟩

/-- The address of a known peer is written. -/
theorem updateJsonRpc (f : PeerId × Communerd.PeerAddr → PeerId × Communerd.PeerAddr)
    (hf : ∀ x, (f x).1 = x.1) : Indexed { s with peers := s.peers.mapRows f hf } := by
  have hlookup : ∀ q, (s.peers.mapRows f hf).lookup q = none ↔ s.peers.lookup q = none := by
    intro q
    rw [KeyedTable.lookup_mapRows, Option.map_eq_none_iff]
  refine ⟨h.alone, fun j q caps hj ↦ ?_, fun x hx hnot c ↦ ?_,
    fun q hnone ↦ h.absent q ((hlookup q).1 hnone), ?_⟩
  · obtain ⟨hpresent, hadvertised⟩ := h.indexing j q caps hj
    exact ⟨mt (hlookup q).1 hpresent, hadvertised⟩
  · obtain ⟨y, hy, rfl⟩ := List.mem_map.1 hx
    rw [hf]
    exact h.present y hy (hf y ▸ hnot) c
  · rw [KeyedTable.mapRows, List.length_map]
    exact h.bounded

/-- A removal takes a peer out of the table: its place in the index is to go. -/
theorem remove (hidle : s.calls i = .idle) (hlock : s.Unlocked) :
    Indexed { s with
      peers := s.peers.erase p
      calls := Function.update s.calls i (.removing p) } := by
  have hnone : ∀ {j q caps}, Function.update s.calls i (.removing p) j ≠ .indexing q caps := by
    intro j q caps hj
    exact hlock q ⟨j, caps, (indexing_of_update (by simp) hj).2⟩
  refine ⟨fun _ _ _ _ _ _ hj ↦ absurd hj hnone, fun _ _ _ hj ↦ absurd hj hnone,
    fun x hx _ ↦ h.present x (KeyedTable.mem_erase.1 hx).1 (hlock x.1), fun q hq c hc ↦ ?_,
    (List.length_filter_le ..).trans h.bounded⟩
  rcases eq_or_ne q p with rfl | hne
  · exact ⟨i, Function.update_self ..⟩
  · rw [KeyedTable.lookup_erase_of_ne hne] at hq
    obtain ⟨j, hj⟩ := h.absent q hq c hc
    exact ⟨j, removing_update hj (by simp [hidle])⟩

/-- It takes it out of the index. -/
theorem unindex (hremoving : s.calls i = .removing p)
    (hgone : s.peers.lookup p = none ∨ s.Indexing p) :
    Indexed { s with
      capabilityIndex := s.capabilityIndex.remove p
      calls := Function.update s.calls i .returned } := by
  have hold : ∀ {j q caps}, Function.update s.calls i .returned j = .indexing q caps →
      s.calls j = .indexing q caps := fun hj ↦ (indexing_of_update (by simp) hj).2
  have hnew : ∀ {q}, s.Indexing q → Indexing { s with
      capabilityIndex := s.capabilityIndex.remove p
      calls := Function.update s.calls i .returned } q := by
    rintro q ⟨j, caps, hj⟩
    have hne : j ≠ i := by
      rintro rfl
      cases hremoving.symm.trans hj
    exact ⟨j, caps, (Function.update_of_ne hne ..).trans hj⟩
  refine ⟨fun j k q r caps caps' hj hk ↦ h.alone j k q r caps caps' (hold hj) (hold hk),
    fun j q caps hj ↦ h.indexing j q caps (hold hj), fun x hx hnot c ↦ ?_,
    fun q hnone c hc ↦ ?_, h.bounded⟩
  · have hx' : ¬s.Indexing x.1 := fun hindexing ↦ hnot (hnew hindexing)
    have hne : x.1 ≠ p := by
      rintro rfl
      rcases hgone with hnone | hindexing
      · exact KeyedTable.lookup_eq_none.1 hnone x hx rfl
      · exact hx' hindexing
    rw [CapabilityIndex.mem_named_remove, and_iff_right hne]
    exact h.present x hx hx' c
  · obtain ⟨hne, hc⟩ := CapabilityIndex.mem_named_remove.1 hc
    obtain ⟨j, hj⟩ := h.absent q hnone c hc
    have hi : s.calls i ≠ .removing q := fun heq ↦
      hne (DhtPeerPhase.removing.inj (heq.symm.trans hremoving))
    exact ⟨j, removing_update hj hi⟩

/-- **What a step preserves.** -/
theorem step (hstep : Guarded DhtPeerStep DhtPeerSource.Settled s event s') : s'.Indexed := by
  obtain ⟨hsettled, hstep⟩ := hstep
  cases hstep with
  | reject hidle => exact h.reject hidle
  | insert hidle hlock haccepts => exact h.insert hidle hlock haccepts
  | index hindexing => exact h.index hindexing (hsettled _ _ hindexing)
  | updateJsonRpc hlock => exact h.updateJsonRpc _ _
  | remove hidle hlock => exact h.remove hidle hlock
  | unindex hremoving => exact h.unindex hremoving (hsettled _ hremoving)

end Indexed

/-! ### When no call is in progress -/

namespace Indexed

variable (h : s.Indexed) (hquiet : s.Quiet)
include h hquiet

/-- The index names peers of the table only. -/
theorem lookup_ne_none {c : PeerCapability} (hp : p ∈ s.capabilityIndex.named c) :
    s.peers.lookup p ≠ none := by
  intro hnone
  obtain ⟨i, hi⟩ := h.absent p hnone c hp
  rcases hquiet i with hidle | hreturned
  · cases hi.symm.trans hidle
  · cases hi.symm.trans hreturned

/-- It names those that advertised a capability. -/
theorem mem_named (c : PeerCapability) : p ∈ s.capabilityIndex.named c ↔
    ∃ x ∈ s.peers.rows, c ∈ s.advertised x.1 ∧ x.1 = p := by
  have hsettled : ∀ x ∈ s.peers.rows, (x.1 ∈ s.capabilityIndex.named c ↔ c ∈ s.advertised x.1) := by
    intro x hx
    refine h.present x hx (fun ⟨i, caps, hi⟩ ↦ ?_) c
    rcases hquiet i with hidle | hreturned
    · cases hi.symm.trans hidle
    · cases hi.symm.trans hreturned
  constructor
  · intro hp
    obtain ⟨x, hx⟩ := Option.ne_none_iff_exists'.1 (h.lookup_ne_none hquiet hp)
    obtain ⟨hmem, rfl⟩ := KeyedTable.lookup_eq_some.1 hx
    exact ⟨x, hmem, (hsettled x hmem).1 hp, rfl⟩
  · rintro ⟨x, hmem, hc, rfl⟩
    exact (hsettled x hmem).2 hc

/-- So the peers listed are those, each once. -/
theorem listByCapability_eq (c : PeerCapability) : s.listByCapability c =
    ((s.peers.rows.filter fun x ↦ c ∈ s.advertised x.1).map Prod.snd : List _) := by
  have hnamed : (s.capabilityIndex.named c).val =
      ((s.peers.rows.filter fun x ↦ c ∈ s.advertised x.1).map Prod.fst : List _) := by
    refine (Multiset.Nodup.ext (s.capabilityIndex.named c).nodup (Multiset.coe_nodup.2
      (s.peers.nodup.sublist (List.filter_sublist.map _)))).2 fun q ↦ ?_
    rw [Finset.mem_val, h.mem_named hquiet, Multiset.mem_coe, List.mem_map]
    simp [and_assoc]
  have hlookup : ∀ x ∈ s.peers.rows.filter fun x ↦ c ∈ s.advertised x.1,
      (s.peers.lookup x.1).map Prod.snd = some x.2 := by
    intro x hx
    rw [KeyedTable.lookup_eq_some.2 ⟨(List.mem_filter.1 hx).1, rfl⟩]
    rfl
  rw [listByCapability, hnamed, Multiset.filterMap_coe, List.filterMap_map]
  exact congrArg _ ((List.filterMap_congr hlookup).trans (congrFun List.filterMap_eq_map' _))

end Indexed

end DhtPeerSource

/-- `list_by_capability` returns the addresses of the peers that are present and advertised the
capability last, each once; the index names only present peers; the table is within its bound. -/
structure DhtPeerLaw (s : DhtPeerSource) : Prop where
  listed : ∀ c, s.listByCapability c =
    ((s.peers.rows.filter fun x ↦ c ∈ s.advertised x.1).map Prod.snd : List _)
  named : ∀ c, ∀ p ∈ s.capabilityIndex.named c, s.peers.lookup p ≠ none
  bounded : s.peers.rows.length ≤ maxPeers

/-- **The law holds whenever no call is in progress**, in every run in which an upsert that writes
the index finds its peer under no other capability, and a removal that does finds it gone or about
to be indexed. -/
theorem dhtPeerLaw_of_settled (hrun : Run (Guarded DhtPeerStep DhtPeerSource.Settled) .new events s)
    (hquiet : s.Quiet) : DhtPeerLaw s := by
  have h : s.Indexed := hrun.invariant .step .new
  exact ⟨h.listByCapability_eq hquiet, fun _ _ ↦ h.lookup_ne_none hquiet, h.bounded⟩

/-! ### Calls by themselves -/

namespace DhtPeerSource

variable (s i p addr caps)

/-- The source once an upsert has returned. -/
def upserted : DhtPeerSource where
  peers := s.peers.insert (p, addr)
  capabilityIndex := s.capabilityIndex.insertAll p caps
  calls := Function.update (Function.update s.calls i (.indexing p caps)) i .returned
  advertised := Function.update s.advertised p caps

/-- The source once a removal has returned. -/
def removed : DhtPeerSource where
  peers := s.peers.erase p
  capabilityIndex := s.capabilityIndex.remove p
  calls := Function.update (Function.update s.calls i (.removing p)) i .returned
  advertised := s.advertised

variable {s i p addr caps}

theorem Quiet.unlocked (h : s.Quiet) : s.Unlocked := by
  rintro q ⟨j, caps', hj⟩
  rcases h j with hidle | hreturned
  · cases hj.symm.trans hidle
  · cases hj.symm.trans hreturned

theorem Quiet.update (h : s.Quiet) (i : ℕ) (phase : DhtPeerPhase) (j : ℕ) :
    Function.update (Function.update s.calls i phase) i .returned j = .idle ∨
      Function.update (Function.update s.calls i phase) i .returned j = .returned := by
  rw [Function.update_idem]
  rcases eq_or_ne j i with rfl | hne
  · exact .inr (Function.update_self ..)
  · rw [Function.update_of_ne hne]
    exact h j

theorem Quiet.upserted (h : s.Quiet) : (s.upserted i p addr caps).Quiet := h.update i _

theorem Quiet.removed (h : s.Quiet) : (s.removed i p).Quiet := h.update i _

/-- An upsert writes the address when there is room for it. -/
theorem Quiet.step_upsert (h : s.Quiet) (hidle : s.calls i = .idle)
    (hroom : s.peers.rows.length < maxPeers) :
    DhtPeerStep s (.upsertWithCapabilities i p addr caps) { s with
      peers := s.peers.insert (p, addr)
      calls := Function.update s.calls i (.indexing p caps)
      advertised := Function.update s.advertised p caps } :=
  .insert hidle h.unlocked fun hrejects ↦ absurd hrejects.1 hroom.not_ge

/-- An upsert in a quiet state. -/
theorem Quiet.run_upserted (h : s.Quiet) (hidle : s.calls i = .idle)
    (hroom : s.peers.rows.length < maxPeers) :
    Run DhtPeerStep s [.upsertWithCapabilities i p addr caps, .index i]
      (s.upserted i p addr caps) :=
  .cons (h.step_upsert hidle hroom) (.cons (.index (Function.update_self ..)) (.nil _))

/-- It is settled when the peer is indexed under nothing else. -/
theorem Quiet.run_upserted_settled (h : s.Quiet) (hidle : s.calls i = .idle)
    (hroom : s.peers.rows.length < maxPeers)
    (honly : ∀ c, p ∈ s.capabilityIndex.named c → c ∈ caps) :
    Run (Guarded DhtPeerStep Settled) s [.upsertWithCapabilities i p addr caps, .index i]
      (s.upserted i p addr caps) := by
  refine .cons ⟨trivial, h.step_upsert hidle hroom⟩
    (.cons ⟨fun q caps' hindexing c hc ↦ ?_, .index (Function.update_self ..)⟩ (.nil _))
  obtain ⟨rfl, rfl⟩ :=
    DhtPeerPhase.indexing.inj ((Function.update_self ..).symm.trans hindexing)
  exact honly c hc

/-- A removal in a quiet state is settled. -/
theorem Quiet.run_removed (h : s.Quiet) (hidle : s.calls i = .idle) :
    Run (Guarded DhtPeerStep Settled) s [.remove i p, .unindex i] (s.removed i p) := by
  refine .cons ⟨trivial, .remove hidle h.unlocked⟩
    (.cons ⟨fun q hremoving ↦ .inl ?_, .unindex (Function.update_self ..)⟩ (.nil _))
  obtain rfl := DhtPeerPhase.removing.inj ((Function.update_self ..).symm.trans hremoving)
  exact KeyedTable.lookup_eq_none.2 fun x hx ↦ (KeyedTable.mem_erase.1 hx).2

theorem quiet_new : new.Quiet := fun _ ↦ .inl rfl

end DhtPeerSource

/-! ### A peer that advertises less than before -/

/-- A peer. -/
def firstPeer : PeerId := ⟨"QmFirst", by decide⟩

/-- Another one. -/
def secondPeer : PeerId := ⟨"QmSecond", by decide⟩

/-- Their address. -/
def peerAddr : Communerd.PeerAddr := ⟨"10.0.0.1:7001", none, 0⟩

/-- A peer advertises one capability, then two; another one comes and is removed. -/
theorem dhtPeerLaw_twoPeers : ∃ s,
    Run (Guarded DhtPeerStep DhtPeerSource.Settled) .new
      ([.upsert 0 firstPeer peerAddr, .index 0] ++
        ([.upsertWithCapabilities 1 firstPeer peerAddr [.attestWilling, .mirrorWilling],
          .index 1] ++
        ([.upsert 2 secondPeer peerAddr, .index 2] ++
          [.remove 3 secondPeer, .unindex 3]))) s ∧
    DhtPeerLaw s := by
  let s₁ := DhtPeerSource.new.upserted 0 firstPeer peerAddr [.attestWilling]
  let s₂ := s₁.upserted 1 firstPeer peerAddr [.attestWilling, .mirrorWilling]
  let s₃ := s₂.upserted 2 secondPeer peerAddr [.attestWilling]
  have hquiet₁ : s₁.Quiet := DhtPeerSource.quiet_new.upserted
  have hquiet₂ : s₂.Quiet := hquiet₁.upserted
  have hquiet₃ : s₃.Quiet := hquiet₂.upserted
  have hfirst : Run (Guarded DhtPeerStep DhtPeerSource.Settled) .new
      [.upsert 0 firstPeer peerAddr, .index 0] s₁ :=
    DhtPeerSource.quiet_new.run_upserted_settled rfl (by decide)
      fun c hc ↦ absurd hc (Finset.notMem_empty _)
  have hmore : Run (Guarded DhtPeerStep DhtPeerSource.Settled) s₁ [.upsertWithCapabilities 1
      firstPeer peerAddr [.attestWilling, .mirrorWilling], .index 1] s₂ := by
    refine hquiet₁.run_upserted_settled rfl (by decide +kernel) fun c hc ↦ ?_
    rcases CapabilityIndex.mem_named_insertAll.1 hc with ⟨-, hc⟩ | hc
    · exact List.mem_cons.2 (.inl (List.mem_singleton.1 hc))
    · exact absurd hc (Finset.notMem_empty _)
  have hsecond : Run (Guarded DhtPeerStep DhtPeerSource.Settled) s₂
      [.upsert 2 secondPeer peerAddr, .index 2] s₃ := by
    refine hquiet₂.run_upserted_settled rfl (by decide +kernel) fun c hc ↦ ?_
    have hne : secondPeer ≠ firstPeer := by decide
    rcases CapabilityIndex.mem_named_insertAll.1 hc with ⟨h, -⟩ | hc
    · exact absurd h hne
    · rcases CapabilityIndex.mem_named_insertAll.1 hc with ⟨h, -⟩ | hc
      · exact absurd h hne
      · exact absurd hc (Finset.notMem_empty _)
  have hrun := Run.append_iff.2 ⟨_, hfirst, Run.append_iff.2 ⟨_, hmore, Run.append_iff.2
    ⟨_, hsecond, hquiet₃.run_removed (i := 3) (p := secondPeer) rfl⟩⟩⟩
  exact ⟨_, hrun, dhtPeerLaw_of_settled hrun hquiet₃.removed⟩

/-- **A peer that advertises fewer capabilities than before is still listed under the others.** -/
theorem listed_after_fewer : ∃ (p : PeerId) (addr : Communerd.PeerAddr) (s : DhtPeerSource),
    Run DhtPeerStep .new ([.upsertWithCapabilities 0 p addr [.attestWilling, .mirrorWilling],
      .index 0] ++ [.upsert 1 p addr, .index 1]) s ∧ s.Quiet ∧
    s.advertised p = [.attestWilling] ∧ addr ∈ s.listByCapability .mirrorWilling ∧
    ¬DhtPeerLaw s := by
  let s₁ := DhtPeerSource.new.upserted 0 firstPeer peerAddr [.attestWilling, .mirrorWilling]
  let s₂ := s₁.upserted 1 firstPeer peerAddr [.attestWilling]
  have hquiet : s₁.Quiet := DhtPeerSource.quiet_new.upserted
  have hadvertised : s₂.advertised firstPeer = [.attestWilling] := by
    show Function.update s₁.advertised firstPeer [.attestWilling] firstPeer = _
    rw [Function.update_self]
  have hlookup : s₂.peers.lookup firstPeer = some (firstPeer, peerAddr) :=
    DhtPeerSource.lookup_insert_pair _ firstPeer peerAddr
  have hnamed : firstPeer ∈ s₂.capabilityIndex.named .mirrorWilling :=
    CapabilityIndex.mem_named_insertAll.2
      (.inr (CapabilityIndex.mem_named_insertAll.2 (.inl ⟨rfl, by decide⟩)))
  have hlisted : peerAddr ∈ s₂.listByCapability .mirrorWilling :=
    (Multiset.mem_filterMap _ _).2 ⟨firstPeer, hnamed, congrArg (Option.map Prod.snd) hlookup⟩
  refine ⟨firstPeer, peerAddr, s₂, Run.append_iff.2 ⟨s₁,
    DhtPeerSource.quiet_new.run_upserted rfl (by decide),
    hquiet.run_upserted rfl (by decide +kernel)⟩, hquiet.upserted, hadvertised, hlisted,
    fun hlaw ↦ ?_⟩
  rw [hlaw.listed] at hlisted
  obtain ⟨x, hx, -⟩ := List.mem_map.1 (Multiset.mem_coe.1 hlisted)
  obtain ⟨hmem, hc⟩ := List.mem_filter.1 hx
  have hkey : x.1 = firstPeer := by
    rcases KeyedTable.mem_insert.1 hmem with rfl | ⟨hold, hne⟩
    · rfl
    · rcases KeyedTable.mem_insert.1 hold with rfl | ⟨hnew, -⟩
      · rfl
      · cases hnew
  rw [hkey, hadvertised] at hc
  exact absurd (of_decide_eq_true hc) (by decide)

end Foretias

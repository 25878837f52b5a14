import Foretias.Server.MirrorInvariant

/-!
# What an accepted request reports

A `history_dump_chunk` reply counts the records of the chunk, a `ship_ack` or `stream_tick` reply
acknowledges all that the request carries; in every case these are the records that were verified.
The store takes them afterwards, and it takes one record for each chronon number: a record whose
number is stored is dropped without a word, whether it is the stored one sent again or another one
(`Inserted.eq_stored`). So the report is the number of newly stored records exactly if the numbers
are new and differ (`Inserted.reported_eq_iff`). The limit on mirrored keys is asked for when a
mirror is arranged, not when records come in; a request keeps it if its key has a list already or
passes `can_accept_mirror`.
-/

namespace Foretias

open ErrorState

variable (P : Primitives)

namespace MirrorRequest

/-- The records of a request, as far as they parse. -/
def carried : MirrorRequest → List ChrononRecord
  | shipAck params => params.rawRecords.filterMap Except.toOption
  | streamTick params => params.record.toList.filterMap Except.toOption
  | historyDumpChunk params => params.rawRecords.filterMap Except.toOption

/-- A request, handled, and how many records its reply reports as accepted: `accepted_count`, or
all that the request carries when the reply acknowledges it. -/
def handleReported : MirrorRequest → Handler ℕ
  | shipAck params => do
    let _ ← handleShipAck P params
    return params.rawRecords.length
  | streamTick params => do
    let _ ← handleStreamTick P params
    return 1
  | historyDumpChunk params => do
    let reply ← handleHistoryDumpChunk P params
    return reply.acceptedCount

theorem carried_eq {req : MirrorRequest} {rs : List ChrononRecord} (h : req.Carries rs) :
    req.carried = rs := by
  have hparsed : (rs.map Except.ok : List ParsedRecord).filterMap Except.toOption = rs := by
    rw [List.filterMap_map]
    exact List.filterMap_some
  cases req with
  | shipAck params =>
    rw [carried, show params.rawRecords = rs.map .ok from h]
    exact hparsed
  | streamTick params =>
    obtain ⟨r, hr, rfl⟩ := h
    rw [carried, hr]
    rfl
  | historyDumpChunk params =>
    rw [carried, h.2.1]
    exact hparsed

variable {P} {req : MirrorRequest} {store t : MirrorStore} {n : ℕ}

/-- A request that is accepted reports the records that it carries; they are a chain that comes
after the record its handler goes on from, and they are inserted. -/
theorem handleReported_eq_ok (h : req.handleReported P store = .ok n t) :
    n = req.carried.length ∧ Chained P (req.predecessor store) req.carried ∧
      t = store.insertAll req.tbid req.carried := by
  cases req with
  | shipAck params =>
    obtain ⟨reply, _, hreply, hn⟩ := bind_eq_ok.1 h
    obtain ⟨rs, hraw, hchained, rfl, -⟩ := handleShipAck_eq_ok.1 hreply
    cases hn
    rw [carried_eq (show Carries rs (.shipAck params) from hraw), hraw, List.length_map]
    exact ⟨rfl, hchained, rfl⟩
  | streamTick params =>
    obtain ⟨reply, _, hreply, hn⟩ := bind_eq_ok.1 h
    obtain ⟨r, hrecord, hfollows, rfl, -⟩ := handleStreamTick_eq_ok.1 hreply
    cases hn
    rw [carried_eq (show Carries [r] (.streamTick params) from ⟨r, hrecord, rfl⟩)]
    refine ⟨rfl, ⟨fun r' hr' ↦ ?_, .singleton r⟩, rfl⟩
    obtain rfl := Option.some_inj.1 hr'
    exact hfollows
  | historyDumpChunk params =>
    obtain ⟨reply, _, hreply, hn⟩ := bind_eq_ok.1 h
    obtain ⟨tbid, rs, htbid, hraw, hlength, hchained, rfl, rfl⟩ :=
      handleHistoryDumpChunk_eq_ok.1 hreply
    cases hn
    have hcarries : Carries rs (.historyDumpChunk params) := ⟨htbid ▸ rfl, hraw, hlength⟩
    rw [carried_eq hcarries, predecessor, MirrorRequest.tbid, htbid]
    exact ⟨rfl, hchained, rfl⟩

end MirrorRequest

/-! ### Stored keys -/

namespace MirrorStore

variable {store : MirrorStore} {key : String}

/-- How many keys have a list. -/
def mirroredCount (store : MirrorStore) : ℕ := store.mirrors.entries.length

theorem mirroredCount_eq (store : MirrorStore) : store.mirroredCount = store.mirrors.keys.length :=
  List.length_map _ |>.symm

/-- Records inserted for a key make a list for it, if there are any. -/
theorem mirroredCount_insertAll (rs : List ChrononRecord) :
    (store.insertAll key rs).mirroredCount =
      if rs = [] ∨ key ∈ store.mirrors then store.mirroredCount else store.mirroredCount + 1 := by
  induction rs generalizing store with
  | nil => rw [insertAll_nil, if_pos (.inl rfl)]
  | cons r rs ih =>
    obtain ⟨s, hs⟩ : ∃ s, store.insertMirrored key r = .ok s := ⟨_, rfl⟩
    have hmem : key ∈ s.mirrors := by
      cases hs
      exact (AList.mem_insert _).2 (.inl rfl)
    have hcount : s.mirroredCount =
        if key ∈ store.mirrors then store.mirroredCount else store.mirroredCount + 1 := by
      cases hs
      rw [mirroredCount_eq, mirroredCount_eq, AList.keys_insert, List.length_cons]
      split
      · rename_i hold
        rw [List.length_erase_of_mem (AList.mem_keys.1 hold)]
        exact Nat.sub_add_cancel (List.length_pos_of_mem (AList.mem_keys.1 hold))
      · rename_i hnew
        rw [List.erase_of_not_mem fun h ↦ hnew (AList.mem_keys.2 h)]
    rw [insertAll, hs]
    change (s.insertAll key rs).mirroredCount = _
    rw [ih, if_pos (.inr hmem), hcount]
    simp

theorem maxMirroredTbids_insertAll (rs : List ChrononRecord) :
    (store.insertAll key rs).maxMirroredTbids = store.maxMirroredTbids := by
  induction rs generalizing store with
  | nil => rfl
  | cons r rs ih => exact ih

end MirrorStore

/-! ### The account of a request -/

/-- The chronon numbers of records. -/
def chrononNumbers (rs : List ChrononRecord) : Finset ℕ := (rs.map ChrononRecord.key).toFinset

/-- How many records a store gained under a key. -/
def newlyStored (key : String) (store t : MirrorStore) : ℕ :=
  t.mirrorTickCount key - store.mirrorTickCount key

/-- A record differs from a stored one with the same chronon number. -/
def ConflictsWith (stored : List ChrononRecord) (r : ChrononRecord) : Prop :=
  ∃ a ∈ stored, a.chrononNumber = r.chrononNumber ∧ a ≠ r

/-- A request that reports exactly the records it adds, none of them in conflict with what is
stored when its turn comes, and leaves the store within its limit. -/
structure ExactReport (store : MirrorStore) (req : MirrorRequest) (n : ℕ) (t : MirrorStore) :
    Prop where
  /-- The report is the number of newly stored records. -/
  reported_eq : n = newlyStored req.tbid store t
  /-- No record that is reported as accepted is in conflict. -/
  not_conflictsWith : ∀ before r after, req.carried = before ++ r :: after →
    ¬ConflictsWith ((store.insertAll req.tbid before).records req.tbid) r
  /-- The limit is kept. -/
  mirroredCount_le : t.mirroredCount ≤ t.maxMirroredTbids

/-- The chronon numbers of a request are new and differ. -/
def NewNumbers (store : MirrorStore) (req : MirrorRequest) : Prop :=
  (req.carried.map ChrononRecord.key).Nodup ∧
    List.Disjoint ((store.records req.tbid).map ChrononRecord.key)
      (req.carried.map ChrononRecord.key)

/-- The request brings no key, or one that may be brought. -/
def KeepsLimit (store : MirrorStore) (req : MirrorRequest) : Prop :=
  req.carried = [] ∨ req.tbid ∈ store.mirrors ∨ store.canAcceptMirror req.tbid = true

/-- What an accepted request reports and does. -/
structure Inserted (store : MirrorStore) (req : MirrorRequest) (n : ℕ) (t : MirrorStore) :
    Prop where
  /-- The report counts the records of the request. -/
  reported_eq : n = req.carried.length
  /-- All of them were verified, the first one against what its handler goes on from. -/
  chained : Chained P (req.predecessor store) req.carried
  /-- There is one newly stored record for each new chronon number. -/
  newlyStored_eq : newlyStored req.tbid store t =
    (chrononNumbers req.carried \ chrononNumbers (store.records req.tbid)).card
  /-- What is stored stays. -/
  stored_subset : store.records req.tbid ⊆ t.records req.tbid
  /-- A record with the number of a stored one is that one. -/
  eq_stored : ∀ a ∈ store.records req.tbid, ∀ b ∈ t.records req.tbid,
    a.chrononNumber = b.chrononNumber → a = b
  /-- Other keys are left alone. -/
  records_eq : ∀ key, key ≠ req.tbid → t.records key = store.records key
  /-- The report is the number of newly stored records exactly if the numbers are new. -/
  reported_eq_iff : n = newlyStored req.tbid store t ↔ NewNumbers store req
  /-- A request that brings no key too many keeps the limit. -/
  mirroredCount_le : store.mirroredCount ≤ store.maxMirroredTbids → KeepsLimit store req →
    t.mirroredCount ≤ t.maxMirroredTbids

variable {P} {req : MirrorRequest} {store t : MirrorStore} {n : ℕ}

/-- The store gains a record for each chronon number that is not stored. -/
theorem newlyStored_insertAll (store : MirrorStore) (key : String) (rs : List ChrononRecord) :
    newlyStored key store (store.insertAll key rs) =
      (chrononNumbers rs \ chrononNumbers (store.records key)).card := by
  rw [newlyStored, MirrorStore.mirrorTickCount, MirrorStore.mirrorTickCount,
    MirrorStore.records_insertAll, length_foldl_insertByKey MirrorStore.ascending_records]
  exact Nat.add_sub_cancel_left _ _

/-- Requests that bring no key too many keep the limit. -/
theorem mirroredCount_le_of_keepsLimit (hle : store.mirroredCount ≤ store.maxMirroredTbids)
    (hkeeps : KeepsLimit store req) :
    (store.insertAll req.tbid req.carried).mirroredCount ≤ store.maxMirroredTbids := by
  rw [MirrorStore.mirroredCount_insertAll]
  split
  · exact hle
  · rename_i hnew
    rw [not_or] at hnew
    rcases hkeeps with hnil | hmem | haccept
    · exact absurd hnil hnew.1
    · exact absurd hmem hnew.2
    · rw [MirrorStore.canAcceptMirror, if_neg hnew.2] at haccept
      exact of_decide_eq_true haccept

/-- A request that is accepted reports its records, all of which were verified, adds one for each
new chronon number, and leaves all that is stored as it is. -/
theorem inserted_of_handleReported (h : req.handleReported P store = .ok n t) :
    Inserted P store req n t := by
  obtain ⟨rfl, hchained, rfl⟩ := MirrorRequest.handleReported_eq_ok h
  have hsubset : store.records req.tbid ⊆
      (store.insertAll req.tbid req.carried).records req.tbid := by
    rw [MirrorStore.records_insertAll]
    exact subset_foldl_insertByKey _
  refine ⟨rfl, hchained, newlyStored_insertAll .., hsubset, fun a ha b hb hnumber ↦ ?_,
    fun key hkey ↦ MirrorStore.records_insertAll_of_ne _ hkey, ?_, fun hle hkeeps ↦ ?_⟩
  · exact MirrorStore.ascending_records.eq_of_key_eq (hsubset ha) hb
      (congrArg UInt64.toNat hnumber)
  · rw [newlyStored_insertAll, eq_comm]
    exact card_sdiff_eq_length_iff
  · rw [MirrorStore.maxMirroredTbids_insertAll]
    exact mirroredCount_le_of_keepsLimit hle hkeeps

/-- A root and its child shipped to a mirror that stores the root: two records are reported, and
one is newly stored. -/
theorem inserted_of_handleReported_overlap : ∃ t,
    (MirrorRequest.shipped (default : Tbid).toHex
      [rootOf default default, childOf default (.replicate 32 1) default]).handleReported
        .transparent
        ((MirrorStore.new 1).insertAll (default : Tbid).toHex [rootOf default default]) =
      .ok 2 t ∧
    newlyStored (default : Tbid).toHex
      ((MirrorStore.new 1).insertAll (default : Tbid).toHex [rootOf default default]) t = 1 ∧
    Inserted .transparent
      ((MirrorStore.new 1).insertAll (default : Tbid).toHex [rootOf default default])
      (.shipped (default : Tbid).toHex
        [rootOf default default, childOf default (.replicate 32 1) default]) 2 t := by
  have hfirst : (rootOf default default).FirstRecord := ⟨rfl, by decide +kernel, rfl⟩
  have hchained : Chained .transparent none
      [rootOf default default, childOf default (.replicate 32 1) default] :=
    Chained.cons_iff.2 ⟨hfirst, Chained.cons_iff.2 ⟨linkedTo_childOf, .nil⟩⟩
  have h : (MirrorRequest.shipped (default : Tbid).toHex
      [rootOf default default, childOf default (.replicate 32 1) default]).handleReported
        .transparent
        ((MirrorStore.new 1).insertAll (default : Tbid).toHex [rootOf default default]) =
      .ok 2 _ :=
    bind_eq_ok.2 ⟨_, _, handleShipAck_eq_ok.2 ⟨_, rfl, hchained, rfl, rfl⟩, rfl⟩
  exact ⟨_, h, by decide +kernel, inserted_of_handleReported h⟩

/-- A second record of chronon 1, signed with the key of the first one and with its own. -/
def siblingOf (rootSeed seed : FixedBytes 32) (tbid : Tbid) : ChrononRecord :=
  let blob := autoAttestationBlobWithCount tbid.toHex 1 rootSeed 1 seed 0 default
  { childOf rootSeed seed tbid with
    chrononNumber := 1
    forwardForetis := (Primitives.transparent.ed25519Sign rootSeed blob).toList
    backwardForetis := (Primitives.transparent.ed25519Sign seed blob).toList }

/-- A mirror that stores a root, and is sent another record of chronon 1 by the same time being:
the record is reported as accepted and dropped. -/
theorem not_exactReport_sibling : ∃ t,
    (MirrorRequest.dumped (default : Tbid).toHex
      [siblingOf default (.replicate 32 1) default]).handleReported .transparent
        ((MirrorStore.new 1).insertAll (default : Tbid).toHex [rootOf default default]) =
      .ok 1 t ∧
    t.records (default : Tbid).toHex = [rootOf default default] ∧
    ¬ExactReport ((MirrorStore.new 1).insertAll (default : Tbid).toHex [rootOf default default])
      (.dumped (default : Tbid).toHex [siblingOf default (.replicate 32 1) default]) 1 t := by
  have hlatest : ((MirrorStore.new 1).insertAll (default : Tbid).toHex
      [rootOf default default]).latestRecord (default : Tbid).toHex =
        some (rootOf default default) := by
    decide +kernel
  have hlinked : LinkedTo .transparent (rootOf default default)
      (siblingOf default (.replicate 32 1) default) := by
    unfold LinkedTo
    decide +kernel
  have hchained : Chained .transparent
      (((MirrorStore.new 1).insertAll (default : Tbid).toHex
        [rootOf default default]).latestRecord (default : Tbid).toHex)
      [siblingOf default (.replicate 32 1) default] := by
    rw [hlatest]
    exact Chained.cons_iff.2 ⟨hlinked, .nil⟩
  refine ⟨_, bind_eq_ok.2 ⟨_, _, handleHistoryDumpChunk_eq_ok.2
    ⟨_, [siblingOf default (.replicate 32 1) default], rfl, rfl, by decide, hchained, rfl, rfl⟩,
    rfl⟩, by decide +kernel, fun h ↦ ?_⟩
  exact h.not_conflictsWith [] (siblingOf default (.replicate 32 1) default) [] rfl
    ⟨rootOf default default, by decide +kernel, by decide +kernel, by decide +kernel⟩

end Foretias

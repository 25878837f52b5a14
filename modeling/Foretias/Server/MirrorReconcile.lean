import Foretias.Server.MirrorInvariant

/-!
# Reconciling a mirror with its source

A source sends a summary of its calendar, the number of records and a hash, and a mirror compares
it with its own list (`handleMirrorReconcile`). The hash is over the chronon numbers alone, so two
lists in sync have the same numbers (`tickBytes_inj`), and nothing is known about the rest of their
records. A mirror that is behind asks for what comes after its last record; that is where the two
lists part if the mirror holds a beginning of the calendar (`le_of_differsAt`).
-/

namespace Foretias

open ErrorState

variable (P : Primitives)

/-! ### Summaries -/

/-- The chronon numbers, each as eight bytes, one after another. -/
def tickBytes (records : List ChrononRecord) : Bytes :=
  records.flatMap fun record ↦ u64Be record.chrononNumber

/-- `compute_hash_sanity`. -/
def computeHashSanity (records : List ChrononRecord) : String :=
  hexEncode (P.sha256 (tickBytes records)).toList

/-- `mirror_info`: the number of records under a key, the last chronon number and the hash. -/
def MirrorStore.mirrorInfo (store : MirrorStore) (tbidHex : String) :
    Option (ℕ × UInt64 × String) := do
  let mirrored ← store.mirrors.lookup tbidHex
  if mirrored.records.isEmpty then none
  else
    let last ← mirrored.records.getLast?
    some (mirrored.records.length, last.chrononNumber, computeHashSanity P mirrored.records)

/-! ### The request -/

/-- The members of a `mirror_reconcile` request. -/
structure ReconcileParams where
  /-- Member `tbid`, when it is a string. -/
  tbid : Option String
  /-- Member `peer_tick_count`, when it is a number. -/
  peerTickCount : Option ℕ
  /-- Member `peer_latest_tick`, when it is a number; it is not looked at. -/
  peerLatestTick : Option UInt64
  /-- Member `peer_hash_sanity`, when it is a string. -/
  peerHashSanity : Option String

/-- The reply of `mirror_reconcile`. -/
structure ReconcileReply where
  status : String
  myTickCount : ℕ
  myLatestTick : UInt64
  myHashSanity : String
  divergenceTick : Option UInt64

/-- `n + 1`; past the last word it panics in a build with overflow checks, and is zero else. -/
def succU64 (overflowChecks : Bool) (n : UInt64) : Result RpcError UInt64 :=
  if overflowChecks ∧ n.toNat + 1 = 2 ^ 64 then .error .panic else pure (n + 1)

/-- How a mirror stands to its peer. -/
def reconcileStatus (myTickCount peerTickCount : ℕ) (myHash peerHash : String) : String :=
  if myTickCount = peerTickCount ∧ myHash = peerHash then "in_sync"
  else if myTickCount < peerTickCount then "behind"
  else if myTickCount > peerTickCount then "ahead"
  else "diverged"

/-- The tick after the last one, for a mirror that is behind or diverged. -/
def divergenceTick (overflowChecks : Bool) (status : String) (myLatestTick : UInt64) :
    Result RpcError (Option UInt64) :=
  if status = "behind" ∨ status = "diverged" then some <$> succU64 overflowChecks myLatestTick
  else pure none

/-- `handle_mirror_reconcile`. -/
def handleMirrorReconcile (overflowChecks : Bool) (params : ReconcileParams) :
    Handler ReconcileReply := do
  let store ← get
  match store.mirrorInfo P (params.tbid.getD "") with
  | some (myTickCount, myLatestTick, myHash) =>
    let status := reconcileStatus myTickCount (params.peerTickCount.getD 0) myHash
      (params.peerHashSanity.getD "")
    let divergence ← ofResult (divergenceTick overflowChecks status myLatestTick)
    return ⟨status, myTickCount, myLatestTick, myHash, divergence⟩
  | none => return ⟨"not_mirrored", 0, 0, "", none⟩

/-- The request of a peer that holds these records under a key. -/
def ReconcileParams.summary (tbid : String) (remote : MirroredRecords) : ReconcileParams where
  tbid := some tbid
  peerTickCount := some remote.records.length
  peerLatestTick := some ((remote.records.getLast?.map ChrononRecord.chrononNumber).getD 0)
  peerHashSanity := some (computeHashSanity P remote.records)

/-! ### What a summary says -/

section Summaries

variable {P} {l l' : List ChrononRecord} {r : ChrononRecord} {store : MirrorStore} {key : String}

theorem tickBytes_cons : tickBytes (r :: l) = u64Be r.chrononNumber ++ tickBytes l := rfl

theorem tickBytes_cons_ne_nil : tickBytes (r :: l) ≠ [] :=
  List.append_ne_nil_of_left_ne_nil (List.cons_ne_nil _ _) _

/-- The bytes determine the numbers, and depend on nothing else. -/
theorem tickBytes_inj : tickBytes l = tickBytes l' ↔
    l.map ChrononRecord.chrononNumber = l'.map ChrononRecord.chrononNumber := by
  constructor
  · induction l generalizing l' with
    | nil =>
      cases l' with
      | nil => exact fun _ ↦ rfl
      | cons r' l' => exact fun h ↦ absurd h.symm tickBytes_cons_ne_nil
    | cons r l ih =>
      cases l' with
      | nil => exact fun h ↦ absurd h tickBytes_cons_ne_nil
      | cons r' l' =>
        intro h
        rw [tickBytes_cons, tickBytes_cons] at h
        obtain ⟨hnumber, hrest⟩ := List.append_inj h rfl
        rw [List.map_cons, List.map_cons, u64Be_injective hnumber, ih hrest]
  · intro h
    have hmap : ∀ records, tickBytes records =
        (records.map ChrononRecord.chrononNumber).flatMap u64Be :=
      fun records ↦ (List.flatMap_map _ _ records).symm
    rw [hmap, hmap, h]

theorem computeHashSanity_inj : computeHashSanity P l = computeHashSanity P l' ↔
    P.sha256 (tickBytes l) = P.sha256 (tickBytes l') := by
  rw [computeHashSanity, computeHashSanity, hexEncode_inj, FixedBytes.toList_inj]

/-- There is information about a key exactly if there are records under it. -/
theorem mirrorInfo_eq : store.mirrorInfo P key = (store.latestRecord key).map fun last ↦
    ((store.records key).length, last.chrononNumber, computeHashSanity P (store.records key)) := by
  rw [MirrorStore.mirrorInfo, MirrorStore.latestRecord, MirrorStore.records, MirrorStore.entry]
  cases store.mirrors.lookup key with
  | none => rfl
  | some mirrored =>
    show (if mirrored.records.isEmpty then none else _) = Option.map _ mirrored.records.getLast?
    split
    · rename_i hempty
      rw [List.isEmpty_iff.1 hempty]
      rfl
    · cases mirrored.records.getLast? <;> rfl

end Summaries

/-! ### Where two lists differ -/

/-- The record of a chronon number. -/
def recordAt (l : List ChrononRecord) (n : UInt64) : Option ChrononRecord :=
  l.find? fun r ↦ r.chrononNumber = n

/-- The lists differ at a chronon number. -/
def DiffersAt (l l' : List ChrononRecord) (n : UInt64) : Prop := recordAt l n ≠ recordAt l' n

/-- A list goes on only above its last number. -/
theorem le_of_differsAt {l rest : List ChrononRecord} {last : ChrononRecord} {n : UInt64}
    (hascending : Ascending ChrononRecord.key (l ++ rest)) (hlast : l.getLast? = some last)
    (hdiffers : DiffersAt l (l ++ rest) n) : last.chrononNumber < n := by
  obtain ⟨-, -, hlt⟩ := Ascending.append_iff.1 hascending
  by_contra hle
  refine hdiffers ?_
  have hnone : rest.find? (fun r ↦ r.chrononNumber = n) = none := by
    refine List.find?_eq_none.2 fun r hr hn ↦ hle ?_
    rw [← of_decide_eq_true hn]
    exact UInt64.lt_iff_toNat_lt.2 (hlt last (List.mem_of_getLast? hlast) r hr)
  rw [recordAt, recordAt, List.find?_append, hnone, Option.or_none]

/-! ### The answer -/

section Answer

variable {P} {overflowChecks : Bool} {store t : MirrorStore} {key : String}
  {remote : MirroredRecords} {reply : ReconcileReply}

/-- The status answers the question whether numbers and hashes agree. -/
theorem reconcileStatus_eq_in_sync {m n : ℕ} {myHash peerHash : String} :
    reconcileStatus m n myHash peerHash = "in_sync" ↔ m = n ∧ myHash = peerHash := by
  unfold reconcileStatus
  split
  · rename_i h
    exact iff_of_true rfl h
  · rename_i h
    refine iff_of_false ?_ h
    split
    · decide
    split
    · decide
    · decide

/-- The status of a key's list against the peer's. -/
def statusOf (P : Primitives) (store : MirrorStore) (key : String) (remote : MirroredRecords) :
    String :=
  reconcileStatus (store.records key).length remote.records.length
    (computeHashSanity P (store.records key)) (computeHashSanity P remote.records)

/-- A key without records is not mirrored. -/
theorem handleMirrorReconcile_of_none (hlatest : store.latestRecord key = none) :
    handleMirrorReconcile P overflowChecks (.summary P key remote) store =
      .ok ⟨"not_mirrored", 0, 0, "", none⟩ store := by
  have hinfo : store.mirrorInfo P key = none := by
    rw [mirrorInfo_eq, hlatest]
    rfl
  rw [handleMirrorReconcile, bind_of_ok (get_apply store), ReconcileParams.summary,
    Option.getD_some, hinfo]
  rfl

/-- A key with records is answered with the status of its list. -/
theorem handleMirrorReconcile_of_some {last : ChrononRecord}
    (hlatest : store.latestRecord key = some last) :
    handleMirrorReconcile P overflowChecks (.summary P key remote) store =
      (do
        let divergence ← ofResult
          (divergenceTick overflowChecks (statusOf P store key remote) last.chrononNumber)
        return ⟨statusOf P store key remote, (store.records key).length, last.chrononNumber,
          computeHashSanity P (store.records key), divergence⟩ : Handler _) store := by
  have hinfo : store.mirrorInfo P key = some ((store.records key).length, last.chrononNumber,
      computeHashSanity P (store.records key)) := by
    rw [mirrorInfo_eq, hlatest]
    rfl
  rw [handleMirrorReconcile, bind_of_ok (get_apply store), ReconcileParams.summary,
    Option.getD_some, hinfo]
  rfl

/-- An answer carries the status of the list, and a divergence tick only if that is behind or
diverged. -/
theorem handleMirrorReconcile_eq_ok
    (h : handleMirrorReconcile P overflowChecks (.summary P key remote) store = .ok reply t) :
    (reply.status = "not_mirrored" ∨ reply.status = statusOf P store key remote) ∧
      divergenceTick overflowChecks reply.status reply.myLatestTick =
        .ok reply.divergenceTick := by
  cases hlatest : store.latestRecord key with
  | none =>
    rw [handleMirrorReconcile_of_none hlatest] at h
    cases h
    exact ⟨.inl rfl, rfl⟩
  | some last =>
    rw [handleMirrorReconcile_of_some hlatest, bind_eq_ok] at h
    obtain ⟨divergence, _, hdivergence, h⟩ := h
    cases h
    exact ⟨.inr rfl, (ofResult_eq_ok.1 hdivergence).1⟩

/-- Lists that are in sync have the same chronon numbers, if their hashes do not collide. -/
theorem map_chrononNumber_eq_of_in_sync {hashed : Set Bytes} (hfree : Set.InjOn P.sha256 hashed)
    (hmine : tickBytes (store.records key) ∈ hashed) (hremote : tickBytes remote.records ∈ hashed)
    (h : handleMirrorReconcile P overflowChecks (.summary P key remote) store = .ok reply t)
    (hsync : reply.status = "in_sync") :
    (store.records key).map ChrononRecord.chrononNumber =
      remote.records.map ChrononRecord.chrononNumber := by
  rcases (handleMirrorReconcile_eq_ok h).1 with hstatus | hstatus
  · exact absurd (hstatus.symm.trans hsync) (by decide)
  · rw [hsync, eq_comm, statusOf, reconcileStatus_eq_in_sync] at hstatus
    exact tickBytes_inj.1 (hfree hmine hremote (computeHashSanity_inj.1 hstatus.2))

/-- A mirror that holds a proper beginning of the peer's list is behind, and the tick after its
last one is not past the place where the lists part. -/
theorem behind_of_append {r : ChrononRecord} {rest : List ChrononRecord}
    (hne : store.records key ≠ []) (happend : remote.records = store.records key ++ r :: rest) :
    ∃ reply d, handleMirrorReconcile P overflowChecks (.summary P key remote) store =
        .ok reply store ∧ reply.status = "behind" ∧ reply.divergenceTick = some d ∧
      ∀ n, DiffersAt (store.records key) remote.records n → d ≤ n := by
  obtain ⟨last, hlatest⟩ : ∃ last, store.latestRecord key = some last :=
    Option.isSome_iff_exists.1 (List.getLast?_isSome.2 hne)
  have hascending : Ascending ChrononRecord.key (store.records key ++ r :: rest) :=
    happend ▸ remote.ascending
  -- the next number is there, so the last one is not the last of all
  have hnext : last.chrononNumber.toNat + 1 < 2 ^ 64 := by
    obtain ⟨-, -, hlt⟩ := Ascending.append_iff.1 hascending
    have hlt : last.chrononNumber.toNat < r.chrononNumber.toNat :=
      hlt last (List.mem_of_getLast? hlatest) r List.mem_cons_self
    have hmax := r.chrononNumber.toNat_lt
    omega
  have hstatus : statusOf P store key remote = "behind" := by
    have hlength : remote.records.length = (store.records key).length + (rest.length + 1) := by
      rw [happend, List.length_append, List.length_cons]
    rw [statusOf, reconcileStatus, if_neg (by omega), if_pos (by omega)]
  have htick : divergenceTick overflowChecks "behind" last.chrononNumber =
      .ok (some (last.chrononNumber + 1)) := by
    rw [divergenceTick, if_pos (.inl rfl), succU64, if_neg fun h ↦ absurd h.2 hnext.ne]
    rfl
  rw [handleMirrorReconcile_of_some hlatest, hstatus, htick]
  refine ⟨_, _, rfl, rfl, rfl, fun n hdiffers ↦ ?_⟩
  rw [happend] at hdiffers
  have hlt := UInt64.lt_iff_toNat_lt.1 (le_of_differsAt hascending hlatest hdiffers)
  rw [UInt64.le_iff_toNat_le, UInt64.toNat_add_one_of_lt hnext]
  exact hlt

end Answer

/-- What an answer to a peer's summary says about the mirrored list and the peer's. -/
structure ReconcileSound (P : Primitives) (overflowChecks : Bool) (store : MirrorStore)
    (key : String) (remote : MirroredRecords) : Prop where
  /-- Lists that are in sync have the same chronon numbers. -/
  in_sync : ∀ reply t,
    handleMirrorReconcile P overflowChecks (.summary P key remote) store = .ok reply t →
    reply.status = "in_sync" → (store.records key).map ChrononRecord.chrononNumber =
      remote.records.map ChrononRecord.chrononNumber
  /-- Only a mirror that is behind or diverged reports a divergence tick. -/
  divergenceTick_eq_none : ∀ reply t,
    handleMirrorReconcile P overflowChecks (.summary P key remote) store = .ok reply t →
    reply.status ≠ "behind" → reply.status ≠ "diverged" → reply.divergenceTick = none
  /-- A mirror that holds a proper beginning of the peer's list reports a tick that is not past
  the first difference. -/
  behind : store.records key ≠ [] → store.records key <+: remote.records →
    store.records key ≠ remote.records → ∃ reply d,
      handleMirrorReconcile P overflowChecks (.summary P key remote) store = .ok reply store ∧
      reply.status = "behind" ∧ reply.divergenceTick = some d ∧
      ∀ n, DiffersAt (store.records key) remote.records n → d ≤ n

/-- **Reconciliation.** Without a collision of the two hashes, a mirror is in sync only with a list
of the same chronon numbers, and it asks for no more than is missing of a list it holds a
beginning of. -/
theorem reconcileSound {P : Primitives} {overflowChecks : Bool} {store : MirrorStore}
    {key : String} {remote : MirroredRecords} {hashed : Set Bytes}
    (hfree : Set.InjOn P.sha256 hashed) (hmine : tickBytes (store.records key) ∈ hashed)
    (hremote : tickBytes remote.records ∈ hashed) :
    ReconcileSound P overflowChecks store key remote := by
  refine ⟨fun reply t h hsync ↦ map_chrononNumber_eq_of_in_sync hfree hmine hremote h hsync,
    fun reply t h hbehind hdiverged ↦ ?_, ?_⟩
  · have htick := (handleMirrorReconcile_eq_ok h).2
    rw [divergenceTick, if_neg (not_or.2 ⟨hbehind, hdiverged⟩)] at htick
    exact (Except.ok.inj htick).symm
  · rintro hne ⟨rest, happend⟩ hproper
    cases rest with
    | nil => exact absurd ((List.append_nil _).symm.trans happend) hproper
    | cons r rest => exact behind_of_append hne happend.symm

/-! ### Two lists of a mirror that stores a root -/

/-- A mirror that stores a root. -/
def rootMirror : MirrorStore :=
  (MirrorStore.new 1).insertAll (default : Tbid).toHex [rootOf default default]

theorem records_rootMirror :
    rootMirror.records (default : Tbid).toHex = [rootOf default default] := by
  decide +kernel

/-- A root and its child. -/
def rootAndChild : MirroredRecords where
  records := [rootOf default default, childOf default (.replicate 32 1) default]
  ascending := by decide +kernel

/-- A root with another key. -/
def otherRoot : MirroredRecords where
  records := [rootOf (.replicate 32 1) default]
  ascending := .singleton _

theorem reconcileSound_rootAndChild :
    ReconcileSound .transparent true rootMirror (default : Tbid).toHex rootAndChild := by
  have hfree : Set.InjOn Primitives.transparent.sha256
      {tickBytes (rootMirror.records (default : Tbid).toHex), tickBytes rootAndChild.records} := by
    refine Set.injOn_pair.2 fun h ↦ absurd h ?_
    rw [records_rootMirror]
    decide +kernel
  exact reconcileSound hfree (.inl rfl) (.inr rfl)

/-- The mirror is in sync with a list that has another record of the same chronon: the claimed
equality of the lists fails, and no two different inputs of the hash are compared. -/
theorem not_eq_of_in_sync_otherRoot : ∃ reply,
    handleMirrorReconcile .transparent true (.summary .transparent (default : Tbid).toHex otherRoot)
      rootMirror = .ok reply rootMirror ∧ reply.status = "in_sync" ∧
    tickBytes (rootMirror.records (default : Tbid).toHex) = tickBytes otherRoot.records ∧
    rootMirror.records (default : Tbid).toHex ≠ otherRoot.records := by
  have hlatest : rootMirror.latestRecord (default : Tbid).toHex =
      some (rootOf default default) := by
    rw [MirrorStore.latestRecord, records_rootMirror]
    rfl
  have hstatus : statusOf .transparent rootMirror (default : Tbid).toHex otherRoot = "in_sync" := by
    rw [statusOf, records_rootMirror, reconcileStatus_eq_in_sync]
    exact ⟨rfl, rfl⟩
  have hreply : ∃ reply, handleMirrorReconcile .transparent true
      (.summary .transparent (default : Tbid).toHex otherRoot) rootMirror =
        .ok reply rootMirror ∧ reply.status = "in_sync" := by
    rw [handleMirrorReconcile_of_some hlatest, hstatus]
    exact ⟨_, rfl, rfl⟩
  obtain ⟨reply, hreply, hsync⟩ := hreply
  refine ⟨reply, hreply, hsync, ?_, ?_⟩
  · rw [records_rootMirror]
    rfl
  · rw [records_rootMirror]
    decide +kernel

end Foretias

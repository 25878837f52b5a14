import Foretias.Library.ErrorState
import Foretias.Server.Communerdette
import Foretias.Server.Mirror

/-!
# The mirror's request handlers

Three requests deliver records to a mirror: `ship_ack` a batch from the genesis record on,
`stream_tick` one record, `history_dump_chunk` a batch that may go on from what is stored. Each
handler authenticates all its records before it stores the first one. They differ in what the
first record is checked against: nothing, for `ship_ack`, and the last stored record, if there is
one, for the other two.

* `MirrorRequest.handle_eq_ok` — a request is accepted exactly if its records are a chain after
  that record (`Chained`), and then they are inserted one by one.
* `MirrorRequest.handle_eq_error` — a refused request leaves the store as it is.
-/

namespace Foretias

open ErrorState

instance : ToString CleanAuthParseError where
  toString
    | .invalidJson message => s!"invalid JSON: {message}"
    | .badFormat message => s!"bad format: {message}"
    | .unknownAlgorithm id => s!"unknown signature algorithm: {id}"

/-- `MAX_CALENDAR_SLICE_COUNT`. -/
def maxCalendarSliceCount : ℕ := 10000

/-! ### Requests and replies -/

/-- A record of a request, with the outcome of its own parse. -/
abbrev ParsedRecord := Except CleanAuthParseError ChrononRecord

/-- The members of a request that carries a batch. -/
structure BatchParams where
  /-- Member `tbid`, when it is a string. -/
  tbid : Option String
  /-- Member `records`, when it is an array. -/
  records : Option (List ParsedRecord)

/-- The members of a `stream_tick` request. -/
structure StreamTickParams where
  /-- Member `tbid`, when it is a string. -/
  tbid : Option String
  /-- Member `chronon_number`, when it is a number. -/
  chrononNumber : Option UInt64
  /-- Member `record`. -/
  record : Option ParsedRecord

/-- The members of a `history_dump_complete` request. -/
structure CompleteParams where
  /-- Member `tbid`, when it is a string. -/
  tbid : Option String
  /-- Member `total_records`, when it is a number. -/
  totalRecords : Option ℕ

/-- The reply of `ship_ack`. -/
structure ShipAckReply where
  status : String
  tbid : String
  tickCount : ℕ

/-- The reply of `stream_tick`. -/
structure StreamTickReply where
  status : String
  tbid : String
  chrononNumber : UInt64
  tickCount : ℕ

/-- The reply of `history_dump_chunk`. -/
structure DumpChunkReply where
  status : String
  tbid : String
  acceptedCount : ℕ
  tickCount : ℕ

/-- The reply of `history_dump_complete`. -/
structure DumpCompleteReply where
  status : String
  tbid : String
  tickCount : ℕ
  claimedTotal : Option ℕ

/-- The raw records of a request, none when they are absent. -/
def BatchParams.rawRecords (params : BatchParams) : List ParsedRecord := params.records.getD []

/-- The envelopes of raw records; the first that does not parse ends the request. -/
def parseRecords : List ParsedRecord → Result String (List UnverifiedChronon)
  | [] => pure []
  | .ok record :: raw => do
    let unprocessed ← parseRecords raw
    pure (.fromParsed record :: unprocessed)
  | .error e :: _ => .err s!"failed to parse records: {e}"

/-- Records are parsed all or not at all. -/
theorem parseRecords_eq_ok {raw : List ParsedRecord} {us : List UnverifiedChronon} :
    parseRecords raw = .ok us ↔
      ∃ rs : List ChrononRecord, raw = rs.map .ok ∧ us = rs.map .fromParsed := by
  induction raw generalizing us with
  | nil =>
    rw [parseRecords, Result.pure_eq_ok]
    constructor
    · rintro rfl
      exact ⟨[], rfl, rfl⟩
    · rintro ⟨rs, hraw, rfl⟩
      rw [List.map_eq_nil_iff.1 hraw.symm]
      rfl
  | cons v raw ih =>
    cases v with
    | error e =>
      refine iff_of_false (Result.err_ne_ok _ _) fun ⟨rs, hraw, _⟩ ↦ ?_
      obtain ⟨r, -, hr⟩ := List.mem_map.1 (hraw ▸ List.mem_cons_self : Except.error e ∈ rs.map _)
      cases hr
    | ok r =>
      rw [parseRecords, Result.bind_eq_ok]
      constructor
      · rintro ⟨us, hus, h⟩
        obtain ⟨rs, rfl, rfl⟩ := ih.1 hus
        exact ⟨r :: rs, rfl, (Result.pure_eq_ok.1 h).symm⟩
      · rintro ⟨rs, hraw, rfl⟩
        obtain ⟨r', rest, rfl, hr, hrest⟩ := List.map_eq_cons_iff.1 hraw.symm
        obtain rfl := Except.ok.inj hr
        exact ⟨_, ih.2 ⟨rest, hrest.symm, rfl⟩, rfl⟩

/-! ### The chain check -/

variable (P : Primitives)

/-- One step of `verify_ship_ack_chain`: the batch must start with a genesis record. -/
def shipAckNext (i : ℕ) (last : Option CleanChronon) (u : UnverifiedChronon) :
    Result String CleanChronon :=
  let failed (e : CleanAuthError) := s!"chain verification failed at record {i}: {e}"
  if i = 0 then
    if u.inner.isGenesis then (u.verifyChronon P none).mapErr failed
    else .err "batch first record is not genesis (chronon_number != 1)"
  else
    match last with
    | some prev => (u.verifyChronon P (some prev)).mapErr failed
    | none => .err "chain verification: missing previous record (internal invariant violation)"

/-- `verify_ship_ack_chain`. -/
def verifyShipAckChain (unprocessed : List UnverifiedChronon) :
    Result String (List CleanChronon) :=
  verifyAll (shipAckNext P) 0 none unprocessed

/-- `verify_stream_tick_record`, for the last stored record. -/
def verifyStreamTickRecord (latest : Option ChrononRecord) (u : UnverifiedChronon) :
    Result String CleanChronon :=
  let failed (e : CleanAuthError) := s!"verification failed: {e}"
  match latest with
  | some trusted => (u.verifyChronon P (some (.fromTrusted trusted))).mapErr failed
  | none =>
    if u.inner.isGenesis then (u.verifyChronon P none).mapErr failed
    else .err "non-genesis record without predecessor"

/-- One step of `verify_history_dump_chunk`, for the last stored record. -/
def dumpChunkNext (latest : Option ChrononRecord) (i : ℕ) (last : Option CleanChronon)
    (u : UnverifiedChronon) : Result String CleanChronon :=
  let failed (e : CleanAuthError) := s!"chain verification failed at record {i}: {e}"
  match last with
  | some prev => (u.verifyChronon P (some prev)).mapErr failed
  | none =>
    match latest with
    | some trusted => (u.verifyChronon P (some (.fromTrusted trusted))).mapErr failed
    | none =>
      if u.inner.isGenesis then (u.verifyChronon P none).mapErr failed
      else .err "non-genesis record without predecessor in store"

/-- `verify_history_dump_chunk`. -/
def verifyHistoryDumpChunk (latest : Option ChrononRecord)
    (unprocessed : List UnverifiedChronon) : Result String (List CleanChronon) :=
  verifyAll (dumpChunkNext P latest) 0 none unprocessed

/-- What is checked of a record that is to come after `prev`. -/
def Follows : Option ChrononRecord → ChrononRecord → Prop
  | some prev, r => LinkedTo P prev r
  | none, r => r.FirstRecord

/-- The records are a chain that comes after `prev`. -/
structure Chained (prev : Option ChrononRecord) (rs : List ChrononRecord) : Prop where
  /-- The first record comes after `prev`. -/
  head : ∀ r ∈ rs.head?, Follows P prev r
  /-- Every two neighbours are linked. -/
  isChain : rs.IsChain (LinkedTo P)

section Accepted

variable {P} {u : UnverifiedChronon} {c prev : CleanChronon} {latest : Option ChrononRecord}
  {i : ℕ} {last : Option CleanChronon} {rs : List ChrononRecord}

/-- A gate for records without a predecessor that lets only genesis records through. -/
theorem genesis_eq_ok {failed : CleanAuthError → String} {message : String} :
    (if u.inner.isGenesis then (u.verifyChronon P none).mapErr failed else .err message) =
      .ok u.clean ↔ u.inner.FirstRecord := by
  split
  · rw [Result.mapErr_eq_ok, UnverifiedSignatureEnvelope.verifyChronon_none]
  · rename_i hgenesis
    refine iff_of_false (Result.err_ne_ok _ _) fun h ↦ hgenesis ?_
    rw [ChrononRecord.isGenesis, h.chrononNumber_eq]
    rfl

/-- A gate that is passed hands on the record that it was given. -/
theorem eq_clean_of_genesis {failed : CleanAuthError → String} {message : String}
    (h : (if u.inner.isGenesis then (u.verifyChronon P none).mapErr failed else .err message) =
      .ok c) : c = u.clean := by
  split at h
  · exact UnverifiedSignatureEnvelope.eq_clean_of_verifyChronon (Result.mapErr_eq_ok.1 h)
  · exact absurd h (Result.err_ne_ok _ _)

theorem eq_clean_of_verifyStreamTickRecord (h : verifyStreamTickRecord P latest u = .ok c) :
    c = u.clean := by
  cases latest with
  | some trusted =>
    exact UnverifiedSignatureEnvelope.eq_clean_of_verifyChronon (Result.mapErr_eq_ok.1 h)
  | none => exact eq_clean_of_genesis h

theorem eq_clean_of_shipAckNext (h : shipAckNext P i last u = .ok c) : c = u.clean := by
  unfold shipAckNext at h
  split at h
  · exact eq_clean_of_genesis h
  cases last with
  | some prev =>
    exact UnverifiedSignatureEnvelope.eq_clean_of_verifyChronon (Result.mapErr_eq_ok.1 h)
  | none => exact absurd h (Result.err_ne_ok _ _)

theorem eq_clean_of_dumpChunkNext (h : dumpChunkNext P latest i last u = .ok c) : c = u.clean := by
  cases last with
  | some prev =>
    exact UnverifiedSignatureEnvelope.eq_clean_of_verifyChronon (Result.mapErr_eq_ok.1 h)
  | none =>
    cases latest with
    | some trusted =>
      exact UnverifiedSignatureEnvelope.eq_clean_of_verifyChronon (Result.mapErr_eq_ok.1 h)
    | none => exact eq_clean_of_genesis h

/-- A streamed record passes exactly if it follows the latest one. -/
theorem verifyStreamTickRecord_eq_ok :
    verifyStreamTickRecord P latest u = .ok u.clean ↔ Follows P latest u.inner := by
  cases latest with
  | some trusted =>
    exact Result.mapErr_eq_ok.trans UnverifiedSignatureEnvelope.verifyChronon_some
  | none => exact genesis_eq_ok

/-- A loop over a batch accepts the chains that come after `prev`, when that is what it accepts
of the first record. -/
theorem verifyAll_eq_ok_iff_chained {verifyNext : ℕ → Option CleanChronon → UnverifiedChronon →
    Result String CleanChronon} {prev : Option ChrononRecord}
    (hclean : ∀ {i last u c}, verifyNext i last u = .ok c → c = u.clean)
    (hnext : ∀ {i : ℕ} {prev : CleanChronon} {u : UnverifiedChronon},
      verifyNext (i + 1) (some prev) u = .ok u.clean ↔ LinkedTo P prev.inner u.inner)
    (hfirst : ∀ {u : UnverifiedChronon},
      verifyNext 0 none u = .ok u.clean ↔ Follows P prev u.inner)
    {cs : List CleanChronon} : verifyAll verifyNext 0 none (rs.map .fromParsed) = .ok cs ↔
      cs = rs.map .fromTrusted ∧ Chained P prev rs := by
  have hall := @verifyAll_eq_ok _ verifyNext (LinkedTo P) hclean hnext (rs.map .fromParsed) cs 0
    none
  rw [hall, map_inner_fromParsed, map_clean_fromParsed]
  refine and_congr_right fun _ ↦ ?_
  have hhead : (∀ u ∈ (rs.map UnverifiedSignatureEnvelope.fromParsed).head?,
      verifyNext 0 none u = .ok u.clean) ↔ ∀ r ∈ rs.head?, Follows P prev r := by
    rw [List.head?_map]
    cases rs.head? with
    | none => simp
    | some r => simp only [Option.map_some, Option.mem_def, Option.some.injEq, forall_eq', hfirst,
        UnverifiedSignatureEnvelope.fromParsed]
  rw [hhead]
  exact ⟨fun h ↦ ⟨h.1, h.2⟩, fun h ↦ ⟨h.1, h.2⟩⟩

/-- `ship_ack` accepts the chains that come after nothing. -/
theorem verifyShipAckChain_eq_ok {cs : List CleanChronon} :
    verifyShipAckChain P (rs.map .fromParsed) = .ok cs ↔
      cs = rs.map .fromTrusted ∧ Chained P none rs := by
  refine verifyAll_eq_ok_iff_chained eq_clean_of_shipAckNext ?_ ?_
  · intro i prev u
    rw [shipAckNext, if_neg (Nat.succ_ne_zero i), Result.mapErr_eq_ok]
    exact UnverifiedSignatureEnvelope.verifyChronon_some
  · intro u
    rw [shipAckNext, if_pos rfl]
    exact genesis_eq_ok

/-- `history_dump_chunk` accepts the chains that come after the last stored record. -/
theorem verifyHistoryDumpChunk_eq_ok {cs : List CleanChronon} :
    verifyHistoryDumpChunk P latest (rs.map .fromParsed) = .ok cs ↔
      cs = rs.map .fromTrusted ∧ Chained P latest rs := by
  refine verifyAll_eq_ok_iff_chained eq_clean_of_dumpChunkNext ?_ ?_
  · intro i prev u
    exact Result.mapErr_eq_ok.trans UnverifiedSignatureEnvelope.verifyChronon_some
  · intro u
    cases latest with
    | some trusted =>
      exact Result.mapErr_eq_ok.trans UnverifiedSignatureEnvelope.verifyChronon_some
    | none => exact genesis_eq_ok

end Accepted

/-! ### The handlers -/

/-- A request handler: a computation on the mirror store that may end in an error response. -/
abbrev Handler := EStateM (Stop RpcError) MirrorStore

/-- The value of a step, or an error response for invalid parameters. -/
def orInvalidParams {α : Type} (x : Result String α) : Handler α :=
  ofResult (x.mapErr .invalidParams)

theorem orInvalidParams_eq_ok {α : Type} {x : Result String α} {a : α} {s t : MirrorStore} :
    orInvalidParams x s = .ok a t ↔ x = .ok a ∧ t = s := by
  rw [orInvalidParams, ofResult_eq_ok, Result.mapErr_eq_ok]

/-- `handle_ship_ack`. -/
def handleShipAck (params : BatchParams) : Handler ShipAckReply := do
  let tbid := params.tbid.getD ""
  let unprocessed ← orInvalidParams (parseRecords params.rawRecords)
  if unprocessed.isEmpty then
    return ⟨"acked", tbid, (← get).mirrorTickCount tbid⟩
  else
    let verified ← orInvalidParams (verifyShipAckChain P unprocessed)
    modify fun store ↦ store.insertAll tbid (verified.map CleanAuthenticated.inner)
    return ⟨"acked", tbid, (← get).mirrorTickCount tbid⟩

/-- The record of a `stream_tick` request. -/
def parseStreamTickRecord : Option ParsedRecord → Result String UnverifiedChronon
  | none => .err "missing 'record'"
  | some (.ok record) => pure (.fromParsed record)
  | some (.error e) => .err s!"failed to parse record: {e}"

/-- `handle_stream_tick`. -/
def handleStreamTick (params : StreamTickParams) : Handler StreamTickReply := do
  let tbid := params.tbid.getD ""
  let chrononNumber := params.chrononNumber.getD 0
  let unprocessed ← orInvalidParams (parseStreamTickRecord params.record)
  let store ← get
  let verified ← orInvalidParams
    (verifyStreamTickRecord P (store.latestRecord tbid) unprocessed)
  match store.insertMirrored tbid verified.inner with
  | .ok store =>
    set store
    return ⟨"acked", tbid, chrononNumber, store.mirrorTickCount tbid⟩
  | .error e => throw (.err (.internalError s!"mirror insert failed: {e}"))

/-- `parse_history_dump_chunk_params`. -/
def parseHistoryDumpChunkParams (params : BatchParams) :
    Result String (String × List UnverifiedChronon) :=
  match params.tbid with
  | none => .err "missing or empty 'tbid'"
  | some tbid =>
    if maxCalendarSliceCount < params.rawRecords.length then
      .err s!"chunk size exceeds maximum of {maxCalendarSliceCount}"
    else do
      let unprocessed ← parseRecords params.rawRecords
      pure (tbid, unprocessed)

/-- `handle_history_dump_chunk`. -/
def handleHistoryDumpChunk (params : BatchParams) : Handler DumpChunkReply := do
  let (tbid, unprocessed) ← orInvalidParams (parseHistoryDumpChunkParams params)
  let store ← get
  let verified ← orInvalidParams
    (verifyHistoryDumpChunk P (store.latestRecord tbid) unprocessed)
  let accepted := verified.length
  modify fun store ↦ store.insertAll tbid (verified.map CleanAuthenticated.inner)
  return ⟨"ok", tbid, accepted, (← get).mirrorTickCount tbid⟩

/-- `handle_history_dump_complete`: the claimed total is echoed, not compared. -/
def handleHistoryDumpComplete (params : CompleteParams) : Handler DumpCompleteReply := do
  let tbid := params.tbid.getD ""
  return ⟨"complete", tbid, (← get).mirrorTickCount tbid, params.totalRecords⟩

/-- A request that delivers records. -/
inductive MirrorRequest
  | shipAck (params : BatchParams)
  | streamTick (params : StreamTickParams)
  | historyDumpChunk (params : BatchParams)

namespace MirrorRequest

/-- A request, handled; the reply is sent back to the sender. -/
def handle : MirrorRequest → Handler Unit
  | shipAck params => do let _ ← handleShipAck P params
  | streamTick params => do let _ ← handleStreamTick P params
  | historyDumpChunk params => do let _ ← handleHistoryDumpChunk P params

/-- The key that a request stores under. -/
def tbid : MirrorRequest → String
  | shipAck params => params.tbid.getD ""
  | streamTick params => params.tbid.getD ""
  | historyDumpChunk params => params.tbid.getD ""

/-- The request is well formed and carries these records. -/
def Carries (rs : List ChrononRecord) : MirrorRequest → Prop
  | shipAck params => params.rawRecords = rs.map .ok
  | streamTick params => ∃ r, params.record = some (.ok r) ∧ rs = [r]
  | historyDumpChunk params =>
    params.tbid.isSome ∧ params.rawRecords = rs.map .ok ∧ rs.length ≤ maxCalendarSliceCount

/-- The stored record that the first record of a request is checked against. -/
def predecessor (store : MirrorStore) : MirrorRequest → Option ChrononRecord
  | shipAck _ => none
  | streamTick params => store.latestRecord (params.tbid.getD "")
  | historyDumpChunk params => store.latestRecord (params.tbid.getD "")

end MirrorRequest

section Handlers

variable {P} {store t : MirrorStore} {rs : List ChrononRecord}

theorem map_inner_fromTrusted (rs : List ChrononRecord) :
    (rs.map CleanAuthenticated.fromTrusted).map CleanAuthenticated.inner = rs := by
  rw [List.map_map]
  exact List.map_id _

/-- `ship_ack` stores the chains that come after nothing. -/
theorem handleShipAck_eq_ok {params : BatchParams} {reply : ShipAckReply} :
    handleShipAck P params store = .ok reply t ↔ ∃ rs : List ChrononRecord,
      params.rawRecords = rs.map .ok ∧ Chained P none rs ∧
      t = store.insertAll (params.tbid.getD "") rs ∧
      reply = ⟨"acked", params.tbid.getD "", t.mirrorTickCount (params.tbid.getD "")⟩ := by
  rw [handleShipAck, bind_eq_ok]
  constructor
  · rintro ⟨unprocessed, _, hparse, h⟩
    obtain ⟨hparsed, rfl⟩ := orInvalidParams_eq_ok.1 hparse
    obtain ⟨rs, hraw, rfl⟩ := parseRecords_eq_ok.1 hparsed
    refine ⟨rs, hraw, ?_⟩
    split at h
    · rename_i hempty
      obtain rfl : rs = [] := List.map_eq_nil_iff.1 (List.isEmpty_iff.1 hempty)
      cases h
      exact ⟨⟨fun _ hr ↦ (nomatch hr), .nil⟩, rfl, rfl⟩
    · obtain ⟨verified, _, hverify, h⟩ := bind_eq_ok.1 h
      obtain ⟨hverified, rfl⟩ := orInvalidParams_eq_ok.1 hverify
      obtain ⟨rfl, hchained⟩ := verifyShipAckChain_eq_ok.1 hverified
      rw [map_inner_fromTrusted] at h
      cases h
      exact ⟨hchained, rfl, rfl⟩
  · rintro ⟨rs, hraw, hchained, rfl, rfl⟩
    refine ⟨rs.map .fromParsed, store, orInvalidParams_eq_ok.2
      ⟨parseRecords_eq_ok.2 ⟨rs, hraw, rfl⟩, rfl⟩, ?_⟩
    cases rs with
    | nil => rfl
    | cons r rest =>
      refine bind_eq_ok.2 ⟨_, store, orInvalidParams_eq_ok.2
        ⟨verifyShipAckChain_eq_ok.2 ⟨rfl, hchained⟩, rfl⟩, ?_⟩
      rw [map_inner_fromTrusted]
      rfl

theorem parseStreamTickRecord_eq_ok {record : Option ParsedRecord} {u : UnverifiedChronon} :
    parseStreamTickRecord record = .ok u ↔ ∃ r, record = some (.ok r) ∧ u = .fromParsed r := by
  match record with
  | none => simp [parseStreamTickRecord]
  | some (.ok r) =>
    rw [parseStreamTickRecord, Result.pure_eq_ok]
    constructor
    · rintro rfl
      exact ⟨r, rfl, rfl⟩
    · rintro ⟨_, ⟨⟩, rfl⟩
      rfl
  | some (.error e) => simp [parseStreamTickRecord]

/-- `stream_tick` stores a record that comes after the last stored one. -/
theorem handleStreamTick_eq_ok {params : StreamTickParams} {reply : StreamTickReply} :
    handleStreamTick P params store = .ok reply t ↔ ∃ r,
      params.record = some (.ok r) ∧ Follows P (store.latestRecord (params.tbid.getD "")) r ∧
      t = store.insertAll (params.tbid.getD "") [r] ∧
      reply = ⟨"acked", params.tbid.getD "", params.chrononNumber.getD 0,
        t.mirrorTickCount (params.tbid.getD "")⟩ := by
  rw [handleStreamTick, bind_eq_ok]
  constructor
  · rintro ⟨u, _, hu, h⟩
    obtain ⟨hparsed, rfl⟩ := orInvalidParams_eq_ok.1 hu
    obtain ⟨r, hrecord, rfl⟩ := parseStreamTickRecord_eq_ok.1 hparsed
    obtain ⟨_, _, ⟨⟩, h⟩ := bind_eq_ok.1 h
    obtain ⟨verified, _, hverify, h⟩ := bind_eq_ok.1 h
    obtain ⟨hverified, rfl⟩ := orInvalidParams_eq_ok.1 hverify
    obtain rfl := eq_clean_of_verifyStreamTickRecord hverified
    cases h
    exact ⟨r, hrecord, verifyStreamTickRecord_eq_ok.1 hverified, rfl, rfl⟩
  · rintro ⟨r, hrecord, hfollows, rfl, rfl⟩
    refine ⟨.fromParsed r, store, orInvalidParams_eq_ok.2
      ⟨parseStreamTickRecord_eq_ok.2 ⟨r, hrecord, rfl⟩, rfl⟩, bind_eq_ok.2 ⟨store, store, rfl, ?_⟩⟩
    refine bind_eq_ok.2 ⟨_, store, orInvalidParams_eq_ok.2
      ⟨verifyStreamTickRecord_eq_ok.2 hfollows, rfl⟩, ?_⟩
    rfl

/-- The parameters of a chunk are accepted exactly if they name a TBID and have records that parse,
not more than a slice may have. -/
theorem parseHistoryDumpChunkParams_eq_ok {params : BatchParams} {tbid : String}
    {us : List UnverifiedChronon} :
    parseHistoryDumpChunkParams params = .ok (tbid, us) ↔ params.tbid = some tbid ∧
      ∃ rs : List ChrononRecord, params.rawRecords = rs.map .ok ∧
        rs.length ≤ maxCalendarSliceCount ∧ us = rs.map .fromParsed := by
  rw [parseHistoryDumpChunkParams]
  cases htbid : params.tbid with
  | none => exact iff_of_false (Result.err_ne_ok _ _) nofun
  | some key =>
    dsimp only
    split
    · rename_i hlength
      refine iff_of_false (Result.err_ne_ok _ _) fun ⟨_, rs, hraw, hle, _⟩ ↦ ?_
      rw [hraw, List.length_map] at hlength
      omega
    · rename_i hlength
      rw [Result.bind_eq_ok]
      constructor
      · rintro ⟨us, hrecords, hpair⟩
        obtain ⟨rs, hraw, rfl⟩ := parseRecords_eq_ok.1 hrecords
        cases hpair
        rw [hraw, List.length_map, not_lt] at hlength
        exact ⟨rfl, rs, hraw, hlength, rfl⟩
      · rintro ⟨hkey, rs, hraw, -, rfl⟩
        cases hkey
        exact ⟨_, parseRecords_eq_ok.2 ⟨rs, hraw, rfl⟩, rfl⟩

/-- `history_dump_chunk` stores the chains of bounded length that come after the last stored
record. -/
theorem handleHistoryDumpChunk_eq_ok {params : BatchParams} {reply : DumpChunkReply} :
    handleHistoryDumpChunk P params store = .ok reply t ↔
      ∃ (tbid : String) (rs : List ChrononRecord), params.tbid = some tbid ∧
      params.rawRecords = rs.map .ok ∧ rs.length ≤ maxCalendarSliceCount ∧
      Chained P (store.latestRecord tbid) rs ∧ t = store.insertAll tbid rs ∧
      reply = ⟨"ok", tbid, rs.length, t.mirrorTickCount tbid⟩ := by
  rw [handleHistoryDumpChunk, bind_eq_ok]
  constructor
  · rintro ⟨⟨tbid, us⟩, _, hparams, h⟩
    obtain ⟨hparsed, rfl⟩ := orInvalidParams_eq_ok.1 hparams
    obtain ⟨htbid, rs, hraw, hlength, rfl⟩ := parseHistoryDumpChunkParams_eq_ok.1 hparsed
    obtain ⟨_, _, ⟨⟩, h⟩ := bind_eq_ok.1 h
    obtain ⟨verified, _, hverify, h⟩ := bind_eq_ok.1 h
    obtain ⟨hverified, rfl⟩ := orInvalidParams_eq_ok.1 hverify
    obtain ⟨rfl, hchained⟩ := verifyHistoryDumpChunk_eq_ok.1 hverified
    rw [map_inner_fromTrusted, List.length_map] at h
    cases h
    exact ⟨tbid, rs, htbid, hraw, hlength, hchained, rfl, rfl⟩
  · rintro ⟨tbid, rs, htbid, hraw, hlength, hchained, rfl, rfl⟩
    refine ⟨_, store, orInvalidParams_eq_ok.2
      ⟨parseHistoryDumpChunkParams_eq_ok.2 ⟨htbid, rs, hraw, hlength, rfl⟩, rfl⟩,
      bind_eq_ok.2 ⟨store, store, rfl, ?_⟩⟩
    refine bind_eq_ok.2 ⟨_, store, orInvalidParams_eq_ok.2
      ⟨verifyHistoryDumpChunk_eq_ok.2 ⟨rfl, hchained⟩, rfl⟩, ?_⟩
    rw [map_inner_fromTrusted, List.length_map]
    rfl

/-! A handler makes its checks first and then changes the store without failing. -/

theorem preserves_orInvalidParams {α : Type} (x : Result String α) :
    Preserves id (orInvalidParams x) :=
  .ofResult _

/-- A `ship_ack` that fails leaves the store alone. -/
theorem keepsOnError_handleShipAck (params : BatchParams) :
    KeepsOnError id (handleShipAck P params) := by
  refine .bind (preserves_orInvalidParams _) fun unprocessed ↦ ?_
  split
  · exact .of_forall_ok fun s ↦ ⟨_, s, rfl⟩
  · exact .bind (preserves_orInvalidParams _) fun verified ↦ .of_forall_ok fun s ↦ ⟨_, _, rfl⟩

/-- So does a `stream_tick`, -/
theorem keepsOnError_handleStreamTick (params : StreamTickParams) :
    KeepsOnError id (handleStreamTick P params) :=
  .bind (preserves_orInvalidParams _) fun _ ↦ .bind .get fun _ ↦
    .bind (preserves_orInvalidParams _) fun _ ↦ .of_forall_ok fun _ ↦ ⟨_, _, rfl⟩

/-- and a `history_dump_chunk`. -/
theorem keepsOnError_handleHistoryDumpChunk (params : BatchParams) :
    KeepsOnError id (handleHistoryDumpChunk P params) :=
  .bind (preserves_orInvalidParams _) fun _ ↦ .bind .get fun _ ↦
    .bind (preserves_orInvalidParams _) fun _ ↦ .of_forall_ok fun _ ↦ ⟨_, _, rfl⟩

namespace MirrorRequest

/-- A request is accepted exactly if it is well formed and its records are a chain after the
record that its handler goes on from; they are then inserted under its key. -/
theorem handle_eq_ok {req : MirrorRequest} {u : Unit} : req.handle P store = .ok u t ↔
    ∃ rs, req.Carries rs ∧ Chained P (req.predecessor store) rs ∧
      t = store.insertAll req.tbid rs := by
  cases req with
  | shipAck params =>
    rw [handle, bind_eq_ok]
    constructor
    · rintro ⟨reply, _, hreply, ⟨⟩⟩
      obtain ⟨rs, hraw, hchained, rfl, -⟩ := handleShipAck_eq_ok.1 hreply
      exact ⟨rs, hraw, hchained, rfl⟩
    · rintro ⟨rs, hraw, hchained, rfl⟩
      exact ⟨_, _, handleShipAck_eq_ok.2 ⟨rs, hraw, hchained, rfl, rfl⟩, rfl⟩
  | streamTick params =>
    rw [handle, bind_eq_ok]
    constructor
    · rintro ⟨reply, _, hreply, ⟨⟩⟩
      obtain ⟨r, hrecord, hfollows, rfl, -⟩ := handleStreamTick_eq_ok.1 hreply
      refine ⟨[r], ⟨r, hrecord, rfl⟩, ⟨fun r' hr' ↦ ?_, .singleton r⟩, rfl⟩
      obtain rfl := Option.some_inj.1 hr'
      exact hfollows
    · rintro ⟨_, ⟨r, hrecord, rfl⟩, hchained, rfl⟩
      exact ⟨_, _, handleStreamTick_eq_ok.2 ⟨r, hrecord, hchained.head r rfl, rfl, rfl⟩, rfl⟩
  | historyDumpChunk params =>
    rw [handle, bind_eq_ok]
    constructor
    · rintro ⟨reply, _, hreply, ⟨⟩⟩
      obtain ⟨tbid, rs, htbid, hraw, hlength, hchained, rfl, -⟩ :=
        handleHistoryDumpChunk_eq_ok.1 hreply
      rw [predecessor, MirrorRequest.tbid, htbid]
      exact ⟨rs, ⟨htbid ▸ rfl, hraw, hlength⟩, hchained, rfl⟩
    · rintro ⟨rs, ⟨hsome, hraw, hlength⟩, hchained, rfl⟩
      obtain ⟨tbid, htbid⟩ := Option.isSome_iff_exists.1 hsome
      rw [predecessor, htbid] at hchained
      rw [MirrorRequest.tbid, htbid]
      exact ⟨_, _, handleHistoryDumpChunk_eq_ok.2
        ⟨tbid, rs, htbid, hraw, hlength, hchained, rfl, rfl⟩, rfl⟩

/-- A refused request leaves the store as it is. -/
theorem handle_eq_error {req : MirrorRequest} {e : Stop RpcError}
    (h : req.handle P store = .error e t) : t = store := by
  have hreply : ∀ {α : Type} {x : Handler α}, KeepsOnError id x →
      KeepsOnError id (do let _ ← x) := by
    intro α x hx s e t h
    rw [bind_apply] at h
    cases hxs : x s with
    | ok a s' =>
      rw [hxs] at h
      cases h
    | error e' s' =>
      rw [hxs] at h
      cases h
      exact hx s _ _ hxs
  cases req with
  | shipAck params => exact hreply (keepsOnError_handleShipAck params) store e t h
  | streamTick params => exact hreply (keepsOnError_handleStreamTick params) store e t h
  | historyDumpChunk params =>
    exact hreply (keepsOnError_handleHistoryDumpChunk params) store e t h

end MirrorRequest

end Handlers

end Foretias

import Foretias.Chronomatter.Integrity
import Foretias.Chronomatter.StampCount
import Foretias.Server.Communerdette
import Foretias.Server.MirrorHandlers
import Foretias.Server.StampDurability

/-!
# Mutual attestation with a time being

A worker that is to attest a chronon with a target fetches the target's latest record, stamps
locally, signs the stamp with the calendar's key, and asks the target to stamp the stamp. Of the
network and of all peers on it the model keeps one state of any type, so that what they do between
two requests is not fixed.

The latest record is asked for by the greatest chronon number, and a calendar answers with its
records from that number on. The local stamp is made before the calendar's key is tried and before
the target is looked up again.

* `mutualAttestation_iff` — when an attempt does what it is to do: never with an honest target, and
  else unless it leaves a stamp that it does not send.
-/

namespace Foretias

open ErrorState UnverifiedSignatureEnvelope

/-! ### Lines -/

/-- `TransportError`. -/
inductive TransportError
  /-- Connection failed. -/
  | connect (message : String)
  /-- RPC error from peer. -/
  | rpc (code : ℤ) (message : String)
  /-- Request timed out. -/
  | timeout
  /-- Response decode failed. -/
  | decode (message : String)
  /-- Transport unsupported. -/
  | unsupported (message : String)
  deriving DecidableEq

/-- Why a call on a line fails. -/
inductive LineError
  /-- The transport. -/
  | transport (e : TransportError)
  /-- A gate. -/
  | gate (e : CommunerdetteError)
  deriving DecidableEq

/-- What a line receives from the network, whose state with that of all peers is a `T`. -/
structure Network (T : Type) where
  /-- `host_lookup_tbid` finds an owner. -/
  lookupTbid : Tbid → T → Bool × T
  /-- `host_execute_calendar_slice`, under the timeout. -/
  calendarSlice : UInt64 → UInt64 → T → Except TransportError (List ChrononRecord) × T
  /-- The transport gets a request out. -/
  sends : T → Except TransportError Unit
  /-- The rest of `host_execute_stamp`, under the timeout. -/
  stamp : Tbid → String → String → T → Except TransportError (Option ForetisJson) × T

/-- The network with the contents that were sent to be stamped. -/
structure LineState (T : Type) where
  /-- The network. -/
  peers : T
  /-- What was sent. -/
  sent : List Bytes

/-- A call on a line. -/
abbrev LineCall (T : Type) := EStateM (Stop LineError) (LineState T)

namespace Network

variable (P : Primitives) {T : Type} (net : Network T) (targetTbid : Tbid)

/-- `resolve_peer`. -/
def resolvePeer : LineCall T Unit := fun s ↦
  match net.lookupTbid targetTbid s.peers with
  | (true, peers) => .ok () { s with peers }
  | (false, peers) =>
    .error (.err (.transport (.connect s!"TBID {targetTbid.toHex} not found in DHT")))
      { s with peers }

/-- `do_calendar_slice`. -/
def doCalendarSlice (tickStart count : UInt64) : LineCall T (List ChrononRecord) := fun s ↦
  match net.calendarSlice tickStart count s.peers with
  | (.ok records, peers) => .ok records { s with peers }
  | (.error e, peers) => .error (.err (.transport e)) { s with peers }

/-- `execute_tick`. -/
def executeTick (tickNumber : UInt64) : LineCall T CleanChronon := do
  net.resolvePeer targetTbid
  let raw ← net.doCalendarSlice tickNumber 1
  ofResult ((Foretias.executeTick P targetTbid raw).mapErr .gate)

/-- `do_stamp`. -/
def doStamp (content : Bytes) (echo : String) : LineCall T (Option ForetisJson) := fun s ↦
  match net.sends s.peers with
  | .error e => .error (.err (.transport e)) s
  | .ok _ =>
    match net.stamp targetTbid (hexEncode content) echo s.peers with
    | (.ok raw, peers) => .ok raw ⟨peers, s.sent ++ [content]⟩
    | (.error e, peers) => .error (.err (.transport e)) ⟨peers, s.sent ++ [content]⟩

end Network

/-- `from_json_value_v2`, with the error of a line. -/
def parseForetis (raw : Option ForetisJson) :
    Result LineError (UnverifiedSignatureEnvelope ForetisRecord) :=
  (fromJsonValueV2 raw).mapError fun e ↦
    .err (.transport (.decode (toString e)))

/-- `gate_foretis`. -/
def gateForetis (P : Primitives) (targetTbid : Tbid) (raw : Option ForetisJson)
    (chrononRecord : CleanChronon) (content : Bytes) :
    Result LineError (CleanAuthenticated ForetisRecord) := do
  let unprocessed ← parseForetis raw
  if unprocessed.inner.chrononNumber = 0 then
    .err (.gate (.structural "structurally invalid ForetisRecord: chronon_number == 0"))
  else if unprocessed.inner.tbid ≠ targetTbid then
    .err (.gate (.tbidMismatch targetTbid.toHex unprocessed.inner.tbid.toHex))
  else if unprocessed.signatures = [] then
    .err (.gate (.structural "structurally invalid ForetisRecord: no signatures in envelope"))
  else (unprocessed.verifyForetis P chrononRecord content).mapErr fun e ↦ .gate (.cleanAuth e)

/-- `execute_stamp`. -/
def Network.executeStamp (P : Primitives) {T : Type} (net : Network T) (targetTbid : Tbid)
    (content : Bytes) (echo : String) : LineCall T (CleanAuthenticated ForetisRecord) := do
  net.resolvePeer targetTbid
  let raw ← net.doStamp targetTbid content echo
  let tmp ← ofResult (parseForetis raw)
  let chrononRecord ← net.executeTick P targetTbid tmp.inner.chrononNumber
  ofResult (gateForetis P targetTbid raw chrononRecord content)

/-! ### The worker -/

/-- A signing key, and what its next signature fails with. -/
structure CalendarKey where
  /-- The seed. -/
  seed : FixedBytes 32
  /-- The fault. -/
  fault : Option CryptoError

/-- The part of the `WorkerContext` that an attestation uses. -/
structure AttestationContext (P : Primitives) where
  /-- A communerd is wired. -/
  communerd : Bool
  /-- The chronomatter, if it is wired, with the calendar that it notifies. -/
  chronomatter : Option (Chronomatter P)
  /-- The calendar's key, if it is wired and there is one. -/
  signingKey : Option (Option CalendarKey)

/-- `sign_with_calendar_key`. -/
def AttestationContext.signWithCalendarKey {P : Primitives} (ctx : AttestationContext P)
    (data : Bytes) : Option Bytes := do
  let guard ← ctx.signingKey
  let key ← guard
  (unlessFault key.fault (P.ed25519Sign key.seed data).toList).toOption

/-- What an attestation has come to. -/
structure AttestationResult (P : Primitives) where
  /-- The local chronomatter. -/
  chronomatter : Option (Chronomatter P)
  /-- The target's record. -/
  fetched : Option CleanChronon
  /-- The local stamp. -/
  stamped : Option StampedForetis
  /-- What was sent to be stamped. -/
  sent : List Bytes
  /-- The target's stamp, once it has passed the gate. -/
  attested : Option (CleanAuthenticated ForetisRecord)

/-- An attempt: what a worker is given, and the network that it finds. -/
structure Attempt (P : Primitives) (T : Type) where
  /-- The context. -/
  ctx : AttestationContext P
  /-- The target, hex-encoded. -/
  targetTbid : String
  /-- What the local stamp receives from outside. -/
  env : CallEnv
  /-- The network. -/
  net : Network T
  /-- Its state. -/
  peers : T

namespace Attempt

variable {P : Primitives} {T : Type} (a : Attempt P T)

/-- `u64::MAX`. -/
def latestChronon : UInt64 := 0xFFFFFFFFFFFFFFFF

/-- The attempt that has stopped before the local stamp. -/
def stopped (fetched : Option CleanChronon) : AttestationResult P :=
  ⟨a.ctx.chronomatter, fetched, none, [], none⟩

/-- The local stamp: its content, with its echo. -/
def stampCall : Call P StampedForetis :=
  Chronomatter.stamp a.env (asBytes s!"chronon-attest-{a.targetTbid}") "chronon-attestation"

/-- `transmit_chronon_attestation`; the calendar's signature is not sent. -/
def transmitChrononAttestation (tbid : Tbid) (peers : T) (target : CleanChronon)
    (c : Chronomatter P) (stamped : StampedForetis) : AttestationResult P :=
  let foretisBytes := P.postcard stamped.foretis
  let echo := s!"attest-{stamped.foretis.chrononNumber}"
  match a.net.executeStamp P tbid foretisBytes echo ⟨peers, []⟩ with
  | .ok remote s => ⟨some c, some target, some stamped, s.sent, some remote⟩
  | .error _ s => ⟨some c, some target, some stamped, s.sent, none⟩

/-- `handle_do_chronon_attestation`. -/
def handleDoChrononAttestation : AttestationResult P :=
  if a.ctx.communerd = false then a.stopped none
  else
    match a.ctx.chronomatter with
    | none => a.stopped none
    | some chronomatter =>
      match Tbid.fromHex a.targetTbid with
      | none => a.stopped none
      | some tbid =>
        -- The latest record is asked for by the greatest number.
        match a.net.executeTick P tbid latestChronon ⟨a.peers, []⟩ with
        | .error _ _ => a.stopped none
        | .ok target s =>
          match a.stampCall chronomatter with
          | .error _ c => { a.stopped (some target) with chronomatter := some c }
          | .ok stamped c =>
            -- The calendar has the stamp's record by now.
            match a.ctx.signWithCalendarKey (P.postcard stamped.foretis) with
            | none => { a.stopped (some target) with chronomatter := some c, stamped }
            | some _ => a.transmitChrononAttestation tbid s.peers target c stamped

end Attempt

/-! ### Honest targets -/

/-- The reply to a stamp request as JSON. -/
def StampReply.toJson (reply : StampReply) : ForetisJson :=
  ⟨some (.ok reply.foretis), some reply.signature, some reply.signatureAlgorithm⟩

section Target

variable {P : Primitives} {A T : Type} (C : Codec (CalendarData A))

/-- On the network there is a server, which can be reached and answers requests as its handlers
do; what it receives from outside is not fixed. -/
structure Network.Honest (net : Network T) (server : T → TimeFamilyServer P) : Prop where
  /-- It is found. -/
  lookupTbid : ∀ t, ∃ t', net.lookupTbid (server t).chronomatter.tbid t = (true, t') ∧
    server t' = server t
  /-- It answers with records of its calendar. -/
  calendarSlice : ∀ start count t, count.toNat ≤ maxCalendarSliceCount →
    ∃ t', net.calendarSlice start count t =
        (.ok ((server t).chronomatter.tickObserver.get start count.toNat), t') ∧
      server t' = server t
  /-- Requests get out. -/
  sends : ∀ t, net.sends t = .ok ()
  /-- It stamps. -/
  stamp : ∀ contentHex echo t, ∃ env result t',
    handleStamp C env ⟨some contentHex, some echo⟩ (server t) = (result, server t') ∧
    (net.stamp (server t).chronomatter.tbid contentHex echo t).2 = t' ∧
    ∀ reply, result = .ok reply →
      (net.stamp (server t).chronomatter.tbid contentHex echo t).1 = .ok (some reply.toJson)

/-- A server that has its files, and any clock, randomness and faults, as a network of its own. -/
def serverNetwork (env : StampEnv) : Network (TimeFamilyServer P) where
  lookupTbid tbid s := (decide (s.chronomatter.tbid = tbid), s)
  calendarSlice start count s :=
    if maxCalendarSliceCount < count.toNat then
      (.error (.rpc (-32602) s!"count exceeds maximum of {maxCalendarSliceCount}"), s)
    else (.ok (s.chronomatter.tickObserver.get start count.toNat), s)
  sends _ := .ok ()
  stamp _ contentHex echo s :=
    match handleStamp C env ⟨some contentHex, some echo⟩ s with
    | (.ok reply, s) => (.ok (some reply.toJson), s)
    | (.error e, s) => (.error (.rpc e.code e.message), s)

/-- A target that is a server is honest. -/
theorem honest_serverNetwork (env : StampEnv) :
    (serverNetwork C env : Network (TimeFamilyServer P)).Honest C id where
  lookupTbid s := ⟨s, congrArg (·, s) (decide_eq_true rfl), rfl⟩
  calendarSlice _ _ s hcount := ⟨s, if_neg (Nat.not_lt.2 hcount), rfl⟩
  sends _ := rfl
  stamp contentHex echo s := by
    rcases h : handleStamp C env ⟨some contentHex, some echo⟩ s with ⟨e | reply, s'⟩
    · refine ⟨env, _, s', h, ?_, fun _ hreply ↦ ?_⟩
      · simp only [serverNetwork, h]
      · cases hreply
    · refine ⟨env, _, s', h, ?_, fun _ hreply ↦ ?_⟩
      · simp only [serverNetwork, h]
      · cases hreply
        simp only [serverNetwork, h]

namespace Attempt

variable (a : Attempt P T)

/-- The target is an honest server with records in its calendar. -/
structure HonestTarget (server : T → TimeFamilyServer P) : Prop where
  /-- It is on the network. -/
  honest : a.net.Honest C server
  /-- It is the one that is named. -/
  named : Tbid.fromHex a.targetTbid = some (server a.peers).chronomatter.tbid
  /-- Its calendar is of a run of its calls, some of which may have failed. -/
  reached : ∃ (secret : TbidSecret) (tbn : String) (ops : List Chronomatter.Op),
    Run Chronomatter.ExecStep (.new secret (secret.tbid P) tbn) ops (server a.peers).chronomatter
  /-- There are records. -/
  nonempty : (server a.peers).chronomatter.tickObserver.ticks ≠ []

/-- The attempt has got the target's latest record, made one local stamp, and got one stamp of the
target over its canonical bytes through the gate. -/
structure Completes (server : T → TimeFamilyServer P) (result : AttestationResult P) : Prop where
  /-- The record. -/
  latest : ∃ latest, (server a.peers).chronomatter.tickObserver.latestTick = some latest ∧
    result.fetched = some (.fromTrusted latest)
  /-- The stamps. -/
  attested : ∃ c stamped c' remote, a.ctx.chronomatter = some c ∧
    a.stampCall c = .ok stamped c' ∧ result.chronomatter = some c' ∧
    result.stamped = some stamped ∧ result.sent = [P.postcard stamped.foretis] ∧
    result.attested = some remote ∧
    remote.inner.tbid = (server a.peers).chronomatter.tbid ∧
    remote.inner.contentHash = P.sha256 (P.postcard stamped.foretis)

/-- What an attempt is to do: with an honest target it is complete, and with any target, where
nothing was sent, the local calendar is as before. -/
structure MutualAttestation : Prop where
  /-- Completeness. -/
  complete : ∀ server : T → TimeFamilyServer P, a.HonestTarget C server →
    a.Completes server a.handleDoChrononAttestation
  /-- Atomicity. -/
  atomic : a.handleDoChrononAttestation.sent = [] →
    a.handleDoChrononAttestation.chronomatter.map Chronomatter.tickObserver =
      a.ctx.chronomatter.map Chronomatter.tickObserver

end Attempt

end Target

/-! ### Fetching -/

/-- The gate admits the records as the answer to a request for one of them. -/
structure SliceAdmitted (P : Primitives) (targetTbid : Tbid) (records : List ChrononRecord) :
    Prop where
  /-- There is one. -/
  nonempty : records ≠ []
  /-- The first passes without a predecessor. -/
  first : ∀ r ∈ records.head?, r.FirstRecord
  /-- Each other one passes against the one before. -/
  linked : records.IsChain (LinkedTo P)
  /-- All are well-formed records of the target. -/
  wellFormed : ∀ r ∈ records,
    (r.chrononNumber ≠ 0 ∧ r.publicKey ≠ []) ∧ r.tbid = targetTbid

section Fetch

variable {P : Primitives} {T : Type} {net : Network T} {tbid : Tbid}
  {records : List ChrononRecord} {c : CleanChronon} {s t : LineState T}

theorem SliceAdmitted.exists_head? (h : SliceAdmitted P tbid records) :
    ∃ r, records.head? = some r := by
  obtain ⟨r, rs, rfl⟩ := List.exists_cons_of_ne_nil h.nonempty
  exact ⟨r, rfl⟩

/-- A tick is fetched exactly if its slice is admitted, and is then the slice's first record. -/
theorem executeTick_eq_ok : executeTick P tbid records = .ok c ↔
    SliceAdmitted P tbid records ∧ records.head?.map .fromTrusted = some c := by
  rw [executeTick, Result.bind_eq_ok]
  constructor
  · rintro ⟨cs, hgate, hfirst⟩
    obtain ⟨rfl, hhead, hchain, hall⟩ := gateChrononRecords_eq_ok.1 hgate
    rcases records with - | ⟨r, rs⟩
    · exact absurd hfirst (Result.err_ne_ok _ _)
    · exact ⟨⟨List.cons_ne_nil _ _, hhead, hchain, hall⟩,
        congrArg some (Result.pure_eq_ok.1 hfirst)⟩
  · rintro ⟨hadmitted, hhead⟩
    refine ⟨_, gateChrononRecords_eq_ok.2
      ⟨rfl, hadmitted.first, hadmitted.linked, hadmitted.wellFormed⟩, ?_⟩
    rw [List.head?_map, hhead]
    rfl

/-- **From no calendar is the latest record obtained**: it answers with its records from the
greatest chronon number on, and the gate admits none of these as a first one. -/
theorem not_sliceAdmitted_latest (calendar : Calendar) :
    ¬SliceAdmitted P tbid (calendar.get Attempt.latestChronon 1) := by
  intro h
  obtain ⟨r, hr⟩ := h.exists_head?
  obtain ⟨-, hle, -⟩ := (Calendar.head?_get_iff 0).1 hr
  rw [(h.first r hr).chrononNumber_eq] at hle
  exact absurd hle (by decide)

/-- The line finds the target, and its answer to a request for the latest record is admitted. -/
def Network.AdmitsLatest (P : Primitives) (net : Network T) (tbid : Tbid)
    (peers peers' : T) : Prop :=
  ∃ found records, net.lookupTbid tbid peers = (true, found) ∧
    net.calendarSlice Attempt.latestChronon 1 found = (.ok records, peers') ∧
    SliceAdmitted P tbid records

theorem Network.resolvePeer_eq_ok {u : Unit} : net.resolvePeer tbid s = .ok u t ↔
    ∃ peers, net.lookupTbid tbid s.peers = (true, peers) ∧ t = { s with peers } := by
  rw [resolvePeer]
  rcases net.lookupTbid tbid s.peers with ⟨_ | _, peers⟩
  · refine iff_of_false (fun h ↦ ?_) fun ⟨_, h, _⟩ ↦ ?_
    · cases h
    · cases h
  · constructor
    · rintro ⟨⟩
      exact ⟨peers, rfl, rfl⟩
    · rintro ⟨_, ⟨⟩, rfl⟩
      rfl

theorem Network.doCalendarSlice_eq_ok {start count : UInt64} :
    net.doCalendarSlice start count s = .ok records t ↔
      ∃ peers, net.calendarSlice start count s.peers = (.ok records, peers) ∧
        t = { s with peers } := by
  rw [doCalendarSlice]
  rcases net.calendarSlice start count s.peers with ⟨_ | answer, peers⟩
  · refine iff_of_false (fun h ↦ ?_) fun ⟨_, h, _⟩ ↦ ?_
    · cases h
    · cases h
  · constructor
    · rintro ⟨⟩
      exact ⟨peers, rfl, rfl⟩
    · rintro ⟨_, ⟨⟩, rfl⟩
      rfl

/-- The line finds the target, and the answer to a request for a record. -/
def Network.Answers (net : Network T) (tbid : Tbid) (n : UInt64) (peers : T)
    (records : List ChrononRecord) (peers' : T) : Prop :=
  ∃ found, net.lookupTbid tbid peers = (true, found) ∧
    net.calendarSlice n 1 found = (.ok records, peers')

/-- A record is fetched exactly where the answer is admitted, and it is the first one of it. -/
theorem Network.executeTick_eq_ok {n : UInt64} : net.executeTick P tbid n s = .ok c t ↔
    ∃ records peers, net.Answers tbid n s.peers records peers ∧ SliceAdmitted P tbid records ∧
      records.head?.map .fromTrusted = some c ∧ t = { s with peers } := by
  simp only [executeTick, bind_eq_ok, resolvePeer_eq_ok, doCalendarSlice_eq_ok, ofResult_eq_ok,
    Result.mapErr_eq_ok, Foretias.executeTick_eq_ok]
  constructor
  · rintro ⟨-, _, ⟨found, hfound, rfl⟩, records, _, ⟨peers, hslice, rfl⟩, ⟨hadmitted, hhead⟩, rfl⟩
    exact ⟨records, peers, ⟨found, hfound, hslice⟩, hadmitted, hhead, rfl⟩
  · rintro ⟨records, peers, ⟨found, hfound, hslice⟩, hadmitted, hhead, rfl⟩
    exact ⟨(), _, ⟨found, hfound, rfl⟩, records, _, ⟨peers, hslice, rfl⟩, ⟨hadmitted, hhead⟩, rfl⟩

/-- The latest record is fetched exactly where the answer is admitted. -/
theorem Network.executeTick_latest :
    (∃ c, net.executeTick P tbid Attempt.latestChronon s = .ok c t) ↔
      ∃ peers, net.AdmitsLatest P tbid s.peers peers ∧ t = { s with peers } := by
  simp only [executeTick_eq_ok]
  constructor
  · rintro ⟨c, records, peers, ⟨found, hfound, hslice⟩, hadmitted, -, rfl⟩
    exact ⟨peers, ⟨found, records, hfound, hslice, hadmitted⟩, rfl⟩
  · rintro ⟨peers, ⟨found, records, hfound, hslice, hadmitted⟩, rfl⟩
    obtain ⟨r, hr⟩ := hadmitted.exists_head?
    exact ⟨.fromTrusted r, records, peers, ⟨found, hfound, hslice⟩, hadmitted, by rw [hr]; rfl, rfl⟩

/-! ### Sending -/

/-- The line finds the target, and the transport gets a request out. -/
def Network.GoesOut (net : Network T) (tbid : Tbid) (peers : T) : Prop :=
  ∃ found, net.lookupTbid tbid peers = (true, found) ∧ net.sends found = .ok ()

theorem Network.preserves_resolvePeer : Preserves LineState.sent (net.resolvePeer tbid) := by
  intro s
  rw [resolvePeer]
  rcases net.lookupTbid tbid s.peers with ⟨_ | _, peers⟩
  · rfl
  · rfl

theorem Network.preserves_executeTick (n : UInt64) :
    Preserves LineState.sent (net.executeTick P tbid n) := by
  refine .bind preserves_resolvePeer fun _ ↦ .bind (fun s ↦ ?_) fun _ ↦ .ofResult _
  rw [doCalendarSlice]
  rcases net.calendarSlice n 1 s.peers with ⟨_ | _, peers⟩
  · rfl
  · rfl

variable (P net tbid s) in
/-- The content is sent to be stamped exactly where a request gets out. -/
theorem Network.sent_executeStamp (content : Bytes) (echo : String) :
    (net.GoesOut tbid s.peers ∧
        (finalState (net.executeStamp P tbid content echo s)).sent = s.sent ++ [content]) ∨
      (¬net.GoesOut tbid s.peers ∧
        (finalState (net.executeStamp P tbid content echo s)).sent = s.sent) := by
  rcases hlookup : net.lookupTbid tbid s.peers with ⟨_ | _, found⟩
  · refine .inr ⟨fun ⟨_, h, _⟩ ↦ ?_, ?_⟩
    · rw [hlookup] at h
      cases h
    · have hresolve : ∃ e, net.resolvePeer tbid s = .error e { s with peers := found } := by
        rw [resolvePeer, hlookup]
        exact ⟨_, rfl⟩
      obtain ⟨e, he⟩ := hresolve
      rw [executeStamp, bind_of_error he]
      rfl
  have hresolve : net.resolvePeer tbid s = .ok () { s with peers := found } := by
    rw [resolvePeer, hlookup]
  rw [executeStamp, bind_of_ok hresolve]
  rcases hsends : net.sends found with e | _
  · refine .inr ⟨fun ⟨_, h, hout⟩ ↦ ?_, ?_⟩
    · -- the lookup is a function of the state
      obtain rfl := congrArg Prod.snd (hlookup.symm.trans h)
      rw [hsends] at hout
      cases hout
    · have hstamp : net.doStamp tbid content echo { s with peers := found } =
          .error (.err (.transport e)) { s with peers := found } := by
        rw [doStamp]
        simp only [hsends]
      rw [bind_of_error hstamp]
      rfl
  · refine .inl ⟨⟨found, hlookup, hsends⟩, ?_⟩
    -- What comes after the request sends nothing.
    rcases hanswer : net.stamp tbid (hexEncode content) echo found with ⟨e | raw, peers⟩
    · have hstamp : net.doStamp tbid content echo { s with peers := found } =
          .error (.err (.transport e)) ⟨peers, s.sent ++ [content]⟩ := by
        rw [doStamp]
        simp only [hsends, hanswer]
      rw [bind_of_error hstamp]
      rfl
    · have hstamp : net.doStamp tbid content echo { s with peers := found } =
          .ok raw ⟨peers, s.sent ++ [content]⟩ := by
        rw [doStamp]
        simp only [hsends, hanswer]
      have hrest : Preserves LineState.sent (do
          let tmp ← ofResult (parseForetis raw)
          let chrononRecord ← net.executeTick P tbid tmp.inner.chrononNumber
          ofResult (gateForetis P tbid raw chrononRecord content)) :=
        .bind (.ofResult _) fun tmp ↦ .bind (preserves_executeTick _) fun _ ↦ .ofResult _
      rw [bind_of_ok hstamp]
      exact hrest ⟨peers, s.sent ++ [content]⟩

end Fetch

/-! ### The local stamp -/

namespace Chronomatter

variable {P : Primitives} {c : Chronomatter P} {env : CallEnv}

/-- A stamp succeeds, and the calendar takes its record. -/
structure RecordsStamp (c : Chronomatter P) (env : CallEnv) : Prop where
  /-- The chronomatter is not dormant. -/
  awake : c.isDormant = false
  /-- The payload is hashed, timed, encoded and signed. -/
  stamps : env.StampsContent
  /-- The attestation is reached. -/
  reaches : env.ReachesSwap c
  /-- The record is built. -/
  finishes : env.FinishesRecord c
  /-- It is later than those in the calendar. -/
  above : c.tickObserver.Above (c.currentTick + 1)

theorem exec_stamp_of_ok {content : Bytes} {echo : String} {r : Option StampedForetis}
    {t : Chronomatter P} (h : (Op.stamp env content echo).exec c = .ok r t) :
    ∃ st, stamp env content echo c = .ok st t := by
  rw [Op.exec, map_eq_pure_bind] at h
  obtain ⟨st, _, hstamp, h⟩ := bind_eq_ok.1 h
  cases h
  exact ⟨st, hstamp⟩

theorem exec_stamp_of_error {content : Bytes} {echo : String} {e : NodeError}
    {t : Chronomatter P} (h : (Op.stamp env content echo).exec c = .error e t) :
    stamp env content echo c = .error e t := by
  rw [Op.exec, map_eq_pure_bind] at h
  rcases hstamp : stamp env content echo c with ⟨st, s⟩ | ⟨e', s⟩
  · rw [bind_of_ok hstamp] at h
    cases h
  · rw [bind_of_error hstamp] at h
    cases h
    rfl

/-- The calendar changes exactly by a stamp that it records. -/
theorem recordsStamp_cases (env : CallEnv) (content : Bytes) (echo : String) :
    (c.RecordsStamp env ∧ ∃ st t, stamp env content echo c = .ok st t ∧
        t.tickObserver ≠ c.tickObserver) ∨
      (¬c.RecordsStamp env ∧
        (finalState (stamp env content echo c)).tickObserver = c.tickObserver) := by
  rcases hdormant : c.isDormant with _ | _
  swap
  · refine .inr ⟨fun h ↦ Bool.false_ne_true (h.awake.symm.trans hdormant), ?_⟩
    rw [stamp, bind_of_ok (get_apply c), hdormant]
    rfl
  have hfailed : ∀ {e t}, (Op.stamp env content echo).exec c = .error e t →
      (finalState (stamp env content echo c)).tickObserver = c.tickObserver := by
    intro e t he
    rw [exec_stamp_of_error he]
    exact tickObserver_of_error hdormant he
  obtain ⟨hreach, e, t, he, -⟩ | ⟨hreach, hfinishes, r, t, -, hok, -⟩ |
    ⟨-, hfinishes, e, t, he, -⟩ := exec_cases hdormant (.stamp env content echo)
  · exact .inr ⟨fun h ↦ hreach ⟨h.reaches, h.stamps⟩, hfailed he⟩
  · obtain ⟨st, hstamp⟩ := exec_stamp_of_ok hok
    obtain ⟨kp, record, hproduced, rfl, -⟩ := stamp_eq_ok hstamp
    by_cases habove : c.tickObserver.Above (c.currentTick + 1)
    · refine .inl ⟨⟨hdormant, hreach.2, hreach.1, hfinishes, habove⟩, st, _, hstamp, fun h ↦ ?_⟩
      have hticks := Calendar.ticks_onTickAdvance (c := c.tickObserver) record
      rw [hproduced.chrononNumber_eq, if_pos habove] at hticks
      have hlength := congrArg List.length (hticks.symm.trans (congrArg Calendar.ticks h))
      rw [List.length_append, List.length_singleton] at hlength
      omega
    · refine .inr ⟨fun h ↦ habove h.above, ?_⟩
      rw [hstamp]
      show c.tickObserver.onTickAdvance record = c.tickObserver
      rw [Calendar.onTickAdvance, Calendar.append, dif_neg (hproduced.chrononNumber_eq ▸ habove)]
  · exact .inr ⟨fun h ↦ hfinishes h.finishes, hfailed he⟩

end Chronomatter

/-! ### Attempts -/

/-- The calendar's key is there and signs. -/
def AttestationContext.Signs {P : Primitives} (ctx : AttestationContext P) : Prop :=
  ∃ key, ctx.signingKey = some (some key) ∧ key.fault = none

/-- A context signs everything or nothing. -/
theorem AttestationContext.signs_cases {P : Primitives} (ctx : AttestationContext P)
    (data : Bytes) : (ctx.Signs ∧ ∃ sig, ctx.signWithCalendarKey data = some sig) ∨
      (¬ctx.Signs ∧ ctx.signWithCalendarKey data = none) := by
  rw [signWithCalendarKey, Signs]
  rcases ctx.signingKey with _ | _ | ⟨seed, _ | fault⟩
  · refine .inr ⟨fun ⟨_, h, _⟩ ↦ ?_, rfl⟩
    cases h
  · refine .inr ⟨fun ⟨_, h, _⟩ ↦ ?_, rfl⟩
    cases h
  · exact .inl ⟨⟨_, rfl, rfl⟩, _, rfl⟩
  · refine .inr ⟨fun ⟨_, h, hfault⟩ ↦ ?_, rfl⟩
    cases h
    cases hfault

namespace Attempt

variable {P : Primitives} {A T : Type} {C : Codec (CalendarData A)} {a : Attempt P T}
  {c : Chronomatter P} {tbid : Tbid} {peers : T}

/-- The attempt gets to the local stamp. -/
structure Fetches (a : Attempt P T) (c : Chronomatter P) (tbid : Tbid) (peers : T) : Prop where
  /-- There is a communerd. -/
  communerd : a.ctx.communerd = true
  /-- There is a chronomatter. -/
  chronomatter : a.ctx.chronomatter = some c
  /-- The target's name is a TBID. -/
  named : Tbid.fromHex a.targetTbid = some tbid
  /-- The answer of the target is admitted. -/
  admits : a.net.AdmitsLatest P tbid a.peers peers

/-- At most one target record can be fetched. -/
theorem Fetches.unique {c' : Chronomatter P} {tbid' : Tbid} {peers' : T}
    (h : a.Fetches c tbid peers) (h' : a.Fetches c' tbid' peers') :
    c' = c ∧ tbid' = tbid ∧ peers' = peers := by
  obtain rfl := Option.some.inj (h.chronomatter.symm.trans h'.chronomatter)
  obtain rfl := Option.some.inj (h.named.symm.trans h'.named)
  obtain ⟨found, records, hlookup, hslice, -⟩ := h.admits
  obtain ⟨found', records', hlookup', hslice', -⟩ := h'.admits
  obtain rfl := congrArg Prod.snd (hlookup.symm.trans hlookup')
  exact ⟨rfl, rfl, (congrArg Prod.snd (hslice.symm.trans hslice')).symm⟩

/-- The attempt makes a stamp that the local calendar records, and does not send it: the calendar's
key does not sign, the target is not found again, or the transport does not get the request out. -/
def StrandsStamp (a : Attempt P T) : Prop :=
  ∃ c tbid peers, a.Fetches c tbid peers ∧ c.RecordsStamp a.env ∧
    ¬(a.ctx.Signs ∧ a.net.GoesOut tbid peers)

/-- What the attempt does from the local stamp on. -/
def attest (a : Attempt P T) (tbid : Tbid) (peers : T) (target : CleanChronon)
    (c : Chronomatter P) : AttestationResult P :=
  match a.stampCall c with
  | .error _ c => { a.stopped (some target) with chronomatter := some c }
  | .ok stamped c =>
    match a.ctx.signWithCalendarKey (P.postcard stamped.foretis) with
    | none => { a.stopped (some target) with chronomatter := some c, stamped }
    | some _ => a.transmitChrononAttestation tbid peers target c stamped

/-- An attempt that fetches its target goes on to attest it. -/
theorem handle_of_fetches (h : a.Fetches c tbid peers) :
    ∃ target, a.handleDoChrononAttestation = a.attest tbid peers target c := by
  obtain ⟨target, htarget⟩ := Network.executeTick_latest.2
    ⟨peers, (show a.net.AdmitsLatest P tbid (LineState.mk a.peers []).peers peers from h.admits),
      rfl⟩
  refine ⟨target, ?_⟩
  rw [handleDoChrononAttestation, h.communerd, if_neg (Bool.false_ne_true ∘ Eq.symm),
    h.chronomatter]
  simp only [h.named, htarget]
  rfl

/-- An attempt that does not stops, and nothing has changed. -/
theorem handle_of_not_fetches (h : ¬∃ c tbid peers, a.Fetches c tbid peers) :
    a.handleDoChrononAttestation = a.stopped none := by
  rw [handleDoChrononAttestation]
  split
  next => rfl
  next hcommunerd =>
    rcases hchronomatter : a.ctx.chronomatter with _ | c
    · rfl
    rcases hnamed : Tbid.fromHex a.targetTbid with _ | tbid
    · rfl
    rcases hfetch : a.net.executeTick P tbid latestChronon ⟨a.peers, []⟩ with ⟨target, s⟩ | ⟨e, s⟩
    · obtain ⟨peers, hadmits, -⟩ := Network.executeTick_latest.1 ⟨target, hfetch⟩
      exact absurd ⟨c, tbid, peers, Bool.not_eq_false _ ▸ hcommunerd, hchronomatter, hnamed,
        hadmits⟩ h
    · simp only [hfetch]

variable (a c tbid peers) in
/-- A transmission changes no chronomatter, and sends what the stamp request sends. -/
theorem transmit_apply (target : CleanChronon) (stamped : StampedForetis) :
    (a.transmitChrononAttestation tbid peers target c stamped).chronomatter = some c ∧
    (a.transmitChrononAttestation tbid peers target c stamped).sent =
      (finalState (a.net.executeStamp P tbid (P.postcard stamped.foretis)
        s!"attest-{stamped.foretis.chrononNumber}" ⟨peers, []⟩)).sent := by
  rw [transmitChrononAttestation]
  rcases a.net.executeStamp P tbid (P.postcard stamped.foretis)
    s!"attest-{stamped.foretis.chrononNumber}" ⟨peers, []⟩ with ⟨remote, s⟩ | ⟨e, s⟩
  · exact ⟨rfl, rfl⟩
  · exact ⟨rfl, rfl⟩

/-- From the local stamp on, what is not sent leaves the calendar as it is exactly where a stamp
that the calendar records goes out. -/
theorem atomic_attest_iff (target : CleanChronon) :
    ((a.attest tbid peers target c).sent = [] →
        (a.attest tbid peers target c).chronomatter.map Chronomatter.tickObserver =
          some c.tickObserver) ↔
      (c.RecordsStamp a.env → a.ctx.Signs ∧ a.net.GoesOut tbid peers) := by
  rw [attest]
  rcases Chronomatter.recordsStamp_cases (c := c) a.env
    (asBytes s!"chronon-attest-{a.targetTbid}") "chronon-attestation" with
    ⟨hrecords, st, t, hstamp, hne⟩ | ⟨hrecords, hsame⟩
  · have hchanged : ¬(some t).map Chronomatter.tickObserver = some c.tickObserver :=
      fun h ↦ hne (Option.some.inj h)
    replace hstamp : a.stampCall c = .ok st t := hstamp
    rw [hstamp]
    dsimp only
    obtain ⟨hsigns, sig, hsig⟩ | ⟨hsigns, hsig⟩ := a.ctx.signs_cases (P.postcard st.foretis)
    · rw [hsig]
      obtain ⟨hchronomatter, hsent⟩ := transmit_apply a t tbid peers target st
      dsimp only
      rw [hchronomatter, hsent]
      obtain ⟨hout, hsent⟩ | ⟨hout, hsent⟩ := a.net.sent_executeStamp P tbid
        ⟨peers, []⟩ (P.postcard st.foretis) s!"attest-{st.foretis.chrononNumber}"
      · rw [hsent]
        exact iff_of_true (fun h ↦ absurd h (List.cons_ne_nil _ _)) fun _ ↦ ⟨hsigns, hout⟩
      · rw [hsent]
        exact iff_of_false (fun h ↦ hchanged (h rfl)) fun h ↦ hout (h hrecords).2
    · rw [hsig]
      exact iff_of_false (fun h ↦ hchanged (h rfl)) fun h ↦ hsigns (h hrecords).1
  · refine iff_of_true (fun _ ↦ ?_) fun h ↦ absurd h hrecords
    replace hsame : (finalState (a.stampCall c)).tickObserver = c.tickObserver := hsame
    rcases hstamp : a.stampCall c with ⟨st, t⟩ | ⟨e, t⟩
    · rw [hstamp] at hsame
      dsimp only
      obtain ⟨-, sig, hsig⟩ | ⟨-, hsig⟩ := a.ctx.signs_cases (P.postcard st.foretis)
      · rw [hsig]
        dsimp only
        rw [(transmit_apply ..).1]
        exact congrArg some hsame
      · rw [hsig]
        exact congrArg some hsame
    · rw [hstamp] at hsame
      exact congrArg some hsame

/-- Where nothing was sent, the local calendar is as before, unless the attempt strands its
stamp. -/
theorem atomic_iff : (a.handleDoChrononAttestation.sent = [] →
      a.handleDoChrononAttestation.chronomatter.map Chronomatter.tickObserver =
        a.ctx.chronomatter.map Chronomatter.tickObserver) ↔ ¬a.StrandsStamp := by
  by_cases hfetches : ∃ c tbid peers, a.Fetches c tbid peers
  · obtain ⟨c, tbid, peers, hfetches⟩ := hfetches
    obtain ⟨target, hhandle⟩ := handle_of_fetches hfetches
    rw [hhandle, hfetches.chronomatter]
    refine (atomic_attest_iff target).trans ⟨?_, fun h hrecords ↦ ?_⟩
    · rintro h ⟨c', tbid', peers', hfetches', hrecords, hnot⟩
      obtain ⟨rfl, rfl, rfl⟩ := hfetches.unique hfetches'
      exact hnot (h hrecords)
    · exact not_not.1 fun hnot ↦ h ⟨c, tbid, peers, hfetches, hrecords, hnot⟩
  · rw [handle_of_not_fetches hfetches]
    refine iff_of_true (fun _ ↦ rfl) ?_
    rintro ⟨c, tbid, peers, h, -⟩
    exact hfetches ⟨c, tbid, peers, h⟩

/-- **Of an honest target nothing is obtained**: the attempt stops before its local stamp. -/
theorem not_fetches_of_honestTarget {server : T → TimeFamilyServer P}
    (h : a.HonestTarget C server) : ¬∃ c tbid peers, a.Fetches c tbid peers := by
  rintro ⟨c, tbid, peers, hfetches⟩
  obtain ⟨found, records, hlookup, hslice, hadmitted⟩ := hfetches.admits
  obtain rfl := Option.some.inj (hfetches.named.symm.trans h.named)
  obtain ⟨found', hlookup', hsame⟩ := h.honest.lookupTbid a.peers
  obtain rfl := congrArg Prod.snd (hlookup.symm.trans hlookup')
  obtain ⟨peers', hslice', -⟩ := h.honest.calendarSlice latestChronon 1 found (by decide)
  obtain rfl := Except.ok.inj (congrArg Prod.fst (hslice.symm.trans hslice'))
  exact not_sliceAdmitted_latest _ hadmitted

/-- **When an attempt does what it is to do**: it never does with an honest target, whose latest
record is not obtained; and with another target it does unless it strands its stamp. -/
theorem mutualAttestation_iff : a.MutualAttestation C ↔
    (∀ server : T → TimeFamilyServer P, ¬a.HonestTarget C server) ∧ ¬a.StrandsStamp := by
  rw [← atomic_iff]
  constructor
  · rintro ⟨hcomplete, hatomic⟩
    refine ⟨fun server hhonest ↦ ?_, hatomic⟩
    obtain ⟨latest, -, hfetched⟩ := (hcomplete server hhonest).latest
    rw [handle_of_not_fetches (not_fetches_of_honestTarget hhonest)] at hfetched
    exact Option.some_ne_none _ hfetched.symm
  · rintro ⟨hdishonest, hatomic⟩
    exact ⟨fun server hhonest ↦ absurd hhonest (hdishonest server), hatomic⟩

theorem above_new (tbid : Tbid) (tbn : String) (n : UInt64) : (Calendar.new tbid tbn).Above n :=
  fun _ hlast ↦ absurd hlast (Option.not_mem_none _)

/-- With a server whose calendar has one record, the attempt is not complete. -/
theorem not_mutualAttestation_one_tick :
    ¬∀ a : Attempt .transparent (TimeFamilyServer .transparent),
      a.MutualAttestation (.unary : Codec (CalendarData Unit)) := by
  intro h
  have hclear : (Chronomatter.Op.daemonTick (.clear (.replicate 32 1))).Faultless (0 + 1) :=
    CallEnv.buildsTick_clear _ _
  obtain ⟨r, t, hexec⟩ := Chronomatter.exists_exec_new (P := .transparent) default
    ((default : TbidSecret).tbid .transparent) "" hclear
  obtain ⟨kp, record, hproduced, rfl, -⟩ := Chronomatter.exec_eq_ok rfl hexec
  obtain ⟨target, htarget⟩ : ∃ target : TimeFamilyServer .transparent, target =
    ⟨(Chronomatter.new default ((default : TbidSecret).tbid .transparent) "").completed kp record,
      .empty⟩ := ⟨_, rfl⟩
  let env : StampEnv := ⟨"", .clear (.replicate 32 2), none⟩
  let a : Attempt .transparent (TimeFamilyServer .transparent) :=
    { ctx := ⟨true, some (.new ⟨.replicate 32 3, default⟩ default ""), some (some ⟨default, none⟩)⟩
      targetTbid := target.chronomatter.tbid.toHex
      env := .clear (.replicate 32 4)
      net := serverNetwork (.unary : Codec (CalendarData Unit)) env
      peers := target }
  have hhonest : a.HonestTarget (.unary : Codec (CalendarData Unit)) id := by
    refine ⟨honest_serverNetwork _ env, Tbid.fromHex_toHex _, ⟨default, "",
      [.daemonTick (.clear (.replicate 32 1))], ?_⟩, ?_⟩
    · show Run _ _ _ target.chronomatter
      rw [htarget]
      exact .cons (congrArg finalState hexec) (.nil _)
    · show target.chronomatter.tickObserver.ticks ≠ []
      rw [htarget]
      show ((Calendar.new _ _).onTickAdvance record).ticks ≠ []
      rw [Calendar.ticks_onTickAdvance, if_pos (above_new _ _ _)]
      exact List.append_ne_nil_of_right_ne_nil _ (List.cons_ne_nil _ _)
  obtain ⟨latest, -, hfetched⟩ := ((h a).complete id hhonest).latest
  rw [handle_of_not_fetches (not_fetches_of_honestTarget hhonest)] at hfetched
  exact Option.some_ne_none _ hfetched.symm

/-- A record that any peer can make up for the target. -/
def madeUpRecord (tbid : Tbid) : ChrononRecord where
  chrononNumber := 1
  publicKey := [0]
  signatureAlgorithm := "Ed25519"
  forwardForetis := []
  backwardForetis := []
  aaNonce := default
  chrononStampCount := 0
  tbVersion := 0
  tbid

theorem sliceAdmitted_madeUpRecord (tbid : Tbid) : SliceAdmitted P tbid [madeUpRecord tbid] where
  nonempty := List.cons_ne_nil _ _
  first r hr := by
    obtain rfl := Option.some.inj hr
    exact ⟨rfl, List.cons_ne_nil _ _, rfl⟩
  linked := .singleton _
  wellFormed r hr := by
    obtain rfl := List.mem_singleton.1 hr
    exact ⟨⟨(by decide : (1 : UInt64) ≠ 0), List.cons_ne_nil _ _⟩, rfl⟩

/-- A peer that makes up a record has a new chronomatter without a calendar key strand a stamp. -/
theorem strandsStamp_madeUpRecord (secret : TbidSecret) (tbid calendarTbid : Tbid)
    (tbn : String) (seed : FixedBytes 32) : StrandsStamp (P := P) (T := Unit)
      { ctx := ⟨true, some (.new secret calendarTbid tbn), none⟩
        targetTbid := tbid.toHex
        env := .clear seed
        net :=
          { lookupTbid _ _ := (true, ())
            calendarSlice _ _ _ := (.ok [madeUpRecord tbid], ())
            sends _ := .ok ()
            stamp _ _ _ _ := (.error .timeout, ()) }
        peers := () } := by
  refine ⟨_, tbid, (), ⟨rfl, rfl, Tbid.fromHex_toHex tbid, (), _, rfl, rfl,
    sliceAdmitted_madeUpRecord tbid⟩, ⟨rfl, CallEnv.stampsContent_clear seed, ⟨⟨seed, rfl⟩,
      fun _ _ ↦ rfl⟩, ⟨⟨default, rfl⟩, rfl, fun hne ↦ absurd rfl hne,
        (by decide : (0 : UInt64) + 1 ≠ 0)⟩, above_new _ _ _⟩, ?_⟩
  rintro ⟨⟨_, hkey, -⟩, -⟩
  exact Option.some_ne_none _ hkey.symm

end Attempt

end Foretias

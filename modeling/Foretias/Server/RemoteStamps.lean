import Foretias.Chronomatter.Completed
import Foretias.Client.WireRecords
import Foretias.Server.MirrorHandlers
import Foretias.Server.RemoteCalls
import Foretias.Server.StampDurability

/-!
# Stamps of a remote server

A client's `stamp` and `verify_with_proof` against the handlers that answer them. Between the two
lie the parameters as JSON, the method's handler, its response, and the records as JSON; all of it
is read back as it was written, so a remote stamp is the server's stamp
(`stamp_eq_handleStamp`). Over a connection that the network leaves alone a request is brought to
the server and its response back (`brings_of_noise`).

* `stamp_eq_handleStamp` — a client that stamps remotely gets what `handle_stamp` makes of the
  content, be it a stamp or an error;
* `verified_of_remote_stamp` — and whatever calls the server serves afterwards, any client verifies
  the stamp against the server's calendar.
-/

namespace Foretias

open ErrorState

variable {A : Type} {P : Primitives}

/-! ### The handlers -/

/-- `resp_success`. -/
def respSuccess (s : TimeFamilyServer P) (id : Option JsonValue) (result : JsonValue) :
    JsonRpcResponse :=
  if s.chronomatter.isDormant then .dormantSuccess id result else .success id result

/-- `resp_error`. -/
def respError (s : TimeFamilyServer P) (id : Option JsonValue) (e : RpcError) : JsonRpcResponse :=
  if s.chronomatter.isDormant then .dormantFailure id (.ofInt e.code) e.message
  else .failure id (.ofInt e.code) e.message

/-- The parameters of a stamp request, from their JSON. -/
def StampParams.ofValue (params : JsonValue) : StampParams where
  content := (params.get? "content").bind JsonValue.asStr?
  echo := (params.get? "echo").bind JsonValue.asStr?

/-- The result of a stamp request as JSON. -/
def StampReply.toValue (r : StampReply) : JsonValue :=
  .object [("foretis", r.foretis.toValue), ("signature", .string r.signature),
    ("signature_algorithm", .string r.signatureAlgorithm)]

/-- `handle_stamp` as a method: its outcome for the parameters, as a response. -/
def stampMethod (C : Codec (CalendarData A)) (env : StampEnv) (params : JsonValue) :
    EStateM PUnit (TimeFamilyServer P) JsonRpcResponse := fun s ↦
  let (result, s') := handleStamp C env (.ofValue params) s
  match result with
  | .ok reply => .ok (respSuccess s' (params.get? "id") reply.toValue) s'
  | .error e => .ok (respError s' (params.get? "id") e) s'

/-- `handle_get_calendar_slice`; `external` gives the external attestations of a record in the
server's calendar. -/
def handleGetCalendarSlice (external : ChrononRecord → List ExternalAttestationRecord)
    (params : JsonValue) : EStateM PUnit (TimeFamilyServer P) JsonRpcResponse := fun s ↦
  let id := params.get? "id"
  let start := (((params.get? "cal_chronon_start").or (params.get? "cal_tick_start")).bind
    JsonValue.asU64?).getD 0
  let count := (((params.get? "count").bind JsonValue.asU64?).getD 10).toNat
  if maxCalendarSliceCount < count then
    .ok (respError s id (.invalidParams s!"count exceeds maximum of {maxCalendarSliceCount}")) s
  else
    .ok (respSuccess s id (sliceValue ((s.chronomatter.tickObserver.get start count).map
      fun r ↦ ⟨r, external r⟩))) s

/-! ### What a caller makes of them -/

variable {s t u : TimeFamilyServer P} {id : Option JsonValue} {result : JsonValue} {e : RpcError}

theorem outcome_respSuccess : (respSuccess s id result).outcome = .ok result := by
  unfold respSuccess
  split <;> rfl

theorem outcome_respError :
    (respError s id e).outcome = .error (.rpc (.ofInt e.code) e.message) := by
  unfold respError
  split <;> rfl

variable {C : Codec (CalendarData A)} {env : StampEnv} {params : JsonValue}
  {handlers : RpcHandlers (TimeFamilyServer P)} {content : Bytes} {echo : String}
  {external : ChrononRecord → List ExternalAttestationRecord}

/-- What a caller gets of a stamp request. -/
def StampReply.outcome : Except RpcError StampReply → Except PtPError JsonValue
  | .ok reply => .ok reply.toValue
  | .error e => .error (.rpc (.ofInt e.code) e.message)

/-- A local call of `stamp` is `handle_stamp`. -/
theorem localCall_stamp {outcome : Except RpcError StampReply}
    (hmethod : handlers .stamp = stampMethod C env)
    (h : handleStamp C env (.ofValue params) s = (outcome, t)) :
    localCall handlers "stamp" params s = .ok (StampReply.outcome outcome) t := by
  have hname : RpcMethod.ofName? "stamp" = some .stamp := rfl
  rw [localCall, hname]
  dsimp only
  rw [hmethod]
  cases outcome with
  | ok reply =>
    have hresponse : stampMethod C env params s =
        .ok (respSuccess t (params.get? "id") reply.toValue) t := by
      rw [stampMethod, h]
    rw [bind_of_ok hresponse, outcome_respSuccess]
    rfl
  | error e =>
    have hresponse : stampMethod C env params s = .ok (respError t (params.get? "id") e) t := by
      rw [stampMethod, h]
    rw [bind_of_ok hresponse, outcome_respError]
    rfl

/-- A local call of `get_calendar_slice` for two records. -/
theorem localCall_slice (hmethod : handlers .getCalendarSlice = handleGetCalendarSlice external)
    (n : UInt64) :
    localCall handlers "get_calendar_slice" (PtpState.sliceParams n 2) s =
      .ok (.ok (sliceValue ((s.chronomatter.tickObserver.get n 2).map fun r ↦ ⟨r, external r⟩)))
        s := by
  have hname : RpcMethod.ofName? "get_calendar_slice" = some .getCalendarSlice := rfl
  rw [localCall, hname]
  dsimp only
  rw [hmethod]
  have hresponse : handleGetCalendarSlice external (PtpState.sliceParams n 2) s =
      .ok (respSuccess s none (sliceValue ((s.chronomatter.tickObserver.get n 2).map
        fun r ↦ ⟨r, external r⟩))) s := rfl
  rw [bind_of_ok hresponse, outcome_respSuccess]
  rfl

/-! ### Exchanges that reach the server -/

/-- The exchange brings a call to the server, and the response to the caller: what the caller gets
is what the call makes at the server, where it is in state `s`, and leaves it in state `t`. -/
def Brings (handlers : RpcHandlers (TimeFamilyServer P)) (exchange : Exchange) (method : String)
    (params : JsonValue) (s t : TimeFamilyServer P) : Prop :=
  ∀ answer, localCall handlers method params s = .ok answer t →
    ∀ J server timeoutSecs, noiseJsonRpc J exchange server method params timeoutSecs = answer

/-- A Noise connection that the network leaves alone brings every call to the server. -/
theorem brings_of_noise {N : Sodium} {T : RpcText} {M M' : PrivkeyModule}
    {rounds : ℕ → Round (TimeFamilyServer P)} {iInit rInit : NoiseInit}
    {iPinned rPinned : Option Bytes32} {iMemory rMemory i₀ r₀ i r : Session}
    {env : Side → ℕ → StepEnv} (hbox : SecretboxCorrect N) (hdh : KeyAgreementCorrect N)
    (haead : AeadCorrect N) (hi : iInit.run N iPinned true iMemory = .ok ⟨⟩ i₀)
    (hr : rInit.run N rPinned false rMemory = .ok ⟨⟩ r₀)
    (hikek : KeepsKek (env .initiator) i₀) (hrkek : KeepsKek (env .responder) r₀)
    (hroom : HasRoom env) (hexchange : exchange N env i₀ r₀ = .ok (i, r))
    (hM : M.instanceKek = i.keyModule.instanceKek)
    (hM' : M'.instanceKek = i.keyModule.instanceKek)
    (hrounds : KeepsInstanceKek rounds r.keyModule.instanceKek)
    (hbreaks : ∀ k, (rounds k).breaks = none)
    (hicounter : i.sendNonce.toNat + 1 < 2 ^ 64) (hrcounter : r.sendNonce.toNat + 1 < 2 ^ 64)
    {method : String}
    (hlength : (asBytes (T.render (rpcRequest method params))).length ≤ maxRequestLineBytes)
    (hparse : T.parse (T.render (rpcRequest method params)) = .ok (rpcRequest method params))
    (hread : ∀ response, respond T handlers (T.render (rpcRequest method params))
      ((rounds 0).others s) = .ok response t →
        T.parseBytes (responseBytes T response) = .ok response.toJson ∧
          (responseBytes T response).length + nhT < 2 ^ 32) :
    Brings handlers (fun _ _ request ↦ noiseRequest N T i M M'
      (fun input ↦ (serverConnection N T handlers rounds r s input).output) request) method params
      ((rounds 0).others s) t := by
  intro answer hlocal J server timeoutSecs
  obtain ⟨response, hrespond, rfl⟩ := respond_of_localCall hparse hlocal
  obtain ⟨hresponse, hsmall⟩ := hread response hrespond
  exact noiseJsonRpc_of_response (noiseRequest_of_respond hbox hdh haead hi hr hikek hrkek
    hroom hexchange hM hM' hrounds hbreaks hicounter hrcounter hrespond hlength hresponse hsmall).1

/-- What the client's `ask` makes of a call that is brought to the server. -/
theorem ask_of_brings {J : JsonFormat} {exchange : Exchange} {client : PtpState} {peer : String}
    {method : String} {answer : Except PtPError JsonValue}
    (hpeer : client.peers.head? = some peer) (hbrings : Brings handlers exchange method params s t)
    (hlocal : localCall handlers method params s = .ok answer t) :
    client.ask J exchange method params = answer.mapError .ofPtPError := by
  rw [PtpState.ask, hpeer]
  exact congrArg (Except.mapError ForetiasError.ofPtPError)
    (hbrings _ hlocal J peer client.timeoutSecs)

/-- The exchange of a client with a server that is in the state `s`, in one place with it. -/
def directExchange (handlers : RpcHandlers (TimeFamilyServer P)) (s : TimeFamilyServer P) :
    Exchange := fun _ _ request ↦
  match processRequestFromValue handlers request s with
  | .ok response _ => .ok response.toJson
  | .error _ _ => .error .timeout

/-- It brings every call of a method. -/
theorem brings_directExchange {method : String} {m : RpcMethod}
    (hname : RpcMethod.ofName? method = some m) :
    Brings handlers (directExchange handlers s) method params s t := by
  intro answer hlocal J server timeoutSecs
  rw [localCall, hname] at hlocal
  obtain ⟨response, u, hhandler, hpure⟩ := bind_eq_ok.1 hlocal
  obtain ⟨rfl, -⟩ := pure_eq_ok.1 hpure
  refine noiseJsonRpc_of_response ?_
  have hprocess : processRequestFromValue handlers (rpcRequest method params) = _ :=
    processRequestFromValue_rpcRequest method params
  rw [hname] at hprocess
  rw [directExchange, hprocess]
  dsimp only
  rw [orThrow_of_ok hhandler]

/-- A server whose methods are the two. -/
def stampHandlers (C : Codec (CalendarData A)) (env : StampEnv)
    (external : ChrononRecord → List ExternalAttestationRecord) :
    RpcHandlers (TimeFamilyServer P)
  | .stamp => stampMethod C env
  | .getCalendarSlice => handleGetCalendarSlice external
  | _ => fun _ ↦ pure (.failure none internalErrorCode "")

/-! ### Remote stamps -/

variable {errorText : JsonValue → String} {debug : String → String} {exchange : Exchange}
  {client : PtpState} {peer : String} {now : Option UInt64}

/-- What a client makes of the server's outcome of a stamp request. -/
def remoteStamp : Except RpcError StampReply → Except ForetiasError (ForetisRecord × Bytes × String)
  | .ok reply => .ok (reply.foretis, (hexDecode reply.signature).getD [], reply.signatureAlgorithm)
  | .error e => .error (.ofPtPError (.rpc (.ofInt e.code) e.message))

/-- The client reads the answer to a stamp request as the server made it. -/
theorem stamp_of_ask {reply : StampReply}
    (hask : client.ask (.serde errorText debug) exchange "stamp"
      (PtpState.stampParams content (PtpState.sentEcho now echo)) = .ok reply.toValue) :
    client.stamp (.serde errorText debug) exchange now content echo =
      .ok (reply.foretis, (hexDecode reply.signature).getD [], reply.signatureAlgorithm) :=
  PtpState.stamp_eq_ok.2 ⟨reply.toValue, hask, foretis_serde reply.foretis, rfl, rfl⟩

/-- **A remote stamp is the server's stamp.** A client whose request is brought to the server gets
what `handle_stamp` makes there of the content and the echo: the attestation, its signature and its
algorithm, or the error. -/
theorem stamp_eq_handleStamp {outcome : Except RpcError StampReply}
    (hpeer : client.peers.head? = some peer) (hmethod : handlers .stamp = stampMethod C env)
    (hbrings : Brings handlers exchange "stamp"
      (PtpState.stampParams content (PtpState.sentEcho now echo)) s t)
    (h : handleStamp C env ⟨some (hexEncode content), some (PtpState.sentEcho now echo)⟩ s =
      (outcome, t)) :
    client.stamp (.serde errorText debug) exchange now content echo = remoteStamp outcome := by
  have hask := ask_of_brings (J := .serde errorText debug) hpeer hbrings (localCall_stamp hmethod h)
  cases outcome with
  | error e =>
    rw [PtpState.stamp, PtpState.stampRemote, hask]
    rfl
  | ok reply => exact stamp_of_ask hask

/-- What a stamp receives in which nothing fails. -/
def clearStamp : StampEnv := ⟨"", .clear (.replicate 32 2), none⟩

/-- A client of one peer. -/
def onePeer : PtpState := ⟨["127.0.0.1:9000"], 5⟩

/-- The server of the example. -/
def clearHandlers : RpcHandlers (TimeFamilyServer .transparent) :=
  stampHandlers (A := Unit) .unary clearStamp fun _ ↦ []

/-- A server that is ready stamps any content that is not too long. -/
theorem exists_clearStamp {s : TimeFamilyServer .transparent} (h : s.chronomatter.Ready)
    (hticks : s.chronomatter.currentTick.toNat + 1 < 2 ^ 64) {content : Bytes}
    (hlength : content.length ≤ maxContentBytes) (echo : String) :
    ∃ reply t, handleStamp (A := Unit) .unary clearStamp
        ⟨some (hexEncode content), some echo⟩ s = (.ok reply, t) ∧
      t.chronomatter.Ready ∧
      t.chronomatter.currentTick.toNat = s.chronomatter.currentTick.toNat + 1 := by
  obtain ⟨st, c, hstep, hready, htick⟩ := h.exists_stamp
    (Chronomatter.faultless_stamp_clear (.replicate 32 2) content echo _) hticks
  rw [Chronomatter.OkStep, Chronomatter.Op.exec, map_eq_pure_bind] at hstep
  obtain ⟨_, _, hstamp, hsome⟩ := bind_eq_ok.1 hstep
  cases hsome
  exact ⟨_, _, handleStamp_of_stamp rfl (hexDecode_hexEncode content) hlength h.awake hstamp,
    hready, htick⟩

/-- A server that has made one tick. -/
theorem exists_tickedServer : ∃ (before : List (Chronomatter.Op × Option StampedForetis))
    (s : TimeFamilyServer .transparent),
    before.map Prod.fst = [Chronomatter.clearTick (.replicate 32 1)] ∧
    Run Chronomatter.OkStep (.new default (TbidSecret.tbid .transparent default) "") before
      s.chronomatter ∧
    s.chronomatter.Ready ∧ s.chronomatter.currentTick.toNat = 1 := by
  obtain ⟨before, c, hbefore, hrun, hready, htick⟩ :=
    (Chronomatter.ready_new (P := .transparent) default (TbidSecret.tbid .transparent default)
      "").exists_run (Chronomatter.faultless_clearTick (.replicate 32 1)) (by decide)
  exact ⟨before, ⟨c, .empty⟩, hbefore, hrun, hready, htick⟩

/-- A content and an echo, sent to a server that has made one tick. -/
theorem stamp_eq_handleStamp_clear :
    ∃ (s t : TimeFamilyServer .transparent) (reply : StampReply),
    s.chronomatter.currentTick.toNat = 1 ∧
    handleStamp (A := Unit) .unary clearStamp ⟨some (hexEncode [1, 2, 3]), some "echo"⟩ s =
      (.ok reply, t) ∧
    onePeer.stamp (.serde (fun _ ↦ "") fun s ↦ s) (directExchange clearHandlers s) none [1, 2, 3]
      "echo" = remoteStamp (.ok reply) := by
  obtain ⟨-, s, -, -, hready, hone⟩ := exists_tickedServer
  obtain ⟨reply, t, h, -⟩ := exists_clearStamp hready (by omega)
    (show [1, 2, 3].length ≤ _ by decide) "echo"
  exact ⟨s, t, reply, hone, h, stamp_eq_handleStamp rfl (show clearHandlers .stamp = _ from rfl)
    (brings_directExchange (m := .stamp) rfl) h⟩

/-- The client reads the server's slice of its calendar. -/
theorem calendarSliceRemote_of_brings {n : UInt64} (errorText : JsonValue → String)
    (debug : String → String) (hpeer : client.peers.head? = some peer)
    (hmethod : handlers .getCalendarSlice = handleGetCalendarSlice external)
    (hbrings : Brings handlers exchange "get_calendar_slice" (PtpState.sliceParams n 2) s s) :
    client.calendarSliceRemote (.serde errorText debug) exchange n 2 =
      .ok (s.chronomatter.tickObserver.get n 2) := by
  have hask := ask_of_brings (J := .serde errorText debug) hpeer hbrings
    (localCall_slice hmethod n)
  refine PtpState.calendarSliceRemote_eq_ok.2 ⟨_, hask, (records_serde _).trans ?_⟩
  rw [List.map_map]
  exact congrArg Except.ok (List.map_id _)

/-- A stamp request that succeeds has stamped its content. -/
theorem exists_stamp_of_handleStamp {reply : StampReply}
    (h : handleStamp C env ⟨some (hexEncode content), some echo⟩ s = (.ok reply, t)) :
    ∃ st, s.chronomatter.stamp env.call content echo = .ok st t.chronomatter ∧
      reply = ⟨st.foretis, hexEncode st.signatureBytes, st.signatureAlgorithm⟩ := by
  rw [handleStamp] at h
  dsimp only at h
  rw [hexDecode_hexEncode] at h
  dsimp only at h
  split at h
  · cases h
  split at h
  · cases h
  rw [Option.getD_some] at h
  cases hstamp : s.chronomatter.stamp env.call content echo with
  | error e c =>
    rw [hstamp] at h
    cases h
  | ok st c =>
    rw [hstamp] at h
    cases h
    exact ⟨st, rfl, rfl⟩

open Chronomatter in
/-- **What a client stamps remotely, every client can verify remotely ever after.** A server all of
whose calls succeed gives a client a stamp; however many calls it serves afterwards, a client that
asks it for its calendar and verifies the stamp against it reports success. Requests are brought to
the server and responses back, through JSON and over whatever transport. -/
theorem verified_of_remote_stamp (hed : Ed25519Correct P) {secret : TbidSecret} {tbid : Tbid}
    {tbn : String} {before after : List (Op × Option StampedForetis)} {reply : StampReply}
    -- the server's calls before the stamp, the stamp, and the calls after it
    (hbefore : Run OkStep (new secret tbid tbn) before s.chronomatter)
    (hstamp : handleStamp C env
      ⟨some (hexEncode content), some (PtpState.sentEcho now echo)⟩ s = (.ok reply, t))
    (hafter : Run OkStep t.chronomatter after u.chronomatter)
    -- the client that stamps
    (hmethod : handlers .stamp = stampMethod C env) (hpeer : client.peers.head? = some peer)
    (hbrings : Brings handlers exchange "stamp"
      (PtpState.stampParams content (PtpState.sentEcho now echo)) s t)
    -- the client that verifies
    {handlers' : RpcHandlers (TimeFamilyServer P)} {exchange' : Exchange} {client' : PtpState}
    {peer' : String} (hmethod' : handlers' .getCalendarSlice = handleGetCalendarSlice external)
    (hpeer' : client'.peers.head? = some peer')
    (hbrings' : Brings handlers' exchange' "get_calendar_slice"
      (PtpState.sliceParams reply.foretis.chrononNumber 2) u u) :
    ∃ signature report,
      client.stamp (.serde errorText debug) exchange now content echo =
        .ok (reply.foretis, signature, reply.signatureAlgorithm) ∧
      reply.foretis.contentHash = P.sha256 content ∧
      client'.verifyWithProof P (.serde errorText debug) exchange' (.ok ()) content reply.foretis
        signature reply.signatureAlgorithm = .ok report ∧ report.verified = true := by
  have hnew := complete_new (P := P) secret tbid tbn
  have hclient := stamp_of_ask (ask_of_brings (J := .serde errorText debug) hpeer hbrings
    (localCall_stamp hmethod hstamp))
  obtain ⟨st, hst, rfl⟩ := exists_stamp_of_handleStamp hstamp
  rw [hexDecode_hexEncode, Option.getD_some] at hclient
  have hrun : Run OkStep (new secret tbid tbn)
      (before ++ (.stamp env.call content (PtpState.sentEcho now echo), some st) :: after)
      u.chronomatter :=
    Run.append_iff.2 ⟨_, hbefore, .cons (bind_of_ok hst) hafter⟩
  -- the record of the stamp is in the calendar, and is the first of the slice
  obtain ⟨kp, record, hrecord, hkey, hattests⟩ :=
    attested_of_mem hed hnew hrun (List.mem_append_right _ List.mem_cons_self)
  have hnumber := hattests.chrononNumber_eq
  have hhead : (u.chronomatter.tickObserver.get st.foretis.chrononNumber 2).head? = some record :=
    hnumber ▸ Calendar.head?_get_of_mem hrecord 1
  obtain ⟨rest, hslice⟩ := List.head?_eq_some_iff.1 hhead
  have hanswer := calendarSliceRemote_of_brings errorText debug hpeer' hmethod' hbrings'
  rw [hslice] at hanswer
  have hfetched : (fetchedCalendar record).get st.foretis.chrononNumber 1 = .ok [record] :=
    congrArg pure (if_pos ⟨hnumber, le_rfl⟩)
  obtain ⟨verified, hverify, hverified⟩ := verdict_eq_some_true.1
    ((verdict_of_head? hfetched rfl).trans (hattests.keyVerdict hed hkey))
  exact ⟨_, _, hclient, hattests.contentHash_eq, PtpState.verifyWithProof_eq_ok.2
    ⟨record, rest, verified, hanswer, rfl, hverify, rfl⟩, hverified⟩

/-- A content is stamped after one tick, and verified after another. -/
theorem verified_of_remote_stamp_clear :
    ∃ (before after : List (Chronomatter.Op × Option StampedForetis)) (reply : StampReply)
      (s u : TimeFamilyServer .transparent),
    before.map Prod.fst = [Chronomatter.clearTick (.replicate 32 1)] ∧
    after.map Prod.fst = [Chronomatter.clearTick (.replicate 32 3)] ∧
    Run Chronomatter.OkStep (.new default (TbidSecret.tbid .transparent default) "") before
      s.chronomatter ∧
    u.chronomatter.currentTick.toNat = 3 ∧
    ∃ signature report,
      onePeer.stamp (.serde (fun _ ↦ "") fun s ↦ s) (directExchange clearHandlers s) none
        [1, 2, 3] "echo" = .ok (reply.foretis, signature, reply.signatureAlgorithm) ∧
      reply.foretis.contentHash = Primitives.transparent.sha256 [1, 2, 3] ∧
      onePeer.verifyWithProof .transparent (.serde (fun _ ↦ "") fun s ↦ s)
        (directExchange clearHandlers u) (.ok ()) [1, 2, 3] reply.foretis signature
        reply.signatureAlgorithm = .ok report ∧ report.verified = true := by
  obtain ⟨before, s, hbefore, hpre, hready, hone⟩ := exists_tickedServer
  obtain ⟨reply, t, hstamp, hready, htwo⟩ := exists_clearStamp hready (by omega)
    (show [1, 2, 3].length ≤ _ by decide) "echo"
  obtain ⟨after, c, hafter, hpost, -, hthree⟩ := hready.exists_run
    (Chronomatter.faultless_clearTick (.replicate 32 3)) (by rw [List.length_singleton]; omega)
  rw [List.length_singleton, htwo, hone] at hthree
  have hpeer : onePeer.peers.head? = some "127.0.0.1:9000" := rfl
  refine ⟨before, after, reply, s, ⟨c, t.files⟩, hbefore, hafter, hpre, hthree, ?_⟩
  exact verified_of_remote_stamp ed25519Exact_transparent.correct hpre hstamp hpost
    (show clearHandlers .stamp = _ from rfl) hpeer (brings_directExchange (m := .stamp) rfl)
    (show clearHandlers .getCalendarSlice = _ from rfl) hpeer
    (brings_directExchange (m := .getCalendarSlice) rfl)

end Foretias

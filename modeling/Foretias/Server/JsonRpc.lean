import Foretias.Client.RemoteClient
import Foretias.Library.ErrorState

/-!
# JSON-RPC requests to the server

Every transport hands its requests to `process_request_from_value`, which reads the envelope and
calls the handler of the method. A handler sees the parameters only: it looks for the request's id
among them, and so the id of the envelope comes back in the two answers that are made without a
handler, and in no other.
-/

namespace Foretias

open ErrorState

/-! ### Responses -/

/-- `JsonRpcError`. -/
structure JsonRpcError where
  /-- The code. -/
  code : Int32
  /-- The message. -/
  message : String
  deriving DecidableEq

/-- `JsonRpcResponse`. It is made by its four constructors only, and so it is of one version and
carries either a result or an error. -/
structure JsonRpcResponse where
  /-- The version. -/
  jsonrpc : String
  /-- The result, in a success. -/
  result : Option JsonValue
  /-- The error, in a failure. -/
  error : Option JsonRpcError
  /-- The id of the request. -/
  id : Option JsonValue
  /-- Whether the server is dormant. -/
  dormant : Bool
  /-- The constructors set the version. -/
  version : jsonrpc = "2.0"
  /-- They set one of result and error. -/
  one : result.isSome = !error.isSome

/-- `INVALID_REQUEST`. -/
def invalidRequestCode : Int32 := -32600

/-- `METHOD_NOT_FOUND`. -/
def methodNotFoundCode : Int32 := -32601

/-- `INTERNAL_ERROR`. -/
def internalErrorCode : Int32 := -32603

namespace JsonRpcResponse

variable (id : Option JsonValue) (result : JsonValue) (code : Int32) (message : String)

/-- `success`. -/
def success : JsonRpcResponse := ⟨"2.0", some result, none, id, false, rfl, rfl⟩

/-- `error`. -/
def failure : JsonRpcResponse := ⟨"2.0", none, some ⟨code, message⟩, id, false, rfl, rfl⟩

/-- `dormant_success`. -/
def dormantSuccess : JsonRpcResponse := ⟨"2.0", some result, none, id, true, rfl, rfl⟩

/-- `dormant_error`. -/
def dormantFailure : JsonRpcResponse := ⟨"2.0", none, some ⟨code, message⟩, id, true, rfl, rfl⟩

end JsonRpcResponse

/-- A number of 32 bits, as `serde_json` reads it. -/
def JsonNumber.ofInt32 (n : Int32) : JsonNumber :=
  if 0 ≤ n then .posInt n.toInt64.toUInt64 else .negInt n.toInt64

/-- A `JsonRpcError` as a value. -/
def JsonRpcError.toJson (e : JsonRpcError) : JsonValue :=
  .object [("code", .number (.ofInt32 e.code)), ("message", .string e.message)]

/-- A `JsonRpcResponse` as a value: a result or an error that is absent is left out, an id that is
absent is null. -/
def JsonRpcResponse.toJson (r : JsonRpcResponse) : JsonValue :=
  .object ([("jsonrpc", .string r.jsonrpc)] ++ r.result.toList.map (("result", ·)) ++
    r.error.toList.map (fun e ↦ ("error", e.toJson)) ++
    [("id", r.id.getD .null), ("dormant", .bool r.dormant)])

/-! ### What a caller makes of a response -/

namespace JsonRpcResponse

/-- What a response says: its error, or else its result. -/
def outcome (r : JsonRpcResponse) : Except PtPError JsonValue :=
  match r.error, r.result with
  | some e, _ => .error (.rpc e.code e.message)
  | none, some result => .ok result
  | none, none => .error (.decode "missing result in response")

end JsonRpcResponse

theorem toNat_toUInt64_lt_of_nonneg {n : Int32} (h : 0 ≤ n) :
    n.toInt64.toUInt64.toNat < 2 ^ 63 := by
  have hn : (0 : ℤ) ≤ n.toInt64.toInt := by
    have hle := Int32.le_iff_toInt_le.1 h
    rw [Int32.toInt_toInt64]
    simpa using hle
  have hcond := BitVec.toInt_eq_toNat_cond n.toInt64.toBitVec
  have hlt := n.toInt64.toBitVec.isLt
  rw [Int64.toInt_toBitVec, Int64.toNat_toBitVec] at hcond
  rw [Int64.toNat_toBitVec] at hlt
  split_ifs at hcond <;> omega

/-- A code of 32 bits is read back. -/
theorem toInt32_asI64?_ofInt32 (n : Int32) :
    (((JsonValue.number (.ofInt32 n)).asI64?).getD (-1)).toInt32 = n := by
  rw [JsonNumber.ofInt32]
  split_ifs with h
  · rw [JsonValue.asI64?, if_pos (toNat_toUInt64_lt_of_nonneg h)]
    simp
  · simp [JsonValue.asI64?]

/-- The request of a call. -/
def rpcRequest (method : String) (params : JsonValue) : JsonValue :=
  .object [("jsonrpc", .string "2.0"), ("method", .string method), ("params", params),
    ("id", .number (.posInt 1))]

/-- A caller that gets a response gets what it says. -/
theorem noiseJsonRpc_of_response {J : JsonFormat} {exchange : Exchange} {server method : String}
    {params : JsonValue} {timeoutSecs : UInt64} {response : JsonRpcResponse}
    (hexchange : exchange server timeoutSecs (rpcRequest method params) = .ok response.toJson) :
    noiseJsonRpc J exchange server method params timeoutSecs = response.outcome := by
  obtain ⟨version, result, error, id, dormant, rfl, hone⟩ := response
  rw [noiseJsonRpc]
  show (exchange server timeoutSecs (rpcRequest method params)).bind _ = _
  rw [hexchange]
  rcases error with - | e <;> rcases result with - | result
  · cases hone
  · rfl
  · show Except.error (PtPError.rpc _ e.message) = .error (.rpc e.code e.message)
    rw [← toInt32_asI64?_ofInt32 e.code]
    rfl
  · cases hone

/-! ### The methods -/

/-- The methods that have a handler. -/
inductive RpcMethod
  | ping
  | channelBindChallenge
  | authenticatedPing
  | stamp
  | routeStamp
  | verify
  | status
  | getCalendarSlice
  | integrityCheck
  | getPeerScore
  | collisionStatus
  | getLatestEpoch
  | verifyEpochSnapshot
  | mirrorRequest
  | mirrorAccept
  | shipBatch
  | shipAck
  | streamTick
  | streamAck
  | mirrorMutual
  | mirrorReconcile
  | mirrorAnnounce
  | historyDumpRequest
  | historyDumpAck
  | historyDumpChunk
  | historyDumpComplete
  | mirrorHealthCheck
  | storageProofRequest
  | storageProofVerify
  | stampMyChronon
  | stampMyChrononBlock
  | getChronon
  | getChrononChain
  deriving DecidableEq

/-- The arms of the `match` on the method's name. -/
def RpcMethod.ofName? : String → Option RpcMethod
  | "ping" => some .ping
  | "channel_bind_challenge" => some .channelBindChallenge
  | "authenticated_ping" => some .authenticatedPing
  | "stamp" => some .stamp
  | "route_stamp" => some .routeStamp
  | "verify" => some .verify
  | "status" => some .status
  | "get_calendar_slice" => some .getCalendarSlice
  | "integrity_check" => some .integrityCheck
  | "get_peer_score" => some .getPeerScore
  | "collision_status" => some .collisionStatus
  | "get_latest_epoch" => some .getLatestEpoch
  | "verify_epoch_snapshot" => some .verifyEpochSnapshot
  | "mirror_request" => some .mirrorRequest
  | "mirror_accept" => some .mirrorAccept
  | "ship_batch" => some .shipBatch
  | "ship_ack" => some .shipAck
  | "stream_tick" => some .streamTick
  | "stream_ack" => some .streamAck
  | "mirror_mutual" => some .mirrorMutual
  | "mirror_reconcile" => some .mirrorReconcile
  | "mirror_announce" => some .mirrorAnnounce
  | "history_dump_request" => some .historyDumpRequest
  | "history_dump_ack" => some .historyDumpAck
  | "history_dump_chunk" => some .historyDumpChunk
  | "history_dump_complete" => some .historyDumpComplete
  | "mirror_health_check" => some .mirrorHealthCheck
  | "storage_proof_request" => some .storageProofRequest
  | "storage_proof_verify" => some .storageProofVerify
  | "stamp_my_chronon" => some .stampMyChronon
  | "stamp_my_chronon_block" => some .stampMyChrononBlock
  | "get_chronon" => some .getChronon
  | "get_chronon_chain" => some .getChrononChain
  | _ => none

/-! ### Dispatch -/

/-- `serde_json` for requests and responses. -/
structure RpcText where
  /-- `serde_json::from_str`, with the text of its error. -/
  parse : String → Except String JsonValue
  /-- `serde_json::from_slice`. -/
  parseBytes : Bytes → Except String JsonValue
  /-- `serde_json::to_string`. -/
  render : JsonValue → String

/-- What the handlers do to the server `σ`: each makes a response, or panics. -/
abbrev RpcHandlers (σ : Type) := RpcMethod → JsonValue → EStateM PUnit σ JsonRpcResponse

section Dispatch

variable (T : RpcText) {σ : Type} (handlers : RpcHandlers σ)

/-- `process_request_from_value`. -/
def processRequestFromValue (req : JsonValue) : EStateM (Stop NodeError) σ JsonRpcResponse :=
  match (req.get? "jsonrpc").bind JsonValue.asStr? with
  | none => throw (.err (.internal "missing jsonrpc field"))
  | some version =>
    if version ≠ "2.0" then
      pure (.failure (req.get? "id") invalidRequestCode "invalid jsonrpc version")
    else
      match (req.get? "method").bind JsonValue.asStr? with
      | none => throw (.err (.internal "missing method field"))
      | some method =>
        match RpcMethod.ofName? method with
        | some m => orThrow (handlers m ((req.get? "params").getD .null)) .panic
        | none => pure (.failure (req.get? "id") methodNotFoundCode s!"method '{method}' not found")

/-- `process_request`. -/
def processRequest (line : String) : EStateM (Stop NodeError) σ JsonRpcResponse :=
  match T.parse line with
  | .ok req => processRequestFromValue handlers req
  | .error e => throw (.err (.internal s!"JSON parse: {e}"))

/-- The response that a connection sends for a request, an error of `process_request` included; what
is left is a panic. -/
def respond (line : String) : EStateM PUnit σ JsonRpcResponse := fun s ↦
  match processRequest T handlers line s with
  | .ok response s' => .ok response s'
  | .error (.err e) s' => .ok (.failure none internalErrorCode (toString e)) s'
  | .error .panic s' => .error ⟨⟩ s'

/-- A call that is made where the server is: the method's handler, or the error of a method that has
none. -/
def localCall (method : String) (params : JsonValue) :
    EStateM PUnit σ (Except PtPError JsonValue) :=
  match RpcMethod.ofName? method with
  | some m => do
    let response ← handlers m params
    pure response.outcome
  | none => pure (.error (.rpc methodNotFoundCode s!"method '{method}' not found"))

variable {T handlers}

/-- The request of a call goes to the handler of its method. -/
theorem processRequestFromValue_rpcRequest (method : String) (params : JsonValue) :
    processRequestFromValue handlers (rpcRequest method params) =
      match RpcMethod.ofName? method with
      | some m => orThrow (handlers m params) .panic
      | none => pure (.failure (some (.number (.posInt 1))) methodNotFoundCode
          s!"method '{method}' not found") := rfl

/-- A request that is read back is answered by what the local call does. -/
theorem respond_of_localCall {method : String} {params : JsonValue} {s t : σ}
    {answer : Except PtPError JsonValue}
    (hparse : T.parse (T.render (rpcRequest method params)) = .ok (rpcRequest method params))
    (hlocal : localCall handlers method params s = .ok answer t) :
    ∃ response, respond T handlers (T.render (rpcRequest method params)) s = .ok response t ∧
      response.outcome = answer := by
  have hparsed : processRequest T handlers (T.render (rpcRequest method params)) =
      processRequestFromValue handlers (rpcRequest method params) := by
    rw [processRequest, hparse]
  have hprocess := hparsed.trans (processRequestFromValue_rpcRequest method params)
  rw [localCall] at hlocal
  rcases hmethod : RpcMethod.ofName? method with - | m
  · rw [hmethod] at hlocal hprocess
    obtain ⟨rfl, rfl⟩ := pure_eq_ok.1 hlocal
    refine ⟨.failure (some (.number (.posInt 1))) methodNotFoundCode
      s!"method '{method}' not found", ?_, rfl⟩
    rw [respond, hprocess]
    rfl
  · rw [hmethod] at hlocal hprocess
    obtain ⟨response, u, hhandler, hpure⟩ := bind_eq_ok.1 hlocal
    obtain ⟨rfl, rfl⟩ := pure_eq_ok.1 hpure
    refine ⟨response, ?_, rfl⟩
    rw [respond, hprocess]
    dsimp only
    rw [orThrow_of_ok hhandler]

end Dispatch

/-! ### A concrete server -/

/-- The text of a request to `ping`. -/
def pingText : String :=
  "\x7b\"id\":1,\"jsonrpc\":\"2.0\",\"method\":\"ping\",\"params\":\x7b\x7d\x7d"

/-- The text of its response. -/
def pongText : String :=
  "\x7b\"jsonrpc\":\"2.0\",\"result\":\x7b\"pong\":true\x7d,\"id\":null,\"dormant\":false\x7d"

/-- The response to `ping` without an id among its parameters. -/
def pong : JsonRpcResponse := .success none (.object [("pong", .bool true)])

/-- `serde_json` for the two texts. -/
def RpcText.pings : RpcText where
  parse text :=
    if text = pingText then .ok (rpcRequest "ping" (.object []))
    else .error "expected value at line 1 column 1"
  parseBytes bs :=
    if bs = asBytes pongText then .ok pong.toJson
    else .error "expected value at line 1 column 1"
  render v := if (v.get? "method").isSome then pingText else pongText

/-- A server that counts its requests and answers each of them as `handle_ping` does. -/
def pingHandlers : RpcHandlers ℕ := fun _ params n ↦
  .ok (.success (params.get? "id") (.object [("pong", .bool true)])) (n + 1)

theorem respond_pings (n : ℕ) :
    respond .pings pingHandlers pingText n = .ok pong (n + 1) := rfl

end Foretias

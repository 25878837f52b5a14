import Foretias.Core.VerificationPaths

/-!
# The client of a remote peer

A client of level 2 or 3 asks its first peer, over JSON-RPC, to stamp content and to show its
calendar. What `stamp` returns is read off the answer and not compared with the request;
`verifyWithProof` verifies against the first record of the peer's slice, which must be of the
attestation's chronon, but may be of another time being.

* `stamp_eq_ok`, `verifyWithProof_eq_ok` — what the two calls return, by the peer's answers;
* `soundAgainstPeer_iff` — the answers the client may be given for its own results to mean what
  they say.
-/

namespace Foretias

/-! ### JSON -/

/-- A number of `serde_json`. -/
inductive JsonNumber
  | posInt (n : UInt64)
  | negInt (n : Int64)
  | float (bits : UInt64)
  deriving DecidableEq

/-- A value of `serde_json`. -/
inductive JsonValue
  | null
  | bool (b : Bool)
  | number (n : JsonNumber)
  | string (s : String)
  | array (elements : List JsonValue)
  | object (members : List (String × JsonValue))

namespace JsonValue

/-- `Value::get`: a member of an object. -/
def get? : JsonValue → String → Option JsonValue
  | object members, key => members.lookup key
  | _, _ => none

/-- `Value::as_str`. -/
def asStr? : JsonValue → Option String
  | string s => some s
  | _ => none

/-- `Value::as_i64`. -/
def asI64? : JsonValue → Option Int64
  | number (.posInt n) => if n.toNat < 2 ^ 63 then some n.toInt64 else none
  | number (.negInt n) => some n
  | _ => none

/-- `Value::is_object`. -/
def isObject : JsonValue → Bool
  | object _ => true
  | _ => false

end JsonValue

/-- `serde_json::from_value` for what a client reads, with the text of its errors, and the quoted
form of text. -/
structure JsonFormat where
  /-- An attestation. -/
  foretis : JsonValue → Except String ForetisRecord
  /-- Chronon records. -/
  records : JsonValue → Except String (List ChrononRecord)
  /-- Text as `{:?}` prints it. -/
  debug : String → String

/-! ### Requests to a peer -/

/-- Errors of the Noise transport. -/
inductive PtPError
  | connect (message : String)
  | timeout
  | noise (message : String)
  | decode (message : String)
  | rpc (code : Int32) (message : String)
  deriving DecidableEq

/-- `From<PtPError>`. -/
def ForetiasError.ofPtPError : PtPError → ForetiasError
  | .connect message => .network message
  | .timeout => .network "PtP request timeout"
  | .noise message => .network message
  | .decode message => .network message
  | .rpc code message => .network s!"RPC {code}: {message}"

/-- The state of a networked client. -/
structure PtpState where
  /-- Addresses of the peers. -/
  peers : List String
  /-- How long to wait for an answer. -/
  timeoutSecs : UInt64

/-- A request on the wire and what comes back: a JSON value, or why there is none. The arguments
are the address, the time-out and the request. -/
abbrev Exchange := String → UInt64 → JsonValue → Except PtPError JsonValue

/-- `validate_jsonrpc_response`. -/
def validateJsonrpcResponse (J : JsonFormat) (response : JsonValue) : Except String Unit :=
  if response.isObject = false then .error "invalid JSON-RPC response: not an object"
  else
    match (response.get? "jsonrpc").bind JsonValue.asStr? with
    | none => .error "invalid JSON-RPC response: missing jsonrpc field"
    | some version =>
      if version ≠ "2.0" then
        .error s!"invalid JSON-RPC response: unexpected version {J.debug version}"
      else if (response.get? "result").isNone ∧ (response.get? "error").isNone then
        .error "invalid JSON-RPC response: missing both result and error"
      else .ok ()

/-- `noise_json_rpc`. -/
def noiseJsonRpc (J : JsonFormat) (exchange : Exchange) (server method : String)
    (params : JsonValue) (timeoutSecs : UInt64) : Except PtPError JsonValue := do
  let request := JsonValue.object [("jsonrpc", .string "2.0"), ("method", .string method),
    ("params", params), ("id", .number (.posInt 1))]
  let response ← exchange server timeoutSecs request
  (validateJsonrpcResponse J response).mapError .decode
  match response.get? "error" with
  | some err =>
    let code := (((err.get? "code").bind JsonValue.asI64?).getD (-1)).toInt32
    let message := ((err.get? "message").bind JsonValue.asStr?).getD "unknown"
    .error (.rpc code message)
  | none =>
    match response.get? "result" with
    | some result => .ok result
    | none => .error (.decode "missing result in response")

/-! ### The client -/

namespace PtpState

variable (P : Primitives) (J : JsonFormat) (exchange : Exchange) (client : PtpState)

/-- A request to the primary peer. -/
def ask (method : String) (params : JsonValue) : Except ForetiasError JsonValue :=
  match client.peers.head? with
  | none => .error (.network "no peer configured")
  | some peer =>
    (noiseJsonRpc J exchange peer method params client.timeoutSecs).mapError .ofPtPError

/-- `client_echo`, at the clock's reading. -/
def clientEcho (now : Option UInt64) : String :=
  let nowNs := now.getD 0
  s!"UE+{nowNs}ns"

/-- The echo that is sent: the caller's, or the client's own for an empty one. -/
def sentEcho (now : Option UInt64) (echo : String) : String :=
  if echo = "" then clientEcho now else echo

/-- The parameters of a `stamp` request. -/
def stampParams (content : Bytes) (echo : String) : JsonValue :=
  .object [("content", .string (hexEncode content)), ("echo", .string echo)]

/-- Where the attestation stands in an answer: in its member, or it is the whole answer. -/
def foretisValue (result : JsonValue) : JsonValue := (result.get? "foretis").getD result

/-- The signature an answer carries; text that is no hex counts as none. -/
def answeredSignature (result : JsonValue) : Bytes :=
  let sigHex := ((result.get? "signature").bind JsonValue.asStr?).getD ""
  (hexDecode sigHex).getD []

/-- `stamp_remote`. -/
def stampRemote (content : Bytes) (echo : String) :
    Except ForetiasError (ForetisRecord × Bytes × String) := do
  let result ← client.ask J exchange "stamp" (stampParams content echo)
  let foretis ← (J.foretis (foretisValue result)).mapError
    fun e ↦ ForetiasError.network s!"stamp deserialization failed: {e}"
  let sigAlg := ((result.get? "signature_algorithm").bind JsonValue.asStr?).getD "Ed25519"
  pure (foretis, answeredSignature result, sigAlg)

/-- `Foretias::stamp`. -/
def stamp (now : Option UInt64) (content : Bytes) (echo : String) :
    Except ForetiasError (ForetisRecord × Bytes × String) :=
  client.stampRemote J exchange content (sentEcho now echo)

/-- The parameters of a `get_calendar_slice` request. -/
def sliceParams (start count : UInt64) : JsonValue :=
  .object [("cal_chronon_start", .number (.posInt start)), ("count", .number (.posInt count))]

/-- `calendar_slice_remote`. -/
def calendarSliceRemote (start count : UInt64) : Except ForetiasError (List ChrononRecord) := do
  let result ← client.ask J exchange "get_calendar_slice" (sliceParams start count)
  (J.records result).mapError
    fun e ↦ ForetiasError.network s!"calendar slice deserialization failed: {e}"

/-- `Foretias::verify_with_proof`; `newSoftware` is the outcome of generating the crypto server it
verifies with. -/
def verifyWithProof (newSoftware : Except CryptoError Unit) (content : Bytes)
    (foretis : ForetisRecord) (signature : Bytes) (signatureAlgorithm : String) :
    Result ForetiasError VerificationReport := do
  let records ← (client.calendarSliceRemote J exchange foretis.chrononNumber 2).mapError .err
  match records.head? with
  | none =>
    let n := foretis.chrononNumber
    .err (.network s!"no calendar records found for chronon {n}")
  | some record =>
    (newSoftware.mapError fun e ↦ ForetiasError.crypto (toString e)).mapError .err
    let verified ← (Foretias.verify P foretis signature signatureAlgorithm content
      (fetchedCalendar record)).mapErr .ofNodeError
    pure ⟨verified, foretis.chrononNumber, records, foretis, "verify_with_proof"⟩

/-! ### What is returned -/

variable {P J exchange client} {now : Option UInt64} {content : Bytes} {echo : String}
  {newSoftware : Except CryptoError Unit} {foretis f : ForetisRecord} {signature sig : Bytes}
  {signatureAlgorithm : String} {report : VerificationReport} {rec : ChrononRecord}

/-- `stamp` returns the attestation, the signature and the algorithm of the answer. -/
theorem stamp_eq_ok {sigAlg : String} :
    client.stamp J exchange now content echo = .ok (f, sig, sigAlg) ↔
      ∃ result, client.ask J exchange "stamp" (stampParams content (sentEcho now echo)) =
          .ok result ∧
        J.foretis (foretisValue result) = .ok f ∧ answeredSignature result = sig ∧
        ((result.get? "signature_algorithm").bind JsonValue.asStr?).getD "Ed25519" = sigAlg := by
  rw [stamp, stampRemote, except_bind_eq_ok]
  refine exists_congr fun result ↦ and_congr_right fun _ ↦ ?_
  rw [except_bind_eq_ok]
  constructor
  · rintro ⟨f', hf, h⟩
    obtain ⟨rfl, rfl, rfl⟩ : f' = f ∧ answeredSignature result = sig ∧ _ = sigAlg := by
      simpa [pure, Except.pure] using h
    exact ⟨mapError_eq_ok.1 hf, rfl, rfl⟩
  · rintro ⟨hf, rfl, rfl⟩
    exact ⟨f, mapError_eq_ok.2 hf, rfl⟩

/-- An answer has a signature when its member is text of at least one byte in hex. -/
theorem answeredSignature_ne_nil {result : JsonValue} :
    answeredSignature result ≠ [] ↔
      ∃ text bytes, result.get? "signature" = some (.string text) ∧
        hexDecode text = some bytes ∧ bytes ≠ [] := by
  constructor
  · intro h
    rw [answeredSignature] at h
    cases hmember : result.get? "signature" with
    | none => exact absurd (by rw [hmember]; rfl) h
    | some v =>
      cases v with
      | string text =>
        rw [hmember] at h
        cases hbytes : hexDecode text with
        | none => exact absurd (congrArg (Option.getD · []) hbytes) h
        | some bytes =>
          refine ⟨text, bytes, rfl, hbytes, fun hnil ↦ h ?_⟩
          exact hnil ▸ congrArg (Option.getD · []) hbytes
      | _ => exact absurd (by rw [hmember]; rfl) h
  · rintro ⟨text, bytes, hmember, hbytes, hne⟩
    rw [answeredSignature, hmember]
    exact ne_of_eq_of_ne (congrArg (Option.getD · []) hbytes) hne

/-- `calendar_slice` returns the records of the answer. -/
theorem calendarSliceRemote_eq_ok {start count : UInt64} {records : List ChrononRecord} :
    client.calendarSliceRemote J exchange start count = .ok records ↔
      ∃ result, client.ask J exchange "get_calendar_slice" (sliceParams start count) =
          .ok result ∧ J.records result = .ok records := by
  rw [calendarSliceRemote, except_bind_eq_ok]
  exact exists_congr fun _ ↦ and_congr_right fun _ ↦ mapError_eq_ok

/-- A fetched record verifies an attestation of its own chronon that its key signed. -/
theorem verify_fetchedCalendar_eq_true :
    Foretias.verify P foretis signature signatureAlgorithm content (fetchedCalendar rec) =
        .ok true ↔
      P.sha256 content = foretis.contentHash ∧ rec.chrononNumber = foretis.chrononNumber ∧
        verifyWith P rec.publicKey signatureAlgorithm (P.postcard foretis) signature =
          .ok true := by
  by_cases hhash : P.sha256 content = foretis.contentHash
  swap
  · rw [verify_of_hash_ne hhash]
    exact iff_of_false (fun h ↦ Bool.false_ne_true (Except.ok.inj h)) fun h ↦ hhash h.1
  by_cases hnumber : foretis.chrononNumber = rec.chrononNumber
  · have hget : (fetchedCalendar rec).get foretis.chrononNumber 1 = .ok [rec] :=
      congrArg pure (if_pos ⟨hnumber, le_rfl⟩)
    rw [verify_of_head? hhash hget rfl, Result.mapErr_eq_ok]
    exact ⟨fun h ↦ ⟨hhash, hnumber.symm, h⟩, fun h ↦ h.2.2⟩
  · have hget : (fetchedCalendar rec).get foretis.chrononNumber 1 = .ok [] :=
      congrArg pure (if_neg fun h ↦ hnumber h.1)
    rw [verify_of_nil hhash hget]
    exact iff_of_false (Result.err_ne_ok _ _) fun h ↦ hnumber h.2.1.symm

/-- `verify_with_proof` reports the verdict of the first record of the slice. -/
theorem verifyWithProof_eq_ok :
    client.verifyWithProof P J exchange newSoftware content foretis signature
        signatureAlgorithm = .ok report ↔
      ∃ rec rest verified,
        client.calendarSliceRemote J exchange foretis.chrononNumber 2 = .ok (rec :: rest) ∧
        newSoftware = .ok () ∧
        Foretias.verify P foretis signature signatureAlgorithm content (fetchedCalendar rec) =
          .ok verified ∧
        report = ⟨verified, foretis.chrononNumber, rec :: rest, foretis,
          "verify_with_proof"⟩ := by
  rw [verifyWithProof, Result.bind_eq_ok]
  constructor
  · rintro ⟨records, hrecords, h⟩
    cases records with
    | nil => exact absurd h (Result.err_ne_ok _ _)
    | cons rec rest =>
      obtain ⟨⟨⟩, hsoftware, h⟩ := Result.bind_eq_ok.1 h
      obtain ⟨verified, hverified, h⟩ := Result.bind_eq_ok.1 h
      exact ⟨rec, rest, verified, mapError_eq_ok.1 hrecords,
        mapError_eq_ok.1 (mapError_eq_ok.1 hsoftware), Result.mapErr_eq_ok.1 hverified,
        (Result.pure_eq_ok.1 h).symm⟩
  · rintro ⟨rec, rest, verified, hrecords, rfl, hverified, rfl⟩
    refine ⟨rec :: rest, mapError_eq_ok.2 hrecords, Result.bind_eq_ok.2 ⟨(), rfl, ?_⟩⟩
    exact Result.bind_eq_ok.2 ⟨verified, Result.mapErr_eq_ok.2 hverified, rfl⟩

/-! ### Soundness -/

section Soundness

variable (P J exchange client) (now : Option UInt64) (content : Bytes) (echo : String)
  (newSoftware : Except CryptoError Unit) (foretis : ForetisRecord) (signature : Bytes)
  (signatureAlgorithm : String)

/-- The results of the two calls mean what they say: a stamp is of the content and the echo sent,
and signed; a report of success rests on a record of the attestation's chronon and time being whose
key made the signature. -/
structure SoundAgainstPeer : Prop where
  /-- Of `stamp`. -/
  stamp : ∀ f sig sigAlg, client.stamp J exchange now content echo = .ok (f, sig, sigAlg) →
    f.contentHash = P.sha256 content ∧ f.echo = sentEcho now echo ∧ sig ≠ []
  /-- Of `verify_with_proof`. -/
  proof : ∀ report, client.verifyWithProof P J exchange newSoftware content foretis signature
      signatureAlgorithm = .ok report → report.verified = true →
    ∃ rec, report.calendarRecords.head? = some rec ∧
      rec.chrononNumber = foretis.chrononNumber ∧ rec.tbid = foretis.tbid ∧
      verifyWith P rec.publicKey signatureAlgorithm (P.postcard foretis) signature = .ok true

/-- The peer answers what it was asked: an attestation in its `stamp` answer is of the request, and
the signature beside it is text of at least one byte in hex; a slice that begins with a record of
the attestation's chronon, whose key made the signature, is of the attestation's time being. -/
structure AnswersInKind : Prop where
  /-- The `stamp` answer. -/
  stamp : ∀ result f,
    client.ask J exchange "stamp" (stampParams content (sentEcho now echo)) = .ok result →
    J.foretis (foretisValue result) = .ok f →
    f.contentHash = P.sha256 content ∧ f.echo = sentEcho now echo ∧
      ∃ text bytes, result.get? "signature" = some (.string text) ∧
        hexDecode text = some bytes ∧ bytes ≠ []
  /-- The slice. -/
  slice : ∀ result rec rest,
    client.ask J exchange "get_calendar_slice" (sliceParams foretis.chrononNumber 2) =
      .ok result →
    J.records result = .ok (rec :: rest) → newSoftware = .ok () →
    P.sha256 content = foretis.contentHash →
    rec.chrononNumber = foretis.chrononNumber →
    verifyWith P rec.publicKey signatureAlgorithm (P.postcard foretis) signature = .ok true →
    rec.tbid = foretis.tbid

/-- The client is sound exactly against a peer that answers in kind: neither call compares an
answer with the request beyond the chronon number of the record and the signature under its key. -/
theorem soundAgainstPeer_iff :
    SoundAgainstPeer P J exchange client now content echo newSoftware foretis signature
        signatureAlgorithm ↔
      AnswersInKind P J exchange client now content echo newSoftware foretis signature
        signatureAlgorithm := by
  constructor
  · rintro ⟨hstamp, hproof⟩
    refine ⟨fun result f hresult hf ↦ ?_, fun result rec rest hresult hrecords ↦ ?_⟩
    · obtain ⟨hhash, hecho, hsig⟩ := hstamp f _ _ (stamp_eq_ok.2 ⟨result, hresult, hf, rfl, rfl⟩)
      exact ⟨hhash, hecho, answeredSignature_ne_nil.1 hsig⟩
    · intro hsoftware hhash hnumber hsig
      have hslice := calendarSliceRemote_eq_ok.2 ⟨result, hresult, hrecords⟩
      obtain ⟨rec', hrec, -, htbid, -⟩ := hproof _ (verifyWithProof_eq_ok.2 ⟨rec, rest, true,
        hslice, hsoftware, verify_fetchedCalendar_eq_true.2 ⟨hhash, hnumber, hsig⟩, rfl⟩) rfl
      obtain rfl := Option.some_inj.1 hrec
      exact htbid
  · rintro ⟨hstamp, hslice⟩
    refine ⟨fun f sig sigAlg h ↦ ?_, fun report h hverified ↦ ?_⟩
    · obtain ⟨result, hresult, hf, rfl, -⟩ := stamp_eq_ok.1 h
      obtain ⟨hhash, hecho, hsig⟩ := hstamp result f hresult hf
      exact ⟨hhash, hecho, answeredSignature_ne_nil.2 hsig⟩
    · obtain ⟨rec, rest, verified, hrecords, hsoftware, hverify, rfl⟩ := verifyWithProof_eq_ok.1 h
      obtain rfl : verified = true := hverified
      obtain ⟨hhash, hnumber, hsig⟩ := verify_fetchedCalendar_eq_true.1 hverify
      obtain ⟨result, hresult, hrecords⟩ := calendarSliceRemote_eq_ok.1 hrecords
      have htbid := hslice result rec rest hresult hrecords hsoftware hhash hnumber hsig
      exact ⟨rec, rfl, hnumber, htbid, hsig⟩

end Soundness

end PtpState

/-! ### A replaying peer -/

/-- `n` zero bytes in URL-safe base64 without padding. -/
def zeroArray? (n : ℕ) : JsonValue → Option (FixedBytes n)
  | .string s => if s.toList = List.replicate ((4 * n + 2) / 3) 'A' then some default else none
  | _ => none

/-- The attestation of a JSON object whose byte arrays are zero. -/
def zeroForetis? (v : JsonValue) : Option ForetisRecord := do
  let .number (.posInt chrononNumber) ← v.get? "chronon_number" | none
  let contentHash ← (v.get? "content_hash").bind (zeroArray? 32)
  let tbid ← ((v.get? "tbid").bind (·.get? "inner")).bind (zeroArray? 96)
  let echo ← (v.get? "echo").bind JsonValue.asStr?
  let tbn ← (v.get? "tbn").bind JsonValue.asStr?
  let referenceTime ← (v.get? "time_being_reference_time").bind JsonValue.asStr?
  pure ⟨chrononNumber, contentHash, ⟨tbid⟩, echo, tbn, referenceTime⟩

/-- A reader of such attestations. -/
def JsonFormat.zero : JsonFormat where
  foretis v := ((zeroForetis? v).map .ok).getD (.error "invalid attestation")
  records _ := .error "invalid type: map, expected a sequence"
  debug text := "\"" ++ text ++ "\""

/-- A peer that replays one attestation, unsigned, to every request. -/
def replayingPeer : Exchange := fun _ _ _ ↦ .ok (.object [
  ("id", .number (.posInt 1)),
  ("jsonrpc", .string "2.0"),
  ("result", .object [
    ("foretis", .object [
      ("chronon_number", .number (.posInt 1)),
      ("content_hash", .string (.ofList (.replicate 43 'A'))),
      ("echo", .string "another request"),
      ("tbid", .object [("inner", .string (.ofList (.replicate 128 'A')))]),
      ("tbn", .string "replay"),
      ("time_being_reference_time", .string "UE+0ns")]),
    ("signature", .string "")])])

/-- The replayed attestation is returned as a stamp of whatever was sent. -/
theorem not_soundAgainstPeer_replayingPeer :
    ¬PtpState.SoundAgainstPeer .transparent .zero replayingPeer ⟨["127.0.0.1:9000"], 30⟩ none []
      "this request" (.ok ()) default [] "Ed25519" := by
  intro h
  have hstamp : PtpState.stamp .zero replayingPeer ⟨["127.0.0.1:9000"], 30⟩ none []
      "this request" =
        .ok (⟨1, default, ⟨default⟩, "another request", "replay", "UE+0ns"⟩, [], "Ed25519") := by
    rfl
  have hecho := (h.stamp _ _ _ hstamp).2.1
  exact absurd hecho (by decide)

end Foretias

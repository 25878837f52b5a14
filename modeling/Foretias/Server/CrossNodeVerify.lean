import Foretias.Chronomatter.Completed
import Foretias.Core.SignatureLengths
import Foretias.Server.MirrorHandlers
import Foretias.Server.StampDurability

/-!
# Verify requests

`handle_verify` first asks the server's own calendar, and then, for an attestation of another time
being and when the request has the cross-node option, fetches the record of the chronon from there.
The second attempt parses the attestation again, as bare JSON, so that the signature of the request
is not in its envelope, and it blocks on a future where the runtime does not let it.

* `handleVerify_crossNode_eq_ok` — of another time being's attestation such a request is answered
  exactly if the server's own calendar accepts it, and then with `valid: true`.
-/

namespace Foretias

/-! ### Requests and servers -/

/-- Member `foretis` of a request, with the outcome of its own parse. -/
abbrev ParsedForetis := Except String ForetisRecord

/-- The members of a `verify` request. -/
structure VerifyRequest where
  /-- Member `content`, when it is a string. -/
  content : Option String
  /-- Member `foretis`. -/
  foretis : Option ParsedForetis
  /-- Member `signature`, when it is a string. -/
  signature : Option String
  /-- Member `signature_algorithm`, when it is a string. -/
  signatureAlgorithm : Option String
  /-- Member `cross_node`, when it is a Boolean. -/
  crossNode : Option Bool

/-- Parsed and validated parameters of a `verify` request. -/
structure VerifyParams where
  /-- The content. -/
  content : Bytes
  /-- The attestation. -/
  foretis : ForetisRecord
  /-- Member `foretis`, to be parsed again. -/
  foretisValue : ParsedForetis
  /-- The signature; empty when it is absent or no hex. -/
  signature : Bytes
  /-- Identifier of the signature algorithm. -/
  signatureAlgorithm : String
  /-- The cross-node option. -/
  crossNode : Bool

/-- The reply to a `verify` request. -/
structure VerifyReply where
  /-- The verdict. -/
  valid : Bool
  /-- Which attempt it comes from. -/
  method : String
  /-- Why an attestation was not found. -/
  note : Option String
  deriving DecidableEq

/-- What a server brings to a `verify` request. -/
structure VerifyServer where
  /-- The TBID. -/
  tbid : Tbid
  /-- The server's own calendar. -/
  calendar : Calendar
  /-- P2P is enabled. -/
  communerd : Bool
  /-- What the peer of a TBID answers when it is asked for a chronon, or the transport's error. -/
  slice : Tbid → UInt64 → Except String (List ChrononRecord)
  /-- The handler does not run inside a runtime, so that it may block on a future. -/
  mayBlock : Bool
  /-- What the hex decoder says of text that is no hex. -/
  hexError : String → String
  /-- How a communerdette's error is printed for a log. -/
  debug : CommunerdetteError → String

/-! ### The handler -/

/-- `from_json_value`: the attestation alone, without a signature. -/
def UnverifiedSignatureEnvelope.fromJsonValue : ParsedForetis →
    Except CleanAuthParseError (UnverifiedSignatureEnvelope ForetisRecord)
  | .ok foretis => .ok (.fromParsed foretis)
  | .error e => .error (.invalidJson e)

namespace VerifyServer

variable (P : Primitives) (server : VerifyServer)

/-- `parse_verify_params`. -/
def parseVerifyParams (params : VerifyRequest) : Result String VerifyParams :=
  match params.content with
  | none => .err "missing 'content'"
  | some contentHex =>
    match params.foretis with
    | none => .err "missing or invalid 'foretis'"
    | some foretisValue =>
      let signature := (params.signature.bind hexDecode).getD []
      let signatureAlgorithm := params.signatureAlgorithm.getD "Ed25519"
      match hexDecode contentHex with
      | none => .err s!"invalid hex: {server.hexError contentHex}"
      | some content =>
        if maxContentBytes < content.length then
          .err s!"content exceeds maximum size of {maxContentBytes} bytes"
        else
          match foretisValue with
          | .error e => .err s!"failed to parse foretis: {e}"
          | .ok foretis =>
            pure ⟨content, foretis, foretisValue, signature, signatureAlgorithm,
              params.crossNode.getD false⟩

/-- `try_local_verify`: an error is taken for `false`. -/
def tryLocalVerify (foretis : ForetisRecord) (signature : Bytes) (signatureAlgorithm : String)
    (content : Bytes) : Result RpcError Bool :=
  if server.calendar.get foretis.chrononNumber 1 = [] then pure false
  else
    (verify P foretis signature signatureAlgorithm content server.calendar.lookup).unwrapOr false

/-- `CommunerdetteLine::get_chronon`, with the error printed. -/
def getChronon (tbid : Tbid) (tick : UInt64) : Result String CleanChronon :=
  match server.slice tbid tick with
  | .error e => .err e
  | .ok records => (executeTick P tbid records).mapErr server.debug

/-- `cross_node_verify`. -/
def crossNodeVerify (unprocForetis : UnverifiedSignatureEnvelope ForetisRecord) (content : Bytes)
    (foretisTbidHex : String) : Result NodeError Bool :=
  if server.communerd = false then .err (.internal "P2P not enabled")
  else
    match Tbid.fromHex foretisTbidHex with
    | none =>
      let e := CryptoError.badInput "invalid hex TBID"
      .err (.internal s!"bad TBID hex: {e}")
    | some tbid => do
      let tick ← (server.getChronon P tbid unprocForetis.inner.chrononNumber).mapErr
        fun e ↦ NodeError.internal s!"get_chronon failed: {e}"
      let _ ← (unprocForetis.verifyForetis P tick content).mapErr
        fun e ↦ NodeError.internal (toString e)
      pure true

/-- `Handle::current().block_on`: inside a runtime, and without one, it panics. -/
def blockOn {α : Type} (future : Result NodeError α) : Result NodeError α :=
  if server.mayBlock then future else .error .panic

/-- `build_cross_node_verify_response`. -/
def buildCrossNodeVerifyResponse (foretisValue : ParsedForetis) (content : Bytes)
    (foretisTbidHex : String) : Result RpcError VerifyReply :=
  match UnverifiedSignatureEnvelope.fromJsonValue foretisValue with
  | .error e => .err (.invalidParams s!"failed to parse foretis: {e}")
  | .ok unprocForetis => do
    let valid ← (server.blockOn (server.crossNodeVerify P unprocForetis content
      foretisTbidHex)).mapErr fun e ↦ RpcError.internalError s!"cross-node verify failed: {e}"
    pure ⟨valid, "cross_node", none⟩

/-- `handle_verify`. -/
def handleVerify (params : VerifyRequest) : Result RpcError VerifyReply := do
  let vp ← (server.parseVerifyParams params).mapErr .invalidParams
  if ← server.tryLocalVerify P vp.foretis vp.signature vp.signatureAlgorithm vp.content then
    pure ⟨true, "local", none⟩
  else if !vp.crossNode then
    pure ⟨false, "local", some "foretis.tbid not found in local calendar"⟩
  else if vp.foretis.tbid = server.tbid then
    pure ⟨false, "local", some "own TBID but calendar miss"⟩
  else
    server.buildCrossNodeVerifyResponse P vp.foretisValue vp.content vp.foretis.tbid.toHex

/-! ### What is answered -/

variable {P server} {foretis : ForetisRecord} {signature content : Bytes}
  {signatureAlgorithm : String} {reply : VerifyReply}

/-- The server's own calendar accepts a signature that verifies under the first record from the
chronon on. -/
theorem tryLocalVerify_eq_true :
    server.tryLocalVerify P foretis signature signatureAlgorithm content = .ok true ↔
      ∃ rec, (server.calendar.get foretis.chrononNumber 1).head? = some rec ∧
        P.sha256 content = foretis.contentHash ∧
        verifyWith P rec.publicKey signatureAlgorithm (P.postcard foretis) signature =
          .ok true := by
  rw [tryLocalVerify]
  cases hget : server.calendar.get foretis.chrononNumber 1 with
  | nil => exact iff_of_false nofun nofun
  | cons rec rest =>
    rw [if_neg (List.cons_ne_nil _ _), Result.unwrapOr_false_eq_true]
    have hlookup : server.calendar.lookup.get foretis.chrononNumber 1 = .ok (rec :: rest) :=
      congrArg Except.ok hget
    by_cases hhash : P.sha256 content = foretis.contentHash
    · rw [verify_of_head? hhash hlookup rfl, Result.mapErr_eq_ok]
      exact ⟨fun h ↦ ⟨rec, rfl, hhash, h⟩, fun ⟨_, hrec, _, h⟩ ↦ Option.some_inj.1 hrec ▸ h⟩
    · rw [verify_of_hash_ne hhash]
      exact iff_of_false nofun fun ⟨_, _, h, _⟩ ↦ hhash h

/-- Without a signature in the envelope nothing passes the gate. -/
theorem verifyForetis_fromParsed_ne_ok (tick : CleanChronon)
    (c : CleanAuthenticated ForetisRecord) :
    (UnverifiedSignatureEnvelope.fromParsed foretis).verifyForetis P tick content ≠ .ok c := by
  intro h
  obtain ⟨-, -, hverify, -⟩ := UnverifiedSignatureEnvelope.verifyForetis_eq_ok.1 h
  -- the empty signature is sliced
  have hreturns : Result.Returns (verifyWith P tick.inner.publicKey "Ed25519"
      (P.postcard foretis) []) := by
    intro hpanic
    exact absurd (hpanic.symm.trans hverify) nofun
  exact absurd (fitsAlgorithm_ed25519.1 (returns_verifyWith.1 hreturns)).2 (by decide)

theorem crossNodeVerify_ne_ok (tbidHex : String) (valid : Bool) :
    server.crossNodeVerify P (.fromParsed foretis) content tbidHex ≠ .ok valid := by
  rw [crossNodeVerify]
  split
  · exact Result.err_ne_ok _ _
  split
  · exact Result.err_ne_ok _ _
  · intro h
    obtain ⟨tick, -, h⟩ := Result.bind_eq_ok.1 h
    obtain ⟨c, hc, -⟩ := Result.bind_eq_ok.1 h
    exact verifyForetis_fromParsed_ne_ok tick c (Result.mapErr_eq_ok.1 hc)

/-- The cross-node attempt has no verdict. -/
theorem buildCrossNodeVerifyResponse_ne_ok (foretisValue : ParsedForetis) (tbidHex : String) :
    server.buildCrossNodeVerifyResponse P foretisValue content tbidHex ≠ .ok reply := by
  rw [buildCrossNodeVerifyResponse]
  cases foretisValue with
  | error e => exact Result.err_ne_ok _ _
  | ok foretis =>
    intro h
    obtain ⟨valid, hvalid, -⟩ := Result.bind_eq_ok.1 h
    rw [Result.mapErr_eq_ok, blockOn] at hvalid
    split at hvalid
    · exact crossNodeVerify_ne_ok _ _ hvalid
    · cases hvalid

/-- **With the cross-node option, an attestation of another time being is answered exactly if the
server's own calendar accepts it.** -/
theorem handleVerify_crossNode_eq_ok {params : VerifyRequest} {vp : VerifyParams}
    (hparams : server.parseVerifyParams params = .ok vp) (hcross : vp.crossNode = true)
    (hother : vp.foretis.tbid ≠ server.tbid) : server.handleVerify P params = .ok reply ↔
      server.tryLocalVerify P vp.foretis vp.signature vp.signatureAlgorithm vp.content =
        .ok true ∧ reply = ⟨true, "local", none⟩ := by
  rw [handleVerify, hparams]
  change (server.tryLocalVerify P _ _ _ _ >>= _) = _ ↔ _
  rw [Result.bind_eq_ok]
  constructor
  · rintro ⟨valid, hvalid, h⟩
    cases valid with
    | true => exact ⟨hvalid, (Result.pure_eq_ok.1 h).symm⟩
    | false =>
      rw [hcross, if_neg Bool.false_ne_true, if_neg (by decide), if_neg hother] at h
      exact absurd h (buildCrossNodeVerifyResponse_ne_ok _ _)
  · rintro ⟨hvalid, rfl⟩
    exact ⟨true, hvalid, rfl⟩

end VerifyServer

/-! ### Stamps of another server -/

/-- The request that sends an attestation, its signature and its content with the cross-node
option. -/
def VerifyRequest.crossNodeOf (foretis : ForetisRecord) (signature : Bytes)
    (signatureAlgorithm : String) (content : Bytes) : VerifyRequest :=
  ⟨some (hexEncode content), some (.ok foretis), some (hexEncode signature),
    some signatureAlgorithm, some true⟩

namespace VerifyServer

variable (P : Primitives) (server : VerifyServer)

/-- A request is answered with a verdict. -/
def Answers (params : VerifyRequest) (valid : Bool) : Prop :=
  ∃ reply, server.handleVerify P params = .ok reply ∧ reply.valid = valid

/-- What a server is to answer to cross-node requests for a stamp: that it is valid, and that it is
not when one of its parts is another one. -/
structure VerifiesCrossNode (st : StampedForetis) (content : Bytes) : Prop where
  /-- The stamp is accepted. -/
  accepts : server.Answers P
    (.crossNodeOf st.foretis st.signatureBytes st.signatureAlgorithm content) true
  /-- Other content is rejected. -/
  rejects_content : ∀ content' ≠ content, server.Answers P
    (.crossNodeOf st.foretis st.signatureBytes st.signatureAlgorithm content') false
  /-- Another attestation is rejected. -/
  rejects_foretis : ∀ foretis' ≠ st.foretis, server.Answers P
    (.crossNodeOf foretis' st.signatureBytes st.signatureAlgorithm content) false
  /-- Another signature is rejected. -/
  rejects_signature : ∀ signature' ≠ st.signatureBytes, server.Answers P
    (.crossNodeOf st.foretis signature' st.signatureAlgorithm content) false

variable {P server} {foretis : ForetisRecord} {signature content : Bytes}
  {signatureAlgorithm : String} {reply : VerifyReply} {st : StampedForetis}

theorem parseVerifyParams_crossNodeOf (hlength : content.length ≤ maxContentBytes) :
    server.parseVerifyParams (.crossNodeOf foretis signature signatureAlgorithm content) =
      .ok ⟨content, foretis, .ok foretis, signature, signatureAlgorithm, true⟩ := by
  simp only [parseVerifyParams, VerifyRequest.crossNodeOf, hexDecode_hexEncode, Option.bind_some,
    Option.getD_some, if_neg (Nat.not_lt.2 hlength)]
  rfl

theorem parseVerifyParams_of_lt (hlength : maxContentBytes < content.length) :
    server.parseVerifyParams (.crossNodeOf foretis signature signatureAlgorithm content) =
      .err s!"content exceeds maximum size of {maxContentBytes} bytes" := by
  simp only [parseVerifyParams, VerifyRequest.crossNodeOf, hexDecode_hexEncode, if_pos hlength]

/-- A request for an attestation of another time being is answered exactly if the server's own
calendar has a record that accepts it. -/
theorem handleVerify_crossNodeOf_eq_ok (hother : foretis.tbid ≠ server.tbid) :
    server.handleVerify P (.crossNodeOf foretis signature signatureAlgorithm content) =
        .ok reply ↔
      (∃ rec, (server.calendar.get foretis.chrononNumber 1).head? = some rec ∧
        content.length ≤ maxContentBytes ∧ P.sha256 content = foretis.contentHash ∧
        verifyWith P rec.publicKey signatureAlgorithm (P.postcard foretis) signature =
          .ok true) ∧ reply = ⟨true, "local", none⟩ := by
  by_cases hlength : content.length ≤ maxContentBytes
  · rw [handleVerify_crossNode_eq_ok (parseVerifyParams_crossNodeOf hlength) rfl hother,
      tryLocalVerify_eq_true]
    simp only [and_iff_right hlength]
  · rw [handleVerify, parseVerifyParams_of_lt (Nat.lt_of_not_le hlength)]
    exact iff_of_false (Result.err_ne_ok _ _) fun ⟨⟨_, _, hle, _⟩, _⟩ ↦ hlength hle

/-- **No server verifies a stamp of another one as it is to**: it never answers that one is not
valid, and that one is valid exactly if its own calendar has a record that accepts it. -/
theorem not_verifiesCrossNode (hother : st.foretis.tbid ≠ server.tbid) :
    ¬server.VerifiesCrossNode P st content ∧
    ∀ signature' content' valid,
      server.Answers P
          (.crossNodeOf st.foretis signature' st.signatureAlgorithm content') valid ↔
        valid = true ∧ ∃ rec,
          (server.calendar.get st.foretis.chrononNumber 1).head? = some rec ∧
          content'.length ≤ maxContentBytes ∧ P.sha256 content' = st.foretis.contentHash ∧
          verifyWith P rec.publicKey st.signatureAlgorithm (P.postcard st.foretis) signature' =
            .ok true := by
  have hanswers : ∀ signature' content' valid, server.Answers P
      (.crossNodeOf st.foretis signature' st.signatureAlgorithm content') valid ↔
        valid = true ∧ ∃ rec,
          (server.calendar.get st.foretis.chrononNumber 1).head? = some rec ∧
          content'.length ≤ maxContentBytes ∧ P.sha256 content' = st.foretis.contentHash ∧
          verifyWith P rec.publicKey st.signatureAlgorithm (P.postcard st.foretis) signature' =
            .ok true := by
    intro signature' content' valid
    simp only [Answers, handleVerify_crossNodeOf_eq_ok hother]
    constructor
    · rintro ⟨_, ⟨hrec, rfl⟩, rfl⟩
      exact ⟨rfl, hrec⟩
    · rintro ⟨rfl, hrec⟩
      exact ⟨_, ⟨hrec, rfl⟩, rfl⟩
  refine ⟨fun h ↦ ?_, hanswers⟩
  have hrejected := h.rejects_content (0 :: content) (List.cons_ne_self 0 content)
  exact absurd ((hanswers _ _ _).1 hrejected).1 Bool.false_ne_true

end VerifyServer

/-! ### Stamps of an honest server -/

section Run

open Chronomatter ErrorState

variable {P : Primitives} {c t : Chronomatter P} {st : StampedForetis} {content : Bytes}
  {secret : TbidSecret} {tbid : Tbid} {tbn : String} {outs : List (Op × Option StampedForetis)}

/-- Every stamp of a run names the time being that the run began with. -/
theorem Chronomatter.tbid_of_run (hawake : c.isDormant = false) (hrun : Run OkStep c outs t)
    {env : CallEnv} {echo : String} (hst : (.stamp env content echo, some st) ∈ outs) :
    st.foretis.tbid = c.tbid := by
  obtain ⟨pre, u, v, post, -, hpre, hstep, -⟩ := hrun.exists_step_of_mem hst
  have hsame : u.isDormant = false ∧ u.tbid = c.tbid := by
    refine hpre.invariant (I := fun u ↦ u.isDormant = false ∧ u.tbid = c.tbid) ?_ ⟨hawake, rfl⟩
    rintro u out v ⟨hu, htbid⟩ hstep
    obtain ⟨kp, record, -, rfl, -⟩ := exec_eq_ok hu hstep
    exact ⟨hu, htbid⟩
  have hexec : (Op.stamp env content echo).exec u = .ok (some st) v := hstep
  rw [Op.exec, map_eq_pure_bind] at hexec
  obtain ⟨_, _, hstamp, h⟩ := bind_eq_ok.1 hexec
  cases h
  obtain ⟨kp, record, -, -, -, htbid, -⟩ := stamp_eq_ok hstamp
  rw [htbid, hsame.2]

/-- **A server that has no key of another one in its calendar answers no cross-node request for the
other one's stamps**, whatever it can fetch. -/
theorem not_answers_of_run (hkeyed : Ed25519Keyed P)
    (hrun : Run OkStep (new secret tbid tbn : Chronomatter P) outs t) {env : CallEnv}
    {echo : String} (hst : (.stamp env content echo, some st) ∈ outs) {server : VerifyServer}
    (hother : secret.tbid P ≠ server.tbid)
    (hkeys : ∀ rec ∈ server.calendar.ticks, ∀ record ∈ t.tickObserver.ticks,
      rec.publicKey.take 32 ≠ record.publicKey) (valid : Bool) :
    ¬server.Answers P (.crossNodeOf st.foretis st.signatureBytes st.signatureAlgorithm content)
      valid := by
  rintro ⟨reply, hreply, -⟩
  have htbid : st.foretis.tbid = secret.tbid P := tbid_of_run rfl hrun hst
  have hanswer := (VerifyServer.handleVerify_crossNodeOf_eq_ok (by rwa [htbid])).1 hreply
  obtain ⟨⟨rec, hrec, -, -, hverify⟩, -⟩ := hanswer
  have hcorrect : Ed25519Correct P := fun seed msg ↦ (hkeyed seed msg _).2 rfl
  obtain ⟨kp, record, hrecord, hkey, hattests⟩ :=
    attested_of_mem hcorrect (complete_new secret tbid tbn) hrun hst
  -- the key of the record is the one that signed
  rw [hattests.signatureAlgorithm_eq, hattests.signature_eq, verifyWith_ed25519] at hverify
  obtain ⟨key, hslice, hverify⟩ := Result.bind_eq_ok.1 hverify
  rw [sliceTo_toList] at hverify
  obtain ⟨_, ⟨⟩, hverify⟩ := Result.bind_eq_ok.1 hverify
  have hsigned := (hkeyed _ _ _).1 (Result.pure_eq_ok.1 hverify)
  refine hkeys rec ((Calendar.head?_get_iff 0).1 hrec).1 record hrecord ?_
  rw [(sliceTo_eq_ok.1 hslice).2, hsigned, kp.public_eq, hkey]

end Run

/-! ### A stamp that is not verified -/

section OneStamp

open Chronomatter

/-- A TBID that is not the one of the zero secret. -/
def onesTbid : Tbid := ⟨.replicate 96 1⟩

theorem tbid_default_ne_onesTbid : (default : TbidSecret).tbid .transparent ≠ onesTbid := by
  intro h
  have hbyte := congrArg (fun tbid ↦ tbid.rawBytes.head?) h
  exact absurd hbyte (by decide)

/-- A server with an empty calendar that can fetch the records of a chronomatter. -/
def fetchingServer {P : Primitives} (c : Chronomatter P) (mayBlock : Bool) : VerifyServer where
  tbid := onesTbid
  calendar := .new onesTbid ""
  communerd := true
  slice _ n := .ok (c.tickObserver.get n 1)
  mayBlock
  hexError _ := "Odd number of digits"
  debug _ := "CleanAuth(NotYetImplemented)"

/-- A stamp that a server made between two ticks, which another one can fetch the records of. -/
theorem not_verifiesCrossNode_between_ticks :
    ∃ (before after : List (Op × Option StampedForetis)) (t : Chronomatter .transparent)
      (st : StampedForetis),
    before.map Prod.fst = [clearTick (.replicate 32 1)] ∧
    after.map Prod.fst = [clearTick (.replicate 32 3)] ∧
    Run OkStep (new default default "")
      (before ++ (.stamp (.clear (.replicate 32 2)) [1, 2, 3] "echo", some st) :: after) t ∧
    ¬(fetchingServer t true).VerifiesCrossNode .transparent st [1, 2, 3] := by
  obtain ⟨before, after, t, st, hbefore, hafter, hrun⟩ :=
    exists_run_stamp (P := .transparent) default default "" [1, 2, 3] "echo"
  have hother : st.foretis.tbid ≠ onesTbid := by
    rw [tbid_of_run rfl hrun (List.mem_append_right _ List.mem_cons_self)]
    exact tbid_default_ne_onesTbid
  exact ⟨before, after, t, st, hbefore, hafter, hrun,
    VerifyServer.not_verifiesCrossNode hother |>.1⟩

/-- **The first stamp of a server is not answered by another one that can fetch its record**,
although the key of the record accepts it. -/
theorem not_verifiesCrossNode_one_stamp : ∃ (t : Chronomatter .transparent) (st : StampedForetis),
    Run OkStep (new default default "")
      [(.stamp (.clear (.replicate 32 1)) [] "", some st)] t ∧
    ∀ mayBlock, (∃ record, (fetchingServer t mayBlock).slice st.foretis.tbid
          st.foretis.chrononNumber = .ok [record] ∧
        keyVerdict .transparent record st.foretis st.signatureBytes st.signatureAlgorithm [] =
          some true) ∧
      (∀ valid, ¬(fetchingServer t mayBlock).Answers .transparent
        (.crossNodeOf st.foretis st.signatureBytes st.signatureAlgorithm []) valid) ∧
      ¬(fetchingServer t mayBlock).VerifiesCrossNode .transparent st [] := by
  obtain ⟨st, t, hstep, -⟩ := (ready_new (P := .transparent) default default "").exists_stamp
    (faultless_stamp_clear (.replicate 32 1) [] "" _) (by decide)
  have hrun := Run.cons hstep (.nil t)
  refine ⟨t, st, hrun, fun mayBlock ↦ ?_⟩
  have hunanswered : ∀ valid, ¬(fetchingServer t mayBlock).Answers .transparent
      (.crossNodeOf st.foretis st.signatureBytes st.signatureAlgorithm []) valid :=
    not_answers_of_run ed25519Keyed_transparent hrun (List.mem_singleton_self _)
      tbid_default_ne_onesTbid (fun _ hrec ↦ nomatch hrec)
  refine ⟨?_, hunanswered, fun h ↦ hunanswered _ h.accepts⟩
  have hcorrect := ed25519Exact_transparent.correct
  obtain ⟨kp, record, hrecord, hkey, hattests⟩ :=
    attested_of_mem hcorrect (complete_new _ _ _) hrun (List.mem_singleton_self _)
  refine ⟨record, congrArg Except.ok ?_, hattests.keyVerdict hcorrect hkey⟩
  have hhead : (t.tickObserver.get st.foretis.chrononNumber 1).head? = some record :=
    hattests.chrononNumber_eq ▸ Calendar.head?_get_of_mem hrecord 0
  have hlength : (t.tickObserver.get st.foretis.chrononNumber 1).length ≤ 1 :=
    List.length_take_le _ _
  cases hget : t.tickObserver.get st.foretis.chrononNumber 1 with
  | nil =>
    rw [hget] at hhead
    cases hhead
  | cons first rest =>
    rw [hget] at hhead hlength
    obtain rfl := Option.some_inj.1 hhead
    rw [List.eq_nil_of_length_eq_zero (Nat.le_zero.1 (Nat.le_of_succ_le_succ hlength))]

end OneStamp

end Foretias

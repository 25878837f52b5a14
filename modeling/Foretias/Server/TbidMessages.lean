import Foretias.Chronomatter.Calls
import Foretias.Server.Communerdette

/-!
# What the TBID key signs

The long-term key of a time being signs three kinds of messages, all unframed concatenations
without a tag for the kind: channel bindings and authenticated pings on request, and the genesis
certificate of its first record. A request's bytes end in the 192 digits of the server's TBID, so
it determines its TBID and the caller's bytes before it, but not how a channel binding splits
these into nonce and channel id, nor which of the two requests it was.

* `genesisBlob_inj`, `TbidRequest.message_inj` — what the bytes of one kind determine.
* `genesisBlob_eq_message_iff` — a certificate of chronon 1 has the bytes of a request exactly
  when its key ends in the TBID's digits.
* `verifyGenesis_of_channelBind` — and such a certificate is signed for whoever asks.
-/

namespace Foretias

/-! ### The handlers -/

section Handlers

variable {P : Primitives} (server : Chronomatter P)

/-- A request parameter that must be there. -/
def requireParam {α : Type} (message : String) : Option α → Result RpcError α
  | some a => pure a
  | none => .err (.invalidParams message)

/-- The combined signature of a message, of at least the Ed25519 length. -/
def signForReply (msg : Bytes) : Result RpcError Bytes :=
  match server.signTbidMessage msg with
  | .error e => .err (.signing s!"signing failed: {e}")
  | .ok combinedSig =>
    if combinedSig.length < 64 then .err (.signing "signature too short")
    else pure combinedSig

/-- `handle_channel_bind_challenge`. -/
def handleChannelBindChallenge (nonce channelId : Option String) :
    Result RpcError ChannelBinding := do
  let nonceHex ← requireParam "missing nonce" nonce
  let channelId ← requireParam "missing channel_id" channelId
  let responderTbidHex := server.tbid.toHex
  let nonceBytes ← requireParam "nonce not hex" (hexDecode nonceHex)
  let sigBytes ← signForReply server (bindingMsg nonceBytes channelId responderTbidHex)
  return {
    responderTbid := responderTbidHex
    nonceEcho := nonceHex
    channelId := channelId
    fastSig := hexEncode (sigBytes.take 64)
    slowSig := hexEncode (sigBytes.drop 64) }

/-- `handle_authenticated_ping`. -/
def handleAuthenticatedPing (challenge : Option String) : Result RpcError AuthenticatedPong := do
  let challengeHex ← requireParam "missing challenge" challenge
  let challengeBytes ← requireParam "challenge not hex" (hexDecode challengeHex)
  let responderTbidHex := server.tbid.toHex
  let sigBytes ← signForReply server (pingMsg challengeBytes responderTbidHex)
  return {
    responderTbid := responderTbidHex
    challengeEcho := challengeHex
    signature := hexEncode (sigBytes.take 64)
    signatureAlgorithm := "Ed25519" }

variable {server}

theorem signForReply_eq_ok {msg sig : Bytes} : signForReply server msg = .ok sig ↔
    ∃ secret, server.tbidSecret = some secret ∧ sig = tbidSign P secret.1 msg := by
  rw [signForReply, Chronomatter.signTbidMessage]
  cases hsecret : server.tbidSecret with
  | none => exact iff_of_false (fun h ↦ nomatch h) fun ⟨_, h, _⟩ ↦ nomatch h
  | some secret =>
    change (if (tbidSign P secret.1 msg).length < 64 then _ else _) = _ ↔ _
    rw [length_tbidSign, if_neg (by decide), Result.pure_eq_ok]
    constructor
    · rintro rfl
      exact ⟨secret, rfl, rfl⟩
    · rintro ⟨_, ⟨⟩, rfl⟩
      rfl

/-- The Ed25519 half of a TBID signature. -/
theorem take_tbidSign (secret : TbidSecret) (msg : Bytes) :
    (tbidSign P secret msg).take 64 = (P.ed25519Sign secret.ed25519 msg).toList :=
  List.take_left' (by simp)

end Handlers

/-! ### Requests and their messages -/

/-- A request for a signature, with the caller's bytes decoded. -/
inductive TbidRequest
  | channelBind (nonce : Bytes) (channelId : String)
  | authenticatedPing (challenge : Bytes)
  deriving DecidableEq

namespace TbidRequest

/-- What the caller chooses of the signed bytes. -/
def challenge : TbidRequest → Bytes
  | channelBind nonce channelId => nonce ++ asBytes channelId
  | authenticatedPing challenge => challenge

/-- The bytes signed for the request. -/
def message (tbid : Tbid) : TbidRequest → Bytes
  | channelBind nonce channelId => bindingMsg nonce channelId tbid.toHex
  | authenticatedPing challenge => pingMsg challenge tbid.toHex

theorem message_eq (tbid : Tbid) (request : TbidRequest) :
    request.message tbid = request.challenge ++ asBytes tbid.toHex := by
  cases request <;> rfl

/-- A message determines its TBID and the caller's bytes, and nothing more. -/
theorem message_inj {tbid tbid' : Tbid} {request request' : TbidRequest} :
    request.message tbid = request'.message tbid' ↔
      tbid = tbid' ∧ request.challenge = request'.challenge := by
  rw [message_eq, message_eq]
  constructor
  · intro h
    obtain ⟨hchallenge, hhex⟩ := List.append_inj' h (by simp)
    exact ⟨by simpa using hhex, hchallenge⟩
  · rintro ⟨rfl, h⟩
    rw [h]

/-- Channel bindings with nonces of one length determine all their parts. -/
theorem channelBind_inj {tbid tbid' : Tbid} {nonce nonce' : Bytes} {channelId channelId' : String}
    (hlen : nonce.length = nonce'.length)
    (h : (channelBind nonce channelId).message tbid =
      (channelBind nonce' channelId').message tbid') :
    tbid = tbid' ∧ nonce = nonce' ∧ channelId = channelId' := by
  obtain ⟨htbid, hchallenge⟩ := message_inj.1 h
  obtain ⟨hnonce, hchannel⟩ := List.append_inj hchallenge hlen
  exact ⟨htbid, hnonce, asBytes_inj.1 hchannel⟩

end TbidRequest

/-! ### The genesis certificate -/

/-- A genesis certificate determines all its parts: only the key, at the end, varies in length. -/
theorem genesisBlob_inj {tbid tbid' : Tbid} {chronon chronon' : UInt64} {key key' : Bytes} :
    genesisBlob tbid chronon key = genesisBlob tbid' chronon' key' ↔
      tbid = tbid' ∧ chronon = chronon' ∧ key = key' := by
  constructor
  · intro h
    rw [genesisBlob, genesisBlob] at h
    obtain ⟨h, hkey⟩ := List.append_inj h (by simp)
    obtain ⟨htbid, hchronon⟩ := List.append_inj h (by simp)
    exact ⟨Tbid.rawBytes_inj.1 htbid, u64Be_inj.1 hchronon, hkey⟩
  · rintro ⟨rfl, rfl, rfl⟩
    rfl

/-- A certificate of chronon 1 has the bytes of a request exactly when its key ends in the
digits of the request's TBID and the request's own bytes are the certificate before them. -/
theorem genesisBlob_eq_message_iff {tbid tbid' : Tbid} {key : Bytes} {request : TbidRequest} :
    genesisBlob tbid 1 key = request.message tbid' ↔
      ∃ front, key = front ++ asBytes tbid'.toHex ∧
        request.challenge = genesisBlob tbid 1 front := by
  rw [TbidRequest.message_eq]
  constructor
  · intro h
    rw [genesisBlob] at h
    rcases List.append_eq_append_iff.1 h with ⟨front, hchallenge, hkey⟩ | ⟨mid, hfront, hhex⟩
    · exact ⟨front, hkey, hchallenge⟩
    rcases List.eq_nil_or_concat mid with rfl | ⟨mid, b, rfl⟩
    · refine ⟨[], hhex.symm, ?_⟩
      rw [List.append_nil] at hfront
      rw [genesisBlob, List.append_nil, hfront]
    · -- the digits would cover the last byte of the chronon number, which is no digit
      have hlast : (tbid.rawBytes ++ u64Be 1).getLast? = some b := by
        rw [hfront, List.concat_eq_append, ← List.append_assoc, List.getLast?_concat]
      have hone : (tbid.rawBytes ++ u64Be 1).getLast? = some 1 := by
        rw [List.getLast?_append, show (u64Be 1).getLast? = some 1 by decide]
        rfl
      have hmem : b ∈ asBytes tbid'.toHex := by
        rw [hhex]
        simp
      obtain rfl := Option.some_inj.1 (hone.symm.trans hlast)
      exact absurd (le_of_mem_asBytes_hexEncode hmem) (by decide)
  · rintro ⟨front, rfl, h⟩
    rw [h]
    simp [genesisBlob]

/-! ### Replies and where they verify -/

section Replies

variable {P : Primitives}

/-- The server answers a request with an Ed25519 signature. -/
inductive Replies (server : Chronomatter P) : TbidRequest → Bytes → Prop
  | channelBind {nonceHex channelId : String} {nonce fast : Bytes} {reply : ChannelBinding} :
      hexDecode nonceHex = some nonce →
      handleChannelBindChallenge server (some nonceHex) (some channelId) = .ok reply →
      hexDecode reply.fastSig = some fast → Replies server (.channelBind nonce channelId) fast
  | authenticatedPing {challengeHex : String} {challenge fast : Bytes}
      {reply : AuthenticatedPong} :
      hexDecode challengeHex = some challenge →
      handleAuthenticatedPing server (some challengeHex) = .ok reply →
      hexDecode reply.signature = some fast → Replies server (.authenticatedPing challenge) fast

theorem handleChannelBindChallenge_eq_ok {server : Chronomatter P} {nonceHex channelId : String}
    {nonce : Bytes} {reply : ChannelBinding} (hnonce : hexDecode nonceHex = some nonce) :
    handleChannelBindChallenge server (some nonceHex) (some channelId) = .ok reply ↔
      ∃ sig, signForReply server (bindingMsg nonce channelId server.tbid.toHex) = .ok sig ∧
        reply = ⟨server.tbid.toHex, nonceHex, channelId, hexEncode (sig.take 64),
          hexEncode (sig.drop 64)⟩ := by
  simp only [handleChannelBindChallenge, requireParam, pure_bind, hnonce, Result.bind_eq_ok,
    Result.pure_eq_ok, eq_comm (b := reply)]

theorem handleAuthenticatedPing_eq_ok {server : Chronomatter P} {challengeHex : String}
    {challenge : Bytes} {reply : AuthenticatedPong}
    (hchallenge : hexDecode challengeHex = some challenge) :
    handleAuthenticatedPing server (some challengeHex) = .ok reply ↔
      ∃ sig, signForReply server (pingMsg challenge server.tbid.toHex) = .ok sig ∧
        reply = ⟨server.tbid.toHex, challengeHex, hexEncode (sig.take 64), "Ed25519"⟩ := by
  simp only [handleAuthenticatedPing, requireParam, pure_bind, hchallenge, Result.bind_eq_ok,
    Result.pure_eq_ok, eq_comm (b := reply)]

/-- The signature in a reply is the Ed25519 half of the one over the request's message. -/
theorem Replies.fast_eq {server : Chronomatter P} {request : TbidRequest} {fast : Bytes}
    (h : Replies server request fast) : ∃ secret : TbidSecret, secret.tbid P = server.tbid ∧
      fast = (P.ed25519Sign secret.ed25519 (request.message server.tbid)).toList := by
  cases h with
  | channelBind hnonce hreply hfast =>
    obtain ⟨sig, hsig, rfl⟩ := (handleChannelBindChallenge_eq_ok hnonce).1 hreply
    obtain ⟨secret, -, rfl⟩ := signForReply_eq_ok.1 hsig
    rw [hexDecode_hexEncode, take_tbidSign] at hfast
    exact ⟨secret.1, secret.2, (Option.some_inj.1 hfast).symm⟩
  | authenticatedPing hchallenge hreply hfast =>
    obtain ⟨sig, hsig, rfl⟩ := (handleAuthenticatedPing_eq_ok hchallenge).1 hreply
    obtain ⟨secret, -, rfl⟩ := signForReply_eq_ok.1 hsig
    rw [hexDecode_hexEncode, take_tbidSign] at hfast
    exact ⟨secret.1, secret.2, (Option.some_inj.1 hfast).symm⟩

variable (P) in
/-- Under a TBID's Ed25519 key, the signature verifies for one message only. -/
def VerifiesOnly (tbid : Tbid) (fast msg : Bytes) : Prop :=
  ∀ sig : FixedBytes 64, sig.toList = fast → ∀ msg',
    P.ed25519Verify tbid.ed25519PublicKey msg' sig = true → msg' = msg

variable (P) in
/-- Where the signature in a reply to a request can verify under the server's TBID. -/
structure Confined (tbid : Tbid) (request : TbidRequest) (fast : Bytes) : Prop where
  /-- As a genesis certificate, only for a key that ends in the TBID's digits. -/
  genesis {forwardGenesis backwardGenesis : Bytes} {prev curr : ChrononRecord}
      {tbVersion : UInt32} : prev.tbid = tbid → curr.chrononNumber = 1 →
    forwardGenesis.take 64 = fast →
    verifyGenesis P forwardGenesis backwardGenesis prev curr tbVersion = .ok true →
    ∃ front, curr.publicKey = front ++ asBytes tbid.toHex ∧
      request.challenge = genesisBlob tbid 1 front
  /-- As a channel binding, only for a nonce and channel id that join to the same bytes. -/
  channelBind {binding : ChannelBinding} {nonce fastBytes slowBytes : Bytes} {channelId : String}
      {clean : CleanFullyAuthenticated ChannelBinding} :
    hexDecode binding.fastSig = some fastBytes → hexDecode binding.slowSig = some slowBytes →
    (fastBytes ++ slowBytes).take 64 = fast →
    binding.verifyFull P nonce channelId tbid = .ok clean →
    nonce ++ asBytes channelId = request.challenge
  /-- As an authenticated ping, only for the same bytes. -/
  authenticatedPing {pong : AuthenticatedPong} {challenge sig : Bytes}
      {clean : CleanAuthenticated AuthenticatedPong} :
    hexDecode pong.signature = some sig → sig.take 64 = fast →
    pong.verify P challenge tbid = .ok clean → challenge = request.challenge

/-- A TBID signature that starts with a signature for one message is for that message. -/
theorem VerifiesOnly.eq_of_tbidVerify {tbid : Tbid} {fast msg msg' sig : Bytes}
    (h : VerifiesOnly P tbid fast msg) (hfast : sig.take 64 = fast)
    (hverify : tbidVerify P tbid.rawBytes msg' sig = .ok true) : msg' = msg := by
  obtain ⟨edSig, htake, hed⟩ := ed25519Verify_of_tbidVerify P hverify
  exact h edSig (htake.symm.trans hfast) msg' hed

theorem confined_of_verifiesOnly {tbid : Tbid} {request : TbidRequest} {fast : Bytes}
    (hlen : fast.length = 64) (h : VerifiesOnly P tbid fast (request.message tbid)) :
    Confined P tbid request fast where
  genesis {forwardGenesis backwardGenesis prev curr tbVersion} htbid hchronon hfast hverify := by
    rw [verifyGenesis] at hverify
    split at hverify
    · have hmsg := h.eq_of_tbidVerify hfast (htbid ▸ Result.mapErr_eq_ok.1 hverify)
      rw [buildGenesisBlob, htbid, hchronon] at hmsg
      exact genesisBlob_eq_message_iff.1 hmsg
    · -- an empty embedded signature starts with no signature at all
      have hboth := Result.pure_eq_ok.1 hverify
      rw [Bool.and_eq_true, List.isEmpty_iff] at hboth
      rw [hboth.1, List.take_nil] at hfast
      rw [← hfast] at hlen
      cases hlen
  channelBind {binding nonce fastBytes slowBytes channelId clean} hfast hslow htake hverify := by
    obtain ⟨hfields, ⟨fast', slow', hfast', hslow', hverify⟩, -⟩ :=
      tbidVerify_of_verifyFull hverify
    have hresponder := fromHex_of_checkBindingFields hfields
    obtain rfl := Option.some_inj.1 (hfast.symm.trans hfast')
    obtain rfl := Option.some_inj.1 (hslow.symm.trans hslow')
    have hmsg := h.eq_of_tbidVerify htake hverify
    rw [bindingMsg, TbidRequest.message_eq] at hmsg
    refine (List.append_inj' hmsg ?_).1
    rw [Tbid.length_asBytes_of_fromHex hresponder, Tbid.length_asBytes_toHex]
  authenticatedPing {pong challenge sig clean} hsig htake hverify := by
    obtain ⟨sig', hsig', hverify⟩ := verifyWith_of_verify hverify
    obtain rfl := Option.some_inj.1 (hsig.symm.trans hsig')
    obtain ⟨edSig, hed, hverify⟩ := ed25519Verify_of_verifyWith P hverify
    have hmsg := h edSig (hed.symm.trans htake) _ hverify
    rw [pingMsg, TbidRequest.message_eq] at hmsg
    exact List.append_cancel_right hmsg

/-- The bytes of a certificate determine it; the bytes of a request determine its TBID and the
caller's bytes; a certificate of chronon 1 has the bytes of a request only when its key ends in
the TBID's digits. So, if the signature in a reply verifies for nothing but the message it was
made for, it is accepted as a genesis certificate only for such a key, and for another request
only when the caller's bytes agree. -/
theorem tbidMessages_confined :
    (∀ (tbid tbid' : Tbid) (chronon chronon' : UInt64) (key key' : Bytes),
      genesisBlob tbid chronon key = genesisBlob tbid' chronon' key' ↔
        tbid = tbid' ∧ chronon = chronon' ∧ key = key') ∧
    (∀ (tbid tbid' : Tbid) (request request' : TbidRequest),
      request.message tbid = request'.message tbid' ↔
        tbid = tbid' ∧ request.challenge = request'.challenge) ∧
    (∀ (tbid tbid' : Tbid) (key : Bytes) (request : TbidRequest),
      genesisBlob tbid 1 key = request.message tbid' ↔
        ∃ front, key = front ++ asBytes tbid'.toHex ∧
          request.challenge = genesisBlob tbid 1 front) ∧
    ∀ (server : Chronomatter P) (request : TbidRequest) (fast : Bytes),
      Replies server request fast →
      VerifiesOnly P server.tbid fast (request.message server.tbid) →
      Confined P server.tbid request fast := by
  refine ⟨fun _ _ _ _ _ _ ↦ genesisBlob_inj, fun _ _ _ _ ↦ TbidRequest.message_inj,
    fun _ _ _ _ ↦ genesisBlob_eq_message_iff, fun server request fast hreplies hone ↦ ?_⟩
  obtain ⟨secret, -, rfl⟩ := hreplies.fast_eq
  exact confined_of_verifiesOnly (FixedBytes.length_toList _) hone

/-- Primitives whose signatures verify for one message only. -/
def Primitives.soleMessage (only : Bytes) : Primitives :=
  { Primitives.transparent with ed25519Verify := fun _ msg _ ↦ msg == only }

theorem tbid_soleMessage (only : Bytes) (secret : TbidSecret) :
    secret.tbid (.soleMessage only) = secret.tbid .transparent := rfl

theorem verifiesOnly_soleMessage (tbid : Tbid) (fast only : Bytes) :
    VerifiesOnly (.soleMessage only) tbid fast only :=
  fun _ _ _ h ↦ eq_of_beq h

/-- A channel binding with a nonce. -/
theorem confined_channelBind : ∃ (P : Primitives) (server : Chronomatter P) (fast : Bytes),
    Replies server (.channelBind [10, 11, 12] "noise-xx") fast ∧
      Confined P server.tbid (.channelBind [10, 11, 12] "noise-xx") fast := by
  let tbid := TbidSecret.tbid .transparent default
  let request := TbidRequest.channelBind [10, 11, 12] "noise-xx"
  let server : Chronomatter (.soleMessage (request.message tbid)) := .new default default ""
  have hmessage : request.message server.tbid = request.message tbid :=
    congrArg request.message (tbid_soleMessage _ _)
  have hone : ∀ fast, VerifiesOnly (.soleMessage (request.message tbid)) server.tbid fast
      (request.message server.tbid) := by
    intro fast
    rw [hmessage]
    exact verifiesOnly_soleMessage _ _ _
  have hnonce : hexDecode (hexEncode [10, 11, 12]) = some [10, 11, 12] := hexDecode_hexEncode _
  have hreply : handleChannelBindChallenge server (some (hexEncode [10, 11, 12]))
      (some "noise-xx") = .ok _ :=
    (handleChannelBindChallenge_eq_ok hnonce).2 ⟨_, signForReply_eq_ok.2 ⟨_, rfl, rfl⟩, rfl⟩
  have hreplies := Replies.channelBind hnonce hreply (hexDecode_hexEncode _)
  exact ⟨_, server, _, hreplies, tbidMessages_confined.2.2.2 server _ _ hreplies (hone _)⟩

end Replies

/-! ### A certificate on request -/

/-- A server signs the certificate of any key that ends in its own TBID's digits for whoever
sends the rest as a channel-binding nonce, and `verify_genesis` accepts it. -/
theorem verifyGenesis_of_channelBind {P : Primitives} (hed : Ed25519Correct P)
    (hslh : SlhDsaCorrect P) {server : Chronomatter P}
    {secret : { s : TbidSecret // s.tbid P = server.tbid }}
    (hsecret : server.tbidSecret = some secret) (front : Bytes) {prev curr : ChrononRecord}
    (htbid : prev.tbid = server.tbid) (hchronon : curr.chrononNumber = 1)
    (hkey : curr.publicKey = front ++ asBytes server.tbid.toHex) :
    ∃ reply fast slow,
      handleChannelBindChallenge server (some (hexEncode (genesisBlob server.tbid 1 front)))
        (some "") = .ok reply ∧
      hexDecode reply.fastSig = some fast ∧ hexDecode reply.slowSig = some slow ∧
      ∀ tbVersion, verifyGenesis P (fast ++ slow) (fast ++ slow) prev curr tbVersion =
        .ok true := by
  have hsign : signForReply server (bindingMsg (genesisBlob server.tbid 1 front) ""
      server.tbid.toHex) = .ok (tbidSign P secret.1
        (bindingMsg (genesisBlob server.tbid 1 front) "" server.tbid.toHex)) :=
    signForReply_eq_ok.2 ⟨secret, hsecret, rfl⟩
  refine ⟨_, _, _, (handleChannelBindChallenge_eq_ok (hexDecode_hexEncode _)).2 ⟨_, hsign, rfl⟩,
    hexDecode_hexEncode _, hexDecode_hexEncode _, fun tbVersion ↦ ?_⟩
  have hblob : bindingMsg (genesisBlob server.tbid 1 front) "" server.tbid.toHex =
      buildGenesisBlob prev curr := by
    rw [buildGenesisBlob, htbid, hchronon, hkey, genesisBlob, genesisBlob, bindingMsg,
      show asBytes "" = [] from rfl, List.append_nil, List.append_assoc]
  have hne : tbidSign P secret.1 (buildGenesisBlob prev curr) ≠ [] := by
    refine List.ne_nil_of_length_pos ?_
    rw [length_tbidSign]
    decide
  have hverify := tbidVerify_tbidSign hed hslh secret.1 (buildGenesisBlob prev curr)
  rw [secret.2] at hverify
  rw [List.take_append_drop, hblob, verifyGenesis, if_pos ⟨hne, rfl⟩, htbid]
  exact Result.mapErr_eq_ok.2 hverify

/-- The bytes `ab` are a nonce and a channel id in two ways, and an empty channel binding has the
message of an empty ping; and a server certifies a 224-byte key that it did not generate. -/
theorem tbidMessages_collide :
    (∀ tbid, (TbidRequest.channelBind [97] "b").message tbid =
      (TbidRequest.channelBind [] "ab").message tbid) ∧
    (∀ tbid, (TbidRequest.channelBind [] "").message tbid =
      (TbidRequest.authenticatedPing []).message tbid) ∧
    ∃ (server : Chronomatter .transparent) (prev curr : ChrononRecord) (reply : ChannelBinding)
      (fast slow : Bytes), prev.tbid = server.tbid ∧ curr.chrononNumber = 1 ∧
      curr.publicKey = List.replicate 32 7 ++ asBytes server.tbid.toHex ∧
      handleChannelBindChallenge server
        (some (hexEncode (genesisBlob server.tbid 1 (List.replicate 32 7)))) (some "") =
          .ok reply ∧
      hexDecode reply.fastSig = some fast ∧ hexDecode reply.slowSig = some slow ∧
      verifyGenesis .transparent (fast ++ slow) (fast ++ slow) prev curr 1 = .ok true := by
  refine ⟨fun _ ↦ rfl, fun _ ↦ rfl, ?_⟩
  let server : Chronomatter .transparent := .new default default ""
  let prev : ChrononRecord := { (default : ChrononRecord) with tbid := server.tbid }
  let curr : ChrononRecord :=
    { (default : ChrononRecord) with
      chrononNumber := 1
      publicKey := List.replicate 32 7 ++ asBytes server.tbid.toHex }
  have hsecret : server.tbidSecret = some _ := rfl
  have htbid : prev.tbid = server.tbid := rfl
  have hchronon : curr.chrononNumber = 1 := rfl
  obtain ⟨reply, fast, slow, hreply, hfast, hslow, hverify⟩ :=
    verifyGenesis_of_channelBind ed25519Exact_transparent.correct slhDsaCorrect_transparent hsecret
      (List.replicate 32 7) htbid hchronon rfl
  exact ⟨server, prev, curr, reply, fast, slow, rfl, rfl, rfl, hreply, hfast, hslow, hverify 1⟩

end Foretias

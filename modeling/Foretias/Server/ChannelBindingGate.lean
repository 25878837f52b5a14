import Foretias.Server.TbidMessages

/-!
# The three gates of a channel binding

`ChannelBindingGate` has one method that checks both signatures of a response together,
`verify_full`, and one for each of them alone. The two that check one signature go through
`verify_with`, under an algorithm identifier of their own.

* `verifyFull_eq_ok` — what `verify_full` accepts.
* `verifySlowOnly_ne_ok` — the identifier `verify_slow_only` asks for is not one that
  `from_id_string` knows, so it answers with an error whatever the response.
* `verifyFastOnly_of_verifyFull` — what `verify_full` accepts passes `verify_fast_only`, if its
  fast signature is of full length.
* `exists_reply_carriesTbidSignature` — an honest response passes `verify_full`.
-/

namespace Foretias

/-- SLH-DSA public key (last 64 bytes). -/
def Tbid.slhDsaPublicKey (t : Tbid) : FixedBytes 64 := ⟨t.inner.toList.drop 32, by simp⟩

namespace ChannelBinding

variable (P : Primitives)

/-- One signature of a response, under one key of the target. -/
def verifyOnly (inner : ChannelBinding) (nonce : Bytes) (channelId : String) (targetTbid : Tbid)
    (sigHex message : String) (pubKey : Bytes) (algId : String) :
    Result CommunerdetteError Bool := do
  checkBindingFields inner nonce channelId targetTbid
  let sig ← orStructural message (hexDecode sigHex)
  let msg := bindingMsg nonce channelId inner.responderTbid
  (verifyWith P pubKey algId msg sig).mapErr fun e ↦ .cleanAuth (.crypto (.crypto e))

/-- `verify_fast_only`. -/
def verifyFastOnly (inner : ChannelBinding) (nonce : Bytes) (channelId : String)
    (targetTbid : Tbid) : Result CommunerdetteError Bool :=
  inner.verifyOnly P nonce channelId targetTbid inner.fastSig "fast_sig not hex"
    targetTbid.ed25519PublicKey.toList "Ed25519"

/-- `verify_slow_only`. -/
def verifySlowOnly (inner : ChannelBinding) (nonce : Bytes) (channelId : String)
    (targetTbid : Tbid) : Result CommunerdetteError Bool :=
  inner.verifyOnly P nonce channelId targetTbid inner.slowSig "slow_sig not hex"
    targetTbid.slhDsaPublicKey.toList "SLH-DSA-SHA2-256f"

/-- A response that names the target and repeats the challenge, and whose two signatures together
are a TBID signature of the target. -/
def CarriesTbidSignature (inner : ChannelBinding) (nonce : Bytes) (channelId : String)
    (targetTbid : Tbid) : Prop :=
  checkBindingFields inner nonce channelId targetTbid = .ok () ∧
    ∃ fastBytes slowBytes, hexDecode inner.fastSig = some fastBytes ∧
      hexDecode inner.slowSig = some slowBytes ∧
      tbidVerify P targetTbid.rawBytes (bindingMsg nonce channelId inner.responderTbid)
        (fastBytes ++ slowBytes) = .ok true

variable {P} {inner : ChannelBinding} {nonce : Bytes} {channelId : String} {targetTbid : Tbid}

theorem verifyFull_eq_ok {clean : CleanFullyAuthenticated ChannelBinding} :
    inner.verifyFull P nonce channelId targetTbid = .ok clean ↔
      inner.CarriesTbidSignature P nonce channelId targetTbid ∧ clean = ⟨inner⟩ := by
  constructor
  · intro h
    obtain ⟨hfields, hsigned, hclean⟩ := tbidVerify_of_verifyFull h
    exact ⟨⟨hfields, hsigned⟩, hclean⟩
  · rintro ⟨⟨hfields, fastBytes, slowBytes, hfast, hslow, hok⟩, rfl⟩
    refine Result.bind_eq_ok.2 ⟨(), hfields, ?_⟩
    refine Result.bind_eq_ok.2 ⟨fastBytes, orStructural_eq_ok.2 hfast, ?_⟩
    refine Result.bind_eq_ok.2 ⟨slowBytes, orStructural_eq_ok.2 hslow, ?_⟩
    exact Result.bind_eq_ok.2 ⟨true, Result.mapErr_eq_ok.2 hok, rfl⟩

theorem exists_verifyFull_iff :
    (∃ clean, inner.verifyFull P nonce channelId targetTbid = .ok clean) ↔
      inner.CarriesTbidSignature P nonce channelId targetTbid := by
  constructor
  · rintro ⟨clean, h⟩
    exact (verifyFull_eq_ok.1 h).1
  · intro h
    exact ⟨⟨inner⟩, verifyFull_eq_ok.2 ⟨h, rfl⟩⟩

theorem verifyOnly_eq_ok {sigHex message algId : String} {pubKey : Bytes} {valid : Bool} :
    inner.verifyOnly P nonce channelId targetTbid sigHex message pubKey algId = .ok valid ↔
      checkBindingFields inner nonce channelId targetTbid = .ok () ∧
        ∃ sig, hexDecode sigHex = some sig ∧
          verifyWith P pubKey algId (bindingMsg nonce channelId inner.responderTbid) sig =
            .ok valid := by
  rw [verifyOnly, Result.bind_eq_ok]
  constructor
  · rintro ⟨⟨⟩, hfields, h⟩
    obtain ⟨sig, hsig, h⟩ := Result.bind_eq_ok.1 h
    exact ⟨hfields, sig, orStructural_eq_ok.1 hsig, Result.mapErr_eq_ok.1 h⟩
  · rintro ⟨hfields, sig, hsig, h⟩
    exact ⟨(), hfields, Result.bind_eq_ok.2
      ⟨sig, orStructural_eq_ok.2 hsig, Result.mapErr_eq_ok.2 h⟩⟩

/-- No response passes `verify_slow_only`, nor fails it with a verdict. -/
theorem verifySlowOnly_ne_ok (valid : Bool) :
    inner.verifySlowOnly P nonce channelId targetTbid ≠ .ok valid := by
  intro h
  obtain ⟨-, sig, -, h⟩ := verifyOnly_eq_ok.1 h
  obtain ⟨algorithm, halgorithm, -⟩ := Result.bind_eq_ok.1 h
  exact absurd halgorithm (Result.err_ne_ok _ _)

/-- The first 64 bytes of the two signatures are those of the fast one, if it has that many. -/
theorem verifyFastOnly_of_verifyFull {fastBytes : Bytes}
    (h : inner.CarriesTbidSignature P nonce channelId targetTbid)
    (hfast : hexDecode inner.fastSig = some fastBytes) (hlen : 64 ≤ fastBytes.length) :
    inner.verifyFastOnly P nonce channelId targetTbid = .ok true := by
  obtain ⟨hfields, fastBytes', slowBytes, hfast', -, hok⟩ := h
  obtain rfl := Option.some_inj.1 (hfast.symm.trans hfast')
  obtain ⟨edSig, htake, hed⟩ := ed25519Verify_of_tbidVerify P hok
  rw [List.take_append_of_le_length hlen] at htake
  refine verifyOnly_eq_ok.2 ⟨hfields, fastBytes, hfast, ?_⟩
  have hsplit : fastBytes = edSig.toList ++ fastBytes.drop 64 := by
    rw [← htake, List.take_append_drop]
  rw [hsplit, verifyWith_ed25519_append, hed]

end ChannelBinding

/-! ### Honest responses -/

section Honest

variable {P : Primitives} {server : Chronomatter P} {secret : { s : TbidSecret // s.tbid P = _ }}
  {nonceHex : String} {nonce : Bytes}

/-- A server that holds its secret answers every challenge in hexadecimal with its two
signatures of the binding message. -/
theorem handleChannelBindChallenge_eq (hsecret : server.tbidSecret = some secret)
    (hnonce : hexDecode nonceHex = some nonce) (channelId : String) :
    handleChannelBindChallenge server (some nonceHex) (some channelId) = .ok {
      responderTbid := server.tbid.toHex
      nonceEcho := nonceHex
      channelId := channelId
      fastSig := hexEncode
        ((tbidSign P secret.1 (bindingMsg nonce channelId server.tbid.toHex)).take 64)
      slowSig := hexEncode
        ((tbidSign P secret.1 (bindingMsg nonce channelId server.tbid.toHex)).drop 64) } := by
  rw [handleChannelBindChallenge]
  refine Result.bind_eq_ok.2 ⟨nonceHex, rfl, Result.bind_eq_ok.2 ⟨channelId, rfl, ?_⟩⟩
  refine Result.bind_eq_ok.2 ⟨nonce, ?_, ?_⟩
  · rw [hnonce]
    rfl
  · exact Result.bind_eq_ok.2 ⟨_, signForReply_eq_ok.2 ⟨secret, hsecret, rfl⟩, rfl⟩

theorem exists_reply_carriesTbidSignature (hed : Ed25519Correct P) (hslh : SlhDsaCorrect P)
    (hsecret : server.tbidSecret = some secret) (hnonce : hexDecode nonceHex = some nonce)
    (channelId : String) :
    ∃ reply, handleChannelBindChallenge server (some nonceHex) (some channelId) = .ok reply ∧
      reply.CarriesTbidSignature P nonce channelId server.tbid := by
  refine ⟨_, handleChannelBindChallenge_eq hsecret hnonce channelId, ?_, _, _,
    hexDecode_hexEncode _, hexDecode_hexEncode _, ?_⟩
  · simp [checkBindingFields, hnonce, orStructural, bind, Except.bind, pure, Except.pure]
  · have hown := tbidVerify_tbidSign hed hslh secret.1
      (bindingMsg nonce channelId server.tbid.toHex)
    rwa [secret.2, ← List.take_append_drop 64 (tbidSign P secret.1 _)] at hown

end Honest

/-! ### Do the gates agree? -/

/-- **The combined gate and the two single gates agree exactly on what the combined gate
refuses**: a response that does not carry a TBID signature of the target. Honest responses do,
and pass the combined gate. -/
theorem verifyFull_iff_fast_and_slow_iff (P : Primitives) :
    (∀ (inner : ChannelBinding) nonce channelId targetTbid,
      ((∃ clean, inner.verifyFull P nonce channelId targetTbid = .ok clean) ↔
          inner.verifyFastOnly P nonce channelId targetTbid = .ok true ∧
            inner.verifySlowOnly P nonce channelId targetTbid = .ok true) ↔
        ¬inner.CarriesTbidSignature P nonce channelId targetTbid) ∧
    (Ed25519Correct P → SlhDsaCorrect P →
      ∀ (server : Chronomatter P) secret, server.tbidSecret = some secret →
      ∀ nonceHex channelId nonce, hexDecode nonceHex = some nonce →
        ∃ reply, handleChannelBindChallenge server (some nonceHex) (some channelId) = .ok reply ∧
          ∃ clean, reply.verifyFull P nonce channelId server.tbid = .ok clean) := by
  constructor
  · intro inner nonce channelId targetTbid
    have hslow : ¬(inner.verifyFastOnly P nonce channelId targetTbid = .ok true ∧
        inner.verifySlowOnly P nonce channelId targetTbid = .ok true) :=
      fun h ↦ ChannelBinding.verifySlowOnly_ne_ok true h.2
    rw [iff_false_right hslow, ChannelBinding.exists_verifyFull_iff]
  · intro hed hslh server secret hsecret nonceHex channelId nonce hnonce
    obtain ⟨reply, hreply, hcarries⟩ :=
      exists_reply_carriesTbidSignature hed hslh hsecret hnonce channelId
    exact ⟨reply, hreply, ChannelBinding.exists_verifyFull_iff.2 hcarries⟩

/-- A new server answers a challenge, and its answer passes the combined gate. -/
theorem verifyFull_iff_fast_and_slow_iff_nonce :
    ∃ reply, handleChannelBindChallenge (.new default default "" : Chronomatter .transparent)
        (some (hexEncode [10, 11, 12])) (some "noise-xx") = .ok reply ∧
      ∃ clean, reply.verifyFull .transparent [10, 11, 12] "noise-xx"
        (TbidSecret.tbid .transparent default) = .ok clean :=
  (verifyFull_iff_fast_and_slow_iff .transparent).2 ed25519Exact_transparent.correct
    slhDsaCorrect_transparent (.new default default "") _ rfl _ "noise-xx" [10, 11, 12]
    (hexDecode_hexEncode _)

/-- **The single gates refuse a response that the combined gate accepts**: the answer of a new
server to an empty challenge. -/
theorem not_verifyFull_iff_fast_and_slow :
    ¬∀ (inner : ChannelBinding) nonce channelId targetTbid,
      (∃ clean, inner.verifyFull .transparent nonce channelId targetTbid = .ok clean) ↔
        inner.verifyFastOnly .transparent nonce channelId targetTbid = .ok true ∧
          inner.verifySlowOnly .transparent nonce channelId targetTbid = .ok true := by
  intro h
  let server : Chronomatter .transparent := .new default default ""
  have hsecret : server.tbidSecret = some ⟨default, rfl⟩ := rfl
  have hnonce : hexDecode "" = some [] := rfl
  obtain ⟨reply, -, hcarries⟩ := exists_reply_carriesTbidSignature
    ed25519Exact_transparent.correct slhDsaCorrect_transparent hsecret hnonce "tcp"
  have hfull := ChannelBinding.exists_verifyFull_iff.2 hcarries
  exact ChannelBinding.verifySlowOnly_ne_ok true ((h _ _ _ _).1 hfull).2

end Foretias

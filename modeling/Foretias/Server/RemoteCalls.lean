import Foretias.C11.SigningTbid
import Foretias.Server.Connection

/-!
# Requests over an undisturbed connection

Where the network delivers what was sent, a client gets from the server what the server does for it
locally. Two results say so:

* `pipelined_requests` — any number of requests sent at once are processed in order, and the client
  receives their responses in the same order;
* `noiseJsonRpc_eq_local` — a call of `noise_json_rpc`, which makes a connection for one request, is
  a local call of `process_request_from_value`.
-/

namespace Foretias

open ErrorState

/-! ### A round that is not disturbed -/

section Rounds

variable {C : Sodium} {T : RpcText} {σ : Type} {handlers : RpcHandlers σ} {rounds : ℕ → Round σ}
  {client : Endpoint} {recvKey sendKey : Bytes32} {n n' : UInt64} {s t : σ} {input : Bytes}
  {kek : Option Bytes32} {lines : List String} {responses : List JsonRpcResponse}
  {c : Connection σ}

/-- The next message sent is a line that is processed, when it is delivered. -/
theorem Answered.exists_round (haead : AeadCorrect C) (hclient : SentInOrder C recvKey n client)
    (hrounds : KeepsInstanceKek rounds kek) (hkek : c.session.keyModule.instanceKek = kek)
    (h : Answered C T handlers rounds client recvKey sendKey n n' s input lines responses c)
    {m : SentMessage} {line : String} {rest : Bytes} {response : JsonRpcResponse}
    (hm : client.sent[lines.length]? = some m) (hline : m.plaintext = asBytes line)
    (hlength : (asBytes line).length ≤ maxRequestLineBytes)
    (hinput : c.input = serverFraming.write m.ciphertext ++ rest)
    (hrespond : respond T handlers line ((rounds lines.length).others c.server) = .ok response t)
    (hbreaks : (rounds lines.length).breaks = none) (hn : c.session.sendNonce ≠ uint64Max) :
    ∃ d, serveRequest C T handlers (rounds lines.length) c = .ok ⟨⟩ d ∧ d.input = rest ∧
      d.server = t := by
  rw [serveRequest]
  have hfits : serverFraming.Fits m.ciphertext :=
    fits_of_line haead (hclient.encrypted hm).2.2 (hline ▸ hlength)
  have hread : readCiphertext c = .ok m.ciphertext { c with input := rest } := by
    rw [readCiphertext, hinput, Framing.read_write_append hfits]
  rw [bind_of_ok hread]
  have hM := (hrounds lines.length).1.trans hkek.symm
  have hreceived : c.received.length = lines.length := by rw [h.lines, List.length_map]
  obtain ⟨_, hrun⟩ := h.received.recv_next haead hclient h.sent.complete (hreceived.symm ▸ hm) hM
  have hrecvKey := (Session.secret_under hM _).trans h.received.recvKey
  have hsent := h.sent.receive h.received.recvKey hM m.ciphertext
  have hM' : (rounds lines.length).sendModule.instanceKek = (c.toEndpoint.receive C
      (rounds lines.length).recvModule m.ciphertext).session.keyModule.instanceKek := by
    rw [Endpoint.keyModule_receive hrecvKey, (hrounds _).1]
    exact (hrounds _).2
  have hnonce : (c.toEndpoint.receive C (rounds lines.length).recvModule
      m.ciphertext).session.sendNonce = c.session.sendNonce := by
    refine UInt64.toNat_inj.1 (hsent.count.trans ?_)
    rw [Endpoint.sent_receive, h.sent.count]
  obtain ⟨ct, _, hsend⟩ := hsent.exists_send haead hM' (hnonce.symm ▸ hn)
    (Nat.le_refl ((responseBytes T response).length + nhT))
  rw [bind_of_ok (recvPlaintext_of_ok (c := { c with input := rest }) hrun), handlePlaintext, hline,
    fromUtf8?_asBytes, bind_of_ok (ofOption_some_apply _ _ _),
    bind_of_ok (require_of_true hlength _ _), bind_of_ok (modify_apply _ _),
    bind_of_ok (answer_of_ok (c := { c with
      toEndpoint := c.toEndpoint.receive C (rounds lines.length).recvModule m.ciphertext
      input := rest
      server := (rounds lines.length).others c.server }) hrespond), sendResponse,
    bind_of_ok (sendPlaintext_of_ok (c := { c with
      toEndpoint := c.toEndpoint.receive C (rounds lines.length).recvModule m.ciphertext
      input := rest
      server := t }) hsend), hbreaks]
  exact ⟨_, rfl, rfl, rfl⟩

/-- The next message sent is processed and answered, when it is delivered. -/
theorem Answered.next (haead : AeadCorrect C) (hclient : SentInOrder C recvKey n client)
    (hrounds : KeepsInstanceKek rounds kek) (hkek : c.session.keyModule.instanceKek = kek)
    (h : Answered C T handlers rounds client recvKey sendKey n n' s input lines responses c)
    {m : SentMessage} {line : String} {rest : Bytes} {response : JsonRpcResponse}
    (hm : client.sent[lines.length]? = some m) (hline : m.plaintext = asBytes line)
    (hlength : (asBytes line).length ≤ maxRequestLineBytes)
    (hinput : c.input = serverFraming.write m.ciphertext ++ rest)
    (hrespond : respond T handlers line ((rounds lines.length).others c.server) = .ok response t)
    (hbreaks : (rounds lines.length).breaks = none) (hn : c.session.sendNonce ≠ uint64Max) :
    ∃ d, serveRequest C T handlers (rounds lines.length) c = .ok ⟨⟩ d ∧ d.input = rest ∧
      d.server = t ∧ d.session.keyModule.instanceKek = kek ∧
      Answered C T handlers rounds client recvKey sendKey n n' s input (lines ++ [line])
        (responses ++ [response]) d := by
  obtain ⟨d, hserve, hrest, hserver⟩ := h.exists_round haead hclient hrounds hkek hm hline hlength
    hinput hrespond hbreaks hn
  have hfits : serverFraming.Fits m.ciphertext :=
    fits_of_line haead (hclient.encrypted hm).2.2 (hline ▸ hlength)
  have hread : (serverFraming.read (serverFraming.write m.ciphertext ++ rest)).result =
      .ok (m.ciphertext, rest) := Framing.read_write_append hfits
  have hunforged : c.NextUnforged C recvKey client := by
    intro ct rest' pt hframe _
    rw [hinput, hread] at hframe
    obtain ⟨rfl, -⟩ := Prod.mk.inj (Except.ok.inj hframe)
    refine ⟨m, List.mem_of_getElem? hm, UInt64.toNat_inj.1 ?_, rfl⟩
    rw [(hclient.encrypted hm).1, h.received.count, h.lines, List.length_map]
  obtain ⟨line', response', d', hserve', hd, hrespond', hkek', -⟩ | ⟨e, d', hserve', -⟩ :=
    h.round haead hclient hrounds hkek hunforged
  swap
  · exact nomatch hserve.symm.trans hserve'
  obtain ⟨-, rfl⟩ := EStateM.Result.ok.inj (hserve.symm.trans hserve')
  have hline' : line' = line := by
    obtain ⟨after, hafter⟩ := hd.received.received
    have hat : (client.sent.map SentMessage.plaintext)[lines.length]? = some (asBytes line') := by
      rw [← hafter, hd.lines, List.map_append, List.append_assoc,
        List.getElem?_append_right (List.length_map _).le, List.length_map, Nat.sub_self]
      rfl
    rw [List.getElem?_map, hm] at hat
    exact (asBytes_inj.1 (hline.symm.trans (Option.some_inj.1 hat))).symm
  subst hline'
  obtain ⟨rfl, -⟩ := EStateM.Result.ok.inj (hrespond.symm.trans hrespond')
  exact ⟨d, hserve, hrest, hserver, hkek', hd⟩

/-- A stream that has ended ends the connection. -/
theorem serveRequest_of_nil (r : Round σ) (hinput : c.input = []) :
    serveRequest C T handlers r c = .error (.read .unexpectedEof) c := by
  have hread : readCiphertext c = .error (.read .unexpectedEof) c := by
    rw [readCiphertext, hinput]
    rfl
  rw [serveRequest, bind_of_error hread]

/-- Every message that is left is processed and answered, when they are delivered. -/
theorem Answered.exists_end (haead : AeadCorrect C) (hclient : SentInOrder C recvKey n client)
    (hrounds : KeepsInstanceKek rounds kek) (hkek : c.session.keyModule.instanceKek = kek)
    (h : Answered C T handlers rounds client recvKey sendKey n n' s input lines responses c)
    {rest : List String} {responses' : List JsonRpcResponse}
    (hsent : client.sent.map SentMessage.plaintext = (lines ++ rest).map asBytes)
    (hlength : ∀ line ∈ rest, (asBytes line).length ≤ maxRequestLineBytes)
    (hinput : c.input =
      (client.sent.drop lines.length).flatMap (serverFraming.write ·.ciphertext))
    (hrespond : respondAll T handlers rounds lines.length rest c.server = .ok responses' t)
    (hbreaks : ∀ k, (rounds k).breaks = none)
    (hcounter : n'.toNat + (lines ++ rest).length < 2 ^ 64) {fuel : ℕ}
    (hfuel : rest.length < fuel) :
    ∃ d, serveRequests C T handlers rounds fuel lines.length c =
        .error (.read .unexpectedEof) d ∧
      Answered C T handlers rounds client recvKey sendKey n n' s input (lines ++ rest)
        (responses ++ responses') d := by
  induction rest generalizing c lines responses responses' fuel with
  | nil =>
    obtain ⟨fuel, rfl⟩ := Nat.exists_eq_add_one_of_ne_zero (Nat.ne_zero_of_lt hfuel)
    obtain ⟨rfl, rfl⟩ := pure_eq_ok.1 hrespond
    have hcount : client.sent.length = lines.length := by
      rw [← List.length_map SentMessage.plaintext, hsent, List.append_nil, List.length_map]
    rw [List.drop_of_length_le hcount.le] at hinput
    rw [List.append_nil, List.append_nil]
    exact ⟨c, bind_of_error (serveRequest_of_nil _ hinput), h⟩
  | cons line rest ih =>
    obtain ⟨fuel, rfl⟩ := Nat.exists_eq_add_one_of_ne_zero (Nat.ne_zero_of_lt hfuel)
    obtain ⟨response, u, hfirst, hrespond⟩ := bind_eq_ok.1 (modify_bind_eq_ok.1 hrespond)
    obtain ⟨responses'', v, hrest, hpure⟩ := bind_eq_ok.1 hrespond
    obtain ⟨rfl, rfl⟩ := pure_eq_ok.1 hpure
    have hat : (client.sent.map SentMessage.plaintext)[lines.length]? = some (asBytes line) := by
      rw [hsent, List.map_append, List.getElem?_append_right (List.length_map _).le,
        List.length_map, Nat.sub_self]
      rfl
    rw [List.getElem?_map] at hat
    obtain ⟨m, hm, hline⟩ := Option.map_eq_some_iff.1 hat
    obtain ⟨hlt, hget⟩ := List.getElem?_eq_some_iff.1 hm
    rw [List.drop_eq_getElem_cons hlt, hget, List.flatMap_cons] at hinput
    rw [List.length_append, List.length_cons] at hcounter
    have hn : c.session.sendNonce ≠ uint64Max := by
      have hcount := h.sent.count
      rw [← List.length_map SentMessage.plaintext, h.responses, List.length_map,
        length_respondAll h.processed] at hcount
      intro hmax
      rw [hmax] at hcount
      have : uint64Max.toNat = 2 ^ 64 - 1 := rfl
      omega
    obtain ⟨d, hserve, hinput', rfl, hkek', hd⟩ := h.next haead hclient hrounds hkek hm hline
      (hlength line List.mem_cons_self) hinput hfirst (hbreaks _) hn
    have hcount : (lines ++ [line]).length = lines.length + 1 := by
      rw [List.length_append, List.length_singleton]
    rw [← hcount] at hrest hinput'
    obtain ⟨e, hserves, he⟩ := ih hkek' hd (hsent.trans (by rw [List.append_cons]))
      (fun line hline ↦ hlength line (List.mem_cons_of_mem _ hline)) hinput' hrest
      (by rw [List.length_append, hcount]; omega) (Nat.lt_of_succ_lt_succ hfuel)
    rw [hcount] at hserves
    rw [← List.append_cons, ← List.append_cons] at he
    exact ⟨e, (bind_of_ok hserve).trans hserves, he⟩

end Rounds

/-! ### Requests sent at once -/

section Pipelined

variable {C : Sodium} {M M' : PrivkeyModule} {p q : Endpoint} {key key' : Bytes32} {n n' : UInt64}

/-- The client's end after it has sent lines. -/
def Endpoint.sendLines (C : Sodium) (p : Endpoint) (M : PrivkeyModule) (lines : List String) :
    Endpoint :=
  lines.foldl (fun p line ↦ p.sendTagged C M (asBytes line)) p

/-- The client sends all its lines when its counter has room for them, and receives nothing
meanwhile. -/
theorem SentInOrder.sendLines (haead : AeadCorrect C) {lines : List String}
    (hp : SentInOrder C key n p) (hq : ReceivedInOrder C key' n' q p)
    (hM : M.instanceKek = p.session.keyModule.instanceKek)
    (hcounter : p.session.sendNonce.toNat + lines.length < 2 ^ 64) :
    SentInOrder C key n (p.sendLines C M lines) ∧
      ReceivedInOrder C key' n' q (p.sendLines C M lines) ∧
      (p.sendLines C M lines).session.keyModule.instanceKek = M.instanceKek ∧
      (p.sendLines C M lines).sent.map SentMessage.plaintext =
        p.sent.map SentMessage.plaintext ++ lines.map asBytes ∧
      (p.sendLines C M lines).received = p.received := by
  induction lines generalizing p with
  | nil => exact ⟨hp, hq, hM.symm, (List.append_nil _).symm, rfl⟩
  | cons line lines ih =>
    rw [List.length_cons] at hcounter
    have hn : p.session.sendNonce ≠ uint64Max := by
      intro hmax
      rw [hmax] at hcounter
      have : uint64Max.toNat = 2 ^ 64 - 1 := rfl
      omega
    obtain ⟨ct, t, hrun⟩ := hp.exists_send haead hM hn (Nat.le_refl ((asBytes line).length + nhT))
    have hsent : (p.sendTagged C M (asBytes line)).sent =
        p.sent ++ [⟨p.session.sendNonce, asBytes line, ct⟩] := by
      rw [Endpoint.sendTagged, Endpoint.send_of_ok hrun]
    have hkey := (Session.secret_under hM _).trans hp.sendKey
    have hp' : SentInOrder C key n (p.sendTagged C M (asBytes line)) := hp.send hM _ _
    have hcount : (p.sendTagged C M (asBytes line)).session.sendNonce.toNat =
        p.session.sendNonce.toNat + 1 := by
      rw [hp'.count, hp.count, hsent, List.length_append, List.length_singleton, Nat.add_assoc]
    obtain ⟨hsends, hreceives, hmodule, hplaintexts, hreceived⟩ :=
      ih hp' (hq.send hp.sendKey hM _ _) (by rw [Endpoint.sendTagged, Endpoint.keyModule_send hkey])
        (by omega)
    refine ⟨hsends, hreceives, hmodule, hplaintexts.trans ?_, hreceived.trans ?_⟩
    · rw [hsent, List.map_append, List.append_assoc]
      rfl
    · exact Endpoint.received_send _ _ _ _ _

/-- A list of frames is at least as long as the list of its messages. -/
theorem length_le_length_frames (f : Framing) (messages : List Bytes) :
    messages.length ≤ (messages.flatMap f.write).length := by
  induction messages with
  | nil => exact Nat.le_refl _
  | cons m messages ih =>
    rw [List.length_cons, List.flatMap_cons, List.length_append, Framing.write, List.length_append,
      f.word.length_encode]
    omega

variable {iInit rInit : NoiseInit} {iPinned rPinned : Option Bytes32}
  {iMemory rMemory i₀ r₀ i r : Session} {env : Side → ℕ → StepEnv} {T : RpcText} {σ : Type}
  {handlers : RpcHandlers σ} {rounds : ℕ → Round σ} {s t : σ} {lines : List String}
  {responses : List JsonRpcResponse}

/-- After a handshake, a client sends lines that the server accepts, and the network delivers its
frames as they are: the server processes the lines and writes its responses, and the connection ends
at the end of the stream. The client has received nothing yet. -/
theorem exists_answered (hbox : SecretboxCorrect C) (hdh : KeyAgreementCorrect C)
    (haead : AeadCorrect C) (hi : iInit.run C iPinned true iMemory = .ok ⟨⟩ i₀)
    (hr : rInit.run C rPinned false rMemory = .ok ⟨⟩ r₀)
    (hikek : KeepsKek (env .initiator) i₀) (hrkek : KeepsKek (env .responder) r₀)
    (hroom : HasRoom env) (hexchange : exchange C env i₀ r₀ = .ok (i, r))
    (hM : M.instanceKek = i.keyModule.instanceKek)
    (hrounds : KeepsInstanceKek rounds r.keyModule.instanceKek)
    (hbreaks : ∀ k, (rounds k).breaks = none)
    (hlength : ∀ line ∈ lines, (asBytes line).length ≤ maxRequestLineBytes)
    (hicounter : i.sendNonce.toNat + lines.length < 2 ^ 64)
    (hrcounter : r.sendNonce.toNat + lines.length < 2 ^ 64)
    (hrespond : respondAll T handlers rounds 0 lines s = .ok responses t) :
    ∃ (key : Side → Bytes32) (d : Connection σ),
      handleConnection C T handlers rounds
          ⟨.start r, s, ((Endpoint.start i).sendLines C M lines).sent.flatMap
            (clientFraming.write ·.ciphertext), []⟩ = .error (.read .unexpectedEof) d ∧
        d.server = t ∧
        Answered C T handlers rounds ((Endpoint.start i).sendLines C M lines) (key .initiator)
          (key .responder) i.sendNonce r.sendNonce s
          (((Endpoint.start i).sendLines C M lines).sent.flatMap (clientFraming.write ·.ciphertext))
          lines responses d ∧
        SentInOrder C (key .initiator) i.sendNonce ((Endpoint.start i).sendLines C M lines) ∧
        ReceivedInOrder C (key .responder) r.sendNonce d.toEndpoint
          ((Endpoint.start i).sendLines C M lines) ∧
        ((Endpoint.start i).sendLines C M lines).session.keyModule.instanceKek = M.instanceKek ∧
        ((Endpoint.start i).sendLines C M lines).received = [] := by
  obtain ⟨key, hstart⟩ :=
    exists_inOrder_of_exchange hbox hdh haead hi hr hikek hrkek hroom hexchange
  have hreceived := hstart.received .responder
  obtain ⟨hsends, hreceives, hmodule, hplaintexts, hnone⟩ :=
    (hstart.sent .initiator).sendLines haead (hstart.received .initiator) hM hicounter
  have hstarted : Answered C T handlers rounds ((Endpoint.start i).sendLines C M lines)
      (key .initiator) (key .responder) i.sendNonce r.sendNonce s
      (((Endpoint.start i).sendLines C M lines).sent.flatMap (clientFraming.write ·.ciphertext))
      [] [] ⟨.start r, s, ((Endpoint.start i).sendLines C M lines).sent.flatMap
            (clientFraming.write ·.ciphertext), []⟩ :=
    ⟨⟨[], rfl⟩, rfl, rfl, ⟨hreceived.recvKey, hreceived.count, List.nil_prefix⟩,
      hstart.sent .responder, rfl, rfl⟩
  have hcount : lines.length ≤ (((Endpoint.start i).sendLines C M lines).sent.flatMap
      (clientFraming.write ·.ciphertext)).length := by
    have hle := length_le_length_frames clientFraming
      (((Endpoint.start i).sendLines C M lines).sent.map SentMessage.ciphertext)
    rw [List.length_map, List.flatMap_map] at hle
    have hall := congrArg List.length hplaintexts
    rw [List.length_append, List.length_map, List.length_map, List.length_map] at hall
    exact (Nat.le_add_left _ _).trans (hall.symm.le.trans hle)
  obtain ⟨d, hserves, hd⟩ := hstarted.exists_end haead hsends hrounds rfl hplaintexts hlength rfl
    hrespond hbreaks hrcounter (Nat.lt_succ_of_le hcount)
  have hserver := hd.processed
  rw [List.nil_append, hrespond] at hserver
  obtain ⟨-, rfl⟩ := EStateM.Result.ok.inj hserver
  exact ⟨key, d, hserves, rfl, hd, hsends, hreceives.mono List.nil_prefix, hmodule, hnone⟩

/-- The client reads the server's output as one frame for each message that was sent. -/
theorem Answered.readMany_output (haead : AeadCorrect C) {client : Endpoint}
    {recvKey sendKey : Bytes32} {n n' : UInt64} {input : Bytes} {d : Connection σ}
    (h : Answered C T handlers rounds client recvKey sendKey n n' s input lines responses d)
    (hsmall : ∀ response ∈ responses, (responseBytes T response).length + nhT < 2 ^ 32) :
    clientFraming.readMany lines.length d.output =
      .ok (d.sent.map SentMessage.ciphertext, []) := by
  have hcts : (d.sent.map SentMessage.ciphertext).length = lines.length := by
    rw [List.length_map, ← List.length_map SentMessage.plaintext, h.responses, List.length_map,
      length_respondAll h.processed]
  have hfits : ∀ ct ∈ d.sent.map SentMessage.ciphertext, clientFraming.Fits ct := by
    intro ct hct
    obtain ⟨m, hm, rfl⟩ := List.mem_map.1 hct
    obtain ⟨k, hk⟩ := List.mem_iff_getElem?.1 hm
    obtain ⟨response, hresponse, heq⟩ :=
      List.mem_map.1 (h.responses ▸ List.mem_map_of_mem hm)
    refine ⟨?_, nofun⟩
    rw [haead.length_eq (h.sent.encrypted hk).2.2, ← heq]
    exact hsmall response hresponse
  rw [h.output, ← hcts]
  exact List.flatMap_map .. ▸ Framing.readMany_write_iff.2 hfits

/-- **Requests sent at once are answered in order.** After a handshake, the client sends lines that
the server accepts, and the network delivers its frames as they are. If the server processes the
lines one after the other without a panic, the connection ends at the end of the stream with the
server in the state that this leaves, and the client reads from what was written the responses, in
the order of their lines. -/
theorem pipelined_requests (hbox : SecretboxCorrect C) (hdh : KeyAgreementCorrect C)
    (haead : AeadCorrect C) (hi : iInit.run C iPinned true iMemory = .ok ⟨⟩ i₀)
    (hr : rInit.run C rPinned false rMemory = .ok ⟨⟩ r₀)
    (hikek : KeepsKek (env .initiator) i₀) (hrkek : KeepsKek (env .responder) r₀)
    (hroom : HasRoom env) (hexchange : exchange C env i₀ r₀ = .ok (i, r))
    (hM : M.instanceKek = i.keyModule.instanceKek)
    (hM' : M'.instanceKek = i.keyModule.instanceKek)
    (hrounds : KeepsInstanceKek rounds r.keyModule.instanceKek)
    (hbreaks : ∀ k, (rounds k).breaks = none)
    (hlength : ∀ line ∈ lines, (asBytes line).length ≤ maxRequestLineBytes)
    (hicounter : i.sendNonce.toNat + lines.length < 2 ^ 64)
    (hrcounter : r.sendNonce.toNat + lines.length < 2 ^ 64)
    (hrespond : respondAll T handlers rounds 0 lines s = .ok responses t)
    (hsmall : ∀ response ∈ responses, (responseBytes T response).length + nhT < 2 ^ 32) :
    ∃ d cts,
      handleConnection C T handlers rounds
          ⟨.start r, s, ((Endpoint.start i).sendLines C M lines).sent.flatMap
            (clientFraming.write ·.ciphertext), []⟩ = .error (.read .unexpectedEof) d ∧
        d.server = t ∧ clientFraming.readMany lines.length d.output = .ok (cts, []) ∧
        (cts.foldl (fun p ct ↦ p.receive C M' ct)
          ((Endpoint.start i).sendLines C M lines)).received = responses.map (responseBytes T) := by
  obtain ⟨key, d, hserves, hserver, hd, hsends, hreceives, hmodule, hnone⟩ :=
    exists_answered hbox hdh haead hi hr hikek hrkek hroom hexchange hM hrounds hbreaks hlength
      hicounter hrcounter hrespond
  refine ⟨d, _, hserves, hserver, hd.readMany_output haead hsmall, ?_⟩
  rw [List.foldl_map]
  exact (hreceives.receive_all haead hd.sent (List.nil_append d.sent).symm hsends
    (congrArg List.length hnone) (hM'.trans (hM.symm.trans hmodule.symm))).trans hd.responses

theorem length_pingText : (asBytes pingText).length ≤ maxRequestLineBytes := by decide +kernel

theorem instanceKek_sampleSessions :
    PrivkeyModule.zeroKek.instanceKek = sampleSessions.1.keyModule.instanceKek := by decide +kernel

theorem pipelined_requests_pings :
    ∃ d cts,
      handleConnection .transparent .pings pingHandlers sampleRounds
          ⟨.start sampleSessions.2, 0, ((Endpoint.start sampleSessions.1).sendLines .transparent
            .zeroKek [pingText, pingText]).sent.flatMap (clientFraming.write ·.ciphertext), []⟩ =
          .error (.read .unexpectedEof) d ∧
        d.server = 2 ∧ clientFraming.readMany 2 d.output = .ok (cts, []) ∧
        (cts.foldl (fun p ct ↦ p.receive .transparent .zeroKek ct)
          ((Endpoint.start sampleSessions.1).sendLines .transparent .zeroKek
            [pingText, pingText])).received =
          [responseBytes .pings pong, responseBytes .pings pong] :=
  pipelined_requests secretboxCorrect_transparent keyAgreementCorrect_transparent
    aeadCorrect_transparent (sample_eq 5 true) (sample_eq 7 false)
    (keepsKek_sampleEnv .initiator 5 true) (keepsKek_sampleEnv .responder 7 false)
    hasRoom_sampleEnv exchange_samples instanceKek_sampleSessions instanceKek_sampleSessions
    keepsInstanceKek_sampleRounds (fun _ ↦ rfl) (by simpa using length_pingText)
    (by decide +kernel) (by decide +kernel)
    (show respondAll .pings pingHandlers sampleRounds 0 [pingText, pingText] 0 =
      .ok [pong, pong] 2 from rfl)
    (fun response h ↦ by
      obtain rfl : response = pong := by simpa using h
      decide +kernel)

end Pipelined

/-! ### A call over a connection of its own -/

section RemoteCall

variable (C : Sodium) (T : RpcText) {σ : Type} (handlers : RpcHandlers σ) (rounds : ℕ → Round σ)

/-- The text of an error of the C core. -/
def coreErrorText (code : ForetiasResult) : String :=
  match stopOfCode code with
  | .err e => toString e
  | .panic => ""

/-- `noise_json_rpc` after the handshake, up to its last write: the frame that it writes. -/
def writeRequest (session : Session) (M : PrivkeyModule) (request : JsonValue) :
    Except PtPError (Bytes × Session) :=
  let line := asBytes (T.render request)
  match foretiasNoiseSend C line (line.length + nhT) (session.under M) with
  | .error e _ => .error (.noise (coreErrorText e))
  | .ok ciphertext session => .ok (clientFraming.write ciphertext, session)

/-- `noise_json_rpc` from its first read to the value that it reads, of a stream. -/
def readAnswer (session : Session) (M : PrivkeyModule) (stream : Bytes) :
    Except PtPError JsonValue :=
  match (clientFraming.read stream).result with
  | .error _ => .error (.connect "early eof")
  | .ok (ciphertext, _) =>
    match foretiasNoiseRecv C ciphertext (session.under M) with
    | .error e _ => .error (.decode (coreErrorText e))
    | .ok plaintext _ => (T.parseBytes plaintext).mapError .decode

/-- The exchange of `noise_json_rpc` after the handshake; `reply` is what the peer makes of what it
gets. -/
def noiseRequest (session : Session) (M M' : PrivkeyModule) (reply : Bytes → Bytes)
    (request : JsonValue) : Except PtPError JsonValue := do
  let (frame, session) ← writeRequest C T session M request
  readAnswer C T session M' (reply frame)

/-- The connection of a server that gets some bytes. -/
def serverConnection (session : Session) (s : σ) (input : Bytes) : Connection σ :=
  finalState (handleConnection C T handlers rounds ⟨.start session, s, input, []⟩)

variable {C T handlers rounds} {M M' : PrivkeyModule} {p : Endpoint} {iInit rInit : NoiseInit}
  {iPinned rPinned : Option Bytes32} {iMemory rMemory i₀ r₀ i r : Session}
  {env : Side → ℕ → StepEnv} {s t : σ}

/-- A receive that adds a plaintext has opened it. -/
theorem recv_of_receive {ct pt : Bytes}
    (h : (p.receive C M ct).received = p.received ++ [pt]) :
    ∃ t, foretiasNoiseRecv C ct (p.session.under M) = .ok pt t := by
  rw [Endpoint.receive] at h
  rcases hrun : foretiasNoiseRecv C ct (p.session.under M) with ⟨pt', t⟩ | ⟨e, t⟩
  · rw [hrun] at h
    obtain rfl := List.singleton_inj.1 (List.append_cancel_left h)
    exact ⟨t, rfl⟩
  · rw [hrun] at h
    have hlength := congrArg List.length h
    rw [List.length_append, List.length_singleton] at hlength
    exact absurd hlength (Nat.ne_of_lt (Nat.lt_succ_self _))

/-- A request that the server responds to is answered with the response, over a connection that the
network leaves alone, and the server is left as the response leaves it. -/
theorem noiseRequest_of_respond (hbox : SecretboxCorrect C) (hdh : KeyAgreementCorrect C)
    (haead : AeadCorrect C) (hi : iInit.run C iPinned true iMemory = .ok ⟨⟩ i₀)
    (hr : rInit.run C rPinned false rMemory = .ok ⟨⟩ r₀)
    (hikek : KeepsKek (env .initiator) i₀) (hrkek : KeepsKek (env .responder) r₀)
    (hroom : HasRoom env) (hexchange : exchange C env i₀ r₀ = .ok (i, r))
    (hM : M.instanceKek = i.keyModule.instanceKek)
    (hM' : M'.instanceKek = i.keyModule.instanceKek)
    (hrounds : KeepsInstanceKek rounds r.keyModule.instanceKek)
    (hbreaks : ∀ k, (rounds k).breaks = none)
    (hicounter : i.sendNonce.toNat + 1 < 2 ^ 64) (hrcounter : r.sendNonce.toNat + 1 < 2 ^ 64)
    {request : JsonValue} {response : JsonRpcResponse}
    (hrespond : respond T handlers (T.render request) ((rounds 0).others s) = .ok response t)
    (hlength : (asBytes (T.render request)).length ≤ maxRequestLineBytes)
    (hresponse : T.parseBytes (responseBytes T response) = .ok response.toJson)
    (hsmall : (responseBytes T response).length + nhT < 2 ^ 32) :
    noiseRequest C T i M M'
        (fun input ↦ (serverConnection C T handlers rounds r s input).output) request =
        .ok response.toJson ∧
      ∀ frame i', writeRequest C T i M request = .ok (frame, i') →
        (serverConnection C T handlers rounds r s frame).server = t := by
  have hall : respondAll T handlers rounds 0 [T.render request] s = .ok [response] t :=
    (bind_of_ok (modify_apply _ _)).trans (bind_of_ok hrespond)
  obtain ⟨key, d, hserve, rfl, hd, hsends, hreceives, hmodule, hnone⟩ :=
    exists_answered hbox hdh haead hi hr hikek hrkek hroom hexchange hM hrounds hbreaks
      (List.forall_mem_singleton.2 hlength) hicounter hrcounter hall
  have hframes := hd.readMany_output haead (List.forall_mem_singleton.2 hsmall)
  obtain ⟨m, hm⟩ : ∃ m, d.sent = [m] := by
    have hone := congrArg List.length hd.responses
    rw [List.length_map] at hone
    exact List.length_eq_one_iff.1 hone
  have hreceived : _ = d.sent.map SentMessage.plaintext :=
    hreceives.receive_all haead hd.sent (List.nil_append d.sent).symm hsends
      (congrArg List.length hnone) (hM'.trans (hM.symm.trans hmodule.symm))
  rw [hm] at hframes hreceived
  obtain ⟨key', hstart⟩ :=
    exists_inOrder_of_exchange hbox hdh haead hi hr hikek hrkek hroom hexchange
  have hn : i.sendNonce ≠ uint64Max := by
    intro hmax
    rw [hmax] at hicounter
    exact absurd hicounter (Nat.lt_irrefl _)
  obtain ⟨ct, i', hsend⟩ : ∃ ct i', foretiasNoiseSend C _ _ (i.under M) = .ok ct i' :=
    (hstart.sent .initiator).exists_send haead hM hn
      (Nat.le_refl ((asBytes (T.render request)).length + nhT))
  have hsent : (Endpoint.start i).sendLines C M [T.render request] =
      ⟨i', [⟨i.sendNonce, asBytes (T.render request), ct⟩], []⟩ :=
    Endpoint.send_of_ok hsend
  have hwrite : writeRequest C T i M request = .ok (clientFraming.write ct, i') := by
    rw [writeRequest, hsend]
  rw [hsent] at hserve hreceived
  have hconnection : serverConnection C T handlers rounds r s (clientFraming.write ct) = d := by
    rw [List.flatMap_singleton] at hserve
    rw [serverConnection, hserve, finalState_error]
  obtain ⟨ct', rest, ms, hframe, hend, hcts⟩ := Framing.readMany_succ_eq_ok.1 hframes
  obtain ⟨rfl, rfl⟩ := Prod.mk.inj (Except.ok.inj hend)
  obtain rfl : m.ciphertext = ct' := (List.cons.inj hcts).1
  have hplaintext : m.plaintext = responseBytes T response := by
    have hone := hd.responses
    rw [hm] at hone
    exact (List.cons.inj hone).1
  obtain ⟨_, hrecv⟩ := recv_of_receive (p := ⟨i', _, []⟩) hreceived
  refine ⟨?_, fun frame i'' h ↦ ?_⟩
  · rw [noiseRequest, hwrite]
    show readAnswer C T i' M' (serverConnection C T handlers rounds r s _).output = _
    rw [hconnection, readAnswer, hframe]
    dsimp only
    rw [hrecv]
    dsimp only
    rw [hplaintext, hresponse]
    rfl
  · obtain ⟨rfl, -⟩ := Prod.mk.inj (Except.ok.inj (hwrite.symm.trans h))
    rw [hconnection]

/-- **A remote call is a local call.** Over a connection that the network leaves alone, a caller of
`noise_json_rpc` gets what the method's handler answers at the server, be it a result or an error,
and the server is left as the handler leaves it. -/
theorem noiseJsonRpc_eq_local (hbox : SecretboxCorrect C) (hdh : KeyAgreementCorrect C)
    (haead : AeadCorrect C) (hi : iInit.run C iPinned true iMemory = .ok ⟨⟩ i₀)
    (hr : rInit.run C rPinned false rMemory = .ok ⟨⟩ r₀)
    (hikek : KeepsKek (env .initiator) i₀) (hrkek : KeepsKek (env .responder) r₀)
    (hroom : HasRoom env) (hexchange : exchange C env i₀ r₀ = .ok (i, r))
    (hM : M.instanceKek = i.keyModule.instanceKek)
    (hM' : M'.instanceKek = i.keyModule.instanceKek)
    (hrounds : KeepsInstanceKek rounds r.keyModule.instanceKek)
    (hbreaks : ∀ k, (rounds k).breaks = none)
    (hicounter : i.sendNonce.toNat + 1 < 2 ^ 64) (hrcounter : r.sendNonce.toNat + 1 < 2 ^ 64)
    {method : String}
    {params : JsonValue} {answer : Except PtPError JsonValue}
    (hlocal : localCall handlers method params ((rounds 0).others s) = .ok answer t)
    (hlength : (asBytes (T.render (rpcRequest method params))).length ≤ maxRequestLineBytes)
    (hparse : T.parse (T.render (rpcRequest method params)) = .ok (rpcRequest method params))
    (hread : ∀ response, respond T handlers (T.render (rpcRequest method params))
      ((rounds 0).others s) = .ok response t →
        T.parseBytes (responseBytes T response) = .ok response.toJson ∧
          (responseBytes T response).length + nhT < 2 ^ 32)
    (J : JsonFormat) (server : String) (timeoutSecs : UInt64) :
    noiseJsonRpc J (fun _ _ request ↦ noiseRequest C T i M M'
        (fun input ↦ (serverConnection C T handlers rounds r s input).output) request)
        server method params timeoutSecs = answer ∧
      ∀ frame i', writeRequest C T i M (rpcRequest method params) = .ok (frame, i') →
        (serverConnection C T handlers rounds r s frame).server = t := by
  obtain ⟨response, hrespond, rfl⟩ := respond_of_localCall hparse hlocal
  obtain ⟨hresponse, hsmall⟩ := hread response hrespond
  obtain ⟨hrequest, hserver⟩ :=
    noiseRequest_of_respond hbox hdh haead hi hr hikek hrkek hroom hexchange hM hM' hrounds hbreaks
      hicounter hrcounter hrespond hlength hresponse hsmall
  exact ⟨noiseJsonRpc_of_response hrequest, hserver⟩

end RemoteCall

theorem noiseJsonRpc_eq_local_ping :
    noiseJsonRpc .zero (fun _ _ request ↦ noiseRequest .transparent .pings sampleSessions.1
        .zeroKek .zeroKek (fun input ↦ (serverConnection .transparent .pings pingHandlers
          sampleRounds sampleSessions.2 0 input).output) request)
        "127.0.0.1:9000" "ping" (.object []) 5 = .ok (.object [("pong", .bool true)]) ∧
      ∀ frame i', writeRequest .transparent .pings sampleSessions.1 .zeroKek
          (rpcRequest "ping" (.object [])) = .ok (frame, i') →
        (serverConnection .transparent .pings pingHandlers sampleRounds sampleSessions.2 0
          frame).server = 1 :=
  noiseJsonRpc_eq_local secretboxCorrect_transparent keyAgreementCorrect_transparent
    aeadCorrect_transparent (sample_eq 5 true) (sample_eq 7 false)
    (keepsKek_sampleEnv .initiator 5 true) (keepsKek_sampleEnv .responder 7 false)
    hasRoom_sampleEnv exchange_samples instanceKek_sampleSessions instanceKek_sampleSessions
    keepsInstanceKek_sampleRounds (fun _ ↦ rfl) (by decide +kernel) (by decide +kernel)
    rfl length_pingText rfl
    (fun response h ↦ by
      obtain ⟨rfl, -⟩ := EStateM.Result.ok.inj ((respond_pings 0).symm.trans h)
      exact ⟨rfl, by decide +kernel⟩)
    .zero "127.0.0.1:9000" 5

end Foretias

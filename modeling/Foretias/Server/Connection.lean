import Foretias.C11.NoiseChannel
import Foretias.Server.FrameCodecs
import Foretias.Server.JsonRpc

/-!
# A connection of the TCP server

`handle_connection` reads a frame, opens it, calls `process_request`, encrypts the response and
writes it, until something fails. It runs over a stream that the network controls, beside other
connections to the same server, which may change the server between two requests.

* `handleConnection_answers` — a connection ends, and what it did is this: it processed a beginning
  of what the client sent, each request once and in order, and wrote the response of each before it
  read the next; the last request may be left without its response.
-/

namespace Foretias

open ErrorState

/-! ### The loop -/

/-- A connection of a server whose state is a `σ`. -/
structure Connection (σ : Type) extends Endpoint where
  /-- The server. -/
  server : σ
  /-- What the stream still delivers before it ends. -/
  input : Bytes
  /-- What has been written to the stream. -/
  output : Bytes

/-- What a round of the loop meets. -/
structure Round (σ : Type) where
  /-- The key module at the time of the decryption. -/
  recvModule : PrivkeyModule
  /-- The key module at the time of the encryption. -/
  sendModule : PrivkeyModule
  /-- What others have done to the server. -/
  others : σ → σ
  /-- How much the stream takes of the response, where it breaks. -/
  breaks : Option ℕ

/-- Why a connection ends. -/
inductive ConnectionEnd
  | read (e : FrameError)
  | decrypt
  | utf8
  | lineTooLong
  | panic
  | encrypt
  | write
  deriving DecidableEq

/-- A procedure of the loop. -/
abbrev ConnectionM (σ : Type) := EStateM ConnectionEnd (Connection σ)

section Loop

variable (C : Sodium) (T : RpcText) {σ : Type} (handlers : RpcHandlers σ)

/-- `read_length_prefixed`. -/
def readCiphertext : ConnectionM σ Bytes := fun c ↦
  match (serverFraming.read c.input).result with
  | .ok (data, rest) => .ok data { c with input := rest }
  | .error e => .error (.read e) c

/-- `session.recv`. -/
def recvPlaintext (M : PrivkeyModule) (ciphertext : Bytes) : ConnectionM σ Bytes := fun c ↦
  let c' := { c with toEndpoint := c.toEndpoint.receive C M ciphertext }
  match foretiasNoiseRecv C ciphertext (c.session.under M) with
  | .ok plaintext _ => .ok plaintext c'
  | .error _ _ => .error .decrypt c'

/-- `process_request`, and the response that is made of its error. -/
def answer (line : String) : ConnectionM σ JsonRpcResponse := fun c ↦
  match respond T handlers line c.server with
  | .ok response s => .ok response { c with server := s }
  | .error _ s => .error .panic { c with server := s }

/-- What `session.send` makes of an end: it gives the ciphertext room for its tag. -/
def Endpoint.sendTagged (p : Endpoint) (M : PrivkeyModule) (plaintext : Bytes) : Endpoint :=
  p.send C M plaintext (plaintext.length + nhT)

/-- `session.send`. -/
def sendPlaintext (M : PrivkeyModule) (plaintext : Bytes) : ConnectionM σ Bytes := fun c ↦
  let c' := { c with toEndpoint := c.toEndpoint.sendTagged C M plaintext }
  match foretiasNoiseSend C plaintext (plaintext.length + nhT) (c.session.under M) with
  | .ok ciphertext _ => .ok ciphertext c'
  | .error _ _ => .error .encrypt c'

/-- `write_length_prefixed`. -/
def writeCiphertext (breaks : Option ℕ) (ciphertext : Bytes) : ConnectionM σ PUnit := fun c ↦
  let frame := serverFraming.write ciphertext
  match breaks with
  | none => .ok ⟨⟩ { c with output := c.output ++ frame }
  | some n => .error .write { c with output := c.output ++ frame.take n }

/-- The bytes of a response. -/
def responseBytes (response : JsonRpcResponse) : Bytes := asBytes (T.render response.toJson)

/-- The end of a round: the response is encrypted and written. -/
def sendResponse (r : Round σ) (response : JsonRpcResponse) : ConnectionM σ PUnit := do
  let ciphertext ← sendPlaintext C r.sendModule (responseBytes T response)
  writeCiphertext r.breaks ciphertext

/-- The round from the decrypted message on. -/
def handlePlaintext (r : Round σ) (plaintext : Bytes) : ConnectionM σ PUnit := do
  let line ← ofOption .utf8 (fromUtf8? plaintext)
  require ((asBytes line).length ≤ maxRequestLineBytes) .lineTooLong
  modify fun c ↦ { c with server := r.others c.server }
  let response ← answer T handlers line
  sendResponse C T r response

/-- One round of the loop. -/
def serveRequest (r : Round σ) : ConnectionM σ PUnit := do
  let ciphertext ← readCiphertext
  let plaintext ← recvPlaintext C r.recvModule ciphertext
  handlePlaintext C T handlers r plaintext

/-- The rounds from the `k`-th on, at most `fuel` of them. -/
def serveRequests (rounds : ℕ → Round σ) : ℕ → ℕ → ConnectionM σ PUnit
  | 0, _ => pure ⟨⟩
  | fuel + 1, k => do
    serveRequest C T handlers (rounds k)
    serveRequests rounds fuel (k + 1)

/-- `handle_connection` after the handshake. A round takes at least one byte from the stream, so
there are fewer rounds than bytes. -/
def handleConnection (rounds : ℕ → Round σ) : ConnectionM σ PUnit := do
  let c ← get
  serveRequests C T handlers rounds (c.input.length + 1) 0

end Loop

/-! ### What a connection has done -/

section Answers

variable (C : Sodium) (T : RpcText) {σ : Type} (handlers : RpcHandlers σ) (rounds : ℕ → Round σ)

/-- The responses to lines that are processed one after the other, from the `k`-th round on. -/
def respondAll : ℕ → List String → EStateM PUnit σ (List JsonRpcResponse)
  | _, [] => pure []
  | k, line :: lines => do
    modify (rounds k).others
    let response ← respond T handlers line
    let responses ← respondAll (k + 1) lines
    pure (response :: responses)

/-- A connection whose server was `s` and whose stream was `input` has processed the lines that it
received from the client, and has written its responses; `recvKey` and `sendKey` are the keys of the
transport, and `n` and `n'` the counters that it began with. -/
structure Answered (client : Endpoint) (recvKey sendKey : Bytes32) (n n' : UInt64) (s : σ)
    (input : Bytes) (lines : List String) (responses : List JsonRpcResponse) (c : Connection σ) :
    Prop where
  /-- Each line took a frame. -/
  frames : ∃ cts, serverFraming.readMany lines.length input = .ok (cts, c.input)
  /-- The lines were processed one after the other. -/
  processed : respondAll T handlers rounds 0 lines s = .ok responses c.server
  /-- They are what was received. -/
  lines : c.received = lines.map asBytes
  /-- What was received is a beginning of what the client sent. -/
  received : ReceivedInOrder C recvKey n client c.toEndpoint
  /-- What was sent was encrypted under the counter's values. -/
  sent : SentInOrder C sendKey n' c.toEndpoint
  /-- It is the responses. -/
  responses : c.sent.map SentMessage.plaintext = responses.map (responseBytes T)
  /-- It was written. -/
  output : c.output = c.sent.flatMap (serverFraming.write ·.ciphertext)

/-- What a connection may still do after it has answered, before it ends: receive one message more,
process it, and write a part of its response. -/
structure Unfinished (client : Endpoint) (others : σ → σ) (c d : Connection σ) : Prop where
  /-- What it received. -/
  received : d.received <+: client.sent.map SentMessage.plaintext
  /-- This is what it had received, and at most one message more. -/
  last : d.received = c.received ∨ ∃ plaintext, d.received = c.received ++ [plaintext]
  /-- The server has not changed, or has processed this message. -/
  server : d.server = c.server ∨ ∃ line, d.received = c.received ++ [asBytes line] ∧
    d.server = finalState (respond T handlers line (others c.server))
  /-- What it wrote is a part of the one response that it made. -/
  output : d.output = c.output ∨ ∃ m, d.sent = c.sent ++ [m] ∧
    ∃ part, part <+: serverFraming.write m.ciphertext ∧ d.output = c.output ++ part

variable {C T handlers rounds}

/-! ### The steps of a round -/

/-- The frame of a line that the server accepts is one that it accepts. -/
theorem fits_of_line {k : Bytes32} {nonce line ct : Bytes} (haead : AeadCorrect C)
    (hct : C.aeadEncrypt k nonce [] line = some ct) (hlength : line.length ≤ maxRequestLineBytes) :
    serverFraming.Fits ct := by
  have hct := haead.length_eq hct
  have htag : nhT = 16 := rfl
  rw [maxRequestLineBytes] at hlength
  refine ⟨by omega, fun l hl ↦ ?_⟩
  obtain rfl := Option.some_inj.1 hl
  show ct.length ≤ maxRequestLineBytes + 65535
  rw [maxRequestLineBytes]
  omega

/-- Each line has its response. -/
theorem length_respondAll {k : ℕ} {lines : List String} {responses : List JsonRpcResponse}
    {s t : σ} (h : respondAll T handlers rounds k lines s = .ok responses t) :
    responses.length = lines.length := by
  induction lines generalizing k responses s with
  | nil =>
    obtain ⟨rfl, -⟩ := pure_eq_ok.1 h
    rfl
  | cons first lines ih =>
    obtain ⟨r, v, -, h⟩ := bind_eq_ok.1 (modify_bind_eq_ok.1 h)
    obtain ⟨rs, w, hrest, hpure⟩ := bind_eq_ok.1 h
    obtain ⟨rfl, rfl⟩ := pure_eq_ok.1 hpure
    rw [List.length_cons, List.length_cons, ih hrest]

/-- One line more. -/
theorem respondAll_concat {k : ℕ} {lines : List String} {line : String}
    {responses : List JsonRpcResponse} {response : JsonRpcResponse} {s t u : σ}
    (h : respondAll T handlers rounds k lines s = .ok responses t)
    (hlast : respond T handlers line ((rounds (k + lines.length)).others t) = .ok response u) :
    respondAll T handlers rounds k (lines ++ [line]) s = .ok (responses ++ [response]) u := by
  induction lines generalizing k responses s with
  | nil =>
    obtain ⟨rfl, rfl⟩ := pure_eq_ok.1 h
    exact (bind_of_ok (modify_apply _ _)).trans (bind_of_ok hlast)
  | cons first lines ih =>
    obtain ⟨r, v, hfirst, hrest⟩ := bind_eq_ok.1 (modify_bind_eq_ok.1 h)
    obtain ⟨rs, w, hrest, hpure⟩ := bind_eq_ok.1 hrest
    obtain ⟨rfl, rfl⟩ := pure_eq_ok.1 hpure
    rw [List.length_cons, ← Nat.add_assoc, Nat.add_right_comm] at hlast
    refine modify_bind_eq_ok.2 (bind_eq_ok.2 ⟨r, v, hfirst, ?_⟩)
    exact bind_eq_ok.2 ⟨_, _, ih hrest hlast, rfl⟩

variable {c d : Connection σ} {M : PrivkeyModule} {e : ConnectionEnd}

/-- A ciphertext that is read is the next frame of the input. -/
theorem readCiphertext_eq_ok {ct : Bytes} (h : readCiphertext c = .ok ct d) :
    ∃ rest, (serverFraming.read c.input).result = .ok (ct, rest) ∧
      d = { c with input := rest } := by
  rw [readCiphertext] at h
  rcases hread : (serverFraming.read c.input).result with e | ⟨data, rest⟩
  · rw [hread] at h
    cases h
  · rw [hread] at h
    obtain ⟨rfl, rfl⟩ := EStateM.Result.ok.inj h
    exact ⟨rest, rfl, rfl⟩

theorem readCiphertext_eq_error (h : readCiphertext c = .error e d) : d = c := by
  rw [readCiphertext] at h
  rcases hread : (serverFraming.read c.input).result with e' | ⟨data, rest⟩
  · rw [hread] at h
    exact (EStateM.Result.error.inj h).2.symm
  · rw [hread] at h
    cases h

/-- A ciphertext that decrypts is received. -/
theorem recvPlaintext_of_ok {ct pt : Bytes} {t : Session}
    (h : foretiasNoiseRecv C ct (c.session.under M) = .ok pt t) :
    recvPlaintext C M ct c = .ok pt { c with toEndpoint := c.toEndpoint.receive C M ct } := by
  rw [recvPlaintext]
  dsimp only
  rw [h]

/-- A receive that succeeds adds its plaintext to what was received. -/
theorem recvPlaintext_eq_ok {ct pt : Bytes} (h : recvPlaintext C M ct c = .ok pt d) :
    d = { c with toEndpoint := c.toEndpoint.receive C M ct } ∧
      (c.toEndpoint.receive C M ct).received = c.received ++ [pt] := by
  rw [recvPlaintext] at h
  rcases hrun : foretiasNoiseRecv C ct (c.session.under M) with ⟨pt', t⟩ | ⟨e, t⟩
  · rw [hrun] at h
    obtain ⟨rfl, rfl⟩ := EStateM.Result.ok.inj h
    refine ⟨rfl, ?_⟩
    rw [Endpoint.receive, hrun]
  · rw [hrun] at h
    cases h

theorem recvPlaintext_eq_error {ct : Bytes} (h : recvPlaintext C M ct c = .error e d) :
    d = { c with toEndpoint := c.toEndpoint.receive C M ct } ∧ d.received = c.received := by
  rw [recvPlaintext] at h
  rcases hrun : foretiasNoiseRecv C ct (c.session.under M) with ⟨pt', t⟩ | ⟨e, t⟩
  · rw [hrun] at h
    cases h
  · rw [hrun] at h
    obtain ⟨-, rfl⟩ := EStateM.Result.error.inj h
    refine ⟨rfl, ?_⟩
    show (c.toEndpoint.receive C M ct).received = c.received
    rw [Endpoint.receive, hrun]

/-- A request that is answered leaves the server as its handler does. -/
theorem answer_of_ok {line : String} {response : JsonRpcResponse} {s : σ}
    (h : respond T handlers line c.server = .ok response s) :
    answer T handlers line c = .ok response { c with server := s } := by
  rw [answer, h]

/-- So does one whose handler panics. -/
theorem answer_of_error {line : String} {s : σ}
    (h : respond T handlers line c.server = .error ⟨⟩ s) :
    answer T handlers line c = .error .panic { c with server := s } := by
  rw [answer, h]

/-- A response that encrypts is sent. -/
theorem sendPlaintext_of_ok {pt ct : Bytes} {t : Session}
    (h : foretiasNoiseSend C pt (pt.length + nhT) (c.session.under M) = .ok ct t) :
    sendPlaintext C M pt c = .ok ct { c with toEndpoint := c.toEndpoint.sendTagged C M pt } := by
  rw [sendPlaintext]
  dsimp only
  rw [h]

/-- A send that succeeds adds its message to what was sent. -/
theorem sendPlaintext_eq_ok {pt ct : Bytes} (h : sendPlaintext C M pt c = .ok ct d) :
    d = { c with toEndpoint := c.toEndpoint.sendTagged C M pt } ∧
      (c.toEndpoint.sendTagged C M pt).sent = c.sent ++ [⟨c.session.sendNonce, pt, ct⟩] ∧
      (c.toEndpoint.sendTagged C M pt).received = c.received := by
  rw [sendPlaintext] at h
  rcases hrun : foretiasNoiseSend C pt (pt.length + nhT) (c.session.under M) with ⟨ct', t⟩ | ⟨e, t⟩
  · rw [hrun] at h
    obtain ⟨rfl, rfl⟩ := EStateM.Result.ok.inj h
    refine ⟨rfl, ?_, ?_⟩
    all_goals rw [Endpoint.sendTagged, Endpoint.send, hrun]
  · rw [hrun] at h
    cases h

/-- One that does not leaves all but the session alone. -/
theorem sendPlaintext_eq_error {pt : Bytes} (h : sendPlaintext C M pt c = .error e d) :
    d.received = c.received ∧ d.server = c.server ∧ d.output = c.output := by
  rw [sendPlaintext] at h
  rcases hrun : foretiasNoiseSend C pt (pt.length + nhT) (c.session.under M) with ⟨ct', t⟩ | ⟨e, t⟩
  · rw [hrun] at h
    cases h
  · rw [hrun] at h
    obtain ⟨-, rfl⟩ := EStateM.Result.error.inj h
    refine ⟨?_, rfl, rfl⟩
    show (c.toEndpoint.sendTagged C M pt).received = c.received
    rw [Endpoint.sendTagged, Endpoint.send, hrun]

/-- The end of a round adds the response to what was sent and writes it, or writes a part of it. -/
theorem sendResponse_cases (r : Round σ) (response : JsonRpcResponse) (c : Connection σ) :
    (∃ ct, (c.toEndpoint.sendTagged C r.sendModule (responseBytes T response)).sent =
          c.sent ++ [⟨c.session.sendNonce, responseBytes T response, ct⟩] ∧
        (c.toEndpoint.sendTagged C r.sendModule (responseBytes T response)).received =
          c.received ∧
        sendResponse C T r response c = .ok ⟨⟩
          { c with
            toEndpoint := c.toEndpoint.sendTagged C r.sendModule (responseBytes T response)
            output := c.output ++ serverFraming.write ct }) ∨
      ∃ e d, sendResponse C T r response c = .error e d ∧ d.received = c.received ∧
        d.server = c.server ∧ (d.output = c.output ∨ ∃ m, d.sent = c.sent ++ [m] ∧
          ∃ part, part <+: serverFraming.write m.ciphertext ∧ d.output = c.output ++ part) := by
  rcases hsend : sendPlaintext C r.sendModule (responseBytes T response) c with ⟨ct, d⟩ | ⟨e, d⟩
  · obtain ⟨rfl, hsent, hreceived⟩ := sendPlaintext_eq_ok hsend
    rw [sendResponse, bind_of_ok hsend]
    rcases r.breaks with - | k
    · exact .inl ⟨ct, hsent, hreceived, rfl⟩
    · exact .inr ⟨_, _, rfl, hreceived, rfl, .inr ⟨_, hsent, _, List.take_prefix _ _, rfl⟩⟩
  · obtain ⟨hreceived, hserver, houtput⟩ := sendPlaintext_eq_error hsend
    exact .inr ⟨e, d, bind_of_error hsend, hreceived, hserver, .inl houtput⟩

variable (C T handlers) in
/-- A round from the decrypted message on: the message is a line that is processed and answered, or
the connection ends. -/
theorem handlePlaintext_cases (r : Round σ) (plaintext : Bytes) (c : Connection σ) :
    (∃ line response s ct, asBytes line = plaintext ∧
        respond T handlers line (r.others c.server) = .ok response s ∧
        (c.toEndpoint.sendTagged C r.sendModule (responseBytes T response)).sent =
          c.sent ++ [⟨c.session.sendNonce, responseBytes T response, ct⟩] ∧
        (c.toEndpoint.sendTagged C r.sendModule (responseBytes T response)).received =
          c.received ∧
        handlePlaintext C T handlers r plaintext c = .ok ⟨⟩
          { c with
            toEndpoint := c.toEndpoint.sendTagged C r.sendModule (responseBytes T response)
            server := s
            output := c.output ++ serverFraming.write ct }) ∨
      ∃ e d, handlePlaintext C T handlers r plaintext c = .error e d ∧ d.received = c.received ∧
        (d.server = c.server ∨ ∃ line, asBytes line = plaintext ∧
          d.server = finalState (respond T handlers line (r.others c.server))) ∧
        (d.output = c.output ∨ ∃ m, d.sent = c.sent ++ [m] ∧
          ∃ part, part <+: serverFraming.write m.ciphertext ∧ d.output = c.output ++ part) := by
  rw [handlePlaintext]
  rcases hline : fromUtf8? plaintext with - | line
  · exact .inr ⟨_, c, bind_of_error (ofOption_none_apply _ _), rfl, .inl rfl, .inl rfl⟩
  rw [bind_of_ok (ofOption_some_apply _ _ _)]
  by_cases hlength : (asBytes line).length ≤ maxRequestLineBytes
  swap
  · exact .inr ⟨_, c, bind_of_error (require_of_false hlength _ _), rfl, .inl rfl, .inl rfl⟩
  rw [bind_of_ok (require_of_true hlength _ _), bind_of_ok (modify_apply _ _)]
  have hplaintext := fromUtf8?_eq_some.1 hline
  rcases hrespond : respond T handlers line (r.others c.server) with ⟨response, s⟩ | ⟨⟨⟩, s⟩
  · rw [bind_of_ok (answer_of_ok (c := { c with server := r.others c.server }) hrespond)]
    obtain ⟨ct, hsent, hreceived, heq⟩ | ⟨e, d, heq, hreceived, hserver, houtput⟩ :=
      sendResponse_cases (C := C) (T := T) r response { c with server := s }
    · exact .inl ⟨line, response, s, ct, hplaintext, hrespond, hsent, hreceived, heq⟩
    · refine .inr ⟨e, d, heq, hreceived, .inr ⟨line, hplaintext, ?_⟩, houtput⟩
      rw [hrespond]
      exact hserver
  · have hanswer := answer_of_error (c := { c with server := r.others c.server }) hrespond
    refine .inr ⟨_, _, bind_of_error hanswer, rfl, .inr ⟨line, hplaintext, ?_⟩, .inl rfl⟩
    rw [hrespond]
    rfl

/-! ### The rounds of a connection -/

variable {client : Endpoint} {recvKey sendKey : Bytes32} {n n' : UInt64} {s : σ} {input : Bytes}
  {kek : Option Bytes32} {lines : List String} {responses : List JsonRpcResponse}

/-- The process has the instance key of the session, in every round. -/
def KeepsInstanceKek (rounds : ℕ → Round σ) (kek : Option Bytes32) : Prop :=
  ∀ k, (rounds k).recvModule.instanceKek = kek ∧ (rounds k).sendModule.instanceKek = kek

/-- No frame of the stream is a forgery: if one opens under the key and its number from `n` on, it
was made under this number by the client. -/
def UnforgedIn (C : Sodium) (recvKey : Bytes32) (n : UInt64) (client : Endpoint) (input : Bytes) :
    Prop :=
  ∀ cts ct rest pt, serverFraming.readMany (cts.length + 1) input = .ok (cts ++ [ct], rest) →
    C.aeadDecrypt recvKey (nhNonce (n + UInt64.ofNat cts.length)) [] ct = some pt →
      ∃ m ∈ client.sent, m.nonce = n + UInt64.ofNat cts.length ∧ m.ciphertext = ct

/-- The next frame is no forgery: if it opens, it was made by the client under the counter's value.
-/
def Connection.NextUnforged (C : Sodium) (recvKey : Bytes32) (client : Endpoint)
    (c : Connection σ) : Prop :=
  ∀ ct rest pt, (serverFraming.read c.input).result = .ok (ct, rest) →
    C.aeadDecrypt recvKey (nhNonce c.session.recvNonce) [] ct = some pt →
      ∃ m ∈ client.sent, m.nonce = c.session.recvNonce ∧ m.ciphertext = ct

/-- The next frame is opened under its number. -/
theorem Answered.nextUnforged (hunforged : UnforgedIn C recvKey n client input)
    (h : Answered C T handlers rounds client recvKey sendKey n n' s input lines responses c) :
    c.NextUnforged C recvKey client := by
  intro ct rest pt hread hpt
  obtain ⟨cts, hframes⟩ := h.frames
  have hlength := Framing.length_of_readMany hframes
  have hcount := h.received.count
  rw [h.lines, List.length_map, ← hlength] at hcount
  have hnonce : c.session.recvNonce = n + UInt64.ofNat cts.length := by
    have hlt := c.session.recvNonce.toNat_lt
    refine UInt64.toNat_inj.1 ?_
    rw [UInt64.toNat_add, UInt64.toNat_ofNat', Nat.add_mod_mod, ← hcount, Nat.mod_eq_of_lt hlt]
  rw [hnonce] at hpt ⊢
  exact hunforged cts ct rest pt (hlength ▸ Framing.readMany_concat hframes hread) hpt

/-- One round: the connection has answered one line more, or ends unfinished. -/
theorem Answered.round (haead : AeadCorrect C) (hclient : SentInOrder C recvKey n client)
    (hrounds : KeepsInstanceKek rounds kek) (hkek : c.session.keyModule.instanceKek = kek)
    (hunforged : c.NextUnforged C recvKey client)
    (h : Answered C T handlers rounds client recvKey sendKey n n' s input lines responses c) :
    (∃ line response d, serveRequest C T handlers (rounds lines.length) c = .ok ⟨⟩ d ∧
        Answered C T handlers rounds client recvKey sendKey n n' s input (lines ++ [line])
          (responses ++ [response]) d ∧
        respond T handlers line ((rounds lines.length).others c.server) = .ok response d.server ∧
        d.session.keyModule.instanceKek = kek ∧ d.input.length < c.input.length) ∨
      ∃ e d, serveRequest C T handlers (rounds lines.length) c = .error e d ∧
        Unfinished T handlers client (rounds lines.length).others c d := by
  rw [serveRequest]
  rcases hread : readCiphertext c with ⟨ct, c₁⟩ | ⟨e, c₁⟩
  swap
  · obtain rfl := readCiphertext_eq_error hread
    exact .inr ⟨e, c₁, bind_of_error hread, h.received.received, .inl rfl, .inl rfl, .inl rfl⟩
  obtain ⟨rest, hframe, rfl⟩ := readCiphertext_eq_ok hread
  rw [bind_of_ok hread]
  have hrecvKek := (hrounds lines.length).1
  have hM := hrecvKek.trans hkek.symm
  have hrecvKey := (Session.secret_under hM _).trans h.received.recvKey
  have hreceived := h.received.receive haead hclient hM fun pt ↦ hunforged ct rest pt hframe
  have hsent := h.sent.receive h.received.recvKey hM ct
  rcases hrecv : recvPlaintext C (rounds lines.length).recvModule ct { c with input := rest } with
    ⟨pt, c₂⟩ | ⟨e, c₂⟩
  swap
  · obtain ⟨rfl, hsame⟩ := recvPlaintext_eq_error hrecv
    exact .inr ⟨e, _, bind_of_error hrecv, hreceived.received, .inl hsame, .inl rfl, .inl rfl⟩
  obtain ⟨rfl, hpt⟩ := recvPlaintext_eq_ok hrecv
  rw [bind_of_ok hrecv]
  have hsame : (c.toEndpoint.receive C (rounds lines.length).recvModule ct).sent = c.sent :=
    Endpoint.sent_receive _ _ _ _
  have hM' : (rounds lines.length).sendModule.instanceKek = (c.toEndpoint.receive C
      (rounds lines.length).recvModule ct).session.keyModule.instanceKek := by
    rw [Endpoint.keyModule_receive hrecvKey, hrecvKek]
    exact (hrounds _).2
  obtain ⟨line, response, t, ct', rfl, hrespond, hadd, hkeep, heq⟩ |
    ⟨e, d, heq, hd, hserver, houtput⟩ :=
    handlePlaintext_cases C T handlers (rounds lines.length) pt
      { c with
        toEndpoint := c.toEndpoint.receive C (rounds lines.length).recvModule ct, input := rest }
  · refine .inl ⟨line, response, _, heq, ⟨?_, ?_, ?_, ?_, ?_, ?_, ?_⟩, hrespond, ?_, ?_⟩
    · obtain ⟨cts, hframes⟩ := h.frames
      rw [List.length_append, List.length_singleton]
      exact ⟨_, Framing.readMany_concat hframes hframe⟩
    · refine respondAll_concat h.processed ?_
      rwa [Nat.zero_add]
    · rw [List.map_append, ← h.lines]
      exact hkeep.trans hpt
    · exact hreceived.send hsent.sendKey hM' _ _
    · exact hsent.send hM' _ _
    · show (Endpoint.sendTagged _ _ _ _).sent.map _ = _
      rw [hadd, hsame, List.map_append, List.map_append, h.responses]
      rfl
    · show c.output ++ _ = (Endpoint.sendTagged _ _ _ _).sent.flatMap _
      rw [hadd, hsame, List.flatMap_append, ← h.output, List.flatMap_singleton]
    · have hsendKey := (Session.secret_under hM' _).trans hsent.sendKey
      exact (congrArg _ (Endpoint.keyModule_send hsendKey)).trans (hrounds _).2
    · obtain ⟨header, hheader, hinput⟩ := Framing.exists_of_read hframe
      show rest.length < c.input.length
      rw [hinput, List.length_append, List.length_append, hheader]
      omega
  · refine .inr ⟨e, d, heq, ?_, .inr ⟨pt, hd.trans hpt⟩, ?_, ?_⟩
    · exact hd ▸ hreceived.received
    · refine hserver.imp_right fun ⟨line, hline, hs⟩ ↦ ⟨line, ?_, hs⟩
      rw [hline]
      exact hd.trans hpt
    · rwa [hsame] at houtput

/-- The rounds from one on: the connection ends, and has answered by then. -/
theorem Answered.rounds_end (haead : AeadCorrect C) (hclient : SentInOrder C recvKey n client)
    (hrounds : KeepsInstanceKek rounds kek) (hkek : c.session.keyModule.instanceKek = kek)
    (hunforged : UnforgedIn C recvKey n client input) {fuel : ℕ} (hfuel : c.input.length < fuel)
    (h : Answered C T handlers rounds client recvKey sendKey n n' s input lines responses c) :
    ∃ e d lines' responses' u,
      serveRequests C T handlers rounds fuel lines.length c = .error e d ∧
        Answered C T handlers rounds client recvKey sendKey n n' s input lines' responses' u ∧
        Unfinished T handlers client (rounds lines'.length).others u d := by
  induction fuel generalizing c lines responses with
  | zero => exact absurd hfuel (Nat.not_lt_zero _)
  | succ fuel ih =>
    obtain ⟨line, response, d, hserve, hd, -, hkek, hlt⟩ | ⟨e, d, hserve, hd⟩ :=
      h.round haead hclient hrounds hkek (h.nextUnforged hunforged)
    · obtain ⟨e, d, lines', responses', u, hserves, hu, hd⟩ := ih hkek (by omega) hd
      refine ⟨e, d, lines', responses', u, (bind_of_ok hserve).trans ?_, hu, hd⟩
      rwa [List.length_append, List.length_singleton] at hserves
    · exact ⟨e, d, lines, responses, c, bind_of_error hserve, h, hd⟩

end Answers

section Handshake

variable {C : Sodium} {iInit rInit : NoiseInit} {iPinned rPinned : Option Bytes32}
  {iMemory rMemory i₀ r₀ i r : Session} {env : Side → ℕ → StepEnv}

/-- **A connection does what its client sent, in order and once.** After a handshake whose messages
were delivered as written, the client sends what it likes, and the network delivers to the server
whatever it likes short of forging a ciphertext. The connection ends; what it has processed and
answered is a beginning of what the client sent, and at most one message more is processed without
the whole of its response being written. -/
theorem handleConnection_answers (hbox : SecretboxCorrect C) (hdh : KeyAgreementCorrect C)
    (haead : AeadCorrect C) (hi : iInit.run C iPinned true iMemory = .ok ⟨⟩ i₀)
    (hr : rInit.run C rPinned false rMemory = .ok ⟨⟩ r₀)
    (hikek : KeepsKek (env .initiator) i₀) (hrkek : KeepsKek (env .responder) r₀)
    (hroom : HasRoom env) (hexchange : exchange C env i₀ r₀ = .ok (i, r))
    {client : Endpoint} {events : List AttackEvent}
    (hclient : Run (EndpointStep C) (.start i) events client) (T : RpcText) {σ : Type}
    (handlers : RpcHandlers σ) {rounds : ℕ → Round σ}
    (hrounds : KeepsInstanceKek rounds r.keyModule.instanceKek) {input : Bytes}
    (hunforged : ∀ k, r.secret C .recvKey = some k → UnforgedIn C k r.recvNonce client input)
    (s : σ) :
    ∃ recvKey sendKey e d lines responses c,
      handleConnection C T handlers rounds ⟨.start r, s, input, []⟩ = .error e d ∧
        Answered C T handlers rounds client recvKey sendKey r.recvNonce r.sendNonce s input lines
          responses c ∧
        Unfinished T handlers client (rounds lines.length).others c d := by
  obtain ⟨key, hstart⟩ :=
    exists_inOrder_of_exchange hbox hdh haead hi hr hikek hrkek hroom hexchange
  have hreceived := hstart.received .responder
  have hrecvKey : r.secret C .recvKey = some (key .initiator) := hreceived.recvKey
  have hn : r.recvNonce = i.sendNonce := UInt64.toNat_inj.1 hreceived.count
  have hsent : SentInOrder C (key .initiator) r.recvNonce client := by
    rw [hn]
    exact (hstart.sent .initiator).of_run hclient (hstart.received .initiator).recvKey
  have hanswered : Answered C T handlers rounds client (key .initiator) (key .responder)
      r.recvNonce r.sendNonce s input [] [] ⟨.start r, s, input, []⟩ :=
    ⟨⟨[], rfl⟩, rfl, rfl, ⟨hrecvKey, rfl, List.nil_prefix⟩, hstart.sent .responder, rfl,
      rfl⟩
  have hend := hanswered.rounds_end haead hsent hrounds rfl (hunforged _ hrecvKey)
    (Nat.lt_succ_self _)
  exact ⟨_, _, hend⟩

end Handshake

/-! ### A concrete connection -/

/-- The client of a sample handshake after it has sent a request to `ping`. -/
def samplePinger : Endpoint :=
  (Endpoint.start sampleSessions.1).send .transparent .zeroKek (asBytes pingText)
    ((asBytes pingText).length + nhT)

/-- What the network delivers: the request, and the beginning of a frame. -/
def sampleStream : Bytes := samplePinger.sent.flatMap (serverFraming.write ·.ciphertext) ++ [7]

/-- Rounds of a server that nothing else uses. -/
def sampleRounds (_ : ℕ) : Round ℕ := ⟨.zeroKek, .zeroKek, id, none⟩

theorem exists_sent_samplePinger : ∃ m, samplePinger.sent = [m] ∧
    m.nonce = sampleSessions.2.recvNonce ∧ serverFraming.Fits m.ciphertext := by
  obtain ⟨key, hstart⟩ := exists_inOrder_of_exchange secretboxCorrect_transparent
    keyAgreementCorrect_transparent aeadCorrect_transparent (sample_eq 5 true) (sample_eq 7 false)
    (keepsKek_sampleEnv .initiator 5 true) (keepsKek_sampleEnv .responder 7 false)
    hasRoom_sampleEnv exchange_samples
  have hM : PrivkeyModule.zeroKek.instanceKek = sampleSessions.1.keyModule.instanceKek := by
    decide +kernel
  obtain ⟨ct, t, hrun⟩ := (hstart.sent .initiator).exists_send aeadCorrect_transparent hM
    (by decide +kernel) (Nat.le_refl ((asBytes pingText).length + nhT))
  have hsent : samplePinger.sent = [⟨sampleSessions.1.sendNonce, asBytes pingText, ct⟩] :=
    congrArg Endpoint.sent (Endpoint.send_of_ok hrun)
  refine ⟨_, hsent, ((UInt64.toNat_inj.1 (hstart.received .responder).count)).symm, ?_⟩
  have hpinger := (hstart.sent .initiator).send hM (asBytes pingText)
    ((asBytes pingText).length + nhT)
  have hlast : samplePinger.sent[0]? = _ := congrArg (·[0]?) hsent
  have hlength : (asBytes pingText).length ≤ maxRequestLineBytes := by decide +kernel
  exact fits_of_line aeadCorrect_transparent (hpinger.encrypted hlast).2.2 hlength

/-- The stream has no frame but the client's. -/
theorem unforgedIn_sampleStream (k : Bytes32) :
    UnforgedIn .transparent k sampleSessions.2.recvNonce samplePinger sampleStream := by
  obtain ⟨m, hsent, hnonce, hfits⟩ := exists_sent_samplePinger
  have hread : (serverFraming.read (serverFraming.write m.ciphertext ++ [7])).result =
      .ok (m.ciphertext, [7]) := Framing.read_write_append hfits
  intro cts ct rest pt hframes _
  rw [sampleStream, hsent, List.flatMap_singleton] at hframes
  obtain ⟨first, s, ms, hfirst, hmany, heq⟩ := Framing.readMany_succ_eq_ok.1 hframes
  obtain ⟨rfl, rfl⟩ := Prod.mk.inj (Except.ok.inj (hread.symm.trans hfirst))
  cases cts with
  | nil =>
    obtain ⟨rfl, -⟩ := List.cons.inj heq
    exact ⟨m, hsent ▸ List.mem_singleton_self m, hnonce.trans (UInt64.add_zero _).symm, rfl⟩
  | cons a cts =>
    -- nothing more than a byte is left
    obtain ⟨_, _, _, hnext, -⟩ := Framing.readMany_succ_eq_ok.1 hmany
    cases hnext

theorem run_samplePinger : Run (EndpointStep .transparent) (.start sampleSessions.1)
    [.send .initiator .zeroKek (asBytes pingText) ((asBytes pingText).length + nhT)]
    samplePinger :=
  .cons ⟨by decide +kernel, rfl⟩ (.nil _)

theorem keepsInstanceKek_sampleRounds :
    KeepsInstanceKek sampleRounds sampleSessions.2.keyModule.instanceKek := by
  have hkek : PrivkeyModule.zeroKek.instanceKek = sampleSessions.2.keyModule.instanceKek := by
    decide +kernel
  exact fun _ ↦ ⟨hkek, hkek⟩

theorem handleConnection_answers_sampleStream :
    ∃ recvKey sendKey e d lines responses c,
      handleConnection .transparent .pings pingHandlers sampleRounds
          ⟨.start sampleSessions.2, 0, sampleStream, []⟩ = .error e d ∧
        Answered .transparent .pings pingHandlers sampleRounds samplePinger recvKey sendKey
          sampleSessions.2.recvNonce sampleSessions.2.sendNonce 0 sampleStream lines responses c ∧
        Unfinished .pings pingHandlers samplePinger (sampleRounds lines.length).others c d :=
  handleConnection_answers secretboxCorrect_transparent keyAgreementCorrect_transparent
    aeadCorrect_transparent (sample_eq 5 true) (sample_eq 7 false)
    (keepsKek_sampleEnv .initiator 5 true) (keepsKek_sampleEnv .responder 7 false)
    hasRoom_sampleEnv exchange_samples run_samplePinger .pings pingHandlers
    keepsInstanceKek_sampleRounds (fun k _ ↦ unforgedIn_sampleStream k) 0

end Foretias

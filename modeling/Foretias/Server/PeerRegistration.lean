import Foretias.Core.CalendarFile
import Foretias.Core.Crypto
import Foretias.Library.Codec
import Foretias.Library.ErrorState

/-!
# Peer registration

A server publishes a registration record of itself in the DHT, and other nodes accept a record
that `validatePeerRegistration` passes. The record is signed with the key that the `Communerd`
generates for itself, and verified under the key in the TBID that the record names, so a server's
own record is accepted exactly when the two are one key (`registration_accepted_iff`).
-/

namespace Foretias

variable (P : Primitives)

/-! ### Records and their validation -/

/-- Capabilities a node can advertise. -/
inductive PeerCapability
  | attestWilling
  | mirrorWilling
  | verifierWilling
  deriving DecidableEq

/-- Peer registration record stored in the DHT. -/
structure PeerRegistrationRecord where
  /-- The peer ID, as text. -/
  peerId : String
  /-- The TBID, hex-encoded. -/
  tbid : String
  /-- The listen address. -/
  multiaddr : String
  /-- The JSON-RPC address. -/
  jsonRpc : String
  /-- Chronon period in nanoseconds. -/
  chrononNs : UInt64
  /-- Time of the registration. -/
  registeredAtNs : UInt64
  /-- Capabilities of the node. -/
  capabilities : List PeerCapability
  /-- Signature over `canonicalPayload`; empty in records of older nodes. -/
  signature : Bytes
  deriving DecidableEq

/-- The libraries that registration records are encoded and parsed with. -/
structure PeerFormat where
  /-- `serde_json::to_vec`. -/
  registrationJson : PeerRegistrationRecord → Bytes
  /-- `serde_json::from_slice`. -/
  parseRegistration : Bytes → Except String PeerRegistrationRecord
  /-- `postcard::to_allocvec`. -/
  registrationPostcard : PeerRegistrationRecord → Bytes
  /-- JSON inverts its own encoding. -/
  parseRegistration_registrationJson : ∀ r, parseRegistration (registrationJson r) = .ok r

variable (F : PeerFormat)

/-- `canonical_payload`: the record without its signature. -/
def PeerRegistrationRecord.canonicalPayload (record : PeerRegistrationRecord) : Bytes :=
  F.registrationPostcard { record with signature := [] }

/-- `validate_peer_registration`. -/
def validatePeerRegistration (record : PeerRegistrationRecord) : Result NodeError Bool :=
  if record.peerId = "" then pure false
  else if (asBytes record.tbid).length < 64 ∨
      (record.tbid.toList.any fun c ↦ hexValue? c = none) = true then
    pure false
  else if record.jsonRpc = "" then pure false
  -- records of older nodes are not signed
  else if record.signature = [] then pure true
  else
    match hexDecode record.tbid with
    | none => pure false
    | some pubkey =>
      if pubkey.length < 32 then pure false
      else
        (verifyWith P (pubkey.take 32) "Ed25519" (record.canonicalPayload F)
          record.signature).mapErr .crypto

/-- The structure that validation asks for. -/
structure PeerRegistrationRecord.WellFormed (record : PeerRegistrationRecord) : Prop where
  peerId_ne : record.peerId ≠ ""
  le_length_tbid : 64 ≤ (asBytes record.tbid).length
  hex_tbid : ∀ c ∈ record.tbid.toList, hexValue? c ≠ none
  jsonRpc_ne : record.jsonRpc ≠ ""

/-- The signature verifies under the key in the TBID. -/
def PeerRegistrationRecord.SignedByTbid (record : PeerRegistrationRecord) : Prop :=
  ∃ pubkey, hexDecode record.tbid = some pubkey ∧ ∃ (key : FixedBytes 32) (sig : FixedBytes 64),
    pubkey.take 32 = key.toList ∧ record.signature.take 64 = sig.toList ∧
      P.ed25519Verify key (record.canonicalPayload F) sig = true

variable {P F} {record : PeerRegistrationRecord}

namespace PeerRegistrationRecord

theorem WellFormed.le_length_of_hexDecode {pubkey : Bytes} (h : record.WellFormed)
    (hpubkey : hexDecode record.tbid = some pubkey) : 32 ≤ pubkey.length := by
  have hlength := h.le_length_tbid
  rw [length_asBytes_of_hexDecode hpubkey] at hlength
  omega

/-- A record is validated only if it is well-formed. -/
theorem wellFormed_of_validate (h : validatePeerRegistration P F record = .ok true) :
    record.WellFormed := by
  unfold validatePeerRegistration at h
  split at h
  · cases h
  rename_i hpeer
  split at h
  · cases h
  rename_i htbid
  split at h
  · cases h
  rename_i hrpc
  obtain ⟨hlength, hhex⟩ := not_or.1 htbid
  refine ⟨hpeer, Nat.not_lt.1 hlength, fun c hc hnone ↦ hhex ?_, hrpc⟩
  exact List.any_eq_true.2 ⟨c, hc, decide_eq_true hnone⟩

/-- Of a well-formed record, validation checks the signature. -/
theorem WellFormed.validate_eq (h : record.WellFormed) :
    validatePeerRegistration P F record =
      if record.signature = [] then pure true
      else
        (hexDecode record.tbid).elim (pure false) fun pubkey ↦
          (verifyWith P (pubkey.take 32) "Ed25519" (record.canonicalPayload F)
            record.signature).mapErr .crypto := by
  have htbid : ¬((asBytes record.tbid).length < 64 ∨
      (record.tbid.toList.any fun c ↦ hexValue? c = none) = true) := by
    refine not_or.2 ⟨Nat.not_lt.2 h.le_length_tbid, fun hany ↦ ?_⟩
    obtain ⟨c, hc, hnone⟩ := List.any_eq_true.1 hany
    exact h.hex_tbid c hc (of_decide_eq_true hnone)
  rw [validatePeerRegistration, if_neg h.peerId_ne, if_neg htbid, if_neg h.jsonRpc_ne]
  cases hpubkey : hexDecode record.tbid with
  | none => rfl
  | some pubkey =>
    have hlength := h.le_length_of_hexDecode hpubkey
    simp only [if_neg (Nat.not_lt.2 hlength), Option.elim_some]

/-- Of a signed record, validation checks the signature under the key in the TBID. -/
theorem validate_eq_true_of_signed (hne : record.signature ≠ []) :
    validatePeerRegistration P F record = .ok true ↔
      record.WellFormed ∧ record.SignedByTbid P F := by
  constructor
  · intro h
    have hform : record.WellFormed := wellFormed_of_validate h
    refine ⟨hform, ?_⟩
    rw [hform.validate_eq, if_neg hne] at h
    cases hpubkey : hexDecode record.tbid with
    | none =>
      rw [hpubkey] at h
      cases h
    | some pubkey =>
      rw [hpubkey, Option.elim_some, Result.mapErr_eq_ok, verifyWith_ed25519] at h
      obtain ⟨key, hkey, h⟩ := Result.bind_eq_ok.1 h
      obtain ⟨sig, hsig, h⟩ := Result.bind_eq_ok.1 h
      refine ⟨pubkey, hpubkey, key, sig, ?_, (sliceTo_eq_ok.1 hsig).2, Result.pure_eq_ok.1 h⟩
      rw [← (sliceTo_eq_ok.1 hkey).2, List.take_take, Nat.min_self]
  · rintro ⟨hform, pubkey, hpubkey, key, sig, hkey, hsig, hverify⟩
    have hsigned : record.signature = sig.toList ++ record.signature.drop 64 := by
      rw [← hsig, List.take_append_drop]
    rw [hform.validate_eq, if_neg hne, hpubkey, Option.elim_some, Result.mapErr_eq_ok, hkey,
      hsigned, verifyWith_ed25519_append, hverify]

/-- What validation passes. -/
theorem validate_eq_true :
    validatePeerRegistration P F record = .ok true ↔
      record.WellFormed ∧ (record.signature = [] ∨ record.SignedByTbid P F) := by
  by_cases hne : record.signature = []
  · constructor
    · exact fun h ↦ ⟨wellFormed_of_validate h, .inl hne⟩
    · rintro ⟨hform, -⟩
      rw [hform.validate_eq, if_pos hne]
      rfl
  · rw [validate_eq_true_of_signed hne, or_iff_right hne]

end PeerRegistrationRecord

/-! ### Servers -/

/-- A libp2p peer ID, as text. -/
structure PeerId where
  /-- The text, in base 58. -/
  text : String
  text_ne : text ≠ ""
  deriving DecidableEq

/-- `transport::PeerAddr`, the address of a peer. -/
structure Communerd.PeerAddr where
  /-- JSON-RPC endpoint. -/
  jsonRpc : String
  /-- libp2p identity. -/
  peerId : Option PeerId
  /-- When the peer was last seen. -/
  lastSeenNs : UInt64
  deriving DecidableEq

/-- What registration uses of a `Communerd`. -/
structure Communerd where
  /-- The key of `crypto`. -/
  seed : FixedBytes 32
  /-- `local_peer_id`. -/
  localPeerId : Option PeerId
  /-- `p2p_cmd_tx` is set. -/
  connected : Bool
  /-- The namespace. -/
  ns : String
  /-- `_local_multiaddr_arc`. -/
  localMultiaddr : Option String

/-- A command to the swarm. -/
inductive SwarmCommand
  | dial (addr : String)
  | bootstrap
  | putRecord (key value : Bytes)
  | getRecord (key : Bytes)

namespace Communerd

/-- `Communerd::new`, whose crypto server generates a key of its own. -/
def new (seed : FixedBytes 32) : Communerd := ⟨seed, none, false, "mainnet", none⟩

/-- `enable_p2p`, where the swarm starts. -/
def enableP2p (c : Communerd) (peerId : PeerId) (multiaddr : Option String) (ns : String) :
    Communerd :=
  if c.localPeerId.isSome then c
  else { c with localPeerId := some peerId, connected := true, ns, localMultiaddr := multiaddr }

/-- The servers that come of `Communerd::new`. -/
inductive Built (seed : FixedBytes 32) : Communerd → Prop
  | new : Built seed (new seed)
  | enableP2p {c : Communerd} (peerId : PeerId) (multiaddr : Option String) (ns : String) :
      Built seed c → Built seed (c.enableP2p peerId multiaddr ns)

/-- A server keeps the key that it generated. -/
theorem Built.seed_eq {seed : FixedBytes 32} {c : Communerd} (h : Built seed c) :
    c.seed = seed := by
  induction h with
  | new => rfl
  | @enableP2p c peerId multiaddr ns _ ih =>
    rw [Communerd.enableP2p]
    split
    · exact ih
    · exact ih

/-- The key of the records of all peers. -/
def peersKey (ns : String) : Bytes := asBytes s!"/foretias/{ns}/peers/v1"

/-- The key of the record of a TBID. -/
def tbidKey (ns tbidHex : String) : Bytes := asBytes s!"/foretias/{ns}/tbid/{tbidHex}/v1"

variable (P F)

/-- The record that a server publishes of itself, signed. -/
def selfRegistration (seed : FixedBytes 32) (peerId : PeerId) (tbid : Tbid)
    (multiaddr jsonRpc : String) (chrononNs : UInt64) (now : Option UInt64) :
    PeerRegistrationRecord :=
  let record : PeerRegistrationRecord :=
    { peerId := peerId.text, tbid := tbid.toHex, multiaddr, jsonRpc, chrononNs,
      registeredAtNs := now.getD 0, capabilities := [.attestWilling], signature := [] }
  { record with signature := (P.ed25519Sign seed (record.canonicalPayload F)).toList }

/-- Send a command to the swarm. -/
def send (command : SwarmCommand) : EStateM (Stop NodeError) (List SwarmCommand) PUnit :=
  modify (· ++ [command])

/-- Dial a known server. -/
def dialServer (resolve : String → Result NodeError String) (addr : String) :
    EStateM (Stop NodeError) (List SwarmCommand) PUnit := do
  let multiaddr ← ErrorState.ofResult (resolve addr)
  send (.dial multiaddr)

/-- `register_and_discover`: the commands it sends. The order of the dials is random. -/
def registerAndDiscover (resolve : String → Result NodeError String)
    (shuffle : List String → List String) (c : Communerd) (knownServers : List String)
    (ns : String) (tbid : Tbid) (chrononNs : UInt64) (jsonRpc : String) (now : Option UInt64) :
    EStateM (Stop NodeError) (List SwarmCommand) PUnit := do
  ErrorState.require (c.connected = true) (.err (.internal "P2P not enabled"))
  let peerId ← ErrorState.ofOption (.err (.internal "PeerId not available")) c.localPeerId
  (shuffle (knownServers.filter (· ≠ jsonRpc))).forM (dialServer resolve)
  let multiaddr ← ErrorState.ofOption
    (.err (.internal "timed out waiting for listen address")) c.localMultiaddr
  send .bootstrap
  let value := F.registrationJson
    (selfRegistration P F c.seed peerId tbid multiaddr jsonRpc chrononNs now)
  send (.putRecord (peersKey ns) value)
  send (.putRecord (tbidKey ns tbid.toHex) value)
  send (.getRecord (peersKey ns))

/-- `refresh_self_registration`, which a server that has registered runs once a minute. -/
def refreshSelfRegistration (c : Communerd) (peerId : PeerId) (tbid : Tbid) (chrononNs : UInt64)
    (jsonRpc : String) (now : Option UInt64) : List SwarmCommand :=
  match c.localMultiaddr with
  | none => []
  | some multiaddr =>
    let value := F.registrationJson
      (selfRegistration P F c.seed peerId tbid multiaddr jsonRpc chrononNs now)
    [.putRecord (peersKey c.ns) value, .putRecord (tbidKey c.ns tbid.toHex) value]

/-- The values of the records that a server puts into the DHT. -/
inductive Publishes (c : Communerd) (tbid : Tbid) (chrononNs : UInt64) (jsonRpc : String) :
    Bytes → Prop
  | register {resolve : String → Result NodeError String} {shuffle : List String → List String}
      {knownServers : List String} {ns : String} {now : Option UInt64} {key value : Bytes}
      (h : .putRecord key value ∈ ErrorState.finalState
        (c.registerAndDiscover P F resolve shuffle knownServers ns tbid chrononNs jsonRpc now [])) :
      Publishes c tbid chrononNs jsonRpc value
  | refresh {peerId : PeerId} {now : Option UInt64} {key value : Bytes}
      (h : .putRecord key value ∈
        c.refreshSelfRegistration P F peerId tbid chrononNs jsonRpc now) :
      Publishes c tbid chrononNs jsonRpc value

variable {P F} {c : Communerd} {tbid : Tbid} {chrononNs : UInt64} {jsonRpc : String}
  {value : Bytes}

variable (P F c tbid chrononNs jsonRpc) in
/-- Every record put into the DHT is the server's own. -/
def OwnRecords (commands : List SwarmCommand) : Prop :=
  ∀ key value, .putRecord key value ∈ commands → ∃ peerId multiaddr now,
    value = F.registrationJson
      (selfRegistration P F c.seed peerId tbid multiaddr jsonRpc chrononNs now)

theorem ownRecords_putRecord (key : Bytes) (peerId : PeerId) (multiaddr : String)
    (now : Option UInt64) :
    OwnRecords P F c tbid chrononNs jsonRpc [.putRecord key (F.registrationJson
      (selfRegistration P F c.seed peerId tbid multiaddr jsonRpc chrononNs now))] := by
  intro key' value hmem
  obtain ⟨-, rfl⟩ := SwarmCommand.putRecord.inj (List.mem_singleton.1 hmem)
  exact ⟨peerId, multiaddr, now, rfl⟩

theorem ownRecords_append {commands commands' : List SwarmCommand}
    (h : OwnRecords P F c tbid chrononNs jsonRpc commands)
    (h' : OwnRecords P F c tbid chrononNs jsonRpc commands') :
    OwnRecords P F c tbid chrononNs jsonRpc (commands ++ commands') := by
  intro key value hmem
  obtain hmem | hmem := List.mem_append.1 hmem
  · exact h key value hmem
  · exact h' key value hmem

theorem maintains_send {command : SwarmCommand}
    (h : OwnRecords P F c tbid chrononNs jsonRpc [command]) :
    ErrorState.Maintains (OwnRecords P F c tbid chrononNs jsonRpc) (send command) :=
  .modify fun _ hown ↦ ownRecords_append hown h

theorem maintains_registerAndDiscover (resolve : String → Result NodeError String)
    (shuffle : List String → List String) (knownServers : List String) (ns : String)
    (now : Option UInt64) :
    ErrorState.Maintains (OwnRecords P F c tbid chrononNs jsonRpc)
      (c.registerAndDiscover P F resolve shuffle knownServers ns tbid chrononNs jsonRpc now) := by
  have hother : ∀ {command}, (∀ key value, command ≠ .putRecord key value) →
      OwnRecords P F c tbid chrononNs jsonRpc [command] :=
    fun hne key value hmem ↦ absurd (List.mem_singleton.1 hmem).symm (hne key value)
  refine .bind (.require _) fun _ ↦ .bind (.ofOption _ _) fun peerId ↦
    .bind (.forM fun addr ↦ ?_) fun _ ↦ .bind (.ofOption _ _) fun multiaddr ↦
    .bind (maintains_send (hother fun _ _ h ↦ nomatch h)) fun _ ↦
    .bind (maintains_send (ownRecords_putRecord _ _ _ _)) fun _ ↦
    .bind (maintains_send (ownRecords_putRecord _ _ _ _)) fun _ ↦
    maintains_send (hother fun _ _ h ↦ nomatch h)
  exact .bind (.ofResult _) fun _ ↦ maintains_send (hother fun _ _ h ↦ nomatch h)

theorem ownRecords_refreshSelfRegistration (peerId : PeerId) (now : Option UInt64) :
    OwnRecords P F c tbid chrononNs jsonRpc
      (c.refreshSelfRegistration P F peerId tbid chrononNs jsonRpc now) := by
  rw [refreshSelfRegistration]
  cases c.localMultiaddr with
  | none => exact fun _ _ hmem ↦ nomatch hmem
  | some multiaddr =>
    exact ownRecords_append (ownRecords_putRecord _ _ _ _) (ownRecords_putRecord _ _ _ _)

/-- A server publishes only records of itself. -/
theorem exists_selfRegistration (h : c.Publishes P F tbid chrononNs jsonRpc value) :
    ∃ peerId multiaddr now, value = F.registrationJson
      (selfRegistration P F c.seed peerId tbid multiaddr jsonRpc chrononNs now) := by
  cases h with
  | register h =>
    exact maintains_registerAndDiscover _ _ _ _ _ [] (fun _ _ hmem ↦ nomatch hmem) _ _ h
  | refresh h => exact ownRecords_refreshSelfRegistration _ _ _ _ h

/-! ### Acceptance -/

variable (P F) in
/-- The value of a DHT record passes validation at another node. -/
def Accepted (value : Bytes) : Prop :=
  ∃ record, F.parseRegistration value = .ok record ∧
    validatePeerRegistration P F record = .ok true

theorem hexValue?_of_mem_toHex {ch : Char} (h : ch ∈ tbid.toHex.toList) :
    hexValue? ch ≠ none := by
  rw [Tbid.toHex, hexEncode, String.toList_ofList, List.mem_flatMap] at h
  obtain ⟨b, -, hch⟩ := h
  have hb := b.toNat_lt
  rw [hexPair, List.mem_pair] at hch
  obtain rfl | rfl := hch
  · rw [hexValue?_hexDigit _ (by omega)]
    exact Option.some_ne_none _
  · rw [hexValue?_hexDigit _ (by omega)]
    exact Option.some_ne_none _

/-- A server's own record is well-formed when it names an address. -/
theorem wellFormed_selfRegistration {seed : FixedBytes 32} {peerId : PeerId} {multiaddr : String}
    {now : Option UInt64} :
    (selfRegistration P F seed peerId tbid multiaddr jsonRpc chrononNs now).WellFormed ↔
      jsonRpc ≠ "" := by
  constructor
  · exact fun h ↦ h.jsonRpc_ne
  · refine fun hne ↦ ⟨peerId.text_ne, ?_, fun ch hch ↦ hexValue?_of_mem_toHex hch, hne⟩
    show 64 ≤ (asBytes tbid.toHex).length
    rw [Tbid.length_asBytes_toHex]
    decide

/-- A server's own record is signed by its TBID when its key is the TBID's. -/
theorem signedByTbid_selfRegistration (hkeyed : Ed25519Keyed P) {seed : FixedBytes 32}
    {peerId : PeerId} {multiaddr : String} {now : Option UInt64} :
    (selfRegistration P F seed peerId tbid multiaddr jsonRpc chrononNs now).SignedByTbid P F ↔
      tbid.ed25519PublicKey = P.ed25519Public seed := by
  have hdecode : hexDecode tbid.toHex = some tbid.rawBytes := hexDecode_hexEncode _
  constructor
  · rintro ⟨pubkey, hpubkey, key, sig, hkey, hsig, hverify⟩
    obtain rfl := Option.some.inj (hdecode.symm.trans hpubkey)
    have hkeyEq : key = tbid.ed25519PublicKey := FixedBytes.ext hkey.symm
    have hsigEq : sig = P.ed25519Sign seed
        ((selfRegistration P F seed peerId tbid multiaddr jsonRpc chrononNs now).canonicalPayload
          F) :=
      FixedBytes.ext (hsig.symm.trans (List.take_of_length_le (FixedBytes.length_toList _).le))
    rw [hsigEq] at hverify
    exact hkeyEq ▸ (hkeyed _ _ _).1 hverify
  · intro heq
    refine ⟨tbid.rawBytes, hdecode, tbid.ed25519PublicKey, _, rfl,
      List.take_of_length_le (FixedBytes.length_toList _).le, (hkeyed _ _ _).2 heq⟩

/-- A server's own record is accepted exactly when its key is the TBID's and it names an
address. -/
theorem accepted_selfRegistration (hkeyed : Ed25519Keyed P) {seed : FixedBytes 32}
    {peerId : PeerId} {multiaddr : String} {now : Option UInt64} :
    Accepted P F (F.registrationJson
        (selfRegistration P F seed peerId tbid multiaddr jsonRpc chrononNs now)) ↔
      tbid.ed25519PublicKey = P.ed25519Public seed ∧ jsonRpc ≠ "" := by
  have hparse := F.parseRegistration_registrationJson
    (selfRegistration P F seed peerId tbid multiaddr jsonRpc chrononNs now)
  have hsigned :
      (selfRegistration P F seed peerId tbid multiaddr jsonRpc chrononNs now).signature ≠ [] := by
    refine List.ne_nil_of_length_pos ?_
    rw [selfRegistration, FixedBytes.length_toList]
    decide
  have hvalidate := PeerRegistrationRecord.validate_eq_true_of_signed (P := P) (F := F) hsigned
  rw [wellFormed_selfRegistration, signedByTbid_selfRegistration hkeyed] at hvalidate
  constructor
  · rintro ⟨record, hrecord, htrue⟩
    obtain rfl := Except.ok.inj (hparse.symm.trans hrecord)
    exact (hvalidate.1 htrue).symm
  · exact fun hcond ↦ ⟨_, hparse, hvalidate.2 hcond.symm⟩

/-- What a server publishes is accepted exactly when the key it generated for itself is the one
in the TBID, and it names an address. -/
theorem registration_accepted_iff (hkeyed : Ed25519Keyed P) {seed : FixedBytes 32}
    (hbuilt : Built seed c) (h : c.Publishes P F tbid chrononNs jsonRpc value) :
    Accepted P F value ↔ tbid.ed25519PublicKey = P.ed25519Public seed ∧ jsonRpc ≠ "" := by
  obtain ⟨peerId, multiaddr, now, rfl⟩ := exists_selfRegistration h
  rw [hbuilt.seed_eq]
  exact accepted_selfRegistration hkeyed

end Communerd

/-! ### A record that is rejected -/

instance : Encodable PeerCapability :=
  .ofLeftInverse
    (fun | .attestWilling => (0 : Fin 3) | .mirrorWilling => 1 | .verifierWilling => 2)
    (fun | 0 => .attestWilling | 1 => .mirrorWilling | 2 => .verifierWilling)
    fun | .attestWilling => rfl | .mirrorWilling => rfl | .verifierWilling => rfl

instance : Encodable PeerRegistrationRecord :=
  .ofLeftInverse
    (fun r ↦ (r.peerId, r.tbid, r.multiaddr, r.jsonRpc, r.chrononNs, r.registeredAtNs,
      r.capabilities, r.signature))
    (fun ⟨peerId, tbid, multiaddr, jsonRpc, chrononNs, registeredAtNs, capabilities, signature⟩ ↦
      ⟨peerId, tbid, multiaddr, jsonRpc, chrononNs, registeredAtNs, capabilities, signature⟩)
    fun _ ↦ rfl

/-- A format whose law can be checked: records are written in unary. -/
def PeerFormat.unary : PeerFormat where
  registrationJson := Codec.unary.serialize
  parseRegistration bs := (Codec.unary.parse bs).elim (.error "invalid JSON") .ok
  registrationPostcard := Codec.unary.serialize
  parseRegistration_registrationJson r := by rw [Codec.parse_serialize, Option.elim_some]

namespace Communerd

/-- The peer ID of a server whose key is zero. -/
def zeroPeer : PeerId := ⟨"12D3Koo", by decide⟩

/-- A server whose key is zero. -/
def zeroServer : Communerd :=
  (new default).enableP2p zeroPeer (some "/ip4/10.0.0.1/tcp/7000") "mainnet"

/-- A record that the server publishes of a TBID. -/
def zeroRegistration (tbid : Tbid) : Bytes :=
  PeerFormat.unary.registrationJson (selfRegistration .transparent .unary default
    zeroPeer tbid "/ip4/10.0.0.1/tcp/7000" "10.0.0.1:7001" 1000 (some 5))

theorem publishes_zeroRegistration (tbid : Tbid) :
    zeroServer.Publishes .transparent .unary tbid 1000 "10.0.0.1:7001" (zeroRegistration tbid) :=
  have hput : .putRecord (peersKey "mainnet") (zeroRegistration tbid) ∈
      zeroServer.refreshSelfRegistration .transparent .unary zeroPeer tbid 1000
        "10.0.0.1:7001" (some 5) := List.mem_cons_self
  .refresh hput

/-- The record of the TBID of the server's own key is accepted. -/
theorem registration_accepted_iff_zero :
    Accepted .transparent .unary (zeroRegistration ((default : TbidSecret).tbid .transparent)) :=
  (registration_accepted_iff ed25519Keyed_transparent (.enableP2p _ _ _ .new)
    (publishes_zeroRegistration _)).2 ⟨ed25519PublicKey_tbid _ _, by decide⟩

/-- The record of the TBID of another key is published and rejected. -/
theorem registration_rejected_seven :
    Built default zeroServer ∧
      zeroServer.Publishes .transparent .unary
        (TbidSecret.tbid .transparent ⟨.replicate 32 7, default⟩) 1000 "10.0.0.1:7001"
        (zeroRegistration (TbidSecret.tbid .transparent ⟨.replicate 32 7, default⟩)) ∧
      ¬Accepted .transparent .unary
        (zeroRegistration (TbidSecret.tbid .transparent ⟨.replicate 32 7, default⟩)) := by
  refine ⟨.enableP2p _ _ _ .new, publishes_zeroRegistration _, fun h ↦ ?_⟩
  have hkey := ((accepted_selfRegistration ed25519Keyed_transparent).1 h).1
  rw [ed25519PublicKey_tbid] at hkey
  exact absurd hkey (by decide)

end Communerd

end Foretias

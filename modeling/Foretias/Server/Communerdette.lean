import Foretias.Core.Calendar
import Foretias.Core.CleanAuth

/-!
# The communerdette's gates

A communerdette talks to one remote time being, its target, and admits nothing it receives from
there before a gate has checked it: the records of a calendar slice (`gateChrononRecords`), the
reply to a channel-binding challenge (`ChannelBinding.verifyFull`) and the reply to an
authenticated ping (`AuthenticatedPong.verify`).

The gates over record batches, here and in the handlers, are one loop (`verifyAll`) that differs
in what it does with the first record; `verifyAll_eq_ok` says what any of them accepts.
-/

namespace Foretias

/-- Errors of a communerdette. -/
inductive CommunerdetteError
  /-- An authentication gate refused. -/
  | cleanAuth (e : CleanAuthError)
  /-- Data of another time being. -/
  | tbidMismatch (expected actual : String)
  /-- A structurally invalid record. -/
  | structural (message : String)
  deriving DecidableEq

/-! ### Batches of records -/

/-- A chronon record as it arrives. -/
abbrev UnverifiedChronon := UnverifiedSignatureEnvelope ChrononRecord

/-- A chronon record that passed a gate. -/
abbrev CleanChronon := CleanAuthenticated ChrononRecord

/-- What a gate returns for a record it accepts. -/
def UnverifiedSignatureEnvelope.clean {α : Type} (u : UnverifiedSignatureEnvelope α) :
    CleanAuthenticated α := ⟨u.inner, u.signatures⟩

@[simp] theorem UnverifiedSignatureEnvelope.inner_clean {α : Type}
    (u : UnverifiedSignatureEnvelope α) : u.clean.inner = u.inner := rfl

/-- The envelopes of parsed records carry them. -/
theorem map_inner_fromParsed (rs : List ChrononRecord) :
    (rs.map UnverifiedSignatureEnvelope.fromParsed).map UnverifiedSignatureEnvelope.inner = rs := by
  rw [List.map_map]
  exact List.map_id _

theorem map_clean_fromParsed (rs : List ChrononRecord) :
    (rs.map UnverifiedSignatureEnvelope.fromParsed).map UnverifiedSignatureEnvelope.clean =
      rs.map CleanAuthenticated.fromTrusted := by
  rw [List.map_map]
  exact List.map_congr_left fun _ _ ↦ rfl

section VerifyAll

variable {ε : Type} (verifyNext : ℕ → Option CleanChronon → UnverifiedChronon →
  Result ε CleanChronon)

/-- Authenticate records one after another, each with its index and the last one authenticated;
the first failure ends the batch. -/
def verifyAll (i : ℕ) (last : Option CleanChronon) :
    List UnverifiedChronon → Result ε (List CleanChronon)
  | [] => pure []
  | u :: us => do
    let clean ← verifyNext i last u
    let verified ← verifyAll (i + 1) (some clean) us
    pure (clean :: verified)

variable {verifyNext}

/-- A loop that checks each later record against the one before, by `R`, accepts exactly the
batches whose first record it accepts and whose neighbours are related by `R`. -/
theorem verifyAll_eq_ok {R : ChrononRecord → ChrononRecord → Prop}
    (hclean : ∀ {i last u c}, verifyNext i last u = .ok c → c = u.clean)
    (hnext : ∀ {i prev u}, verifyNext (i + 1) (some prev) u = .ok u.clean ↔ R prev.inner u.inner)
    {us : List UnverifiedChronon} {cs : List CleanChronon} {i : ℕ} {last : Option CleanChronon} :
    verifyAll verifyNext i last us = .ok cs ↔
      cs = us.map UnverifiedSignatureEnvelope.clean ∧
        (∀ u ∈ us.head?, verifyNext i last u = .ok u.clean) ∧
        (us.map UnverifiedSignatureEnvelope.inner).IsChain R := by
  induction us generalizing i last cs with
  | nil =>
    rw [verifyAll, Result.pure_eq_ok, eq_comm]
    simp
  | cons u us ih =>
    -- the records after `u` are checked against `u`, which is what the chain says of them
    have hrest : (∀ u' ∈ us.head?, verifyNext (i + 1) (some u.clean) u' = .ok u'.clean) ↔
        ∀ r ∈ (us.map UnverifiedSignatureEnvelope.inner).head?, R u.inner r := by
      rw [List.head?_map]
      cases us.head? with
      | none => simp
      | some u' => simpa using @hnext i u.clean u'
    rw [verifyAll, Result.bind_eq_ok, List.map_cons, List.map_cons, List.isChain_cons, ← hrest]
    constructor
    · rintro ⟨c, hc, h⟩
      obtain rfl := hclean hc
      obtain ⟨verified, hverified, hcs⟩ := Result.bind_eq_ok.1 h
      obtain ⟨rfl, hfirst, hchain⟩ := ih.1 hverified
      exact ⟨(Result.pure_eq_ok.1 hcs).symm, by simpa using hc, hfirst, hchain⟩
    · rintro ⟨rfl, hhead, hfirst, hchain⟩
      refine ⟨u.clean, hhead u rfl,
        Result.bind_eq_ok.2 ⟨us.map UnverifiedSignatureEnvelope.clean, ?_, rfl⟩⟩
      exact ih.2 ⟨rfl, hfirst, hchain⟩

end VerifyAll

/-- `curr` passes `verify_pair` against the record before it, under that record's own TBID. -/
def LinkedTo (P : Primitives) (prev curr : ChrononRecord) : Prop :=
  verifyPair P prev.tbid.toHex prev curr = .ok true

/-- What is checked of a record without a predecessor. -/
structure ChrononRecord.FirstRecord (r : ChrononRecord) : Prop where
  /-- It is of chronon 1. -/
  chrononNumber_eq : r.chrononNumber = 1
  /-- It has some key. -/
  publicKey_ne : r.publicKey ≠ []
  /-- It is of version 0. -/
  tbVersion_eq : r.tbVersion = 0

section VerifyChronon

variable {P : Primitives} {u : UnverifiedChronon} {prev : CleanChronon}

theorem UnverifiedSignatureEnvelope.eq_clean_of_verifyChronon {prev : Option CleanChronon}
    {c : CleanChronon} (h : u.verifyChronon P prev = .ok c) : c = u.clean := by
  cases prev with
  | none => exact (verifyChronon_none_eq_ok.1 h).2.2.2
  | some prev => exact (verifyChronon_some_eq_ok.1 h).2

theorem UnverifiedSignatureEnvelope.verifyChronon_some :
    u.verifyChronon P (some prev) = .ok u.clean ↔ LinkedTo P prev.inner u.inner :=
  verifyChronon_some_eq_ok.trans (and_iff_left rfl)

theorem UnverifiedSignatureEnvelope.verifyChronon_none :
    u.verifyChronon P none = .ok u.clean ↔ u.inner.FirstRecord := by
  rw [verifyChronon_none_eq_ok]
  exact ⟨fun h ↦ ⟨h.1, h.2.1, h.2.2.1⟩, fun h ↦ ⟨h.1, h.2, h.3, rfl⟩⟩

end VerifyChronon

section Gate

variable (P : Primitives) (targetTbid : Tbid)

/-- One step of `gate_chronon_records`. -/
def gateNext (i : ℕ) (last : Option CleanChronon) (u : UnverifiedChronon) :
    Result CommunerdetteError CleanChronon :=
  if u.inner.chrononNumber = 0 ∨ u.inner.publicKey = [] then
    .err (.structural "chronon_number == 0 or empty public_key")
  else if u.inner.tbid ≠ targetTbid then
    .err (.tbidMismatch targetTbid.toHex u.inner.tbid.toHex)
  else if i = 0 then (u.verifyChronon P none).mapErr .cleanAuth
  else
    match last with
    | none => .error .panic
    | some prev => (u.verifyChronon P (some prev)).mapErr .cleanAuth

/-- `gate_chronon_records`. -/
def gateChrononRecords (records : List ChrononRecord) :
    Result CommunerdetteError (List CleanChronon) :=
  verifyAll (gateNext P targetTbid) 0 none (records.map .fromParsed)

/-- `execute_tick`, on the slice that the peer answered with; `next` takes the first record. -/
def executeTick (slice : List ChrononRecord) : Result CommunerdetteError CleanChronon := do
  match (← gateChrononRecords P targetTbid slice).head? with
  | some record => pure record
  | none => .err (.structural "empty calendar slice for single tick request")

variable {P targetTbid} {u : UnverifiedChronon} {prev : CleanChronon} {i : ℕ}

theorem gateNext_zero : gateNext P targetTbid 0 none u = .ok u.clean ↔
    u.inner.tbid = targetTbid ∧ u.inner.FirstRecord := by
  rw [gateNext]
  split
  · rename_i h
    refine iff_of_false (Result.err_ne_ok _ _) fun hfirst ↦ ?_
    rcases h with h | h
    · rw [hfirst.2.chrononNumber_eq] at h
      exact absurd h (by decide)
    · exact hfirst.2.publicKey_ne h
  split
  · rename_i h
    exact iff_of_false (Result.err_ne_ok _ _) fun hfirst ↦ h hfirst.1
  · rename_i h
    rw [if_pos rfl, Result.mapErr_eq_ok, UnverifiedSignatureEnvelope.verifyChronon_none]
    exact (and_iff_right (not_not.1 h)).symm

theorem gateNext_succ : gateNext P targetTbid (i + 1) (some prev) u = .ok u.clean ↔
    ((u.inner.chrononNumber ≠ 0 ∧ u.inner.publicKey ≠ []) ∧ u.inner.tbid = targetTbid) ∧
      LinkedTo P prev.inner u.inner := by
  rw [gateNext]
  split
  · rename_i h
    exact iff_of_false (Result.err_ne_ok _ _) fun hall ↦ h.elim hall.1.1.1 hall.1.1.2
  split
  · rename_i h
    exact iff_of_false (Result.err_ne_ok _ _) fun hall ↦ h hall.1.2
  · rename_i hstruct htbid
    rw [if_neg (Nat.succ_ne_zero i), Result.mapErr_eq_ok,
      UnverifiedSignatureEnvelope.verifyChronon_some]
    exact (and_iff_right ⟨not_or.1 hstruct, not_not.1 htbid⟩).symm

theorem eq_clean_of_gateNext {last : Option CleanChronon} {c : CleanChronon}
    (h : gateNext P targetTbid i last u = .ok c) : c = u.clean := by
  unfold gateNext at h
  split at h
  · exact absurd h (Result.err_ne_ok _ _)
  split at h
  · exact absurd h (Result.err_ne_ok _ _)
  split at h
  · exact UnverifiedSignatureEnvelope.eq_clean_of_verifyChronon (Result.mapErr_eq_ok.1 h)
  cases last with
  | none => cases h
  | some prev =>
    exact UnverifiedSignatureEnvelope.eq_clean_of_verifyChronon (Result.mapErr_eq_ok.1 h)

/-- A condition on the later of two neighbours is a condition on all elements but the first. -/
theorem isChain_and_right {α : Type} {p : α → Prop} {S : α → α → Prop} {a : α} {l : List α} :
    (a :: l).IsChain (fun x y ↦ p y ∧ S x y) ↔ (∀ y ∈ l, p y) ∧ (a :: l).IsChain S := by
  induction l generalizing a with
  | nil => simp
  | cons b l ih =>
    rw [List.isChain_cons_cons, ih, List.isChain_cons_cons, List.forall_mem_cons]
    tauto

/-- The gate accepts exactly the batches of the target's records that start with a first record,
are linked, and have no zero number and no empty key. -/
theorem gateChrononRecords_eq_ok {records : List ChrononRecord} {cs : List CleanChronon} :
    gateChrononRecords P targetTbid records = .ok cs ↔
      cs = records.map .fromTrusted ∧ (∀ r ∈ records.head?, r.FirstRecord) ∧
        records.IsChain (LinkedTo P) ∧
        ∀ r ∈ records, (r.chrononNumber ≠ 0 ∧ r.publicKey ≠ []) ∧ r.tbid = targetTbid := by
  have hall := @verifyAll_eq_ok _ (gateNext P targetTbid)
    (fun prev curr ↦ ((curr.chrononNumber ≠ 0 ∧ curr.publicKey ≠ []) ∧ curr.tbid = targetTbid) ∧
      LinkedTo P prev curr)
    eq_clean_of_gateNext gateNext_succ (records.map .fromParsed) cs 0 none
  rw [gateChrononRecords, hall, map_inner_fromParsed, map_clean_fromParsed]
  refine and_congr_right fun _ ↦ ?_
  cases records with
  | nil => simp
  | cons first rest =>
    rw [isChain_and_right, List.map_cons, List.head?_cons, List.head?_cons]
    have hfirst : gateNext P targetTbid 0 none (.fromParsed first) =
        .ok (UnverifiedSignatureEnvelope.fromParsed first).clean ↔
          first.tbid = targetTbid ∧ first.FirstRecord := gateNext_zero
    have hroot : first.FirstRecord → first.chrononNumber ≠ 0 ∧ first.publicKey ≠ [] := by
      intro h
      rw [h.chrononNumber_eq]
      exact ⟨by decide, h.publicKey_ne⟩
    simp only [Option.mem_def, Option.some.injEq, forall_eq', hfirst, List.forall_mem_cons]
    constructor
    · rintro ⟨⟨htbid, hf⟩, hrest, hchain⟩
      exact ⟨hf, hchain, ⟨hroot hf, htbid⟩, hrest⟩
    · rintro ⟨hf, hchain, ⟨-, htbid⟩, hrest⟩
      exact ⟨⟨htbid, hf⟩, hrest, hchain⟩

end Gate

/-! ### Channel binding and authenticated ping -/

/-- The reply to a channel-binding challenge. -/
structure ChannelBinding where
  /-- TBID of the responder, hex-encoded. -/
  responderTbid : String
  /-- The nonce, hex-encoded. -/
  nonceEcho : String
  /-- Transport identity string. -/
  channelId : String
  /-- Ed25519 signature, hex-encoded. -/
  fastSig : String
  /-- SLH-DSA signature, hex-encoded. -/
  slowSig : String
  deriving DecidableEq

/-- The reply to an authenticated ping. -/
structure AuthenticatedPong where
  /-- TBID of the responder, hex-encoded. -/
  responderTbid : String
  /-- The challenge, hex-encoded. -/
  challengeEcho : String
  /-- Ed25519 signature, hex-encoded. -/
  signature : String
  /-- Identifier of the signature algorithm. -/
  signatureAlgorithm : String
  deriving DecidableEq

/-- Data whose two signatures were verified. -/
structure CleanFullyAuthenticated (α : Type) where
  /-- The payload. -/
  inner : α

/-- `binding_msg`: `nonce ‖ channel_id ‖ responder_tbid_hex`. -/
def bindingMsg (nonce : Bytes) (channelId responderTbidHex : String) : Bytes :=
  nonce ++ asBytes channelId ++ asBytes responderTbidHex

/-- The message of an authenticated ping: `challenge ‖ responder_tbid_hex`. -/
def pingMsg (challenge : Bytes) (responderTbidHex : String) : Bytes :=
  challenge ++ asBytes responderTbidHex

/-- A decoded value, or a structural error. -/
def orStructural {α : Type} (message : String) : Option α → Result CommunerdetteError α
  | some a => pure a
  | none => .err (.structural message)

@[simp] theorem orStructural_eq_ok {α : Type} {message : String} {o : Option α} {a : α} :
    orStructural message o = .ok a ↔ o = some a := by
  cases o <;> simp [orStructural]

/-- `check_binding_fields`. -/
def checkBindingFields (inner : ChannelBinding) (nonce : Bytes) (channelId : String)
    (targetTbid : Tbid) : Result CommunerdetteError Unit := do
  let responder ← orStructural "bad responder_tbid hex" (Tbid.fromHex inner.responderTbid)
  if responder ≠ targetTbid then .err (.tbidMismatch targetTbid.toHex inner.responderTbid)
  else
    let nonceEcho ← orStructural "nonce_echo not hex" (hexDecode inner.nonceEcho)
    if nonceEcho ≠ nonce then .err (.structural "nonce_echo mismatch")
    else if inner.channelId ≠ channelId then .err (.structural "channel_id mismatch")
    else pure ()

variable (P : Primitives)

/-- `verify_full`: the two signatures together must be a TBID signature. -/
def ChannelBinding.verifyFull (inner : ChannelBinding) (nonce : Bytes) (channelId : String)
    (targetTbid : Tbid) : Result CommunerdetteError (CleanFullyAuthenticated ChannelBinding) := do
  checkBindingFields inner nonce channelId targetTbid
  let fastBytes ← orStructural "fast_sig not hex" (hexDecode inner.fastSig)
  let slowBytes ← orStructural "slow_sig not hex" (hexDecode inner.slowSig)
  let msg := bindingMsg nonce channelId inner.responderTbid
  let ok ← (tbidVerify P targetTbid.rawBytes msg (fastBytes ++ slowBytes)).mapErr
    fun e ↦ .cleanAuth (.crypto (.crypto e))
  if !ok then .err (.cleanAuth .invalidSignature)
  else pure ⟨inner⟩

/-- `UnverifiedSignatureEnvelopeAuthenticatedPong::verify`. -/
def AuthenticatedPong.verify (inner : AuthenticatedPong) (challenge : Bytes)
    (targetTbid : Tbid) : Result CommunerdetteError (CleanAuthenticated AuthenticatedPong) := do
  let responder ← orStructural "bad responder_tbid" (Tbid.fromHex inner.responderTbid)
  if responder ≠ targetTbid then .err (.tbidMismatch targetTbid.toHex inner.responderTbid)
  else
    let echo ← orStructural "challenge_echo not hex" (hexDecode inner.challengeEcho)
    if echo ≠ challenge then .err (.structural "challenge_echo mismatch")
    else
      let sig ← orStructural "signature not hex" (hexDecode inner.signature)
      let ok ← (verifyWith P targetTbid.ed25519PublicKey.toList "Ed25519"
        (pingMsg challenge targetTbid.toHex) sig).mapErr fun e ↦ .cleanAuth (.crypto (.crypto e))
      if !ok then .err (.cleanAuth .invalidSignature)
      else pure (.fromTrusted inner)

section Replies

variable {P} {nonce challenge : Bytes} {channelId : String} {targetTbid : Tbid}

theorem fromHex_of_checkBindingFields {inner : ChannelBinding} {u : Unit}
    (h : checkBindingFields inner nonce channelId targetTbid = .ok u) :
    Tbid.fromHex inner.responderTbid = some targetTbid := by
  obtain ⟨responder, hresponder, h⟩ := Result.bind_eq_ok.1 h
  split at h
  · exact absurd h (Result.err_ne_ok _ _)
  · rename_i hne
    rw [← not_not.1 hne]
    exact orStructural_eq_ok.1 hresponder

/-- An accepted channel binding names the target, repeats the challenge and carries a TBID
signature of the target. -/
theorem tbidVerify_of_verifyFull {inner : ChannelBinding}
    {clean : CleanFullyAuthenticated ChannelBinding}
    (h : inner.verifyFull P nonce channelId targetTbid = .ok clean) :
    checkBindingFields inner nonce channelId targetTbid = .ok () ∧
      (∃ fastBytes slowBytes, hexDecode inner.fastSig = some fastBytes ∧
        hexDecode inner.slowSig = some slowBytes ∧
        tbidVerify P targetTbid.rawBytes (bindingMsg nonce channelId inner.responderTbid)
          (fastBytes ++ slowBytes) = .ok true) ∧ clean = ⟨inner⟩ := by
  obtain ⟨_, hfields, h⟩ := Result.bind_eq_ok.1 h
  obtain ⟨fastBytes, hfast, h⟩ := Result.bind_eq_ok.1 h
  obtain ⟨slowBytes, hslow, h⟩ := Result.bind_eq_ok.1 h
  obtain ⟨ok, hok, h⟩ := Result.bind_eq_ok.1 h
  cases ok with
  | false => exact absurd h (Result.err_ne_ok _ _)
  | true =>
    exact ⟨hfields, ⟨fastBytes, slowBytes, orStructural_eq_ok.1 hfast,
      orStructural_eq_ok.1 hslow, Result.mapErr_eq_ok.1 hok⟩, (Result.pure_eq_ok.1 h).symm⟩

/-- An accepted pong carries an Ed25519 signature of the target. -/
theorem verifyWith_of_verify {inner : AuthenticatedPong}
    {clean : CleanAuthenticated AuthenticatedPong}
    (h : inner.verify P challenge targetTbid = .ok clean) :
    ∃ sig, hexDecode inner.signature = some sig ∧
      verifyWith P targetTbid.ed25519PublicKey.toList "Ed25519"
        (pingMsg challenge targetTbid.toHex) sig = .ok true := by
  obtain ⟨responder, -, h⟩ := Result.bind_eq_ok.1 h
  split at h
  · exact absurd h (Result.err_ne_ok _ _)
  obtain ⟨echo, -, h⟩ := Result.bind_eq_ok.1 h
  split at h
  · exact absurd h (Result.err_ne_ok _ _)
  obtain ⟨sig, hsig, h⟩ := Result.bind_eq_ok.1 h
  obtain ⟨ok, hok, h⟩ := Result.bind_eq_ok.1 h
  cases ok with
  | false => exact absurd h (Result.err_ne_ok _ _)
  | true => exact ⟨sig, orStructural_eq_ok.1 hsig, Result.mapErr_eq_ok.1 hok⟩

end Replies

end Foretias

import Foretias.Server.CrossNodeVerify
import Foretias.Server.EncryptedStore
import Foretias.Server.PeerRegistration
import Foretias.Server.StorageProofRequests

/-!
# Where verification is entered

Peers send records, signatures and keys of any length to the entry points of verification. Each
returns a value or an error, or panics where a slice or a copy does not fit, and for each the exact
condition on what is sent is given:

* `returns_verifyWith`, `returns_tbidVerify` and `returns_verifyPair` for single signatures and for
  pairs of records, `returns_unsealForSelf` for sealed blobs;
* `returns_handle_iff` for the mirror's requests, over the chain of their records (`FitsChain`);
* `returns_handleVerify_iff` for `verify` requests, `returns_validatePeerRegistration` for DHT
  records, `isSome_handleStorageProofVerify_iff` for storage proofs.

`VerificationCall.returns_iff_fits` puts them together. No entry point checks all the lengths that
it relies on; `not_verificationCall_returns` has a request that panics for three of them.
-/

namespace Foretias

open Result

variable {P : Primitives}

/-! ### Batches of records -/

section Batches

variable {u : UnverifiedChronon} {prev : CleanChronon} {latest : Option ChrononRecord}
  {failed : CleanAuthError → String} {message : String}

/-- Against a predecessor, the signatures that are reached are to fit. -/
theorem returns_verifyChronon_some :
    Returns (u.verifyChronon P (some prev)) ↔ FitsPair prev.inner u.inner := by
  rw [UnverifiedSignatureEnvelope.verifyChronon, returns_bind_iff, returns_mapErr,
    returns_verifyPair]
  refine and_iff_left fun valid _ ↦ ?_
  split
  · exact returns_err _
  · exact returns_pure _

/-- Without a predecessor no signature is looked at. -/
theorem returns_verifyChronon_none : Returns (u.verifyChronon P none) := by
  rw [UnverifiedSignatureEnvelope.verifyChronon]
  split_ifs
  · exact returns_err _
  · exact returns_err _
  · exact returns_err _
  · exact returns_pure _

theorem returns_genesis : Returns (if u.inner.isGenesis then
    (u.verifyChronon P none).mapErr failed else .err message) := by
  split
  · exact returns_mapErr.2 returns_verifyChronon_none
  · exact returns_err _

/-- A gate that checks a record against the last stored one, or lets a genesis record through. -/
theorem returns_latest : Returns (match (motive := _ → Result String CleanChronon) latest with
    | some trusted => (u.verifyChronon P (some (.fromTrusted trusted))).mapErr failed
    | none => if u.inner.isGenesis then (u.verifyChronon P none).mapErr failed
      else .err message) ↔ ∀ p ∈ latest, FitsPair p u.inner := by
  cases latest with
  | some trusted =>
    rw [returns_mapErr, returns_verifyChronon_some]
    simp [CleanAuthenticated.fromTrusted]
  | none => exact iff_of_true returns_genesis nofun

variable (P) in
/-- Each record that is checked against the one before it, all before it having been accepted,
has signatures that fit. -/
def FitsChain : Option ChrononRecord → List ChrononRecord → Prop
  | _, [] => True
  | prev, r :: rs => (∀ p ∈ prev, FitsPair p r) ∧ (Follows P prev r → FitsChain (some r) rs)

/-- A loop over a batch returns exactly if its records fit, when that is so of each step. -/
theorem returns_verifyAll {verifyNext : ℕ → Option CleanChronon → UnverifiedChronon →
    Result String CleanChronon}
    (hclean : ∀ {i last u c}, verifyNext i last u = .ok c → c = u.clean)
    (hnext : ∀ {i : ℕ} {prev : CleanChronon} {u : UnverifiedChronon},
      verifyNext (i + 1) (some prev) u = .ok u.clean ↔ LinkedTo P prev.inner u.inner)
    (hfirst : ∀ {u : UnverifiedChronon},
      verifyNext 0 none u = .ok u.clean ↔ Follows P latest u.inner)
    (hreturnsNext : ∀ {i : ℕ} {prev : CleanChronon} {u : UnverifiedChronon},
      Returns (verifyNext (i + 1) (some prev) u) ↔ FitsPair prev.inner u.inner)
    (hreturnsFirst : ∀ {u : UnverifiedChronon},
      Returns (verifyNext 0 none u) ↔ ∀ p ∈ latest, FitsPair p u.inner)
    {rs : List ChrononRecord} :
    Returns (verifyAll verifyNext 0 none (rs.map .fromParsed)) ↔ FitsChain P latest rs := by
  -- one step, then the rest after the record that was accepted
  have hcons : ∀ {i last u us}, Returns (verifyAll verifyNext i last (u :: us)) ↔
      Returns (verifyNext i last u) ∧ (verifyNext i last u = .ok u.clean →
        Returns (verifyAll verifyNext (i + 1) (some u.clean) us)) := by
    intro i last u us
    rw [verifyAll, returns_bind_iff]
    refine and_congr_right fun _ ↦ ⟨fun h hok ↦ (returns_bind_iff.1 (h _ hok)).1, fun h c hc ↦ ?_⟩
    obtain rfl := hclean hc
    exact returns_bind_iff.2 ⟨h hc, fun _ _ ↦ returns_pure _⟩
  have hrest : ∀ {rs : List ChrononRecord} {i : ℕ} {prev : CleanChronon},
      Returns (verifyAll verifyNext (i + 1) (some prev) (rs.map .fromParsed)) ↔
        FitsChain P (some prev.inner) rs := by
    intro rs
    induction rs with
    | nil => exact fun {_ _} ↦ iff_of_true (returns_pure _) trivial
    | cons r rs ih =>
      intro i prev
      rw [List.map_cons, hcons, hreturnsNext, hnext, FitsChain, ih]
      simp only [Option.mem_def, Option.some.injEq, forall_eq']
      exact Iff.rfl
  cases rs with
  | nil => exact iff_of_true (returns_pure _) trivial
  | cons r rs =>
    rw [List.map_cons, hcons, hreturnsFirst, hfirst, FitsChain, hrest]
    exact Iff.rfl

/-- A chain that is shipped is checked without a panic exactly if it fits from its root on, -/
theorem returns_verifyShipAckChain {rs : List ChrononRecord} :
    Returns (verifyShipAckChain P (rs.map .fromParsed)) ↔ FitsChain P none rs := by
  refine returns_verifyAll eq_clean_of_shipAckNext ?_ ?_ ?_ ?_
  · intro i prev u
    rw [shipAckNext, if_neg (Nat.succ_ne_zero i), mapErr_eq_ok]
    exact UnverifiedSignatureEnvelope.verifyChronon_some
  · intro u
    rw [shipAckNext, if_pos rfl]
    exact genesis_eq_ok
  · intro i prev u
    rw [shipAckNext, if_neg (Nat.succ_ne_zero i), returns_mapErr, returns_verifyChronon_some]
  · intro u
    rw [shipAckNext, if_pos rfl]
    exact iff_of_true returns_genesis fun _ h ↦ absurd h (Option.not_mem_none _)

/-- a streamed record if it fits the latest one, -/
theorem returns_verifyStreamTickRecord :
    Returns (verifyStreamTickRecord P latest u) ↔ ∀ p ∈ latest, FitsPair p u.inner :=
  returns_latest

/-- and a chunk if it fits from the latest one on. -/
theorem returns_verifyHistoryDumpChunk {rs : List ChrononRecord} :
    Returns (verifyHistoryDumpChunk P latest (rs.map .fromParsed)) ↔ FitsChain P latest rs := by
  refine returns_verifyAll eq_clean_of_dumpChunkNext ?_ ?_ ?_ ?_
  · intro i prev u
    exact mapErr_eq_ok.trans UnverifiedSignatureEnvelope.verifyChronon_some
  · intro u
    cases latest with
    | some trusted => exact mapErr_eq_ok.trans UnverifiedSignatureEnvelope.verifyChronon_some
    | none => exact genesis_eq_ok
  · intro i prev u
    exact returns_mapErr.trans returns_verifyChronon_some
  · exact returns_latest

end Batches

/-! ### Requests to a mirror -/

section Mirror

open ErrorState

variable {α β : Type} {store : MirrorStore}

/-- A handler returns a reply or an error response: it does not panic. -/
def HandlerReturns (x : Handler α) (store : MirrorStore) : Prop :=
  ∀ t, x store ≠ .error .panic t

theorem handlerReturns_of_ok {x : Handler α} (h : ∃ a t, x store = .ok a t) :
    HandlerReturns x store := by
  obtain ⟨a, t, h⟩ := h
  intro t' hpanic
  rw [h] at hpanic
  cases hpanic

theorem handlerReturns_bind_iff {x : Handler α} {f : α → Handler β} :
    HandlerReturns (x >>= f) store ↔
      HandlerReturns x store ∧ ∀ a t, x store = .ok a t → HandlerReturns (f a) t := by
  simp only [HandlerReturns, bind_apply]
  cases x store with
  | ok a t => simp
  | error e t => simp

theorem handlerReturns_orInvalidParams {x : Result String α} :
    HandlerReturns (orInvalidParams x) store ↔ Returns x := by
  match x with
  | .ok a => exact iff_of_true (handlerReturns_of_ok ⟨a, store, rfl⟩) (returns_ok a)
  | .error (.err e) => exact iff_of_true nofun nofun
  | .error .panic => exact iff_of_false (fun h ↦ h store rfl) not_returns_panic

theorem returns_parseRecords {raw : List ParsedRecord} : Returns (parseRecords raw) := by
  induction raw with
  | nil => exact returns_pure _
  | cons v raw ih =>
    cases v with
    | ok r => exact returns_bind_iff.2 ⟨ih, fun _ _ ↦ returns_pure _⟩
    | error e => exact returns_err _

theorem handlerReturns_orInvalidParams_bind_iff {x : Result String α} {f : α → Handler β} :
    HandlerReturns (orInvalidParams x >>= f) store ↔
      Returns x ∧ ∀ a, x = .ok a → HandlerReturns (f a) store := by
  rw [handlerReturns_bind_iff, handlerReturns_orInvalidParams]
  refine and_congr_right fun _ ↦ forall_congr' fun a ↦ ⟨fun h hx ↦ ?_, fun h t ht ↦ ?_⟩
  · exact h store (orInvalidParams_eq_ok.2 ⟨hx, rfl⟩)
  · obtain ⟨hx, rfl⟩ := orInvalidParams_eq_ok.1 ht
    exact h hx

/-- A handler that replies after its last check returns if the check does. -/
theorem handlerReturns_orInvalidParams_reply {x : Result String α} {f : α → Handler β}
    (h : Returns x) (hreply : ∀ a, ∃ b t, f a store = .ok b t) :
    HandlerReturns (orInvalidParams x >>= f) store :=
  handlerReturns_orInvalidParams_bind_iff.2 ⟨h, fun a _ ↦ handlerReturns_of_ok (hreply a)⟩

/-- `ship_ack` returns exactly if what parses fits, -/
theorem returns_handleShipAck {params : BatchParams} :
    HandlerReturns (handleShipAck P params) store ↔
      ∀ rs : List ChrononRecord, params.rawRecords = rs.map .ok → FitsChain P none rs := by
  rw [handleShipAck, handlerReturns_orInvalidParams_bind_iff, and_iff_right returns_parseRecords]
  constructor
  · intro h rs hraw
    have hverify := h _ (parseRecords_eq_ok.2 ⟨rs, hraw, rfl⟩)
    cases rs with
    | nil => trivial
    | cons r rs =>
      rw [if_neg (by simp), handlerReturns_orInvalidParams_bind_iff,
        returns_verifyShipAckChain] at hverify
      exact hverify.1
  · intro h us hparsed
    obtain ⟨rs, hraw, rfl⟩ := parseRecords_eq_ok.1 hparsed
    cases rs with
    | nil => exact handlerReturns_of_ok ⟨_, _, rfl⟩
    | cons r rs =>
      rw [if_neg (by simp)]
      exact handlerReturns_orInvalidParams_reply (returns_verifyShipAckChain.2 (h _ hraw))
        fun _ ↦ ⟨_, _, rfl⟩

/-- `stream_tick` too, -/
theorem returns_handleStreamTick {params : StreamTickParams} :
    HandlerReturns (handleStreamTick P params) store ↔ ∀ r, params.record = some (.ok r) →
      ∀ p ∈ store.latestRecord (params.tbid.getD ""), FitsPair p r := by
  have hparse : Returns (parseStreamTickRecord params.record) := by
    match params.record with
    | none => exact returns_err _
    | some (.ok r) => exact returns_pure _
    | some (.error e) => exact returns_err _
  rw [handleStreamTick, handlerReturns_orInvalidParams_bind_iff, and_iff_right hparse]
  constructor
  · intro h r hrecord
    have hafter := h _ (parseStreamTickRecord_eq_ok.2 ⟨r, hrecord, rfl⟩)
    have hverify := (handlerReturns_bind_iff.1 hafter).2 _ _ rfl
    rw [handlerReturns_orInvalidParams_bind_iff, returns_verifyStreamTickRecord] at hverify
    exact hverify.1
  · intro h u hparsed
    obtain ⟨r, hrecord, rfl⟩ := parseStreamTickRecord_eq_ok.1 hparsed
    refine handlerReturns_bind_iff.2 ⟨handlerReturns_of_ok ⟨_, _, rfl⟩, ?_⟩
    rintro _ _ ⟨⟩
    exact handlerReturns_orInvalidParams_reply (returns_verifyStreamTickRecord.2 (h r hrecord))
      fun _ ↦ ⟨_, _, rfl⟩

/-- and `history_dump_chunk`, for a chunk that it does not refuse for its length. -/
theorem returns_handleHistoryDumpChunk {params : BatchParams} :
    HandlerReturns (handleHistoryDumpChunk P params) store ↔
      ∀ (tbid : String) (rs : List ChrononRecord), params.tbid = some tbid →
        params.rawRecords = rs.map .ok → rs.length ≤ maxCalendarSliceCount →
        FitsChain P (store.latestRecord tbid) rs := by
  have hparse : Returns (parseHistoryDumpChunkParams params) := by
    rw [parseHistoryDumpChunkParams]
    cases params.tbid with
    | none => exact returns_err _
    | some tbid =>
      dsimp only
      split
      · exact returns_err _
      · exact returns_bind_iff.2 ⟨returns_parseRecords, fun _ _ ↦ returns_pure _⟩
  rw [handleHistoryDumpChunk, handlerReturns_orInvalidParams_bind_iff, and_iff_right hparse]
  constructor
  · intro h tbid rs htbid hraw hlength
    have hafter := h _ (parseHistoryDumpChunkParams_eq_ok.2 ⟨htbid, rs, hraw, hlength, rfl⟩)
    have hverify := (handlerReturns_bind_iff.1 hafter).2 _ _ rfl
    rw [handlerReturns_orInvalidParams_bind_iff, returns_verifyHistoryDumpChunk] at hverify
    exact hverify.1
  · rintro h ⟨tbid, us⟩ hparsed
    obtain ⟨htbid, rs, hraw, hlength, rfl⟩ := parseHistoryDumpChunkParams_eq_ok.1 hparsed
    refine handlerReturns_bind_iff.2 ⟨handlerReturns_of_ok ⟨_, _, rfl⟩, ?_⟩
    rintro _ _ ⟨⟩
    have hfits := h tbid rs htbid hraw hlength
    exact handlerReturns_orInvalidParams_reply (returns_verifyHistoryDumpChunk.2 hfits)
      fun _ ↦ ⟨_, _, rfl⟩

/-- **A request to a mirror is replied to exactly if its records fit**, checked one against the
other and the first one against the record that the handler goes on from. -/
theorem returns_handle_iff {req : MirrorRequest} : HandlerReturns (req.handle P) store ↔
    ∀ rs, req.Carries rs → FitsChain P (req.predecessor store) rs := by
  have hreply : ∀ {α : Type} {x : Handler α},
      HandlerReturns (do let _ ← x) store ↔ HandlerReturns x store := by
    intro α x
    rw [handlerReturns_bind_iff]
    exact and_iff_left fun _ _ _ ↦ handlerReturns_of_ok ⟨_, _, rfl⟩
  cases req with
  | shipAck params => exact hreply.trans returns_handleShipAck
  | streamTick params =>
    refine (hreply.trans returns_handleStreamTick).trans ⟨?_, fun h r hrecord ↦ ?_⟩
    · rintro h _ ⟨r, hrecord, rfl⟩
      exact ⟨h r hrecord, fun _ ↦ trivial⟩
    · exact (h [r] ⟨r, hrecord, rfl⟩).1
  | historyDumpChunk params =>
    refine (hreply.trans returns_handleHistoryDumpChunk).trans ⟨?_, fun h ↦ ?_⟩
    · rintro h rs ⟨hsome, hraw, hlength⟩
      obtain ⟨tbid, htbid⟩ := Option.isSome_iff_exists.1 hsome
      rw [MirrorRequest.predecessor, htbid]
      exact h tbid rs htbid hraw hlength
    · intro tbid rs htbid hraw hlength
      have hfits := h rs ⟨by rw [htbid]; rfl, hraw, hlength⟩
      rwa [MirrorRequest.predecessor, htbid] at hfits

end Mirror

/-! ### Registrations, sealed blobs and verify requests -/

/-- A registration record is validated exactly if its signature, when there is one, is not shorter
than an Ed25519 signature. -/
theorem returns_validatePeerRegistration {F : PeerFormat} {record : PeerRegistrationRecord} :
    Returns (validatePeerRegistration P F record) ↔ (record.WellFormed →
      (hexDecode record.tbid).isSome → record.signature ≠ [] → 64 ≤ record.signature.length) := by
  by_cases hform : record.WellFormed
  · rw [forall_prop_of_true hform, hform.validate_eq]
    by_cases hsigned : record.signature = []
    · rw [if_pos hsigned]
      exact iff_of_true (returns_pure _) fun _ h ↦ absurd hsigned h
    rw [if_neg hsigned]
    cases hpubkey : hexDecode record.tbid with
    | none => exact iff_of_true (returns_pure _) nofun
    | some pubkey =>
      have hlength : (pubkey.take 32).length = 32 := by
        rw [List.length_take, Nat.min_eq_left (hform.le_length_of_hexDecode hpubkey)]
      rw [Option.elim_some, returns_mapErr, returns_verifyWith, fitsAlgorithm_ed25519, hlength]
      exact ⟨fun h _ _ ↦ h.2, fun h ↦ ⟨le_rfl, h rfl hsigned⟩⟩
  · refine iff_of_true ?_ fun h ↦ absurd h hform
    rw [validatePeerRegistration]
    split
    · exact returns_pure _
    rename_i hpeer
    split
    · exact returns_pure _
    rename_i htbid
    split
    · exact returns_pure _
    rename_i hrpc
    obtain ⟨hlength, hhex⟩ := not_or.1 htbid
    refine absurd ⟨hpeer, Nat.not_lt.1 hlength, fun c hc hnone ↦ hhex ?_, hrpc⟩ hform
    exact List.any_eq_true.2 ⟨c, hc, decide_eq_true hnone⟩

/-- A blob is unsealed without a panic exactly if its nonce has 12 bytes. -/
theorem returns_unsealForSelf {A : Type} {F : StoreFormat A} {key : FixedBytes 32}
    {blob : SealedBlob} : Returns (F.unsealForSelf key blob) ↔ blob.nonce.length = 12 := by
  rw [StoreFormat.unsealForSelf, FixedBytes.ofBytes?]
  split
  · rename_i hnone
    split at hnone
    · cases hnone
    · rename_i hlength
      exact iff_of_false not_returns_panic hlength
  · rename_i nonce hsome
    split at hsome
    · rename_i hlength
      refine iff_of_true ?_ hlength
      split
      · exact returns_pure _
      · exact returns_err _
    · cases hsome

namespace VerifyServer

variable (P) in
/-- The request is refused, or its signature fits under the key that the server's own calendar has
for the chronon, and it is decided there. -/
def Fits (server : VerifyServer) (params : VerifyRequest) : Prop :=
  ∀ vp, server.parseVerifyParams params = .ok vp →
    (∀ rec ∈ (server.calendar.get vp.foretis.chrononNumber 1).head?,
      P.sha256 vp.content = vp.foretis.contentHash →
        FitsAlgorithm rec.publicKey vp.signatureAlgorithm vp.signature) ∧
    (vp.crossNode = true → vp.foretis.tbid ≠ server.tbid →
      ∃ rec ∈ (server.calendar.get vp.foretis.chrononNumber 1).head?,
        P.sha256 vp.content = vp.foretis.contentHash ∧
        verifyWith P rec.publicKey vp.signatureAlgorithm (P.postcard vp.foretis) vp.signature =
          .ok true)

variable {server : VerifyServer} {params : VerifyRequest}

/-- A request is refused, or what is to be parsed again is the attestation that was parsed. -/
theorem parseVerifyParams_cases : (∃ e, server.parseVerifyParams params = .err e) ∨
    ∃ vp, server.parseVerifyParams params = .ok vp ∧ vp.foretisValue = .ok vp.foretis := by
  rw [parseVerifyParams]
  split
  · exact .inl ⟨_, rfl⟩
  split
  · exact .inl ⟨_, rfl⟩
  dsimp only
  split
  · exact .inl ⟨_, rfl⟩
  split
  · exact .inl ⟨_, rfl⟩
  split
  · exact .inl ⟨_, rfl⟩
  · exact .inr ⟨_, rfl, rfl⟩

theorem returns_parseVerifyParams : Returns (server.parseVerifyParams params) := by
  obtain ⟨e, he⟩ | ⟨vp, hvp, -⟩ := server.parseVerifyParams_cases
  · exact he ▸ returns_err e
  · exact hvp ▸ returns_ok vp

theorem foretisValue_of_parseVerifyParams {vp : VerifyParams}
    (h : server.parseVerifyParams params = .ok vp) : vp.foretisValue = .ok vp.foretis := by
  obtain ⟨e, he⟩ | ⟨vp', hvp, hvalue⟩ := server.parseVerifyParams_cases
  · exact absurd (he.symm.trans h) (err_ne_ok _ _)
  · obtain rfl := Except.ok.inj (hvp.symm.trans h)
    exact hvalue

section Local

variable {foretis : ForetisRecord} {signature content : Bytes} {signatureAlgorithm : String}

/-- A local check returns exactly if the algorithm fits, where there is a record and the content is
the stamped one. -/
theorem returns_tryLocalVerify :
    Returns (server.tryLocalVerify P foretis signature signatureAlgorithm content) ↔
      ∀ rec ∈ (server.calendar.get foretis.chrononNumber 1).head?,
        P.sha256 content = foretis.contentHash →
          FitsAlgorithm rec.publicKey signatureAlgorithm signature := by
  rw [tryLocalVerify]
  split
  · rename_i hnone
    rw [hnone]
    exact iff_of_true (returns_pure _) fun _ h ↦ absurd h (Option.not_mem_none _)
  · have hlookup : server.calendar.lookup.get foretis.chrononNumber 1 =
        .ok (server.calendar.get foretis.chrononNumber 1) := rfl
    rw [returns_unwrapOr, returns_verify, hlookup]
    simp only [returns_ok, true_and, Except.ok.injEq, forall_eq']
    exact forall_comm.trans (forall_congr' fun rec ↦ forall_comm)

/-- The server's own calendar has a verdict, or the call panics. -/
theorem exists_tryLocalVerify_eq_ok
    (h : Returns (server.tryLocalVerify P foretis signature signatureAlgorithm content)) :
    ∃ valid, server.tryLocalVerify P foretis signature signatureAlgorithm content = .ok valid := by
  rw [tryLocalVerify] at h ⊢
  split
  · exact ⟨_, rfl⟩
  · rename_i hsome
    rw [if_neg hsome] at h
    cases hverify : verify P foretis signature signatureAlgorithm content
        server.calendar.lookup with
    | ok valid => exact ⟨valid, rfl⟩
    | error fault =>
      cases fault with
      | err _ => exact ⟨false, rfl⟩
      | panic =>
        rw [hverify] at h
        exact absurd rfl h

/-- Inside a runtime the cross-node attempt panics. -/
theorem not_returns_buildCrossNodeVerifyResponse (hblock : server.mayBlock = false)
    {tbidHex : String} :
    ¬Returns (server.buildCrossNodeVerifyResponse P (.ok foretis) content tbidHex) := by
  rw [buildCrossNodeVerifyResponse]
  change ¬Returns (mapErr _ _ >>= _)
  rw [returns_bind_iff, returns_mapErr, blockOn, hblock]
  exact fun h ↦ not_returns_panic h.1

end Local

/-- **Inside a runtime, a `verify` request is replied to exactly if its signature fits and it is
not left to the cross-node attempt.** -/
theorem returns_handleVerify_iff (hblock : server.mayBlock = false) :
    Returns (server.handleVerify P params) ↔ server.Fits P params := by
  rw [handleVerify, returns_bind_iff, returns_mapErr, and_iff_right returns_parseVerifyParams]
  refine forall_congr' fun vp ↦ ?_
  rw [mapErr_eq_ok]
  refine forall_congr' fun hparams ↦ ?_
  rw [returns_bind_iff, returns_tryLocalVerify]
  refine and_congr_right fun hfits ↦ ?_
  constructor
  · intro h hcross hother
    obtain ⟨valid, hvalid⟩ := exists_tryLocalVerify_eq_ok (returns_tryLocalVerify.2 hfits)
    cases valid with
    | true => exact tryLocalVerify_eq_true.1 hvalid
    | false =>
      have hattempt := h _ hvalid
      rw [hcross, if_neg Bool.false_ne_true, if_neg (by decide), if_neg hother,
        foretisValue_of_parseVerifyParams hparams] at hattempt
      exact absurd hattempt (not_returns_buildCrossNodeVerifyResponse hblock)
  · intro h valid hvalid
    cases valid with
    | true => exact returns_pure _
    | false =>
      rw [if_neg Bool.false_ne_true]
      split
      · exact returns_pure _
      rename_i hcross
      split
      · exact returns_pure _
      rename_i hother
      have haccepted := tryLocalVerify_eq_true.2 (h (by simpa using hcross) hother)
      rw [hvalid] at haccepted
      cases haccepted

end VerifyServer

/-! ### All entry points -/

/-- A call of a verification entry point, with what is sent to it. Requests come over TCP or HTTP,
where a handler runs inside the runtime of its connection. -/
inductive VerificationCall
  | verifyWith (pubKey : Bytes) (algId : String) (msg sig : Bytes)
  | tbidVerify (publicKey msg sig : Bytes)
  | unsealForSelf (key : FixedBytes 32) (blob : SealedBlob)
  | verifyPair (tbidStr : String) (prev curr : ChrononRecord)
  | validatePeerRegistration (record : PeerRegistrationRecord)
  | verify (server : VerifyServer) (inside : server.mayBlock = false) (params : VerifyRequest)
  | mirror (store : MirrorStore) (req : MirrorRequest)
  | storageProofVerify (params : StorageProofVerifyParams)

namespace VerificationCall

variable {A : Type}

variable (P) in
/-- The call returns a value or an error. -/
def Returns (F : PeerFormat) (G : StoreFormat A) : VerificationCall → Prop
  | verifyWith pubKey algId msg sig => Result.Returns (Foretias.verifyWith P pubKey algId msg sig)
  | tbidVerify publicKey msg sig => Result.Returns (Foretias.tbidVerify P publicKey msg sig)
  | unsealForSelf key blob => Result.Returns (G.unsealForSelf key blob)
  | verifyPair tbidStr prev curr => Result.Returns (Foretias.verifyPair P tbidStr prev curr)
  | validatePeerRegistration record =>
    Result.Returns (Foretias.validatePeerRegistration P F record)
  | verify server _ params => Result.Returns (server.handleVerify P params)
  | mirror store req => HandlerReturns (req.handle P) store
  | storageProofVerify params => (handleStorageProofVerify P params).isSome

variable (P) in
/-- What is sent has lengths that the call can do with. -/
def Fits : VerificationCall → Prop
  | verifyWith pubKey algId _ sig => FitsAlgorithm pubKey algId sig
  | tbidVerify publicKey _ sig => publicKey.length = 96 → sig.length ≤ tbidV1SigBytes
  | unsealForSelf _ blob => blob.nonce.length = 12
  | verifyPair _ prev curr => FitsPair prev curr
  | validatePeerRegistration record => record.WellFormed → (hexDecode record.tbid).isSome →
    record.signature ≠ [] → 64 ≤ record.signature.length
  | verify server _ params => server.Fits P params
  | mirror store req => ∀ rs, req.Carries rs → FitsChain P (req.predecessor store) rs
  | storageProofVerify params => params.FitArrays

/-- **A verification entry point returns a value or an error exactly if what is sent fits.** -/
theorem returns_iff_fits (F : PeerFormat) (G : StoreFormat A) (call : VerificationCall) :
    call.Returns P F G ↔ call.Fits P := by
  cases call with
  | verifyWith => exact returns_verifyWith
  | tbidVerify => exact returns_tbidVerify
  | unsealForSelf => exact returns_unsealForSelf
  | verifyPair => exact returns_verifyPair
  | validatePeerRegistration => exact returns_validatePeerRegistration
  | verify server inside => exact VerifyServer.returns_handleVerify_iff inside
  | mirror => exact returns_handle_iff
  | storageProofVerify => exact isSome_handleStorageProofVerify_iff

end VerificationCall

/-- A request to verify an attestation without a signature. -/
def unsignedRequest : VerifyRequest := ⟨some "", some (.ok chrononThree), none, none, none⟩

/-- A server whose calendar has a record for it. -/
def gappedServer : VerifyServer where
  tbid := onesTbid
  calendar := gappedCalendar
  communerd := false
  slice _ _ := .ok []
  mayBlock := false
  hexError _ := "Odd number of digits"
  debug _ := "CleanAuth(NotYetImplemented)"

/-- A batch whose first record has a key of one byte. -/
def shortKeyBatch : List ChrononRecord :=
  [{ (default : ChrononRecord) with
      chrononNumber := 1, publicKey := [1], signatureAlgorithm := "Ed25519" },
    { (default : ChrononRecord) with
      chrononNumber := 2, publicKey := List.replicate 32 7, signatureAlgorithm := "Ed25519" }]

/-- A block of 65 leaves of a tree of 65. -/
def manyLeavesBlock : BlockParams :=
  ⟨none, some (hexEncode (List.replicate 32 0)), some 65, none, none, none, some 65⟩

/-- A storage proof of that block. -/
def manyLeavesParams : StorageProofVerifyParams :=
  ⟨some ⟨some "ab", some 0, some 64⟩, some ⟨none, some [manyLeavesBlock]⟩, none⟩

/-- The block is parsed, but its leaves are more than there is room for. -/
theorem exists_parseBlockProof_manyLeavesBlock :
    ∃ bp, parseBlockProof 0 manyLeavesBlock = .ok bp ∧ ¬bp.FitsArrays := by
  have hroot : parseHash (hexEncode (List.replicate 32 0)) = some (.replicate 32 0) := by
    rw [parseHash, hexDecode_hexEncode]
    rfl
  refine ⟨⟨0, .replicate 32 0, parseHashes 65 none, parseHashes 0 none, 65, 0, 65⟩, ?_, ?_⟩
  · simp only [parseBlockProof, manyLeavesBlock, hroot]
    rfl
  · have hcount : toInt32 65 = 65 := toInt32_of_lt (by decide)
    rw [BlockProof.FitsArrays, hcount]
    decide

/-- **Requests that panic**: to verify an attestation without a signature, to store a batch whose
first record has a key of one byte, and to verify a storage proof of 65 leaves. -/
theorem not_verificationCall_returns :
    ¬(VerificationCall.verify gappedServer rfl unsignedRequest).Returns .transparent .unary
      plainFormat ∧
    ¬(VerificationCall.mirror (.new 0) (.shipAck ⟨none, some (shortKeyBatch.map .ok)⟩)).Returns
      .transparent .unary plainFormat ∧
    ¬(VerificationCall.storageProofVerify manyLeavesParams).Returns .transparent .unary
      plainFormat := by
  refine ⟨fun h ↦ ?_, fun h ↦ ?_, fun h ↦ ?_⟩
  · -- the record after the chronon asked for has an Ed25519 key
    have hfits := ((VerifyServer.returns_handleVerify_iff rfl).1 h _ rfl).1 _ rfl rfl
    exact absurd (fitsAlgorithm_ed25519.1 hfits).2 (by decide)
  · -- the second record is checked against the key of the first
    have hchain := returns_handle_iff.1 h _ rfl
    have hpair := (hchain.2 ⟨rfl, by simp, rfl⟩).1 _ rfl
    have hfits := hpair.forward fun hsplits ↦ absurd hsplits.1 (by decide)
    exact absurd (fitsAlgorithm_ed25519.1 hfits).1 (by decide)
  · obtain ⟨bp, hparse, hexceeds⟩ := exists_parseBlockProof_manyLeavesBlock
    have hblocks : parseStorageProofBlocks 0 [manyLeavesBlock] = .ok [bp] := by
      rw [parseStorageProofBlocks, hparse]
      rfl
    have hparams : parseStorageProofVerify manyLeavesParams =
        .ok (⟨0, 64⟩, ⟨[bp], ⟨0, 1⟩⟩, []) := by
      change (do
        let blocks ← parseStorageProofBlocks 0 [manyLeavesBlock]
        pure (StorageProofRequest.mk 0 64, StorageProofResponse.mk blocks ⟨0, 1⟩, [])) = _
      rw [hblocks]
      rfl
    have hfits := isSome_handleStorageProofVerify_iff.1 h _ _ _ hparams (by decide)
    exact hexceeds (hfits bp (List.mem_singleton_self _))

end Foretias

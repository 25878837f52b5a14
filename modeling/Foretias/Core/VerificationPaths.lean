import Foretias.Core.Calendar
import Foretias.Core.CleanAuth

/-!
# The three verification paths

A signed attestation can be checked against a calendar in three ways: `Chronomatter.verify`,
`Chronomatter.verifyUnprocessed` on its envelope, and the standalone client's `verifyWithProof`.
All three look the chronon up with a range query. The last two then insist on the number of the
record found, the first does not:

* `backed_iff` — what the first path accepts is backed by the record of its own chronon exactly
  when it is not the key of the first later record that signed it;
* `verdict_verify`, `verdict_verifyUnprocessed`, `verdict_verifyWithProof` — for a recorded
  chronon all three give the verdict of that record's key (`keyVerdict`).
-/

namespace Foretias

/-! ### The paths -/

section Paths

variable (P : Primitives)

/-- `Chronomatter::verify`. -/
def Chronomatter.verify (foretis : ForetisRecord) (signature : Bytes)
    (signatureAlgorithm : String) (content : Bytes) (calendar : CalendarLookup) :
    Result NodeError Bool :=
  Foretias.verify P foretis signature signatureAlgorithm content calendar

/-- `Chronomatter::verify_unprocessed`. -/
def Chronomatter.verifyUnprocessed (unprocessed : UnverifiedSignatureEnvelope ForetisRecord)
    (content : Bytes) (calendar : CalendarLookup) :
    Result NodeError (CleanAuthenticated ForetisRecord) := do
  let records ← (calendar.get unprocessed.inner.chrononNumber 1).mapErr
    fun e ↦ NodeError.internal s!"calendar lookup failed: {e}"
  match records.head? with
  | none =>
    let n := unprocessed.inner.chrononNumber
    .err (.internal s!"chronon {n} not found in calendar for verification")
  | some rec =>
    (unprocessed.verifyForetis P (.fromTrusted rec) content).mapErr
      fun e ↦ NodeError.internal s!"verification failed: {e}"

/-- Errors of the client. -/
inductive ForetiasError
  | crypto (message : String)
  | network (message : String)
  | internal (message : String)
  deriving DecidableEq

/-- `From<NodeError>`. -/
def ForetiasError.ofNodeError : NodeError → ForetiasError
  | .crypto e => .crypto (toString e)
  | .internal message => .internal message
  | .notFound what => .internal (toString (NodeError.notFound what))
  | .invalidInput message => .internal (toString (NodeError.invalidInput message))

/-- A fetched record as a calendar lookup: it answers for its own number only. -/
def fetchedCalendar (record : ChrononRecord) : CalendarLookup :=
  ⟨fun start count ↦ pure (if start = record.chrononNumber ∧ 1 ≤ count then [record] else [])⟩

/-- What `verify_with_proof` reports. -/
structure VerificationReport where
  /-- The verdict. -/
  verified : Bool
  /-- The chronon asked for. -/
  chrononNumber : UInt64
  /-- The records fetched. -/
  calendarRecords : List ChrononRecord
  /-- The attestation. -/
  foretis : ForetisRecord
  /-- The method used. -/
  method : String

/-- `Foretias::verify_with_proof` of a standalone client; `newSoftware` is the outcome of
generating the crypto server it verifies with. -/
def verifyWithProof (newSoftware : Except CryptoError Unit) (calendar : Calendar)
    (content : Bytes) (foretis : ForetisRecord) (signature : Bytes)
    (signatureAlgorithm : String) : Result ForetiasError VerificationReport :=
  let records := calendar.get foretis.chrononNumber 2
  match records.head? with
  | none =>
    let n := foretis.chrononNumber
    .err (.network s!"no calendar records found for chronon {n}")
  | some record => do
    match newSoftware with
    | .error e => .err (.crypto (toString e))
    | .ok () =>
      let verified ← (Foretias.verify P foretis signature signatureAlgorithm content
        (fetchedCalendar record)).mapErr .ofNodeError
      pure ⟨verified, foretis.chrononNumber, records, foretis, "verify_with_proof"⟩

end Paths

/-! ### Backdating -/

section Backed

variable (P : Primitives) (calendar : Calendar) (foretis : ForetisRecord) (signature : Bytes)
  (signatureAlgorithm : String) (content : Bytes)

/-- The calendar has a record of the attestation's own chronon, the content has the stated hash,
and the signature verifies under that record's key. -/
def Backed : Prop :=
  ∃ rec ∈ calendar.ticks, rec.chrononNumber = foretis.chrononNumber ∧
    P.sha256 content = foretis.contentHash ∧
    verifyWith P rec.publicKey signatureAlgorithm (P.postcard foretis) signature = .ok true

/-- The first record after a chronon number. -/
def FirstAfter (n : UInt64) (rec : ChrononRecord) : Prop :=
  rec ∈ calendar.ticks ∧ n < rec.chrononNumber ∧
    ∀ r ∈ calendar.ticks, n < r.chrononNumber → rec.chrononNumber ≤ r.chrononNumber

/-- The calendar has a record of the attestation's chronon, or the content does not have the
stated hash, or the key of the first later record did not make the signature. -/
def NotBackdated : Prop :=
  (∃ rec ∈ calendar.ticks, rec.chrononNumber = foretis.chrononNumber) ∨
    P.sha256 content ≠ foretis.contentHash ∨
    ∀ rec, FirstAfter calendar foretis.chrononNumber rec →
      verifyWith P rec.publicKey signatureAlgorithm (P.postcard foretis) signature ≠ .ok true

variable {P calendar foretis signature signatureAlgorithm content}

/-- The first path accepts exactly what the first record numbered at least the chronon signed. -/
theorem verify_lookup_eq_ok :
    verify P foretis signature signatureAlgorithm content calendar.lookup = .ok true ↔
      P.sha256 content = foretis.contentHash ∧
      ∃ rec, (calendar.get foretis.chrononNumber 1).head? = some rec ∧
        verifyWith P rec.publicKey signatureAlgorithm (P.postcard foretis) signature =
          .ok true := by
  by_cases hhash : P.sha256 content = foretis.contentHash
  swap
  · rw [verify_of_hash_ne hhash]
    exact iff_of_false (fun h ↦ nomatch h) fun h ↦ hhash h.1
  cases hhead : (calendar.get foretis.chrononNumber 1).head? with
  | some rec =>
    rw [verify_of_head? hhash rfl hhead, Result.mapErr_eq_ok]
    constructor
    · intro h
      exact ⟨hhash, rec, rfl, h⟩
    · rintro ⟨-, _, ⟨⟩, h⟩
      exact h
  | none =>
    rw [verify_of_nil hhash (congrArg pure (List.head?_eq_none_iff.1 hhead))]
    exact iff_of_false (Result.err_ne_ok _ _) fun ⟨_, _, h, _⟩ ↦ nomatch h

/-- The envelope path accepts only what the record of the chronon itself signed. -/
theorem backed_of_verifyUnprocessed {u : UnverifiedSignatureEnvelope ForetisRecord}
    {c : CleanAuthenticated ForetisRecord}
    (h : Chronomatter.verifyUnprocessed P u content calendar.lookup = .ok c) :
    Backed P calendar u.inner u.firstSig u.firstAlgorithm content := by
  obtain ⟨records, hrecords, h⟩ := Result.bind_eq_ok.1 h
  obtain rfl := Result.pure_eq_ok.1 (Result.mapErr_eq_ok.1 hrecords)
  cases hhead : (calendar.get u.inner.chrononNumber 1).head? with
  | none =>
    rw [hhead] at h
    exact absurd h (Result.err_ne_ok _ _)
  | some rec =>
    rw [hhead] at h
    obtain ⟨hnumber, hhash, hsig, -⟩ :=
      UnverifiedSignatureEnvelope.verifyForetis_eq_ok.1 (Result.mapErr_eq_ok.1 h)
    obtain ⟨hmem, -, -⟩ := (Calendar.head?_get_iff 0).1 hhead
    exact ⟨rec, hmem, hnumber.symm, hhash, hsig⟩

/-- What `verify` and `verify_unprocessed` accept is backed by the record of its own chronon
exactly when it is not backdated: `verify` takes the first record numbered at least the chronon,
and accepts the key of a later record where the chronon has none. -/
theorem backed_iff :
    ((Chronomatter.verify P foretis signature signatureAlgorithm content calendar.lookup =
        .ok true → Backed P calendar foretis signature signatureAlgorithm content) ∧
      ∀ u c, u.inner = foretis → u.firstSig = signature → u.firstAlgorithm = signatureAlgorithm →
        Chronomatter.verifyUnprocessed P u content calendar.lookup = .ok c →
        Backed P calendar foretis signature signatureAlgorithm content) ↔
      NotBackdated P calendar foretis signature signatureAlgorithm content := by
  constructor
  · rintro ⟨hverify, -⟩
    by_cases hhas : ∃ rec ∈ calendar.ticks, rec.chrononNumber = foretis.chrononNumber
    · exact .inl hhas
    refine .inr (or_iff_not_imp_left.2 fun hhash rec hfirst hsig ↦ hhas ?_)
    -- the first later record is what the query for the missing chronon returns
    have hhead : (calendar.get foretis.chrononNumber 1).head? = some rec := by
      refine (Calendar.head?_get_iff 0).2 ⟨hfirst.1, UInt64.le_of_lt hfirst.2.1, fun r hr hle ↦ ?_⟩
      exact hfirst.2.2 r hr (UInt64.lt_of_le_of_ne hle fun heq ↦ hhas ⟨r, hr, heq.symm⟩)
    obtain ⟨r, hr, hnumber, -⟩ :=
      hverify (verify_lookup_eq_ok.2 ⟨not_not.1 hhash, rec, hhead, hsig⟩)
    exact ⟨r, hr, hnumber⟩
  · intro hnot
    refine ⟨fun hverify ↦ ?_, ?_⟩
    · obtain ⟨hhash, rec, hhead, hsig⟩ := verify_lookup_eq_ok.1 hverify
      obtain ⟨hmem, hle, hmin⟩ := (Calendar.head?_get_iff 0).1 hhead
      by_cases heq : rec.chrononNumber = foretis.chrononNumber
      · exact ⟨rec, hmem, heq, hhash, hsig⟩
      rcases hnot with ⟨r, hr, hnumber⟩ | hne | hlater
      · -- a record of the chronon is not above the record found
        have hge : rec.chrononNumber ≤ foretis.chrononNumber :=
          hnumber ▸ hmin r hr (UInt64.le_of_eq hnumber.symm)
        exact absurd (UInt64.le_antisymm hge hle) heq
      · exact absurd hhash hne
      · have hlt : foretis.chrononNumber < rec.chrononNumber :=
          UInt64.lt_of_le_of_ne hle (Ne.symm heq)
        exact absurd hsig (hlater rec ⟨hmem, hlt, fun r hr hlt ↦ hmin r hr (UInt64.le_of_lt hlt)⟩)
    · rintro u c rfl rfl rfl h
      exact backed_of_verifyUnprocessed h

/-- A calendar with a gap: its only record is of chronon 5. -/
def gappedCalendar : Calendar where
  tbid := default
  tbn := ""
  ticks := [{ (default : ChrononRecord) with
    chrononNumber := 5, publicKey := List.replicate 32 7, signatureAlgorithm := "Ed25519" }]
  ascending := .singleton _

/-- An attestation of the empty content at chronon 3. -/
def chrononThree : ForetisRecord :=
  { (default : ForetisRecord) with
    chrononNumber := 3, contentHash := Primitives.transparent.sha256 [] }

/-- The key of chronon 5 signs for chronon 3, and is accepted. -/
theorem verify_gappedCalendar :
    let signature := (Primitives.transparent.ed25519Sign (.replicate 32 7)
      (Primitives.transparent.postcard chrononThree)).toList
    Chronomatter.verify .transparent chrononThree signature "Ed25519" [] gappedCalendar.lookup =
        .ok true ∧
      ¬Backed .transparent gappedCalendar chrononThree signature "Ed25519" [] := by
  refine ⟨by decide +kernel, ?_⟩
  rintro ⟨rec, hrec, hnumber, -⟩
  obtain rfl := List.mem_singleton.1 hrec
  exact absurd (show (5 : UInt64) = 3 from hnumber) (by decide)

end Backed

/-! ### Agreement -/

section Agreement

variable {P : Primitives} {calendar : Calendar} {foretis : ForetisRecord} {signature : Bytes}
  {signatureAlgorithm : String} {content : Bytes} {rec : ChrononRecord}

/-- Accept or reject; an error is a reject, and a panic is no answer. -/
def verdict {ε α : Type} (accepts : α → Bool) : Result ε α → Option Bool
  | .ok a => some (accepts a)
  | .error (.err _) => some false
  | .error .panic => none

theorem verdict_mapErr {ε ε' α : Type} (accepts : α → Bool) (f : ε → ε') (r : Result ε α) :
    verdict accepts (r.mapErr f) = verdict accepts r := by
  match r with
  | .ok _ => rfl
  | .error (.err _) => rfl
  | .error .panic => rfl

theorem verdict_eq_some_true {ε α : Type} {accepts : α → Bool} {r : Result ε α} :
    verdict accepts r = some true ↔ ∃ a, r = .ok a ∧ accepts a = true := by
  match r with
  | .ok a => simp [verdict]
  | .error (.err _) => simp [verdict]
  | .error .panic => simp [verdict]

variable (P) in
/-- The answer of one record's key: the content must have the stated hash, and the signature
must verify. -/
def keyVerdict (rec : ChrononRecord) (foretis : ForetisRecord) (signature : Bytes)
    (signatureAlgorithm : String) (content : Bytes) : Option Bool :=
  if P.sha256 content = foretis.contentHash then
    verdict id (verifyWith P rec.publicKey signatureAlgorithm (P.postcard foretis) signature)
  else some false

/-- Verification against a lookup that finds `rec` is the verdict of its key. -/
theorem verdict_of_head? {lookup : CalendarLookup} {records : List ChrononRecord}
    (hget : lookup.get foretis.chrononNumber 1 = .ok records) (hrec : records.head? = some rec) :
    verdict id (Foretias.verify P foretis signature signatureAlgorithm content lookup) =
      keyVerdict P rec foretis signature signatureAlgorithm content := by
  by_cases hhash : P.sha256 content = foretis.contentHash
  · rw [verify_of_head? hhash hget hrec, verdict_mapErr, keyVerdict, if_pos hhash]
  · rw [verify_of_hash_ne hhash, keyVerdict, if_neg hhash]
    rfl

/-- For a recorded chronon, `verify` gives the verdict of its record. -/
theorem verdict_verify (hrec : rec ∈ calendar.ticks)
    (hnumber : rec.chrononNumber = foretis.chrononNumber) :
    verdict id (Chronomatter.verify P foretis signature signatureAlgorithm content
      calendar.lookup) = keyVerdict P rec foretis signature signatureAlgorithm content :=
  verdict_of_head? rfl (hnumber ▸ Calendar.head?_get_of_mem hrec 0)

/-- So does `verify_unprocessed`, for an envelope that carries the signature. -/
theorem verdict_verifyUnprocessed (u : UnverifiedSignatureEnvelope ForetisRecord) (content : Bytes)
    (hrec : rec ∈ calendar.ticks) (hnumber : rec.chrononNumber = u.inner.chrononNumber) :
    verdict (fun _ ↦ true) (Chronomatter.verifyUnprocessed P u content calendar.lookup) =
      keyVerdict P rec u.inner u.firstSig u.firstAlgorithm content := by
  have hhead : (calendar.get u.inner.chrononNumber 1).head? = some rec :=
    hnumber ▸ Calendar.head?_get_of_mem hrec 0
  have hfound : Chronomatter.verifyUnprocessed P u content calendar.lookup =
      (u.verifyForetis P (.fromTrusted rec) content).mapErr
        fun e ↦ NodeError.internal s!"verification failed: {e}" := by
    rw [Chronomatter.verifyUnprocessed]
    change (match (calendar.get u.inner.chrononNumber 1).head? with
      | none => Result.err _
      | some rec => _) = _
    rw [hhead]
  rw [hfound, verdict_mapErr, keyVerdict]
  by_cases hhash : P.sha256 content = u.inner.contentHash
  · rw [UnverifiedSignatureEnvelope.verifyForetis_of_hash_eq hnumber.symm hhash, if_pos hhash]
    change verdict _ (Result.mapErr _ (Result.mapErr _ (verifyWith P rec.publicKey _ _ _)) >>= _) =
      verdict id (verifyWith P rec.publicKey _ _ _)
    match verifyWith P rec.publicKey u.firstAlgorithm (P.postcard u.inner) u.firstSig with
    | .ok true => rfl
    | .ok false => rfl
    | .error (.err _) => rfl
    | .error .panic => rfl
  · have hnumber' : ¬u.inner.chrononNumber ≠
        (CleanAuthenticated.fromTrusted rec).inner.chrononNumber := not_not.2 hnumber.symm
    rw [UnverifiedSignatureEnvelope.verifyForetis, if_neg hnumber', if_pos hhash, if_neg hhash]
    rfl

/-- So does the client's `verify_with_proof`. -/
theorem verdict_verifyWithProof (signature : Bytes) (signatureAlgorithm : String)
    (content : Bytes) (hrec : rec ∈ calendar.ticks)
    (hnumber : rec.chrononNumber = foretis.chrononNumber) :
    verdict VerificationReport.verified
        (verifyWithProof P (.ok ()) calendar content foretis signature signatureAlgorithm) =
      keyVerdict P rec foretis signature signatureAlgorithm content := by
  have hhead : (calendar.get foretis.chrononNumber 2).head? = some rec :=
    hnumber ▸ Calendar.head?_get_of_mem hrec 1
  have hfetched : (fetchedCalendar rec).get foretis.chrononNumber 1 = .ok [rec] :=
    congrArg pure (if_pos ⟨hnumber.symm, le_rfl⟩)
  rw [← verdict_of_head? hfetched rfl, verifyWithProof]
  simp only [hhead]
  match Foretias.verify P foretis signature signatureAlgorithm content (fetchedCalendar rec) with
  | .ok _ => rfl
  | .error (.err _) => rfl
  | .error .panic => rfl

/-- Under an Ed25519 key array and for a signature array the verdict is an answer. -/
theorem keyVerdict_ed25519 {pk : FixedBytes 32} (hkey : rec.publicKey = pk.toList)
    (foretis : ForetisRecord) (sig : FixedBytes 64) (content : Bytes) :
    keyVerdict P rec foretis sig.toList "Ed25519" content =
      some (decide (P.sha256 content = foretis.contentHash) &&
        P.ed25519Verify pk (P.postcard foretis) sig) := by
  rw [keyVerdict, hkey, verifyWith_ed25519_toList]
  split
  · rename_i hhash
    simp [verdict, hhash]
  · rename_i hhash
    simp [hhash]

end Agreement

end Foretias

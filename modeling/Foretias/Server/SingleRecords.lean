import Foretias.Server.ChrononAttestation

/-!
# The gate for single records

A line asks its peer for one record (`executeTick`), or has it stamp a content and then asks for
the record of the chronon that the answer names (`executeStamp`). The answer to a request for a
record may hold any records. Its first one has to pass without a predecessor, so that it is one of
chronon 1, and the number that was asked for is not looked at again. The gate for the stamp does
compare the two numbers.

* `gateForetis_eq_ok` — what the gate for a stamp accepts.
* `singleRecordGate_iff` — when the two calls return what was asked for.
-/

namespace Foretias

open ErrorState UnverifiedSignatureEnvelope

variable (P : Primitives) {T : Type} (net : Network T) (tbid : Tbid)

/-- The attestation of a content is verified against a record. -/
structure VerifiedAgainst (content : Bytes) (record : CleanChronon)
    (f : CleanAuthenticated ForetisRecord) : Prop where
  /-- It is of the chronon of the record. -/
  chrononNumber_eq : f.inner.chrononNumber = record.inner.chrononNumber
  /-- It is of the target. -/
  tbid_eq : f.inner.tbid = tbid
  /-- It is of the content. -/
  contentHash_eq : f.inner.contentHash = P.sha256 content
  /-- It has one signature, which is valid under the key of the record. -/
  signature : ∃ entry, f.signatures = [entry] ∧
    verifyWith P record.inner.publicKey entry.algorithm.toVerifyId (P.postcard f.inner) entry.sig =
      .ok true

/-- What the two calls should return, where they return. -/
structure SingleRecordGate (n : UInt64) (content : Bytes) (echo : String) (s : LineState T) :
    Prop where
  /-- A record of the target, of the chronon that was asked for. -/
  tick : ∀ r t, net.executeTick P tbid n s = .ok r t →
    r.inner.chrononNumber = n ∧ r.inner.tbid = tbid
  /-- An attestation of the content that was sent, verified against the record that was fetched. -/
  stamp : ∀ f t, net.executeStamp P tbid content echo s = .ok f t → ∃ record s',
    s'.sent = s.sent ++ [content] ∧
    net.executeTick P tbid f.inner.chrononNumber s' = .ok record t ∧
    VerifiedAgainst P tbid content record f

/-! ### What is accepted -/

section Accepted

variable {P net tbid} {n : UInt64} {content : Bytes} {echo : String} {s t : LineState T}
  {record : CleanChronon} {f : CleanAuthenticated ForetisRecord} {raw : Option ForetisJson}
  {u : UnverifiedSignatureEnvelope ForetisRecord}

/-- An envelope that is rebuilt from the wire format has at most one signature. -/
theorem signatures_of_fromJsonValueV2 (h : fromJsonValueV2 raw = .ok u) :
    u.signatures = [] ∨ ∃ entry, u.signatures = [entry] := by
  unfold fromJsonValueV2 at h
  split at h
  · cases h
  split at h
  · cases h
  · cases h
  split at h
  · exact .inl (congrArg signatures (Except.ok.inj h)).symm
  · exact .inl (congrArg signatures (Except.ok.inj h)).symm
  split at h
  · exact .inr ⟨_, (congrArg signatures (Except.ok.inj h)).symm⟩
  · exact .inr ⟨_, (congrArg signatures (Except.ok.inj h)).symm⟩
  · cases h
  · cases h

theorem parseForetis_eq_ok : parseForetis raw = .ok u ↔ fromJsonValueV2 raw = .ok u := by
  rw [parseForetis]
  rcases fromJsonValueV2 raw with e | parsed
  · exact iff_of_false (fun h ↦ by cases h) fun h ↦ by cases h
  · show Except.ok parsed = _ ↔ _
    rw [Except.ok.injEq, Except.ok.injEq]

/-- The gate for a stamp accepts exactly what is verified against the record, and is not of
chronon 0. -/
theorem gateForetis_eq_ok : gateForetis P tbid raw record content = .ok f ↔
    ∃ u, fromJsonValueV2 raw = .ok u ∧ f = ⟨u.inner, u.signatures⟩ ∧
      u.inner.chrononNumber ≠ 0 ∧ VerifiedAgainst P tbid content record f := by
  rw [gateForetis, Result.bind_eq_ok]
  simp only [parseForetis_eq_ok]
  refine exists_congr fun u ↦ and_congr_right fun hu ↦ ?_
  split
  · rename_i hzero
    exact iff_of_false (Result.err_ne_ok _ _) fun h ↦ h.2.1 hzero
  split
  · rename_i htbid
    refine iff_of_false (Result.err_ne_ok _ _) fun h ↦ ?_
    obtain ⟨rfl, -, hf⟩ := h
    exact htbid hf.tbid_eq
  split
  · rename_i hsigs
    refine iff_of_false (Result.err_ne_ok _ _) fun h ↦ ?_
    obtain ⟨rfl, -, hf⟩ := h
    obtain ⟨entry, hentry, -⟩ := hf.signature
    exact List.cons_ne_nil _ _ (hentry.symm.trans hsigs)
  rename_i hzero htbid hsigs
  -- the only signature is the one that the verification looks at
  obtain ⟨entry, hentry⟩ := (signatures_of_fromJsonValueV2 hu).resolve_left hsigs
  have hfirst : u.firstSig = entry.sig := by rw [firstSig, hentry]; rfl
  have halgorithm : u.firstAlgorithm = entry.algorithm.toVerifyId := by
    rw [firstAlgorithm, hentry]; rfl
  rw [Result.mapErr_eq_ok, verifyForetis_eq_ok, hfirst, halgorithm]
  constructor
  · rintro ⟨hnumber, hhash, hverify, rfl⟩
    exact ⟨rfl, hzero, hnumber, not_not.1 htbid, hhash.symm, entry, hentry, hverify⟩
  · rintro ⟨rfl, -, hf⟩
    obtain ⟨entry', hentry', hverify⟩ := hf.signature
    obtain rfl : entry = entry' := (List.cons.inj (hentry.symm.trans hentry')).1
    exact ⟨hf.chrononNumber_eq, hf.contentHash_eq.symm, hverify, rfl⟩

/-- A record that is fetched is one of chronon 1 of the target. -/
theorem of_executeTick (h : net.executeTick P tbid n s = .ok record t) :
    record.inner.chrononNumber = 1 ∧ record.inner.tbid = tbid := by
  obtain ⟨records, peers, -, hadmitted, hhead, -⟩ := Network.executeTick_eq_ok.1 h
  obtain ⟨r, hr, rfl⟩ := Option.map_eq_some_iff.1 hhead
  exact ⟨(hadmitted.first r hr).chrononNumber_eq,
    (hadmitted.wellFormed r (List.mem_of_mem_head? hr)).2⟩

/-- Once a content was sent, the line holds it. -/
theorem sent_of_doStamp (h : net.doStamp tbid content echo s = .ok raw t) :
    t.sent = s.sent ++ [content] := by
  rw [Network.doStamp] at h
  split at h
  · cases h
  split at h
  · cases h
    rfl
  · cases h

/-- An attestation that is returned is verified against the record fetched for it. -/
theorem of_executeStamp (h : net.executeStamp P tbid content echo s = .ok f t) :
    ∃ record s', s'.sent = s.sent ++ [content] ∧
      net.executeTick P tbid f.inner.chrononNumber s' = .ok record t ∧
      VerifiedAgainst P tbid content record f := by
  obtain ⟨_, s₁, hresolve, h⟩ := bind_eq_ok.1 h
  obtain ⟨raw, s₂, hstamp, h⟩ := bind_eq_ok.1 h
  obtain ⟨tmp, s₃, htmp, h⟩ := bind_eq_ok.1 h
  obtain ⟨record, s₄, htick, hgate⟩ := bind_eq_ok.1 h
  obtain ⟨hparse, rfl⟩ := ofResult_eq_ok.1 htmp
  obtain ⟨haccept, rfl⟩ := ofResult_eq_ok.1 hgate
  obtain ⟨u, hu, hf, -, hverified⟩ := gateForetis_eq_ok.1 haccept
  -- both parses of the answer give the same envelope
  obtain rfl : tmp = u := Except.ok.inj ((parseForetis_eq_ok.1 hparse).symm.trans hu)
  have hsent : s₃.sent = s₁.sent ++ [content] := sent_of_doStamp hstamp
  obtain ⟨peers, -, rfl⟩ := Network.resolvePeer_eq_ok.1 hresolve
  refine ⟨record, s₃, hsent, ?_, hverified⟩
  rw [hf]
  exact htick

/-- So no attestation of a later chronon than the first is ever returned. -/
theorem chrononNumber_of_executeStamp (h : net.executeStamp P tbid content echo s = .ok f t) :
    f.inner.chrononNumber = 1 := by
  obtain ⟨record, s', -, htick, hverified⟩ := of_executeStamp h
  rw [hverified.chrononNumber_eq]
  exact (of_executeTick htick).1

end Accepted

/-- **The gate for single records.** What a line returns is what was asked for, exactly where
chronon 1 is asked for or the peer's answer is not admitted. -/
theorem singleRecordGate_iff (n : UInt64) (content : Bytes) (echo : String) (s : LineState T) :
    SingleRecordGate P net tbid n content echo s ↔
      n = 1 ∨ ∀ records peers, net.Answers tbid n s.peers records peers →
        ¬SliceAdmitted P tbid records := by
  constructor
  · intro h
    rw [or_iff_not_imp_right]
    intro hadmitted
    push Not at hadmitted
    obtain ⟨records, peers, hanswers, hadmitted⟩ := hadmitted
    obtain ⟨r, hr⟩ := hadmitted.exists_head?
    have htick : net.executeTick P tbid n s = .ok (.fromTrusted r) { s with peers } :=
      Network.executeTick_eq_ok.2 ⟨records, peers, hanswers, hadmitted, by rw [hr]; rfl, rfl⟩
    rw [← (h.tick _ _ htick).1]
    exact (of_executeTick htick).1
  · intro h
    refine ⟨fun r t htick ↦ ?_, fun f t ↦ of_executeStamp⟩
    rcases h with rfl | h
    · exact of_executeTick htick
    · obtain ⟨records, peers, hanswers, hadmitted, -⟩ := Network.executeTick_eq_ok.1 htick
      exact absurd hadmitted (h records peers hanswers)

/-- A peer that answers each request with the same made-up record of chronon 1. -/
def madeUpNetwork (tbid : Tbid) : Network Unit where
  lookupTbid _ _ := (true, ())
  calendarSlice _ _ _ := (.ok [Attempt.madeUpRecord tbid], ())
  sends _ := .ok ()
  stamp _ _ _ _ := (.error .timeout, ())

/-- It is asked for the record of chronon 2. -/
theorem not_singleRecordGate_madeUp :
    ¬SingleRecordGate .transparent (madeUpNetwork default) default 2 [] "" ⟨(), []⟩ := by
  intro h
  have htick : (madeUpNetwork default).executeTick .transparent default 2 ⟨(), []⟩ =
      .ok (.fromTrusted (Attempt.madeUpRecord default)) ⟨(), []⟩ :=
    Network.executeTick_eq_ok.2 ⟨[Attempt.madeUpRecord default], (), ⟨(), rfl, rfl⟩,
      Attempt.sliceAdmitted_madeUpRecord default, rfl, rfl⟩
  exact absurd (h.tick _ _ htick).1 (by decide)

end Foretias

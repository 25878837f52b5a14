import Foretias.Chronomatter.Integrity
import Foretias.Core.VerificationPaths

/-!
# Runs in which every call succeeds

A run of calls that all return `Ok` stays in step, so its calendar holds one record a call: the
genesis record first, each record under the time being's own identity and with a 32-byte key
(`Complete`). A stamp returned on the way is backed by the record of its chronon, and records are
never removed.

* `complete_of_run` — what is known of every calendar so produced.
* `verification_of_run` — every stamp returned so far is accepted on all three verification
  paths, and for a recorded chronon the three paths agree.
* `Ready.exists_run` — calls in which nothing fails make such runs.
-/

namespace Foretias

variable {P : Primitives}

namespace Chronomatter

variable {c t : Chronomatter P} {kp : TickKeyPair P} {record : ChrononRecord}

/-- An operation that returns `Ok`, with the stamp it returns. -/
def OkStep (c : Chronomatter P) (out : Op × Option StampedForetis) (t : Chronomatter P) : Prop :=
  out.1.exec c = .ok out.2 t

/-- A genesis record as its producer signs it: with its own pair and with the TBID secret. -/
def CertifiedRoot (P : Primitives) (tbid : Tbid) (r : ChrononRecord) : Prop :=
  ∃ (kp : TickKeyPair P) (secret : TbidSecret), secret.tbid P = tbid ∧
    r.publicKey = kp.pubKey.toList ∧ r.signatureAlgorithm = "Ed25519" ∧
    r.forwardForetis = genesisForetis P kp.privKey secret tbid r.chrononNumber kp.pubKey
      r.chrononStampCount r.aaNonce ∧ r.backwardForetis = r.forwardForetis

/-- A chronomatter none of whose calls failed. -/
structure Complete (c : Chronomatter P) : Prop extends Intact c where
  /-- The last record is of the last tick. -/
  inStep : InStep c
  /-- Every tick begun left a record. -/
  currentTick_eq_zero : c.tickObserver.ticks = [] → c.currentTick = 0
  /-- The first record is a version-1 genesis record. -/
  genesis : ∀ r ∈ c.tickObserver.ticks.head?, r.chrononNumber = 1 ∧ r.tbVersion = 1
  /-- It carries the TBID signature of its certificate. -/
  certified : ∀ r ∈ c.tickObserver.ticks.head?, CertifiedRoot P c.tbid r
  /-- Every record names the time being. -/
  tbid_eq : ∀ r ∈ c.tickObserver.ticks, r.tbid = c.tbid
  /-- Every record has an Ed25519 key. -/
  publicKey_eq : ∀ r ∈ c.tickObserver.ticks, ∃ pk : FixedBytes 32, r.publicKey = pk.toList

theorem complete_new (secret : TbidSecret) (tbid : Tbid) (tbn : String) :
    Complete (new secret tbid tbn : Chronomatter P) where
  toIntact := intact_new secret tbid tbn
  inStep := inStep_new secret tbid tbn
  currentTick_eq_zero _ := rfl
  genesis _ hr := nomatch hr
  certified _ hr := nomatch hr
  tbid_eq _ hr := nomatch hr
  publicKey_eq _ hr := nomatch hr

theorem Produced.complete_completed (hed : Ed25519Correct P) (hc : Complete c)
    (h : Produced c kp record) : Complete (c.completed kp record) := by
  have hticks := h.ticks_completed hc.inStep
  -- the first record of the run is of tick 1
  have hfirst : ∀ r ∈ (c.tickObserver.ticks ++ [record]).head?,
      r ∈ c.tickObserver.ticks.head? ∨ r = record ∧ record.chrononNumber = 1 := by
    intro r hr
    cases hold : c.tickObserver.ticks with
    | nil =>
      rw [hold] at hr
      refine .inr ⟨(Option.some_inj.1 hr).symm, ?_⟩
      rw [h.chrononNumber_eq, hc.currentTick_eq_zero hold]
      rfl
    | cons first rest =>
      rw [hold] at hr
      exact .inl hr
  refine ⟨h.intact_completed hed hc.toIntact hc.inStep, h.inStep_completed hc.inStep, ?_, ?_, ?_,
    ?_, ?_⟩
  · intro hnil
    rw [hticks] at hnil
    exact absurd hnil (List.append_ne_nil_of_right_ne_nil _ (List.cons_ne_nil _ _))
  · intro r hr
    rw [hticks] at hr
    rcases hfirst r hr with hr | ⟨rfl, hnumber⟩
    · exact hc.genesis r hr
    · exact ⟨hnumber, (h.genesis hnumber).trans (if_pos hc.signs)⟩
  · intro r hr
    rw [hticks] at hr
    rcases hfirst r hr with hr | ⟨rfl, hnumber⟩
    · exact hc.certified r hr
    · obtain ⟨secret, hsecret, hforward, hsame⟩ := h.certified hnumber hc.signs
      exact ⟨kp, secret, hsecret, h.publicKey_eq, h.signatureAlgorithm_eq, hforward, hsame⟩
  · intro r hr
    rw [hticks, List.mem_append, List.mem_singleton] at hr
    rcases hr with hr | rfl
    · exact hc.tbid_eq r hr
    · exact h.tbid_eq
  · intro r hr
    rw [hticks, List.mem_append, List.mem_singleton] at hr
    rcases hr with hr | rfl
    · exact hc.publicKey_eq r hr
    · exact ⟨kp.pubKey, h.publicKey_eq⟩

/-- One successful call extends a complete calendar by its record. -/
theorem OkStep.produced {out : Op × Option StampedForetis} (hc : Complete c)
    (h : OkStep c out t) :
    ∃ kp record, Produced c kp record ∧ t = c.completed kp record ∧
      t.tickObserver.ticks = c.tickObserver.ticks ++ [record] ∧
      ∀ env content echo, out.1 = .stamp env content echo →
        ∃ st, out.2 = some st ∧ Attests kp record content st := by
  obtain ⟨kp, record, hproduced, rfl, hattests, -⟩ := exec_eq_ok hc.awake h
  exact ⟨kp, record, hproduced, rfl, hproduced.ticks_completed hc.inStep, hattests⟩

theorem complete_okStep (hed : Ed25519Correct P) {out : Op × Option StampedForetis}
    (hc : Complete c) (h : OkStep c out t) : Complete t := by
  obtain ⟨kp, record, hproduced, rfl, -⟩ := h.produced hc
  exact hproduced.complete_completed hed hc

/-- A run of successful calls keeps the chronomatter complete. -/
theorem complete_of_run (hed : Ed25519Correct P) (hc : Complete c)
    {outs : List (Op × Option StampedForetis)} (hrun : Run OkStep c outs t) : Complete t :=
  hrun.invariant (complete_okStep hed) hc

/-! ### Stamps in the calendar -/

/-- A record of the calendar backs the stamp. -/
def Attested (c : Chronomatter P) (content : Bytes) (st : StampedForetis) : Prop :=
  ∃ kp, ∃ record ∈ c.tickObserver.ticks,
    record.publicKey = (kp : TickKeyPair P).pubKey.toList ∧ Attests kp record content st

/-- Records are never removed, so later calls keep a stamp attested. -/
theorem attested_of_run (hed : Ed25519Correct P) {content : Bytes} {st : StampedForetis}
    {outs : List (Op × Option StampedForetis)} (hc : Complete c) (h : Attested c content st)
    (hrun : Run OkStep c outs t) : Attested t content st := by
  have hboth : Complete t ∧ Attested t content st := by
    refine hrun.invariant (I := fun c ↦ Complete c ∧ Attested c content st) ?_ ⟨hc, h⟩
    rintro c out t ⟨hc, kp, record, hrecord, hst⟩ hstep
    obtain ⟨_, _, -, -, hticks, -⟩ := hstep.produced hc
    exact ⟨complete_okStep hed hc hstep, kp, record,
      hticks ▸ List.mem_append_left _ hrecord, hst⟩
  exact hboth.2

/-- Every stamp returned in the run is attested at its end. -/
theorem attested_of_mem (hed : Ed25519Correct P) (hc : Complete c)
    {outs : List (Op × Option StampedForetis)} (hrun : Run OkStep c outs t) {env : CallEnv}
    {content : Bytes} {echo : String} {st : StampedForetis}
    (hst : (.stamp env content echo, some st) ∈ outs) : Attested t content st := by
  obtain ⟨pre, u, v, post, -, hpre, hstep, hpost⟩ := hrun.exists_step_of_mem hst
  have hu := complete_of_run hed hc hpre
  obtain ⟨kp, record, hproduced, -, hticks, hattests⟩ := hstep.produced hu
  obtain ⟨st', hst', hattests⟩ := hattests env content echo rfl
  obtain rfl := Option.some_inj.1 hst'
  refine attested_of_run hed (complete_okStep hed hu hstep) ⟨kp, record, ?_, ?_⟩ hpost
  · rw [hticks]
    exact List.mem_append_right _ (List.mem_singleton_self _)
  · exact ⟨hproduced.publicKey_eq, hattests⟩

/-- The key of the record accepts the stamp. -/
theorem Attests.keyVerdict (hed : Ed25519Correct P) {content : Bytes} {st : StampedForetis}
    (hkey : record.publicKey = kp.pubKey.toList) (h : Attests kp record content st) :
    keyVerdict P record st.foretis st.signatureBytes st.signatureAlgorithm content =
      some true := by
  rw [h.signature_eq, h.signatureAlgorithm_eq, keyVerdict_ed25519 hkey, h.contentHash_eq,
    ← kp.public_eq, hed]
  simp

/-! ### Verification -/

/-- After any run of successful calls, every stamp returned so far is accepted by `verify`, by
`verify_unprocessed` on the envelope rebuilt from it and by a client's `verify_with_proof`; and
the three give one answer for every attestation of a recorded chronon with an Ed25519
signature. -/
theorem verification_of_run (hed : Ed25519Correct P) {secret : TbidSecret} {tbid : Tbid}
    {tbn : String} {outs : List (Op × Option StampedForetis)}
    (hrun : Run OkStep (new secret tbid tbn : Chronomatter P) outs t) :
    (∀ env content echo st, (.stamp env content echo, some st) ∈ outs →
      st.signatureAlgorithm = "Ed25519" ∧
      verify P st.foretis st.signatureBytes st.signatureAlgorithm content
        t.tickObserver.lookup = .ok true ∧
      (∃ u clean, UnverifiedSignatureEnvelope.fromJsonValueV2
          (some (.ofStamped st.foretis st.signatureBytes)) = .ok u ∧
        verifyUnprocessed P u content t.tickObserver.lookup = .ok clean) ∧
      ∃ report, verifyWithProof P (.ok ()) t.tickObserver content st.foretis st.signatureBytes
        st.signatureAlgorithm = .ok report ∧ report.verified = true) ∧
    ∀ (foretis : ForetisRecord) (sig : FixedBytes 64) (content : Bytes),
      (∃ rec ∈ t.tickObserver.ticks, rec.chrononNumber = foretis.chrononNumber) →
      ∃ u answer, UnverifiedSignatureEnvelope.fromJsonValueV2
          (some (.ofStamped foretis sig.toList)) = .ok u ∧
        verdict id (verify P foretis sig.toList "Ed25519" content t.tickObserver.lookup) =
          some answer ∧
        verdict (fun _ ↦ true) (verifyUnprocessed P u content t.tickObserver.lookup) =
          some answer ∧
        verdict VerificationReport.verified (verifyWithProof P (.ok ()) t.tickObserver content
          foretis sig.toList "Ed25519") = some answer := by
  have hnew := complete_new (P := P) secret tbid tbn
  have hnonempty : ∀ sig : FixedBytes 64, sig.toList ≠ [] := fun sig ↦
    List.ne_nil_of_length_pos (sig.length_eq.symm ▸ by decide)
  constructor
  · intro env content echo st hst
    obtain ⟨kp, rec, hrec, hkey, hattests⟩ := attested_of_mem hed hnew hrun hst
    have hnumber := hattests.chrononNumber_eq.symm
    have hverdict := hattests.keyVerdict hed hkey
    have halg := hattests.signatureAlgorithm_eq
    have hverify := (verdict_verify hrec hnumber).trans hverdict
    obtain ⟨_, hverify, rfl⟩ := verdict_eq_some_true.1 hverify
    have hsigned : st.signatureBytes ≠ [] := hattests.signature_eq ▸ hnonempty _
    have hjson := UnverifiedSignatureEnvelope.fromJsonValueV2_ofStamped st.foretis hsigned
    have hunprocessed := verdict_verifyUnprocessed (P := P)
      ⟨st.foretis, [⟨.chronomatter, "", .ed25519, st.signatureBytes⟩]⟩ content hrec hnumber
    rw [halg] at hverdict
    obtain ⟨clean, hclean, -⟩ := verdict_eq_some_true.1 (hunprocessed.trans hverdict)
    have hproof := verdict_verifyWithProof (P := P) st.signatureBytes "Ed25519" content hrec hnumber
    rw [halg]
    exact ⟨rfl, halg ▸ hverify, ⟨_, clean, hjson, hclean⟩,
      verdict_eq_some_true.1 (hproof.trans hverdict)⟩
  · rintro foretis sig content ⟨rec, hrec, hnumber⟩
    obtain ⟨pk, hpk⟩ := (complete_of_run hed hnew hrun).publicKey_eq rec hrec
    have hverdict := keyVerdict_ed25519 (P := P) hpk foretis sig content
    refine ⟨_, _, UnverifiedSignatureEnvelope.fromJsonValueV2_ofStamped foretis (hnonempty sig),
      (verdict_verify hrec hnumber).trans hverdict, ?_,
      (verdict_verifyWithProof _ _ _ hrec hnumber).trans hverdict⟩
    exact (verdict_verifyUnprocessed (P := P)
      ⟨foretis, [⟨.chronomatter, "", .ed25519, sig.toList⟩]⟩ content hrec hnumber).trans hverdict

/-! ### Calls without faults -/

/-- The next call succeeds, unless something that it performs fails. -/
structure Ready (c : Chronomatter P) : Prop where
  /-- The chronomatter is not dormant. -/
  awake : c.isDormant = false
  /-- It holds its TBID secret. -/
  signs : c.tbidSecret.isSome
  /-- Past the first tick it holds a pair. -/
  holds : c.currentTick ≠ 0 → (c.keypairs.slot 0).isSome

theorem ready_new (secret : TbidSecret) (tbid : Tbid) (tbn : String) :
    Ready (new secret tbid tbn : Chronomatter P) :=
  ⟨rfl, rfl, fun hne ↦ absurd rfl hne⟩

theorem Ready.completed (h : Ready c) (kp : TickKeyPair P) (record : ChrononRecord) :
    Ready (c.completed kp record) :=
  ⟨h.awake, h.signs, fun _ ↦ Option.isSome_iff_exists.2 ⟨kp, KeyRing.slot_push_zero _ _⟩⟩

/-- A call without faults succeeds while the tick counter does not wrap. -/
theorem Ready.exists_okStep (h : Ready c) {op : Op} (hop : op.Faultless (c.currentTick + 1))
    (hticks : c.currentTick.toNat + 1 < 2 ^ 64) :
    ∃ r t, OkStep c (op, r) t ∧ Ready t ∧ t.currentTick.toNat = c.currentTick.toNat + 1 := by
  have hnext : (c.currentTick + 1).toNat = c.currentTick.toNat + 1 := by
    rw [UInt64.toNat_add]
    exact Nat.mod_eq_of_lt hticks
  have hne : c.currentTick + 1 ≠ 0 := by
    intro hzero
    rw [hzero] at hnext
    exact Nat.succ_ne_zero _ hnext.symm
  have hprev : c.currentTick + 1 ≠ 1 → (c.keypairs.slot 0).isSome :=
    fun h1 ↦ h.holds fun hzero ↦ h1 (by rw [hzero]; rfl)
  obtain ⟨r, t, hexec⟩ := exists_exec_eq_ok h.awake h.signs hne hprev hop
  obtain ⟨kp, record, -, rfl, -⟩ := exec_eq_ok h.awake hexec
  exact ⟨r, _, hexec, h.completed kp record, hnext⟩

/-- So a stamp without faults is returned. -/
theorem Ready.exists_stamp (h : Ready c) {env : CallEnv} {content : Bytes} {echo : String}
    (hop : (Op.stamp env content echo).Faultless (c.currentTick + 1))
    (hticks : c.currentTick.toNat + 1 < 2 ^ 64) :
    ∃ st t, OkStep c (.stamp env content echo, some st) t ∧ Ready t ∧
      t.currentTick.toNat = c.currentTick.toNat + 1 := by
  obtain ⟨r, t, hstep, hready, htick⟩ := h.exists_okStep hop hticks
  obtain ⟨_, _, -, -, hattests, -⟩ := exec_eq_ok h.awake hstep
  obtain ⟨st, rfl, -⟩ := hattests _ _ _ rfl
  exact ⟨st, t, hstep, hready, htick⟩

/-- Any number of calls without faults succeed while the tick counter does not wrap. -/
theorem Ready.exists_run (h : Ready c) {ops : List Op}
    (hops : ∀ op ∈ ops, ∀ tick, op.Faultless tick)
    (hticks : c.currentTick.toNat + ops.length < 2 ^ 64) :
    ∃ outs t, outs.map Prod.fst = ops ∧ Run OkStep c outs t ∧ Ready t ∧
      t.currentTick.toNat = c.currentTick.toNat + ops.length := by
  induction ops generalizing c with
  | nil => exact ⟨[], c, rfl, .nil c, h, rfl⟩
  | cons op ops ih =>
    rw [List.length_cons] at hticks
    obtain ⟨r, u, hstep, hready, htick⟩ :=
      h.exists_okStep (hops op List.mem_cons_self _) (by omega)
    obtain ⟨outs, t, houts, hrun, hend, hlast⟩ :=
      ih hready (fun op hop ↦ hops op (List.mem_cons_of_mem _ hop)) (by omega)
    refine ⟨(op, r) :: outs, t, by rw [List.map_cons, houts], .cons hstep hrun, hend, ?_⟩
    rw [hlast, htick, List.length_cons]
    omega

/-- A daemon tick in which nothing fails. -/
def clearTick (seed : FixedBytes 32) : Op := .daemonTick (.clear seed)

theorem faultless_clearTick (seed : FixedBytes 32) :
    ∀ op ∈ [clearTick seed], ∀ tick, op.Faultless tick := by
  intro op hop tick
  obtain rfl := List.mem_singleton.1 hop
  exact CallEnv.buildsTick_clear seed tick

theorem faultless_stamp_clear (seed : FixedBytes 32) (content : Bytes) (echo : String)
    (tick : UInt64) : (Op.stamp (.clear seed) content echo).Faultless tick :=
  ⟨CallEnv.buildsTick_clear _ _, CallEnv.stampsContent_clear _⟩

/-- A stamp between two ticks. -/
theorem exists_run_stamp (secret : TbidSecret) (tbid : Tbid) (tbn : String) (content : Bytes)
    (echo : String) :
    ∃ (before after : List (Op × Option StampedForetis)) (t : Chronomatter P)
      (st : StampedForetis),
      before.map Prod.fst = [clearTick (.replicate 32 1)] ∧
      after.map Prod.fst = [clearTick (.replicate 32 3)] ∧
      Run OkStep (new secret tbid tbn)
        (before ++ (.stamp (.clear (.replicate 32 2)) content echo, some st) :: after) t := by
  have hnone : (new secret tbid tbn : Chronomatter P).currentTick.toNat = 0 := rfl
  obtain ⟨before, u, hbefore, hpre, hready, hone⟩ :=
    (ready_new (P := P) secret tbid tbn).exists_run (faultless_clearTick (.replicate 32 1))
      (by rw [hnone, List.length_singleton]; decide)
  rw [hnone, List.length_singleton] at hone
  obtain ⟨st, v, hstamp, hready, htwo⟩ := hready.exists_stamp
    (faultless_stamp_clear (.replicate 32 2) content echo _) (by omega)
  obtain ⟨after, t, hafter, hpost, -⟩ :=
    hready.exists_run (faultless_clearTick (.replicate 32 3)) (by rw [List.length_singleton]; omega)
  exact ⟨before, after, t, st, hbefore, hafter,
    Run.append_iff.2 ⟨u, hpre, .cons hstamp hpost⟩⟩

/-- A stamp, with a tick before it and one after. -/
theorem verification_stamp_between_ticks :
    ∃ (before after : List (Op × Option StampedForetis)) (t : Chronomatter .transparent)
      (st : StampedForetis),
    before.map Prod.fst = [clearTick (.replicate 32 1)] ∧
    after.map Prod.fst = [clearTick (.replicate 32 3)] ∧
    Run OkStep (new default default "")
      (before ++ (.stamp (.clear (.replicate 32 2)) [1, 2, 3] "echo", some st) :: after) t ∧
    verify .transparent st.foretis st.signatureBytes st.signatureAlgorithm [1, 2, 3]
      t.tickObserver.lookup = .ok true := by
  obtain ⟨before, after, t, st, hbefore, hafter, hrun⟩ :=
    exists_run_stamp (P := .transparent) default default "" [1, 2, 3] "echo"
  exact ⟨before, after, t, st, hbefore, hafter, hrun,
    ((verification_of_run ed25519Exact_transparent.correct hrun).1 _ _ _ _
      (List.mem_append_right _ List.mem_cons_self)).2.1⟩

end Chronomatter

end Foretias

import Foretias.Chronomatter.Completed
import Foretias.Server.MirrorRuns

/-!
# Delivering the records of an honest calendar

The calendar of a chronomatter none of whose calls failed starts with a version-1 genesis record,
which no gate admits without a predecessor, and goes on with records that are linked to the one
before. So nothing can be delivered to a mirror that holds no record, and everything to one that
holds a beginning of the calendar, in chunks of any size.

* `delivery_of_run` — what becomes of an honest calendar cut into requests.
-/

namespace Foretias

open Chronomatter

variable {P : Primitives} {c : Chronomatter P} {store : MirrorStore} {key : String}

/-- An honest calendar is linked, whoever reads the TBID off its records. -/
theorem Chronomatter.Complete.isChain_linkedTo (hc : Complete c) :
    c.tickObserver.ticks.IsChain (LinkedTo P) := by
  refine hc.linked.imp_of_mem_imp fun prev curr hprev _ hpair ↦ ?_
  rw [LinkedTo, hc.tbid_eq prev hprev]
  exact hpair

/-- No record of an honest calendar is admitted without a predecessor: the one of chronon 1 is of
version 1. -/
theorem Chronomatter.Complete.not_firstRecord (hc : Complete c) {r : ChrononRecord}
    (hr : r ∈ c.tickObserver.ticks) : ¬r.FirstRecord := by
  intro hfirst
  obtain ⟨root, rest, hticks⟩ := List.exists_cons_of_ne_nil (List.ne_nil_of_mem hr)
  obtain ⟨hnumber, hversion⟩ := hc.genesis root (by rw [hticks]; rfl)
  have hroot : r = root := by
    refine Calendar.eq_of_chrononNumber_eq hr ?_ (hfirst.chrononNumber_eq.trans hnumber.symm)
    rw [hticks]
    exact List.mem_cons_self
  rw [hroot] at hfirst
  rw [hfirst.tbVersion_eq] at hversion
  cases hversion

/-- A piece of an honest calendar comes after nothing. -/
theorem Chronomatter.Complete.not_chained_none (hc : Complete c) {batch : List ChrononRecord}
    (hne : batch ≠ []) (hbatch : batch <:+: c.tickObserver.ticks) : ¬Chained P none batch := by
  intro hchained
  obtain ⟨r, rest, rfl⟩ := List.exists_cons_of_ne_nil hne
  exact hc.not_firstRecord (hbatch.subset List.mem_cons_self) (hchained.head r rfl)

/-- The rest of an honest calendar comes after any beginning of it. -/
theorem Chronomatter.Complete.chained_rest (hc : Complete c) {pre rest : List ChrononRecord}
    (hpre : pre ≠ []) (hticks : pre ++ rest = c.tickObserver.ticks) :
    Chained P pre.getLast? rest := by
  have hchain := hc.isChain_linkedTo
  rw [← hticks] at hchain
  obtain ⟨-, hrest, hseam⟩ := List.isChain_append.1 hchain
  refine ⟨fun r hr ↦ ?_, hrest⟩
  rw [List.getLast?_eq_some_getLast hpre]
  exact hseam _ (List.getLast?_eq_some_getLast hpre) r hr

/-- A certified root passes `verify_pair` against itself. -/
theorem Chronomatter.CertifiedRoot.linkedTo_self (hed : Ed25519Correct P) (hslh : SlhDsaCorrect P)
    {r : ChrononRecord} (h : CertifiedRoot P r.tbid r) (hnumber : r.chrononNumber = 1)
    (hversion : r.tbVersion = 1) : LinkedTo P r r := by
  obtain ⟨kp, secret, hsecret, hkey, halg, hforward, hbackward⟩ := h
  obtain ⟨genesisSig, hgenesisSig⟩ : ∃ sig, sig = tbidSign P secret
      (genesisBlob r.tbid r.chrononNumber kp.pubKey.toList) := ⟨_, rfl⟩
  obtain ⟨edSig, hedSig⟩ : ∃ sig, sig = P.ed25519Sign kp.privKey (autoAttestationBlobWithGenesis
      r.tbid.toHex r.chrononNumber kp.pubKey genesisSig r.chrononStampCount r.aaNonce) := ⟨_, rfl⟩
  have hforetis : r.forwardForetis = edSig.toList ++ genesisSig := by
    rw [hforward, genesisForetis, hedSig, hgenesisSig]
  -- the certificate is signed by the TBID
  have hcert : verifyGenesis P genesisSig genesisSig r r r.tbVersion = .ok true := by
    have hne : genesisSig ≠ [] := by
      refine List.ne_nil_of_length_pos ?_
      rw [hgenesisSig, length_tbidSign]
      decide
    rw [verifyGenesis, if_pos ⟨hne, rfl⟩, Result.mapErr_eq_ok, buildGenesisBlob, hkey, hgenesisSig,
      ← hsecret]
    exact tbidVerify_tbidSign hed hslh secret _
  have hblob : buildGenesisAttestBlob r.tbid.toHex r genesisSig r.chrononStampCount r.aaNonce =
      autoAttestationBlobWithGenesis r.tbid.toHex r.chrononNumber kp.pubKey genesisSig
        r.chrononStampCount r.aaNonce := by
    rw [buildGenesisAttestBlob, autoAttestationBlobWithGenesis, hkey]
  have hattest : attestation P r.tbid.toHex r r = .ok (edSig.toList, edSig.toList,
      autoAttestationBlobWithGenesis r.tbid.toHex r.chrononNumber kp.pubKey genesisSig
        r.chrononStampCount r.aaNonce, true) := by
    have htake : (edSig.toList ++ genesisSig).take ed25519SigLen = edSig.toList :=
      List.take_left' edSig.length_eq
    have hdrop : (edSig.toList ++ genesisSig).drop ed25519SigLen = genesisSig :=
      List.drop_left' edSig.length_eq
    have hlength : ¬(edSig.toList ++ genesisSig).length < ed25519SigLen := by
      rw [List.length_append, edSig.length_eq, ed25519SigLen]
      omega
    rw [attestation, if_pos ⟨hnumber, hversion⟩, validateAndSplitGenesis, hbackward, hforetis,
      if_neg hlength, if_neg hlength, htake, hdrop]
    refine Result.bind_eq_ok.2 ⟨_, rfl, ?_⟩
    dsimp only
    rw [hcert, hblob]
    rfl
  have hsigned : verifyWith P kp.pubKey.toList "Ed25519" (autoAttestationBlobWithGenesis
      r.tbid.toHex r.chrononNumber kp.pubKey genesisSig r.chrononStampCount r.aaNonce)
      edSig.toList = .ok true := by
    rw [verifyWith_ed25519_toList, hedSig, ← kp.public_eq, hed]
  refine verifyPair_eq_ok_true.2 ⟨_, _, _, hattest, ?_, ?_⟩
  all_goals
    rw [hkey, halg]
    exact hsigned

/-- A `ship_ack` request with a piece of an honest calendar is refused, and so is a
`history_dump_chunk` request when nothing is stored under its key. -/
theorem Chronomatter.Complete.refuseStep (hc : Complete c) {req : MirrorRequest}
    {batch : List ChrononRecord} (hne : batch ≠ []) (hbatch : batch <:+: c.tickObserver.ticks)
    (hreq : req = .shipped key batch ∨ req = .dumped key batch ∧ store.records key = []) :
    RefuseStep P store req store := by
  refine refuseStep_of_not_chained fun rs hcarries ↦ ?_
  rcases hreq with rfl | ⟨rfl, hstore⟩
  · have hrs : rs = batch := MirrorRequest.Carries.unique hcarries rfl
    rw [hrs]
    exact hc.not_chained_none hne hbatch
  · have hrs : rs = batch := by
      obtain ⟨-, hraw, -⟩ := hcarries
      exact (List.map_injective_iff.2 (fun _ _ ↦ Except.ok.inj) hraw).symm
    have hlatest : (MirrorRequest.dumped key batch).predecessor store = none := by
      change (store.records key).getLast? = none
      rw [hstore, List.getLast?_nil]
    rw [hrs, hlatest]
    exact hc.not_chained_none hne hbatch

/-- A mirror that holds a beginning of an honest calendar accepts the rest, in chunks of any
size. -/
theorem Chronomatter.Complete.exists_run_dumped (hc : Complete c)
    {batches : List (List ChrononRecord)} (hne : store.records key ≠ [])
    (hticks : store.records key ++ batches.flatten = c.tickObserver.ticks)
    (hsize : ∀ batch ∈ batches, batch.length ≤ maxCalendarSliceCount) :
    ∃ t, Run (AcceptStep P) store (batches.map (.dumped key)) t ∧
      t.records key = c.tickObserver.ticks := by
  have hreqs : ∀ req ∈ batches.map (fun batch ↦ (MirrorRequest.dumped key batch, batch)),
      Continues key req.1 req.2 := by
    intro req hreq
    obtain ⟨batch, hbatch, rfl⟩ := List.mem_map.1 hreq
    exact continues_dumped key (hsize batch hbatch)
  have hfst : (batches.map fun batch ↦ (MirrorRequest.dumped key batch, batch)).map Prod.fst =
      batches.map (.dumped key) := by
    rw [List.map_map]
    rfl
  have hsnd : (batches.map fun batch ↦ (MirrorRequest.dumped key batch, batch)).map Prod.snd =
      batches := by
    rw [List.map_map]
    exact List.map_id _
  have hrun := exists_run_iff_chained (P := P) store hreqs
    (by rw [hsnd, hticks]; exact c.tickObserver.ascending)
  rw [hfst, hsnd, hticks] at hrun
  exact hrun.2 (hc.chained_rest hne hticks)

/-- The chronon-1 slice of an honest calendar is refused by the gate. -/
theorem Chronomatter.Complete.executeTick_one (hc : Complete c)
    (hne : c.tickObserver.ticks ≠ []) :
    executeTick P c.tbid (c.tickObserver.get 1 1) = .err (.cleanAuth .notYetImplemented) := by
  obtain ⟨root, rest, hticks⟩ := List.exists_cons_of_ne_nil hne
  have hroot : root ∈ c.tickObserver.ticks := by
    rw [hticks]
    exact List.mem_cons_self
  obtain ⟨hnumber, hversion⟩ := hc.genesis root (by rw [hticks]; rfl)
  obtain ⟨pk, hpk⟩ := hc.publicKey_eq root hroot
  have hkey : root.publicKey ≠ [] := by
    rw [hpk]
    exact List.ne_nil_of_length_pos (pk.length_eq.symm ▸ by decide)
  have hslice : c.tickObserver.get 1 1 = [root] := by
    have hhead := Calendar.head?_get_of_mem hroot 0
    rw [hnumber] at hhead
    have hlength : (c.tickObserver.get 1 1).length ≤ 1 := List.length_take_le _ _
    obtain ⟨tail, htail⟩ := List.head?_eq_some_iff.1 hhead
    rw [Nat.zero_add] at htail
    rw [htail, List.length_cons] at hlength
    rw [htail, List.length_eq_zero_iff.1 (by omega : tail.length = 0)]
  have hverify : (UnverifiedSignatureEnvelope.fromParsed root).verifyChronon P none =
      .err .notYetImplemented :=
    UnverifiedSignatureEnvelope.verifyChronon_none_of_tbVersion hnumber hkey
      (by change 1 ≤ root.tbVersion; rw [hversion]; decide)
  have hnext : gateNext P c.tbid 0 none (.fromParsed root) =
      .err (.cleanAuth .notYetImplemented) := by
    rw [gateNext, if_neg, if_neg, if_pos rfl, hverify]
    · rfl
    · exact not_not.2 (hc.tbid_eq root hroot)
    · rintro (hzero | hempty)
      · rw [UnverifiedSignatureEnvelope.fromParsed, hnumber] at hzero
        cases hzero
      · exact hkey hempty
  rw [executeTick, hslice, gateChrononRecords, List.map_cons, verifyAll, hnext]
  rfl

/-- What becomes of the calendar of a run without failures. `ship_ack` refuses every piece of it,
and so does `history_dump_chunk` while nothing is stored; a mirror that holds a beginning of it
accepts the rest through `history_dump_chunk`, however it is cut, and then holds it all; a peer
that asks for chronon 1 refuses the answer. -/
theorem delivery_of_run (hed : Ed25519Correct P) {secret : TbidSecret} {tbid : Tbid} {tbn : String}
    {outs : List (Op × Option StampedForetis)}
    (hrun : Run OkStep (Chronomatter.new secret tbid tbn : Chronomatter P) outs c) :
    (∀ (store : MirrorStore) (key : String) (reqs : List MirrorRequest),
      (∀ req ∈ reqs, ∃ batch, batch ≠ [] ∧ batch <:+: c.tickObserver.ticks ∧
        (req = .shipped key batch ∨ req = .dumped key batch ∧ store.records key = [])) →
      Run (RefuseStep P) store reqs store) ∧
    (∀ (store : MirrorStore) (key : String) (batches : List (List ChrononRecord)),
      store.records key ≠ [] →
      store.records key ++ batches.flatten = c.tickObserver.ticks →
      (∀ batch ∈ batches, batch.length ≤ maxCalendarSliceCount) →
      ∃ t, Run (AcceptStep P) store (batches.map (.dumped key)) t ∧
        t.records key = c.tickObserver.ticks) ∧
    (c.tickObserver.ticks ≠ [] →
      executeTick P c.tbid (c.tickObserver.get 1 1) = .err (.cleanAuth .notYetImplemented)) := by
  have hc : Complete c := complete_of_run hed (complete_new secret tbid tbn) hrun
  refine ⟨fun store key reqs hreqs ↦ ?_, fun store key batches hne hticks hsize ↦
    hc.exists_run_dumped hne hticks hsize, hc.executeTick_one⟩
  induction reqs with
  | nil => exact .nil store
  | cons req reqs ih =>
    obtain ⟨batch, hne, hbatch, hreq⟩ := hreqs req List.mem_cons_self
    exact .cons (hc.refuseStep hne hbatch hreq)
      (ih fun req' h' ↦ hreqs req' (List.mem_cons_of_mem _ h'))

/-- Daemon ticks without faults, each with its own seed, lead to `c`. -/
def DaemonRun (seeds : List UInt8) (c : Chronomatter .transparent) : Prop :=
  Run OkStep (Chronomatter.new default default "")
    (seeds.map fun seed ↦ (.daemonTick (.clear (.replicate 32 seed)), none)) c

theorem DaemonRun.complete {seeds : List UInt8} {c : Chronomatter .transparent}
    (hrun : DaemonRun seeds c) : Complete c :=
  complete_of_run ed25519Exact_transparent.correct (complete_new default default "") hrun

/-- The second tick of a run of two, delivered to a mirror that holds the first. -/
theorem delivery_two_ticks : ∃ (c : Chronomatter .transparent) (t : MirrorStore),
    DaemonRun [1, 2] c ∧ c.tickObserver.ticks.length = 2 ∧
      t.records "" = c.tickObserver.ticks := by
  have hrun : DaemonRun [1, 2] _ := .cons rfl (.cons rfl (.nil _))
  obtain ⟨-, hrest, -⟩ := delivery_of_run ed25519Exact_transparent.correct hrun
  obtain ⟨t, -, hrecords⟩ := hrest ((MirrorStore.new 1).insertAll "" [_]) "" [[_]]
    (List.cons_ne_nil _ _) rfl (by simp [maxCalendarSliceCount])
  exact ⟨_, t, hrun, rfl, hrecords⟩

/-- The calendar of a single daemon tick is refused by an empty mirror, on either path, and by a
peer that asks for it. -/
theorem one_tick_undelivered : ∃ (c : Chronomatter .transparent) (r : ChrononRecord),
    DaemonRun [1] c ∧ c.tickObserver.ticks = [r] ∧
    RefuseStep .transparent (.new 1) (.dumped c.tbid.toHex [r]) (.new 1) ∧
    RefuseStep .transparent (.new 1) (.shipped c.tbid.toHex [r]) (.new 1) ∧
    executeTick .transparent c.tbid (c.tickObserver.get 1 1) =
      .err (.cleanAuth .notYetImplemented) := by
  obtain ⟨c, r, hrun, hticks⟩ : ∃ (c : Chronomatter .transparent) (r : ChrononRecord),
      DaemonRun [1] c ∧ c.tickObserver.ticks = [r] := ⟨_, _, .cons rfl (.nil _), rfl⟩
  have hc : Complete c := hrun.complete
  have hne : [r] ≠ [] := List.cons_ne_nil _ _
  have hbatch : [r] <:+: c.tickObserver.ticks := hticks ▸ List.infix_rfl
  exact ⟨c, r, hrun, hticks, hc.refuseStep hne hbatch (.inr ⟨rfl, rfl⟩),
    hc.refuseStep hne hbatch (.inl rfl), hc.executeTick_one (by rw [hticks]; exact hne)⟩

end Foretias

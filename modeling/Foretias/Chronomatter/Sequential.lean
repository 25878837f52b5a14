import Foretias.Chronomatter.Calls
import Foretias.Library.Run

/-!
# What one call does

Every later result about sequential runs is derived from two inversion lemmas. A call that
returns `Ok` has pushed one key pair, handed one record to the observer and reset the stamp
counter, and the record is tied to the pair that was newest before (`exec_eq_ok`). A call that
returns `Err` has advanced the counter, may have pushed a pair, and has left the observing
calendar alone (`exec_eq_error`).
-/

namespace Foretias

open ErrorState

variable {P : Primitives}

/-- Nothing that a call performs on the way to the record of tick `tick` has a fault. -/
structure CallEnv.BuildsTick (env : CallEnv) (tick : UInt64) : Prop where
  /-- A key pair is generated. -/
  generate : ∃ seed, env.generate = .ok seed
  /-- A nonce is drawn. -/
  nonce : ∃ nonce, env.nonce = .ok nonce
  /-- The current key signs. -/
  backwardSign : env.backwardSign = none
  /-- At tick 1 the TBID secret signs. -/
  genesisSign : tick = 1 → env.genesisSign = none
  /-- Later the previous key signs. -/
  forwardSign : tick ≠ 1 → env.forwardSign = none

/-- Nothing that a stamp performs beyond building the record has a fault. -/
structure CallEnv.StampsContent (env : CallEnv) : Prop where
  /-- The content is hashed. -/
  sha256 : env.sha256 = none
  /-- The clock is read. -/
  clock : ∃ now, env.clock = .ok now
  /-- The payload is encoded. -/
  serialize : env.serialize = none
  /-- The payload is signed. -/
  foretisSign : env.foretisSign = none

/-- An environment without faults, with a given seed, nonce zero and the clock at zero. -/
def CallEnv.clear (seed : FixedBytes 32) : CallEnv where
  generate := .ok seed
  sha256 := none
  clock := .ok 0
  serialize := none
  foretisSign := none
  genesisSign := none
  nonce := .ok default
  forwardSign := none
  backwardSign := none

theorem CallEnv.buildsTick_clear (seed : FixedBytes 32) (tick : UInt64) :
    (clear seed).BuildsTick tick :=
  ⟨⟨seed, rfl⟩, ⟨default, rfl⟩, rfl, fun _ ↦ rfl, fun _ ↦ rfl⟩

theorem CallEnv.stampsContent_clear (seed : FixedBytes 32) : (clear seed).StampsContent :=
  ⟨rfl, ⟨0, rfl⟩, rfl, rfl⟩

namespace Chronomatter

variable {c t : Chronomatter P} {env : CallEnv} {tick : UInt64} {newPub : FixedBytes 32}

/-! ### Runs of the primitives -/

theorem fetchAddTick_apply (c : Chronomatter P) :
    fetchAddTick c = .ok (c.currentTick + 1) c.advanceTick := rfl

theorem swapStampCount_apply (c : Chronomatter P) :
    swapStampCount c = .ok c.chrononStampCount c.resetStampCount := rfl

theorem keypairPub_apply (i : ℕ) (c : Chronomatter P) :
    keypairPub i c = .ok ((c.keypairs.slot i).map TickKeyPair.pubKey) c := rfl

/-- A pair that is generated is pushed on the ring. -/
theorem generateAndStoreKeypair_eq_ok : generateAndStoreKeypair env c = .ok () t ↔
    ∃ seed, env.generate = .ok seed ∧ t = c.storeKeypair (.ofSeed P seed) := by
  rw [generateAndStoreKeypair, bind_eq_ok]
  constructor
  · rintro ⟨seed, _, hseed, hpush⟩
    obtain ⟨hgen, rfl⟩ := orCrypto_eq_ok.1 hseed
    cases hpush
    exact ⟨seed, hgen, rfl⟩
  · rintro ⟨seed, hgen, rfl⟩
    exact ⟨seed, c, orCrypto_eq_ok.2 ⟨hgen, rfl⟩, rfl⟩

/-- A signature is made with the pair in the slot, and changes nothing. -/
theorem signWithKeypair_eq_ok {i : ℕ} {fault : Option CryptoError} {msg sig : Bytes} :
    signWithKeypair i fault msg c = .ok sig t ↔
      (∃ kp, c.keypairs.slot i = some kp ∧ sig = (P.ed25519Sign kp.privKey msg).toList) ∧
        fault = none ∧ t = c := by
  rw [signWithKeypair, bind_eq_ok]
  constructor
  · rintro ⟨_, _, ⟨⟩, h⟩
    cases hslot : c.keypairs.slot i with
    | none =>
      rw [hslot] at h
      cases h
    | some kp =>
      rw [hslot] at h
      obtain ⟨hsig, rfl⟩ := orCrypto_eq_ok.1 h
      obtain ⟨hfault, rfl⟩ := unlessFault_eq_ok.1 hsig
      exact ⟨⟨kp, rfl, rfl⟩, hfault, rfl⟩
  · rintro ⟨⟨kp, hslot, rfl⟩, hfault, rfl⟩
    refine ⟨_, _, rfl, ?_⟩
    simp only [hslot]
    exact orCrypto_eq_ok.2 ⟨unlessFault_eq_ok.2 ⟨hfault, rfl⟩, rfl⟩

/-! ### The record of a tick -/

/-- An attestation only resets the stamp counter; past the first tick it is signed with the
pairs in slots 1 and 0 and names the public key in slot 1. -/
theorem buildAutoAttestation_eq_ok {att : AutoAttestation}
    (h : buildAutoAttestation env tick newPub c = .ok att t) :
    t = c.resetStampCount ∧ (∃ nonce, env.nonce = .ok nonce) ∧ env.backwardSign = none ∧
    (tick ≠ 1 → env.forwardSign = none ∧ ∃ prev kp, c.keypairs.slot 1 = some prev ∧
      c.keypairs.slot 0 = some kp ∧
      att.forwardForetis = (P.ed25519Sign prev.privKey (autoAttestationBlobWithCount c.tbid.toHex
        (tick - 1) prev.pubKey tick newPub att.stamps att.aaNonce)).toList ∧
      att.backwardForetis = (P.ed25519Sign kp.privKey (autoAttestationBlobWithCount c.tbid.toHex
        (tick - 1) prev.pubKey tick newPub att.stamps att.aaNonce)).toList) := by
  rw [buildAutoAttestation] at h
  obtain ⟨_, _, ⟨⟩, h⟩ := bind_eq_ok.1 h
  obtain ⟨stamps, _, ⟨⟩, h⟩ := bind_eq_ok.1 h
  by_cases htick : tick = 1
  · rw [if_pos htick] at h
    obtain ⟨nonce, _, hnonce, h⟩ := bind_eq_ok.1 h
    obtain ⟨hdrawn, rfl⟩ := orCrypto_eq_ok.1 hnonce
    obtain ⟨sig, _, hsig, h⟩ := bind_eq_ok.1 h
    obtain ⟨-, hsigned, rfl⟩ := signWithKeypair_eq_ok.1 hsig
    cases h
    exact ⟨rfl, ⟨nonce, hdrawn⟩, hsigned, fun hne ↦ absurd htick hne⟩
  rw [if_neg htick] at h
  obtain ⟨prevPub, _, ⟨⟩, h⟩ := bind_eq_ok.1 h
  cases hprev : c.keypairs.slot 1 with
  | none =>
    have hslot : c.resetStampCount.keypairs.slot 1 = none := hprev
    rw [hslot] at h
    cases h
  | some prev =>
    have hslot : c.resetStampCount.keypairs.slot 1 = some prev := hprev
    rw [hslot] at h
    obtain ⟨nonce, _, hnonce, h⟩ := bind_eq_ok.1 h
    obtain ⟨hdrawn, rfl⟩ := orCrypto_eq_ok.1 hnonce
    obtain ⟨fwd, _, hfwd, h⟩ := bind_eq_ok.1 h
    obtain ⟨⟨prev', hprev', rfl⟩, hforward, rfl⟩ := signWithKeypair_eq_ok.1 hfwd
    obtain ⟨bwd, _, hbwd, h⟩ := bind_eq_ok.1 h
    obtain ⟨⟨kp, hkp, rfl⟩, hbackward, rfl⟩ := signWithKeypair_eq_ok.1 hbwd
    obtain rfl := Option.some_inj.1 (hslot.symm.trans hprev')
    cases h
    exact ⟨rfl, ⟨nonce, hdrawn⟩, hbackward, fun _ ↦ ⟨hforward, prev, kp, rfl, hkp, rfl, rfl⟩⟩

/-- A genesis foretis: an Ed25519 signature over the blob that embeds the TBID signature of the
certificate, followed by the TBID signature. -/
def genesisForetis (P : Primitives) (privKey : FixedBytes 32) (secret : TbidSecret) (tbid : Tbid)
    (tick : UInt64) (newPub : FixedBytes 32) (stamps : UInt64) (nonce : FixedBytes 16) : Bytes :=
  let genesisSig := tbidSign P secret (genesisBlob tbid tick newPub.toList)
  (P.ed25519Sign privKey (autoAttestationBlobWithGenesis tbid.toHex tick newPub genesisSig stamps
    nonce)).toList ++ genesisSig

/-- The genesis attestation only resets the stamp counter, too; its foretis is the signature of
the pair in slot 0 over the blob that embeds the TBID signature, followed by the latter. -/
theorem buildGenesisWithPqc_eq_ok {secret : TbidSecret} {att : AutoAttestation}
    (h : buildGenesisWithPqc env tick newPub secret c = .ok att t) :
    t = c.resetStampCount ∧ (∃ nonce, env.nonce = .ok nonce) ∧ env.backwardSign = none ∧
      env.genesisSign = none ∧ ∃ kp, c.keypairs.slot 0 = some kp ∧
      att.forwardForetis = genesisForetis P kp.privKey secret c.tbid tick newPub att.stamps
        att.aaNonce ∧ att.backwardForetis = att.forwardForetis := by
  rw [buildGenesisWithPqc] at h
  obtain ⟨_, _, ⟨⟩, h⟩ := bind_eq_ok.1 h
  obtain ⟨_, _, hsig, h⟩ := bind_eq_ok.1 h
  obtain ⟨hsigned, rfl⟩ := orCrypto_eq_ok.1 hsig
  obtain ⟨hgenesis, rfl⟩ := unlessFault_eq_ok.1 hsigned
  obtain ⟨_, _, ⟨⟩, h⟩ := bind_eq_ok.1 h
  obtain ⟨nonce, _, hnonce, h⟩ := bind_eq_ok.1 h
  obtain ⟨hdrawn, rfl⟩ := orCrypto_eq_ok.1 hnonce
  obtain ⟨_, _, hed, h⟩ := bind_eq_ok.1 h
  obtain ⟨⟨kp, hkp, rfl⟩, hbackward, rfl⟩ := signWithKeypair_eq_ok.1 hed
  cases h
  exact ⟨rfl, ⟨nonce, hdrawn⟩, hbackward, hgenesis, kp, hkp, rfl, rfl⟩

/-- The record that a call begun in `before` hands to the observer after pushing `kp`. -/
structure Produced (before : Chronomatter P) (kp : TickKeyPair P) (record : ChrononRecord) :
    Prop where
  /-- It carries the number of the tick begun. -/
  chrononNumber_eq : record.chrononNumber = before.currentTick + 1
  /-- The builder refuses number zero. -/
  chrononNumber_ne_zero : record.chrononNumber ≠ 0
  /-- It carries the public key of the pair. -/
  publicKey_eq : record.publicKey = kp.pubKey.toList
  /-- It names Ed25519. -/
  signatureAlgorithm_eq : record.signatureAlgorithm = "Ed25519"
  /-- It names the time being. -/
  tbid_eq : record.tbid = before.tbid
  /-- The first record is of version 1 when there is a TBID secret. -/
  genesis : record.chrononNumber = 1 →
    record.tbVersion = if before.tbidSecret.isSome then 1 else 0
  /-- Both foretis of a version-1 genesis record are made with the pair and the TBID secret. -/
  certified : record.chrononNumber = 1 → before.tbidSecret.isSome →
    ∃ secret : TbidSecret, secret.tbid P = before.tbid ∧
      record.forwardForetis = genesisForetis P kp.privKey secret before.tbid record.chrononNumber
        kp.pubKey record.chrononStampCount record.aaNonce ∧
      record.backwardForetis = record.forwardForetis
  /-- A later record attests to the preceding tick number with the pair that was newest. -/
  linked : record.chrononNumber ≠ 1 → record.tbVersion = 0 ∧
    ∃ prev, before.keypairs.slot 0 = some prev ∧
      record.forwardForetis = (P.ed25519Sign prev.privKey (autoAttestationBlobWithCount
        before.tbid.toHex (record.chrononNumber - 1) prev.pubKey record.chrononNumber kp.pubKey
        record.chrononStampCount record.aaNonce)).toList ∧
      record.backwardForetis = (P.ed25519Sign kp.privKey (autoAttestationBlobWithCount
        before.tbid.toHex (record.chrononNumber - 1) prev.pubKey record.chrononNumber kp.pubKey
        record.chrononStampCount record.aaNonce)).toList

/-- A record that is built is the record that was asked for. -/
theorem ofResult_build_eq_ok {tbid : Tbid} {att : AutoAttestation} {version : UInt32}
    (h : (ofResult (tickRecord tbid tick newPub att version).build : Call P ChrononRecord) c =
      .ok record t) :
    t = c ∧ record = tickRecord tbid tick newPub att version ∧ tick ≠ 0 := by
  obtain ⟨hok, rfl⟩ := ofResult_eq_ok.1 h
  obtain ⟨hne, -, rfl⟩ := ChrononRecord.build_eq_ok.1 hok
  exact ⟨rfl, rfl, hne⟩

/-- The record of a tick, built after its pair was pushed. -/
theorem buildTickRecord_eq_ok {before : Chronomatter P} {kp : TickKeyPair P}
    {record : ChrononRecord} (h : buildTickRecord env tick newPub c = .ok record t)
    (htick : tick = before.currentTick + 1) (hpub : newPub = kp.pubKey)
    (htbid : c.tbid = before.tbid) (hring : c.keypairs = before.keypairs.push kp)
    (hsecret : c.tbidSecret.isSome = before.tbidSecret.isSome) :
    Produced before kp record ∧ t = c.resetStampCount ∧ (before.tbidSecret.isSome →
      (∃ seed, env.generate = .ok seed) → env.BuildsTick tick) := by
  subst hpub
  -- all branches end in `build`; they differ in the attestation and the version
  rw [buildTickRecord] at h
  obtain ⟨_, _, ⟨⟩, h⟩ := bind_eq_ok.1 h
  by_cases hgenesis : tick = 1
  · rw [if_pos hgenesis] at h
    obtain ⟨_, _, ⟨⟩, h⟩ := bind_eq_ok.1 h
    cases hsec : c.tbidSecret with
    | some secret =>
      rw [hsec] at h
      obtain ⟨att, s, hatt, h⟩ := bind_eq_ok.1 h
      obtain ⟨rfl, rfl, hne⟩ := ofResult_build_eq_ok h
      obtain ⟨hstate, hnonce, hbackward, hsigned, kp', hkp, hforward, hsame⟩ :=
        buildGenesisWithPqc_eq_ok hatt
      rw [hring, KeyRing.slot_push_zero, Option.some_inj] at hkp
      subst hkp
      refine ⟨⟨htick, hne, rfl, rfl, htbid, fun _ ↦ ?_, fun _ _ ↦ ⟨secret.1, ?_, ?_, hsame⟩,
        fun h1 ↦ absurd hgenesis h1⟩, hstate, fun _ hseed ↦
        ⟨hseed, hnonce, hbackward, fun _ ↦ hsigned, fun h1 ↦ absurd hgenesis h1⟩⟩
      · rw [← hsecret, hsec]
        rfl
      · rw [← htbid]
        exact secret.2
      · rw [← htbid]
        exact hforward
    | none =>
      rw [hsec] at h
      obtain ⟨att, s, hatt, h⟩ := bind_eq_ok.1 h
      obtain ⟨rfl, rfl, hne⟩ := ofResult_build_eq_ok h
      have hnone : before.tbidSecret.isSome = false := by rw [← hsecret, hsec]; rfl
      refine ⟨⟨htick, hne, rfl, rfl, htbid, fun _ ↦ ?_,
        fun _ hsome ↦ absurd hsome (by simp [hnone]), fun h1 ↦ absurd hgenesis h1⟩,
        (buildAutoAttestation_eq_ok hatt).1, fun hsome ↦ absurd hsome (by simp [hnone])⟩
      rw [hnone]
      rfl
  · rw [if_neg hgenesis] at h
    obtain ⟨att, s, hatt, h⟩ := bind_eq_ok.1 h
    obtain ⟨rfl, rfl, hne⟩ := ofResult_build_eq_ok h
    obtain ⟨rfl, hnonce, hbackward, hlinked⟩ := buildAutoAttestation_eq_ok hatt
    obtain ⟨hforward, prev, kp', hprev, hkp, hfwd, hbwd⟩ := hlinked hgenesis
    rw [hring, KeyRing.slot_push_one] at hprev
    rw [hring, KeyRing.slot_push_zero, Option.some_inj] at hkp
    subst hkp
    rw [htbid] at hfwd hbwd
    exact ⟨⟨htick, hne, rfl, rfl, htbid, fun h1 ↦ absurd h1 hgenesis,
      fun h1 ↦ absurd h1 hgenesis, fun _ ↦ ⟨rfl, prev, hprev, hfwd, hbwd⟩⟩, rfl, fun _ hseed ↦
      ⟨hseed, hnonce, hbackward, fun h1 ↦ absurd h1 hgenesis, fun _ ↦ hforward⟩⟩

/-! ### Calls that return `Ok` -/

/-- The state after a call that pushed `kp` and handed over `record`. -/
def completed (c : Chronomatter P) (kp : TickKeyPair P) (record : ChrononRecord) :
    Chronomatter P :=
  { c with
    currentTick := c.currentTick + 1
    keypairs := c.keypairs.push kp
    tickObserver := c.tickObserver.onTickAdvance record
    chrononStampCount := 0 }

/-- `st` attests `content` at the chronon of `record`, signed with `kp`. -/
structure Attests (kp : TickKeyPair P) (record : ChrononRecord) (content : Bytes)
    (st : StampedForetis) : Prop where
  /-- It carries the record's number. -/
  chrononNumber_eq : st.foretis.chrononNumber = record.chrononNumber
  /-- It carries the hash of the content. -/
  contentHash_eq : st.foretis.contentHash = P.sha256 content
  /-- The pair signed its canonical bytes. -/
  signature_eq : st.signatureBytes = (P.ed25519Sign kp.privKey (P.postcard st.foretis)).toList
  /-- It names Ed25519. -/
  signatureAlgorithm_eq : st.signatureAlgorithm = "Ed25519"

/-- The newest public key is the one just stored. -/
theorem keypairPub_zero_eq_ok {kp : TickKeyPair P} {r : Option (FixedBytes 32)}
    (hring : ∃ ring : KeyRing P, c.keypairs = ring.push kp) (h : keypairPub 0 c = .ok r t) :
    r = some kp.pubKey ∧ t = c := by
  obtain ⟨ring, hring⟩ := hring
  rw [keypairPub_apply, hring, KeyRing.slot_push_zero] at h
  cases h
  exact ⟨rfl, rfl⟩

/-- A stamp that returns `Ok` has handed over a record of its own tick, its signature is by the key
that the record names, and it names the time being. -/
theorem stamp_eq_ok {content : Bytes} {echo : String} {st : StampedForetis}
    (h : stamp env content echo c = .ok st t) :
    ∃ kp record, Produced c kp record ∧ t = c.completed kp record ∧
      Attests kp record content st ∧ st.foretis.tbid = c.tbid ∧ env.StampsContent ∧
      (c.tbidSecret.isSome → env.BuildsTick (c.currentTick + 1)) := by
  rw [stamp] at h
  obtain ⟨_, _, ⟨⟩, h⟩ := bind_eq_ok.1 h
  cases hdormant : c.isDormant with
  | true =>
    rw [hdormant] at h
    cases h
  | false =>
    rw [hdormant] at h
    obtain ⟨_, _, ⟨⟩, h⟩ := bind_eq_ok.1 h
    obtain ⟨_, _, ⟨⟩, h⟩ := bind_eq_ok.1 h
    rw [createForetis] at h
    obtain ⟨_, _, hstore, h⟩ := bind_eq_ok.1 h
    obtain ⟨seed, hseed, rfl⟩ := generateAndStoreKeypair_eq_ok.1 hstore
    obtain ⟨_, _, hpub, h⟩ := bind_eq_ok.1 h
    obtain ⟨rfl, rfl⟩ := keypairPub_zero_eq_ok ⟨c.keypairs, rfl⟩ hpub
    obtain ⟨_, _, hhash, h⟩ := bind_eq_ok.1 h
    obtain ⟨hhashed, rfl⟩ := orCrypto_eq_ok.1 hhash
    obtain ⟨hhashed, -⟩ := unlessFault_eq_ok.1 hhashed
    obtain ⟨now, _, hclock, h⟩ := bind_eq_ok.1 h
    obtain ⟨hnow, rfl⟩ := ofResult_mapError_eq_ok.1 hclock
    obtain ⟨_, _, ⟨⟩, h⟩ := bind_eq_ok.1 h
    obtain ⟨input, _, hinput, h⟩ := bind_eq_ok.1 h
    obtain ⟨hencoded, rfl⟩ := ofResult_mapError_eq_ok.1 hinput
    obtain ⟨hserialize, rfl⟩ := unlessFault_eq_ok.1 hencoded
    obtain ⟨sig, _, hsig, h⟩ := bind_eq_ok.1 h
    obtain ⟨⟨kp, hkp, rfl⟩, hsigned, rfl⟩ := signWithKeypair_eq_ok.1 hsig
    obtain rfl := Option.some_inj.1 ((KeyRing.slot_push_zero _ _).symm.trans hkp)
    obtain ⟨record, _, hrecord, h⟩ := bind_eq_ok.1 h
    have hring : (c.advanceTick.countStamp.storeKeypair (.ofSeed P seed)).keypairs =
      c.keypairs.push (.ofSeed P seed) := rfl
    obtain ⟨hproduced, rfl, hbuilds⟩ := buildTickRecord_eq_ok hrecord rfl rfl rfl hring rfl
    obtain ⟨_, _, ⟨⟩, h⟩ := bind_eq_ok.1 h
    cases h
    exact ⟨_, record, hproduced, rfl, ⟨hproduced.chrononNumber_eq.symm, rfl, rfl, rfl⟩, rfl,
      ⟨hhashed, ⟨now, hnow⟩, hserialize, hsigned⟩, fun hsome ↦ hbuilds hsome ⟨seed, hseed⟩⟩

/-- A daemon tick that returns `Ok` on a chronomatter that is not dormant has handed over a
record. -/
theorem daemonTick_eq_ok (hdormant : c.isDormant = false) (h : daemonTick env c = .ok () t) :
    ∃ kp record, Produced c kp record ∧ t = c.completed kp record ∧
      (c.tbidSecret.isSome → env.BuildsTick (c.currentTick + 1)) := by
  rw [daemonTick] at h
  obtain ⟨_, _, ⟨⟩, h⟩ := bind_eq_ok.1 h
  rw [hdormant] at h
  obtain ⟨_, _, ⟨⟩, h⟩ := bind_eq_ok.1 h
  obtain ⟨_, _, hstore, h⟩ := bind_eq_ok.1 h
  obtain ⟨seed, hseed, rfl⟩ := generateAndStoreKeypair_eq_ok.1 hstore
  obtain ⟨_, _, hpub, h⟩ := bind_eq_ok.1 h
  obtain ⟨rfl, rfl⟩ := keypairPub_zero_eq_ok ⟨c.keypairs, rfl⟩ hpub
  obtain ⟨record, _, hrecord, h⟩ := bind_eq_ok.1 h
  have hring : (c.advanceTick.storeKeypair (.ofSeed P seed)).keypairs =
    c.keypairs.push (.ofSeed P seed) := rfl
  obtain ⟨hproduced, rfl, hbuilds⟩ := buildTickRecord_eq_ok hrecord rfl rfl rfl hring rfl
  cases h
  exact ⟨_, record, hproduced, rfl, fun hsome ↦ hbuilds hsome ⟨seed, hseed⟩⟩

/-! ### Calls that return `Err` -/

/-- The part of the state that only `fetchAddTick` and the notification change. -/
def kept (c : Chronomatter P) : Tbid × Bool × Bool × UInt64 × Calendar :=
  (c.tbid, c.tbidSecret.isSome, c.isDormant, c.currentTick, c.tickObserver)

theorem preserves_orCrypto {α : Type} (x : Except CryptoError α) :
    Preserves kept (orCrypto x : Call P α) :=
  .ofResult _

theorem preserves_swapStampCount : Preserves kept (swapStampCount : Call P UInt64) :=
  .bind .get fun _ ↦ .bind (.modify fun _ ↦ rfl) fun _ ↦ .pure _

theorem preserves_keypairPub (i : ℕ) :
    Preserves kept (keypairPub i : Call P (Option (FixedBytes 32))) :=
  .bind .get fun _ ↦ .pure _

theorem preserves_generateAndStoreKeypair (env : CallEnv) :
    Preserves kept (generateAndStoreKeypair env : Call P Unit) :=
  .bind (preserves_orCrypto _) fun _ ↦ .modify fun _ ↦ rfl

theorem preserves_signWithKeypair (i : ℕ) (fault : Option CryptoError) (msg : Bytes) :
    Preserves kept (signWithKeypair i fault msg : Call P Bytes) := by
  refine .bind .get fun c ↦ ?_
  dsimp only
  cases c.keypairs.slot i with
  | none => exact .throw _
  | some kp => exact preserves_orCrypto _

/-- An attestation of a chronon keeps identity, mode, tick and calendar; -/
theorem preserves_buildAutoAttestation (env : CallEnv) (tick : UInt64) (newPub : FixedBytes 32) :
    Preserves kept (buildAutoAttestation env tick newPub : Call P AutoAttestation) := by
  refine .bind .get fun c ↦ .bind preserves_swapStampCount fun stamps ↦ .ite ?_ ?_
  · exact .bind (preserves_orCrypto _) fun _ ↦
      .bind (preserves_signWithKeypair _ _ _) fun _ ↦ .pure _
  · refine .bind (preserves_keypairPub 1) fun prevPub ↦ ?_
    cases prevPub with
    | none => exact .throw _
    | some prevPub =>
      exact .bind (preserves_orCrypto _) fun _ ↦ .bind (preserves_signWithKeypair _ _ _) fun _ ↦
        .bind (preserves_signWithKeypair _ _ _) fun _ ↦ .pure _

theorem preserves_buildGenesisWithPqc (env : CallEnv) (tick : UInt64) (newPub : FixedBytes 32)
    (secret : TbidSecret) :
    Preserves kept (buildGenesisWithPqc env tick newPub secret : Call P AutoAttestation) :=
  .bind .get fun _ ↦ .bind (preserves_orCrypto _) fun _ ↦ .bind preserves_swapStampCount fun _ ↦
    .bind (preserves_orCrypto _) fun _ ↦ .bind (preserves_signWithKeypair _ _ _) fun _ ↦ .pure _

/-- so does the record around it, -/
theorem preserves_buildTickRecord (env : CallEnv) (tick : UInt64) (newPub : FixedBytes 32) :
    Preserves kept (buildTickRecord env tick newPub : Call P ChrononRecord) := by
  refine .bind .get fun c ↦ .ite (.bind .get fun c' ↦ ?_) ?_
  · cases c'.tbidSecret with
    | some secret => exact .bind (preserves_buildGenesisWithPqc _ _ _ _) fun _ ↦ .ofResult _
    | none => exact .bind (preserves_buildAutoAttestation _ _ _) fun _ ↦ .ofResult _
  · exact .bind (preserves_buildAutoAttestation _ _ _) fun _ ↦ .ofResult _

/-- The notification is the last step and cannot fail. -/
theorem keepsOnError_notifyObserver {α : Type} (record : ChrononRecord) (a : α) :
    KeepsOnError kept (do modify fun c ↦ c.notifyObserver record; return a : Call P α) :=
  .of_forall_ok fun c ↦ ⟨a, c.notifyObserver record, rfl⟩

/-- and a stamp that fails. -/
theorem keepsOnError_createForetis (env : CallEnv) (tick : UInt64) (content : Bytes)
    (echo : String) :
    KeepsOnError kept (createForetis env tick content echo : Call P StampedForetis) := by
  refine .bind (preserves_generateAndStoreKeypair env) fun _ ↦
    .bind (preserves_keypairPub 0) fun newPub ↦ ?_
  cases newPub with
  | none => exact Preserves.keepsOnError (.throw _)
  | some newPub =>
    exact .bind (preserves_orCrypto _) fun _ ↦ .bind (.ofResult _) fun _ ↦ .bind .get fun _ ↦
      .bind (.ofResult _) fun _ ↦ .bind (preserves_signWithKeypair _ _ _) fun _ ↦
      .bind (preserves_buildTickRecord _ _ _) fun record ↦ keepsOnError_notifyObserver record _

/-- A stamp that returns `Err` has begun a tick and left the observing calendar alone. -/
theorem stamp_eq_error {content : Bytes} {echo : String} {e : NodeError}
    (hdormant : c.isDormant = false) (h : stamp env content echo c = .error e t) :
    kept t = kept c.advanceTick := by
  have hstamp : stamp env content echo c =
      createForetis env (c.currentTick + 1) content echo c.advanceTick.countStamp := by
    rw [stamp, bind_apply]
    simp only [get_apply, hdormant]
    rfl
  rw [hstamp] at h
  exact (keepsOnError_createForetis _ _ _ _ _ _ _ h).trans rfl

/-- So has a daemon tick. -/
theorem daemonTick_eq_error {e : NodeError} (hdormant : c.isDormant = false)
    (h : daemonTick env c = .error e t) : kept t = kept c.advanceTick := by
  rw [daemonTick, bind_apply] at h
  simp only [get_apply, hdormant] at h
  change (fetchAddTick >>= _) c = .error e t at h
  rw [bind_of_ok (fetchAddTick_apply c)] at h
  -- past the counter, what is left keeps the state on every error
  refine (?_ : KeepsOnError kept _) _ _ _ h
  refine .bind (preserves_generateAndStoreKeypair env) fun _ ↦
    .bind (preserves_keypairPub 0) fun newPub ↦ ?_
  cases newPub with
  | none => exact Preserves.keepsOnError (.throw _)
  | some newPub =>
    exact .bind (preserves_buildTickRecord _ _ _) fun record ↦
      .of_forall_ok fun c ↦ ⟨(), c.notifyObserver record, rfl⟩

/-! ### Operations -/

/-- An operation of a sequential run, with what its call receives from outside. -/
inductive Op
  | stamp (env : CallEnv) (content : Bytes) (echo : String)
  | daemonTick (env : CallEnv)

/-- The call of an operation; a daemon tick returns no stamp. -/
def Op.exec : Op → Call P (Option StampedForetis)
  | .stamp env content echo => some <$> Chronomatter.stamp env content echo
  | .daemonTick env => do
    Chronomatter.daemonTick env
    return none

/-- Nothing the operation performs in tick `tick` has a fault. -/
def Op.Faultless (tick : UInt64) : Op → Prop
  | .stamp env _ _ => env.BuildsTick tick ∧ env.StampsContent
  | .daemonTick env => env.BuildsTick tick

/-- An operation that returns `Ok` has handed over one record; a returned stamp attests its
content at that record. -/
theorem exec_eq_ok {op : Op} {r : Option StampedForetis} (hdormant : c.isDormant = false)
    (h : op.exec c = .ok r t) :
    ∃ kp record, Produced c kp record ∧ t = c.completed kp record ∧
      (∀ env content echo, op = .stamp env content echo →
        ∃ st, r = some st ∧ Attests kp record content st) ∧
      (c.tbidSecret.isSome → op.Faultless (c.currentTick + 1)) := by
  cases op with
  | stamp env content echo =>
    rw [Op.exec, map_eq_pure_bind] at h
    obtain ⟨st, _, hst, h⟩ := bind_eq_ok.1 h
    cases h
    obtain ⟨kp, record, hproduced, rfl, hattests, -, hstamps, hbuilds⟩ := stamp_eq_ok hst
    refine ⟨kp, record, hproduced, rfl, ?_, fun hsome ↦ ⟨hbuilds hsome, hstamps⟩⟩
    rintro _ _ _ ⟨⟩
    exact ⟨st, rfl, hattests⟩
  | daemonTick env =>
    rw [Op.exec] at h
    obtain ⟨_, _, htick, h⟩ := bind_eq_ok.1 h
    cases h
    obtain ⟨kp, record, hproduced, rfl, hbuilds⟩ := daemonTick_eq_ok hdormant htick
    exact ⟨kp, record, hproduced, rfl, (fun _ _ _ hop ↦ nomatch hop), hbuilds⟩

/-- An operation that returns `Err` has begun a tick and left the observing calendar alone. -/
theorem exec_eq_error {op : Op} {e : NodeError} (hdormant : c.isDormant = false)
    (h : op.exec c = .error e t) : kept t = kept c.advanceTick := by
  cases op with
  | stamp env content echo =>
    rw [Op.exec, map_eq_pure_bind, bind_apply] at h
    cases hst : Chronomatter.stamp env content echo c with
    | ok st s =>
      rw [hst] at h
      cases h
    | error e' s =>
      rw [hst] at h
      cases h
      exact stamp_eq_error hdormant hst
  | daemonTick env =>
    rw [Op.exec, bind_apply] at h
    cases htick : Chronomatter.daemonTick env c with
    | ok _ s =>
      rw [htick] at h
      cases h
    | error e' s =>
      rw [htick] at h
      cases h
      exact daemonTick_eq_error hdormant htick

/-! ### Calls without faults -/

section Faultless

variable {kp prev : TickKeyPair P} {nonce : FixedBytes 16}

theorem orCrypto_apply {α : Type} {x : Except CryptoError α} {a : α} (h : x = .ok a) :
    (orCrypto x : Call P α) c = .ok a c :=
  orCrypto_eq_ok.2 ⟨h, rfl⟩

theorem signWithKeypair_apply {i : ℕ} {fault : Option CryptoError} {msg : Bytes}
    (hslot : c.keypairs.slot i = some kp) (hfault : fault = none) :
    signWithKeypair i fault msg c = .ok (P.ed25519Sign kp.privKey msg).toList c :=
  signWithKeypair_eq_ok.2 ⟨⟨kp, hslot, rfl⟩, hfault, rfl⟩

theorem keypairPub_apply_some {i : ℕ} (hslot : c.keypairs.slot i = some kp) :
    keypairPub i c = .ok (some kp.pubKey) c := by
  rw [keypairPub_apply, hslot]
  rfl

/-- The first attestation succeeds with a pair and without a fault, -/
theorem exists_buildGenesisWithPqc (hnonce : env.nonce = .ok nonce)
    (hgenesis : env.genesisSign = none) (hbackward : env.backwardSign = none)
    (hslot : c.keypairs.slot 0 = some kp) (newPub : FixedBytes 32) (secret : TbidSecret) :
    ∃ att, buildGenesisWithPqc env tick newPub secret c = .ok att c.resetStampCount := by
  have hslot' : c.resetStampCount.keypairs.slot 0 = some kp := hslot
  rw [buildGenesisWithPqc, bind_of_ok (get_apply c),
    bind_of_ok (orCrypto_apply (unlessFault_eq_ok.2 ⟨hgenesis, rfl⟩)),
    bind_of_ok (swapStampCount_apply c), bind_of_ok (orCrypto_apply hnonce),
    bind_of_ok (signWithKeypair_apply hslot' hbackward)]
  exact ⟨_, rfl⟩

/-- and a later one if the previous pair is held as well. -/
theorem exists_buildAutoAttestation (htick : tick ≠ 1) (hnonce : env.nonce = .ok nonce)
    (hforward : env.forwardSign = none) (hbackward : env.backwardSign = none)
    (hslot : c.keypairs.slot 0 = some kp) (hprev : c.keypairs.slot 1 = some prev)
    (newPub : FixedBytes 32) :
    ∃ att, buildAutoAttestation env tick newPub c = .ok att c.resetStampCount := by
  have hslot' : c.resetStampCount.keypairs.slot 0 = some kp := hslot
  have hprev' : c.resetStampCount.keypairs.slot 1 = some prev := hprev
  rw [buildAutoAttestation, bind_of_ok (get_apply c), bind_of_ok (swapStampCount_apply c),
    if_neg htick, bind_of_ok (keypairPub_apply_some hprev')]
  dsimp only
  rw [bind_of_ok (orCrypto_apply hnonce), bind_of_ok (signWithKeypair_apply hprev' hforward),
    bind_of_ok (signWithKeypair_apply hslot' hbackward)]
  exact ⟨_, rfl⟩

/-- Without a fault the record of a tick is built, provided that the tick is not zero and, past
the first tick, a previous pair is held. -/
theorem exists_buildTickRecord (henv : env.BuildsTick tick) (hne : tick ≠ 0)
    (hsigns : c.tbidSecret.isSome) (hslot : c.keypairs.slot 0 = some kp)
    (hprev : tick ≠ 1 → (c.keypairs.slot 1).isSome) (newPub : FixedBytes 32) :
    ∃ record, buildTickRecord env tick newPub c = .ok record c.resetStampCount := by
  obtain ⟨nonce, hnonce⟩ := henv.nonce
  have hbuild : ∀ (att : AutoAttestation) (version : UInt32),
      (tickRecord c.tbid tick newPub att version).build =
        .ok (tickRecord c.tbid tick newPub att version) := by
    intro att version
    refine ChrononRecord.build_eq_ok.2 ⟨hne, ?_, rfl⟩
    exact List.ne_nil_of_length_pos (newPub.length_eq.symm ▸ by decide)
  rw [buildTickRecord, bind_of_ok (get_apply c)]
  by_cases hgenesis : tick = 1
  · obtain ⟨secret, hsecret⟩ := Option.isSome_iff_exists.1 hsigns
    obtain ⟨att, hatt⟩ := exists_buildGenesisWithPqc hnonce (henv.genesisSign hgenesis)
      henv.backwardSign hslot newPub secret.1
    rw [if_pos hgenesis, bind_of_ok (get_apply c), hsecret]
    refine ⟨tickRecord c.tbid tick newPub att 1, ?_⟩
    change (buildGenesisWithPqc env tick newPub secret.1 >>= _) c = _
    rw [bind_of_ok hatt, hbuild, ofResult_ok]
    rfl
  · obtain ⟨prev, hprev⟩ := Option.isSome_iff_exists.1 (hprev hgenesis)
    obtain ⟨att, hatt⟩ := exists_buildAutoAttestation hgenesis hnonce
      (henv.forwardSign hgenesis) henv.backwardSign hslot hprev newPub
    rw [if_neg hgenesis, bind_of_ok hatt, hbuild, ofResult_ok]
    exact ⟨_, rfl⟩

/-- A pair is stored, and its public key is the newest. -/
theorem exists_storeKeypair (h : ∃ seed, env.generate = .ok seed) :
    ∃ kp, generateAndStoreKeypair env c = .ok () (c.storeKeypair kp) ∧
      keypairPub 0 (c.storeKeypair kp) = .ok (some kp.pubKey) (c.storeKeypair kp) := by
  obtain ⟨seed, hseed⟩ := h
  exact ⟨.ofSeed P seed, generateAndStoreKeypair_eq_ok.2 ⟨seed, hseed, rfl⟩,
    keypairPub_apply_some (KeyRing.slot_push_zero _ _)⟩

/-- An operation without faults returns `Ok`, provided that its tick is not zero and, past the
first tick, a pair is held. -/
theorem exists_exec_eq_ok {op : Op} (hdormant : c.isDormant = false)
    (hsigns : c.tbidSecret.isSome) (hne : c.currentTick + 1 ≠ 0)
    (hprev : c.currentTick + 1 ≠ 1 → (c.keypairs.slot 0).isSome)
    (h : op.Faultless (c.currentTick + 1)) : ∃ r t, op.exec c = .ok r t := by
  -- once a pair is stored, the pair that was newest is in slot 1
  have hslot : ∀ (s : Chronomatter P) (kp : TickKeyPair P), s.keypairs = c.keypairs →
      c.currentTick + 1 ≠ 1 → ((s.storeKeypair kp).keypairs.slot 1).isSome := by
    intro s kp hring h1
    have hpush : (s.storeKeypair kp).keypairs.slot 1 = s.keypairs.slot 0 :=
      KeyRing.slot_push_one _ _
    rw [hpush, hring]
    exact hprev h1
  cases op with
  | stamp env content echo =>
    obtain ⟨hbuilds, hstamps⟩ := h
    obtain ⟨now, hnow⟩ := hstamps.clock
    obtain ⟨kp, hstore, hpub⟩ := exists_storeKeypair (c := c.advanceTick.countStamp)
      hbuilds.generate
    obtain ⟨record, hrecord⟩ := exists_buildTickRecord
      (c := c.advanceTick.countStamp.storeKeypair kp) hbuilds hne hsigns
      (KeyRing.slot_push_zero _ _) (hslot _ kp rfl) kp.pubKey
    have hstamp : ∃ st t, Chronomatter.stamp env content echo c = .ok st t := by
      rw [Chronomatter.stamp, bind_of_ok (get_apply c), hdormant]
      change ∃ st t, createForetis env (c.currentTick + 1) content echo
        c.advanceTick.countStamp = .ok st t
      rw [createForetis, bind_of_ok hstore, bind_of_ok hpub]
      dsimp only
      rw [bind_of_ok (orCrypto_apply (unlessFault_eq_ok.2 ⟨hstamps.sha256, rfl⟩)),
        bind_of_ok (ofResult_mapError_eq_ok.2 ⟨hnow, rfl⟩), bind_of_ok (get_apply _),
        bind_of_ok (ofResult_mapError_eq_ok.2
          ⟨unlessFault_eq_ok.2 ⟨hstamps.serialize, rfl⟩, rfl⟩),
        bind_of_ok (signWithKeypair_apply (KeyRing.slot_push_zero _ _) hstamps.foretisSign),
        bind_of_ok hrecord]
      exact ⟨_, _, rfl⟩
    obtain ⟨st, t, hst⟩ := hstamp
    refine ⟨some st, t, ?_⟩
    rw [Op.exec, map_eq_pure_bind, bind_of_ok hst]
    rfl
  | daemonTick env =>
    have hbuilds : env.BuildsTick (c.currentTick + 1) := h
    obtain ⟨kp, hstore, hpub⟩ := exists_storeKeypair (c := c.advanceTick) hbuilds.generate
    obtain ⟨record, hrecord⟩ := exists_buildTickRecord
      (c := c.advanceTick.storeKeypair kp) hbuilds hne hsigns (KeyRing.slot_push_zero _ _)
      (hslot _ kp rfl) kp.pubKey
    have htick : ∃ t, Chronomatter.daemonTick env c = .ok () t := by
      rw [Chronomatter.daemonTick, bind_of_ok (get_apply c), hdormant]
      change ∃ t, (fetchAddTick >>= _) c = .ok () t
      rw [bind_of_ok (fetchAddTick_apply c), bind_of_ok hstore, bind_of_ok hpub]
      dsimp only
      rw [bind_of_ok hrecord]
      exact ⟨_, rfl⟩
    obtain ⟨t, htick⟩ := htick
    exact ⟨none, t, bind_of_ok htick⟩

/-- So the first operation of a new chronomatter does. -/
theorem exists_exec_new (secret : TbidSecret) (tbid : Tbid) (tbn : String) {op : Op}
    (h : op.Faultless (0 + 1)) :
    ∃ r t, op.exec (new secret tbid tbn : Chronomatter P) = .ok r t :=
  exists_exec_eq_ok rfl rfl (show (0 : UInt64) + 1 ≠ 0 by decide) (fun hne ↦ absurd rfl hne) h

end Faultless

end Chronomatter

end Foretias

import Foretias.Chronomatter.Sequential
import Mathlib.Algebra.GroupWithZero.Nat

/-!
# The stamp count

Every stamp adds one to the pending count; the record of a tick takes the count over, and the count
is swapped for zero before the nonce is drawn, the signatures are made and the record is built. A
call that fails past the swap leaves the count in no record and not pending either.

* `conserved_after_iff` — the calls that keep the balance;
* `conserved_iff` — in a run, the balance holds in every state reached exactly when all its calls
  do so.
-/

namespace Foretias

open ErrorState

variable {P : Primitives}

/-! ### When a count is swapped, and when a record takes it over -/

/-- The call gets as far as the swap. -/
structure CallEnv.ReachesSwap (env : CallEnv) (c : Chronomatter P) : Prop where
  /-- A key pair is generated. -/
  generate : ∃ seed, env.generate = .ok seed
  /-- With a TBID secret, the genesis certificate is signed before the swap. -/
  genesisSign : c.currentTick + 1 = 1 → c.tbidSecret.isSome → env.genesisSign = none

/-- Nothing fails between the swap and the record. -/
structure CallEnv.FinishesRecord (env : CallEnv) (c : Chronomatter P) : Prop where
  /-- A nonce is drawn. -/
  nonce : ∃ nonce, env.nonce = .ok nonce
  /-- The current key signs. -/
  backwardSign : env.backwardSign = none
  /-- Past the first tick there is a previous key, and it signs. -/
  previous : c.currentTick + 1 ≠ 1 → env.forwardSign = none ∧ (c.keypairs.slot 0).isSome
  /-- The tick is not zero. -/
  tick_ne_zero : c.currentTick + 1 ≠ 0

/-- Nothing fails in an attestation past the swap, once the pair of the tick is stored. -/
structure CallEnv.Attests (env : CallEnv) (tick : UInt64) (s : Chronomatter P) : Prop where
  /-- A nonce is drawn. -/
  nonce : ∃ nonce, env.nonce = .ok nonce
  /-- The current key signs. -/
  backwardSign : env.backwardSign = none
  /-- Past the first tick there is a previous key, and it signs. -/
  previous : tick ≠ 1 → env.forwardSign = none ∧ (s.keypairs.slot 1).isSome

namespace Chronomatter

variable {c s t : Chronomatter P} {env : CallEnv} {tick : UInt64} {kp : TickKeyPair P}

theorem orCrypto_error {α : Type} {x : Except CryptoError α} (h : ∀ a, x ≠ .ok a) :
    ∃ e, (orCrypto x : Call P α) s = .error e s :=
  exists_ofResult_mapError _ s h

theorem signWithKeypair_error {i : ℕ} {fault : Option CryptoError} (msg : Bytes)
    (h : fault = none → ¬(s.keypairs.slot i).isSome) :
    ∃ e, signWithKeypair i fault msg s = .error e s := by
  rw [signWithKeypair, bind_of_ok (get_apply s)]
  dsimp only
  cases hslot : s.keypairs.slot i with
  | none => exact ⟨_, rfl⟩
  | some kp =>
    refine orCrypto_error fun sig hsig ↦ ?_
    obtain ⟨hfault, -⟩ := unlessFault_eq_ok.1 hsig
    exact h hfault (by rw [hslot]; rfl)

theorem nonce_error_bind {α : Type} {k : FixedBytes 16 → Call P α}
    (h : ¬∃ nonce, env.nonce = .ok nonce) : ∃ e, (orCrypto env.nonce >>= k) s = .error e s := by
  obtain ⟨e, he⟩ := orCrypto_error (s := s) fun nonce hn ↦ h ⟨nonce, hn⟩
  exact ⟨e, bind_of_error he⟩

theorem signWithKeypair_fault_bind {α : Type} {i : ℕ} {fault : Option CryptoError} {msg : Bytes}
    {k : Bytes → Call P α} (h : fault ≠ none) :
    ∃ e, (signWithKeypair i fault msg >>= k) s = .error e s := by
  obtain ⟨e, he⟩ := signWithKeypair_error (s := s) (i := i) msg fun hf ↦ absurd hf h
  exact ⟨e, bind_of_error he⟩

/-! ### The attestations -/

/-- An attestation that is made takes the stamp count and resets it. -/
theorem buildAutoAttestation_of_attests (h : env.Attests tick s)
    (hslot : s.keypairs.slot 0 = some kp) (newPub : FixedBytes 32) :
    ∃ att, buildAutoAttestation env tick newPub s = .ok att s.resetStampCount ∧
      att.stamps = s.chrononStampCount := by
  have hslot' : s.resetStampCount.keypairs.slot 0 = some kp := hslot
  obtain ⟨nonce, hnonce⟩ := h.nonce
  rw [buildAutoAttestation, bind_of_ok (get_apply s), bind_of_ok (swapStampCount_apply s)]
  by_cases htick : tick = 1
  · rw [if_pos htick, bind_of_ok (orCrypto_apply hnonce),
      bind_of_ok (signWithKeypair_apply hslot' h.backwardSign)]
    exact ⟨_, rfl, rfl⟩
  · obtain ⟨hforward, hprev⟩ := h.previous htick
    obtain ⟨prev, hprev⟩ := Option.isSome_iff_exists.1 hprev
    have hprev' : s.resetStampCount.keypairs.slot 1 = some prev := hprev
    rw [if_neg htick, bind_of_ok (keypairPub_apply_some hprev')]
    dsimp only
    rw [bind_of_ok (orCrypto_apply hnonce), bind_of_ok (signWithKeypair_apply hprev' hforward),
      bind_of_ok (signWithKeypair_apply hslot' h.backwardSign)]
    exact ⟨_, rfl, rfl⟩

/-- What fails in an attestation fails past the swap. -/
theorem buildAutoAttestation_of_not_attests (h : ¬env.Attests tick s) (newPub : FixedBytes 32) :
    ∃ e, buildAutoAttestation env tick newPub s = .error e s.resetStampCount := by
  rw [buildAutoAttestation, bind_of_ok (get_apply s), bind_of_ok (swapStampCount_apply s)]
  by_cases htick : tick = 1
  · rw [if_pos htick]
    by_cases hnonce : ∃ nonce, env.nonce = .ok nonce
    swap
    · exact nonce_error_bind hnonce
    obtain ⟨nonce, hnonce⟩ := hnonce
    have hback : env.backwardSign ≠ none := fun hback ↦
      h ⟨⟨nonce, hnonce⟩, hback, fun hne ↦ absurd htick hne⟩
    rw [bind_of_ok (orCrypto_apply hnonce)]
    exact signWithKeypair_fault_bind hback
  rw [if_neg htick]
  cases hprev : s.resetStampCount.keypairs.slot 1 with
  | none =>
    rw [bind_of_ok (keypairPub_apply 1 s.resetStampCount), hprev]
    exact ⟨_, rfl⟩
  | some prev =>
    rw [bind_of_ok (keypairPub_apply_some hprev)]
    dsimp only
    by_cases hnonce : ∃ nonce, env.nonce = .ok nonce
    swap
    · exact nonce_error_bind hnonce
    obtain ⟨nonce, hnonce⟩ := hnonce
    rw [bind_of_ok (orCrypto_apply hnonce)]
    by_cases hforward : env.forwardSign = none
    swap
    · exact signWithKeypair_fault_bind hforward
    have hback : env.backwardSign ≠ none := fun hback ↦
      h ⟨⟨nonce, hnonce⟩, hback, fun _ ↦ ⟨hforward, Option.isSome_of_mem hprev⟩⟩
    rw [bind_of_ok (signWithKeypair_apply hprev hforward)]
    exact signWithKeypair_fault_bind hback

/-- The certificate is signed before the swap. -/
theorem buildGenesisWithPqc_of_fault (h : env.genesisSign ≠ none) (tick : UInt64)
    (newPub : FixedBytes 32) (secret : TbidSecret) :
    ∃ e, buildGenesisWithPqc env tick newPub secret s = .error e s := by
  rw [buildGenesisWithPqc, bind_of_ok (get_apply s)]
  obtain ⟨e, he⟩ := orCrypto_error (s := s) fun sig hsig ↦ h (unlessFault_eq_ok.1 hsig).1
  exact ⟨e, bind_of_error he⟩

/-- So does the first one, -/
theorem buildGenesisWithPqc_of_attests (hsign : env.genesisSign = none) (h : env.Attests tick s)
    (hslot : s.keypairs.slot 0 = some kp) (newPub : FixedBytes 32) (secret : TbidSecret) :
    ∃ att, buildGenesisWithPqc env tick newPub secret s = .ok att s.resetStampCount ∧
      att.stamps = s.chrononStampCount := by
  have hslot' : s.resetStampCount.keypairs.slot 0 = some kp := hslot
  obtain ⟨nonce, hnonce⟩ := h.nonce
  rw [buildGenesisWithPqc, bind_of_ok (get_apply s),
    bind_of_ok (orCrypto_apply (unlessFault_eq_ok.2 ⟨hsign, rfl⟩)),
    bind_of_ok (swapStampCount_apply s), bind_of_ok (orCrypto_apply hnonce),
    bind_of_ok (signWithKeypair_apply hslot' h.backwardSign)]
  exact ⟨_, rfl, rfl⟩

/-- which resets the count also if it fails after the swap. -/
theorem buildGenesisWithPqc_of_not_attests (hsign : env.genesisSign = none)
    (h : ¬env.Attests 1 s) (tick : UInt64) (newPub : FixedBytes 32) (secret : TbidSecret) :
    ∃ e, buildGenesisWithPqc env tick newPub secret s = .error e s.resetStampCount := by
  rw [buildGenesisWithPqc, bind_of_ok (get_apply s),
    bind_of_ok (orCrypto_apply (unlessFault_eq_ok.2 ⟨hsign, rfl⟩)),
    bind_of_ok (swapStampCount_apply s)]
  by_cases hnonce : ∃ nonce, env.nonce = .ok nonce
  · obtain ⟨nonce, hnonce⟩ := hnonce
    have hback : env.backwardSign ≠ none := fun hback ↦
      h ⟨⟨nonce, hnonce⟩, hback, fun hne ↦ absurd rfl hne⟩
    rw [bind_of_ok (orCrypto_apply hnonce)]
    exact signWithKeypair_fault_bind hback
  · exact nonce_error_bind hnonce

/-! ### The record of a tick -/

/-- A record is built from an attestation past the swap, unless its tick is zero. -/
theorem attest_build_cases {x : Call P AutoAttestation} {A : Prop}
    (hok : A → ∃ att, x s = .ok att s.resetStampCount ∧ att.stamps = s.chrononStampCount)
    (herror : ¬A → ∃ e, x s = .error e s.resetStampCount) (tbid : Tbid) (tick : UInt64)
    (newPub : FixedBytes 32) (version : UInt32) :
    ((A ∧ tick ≠ 0) ∧ ∃ record,
        (x >>= fun att ↦ ofResult (tickRecord tbid tick newPub att version).build) s =
          .ok record s.resetStampCount ∧ record.chrononStampCount = s.chrononStampCount) ∨
      (¬(A ∧ tick ≠ 0) ∧ ∃ e,
        (x >>= fun att ↦ ofResult (tickRecord tbid tick newPub att version).build) s =
          .error e s.resetStampCount) := by
  by_cases hA : A
  · obtain ⟨att, hatt, hstamps⟩ := hok hA
    have hrun : (x >>= fun att ↦ ofResult (tickRecord tbid tick newPub att version).build) s =
        (ofResult (tickRecord tbid tick newPub att version).build : Call P ChrononRecord)
          s.resetStampCount := bind_of_ok hatt
    rw [hrun]
    by_cases hzero : tick = 0
    · have hbuild : (tickRecord tbid tick newPub att version).build =
          .error (.invalidInput "chronon_number must be > 0") := if_pos hzero
      rw [hbuild]
      exact .inr ⟨fun h ↦ h.2 hzero, _, rfl⟩
    · have hbuild : (tickRecord tbid tick newPub att version).build =
          .ok (tickRecord tbid tick newPub att version) := by
        refine ChrononRecord.build_eq_ok.2 ⟨hzero, ?_, rfl⟩
        exact List.ne_nil_of_length_pos (newPub.length_eq.symm ▸ by decide)
      rw [hbuild]
      exact .inl ⟨⟨hA, hzero⟩, _, rfl, hstamps⟩
  · obtain ⟨e, he⟩ := herror hA
    exact .inr ⟨fun h ↦ hA h.1, e, bind_of_error he⟩

/-- The three outcomes of building a record: a fault before the swap, a record that has taken the
count over, or a failure past the swap. -/
theorem buildTickRecord_cases (env : CallEnv) (tick : UInt64)
    (hslot : s.keypairs.slot 0 = some kp) (newPub : FixedBytes 32) :
    (¬(tick = 1 → s.tbidSecret.isSome → env.genesisSign = none) ∧
        ∃ e, buildTickRecord env tick newPub s = .error e s) ∨
      ((tick = 1 → s.tbidSecret.isSome → env.genesisSign = none) ∧
        (((env.Attests tick s ∧ tick ≠ 0) ∧
            ∃ record, buildTickRecord env tick newPub s = .ok record s.resetStampCount ∧
              record.chrononStampCount = s.chrononStampCount) ∨
          ¬(env.Attests tick s ∧ tick ≠ 0) ∧
            ∃ e, buildTickRecord env tick newPub s = .error e s.resetStampCount)) := by
  rw [buildTickRecord, bind_of_ok (get_apply s)]
  by_cases htick : tick = 1
  swap
  · rw [if_neg htick]
    exact .inr ⟨fun h ↦ absurd h htick, attest_build_cases
      (fun h ↦ buildAutoAttestation_of_attests h hslot newPub)
      (fun h ↦ buildAutoAttestation_of_not_attests h newPub) s.tbid tick newPub 0⟩
  subst htick
  rw [if_pos rfl, bind_of_ok (get_apply s)]
  cases s.tbidSecret with
  | none =>
    exact .inr ⟨fun _ h ↦ absurd h Bool.false_ne_true, attest_build_cases
      (fun h ↦ buildAutoAttestation_of_attests h hslot newPub)
      (fun h ↦ buildAutoAttestation_of_not_attests h newPub) s.tbid 1 newPub 0⟩
  | some secret =>
    by_cases hsign : env.genesisSign = none
    · exact .inr ⟨fun _ _ ↦ hsign, attest_build_cases
        (fun h ↦ buildGenesisWithPqc_of_attests hsign h hslot newPub secret.1)
        (fun h ↦ buildGenesisWithPqc_of_not_attests hsign h 1 newPub secret.1) s.tbid 1 newPub 1⟩
    · obtain ⟨e, he⟩ := buildGenesisWithPqc_of_fault hsign 1 newPub secret.1
      exact .inl ⟨fun h ↦ hsign (h rfl rfl), e, bind_of_error he⟩

/-- The same for the tick that a call from `c` begins, once its pair is stored. -/
theorem tickRecord_cases (env : CallEnv) (kp : TickKeyPair P)
    (hring : s.keypairs = c.keypairs.push kp)
    (hsecret : s.tbidSecret.isSome = c.tbidSecret.isSome) (newPub : FixedBytes 32) :
    (¬(c.currentTick + 1 = 1 → c.tbidSecret.isSome → env.genesisSign = none) ∧
        ∃ e, buildTickRecord env (c.currentTick + 1) newPub s = .error e s) ∨
      ((c.currentTick + 1 = 1 → c.tbidSecret.isSome → env.genesisSign = none) ∧
        ((env.FinishesRecord c ∧
            ∃ record, buildTickRecord env (c.currentTick + 1) newPub s =
              .ok record s.resetStampCount ∧ record.chrononStampCount = s.chrononStampCount) ∨
          ¬env.FinishesRecord c ∧
            ∃ e, buildTickRecord env (c.currentTick + 1) newPub s =
              .error e s.resetStampCount)) := by
  have hslot : s.keypairs.slot 0 = some kp := hring ▸ KeyRing.slot_push_zero _ _
  have hprev : s.keypairs.slot 1 = c.keypairs.slot 0 := hring ▸ KeyRing.slot_push_one _ _
  have hfinishes : env.Attests (c.currentTick + 1) s ∧ c.currentTick + 1 ≠ 0 ↔
      env.FinishesRecord c := by
    constructor
    · rintro ⟨⟨hnonce, hback, hlater⟩, hzero⟩
      exact ⟨hnonce, hback, hprev ▸ hlater, hzero⟩
    · rintro ⟨hnonce, hback, hlater, hzero⟩
      exact ⟨⟨hnonce, hback, hprev ▸ hlater⟩, hzero⟩
  rw [← hsecret, ← hfinishes]
  exact buildTickRecord_cases env (c.currentTick + 1) hslot newPub

/-! ### The calls -/

theorem generateAndStoreKeypair_error (h : ¬∃ seed, env.generate = .ok seed) :
    ∃ e, generateAndStoreKeypair env s = .error e s := by
  obtain ⟨e, he⟩ := orCrypto_error (s := s) fun seed hseed ↦ h ⟨seed, hseed⟩
  exact ⟨e, bind_of_error he⟩

variable (tick) in
/-- A stamp that fails before its record leaves the count pending. -/
theorem createForetis_error (content : Bytes) (echo : String)
    (h : (∃ seed, env.generate = .ok seed) → ¬env.StampsContent) :
    ∃ e t, createForetis env tick content echo s = .error e t ∧
      t.chrononStampCount = s.chrononStampCount := by
  rw [createForetis]
  by_cases hgenerate : ∃ seed, env.generate = .ok seed
  swap
  · obtain ⟨e, he⟩ := generateAndStoreKeypair_error (s := s) hgenerate
    exact ⟨e, s, bind_of_error he, rfl⟩
  have hstamps := h hgenerate
  obtain ⟨kp, hstore, hpub⟩ := exists_storeKeypair (c := s) hgenerate
  rw [bind_of_ok hstore, bind_of_ok hpub]
  dsimp only
  suffices hfail : ∃ e, _ = EStateM.Result.error e (s.storeKeypair kp) from
    hfail.imp fun e he ↦ ⟨s.storeKeypair kp, he, rfl⟩
  by_cases hsha : env.sha256 = none
  swap
  · obtain ⟨e, he⟩ := orCrypto_error (s := s.storeKeypair kp)
      fun a ha ↦ hsha (unlessFault_eq_ok.1 ha).1
    exact ⟨e, bind_of_error he⟩
  rw [bind_of_ok (orCrypto_apply (unlessFault_eq_ok.2 ⟨hsha, rfl⟩))]
  by_cases hclock : ∃ now, env.clock = .ok now
  swap
  · obtain ⟨e, he⟩ := exists_ofResult_mapError
      (fun e ↦ NodeError.internal s!"clock error: {e}") (s.storeKeypair kp)
      fun now hnow ↦ hclock ⟨now, hnow⟩
    exact ⟨e, bind_of_error he⟩
  obtain ⟨now, hnow⟩ := hclock
  rw [bind_of_ok (ofResult_mapError_eq_ok.2 ⟨hnow, rfl⟩), bind_of_ok (get_apply _)]
  by_cases hserialize : env.serialize = none
  swap
  · obtain ⟨e, he⟩ := exists_ofResult_mapError
      (fun e ↦ NodeError.internal s!"postcard serialize error: {e}") (s.storeKeypair kp)
      fun a (ha : unlessFault env.serialize (P.postcard ((s.storeKeypair kp).foretisRecord tick
        content echo now)) = .ok a) ↦ hserialize (unlessFault_eq_ok.1 ha).1
    exact ⟨e, bind_of_error he⟩
  rw [bind_of_ok (ofResult_mapError_eq_ok.2 ⟨unlessFault_eq_ok.2 ⟨hserialize, rfl⟩, rfl⟩)]
  obtain ⟨e, he⟩ := signWithKeypair_error (s := s.storeKeypair kp) (i := 0)
    (P.postcard ((s.storeKeypair kp).foretisRecord tick content echo now))
    fun hsign _ ↦ hstamps ⟨hsha, ⟨now, hnow⟩, hserialize, hsign⟩
  exact ⟨e, bind_of_error he⟩

variable (tick) in
/-- A stamp that does not is decided by its record. -/
theorem createForetis_of_stampsContent (content : Bytes) (echo : String)
    (hgenerate : ∃ seed, env.generate = .ok seed) (hstamps : env.StampsContent) :
    ∃ kp st, createForetis env tick content echo s =
      (buildTickRecord env tick kp.pubKey >>= fun record ↦ do
        modify fun c ↦ c.notifyObserver record
        return st) (s.storeKeypair kp) := by
  obtain ⟨kp, hstore, hpub⟩ := exists_storeKeypair (c := s) hgenerate
  obtain ⟨now, hnow⟩ := hstamps.clock
  rw [createForetis, bind_of_ok hstore, bind_of_ok hpub]
  dsimp only
  rw [bind_of_ok (orCrypto_apply (unlessFault_eq_ok.2 ⟨hstamps.sha256, rfl⟩)),
    bind_of_ok (ofResult_mapError_eq_ok.2 ⟨hnow, rfl⟩), bind_of_ok (get_apply _),
    bind_of_ok (ofResult_mapError_eq_ok.2 ⟨unlessFault_eq_ok.2 ⟨hstamps.serialize, rfl⟩, rfl⟩),
    bind_of_ok (signWithKeypair_apply (KeyRing.slot_push_zero _ _) hstamps.foretisSign)]
  exact ⟨kp, _, rfl⟩

/-- Outside verify-only mode a stamp is counted and then made. -/
theorem stamp_of_awake (hdormant : c.isDormant = false) (content : Bytes) (echo : String) :
    stamp env content echo c =
      createForetis env (c.currentTick + 1) content echo c.advanceTick.countStamp := by
  rw [stamp, bind_of_ok (get_apply c), hdormant]
  rfl

/-- A tick without a new pair fails at once. -/
theorem daemonTick_error (hdormant : c.isDormant = false)
    (h : ¬∃ seed, env.generate = .ok seed) : ∃ e, daemonTick env c = .error e c.advanceTick := by
  obtain ⟨e, he⟩ := generateAndStoreKeypair_error (s := c.advanceTick) h
  refine ⟨e, ?_⟩
  rw [daemonTick, bind_of_ok (get_apply c), hdormant]
  change (fetchAddTick >>= _) c = .error e c.advanceTick
  rw [bind_of_ok (fetchAddTick_apply c)]
  exact bind_of_error he

/-- A daemon tick that stores its pair is decided by its record. -/
theorem daemonTick_of_generate (hdormant : c.isDormant = false)
    (h : ∃ seed, env.generate = .ok seed) :
    ∃ kp, daemonTick env c =
      (buildTickRecord env (c.currentTick + 1) kp.pubKey >>= fun record ↦ do
        modify fun c ↦ c.notifyObserver record
        return ()) (c.advanceTick.storeKeypair kp) := by
  obtain ⟨kp, hstore, hpub⟩ := exists_storeKeypair (c := c.advanceTick) h
  refine ⟨kp, ?_⟩
  rw [daemonTick, bind_of_ok (get_apply c), hdormant]
  change (fetchAddTick >>= _) c = _
  rw [bind_of_ok (fetchAddTick_apply c), bind_of_ok hstore, bind_of_ok hpub]
  rfl

/-- What becomes of the count in the part of a call that builds the record and notifies. -/
theorem notified_cases {α : Type} (env : CallEnv) (kp : TickKeyPair P)
    (hring : s.keypairs = c.keypairs.push kp)
    (hsecret : s.tbidSecret.isSome = c.tbidSecret.isSome) (newPub : FixedBytes 32) (a : α) :
    let call : Call P α := buildTickRecord env (c.currentTick + 1) newPub >>= fun record ↦ do
      modify fun c ↦ c.notifyObserver record
      return a
    (¬(c.currentTick + 1 = 1 → c.tbidSecret.isSome → env.genesisSign = none) ∧
        ∃ e, call s = .error e s) ∨
      ((c.currentTick + 1 = 1 → c.tbidSecret.isSome → env.genesisSign = none) ∧
        ((env.FinishesRecord c ∧
            ∃ record, call s = .ok a (s.resetStampCount.notifyObserver record) ∧
              record.chrononStampCount = s.chrononStampCount) ∨
          ¬env.FinishesRecord c ∧ ∃ e, call s = .error e s.resetStampCount)) := by
  obtain ⟨hsign, e, he⟩ | ⟨hsign, ⟨hfinishes, record, hrecord, hcount⟩ | ⟨hfinishes, e, he⟩⟩ :=
    tickRecord_cases env kp hring hsecret newPub
  · exact .inl ⟨hsign, e, bind_of_error he⟩
  · exact .inr ⟨hsign, .inl ⟨hfinishes, record, bind_of_ok hrecord, hcount⟩⟩
  · exact .inr ⟨hsign, .inr ⟨hfinishes, e, bind_of_error he⟩⟩

/-! ### Operations -/

/-- The operation gets as far as the swap. -/
def Op.ReachesSwap (c : Chronomatter P) : Op → Prop
  | .stamp env _ _ => env.ReachesSwap c ∧ env.StampsContent
  | .daemonTick env => env.ReachesSwap c

/-- Nothing of the operation fails between the swap and the record. -/
def Op.FinishesRecord (c : Chronomatter P) : Op → Prop
  | .stamp env _ _ => env.FinishesRecord c
  | .daemonTick env => env.FinishesRecord c

/-- Stamps that the operation itself adds to the count. -/
def Op.stamps : Op → ℕ
  | .stamp _ _ _ => 1
  | .daemonTick _ => 0

/-- The pending count at the swap. -/
def Op.pending (c : Chronomatter P) (op : Op) : UInt64 :=
  c.chrononStampCount + UInt64.ofNat op.stamps

/-- The three outcomes of an operation: it fails before the swap, it hands over a record with the
count, or it fails past the swap. -/
theorem exec_cases (hdormant : c.isDormant = false) (op : Op) :
    (¬op.ReachesSwap c ∧ ∃ e t, op.exec c = .error e t ∧ t.chrononStampCount = op.pending c) ∨
      (op.ReachesSwap c ∧ op.FinishesRecord c ∧ ∃ r t record, op.exec c = .ok r t ∧
        t.chrononStampCount = 0 ∧ t.tickObserver = c.tickObserver.onTickAdvance record ∧
        record.chrononStampCount = op.pending c) ∨
      (op.ReachesSwap c ∧ ¬op.FinishesRecord c ∧
        ∃ e t, op.exec c = .error e t ∧ t.chrononStampCount = 0) := by
  cases op with
  | daemonTick env =>
    have hpending : Op.pending c (.daemonTick env) = c.chrononStampCount := UInt64.add_zero _
    rw [hpending, Op.exec]
    by_cases hgenerate : ∃ seed, env.generate = .ok seed
    swap
    · obtain ⟨e, he⟩ := daemonTick_error hdormant hgenerate
      exact .inl ⟨fun h ↦ hgenerate h.generate, e, _, bind_of_error he, rfl⟩
    obtain ⟨kp, hrun⟩ := daemonTick_of_generate hdormant hgenerate
    obtain ⟨hsign, e, he⟩ | ⟨hsign, ⟨hfinishes, record, hok, hcount⟩ | ⟨hfinishes, e, he⟩⟩ :=
      notified_cases (c := c) (s := c.advanceTick.storeKeypair kp) env kp rfl rfl kp.pubKey ()
    · exact .inl ⟨fun h ↦ hsign h.genesisSign, e, _, bind_of_error (hrun.trans he), rfl⟩
    · exact .inr (.inl ⟨⟨hgenerate, hsign⟩, hfinishes, none, _, record,
        bind_of_ok (hrun.trans hok), rfl, rfl, hcount⟩)
    · exact .inr (.inr ⟨⟨hgenerate, hsign⟩, hfinishes, e, _, bind_of_error (hrun.trans he), rfl⟩)
  | stamp env content echo =>
    rw [Op.exec, map_eq_pure_bind]
    by_cases hbefore : (∃ seed, env.generate = .ok seed) ∧ env.StampsContent
    swap
    · obtain ⟨e, t, he, hcount⟩ := createForetis_error (s := c.advanceTick.countStamp)
        (c.currentTick + 1) content echo fun h h' ↦ hbefore ⟨h, h'⟩
      exact .inl ⟨fun h ↦ hbefore ⟨h.1.generate, h.2⟩, e, t,
        bind_of_error ((stamp_of_awake hdormant content echo).trans he), hcount⟩
    obtain ⟨hgenerate, hstamps⟩ := hbefore
    obtain ⟨kp, st, hrun⟩ := createForetis_of_stampsContent (s := c.advanceTick.countStamp)
      (c.currentTick + 1) content echo hgenerate hstamps
    replace hrun := (stamp_of_awake hdormant content echo).trans hrun
    obtain ⟨hsign, e, he⟩ | ⟨hsign, ⟨hfinishes, record, hok, hcount⟩ | ⟨hfinishes, e, he⟩⟩ :=
      notified_cases (c := c) (s := c.advanceTick.countStamp.storeKeypair kp) env kp rfl rfl
        kp.pubKey st
    · exact .inl ⟨fun h ↦ hsign h.1.genesisSign, e, _, bind_of_error (hrun.trans he), rfl⟩
    · exact .inr (.inl ⟨⟨⟨hgenerate, hsign⟩, hstamps⟩, hfinishes, some st, _, record,
        bind_of_ok (hrun.trans hok), rfl, rfl, hcount⟩)
    · exact .inr (.inr ⟨⟨⟨hgenerate, hsign⟩, hstamps⟩, hfinishes, e, _,
        bind_of_error (hrun.trans he), rfl⟩)

/-- A dormant chronomatter is left alone. -/
theorem exec_of_dormant (hdormant : c.isDormant = true) (op : Op) :
    finalState (op.exec c) = c := by
  cases op with
  | stamp env content echo =>
    have hstamp : Chronomatter.stamp env content echo c =
        .error (.internal "Cannot stamp: Chronomatter is in verify-only mode") c := by
      rw [Chronomatter.stamp, bind_of_ok (get_apply c), hdormant]
      rfl
    rw [Op.exec, map_eq_pure_bind, bind_of_error hstamp, finalState_error]
  | daemonTick env =>
    have htick : Chronomatter.daemonTick env c = .ok () c := by
      rw [Chronomatter.daemonTick, bind_of_ok (get_apply c), hdormant]
      rfl
    rw [Op.exec, bind_of_ok htick]
    rfl

/-- A failed operation has not notified the observer. -/
theorem tickObserver_of_error (hdormant : c.isDormant = false) {op : Op} {e : NodeError}
    (h : op.exec c = .error e t) : t.tickObserver = c.tickObserver := by
  have hkept := exec_eq_error hdormant h
  rw [kept, kept, Prod.mk.injEq, Prod.mk.injEq, Prod.mk.injEq, Prod.mk.injEq] at hkept
  exact hkept.2.2.2.2

/-! ### The balance -/

/-- The chronomatter with an observer that has seen nothing yet. -/
def withNewObserver (c : Chronomatter P) : Chronomatter P :=
  { c with tickObserver := .new c.tbid c.tbn }

/-- The records that the observer is notified of in an operation: an observer that has seen none
takes any. -/
def Op.handed (c : Chronomatter P) (op : Op) : List ChrononRecord :=
  (finalState (op.exec c.withNewObserver)).tickObserver.ticks

/-- The count of an operation is kept: it is made on a dormant chronomatter, or the pending count
has room for it, and where the operation fails past the swap there was nothing to take over. -/
def Op.KeepsCount (c : Chronomatter P) (op : Op) : Prop :=
  c.isDormant = true ∨ (c.chrononStampCount.toNat + op.stamps < 2 ^ 64 ∧
    (op.ReachesSwap c → op.FinishesRecord c ∨ op.pending c = 0))

/-- The calendar plays no part in whether a call reaches the swap, -/
theorem reachesSwap_withNewObserver {op : Op} :
    op.ReachesSwap c.withNewObserver ↔ op.ReachesSwap c := by
  cases op with
  | stamp env content echo =>
    exact ⟨fun h ↦ ⟨⟨h.1.generate, h.1.genesisSign⟩, h.2⟩,
      fun h ↦ ⟨⟨h.1.generate, h.1.genesisSign⟩, h.2⟩⟩
  | daemonTick env =>
    exact ⟨fun h ↦ ⟨h.generate, h.genesisSign⟩, fun h ↦ ⟨h.generate, h.genesisSign⟩⟩

/-- nor in whether it finishes its record. -/
theorem finishesRecord_withNewObserver {op : Op} :
    op.FinishesRecord c.withNewObserver ↔ op.FinishesRecord c := by
  have hiff : ∀ env : CallEnv, env.FinishesRecord c.withNewObserver ↔ env.FinishesRecord c :=
    fun env ↦ ⟨fun h ↦ ⟨h.nonce, h.backwardSign, h.previous, h.tick_ne_zero⟩,
      fun h ↦ ⟨h.nonce, h.backwardSign, h.previous, h.tick_ne_zero⟩⟩
  cases op with
  | stamp env content echo => exact hiff env
  | daemonTick env => exact hiff env

/-- One record with the pending count is handed over, or none. -/
theorem handed_cases (hdormant : c.isDormant = false) (op : Op) :
    (op.ReachesSwap c ∧ op.FinishesRecord c ∧
        ∃ record, op.handed c = [record] ∧ record.chrononStampCount = op.pending c) ∨
      (¬(op.ReachesSwap c ∧ op.FinishesRecord c) ∧ op.handed c = []) := by
  rw [← reachesSwap_withNewObserver, ← finishesRecord_withNewObserver, Op.handed]
  have herror : ∀ {e : NodeError} {t : Chronomatter P},
      op.exec c.withNewObserver = .error e t → t.tickObserver.ticks = [] :=
    fun h ↦ congrArg Calendar.ticks (tickObserver_of_error (c := c.withNewObserver) hdormant h)
  obtain ⟨hreach, e, t, he, -⟩ | ⟨hreach, hfinishes, r, t, record, hok, -, hobserver, hcount⟩ |
    ⟨-, hfinishes, e, t, he, -⟩ := exec_cases (c := c.withNewObserver) hdormant op
  · rw [he]
    exact .inr ⟨fun h ↦ hreach h.1, herror he⟩
  · rw [hok, finalState_ok, hobserver, Calendar.ticks_onTickAdvance]
    exact .inl ⟨hreach, hfinishes, record, if_pos fun _ h ↦ absurd h (Option.not_mem_none _),
      hcount⟩
  · rw [he]
    exact .inr ⟨fun h ↦ hfinishes h.2, herror he⟩

end Chronomatter

/-- A chronomatter with the records handed to its observer so far, and the number of stamp calls
that passed the dormancy check. -/
structure Tally (P : Primitives) where
  /-- The chronomatter. -/
  cm : Chronomatter P
  /-- The records handed over. -/
  handed : List ChrononRecord
  /-- The stamps counted. -/
  counted : ℕ

namespace Tally

open Chronomatter

/-- A chronomatter before a run: its pending stamps are the ones counted. -/
def start (c : Chronomatter P) : Tally P := ⟨c, [], c.chrononStampCount.toNat⟩

/-- One call. -/
def after (s : Tally P) (op : Op) : Tally P where
  cm := finalState (op.exec s.cm)
  handed := s.handed ++ op.handed s.cm
  counted := s.counted + if s.cm.isDormant then 0 else op.stamps

/-- One call, as a step. -/
def Step (s : Tally P) (op : Op) (t : Tally P) : Prop := s.after op = t

/-- The counts of the records handed over. -/
def handedCount (s : Tally P) : ℕ := (s.handed.map fun r ↦ r.chrononStampCount.toNat).sum

/-- Every stamp counted is in a record handed over or pending. -/
def Conserved (s : Tally P) : Prop :=
  s.handedCount + s.cm.chrononStampCount.toNat = s.counted

theorem conserved_start (c : Chronomatter P) : (start c).Conserved := Nat.zero_add _

variable {s : Tally P} {op : Op}

theorem handedCount_after :
    (s.after op).handedCount =
      s.handedCount + ((op.handed s.cm).map fun r ↦ r.chrononStampCount.toNat).sum := by
  rw [handedCount, after, List.map_append, List.sum_append]
  rfl

/-- In verify-only mode nothing is counted and nothing is handed over. -/
theorem conserved_after_of_dormant (hdormant : s.cm.isDormant = true) (h : s.Conserved) :
    (s.after op).Conserved := by
  have hhanded : op.handed s.cm = [] := by
    rw [Op.handed, exec_of_dormant (c := s.cm.withNewObserver) hdormant]
    rfl
  rw [Conserved] at h
  rw [Conserved, handedCount_after, hhanded, after, if_pos hdormant,
    exec_of_dormant hdormant]
  exact h

theorem toNat_pending (c : Chronomatter P) (op : Op) :
    (op.pending c).toNat = (c.chrononStampCount.toNat + op.stamps) % 2 ^ 64 := by
  rw [Op.pending, UInt64.toNat_add]
  cases op <;> rfl

/-- On a chronomatter that is awake, the balance after a call compares what the call hands over and
leaves pending with what was pending and what it adds. -/
theorem conserved_after_iff_of_awake (hdormant : s.cm.isDormant = false) (h : s.Conserved) :
    (s.after op).Conserved ↔
      ((op.handed s.cm).map fun r ↦ r.chrononStampCount.toNat).sum +
          (finalState (op.exec s.cm)).chrononStampCount.toNat =
        s.cm.chrononStampCount.toNat + op.stamps := by
  rw [Conserved] at h
  rw [Conserved, handedCount_after, after, hdormant, if_neg Bool.false_ne_true, ← h, add_assoc,
    add_assoc]
  exact Nat.add_left_cancel_iff

/-- A call keeps the balance exactly if it keeps its count. -/
theorem conserved_after_iff (h : s.Conserved) :
    (s.after op).Conserved ↔ op.KeepsCount s.cm := by
  cases hdormant : s.cm.isDormant with
  | true => exact iff_of_true (conserved_after_of_dormant hdormant h) (.inl hdormant)
  | false =>
    rw [conserved_after_iff_of_awake hdormant h, Op.KeepsCount, hdormant]
    have hpending := toNat_pending s.cm op
    have hzero : op.pending s.cm = 0 ↔ (op.pending s.cm).toNat = 0 := UInt64.toNat_inj.symm
    obtain ⟨hreach, e, t, he, hcount⟩ | ⟨hreach, hfinishes, r, t, record, hok, hcount, -⟩ |
      ⟨hreach, hfinishes, e, t, he, hcount⟩ := exec_cases hdormant op
    -- The call fails before the swap: what is pending stays so, up to the overflow.
    · have hhanded : op.handed s.cm = [] :=
        ((handed_cases hdormant op).resolve_left fun h ↦ hreach h.1).2
      rw [hhanded, he, finalState_error, hcount, hpending]
      simp only [List.map_nil, List.sum_nil, hreach, false_implies, and_true,
        Bool.false_eq_true, false_or]
      omega
    -- The record takes the count over.
    · obtain ⟨-, -, record, hhanded, htaken⟩ :=
        (handed_cases hdormant op).resolve_right fun h ↦ h.1 ⟨hreach, hfinishes⟩
      rw [hhanded, hok, finalState_ok, hcount]
      simp only [List.map_cons, List.map_nil, List.sum_cons, List.sum_nil, htaken, hpending,
        hfinishes, true_or, implies_true, and_true, Bool.false_eq_true, false_or,
        UInt64.toNat_zero]
      omega
    -- The call fails past the swap: the count is gone.
    · have hhanded : op.handed s.cm = [] :=
        ((handed_cases hdormant op).resolve_left fun h ↦ hfinishes h.2.1).2
      rw [hhanded, he, finalState_error, hcount, hzero, hpending]
      simp only [List.map_nil, List.sum_nil, hreach, hfinishes, true_implies, false_or,
        Bool.false_eq_true, UInt64.toNat_zero]
      omega

/-- In a run of calls, every stamp counted is in a record handed over or pending after each of them,
exactly when all the calls keep their count. -/
theorem conserved_iff (c : Chronomatter P) (ops : List Op) :
    Run.AllSteps Step (fun _ _ t ↦ t.Conserved) (start c) ops ↔
      Run.AllSteps Step (fun s op _ ↦ op.KeepsCount s.cm) (start c) ops := by
  refine Run.allSteps_congr (I := Conserved) ?_ (fun _ _ hcons ↦ hcons) (conserved_start c)
  rintro s op _ hs rfl
  exact conserved_after_iff hs

/-- A stamp whose nonce cannot be drawn. -/
def stampWithoutNonce : Op :=
  .stamp { CallEnv.clear default with nonce := .error (.internal 0) } [] ""

/-- On a fresh chronomatter it fails past the swap: its stamp is in no record and not pending. -/
theorem not_conserved_stampWithoutNonce :
    ¬Run.AllSteps Step (fun _ _ t ↦ t.Conserved)
      (start (new default default "" : Chronomatter .transparent)) [stampWithoutNonce] := by
  intro h
  have hkeeps := (conserved_after_iff (conserved_start _)).1 (h _ rfl).1
  obtain hdormant | ⟨-, hcount⟩ := hkeeps
  · exact absurd hdormant Bool.false_ne_true
  · have hreach : stampWithoutNonce.ReachesSwap
        (new default default "" : Chronomatter .transparent) :=
      ⟨⟨⟨default, rfl⟩, fun _ _ ↦ rfl⟩, ⟨rfl, ⟨0, rfl⟩, rfl, rfl⟩⟩
    obtain hfinishes | hzero := hcount hreach
    · obtain ⟨nonce, hnonce⟩ := CallEnv.FinishesRecord.nonce hfinishes
      cases hnonce
    · exact absurd hzero (by decide)

end Tally

end Foretias

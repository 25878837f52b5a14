import Foretias.Chronomatter.Sequential
import Mathlib.Logic.Function.Basic

/-!
# Concurrent calls

Calls on one chronomatter share its tick counter, its key ring, its stamp counter and the
observing calendar, and take each of these in a critical section of its own. `callStep` is one
call from one such section to the next: it changes the shared state at most once and keeps what
it has read in its program counter `Pc`. A `Machine` runs any number of calls, one step of one
call at a time, in any order.

* `runCall_eq_exec` — a call whose steps are not interleaved with others' is the sequential call.
-/

namespace Foretias

open ErrorState

namespace Chronomatter

variable (P : Primitives)

/-- What a call knows once it has a tick and a key pair. -/
structure Begun where
  /-- Its tick. -/
  tick : UInt64
  /-- The pair it generated and stored. -/
  own : TickKeyPair P
  /-- The public key it then read from slot 0. -/
  newPub : FixedBytes 32
  /-- The stamp it will return, for a stamp call. -/
  stamped : Option StampedForetis

/-- Where a call stands between two critical sections. -/
inductive Pc
  /-- Not begun. -/
  | start
  /-- A stamp has its tick. -/
  | ticked (tick : UInt64)
  /-- The call is about to store a key pair. -/
  | counted (tick : UInt64)
  /-- The pair is stored. -/
  | stored (tick : UInt64) (own : TickKeyPair P)
  /-- A stamp knows the public key in slot 0. -/
  | keyed (tick : UInt64) (own : TickKeyPair P) (newPub : FixedBytes 32)
  /-- The record is to be built. -/
  | building (call : Begun P)
  /-- The stamp counter is swapped; at tick 1 the TBID signature is made. -/
  | swapped (call : Begun P) (genesisSig : Option Bytes) (stamps : UInt64)
  /-- The public key in slot 1 is read and the nonce drawn. -/
  | prevKnown (call : Begun P) (stamps : UInt64) (prevPub : FixedBytes 32)
      (nonce : FixedBytes 16)
  /-- The pair in slot 1 has signed. -/
  | forwardSigned (call : Begun P) (stamps : UInt64) (prevPub : FixedBytes 32)
      (nonce : FixedBytes 16) (forwardSig : Bytes)
  /-- The record is built. -/
  | built (call : Begun P) (record : ChrononRecord)
  /-- A daemon tick in verify-only mode has returned without a tick. -/
  | idle
  /-- The call has returned `Ok`. -/
  | returned (call : Begun P) (record : ChrononRecord)
  /-- The call has returned `Err`. -/
  | failed (e : NodeError)

variable {P}

/-- The stamp that a call has returned. -/
def Pc.result : Pc P → Option StampedForetis
  | .returned call _ => call.stamped
  | _ => none

/-- The environment of an operation. -/
def Op.env : Op → CallEnv
  | .stamp env _ _ => env
  | .daemonTick env => env

/-- One call from one critical section to the next; a call that has returned stays. -/
def callStep (op : Op) : Pc P → Call P (Pc P)
  | .start => do
    match op with
    | .stamp _ _ _ =>
      if (← get).isDormant then
        throw (.internal "Cannot stamp: Chronomatter is in verify-only mode")
      return .ticked (← fetchAddTick)
    | .daemonTick _ =>
      if (← get).isDormant then
        return .idle
      return .counted (← fetchAddTick)
  | .ticked tick => do
    modify countStamp
    return .counted tick
  | .counted tick => do
    let seed ← orCrypto op.env.generate
    modify fun c ↦ c.storeKeypair (.ofSeed P seed)
    return .stored tick (.ofSeed P seed)
  | .stored tick own => do
    let some newPub ← keypairPub 0 | throw (.internal "keypair not found after generation")
    match op with
    | .stamp _ _ _ => return .keyed tick own newPub
    | .daemonTick _ => return .building ⟨tick, own, newPub, none⟩
  | .keyed tick own newPub => do
    match op with
    | .stamp env content echo =>
      orCrypto (unlessFault env.sha256 ())
      let nowNs ← ofResult (env.clock.mapError fun e ↦ NodeError.internal s!"clock error: {e}")
      let foretis := (← get).foretisRecord tick content echo nowNs
      let sigInput ← ofResult ((unlessFault env.serialize (P.postcard foretis)).mapError
        fun e ↦ NodeError.internal s!"postcard serialize error: {e}")
      let signatureBytes ← signWithKeypair 0 env.foretisSign sigInput
      return .building ⟨tick, own, newPub,
        some ⟨foretis, signatureBytes, SignatureAlgorithm.ed25519.toIdString⟩⟩
    | .daemonTick _ => return .keyed tick own newPub
  | .building call => do
    if call.tick = 1 then
      match (← get).tbidSecret with
      | some secret =>
        let genesisSig ← orCrypto (unlessFault op.env.genesisSign
          (tbidSign P secret.1 (genesisBlob (← get).tbid call.tick call.newPub.toList)))
        return .swapped call (some genesisSig) (← swapStampCount)
      | none => return .swapped call none (← swapStampCount)
    else return .swapped call none (← swapStampCount)
  | .swapped call genesisSig stamps => do
    let tbid := (← get).tbid
    let tick := call.tick
    let newPub := call.newPub
    if tick = 1 then
      let nonce ← orCrypto op.env.nonce
      match genesisSig with
      | some genesisSig =>
        let attestBlob :=
          autoAttestationBlobWithGenesis tbid.toHex tick newPub genesisSig stamps nonce
        let edSig ← signWithKeypair 0 op.env.backwardSign attestBlob
        let att := ⟨edSig ++ genesisSig, edSig ++ genesisSig, nonce, stamps⟩
        return .built call (← ofResult (tickRecord tbid tick newPub att 1).build)
      | none =>
        let attestBlob :=
          autoAttestationBlobWithCount tbid.toHex tick newPub tick newPub stamps nonce
        let sig ← signWithKeypair 0 op.env.backwardSign attestBlob
        return .built call
          (← ofResult (tickRecord tbid tick newPub ⟨sig, sig, nonce, stamps⟩ 0).build)
    else
      let some prevPub ← keypairPub 1 | throw (.internal "missing previous keypair")
      let nonce ← orCrypto op.env.nonce
      return .prevKnown call stamps prevPub nonce
  | .prevKnown call stamps prevPub nonce => do
    let tick := call.tick
    let newPub := call.newPub
    let attestBlob := autoAttestationBlobWithCount (← get).tbid.toHex (tick - 1) prevPub tick
      newPub stamps nonce
    let forwardSig ← signWithKeypair 1 op.env.forwardSign attestBlob
    return .forwardSigned call stamps prevPub nonce forwardSig
  | .forwardSigned call stamps prevPub nonce forwardSig => do
    let tbid := (← get).tbid
    let tick := call.tick
    let newPub := call.newPub
    let attestBlob := autoAttestationBlobWithCount tbid.toHex (tick - 1) prevPub tick newPub
      stamps nonce
    let backwardSig ← signWithKeypair 0 op.env.backwardSign attestBlob
    let att := ⟨forwardSig, backwardSig, nonce, stamps⟩
    return .built call (← ofResult (tickRecord tbid tick newPub att 0).build)
  | .built call record => do
    modify fun c ↦ c.notifyObserver record
    return .returned call record
  | .idle => return .idle
  | .returned call record => return .returned call record
  | .failed e => return .failed e

/-! ### A call alone -/

/-- A call run alone for a number of steps. -/
def runCall (op : Op) : ℕ → Pc P → Call P (Pc P)
  | 0, pc => pure pc
  | n + 1, pc => do runCall op n (← callStep op pc)

section Alone

variable {op : Op}

theorem runCall_returned (n : ℕ) (call : Begun P) (record : ChrononRecord) :
    runCall op n (.returned call record) = pure (.returned call record) := by
  induction n with
  | zero => rfl
  | succ n ih =>
    rw [runCall, callStep, pure_bind]
    exact ih

theorem runCall_built (n : ℕ) (call : Begun P) (record : ChrononRecord) :
    runCall op (n + 1) (.built call record) = (do
      modify fun c ↦ c.notifyObserver record
      return .returned call record) := by
  rw [runCall, callStep, bind_assoc]
  simp only [pure_bind, runCall_returned]

/-- From `building` on, a call alone builds its record and hands it over. -/
theorem runCall_building (n : ℕ) (call : Begun P) (c : Chronomatter P) :
    runCall op (n + 5) (.building call) c = (do
      let record ← buildTickRecord op.env call.tick call.newPub
      modify fun c ↦ c.notifyObserver record
      return .returned call record : Call P (Pc P)) c := by
  by_cases htick : call.tick = 1
  · rw [runCall, callStep, if_pos htick, bind_assoc, bind_of_ok (get_apply c), buildTickRecord,
      bind_assoc, bind_of_ok (get_apply c), if_pos htick, bind_assoc, bind_of_ok (get_apply c)]
    cases hsecret : c.tbidSecret with
    | none =>
      dsimp only
      rw [bind_assoc, bind_of_ok (swapStampCount_apply c), pure_bind, runCall, callStep, bind_assoc,
        bind_of_ok (get_apply _), if_pos htick, bind_assoc, bind_assoc, buildAutoAttestation,
        bind_assoc, bind_of_ok (get_apply _), bind_assoc, bind_of_ok (swapStampCount_apply c),
        if_pos htick]
      dsimp only
      simp only [bind_assoc, pure_bind, runCall_built]
      rfl
    | some secret =>
      dsimp only
      rw [bind_assoc, bind_of_ok (get_apply c), bind_assoc, bind_assoc, buildGenesisWithPqc,
        bind_assoc, bind_of_ok (get_apply c), bind_assoc]
      refine bind_congr_of_ok fun genesisSig t hsig ↦ ?_
      obtain ⟨-, rfl⟩ := orCrypto_eq_ok.1 hsig
      rw [bind_assoc, bind_of_ok (swapStampCount_apply _), pure_bind, runCall, callStep, bind_assoc,
        bind_of_ok (get_apply _), if_pos htick, bind_assoc, bind_assoc,
        bind_of_ok (swapStampCount_apply _)]
      simp only [bind_assoc, pure_bind, runCall_built]
      rfl
  · rw [runCall, callStep, if_neg htick, bind_assoc, bind_of_ok (swapStampCount_apply c), pure_bind,
      runCall, callStep, bind_assoc, bind_of_ok (get_apply _), buildTickRecord, bind_assoc,
      bind_of_ok (get_apply c)]
    dsimp only
    rw [if_neg htick, if_neg htick, bind_assoc, bind_assoc, buildAutoAttestation, bind_assoc,
      bind_of_ok (get_apply c), bind_assoc, bind_of_ok (swapStampCount_apply c), if_neg htick,
      bind_assoc]
    refine bind_congr_of_ok fun prevPub t hpub ↦ ?_
    obtain ⟨rfl⟩ : t = c.resetStampCount := by cases hpub; rfl
    cases prevPub with
    | none => rfl
    | some prevPub =>
      simp only [bind_assoc, pure_bind, runCall, callStep]
      refine bind_congr_of_ok fun nonce t hnonce ↦ ?_
      obtain ⟨-, rfl⟩ := orCrypto_eq_ok.1 hnonce
      rw [bind_of_ok (get_apply _)]
      refine bind_congr_of_ok fun forwardSig t hsig ↦ ?_
      obtain ⟨-, -, rfl⟩ := signWithKeypair_eq_ok.1 hsig
      rw [bind_of_ok (get_apply _)]
      simp only [runCall_returned]
      rfl

/-- The same, for what the call returns. -/
theorem runCall_building_result {n : ℕ} {call : Begun P} {c : Chronomatter P} :
    (do return (← runCall op (n + 5) (.building call)).result : Call P (Option StampedForetis)) c =
      (do
        let record ← buildTickRecord op.env call.tick call.newPub
        modify fun c ↦ c.notifyObserver record
        return call.stamped : Call P (Option StampedForetis)) c := by
  rw [bind_apply, runCall_building, ← bind_apply]
  simp only [bind_assoc, pure_bind]
  rfl

/-- A call whose ten steps are taken one after the other is the sequential call. -/
theorem runCall_eq_exec (op : Op) (c : Chronomatter P) :
    (do return (← runCall op 10 .start).result : Call P (Option StampedForetis)) c = op.exec c := by
  cases op with
  | stamp env content echo =>
    rw [Op.exec, map_eq_pure_bind, stamp, runCall, callStep]
    simp only [bind_assoc]
    rw [bind_of_ok (get_apply c), bind_of_ok (get_apply c)]
    cases hdormant : c.isDormant with
    | true => rfl
    | false =>
      simp only [Bool.false_eq_true, if_false, bind_assoc, pure_bind]
      refine bind_congr_of_ok fun tick _ _ ↦ ?_
      rw [runCall, callStep]
      simp only [createForetis, generateAndStoreKeypair, bind_assoc, pure_bind]
      refine bind_congr_of_ok fun _ _ _ ↦ ?_
      rw [runCall, callStep]
      simp only [bind_assoc, pure_bind]
      refine bind_congr_of_ok fun seed _ _ ↦ ?_
      refine bind_congr_of_ok fun _ _ _ ↦ ?_
      rw [runCall, callStep]
      simp only [bind_assoc]
      refine bind_congr_of_ok fun newPub _ _ ↦ ?_
      cases newPub with
      | none => rfl
      | some newPub =>
        simp only [bind_assoc, pure_bind]
        rw [runCall, callStep]
        simp only [bind_assoc, pure_bind]
        refine bind_congr_of_ok fun _ _ _ ↦ ?_
        refine bind_congr_of_ok fun nowNs _ _ ↦ ?_
        refine bind_congr_of_ok fun cnow _ _ ↦ ?_
        refine bind_congr_of_ok fun sigInput _ _ ↦ ?_
        refine bind_congr_of_ok fun sig _ _ ↦ ?_
        exact runCall_building_result
  | daemonTick env =>
    rw [Op.exec, daemonTick, runCall, callStep]
    simp only [bind_assoc]
    rw [bind_of_ok (get_apply c), bind_of_ok (get_apply c)]
    cases hdormant : c.isDormant with
    | true => rfl
    | false =>
      simp only [Bool.false_eq_true, if_false, bind_assoc, pure_bind]
      refine bind_congr_of_ok fun tick _ _ ↦ ?_
      rw [runCall, callStep]
      simp only [generateAndStoreKeypair, bind_assoc, pure_bind]
      refine bind_congr_of_ok fun seed _ _ ↦ ?_
      refine bind_congr_of_ok fun _ _ _ ↦ ?_
      rw [runCall, callStep]
      simp only [bind_assoc]
      refine bind_congr_of_ok fun newPub _ _ ↦ ?_
      cases newPub with
      | none => rfl
      | some newPub =>
        simp only [bind_assoc, pure_bind]
        exact runCall_building_result

end Alone

/-! ### What a step does -/

/-- What a step that does not fail does. -/
inductive StepsTo (op : Op) (c : Chronomatter P) : Pc P → Chronomatter P → Pc P → Prop
  /-- A tick is taken. -/
  | begin {pc' : Pc P} (hdormant : c.isDormant = false)
      (hpc : pc' = .ticked (c.currentTick + 1) ∨ pc' = .counted (c.currentTick + 1)) :
      StepsTo op c .start c.advanceTick pc'
  /-- In verify-only mode a daemon tick does nothing. -/
  | idle (hdormant : c.isDormant = true) : StepsTo op c .start c .idle
  /-- The stamp is counted. -/
  | count {tick : UInt64} : StepsTo op c (.ticked tick) c.countStamp (.counted tick)
  /-- A fresh pair is stored. -/
  | store {tick : UInt64} {own : TickKeyPair P} :
      StepsTo op c (.counted tick) (c.storeKeypair own) (.stored tick own)
  /-- A stamp reads the public key in slot 0. -/
  | readKey {tick : UInt64} {own kp : TickKeyPair P} (hslot : c.keypairs.slot 0 = some kp) :
      StepsTo op c (.stored tick own) c (.keyed tick own kp.pubKey)
  /-- So does a daemon tick. -/
  | readKeyDaemon {tick : UInt64} {own kp : TickKeyPair P} {env : CallEnv}
      (hop : op = .daemonTick env) (hslot : c.keypairs.slot 0 = some kp) :
      StepsTo op c (.stored tick own) c (.building ⟨tick, own, kp.pubKey, none⟩)
  /-- The pair in slot 0 signs the payload. -/
  | signContent {tick : UInt64} {own kp : TickKeyPair P} {newPub : FixedBytes 32} {env : CallEnv}
      {content : Bytes} {echo : String} {st : StampedForetis}
      (hop : op = .stamp env content echo) (hslot : c.keypairs.slot 0 = some kp)
      (hattests : ∀ record, record.chrononNumber = tick → Attests kp record content st) :
      StepsTo op c (.keyed tick own newPub) c (.building ⟨tick, own, newPub, some st⟩)
  /-- The stamp counter is swapped for zero. -/
  | swap {call : Begun P} {genesisSig : Option Bytes} {stamps : UInt64} :
      StepsTo op c (.building call) c.resetStampCount (.swapped call genesisSig stamps)
  /-- At tick 1 the pair in slot 0 signs the attestation, and the record is built. -/
  | genesis {call : Begun P} {genesisSig : Option Bytes} {stamps : UInt64} {att : AutoAttestation}
      {tbVersion : UInt32} (htick : call.tick = 1) :
      StepsTo op c (.swapped call genesisSig stamps) c
        (.built call (tickRecord c.tbid call.tick call.newPub att tbVersion))
  /-- Later, the public key in slot 1 is read. -/
  | readPrev {call : Begun P} {genesisSig : Option Bytes} {stamps : UInt64}
      {prev : TickKeyPair P} {nonce : FixedBytes 16} (htick : call.tick ≠ 1)
      (hslot : c.keypairs.slot 1 = some prev) :
      StepsTo op c (.swapped call genesisSig stamps) c
        (.prevKnown call stamps prev.pubKey nonce)
  /-- The pair in slot 1 signs. -/
  | signForward {call : Begun P} {stamps : UInt64} {prevPub : FixedBytes 32}
      {nonce : FixedBytes 16} {prev : TickKeyPair P} (hslot : c.keypairs.slot 1 = some prev) :
      StepsTo op c (.prevKnown call stamps prevPub nonce) c
        (.forwardSigned call stamps prevPub nonce (P.ed25519Sign prev.privKey
          (autoAttestationBlobWithCount c.tbid.toHex (call.tick - 1) prevPub call.tick
            call.newPub stamps nonce)).toList)
  /-- The pair in slot 0 signs, and the record is built. -/
  | signBackward {call : Begun P} {stamps : UInt64} {prevPub : FixedBytes 32}
      {nonce : FixedBytes 16} {forwardSig : Bytes} {kp : TickKeyPair P}
      (hslot : c.keypairs.slot 0 = some kp) (htick : call.tick ≠ 0) :
      StepsTo op c (.forwardSigned call stamps prevPub nonce forwardSig) c
        (.built call (tickRecord c.tbid call.tick call.newPub
          ⟨forwardSig, (P.ed25519Sign kp.privKey (autoAttestationBlobWithCount c.tbid.toHex
            (call.tick - 1) prevPub call.tick call.newPub stamps nonce)).toList, nonce, stamps⟩ 0))
  /-- The observer is notified, and the call returns. -/
  | append {call : Begun P} {record : ChrononRecord} :
      StepsTo op c (.built call record) (c.notifyObserver record) (.returned call record)
  /-- A call that has returned stays. -/
  | stay {pc : Pc P} : StepsTo op c pc c pc

section Inversion

variable {op : Op} {c t : Chronomatter P} {pc pc' : Pc P} {tick : UInt64} {own : TickKeyPair P}
  {newPub prevPub : FixedBytes 32} {call : Begun P} {genesisSig : Option Bytes} {stamps : UInt64}
  {nonce : FixedBytes 16} {forwardSig : Bytes}

theorem stepsTo_of_start (h : callStep op .start c = .ok pc' t) : StepsTo op c .start t pc' := by
  cases op with
  | stamp env content echo =>
    replace h := bind_eq_ok.1 h
    obtain ⟨_, _, ⟨⟩, h⟩ := h
    cases hdormant : c.isDormant with
    | true =>
      rw [hdormant] at h
      cases h
    | false =>
      rw [hdormant] at h
      cases h
      exact .begin hdormant (.inl rfl)
  | daemonTick env =>
    replace h := bind_eq_ok.1 h
    obtain ⟨_, _, ⟨⟩, h⟩ := h
    cases hdormant : c.isDormant with
    | true =>
      rw [hdormant] at h
      cases h
      exact .idle hdormant
    | false =>
      rw [hdormant] at h
      cases h
      exact .begin hdormant (.inr rfl)

theorem stepsTo_of_stored (h : callStep op (.stored tick own) c = .ok pc' t) :
    StepsTo op c (.stored tick own) t pc' := by
  replace h := bind_eq_ok.1 h
  obtain ⟨newPub, _, ⟨⟩, h⟩ := h
  cases hslot : c.keypairs.slot 0 with
  | none =>
    rw [hslot] at h
    cases h
  | some kp =>
    rw [hslot] at h
    cases op with
    | stamp env content echo =>
      cases h
      exact .readKey hslot
    | daemonTick env =>
      cases h
      exact .readKeyDaemon rfl hslot

theorem stepsTo_of_keyed (h : callStep op (.keyed tick own newPub) c = .ok pc' t) :
    StepsTo op c (.keyed tick own newPub) t pc' := by
  cases op with
  | daemonTick env =>
    cases h
    exact .stay
  | stamp env content echo =>
    rw [callStep] at h
    replace h := bind_eq_ok.1 h
    obtain ⟨_, _, hhash, h⟩ := h
    obtain ⟨-, rfl⟩ := orCrypto_eq_ok.1 hhash
    replace h := bind_eq_ok.1 h
    obtain ⟨nowNs, _, hclock, h⟩ := h
    obtain ⟨-, rfl⟩ := ofResult_mapError_eq_ok.1 hclock
    replace h := bind_eq_ok.1 h
    obtain ⟨_, _, ⟨⟩, h⟩ := h
    replace h := bind_eq_ok.1 h
    obtain ⟨sigInput, _, hinput, h⟩ := h
    obtain ⟨hencoded, rfl⟩ := ofResult_mapError_eq_ok.1 hinput
    obtain ⟨-, rfl⟩ := unlessFault_eq_ok.1 hencoded
    replace h := bind_eq_ok.1 h
    obtain ⟨sig, _, hsig, h⟩ := h
    obtain ⟨⟨kp, hkp, rfl⟩, -, rfl⟩ := signWithKeypair_eq_ok.1 hsig
    cases h
    exact .signContent rfl hkp fun record hnumber ↦ ⟨hnumber.symm, rfl, rfl, rfl⟩

theorem stepsTo_of_building (h : callStep op (.building call) c = .ok pc' t) :
    StepsTo op c (.building call) t pc' := by
  rw [callStep] at h
  by_cases htick : call.tick = 1
  · rw [if_pos htick] at h
    replace h := bind_eq_ok.1 h
    obtain ⟨_, _, ⟨⟩, h⟩ := h
    cases hsecret : c.tbidSecret with
    | none =>
      rw [hsecret] at h
      cases h
      exact .swap
    | some secret =>
      rw [hsecret] at h
      replace h := bind_eq_ok.1 h
      obtain ⟨_, _, ⟨⟩, h⟩ := h
      replace h := bind_eq_ok.1 h
      obtain ⟨_, _, hsig, h⟩ := h
      obtain ⟨-, rfl⟩ := orCrypto_eq_ok.1 hsig
      cases h
      exact .swap
  · rw [if_neg htick] at h
    cases h
    exact .swap

/-- All branches that build the record end so. -/
theorem return_built_eq_ok {tbid : Tbid} {att : AutoAttestation} {tbVersion : UInt32}
    (h : (do
      let record ← ofResult (tickRecord tbid call.tick call.newPub att tbVersion).build
      return .built call record : Call P (Pc P)) c = .ok pc' t) :
    t = c ∧ pc' = .built call (tickRecord tbid call.tick call.newPub att tbVersion) ∧
      call.tick ≠ 0 := by
  replace h := bind_eq_ok.1 h
  obtain ⟨record, _, hrecord, h⟩ := h
  obtain ⟨rfl, rfl, hne⟩ := ofResult_build_eq_ok hrecord
  cases h
  exact ⟨rfl, rfl, hne⟩

theorem stepsTo_of_swapped (h : callStep op (.swapped call genesisSig stamps) c = .ok pc' t) :
    StepsTo op c (.swapped call genesisSig stamps) t pc' := by
  rw [callStep] at h
  replace h := bind_eq_ok.1 h
  obtain ⟨_, _, ⟨⟩, h⟩ := h
  by_cases htick : call.tick = 1
  · rw [if_pos htick] at h
    replace h := bind_eq_ok.1 h
    obtain ⟨nonce, _, hnonce, h⟩ := h
    obtain ⟨-, rfl⟩ := orCrypto_eq_ok.1 hnonce
    cases genesisSig with
    | some genesisSig =>
      replace h := bind_eq_ok.1 h
      obtain ⟨sig, _, hsig, h⟩ := h
      obtain ⟨-, -, rfl⟩ := signWithKeypair_eq_ok.1 hsig
      obtain ⟨rfl, rfl, -⟩ := return_built_eq_ok h
      exact .genesis htick
    | none =>
      replace h := bind_eq_ok.1 h
      obtain ⟨sig, _, hsig, h⟩ := h
      obtain ⟨-, -, rfl⟩ := signWithKeypair_eq_ok.1 hsig
      obtain ⟨rfl, rfl, -⟩ := return_built_eq_ok h
      exact .genesis htick
  · rw [if_neg htick] at h
    replace h := bind_eq_ok.1 h
    obtain ⟨prevPub, _, ⟨⟩, h⟩ := h
    cases hslot : c.keypairs.slot 1 with
    | none =>
      rw [hslot] at h
      cases h
    | some prev =>
      rw [hslot] at h
      replace h := bind_eq_ok.1 h
      obtain ⟨nonce, _, hnonce, h⟩ := h
      obtain ⟨-, rfl⟩ := orCrypto_eq_ok.1 hnonce
      cases h
      exact .readPrev htick hslot

theorem stepsTo_of_prevKnown
    (h : callStep op (.prevKnown call stamps prevPub nonce) c = .ok pc' t) :
    StepsTo op c (.prevKnown call stamps prevPub nonce) t pc' := by
  replace h := bind_eq_ok.1 h
  obtain ⟨_, _, ⟨⟩, h⟩ := h
  replace h := bind_eq_ok.1 h
  obtain ⟨sig, _, hsig, h⟩ := h
  obtain ⟨⟨prev, hprev, rfl⟩, -, rfl⟩ := signWithKeypair_eq_ok.1 hsig
  cases h
  exact .signForward hprev

theorem stepsTo_of_forwardSigned
    (h : callStep op (.forwardSigned call stamps prevPub nonce forwardSig) c = .ok pc' t) :
    StepsTo op c (.forwardSigned call stamps prevPub nonce forwardSig) t pc' := by
  replace h := bind_eq_ok.1 h
  obtain ⟨_, _, ⟨⟩, h⟩ := h
  replace h := bind_eq_ok.1 h
  obtain ⟨sig, _, hsig, h⟩ := h
  obtain ⟨⟨kp, hkp, rfl⟩, -, rfl⟩ := signWithKeypair_eq_ok.1 hsig
  obtain ⟨rfl, rfl, hne⟩ := return_built_eq_ok h
  exact .signBackward hkp hne

/-- A step that does not fail does what `StepsTo` says. -/
theorem stepsTo_of_callStep (h : callStep op pc c = .ok pc' t) : StepsTo op c pc t pc' := by
  cases pc with
  | start => exact stepsTo_of_start h
  | ticked tick =>
    cases h
    exact .count
  | counted tick =>
    rw [callStep] at h
    replace h := bind_eq_ok.1 h
    obtain ⟨seed, _, hseed, h⟩ := h
    obtain ⟨-, rfl⟩ := orCrypto_eq_ok.1 hseed
    cases h
    exact .store
  | stored tick own => exact stepsTo_of_stored h
  | keyed tick own newPub => exact stepsTo_of_keyed h
  | building call => exact stepsTo_of_building h
  | swapped call genesisSig stamps => exact stepsTo_of_swapped h
  | prevKnown call stamps prevPub nonce => exact stepsTo_of_prevKnown h
  | forwardSigned call stamps prevPub nonce forwardSig => exact stepsTo_of_forwardSigned h
  | built call record =>
    cases h
    exact .append
  | idle | returned _ _ | failed _ =>
    cases h
    exact .stay

end Inversion

/-! ### The machine -/

variable (P) in
/-- A chronomatter with `n` concurrent calls. -/
structure Machine (n : ℕ) where
  /-- What the calls share. -/
  shared : Chronomatter P
  /-- Where each call stands. -/
  calls : Fin n → Pc P

namespace Machine

variable {n : ℕ}

/-- No call has begun. -/
def init (shared : Chronomatter P) : Machine P n := ⟨shared, fun _ ↦ .start⟩

/-- One step of one call. -/
def advance (ops : Fin n → Op) (m : Machine P n) (i : Fin n) : Machine P n :=
  match callStep (ops i) (m.calls i) m.shared with
  | .ok pc shared => ⟨shared, Function.update m.calls i pc⟩
  | .error e shared => ⟨shared, Function.update m.calls i (.failed e)⟩

/-- One step of the call that the schedule picks. -/
def Step (ops : Fin n → Op) (m : Machine P n) (i : Fin n) (t : Machine P n) : Prop :=
  m.advance ops i = t

/-- Every call has returned `Ok`. -/
def AllOk (m : Machine P n) : Prop :=
  ∀ i, m.calls i = .idle ∨ ∃ call record, m.calls i = .returned call record

/-- A step leaves the other calls where they are; its own call fails, or goes on by `StepsTo`. -/
theorem Step.cases {ops : Fin n → Op} {m t : Machine P n} {i : Fin n} (h : Step ops m i t) :
    (∀ j, j ≠ i → t.calls j = m.calls j) ∧
      ((∃ e, t.calls i = .failed e) ∨
        StepsTo (ops i) m.shared (m.calls i) t.shared (t.calls i)) := by
  rw [Step, advance] at h
  cases hstep : callStep (ops i) (m.calls i) m.shared with
  | ok pc shared =>
    rw [hstep] at h
    subst h
    refine ⟨fun j hj ↦ Function.update_of_ne hj _ _, .inr ?_⟩
    show StepsTo _ _ _ shared (Function.update m.calls i pc i)
    rw [Function.update_self]
    exact stepsTo_of_callStep hstep
  | error e shared =>
    rw [hstep] at h
    subst h
    exact ⟨fun j hj ↦ Function.update_of_ne hj _ _, .inl ⟨e, Function.update_self ..⟩⟩

end Machine

end Chronomatter

end Foretias

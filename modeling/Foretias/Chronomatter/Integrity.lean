import Foretias.Chronomatter.Sequential

/-!
# Integrity of the observing calendar

A successful call attests to the tick number before its own and to the pair that was newest when
it began, whatever the calendar holds. The record it hands over is linked to the last one there
when these agree, which is the condition `InStep` on the state before the call. A successful call
made in step ends in step; a failed one advances the counter without a record, and the next
successful call then breaks the chain.

* `linked_of_inStep` — in a run whose calls are made in step, or stopped by a fault, every two
  neighbouring records of the calendar pass `verifyPair`, in every state reached.
-/

namespace Foretias

open ErrorState

variable {P : Primitives}

theorem lt_add_one_of_ne_zero {n : UInt64} (h : n + 1 ≠ 0) : n < n + 1 := by
  have hlt := n.toNat_lt
  have hsum : (n + 1).toNat = (n.toNat + 1) % 2 ^ 64 := UInt64.toNat_add n 1
  rw [UInt64.lt_iff_toNat_lt, hsum]
  by_cases hmax : n.toNat + 1 = 2 ^ 64
  · rw [hmax, Nat.mod_self] at hsum
    exact absurd (UInt64.toNat_inj.1 hsum) h
  · rw [Nat.mod_eq_of_lt (by omega)]
    omega

namespace Chronomatter

variable {c t : Chronomatter P} {kp : TickKeyPair P} {record : ChrononRecord} {op : Op}

/-- The calendar is empty, or its last record carries the current tick number and the public key
of the newest pair. -/
def InStep (c : Chronomatter P) : Prop :=
  ∀ last ∈ c.tickObserver.latestTick, last.chrononNumber = c.currentTick ∧
    ∃ kp, c.keypairs.slot 0 = some kp ∧ last.publicKey = kp.pubKey.toList

/-- What is kept by every call made in step: the chronomatter can stamp, and its calendar holds
a linked chain without a record numbered zero. -/
structure Intact (c : Chronomatter P) : Prop where
  /-- The chronomatter is not dormant. -/
  awake : c.isDormant = false
  /-- It holds its TBID secret. -/
  signs : c.tbidSecret.isSome
  /-- Neighbouring records are linked. -/
  linked : Linked P c.tbid.toHex c.tickObserver.ticks
  /-- No record is numbered zero. -/
  chrononNumber_ne_zero : ∀ r ∈ c.tickObserver.ticks, r.chrononNumber ≠ 0

theorem inStep_new (secret : TbidSecret) (tbid : Tbid) (tbn : String) :
    InStep (new secret tbid tbn : Chronomatter P) :=
  fun _ hlast ↦ nomatch hlast

theorem intact_new (secret : TbidSecret) (tbid : Tbid) (tbn : String) :
    Intact (new secret tbid tbn : Chronomatter P) :=
  ⟨rfl, rfl, .nil, fun _ hr ↦ nomatch hr⟩

/-- The verifier accepts a record signed with the key of the record before it and with its own
over the blob that names these two. -/
theorem verifyPair_of_signed (hed : Ed25519Correct P) {tbidStr : String} {last : ChrononRecord}
    {prev : TickKeyPair P} (hne : record.chrononNumber ≠ 1)
    (hlast : last.chrononNumber = record.chrononNumber - 1)
    (hlastKey : last.publicKey = prev.pubKey.toList) (hkey : record.publicKey = kp.pubKey.toList)
    (halg : record.signatureAlgorithm = "Ed25519")
    (hforward : record.forwardForetis = (P.ed25519Sign prev.privKey (autoAttestationBlobWithCount
      tbidStr (record.chrononNumber - 1) prev.pubKey record.chrononNumber kp.pubKey
      record.chrononStampCount record.aaNonce)).toList)
    (hbackward : record.backwardForetis = (P.ed25519Sign kp.privKey (autoAttestationBlobWithCount
      tbidStr (record.chrononNumber - 1) prev.pubKey record.chrononNumber kp.pubKey
      record.chrononStampCount record.aaNonce)).toList) :
    Foretias.verifyPair P tbidStr last record = .ok true := by
  -- the verifier rebuilds the blob that was signed
  have hblob : buildNormalAttestBlob tbidStr last record record.chrononStampCount
      record.aaNonce = autoAttestationBlobWithCount tbidStr (record.chrononNumber - 1)
        prev.pubKey record.chrononNumber kp.pubKey record.chrononStampCount record.aaNonce := by
    rw [buildNormalAttestBlob, autoAttestationBlobWithCount, hlast, hlastKey, hkey]
  have hsigned : ∀ (pair : TickKeyPair P) (msg : Bytes),
      verifyWith P pair.pubKey.toList "Ed25519" msg (P.ed25519Sign pair.privKey msg).toList =
        .ok true := by
    intro pair msg
    rw [verifyWith_ed25519_toList, ← pair.public_eq, hed]
  refine (verifyPair_of_not_genesis fun hgenesis ↦ hne hgenesis.1).2 ⟨?_, ?_⟩
  · rw [hblob, halg, hlastKey, hforward]
    exact hsigned prev _
  · rw [hblob, halg, hkey, hbackward]
    exact hsigned kp _

/-- A record produced in step is linked to the last one. -/
theorem Produced.verifyPair (hed : Ed25519Correct P) (h : Produced c kp record)
    (hne : record.chrononNumber ≠ 1) {last : ChrononRecord} {prev : TickKeyPair P}
    (hnumber : last.chrononNumber = c.currentTick) (hslot : c.keypairs.slot 0 = some prev)
    (hkey : last.publicKey = prev.pubKey.toList) :
    verifyPair P c.tbid.toHex last record = .ok true := by
  obtain ⟨-, prev', hslot', hforward, hbackward⟩ := h.linked hne
  obtain rfl := Option.some_inj.1 (hslot.symm.trans hslot')
  refine verifyPair_of_signed hed hne ?_ hkey h.publicKey_eq h.signatureAlgorithm_eq hforward
    hbackward
  rw [h.chrononNumber_eq, hnumber, UInt64.add_sub_cancel]

/-- A record produced in step is above the last one, so the calendar takes it. -/
theorem Produced.ticks_completed (hstep : InStep c) (h : Produced c kp record) :
    (c.completed kp record).tickObserver.ticks = c.tickObserver.ticks ++ [record] := by
  have habove : c.tickObserver.Above record.chrononNumber := by
    intro last hlast
    rw [(hstep last hlast).1, h.chrononNumber_eq]
    exact lt_add_one_of_ne_zero (h.chrononNumber_eq ▸ h.chrononNumber_ne_zero)
  exact (Calendar.ticks_onTickAdvance record).trans (if_pos habove)

/-- A call made in step that returns `Ok` ends in step. -/
theorem Produced.inStep_completed (hstep : InStep c) (h : Produced c kp record) :
    InStep (c.completed kp record) := by
  intro last hlast
  rw [Calendar.latestTick, h.ticks_completed hstep, List.getLast?_concat] at hlast
  obtain rfl := Option.some_inj.1 hlast
  exact ⟨h.chrononNumber_eq, kp, KeyRing.slot_push_zero _ _, h.publicKey_eq⟩

/-- A call made in step that returns `Ok` keeps the chain. -/
theorem Produced.intact_completed (hed : Ed25519Correct P) (hc : Intact c) (hstep : InStep c)
    (h : Produced c kp record) : Intact (c.completed kp record) := by
  refine ⟨hc.awake, hc.signs, ?_, ?_⟩
  · rw [h.ticks_completed hstep]
    refine hc.linked.concat fun last hlast ↦ ?_
    obtain ⟨hnumber, prev, hslot, hkey⟩ := hstep last hlast
    -- a genesis record would need a predecessor numbered zero
    have hne : record.chrononNumber ≠ 1 := by
      intro h1
      have hzero : last.chrononNumber = 0 := by
        rw [h.chrononNumber_eq] at h1
        rw [hnumber, ← UInt64.add_sub_cancel c.currentTick 1, h1]
        rfl
      exact hc.chrononNumber_ne_zero last (List.mem_of_getLast? hlast) hzero
    exact h.verifyPair hed hne hnumber hslot hkey
  · intro r hr
    rw [h.ticks_completed hstep, List.mem_append, List.mem_singleton] at hr
    rcases hr with hr | rfl
    · exact hc.chrononNumber_ne_zero r hr
    · exact h.chrononNumber_ne_zero

/-- A call that returns `Err` keeps the chain: it never reaches the calendar. -/
theorem intact_of_error {e : NodeError} (hc : Intact c) (h : op.exec c = .error e t) :
    Intact t := by
  have hkept := exec_eq_error hc.awake h
  rw [kept, kept, Prod.mk.injEq, Prod.mk.injEq, Prod.mk.injEq, Prod.mk.injEq] at hkept
  obtain ⟨htbid, hsecret, hdormant, -, hcalendar⟩ := hkept
  refine ⟨hdormant.trans hc.awake, hsecret.trans hc.signs, ?_, ?_⟩
  · rw [htbid, hcalendar]
    exact hc.linked
  · rw [hcalendar]
    exact hc.chrononNumber_ne_zero

/-! ### Runs -/

/-- One operation, run to its end, whatever it returns. -/
def ExecStep (c : Chronomatter P) (op : Op) (t : Chronomatter P) : Prop :=
  finalState (op.exec c) = t

/-- The call is made in step, or something it performs has a fault. -/
def Admitted (c : Chronomatter P) (op : Op) : Prop :=
  InStep c ∨ ¬op.Faultless (c.currentTick + 1)

/-- One admitted call keeps the chain. -/
theorem intact_execStep (hed : Ed25519Correct P) (hc : Intact c)
    (h : Guarded ExecStep Admitted c op t) : Intact t := by
  obtain ⟨hadmitted, hexec⟩ := h
  rw [ExecStep] at hexec
  cases hrun : op.exec c with
  | error e s =>
    rw [hrun] at hexec
    cases hexec
    exact intact_of_error hc hrun
  | ok r s =>
    rw [hrun] at hexec
    cases hexec
    obtain ⟨kp, record, hproduced, rfl, -, hfaultless⟩ := exec_eq_ok hc.awake hrun
    -- a call that returned `Ok` had no fault, so it was made in step
    have hstep : InStep c := hadmitted.resolve_right (not_not.2 (hfaultless hc.signs))
    exact hproduced.intact_completed hed hc hstep

/-- In a run of admitted calls from `Chronomatter::new`, the observing calendar passes its
integrity check in every state reached. -/
theorem linked_of_inStep (hed : Ed25519Correct P) {secret : TbidSecret} {tbid : Tbid}
    {tbn : String} {ops : List Op}
    (hrun : Run (Guarded ExecStep Admitted) (new secret tbid tbn : Chronomatter P) ops t) :
    Linked P t.tbid.toHex t.tickObserver.ticks ∧
      t.tickObserver.integrityCheck P t.tbid.toHex none none =
        .ok (List.replicate (t.tickObserver.ticks.length - 1) true) := by
  have hintact : Intact t :=
    hrun.invariant (intact_execStep hed) (intact_new secret tbid tbn)
  exact ⟨hintact.linked, Calendar.integrityCheck_of_linked hintact.linked⟩

/-- Two daemon ticks without faults. -/
theorem linked_two_ticks : ∃ t : Chronomatter .transparent,
    Run (Guarded ExecStep Admitted) (new default default "")
      [.daemonTick (.clear (.replicate 32 1)), .daemonTick (.clear (.replicate 32 2))] t ∧
    Linked .transparent t.tbid.toHex t.tickObserver.ticks := by
  have hclear : (Op.daemonTick (.clear (.replicate 32 1))).Faultless (0 + 1) :=
    CallEnv.buildsTick_clear _ _
  obtain ⟨r, t, hfirst⟩ := exists_exec_new (P := .transparent) default default "" hclear
  obtain ⟨kp, record, hproduced, rfl, -⟩ := exec_eq_ok rfl hfirst
  have hstep := inStep_new (P := .transparent) default default ""
  have hrun : Run (Guarded ExecStep Admitted) (new default default "" : Chronomatter .transparent)
      [.daemonTick (.clear (.replicate 32 1)), .daemonTick (.clear (.replicate 32 2))] _ :=
    .cons ⟨.inl hstep, congrArg finalState hfirst⟩
      (.cons ⟨.inl (hproduced.inStep_completed hstep), rfl⟩ (.nil _))
  exact ⟨_, hrun, (linked_of_inStep ed25519Exact_transparent.correct hrun).1⟩

/-- A daemon tick whose nonce cannot be drawn. -/
def tickWithoutNonce (seed : FixedBytes 32) : Op :=
  .daemonTick { CallEnv.clear seed with nonce := .error (.internal 0) }

/-- A tick that fails after its pair is stored, between two that succeed: the record of the third
tick attests to the second, which is not there. -/
theorem integrityCheck_after_fault : Ed25519Exact .transparent ∧
    ∃ t : Chronomatter .transparent, Run ExecStep (new default default "")
      [.daemonTick (.clear (.replicate 32 1)), tickWithoutNonce (.replicate 32 2),
        .daemonTick (.clear (.replicate 32 3))] t ∧
    t.tickObserver.ticks.map ChrononRecord.chrononNumber = [1, 3] ∧
    t.tickObserver.integrityCheck .transparent t.tbid.toHex none none = .ok [false] :=
  ⟨ed25519Exact_transparent, _, .cons rfl (.cons rfl (.cons rfl (.nil _))), by decide +kernel,
    by decide +kernel⟩

end Chronomatter

end Foretias

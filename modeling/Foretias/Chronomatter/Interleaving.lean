import Foretias.Chronomatter.Concurrent
import Foretias.Chronomatter.Integrity
import Foretias.Core.VerificationPaths
import Mathlib.Data.List.FinRange

/-!
# Which interleavings keep the calendar

Nothing ties a call's tick to the pair it finds in a slot of the ring, nor to the moment at which
its record reaches the calendar. `InOrder` is the condition under which they belong together: a
call that reads slot 0 finds its own pair there, a call that reads slot 1 finds the pair of the
call with the tick before its own, and the records reach the calendar in the order of ticks.

The invariant `Consistent` says of each call that what it carries belongs together. It is kept by
every step in order as long as no call has failed and none got tick zero, which is what a run
whose calls all return `Ok` amounts to.

* `consistent_of_inOrder` — in a run of steps in order, all of whose calls return `Ok`, the
  stamps verify, no record is refused and the calendar is linked.
-/

namespace Foretias

namespace Chronomatter

variable {P : Primitives} {n : ℕ}

/-! ### What a call carries -/

/-- The tick of a call. -/
def Pc.tick? : Pc P → Option UInt64
  | .start | .idle | .failed _ => none
  | .ticked tick | .counted tick | .stored tick _ | .keyed tick _ _ => some tick
  | .building call | .swapped call _ _ | .prevKnown call _ _ _ | .forwardSigned call _ _ _ _
  | .built call _ | .returned call _ => some call.tick

/-- The tick of a call that has stored a pair, with the pair. -/
def Pc.pair? : Pc P → Option (UInt64 × TickKeyPair P)
  | .start | .ticked _ | .counted _ | .idle | .failed _ => none
  | .stored tick own | .keyed tick own _ => some (tick, own)
  | .building call | .swapped call _ _ | .prevKnown call _ _ _ | .forwardSigned call _ _ _ _
  | .built call _ | .returned call _ => some (call.tick, call.own)

/-- A call that has built its record. -/
def Pc.built? : Pc P → Option (Begun P)
  | .built call _ | .returned call _ => some call
  | _ => none

theorem Pc.tick?_of_pair? {pc : Pc P} {tick : UInt64} {own : TickKeyPair P}
    (h : pc.pair? = some (tick, own)) : pc.tick? = some tick := by
  cases pc <;> simp_all [pair?, tick?]

/-! ### What a step of one call leaves alone -/

section StepsTo

variable {op : Op} {c c' : Chronomatter P} {pc pc' : Pc P}

theorem StepsTo.fixed (h : StepsTo op c pc c' pc') :
    c'.tbid = c.tbid ∧ c'.isDormant = c.isDormant := by
  cases h <;> exact ⟨rfl, rfl⟩

/-- A call keeps the pair that it has stored. -/
theorem StepsTo.pair?_eq {p : UInt64 × TickKeyPair P} (h : StepsTo op c pc c' pc')
    (hp : pc.pair? = some p) : pc'.pair? = some p := by
  cases h <;> first | exact hp | nomatch hp

/-- The counter advances exactly when a call takes its tick, which is then the new count. -/
theorem StepsTo.currentTick_eq (h : StepsTo op c pc c' pc') :
    (pc.tick? = none ∧ c'.currentTick = c.currentTick + 1 ∧
      pc'.tick? = some (c.currentTick + 1)) ∨
    (c'.currentTick = c.currentTick ∧ pc'.tick? = pc.tick?) := by
  cases h with
  | begin _ hpc =>
    refine .inl ⟨rfl, rfl, ?_⟩
    rcases hpc with rfl | rfl
    · rfl
    · rfl
  | _ => exact .inr ⟨rfl, rfl⟩

/-- The calendar changes only when a record is handed over, and the call then returns. -/
theorem StepsTo.tickObserver_eq (h : StepsTo op c pc c' pc') :
    (∃ call record, pc = .built call record ∧ pc' = .returned call record ∧
      c'.tickObserver = c.tickObserver.onTickAdvance record) ∨
    (c'.tickObserver = c.tickObserver ∧
      ∀ call record, pc = .returned call record → pc' = .returned call record) := by
  cases h with
  | append => exact .inl ⟨_, _, rfl, rfl, rfl⟩
  | stay => exact .inr ⟨rfl, fun _ _ h ↦ h⟩
  | _ => exact .inr ⟨rfl, fun _ _ h ↦ nomatch h⟩

/-- A record is built only for a tick other than zero. -/
theorem StepsTo.tick_ne_zero (h : StepsTo op c pc c' pc')
    (hpc : ∀ call, pc.built? = some call → call.tick ≠ 0) {call : Begun P}
    (hpc' : pc'.built? = some call) : call.tick ≠ 0 := by
  cases h with
  | begin _ hbegun =>
    rcases hbegun with rfl | rfl
    · cases hpc'
    · cases hpc'
  | genesis htick =>
    obtain rfl := Option.some_inj.1 hpc'
    rw [htick]
    decide
  | signBackward _ htick =>
    obtain rfl := Option.some_inj.1 hpc'
    exact htick
  | append => exact hpc _ hpc'
  | stay => exact hpc _ hpc'
  | _ => cases hpc'

/-- A call that has failed stays. -/
theorem StepsTo.eq_failed {e : NodeError} (h : StepsTo op c (.failed e) c' pc') :
    pc' = .failed e := by
  cases h
  rfl

end StepsTo

namespace Machine

/-- Some call has the tick and stored the pair. -/
def Holds (m : Machine P n) (tick : UInt64) (own : TickKeyPair P) : Prop :=
  ∃ j, (m.calls j).pair? = some (tick, own)

/-- The pair in slot 1 is that of the call with the tick before. -/
def PrevHeld (m : Machine P n) (tick : UInt64) : Prop :=
  ∃ prev, m.shared.keypairs.slot 1 = some prev ∧ m.Holds (tick - 1) prev

/-- The calendar ends just before a tick. -/
def Next (m : Machine P n) (tick : UInt64) : Prop :=
  (m.shared.tickObserver.ticks = [] ∧ tick = 1) ∨
    ∃ last, m.shared.tickObserver.latestTick = some last ∧ last.chrononNumber + 1 = tick

/-- The next step of the call finds the pair it expects, and hands its record over in turn. -/
def InOrder (m : Machine P n) (i : Fin n) : Prop :=
  match m.calls i with
  | .stored _ own | .keyed _ own _ => m.shared.keypairs.slot 0 = some own
  | .swapped call _ _ =>
    (call.tick = 1 → m.shared.keypairs.slot 0 = some call.own) ∧
      (call.tick ≠ 1 → m.PrevHeld call.tick)
  | .prevKnown call _ _ _ => m.PrevHeld call.tick
  | .forwardSigned call _ _ _ _ => m.shared.keypairs.slot 0 = some call.own
  | .built call _ => m.Next call.tick
  | _ => True

/-! ### The invariant -/

/-- What a call carries after it has read the public key in slot 0 belongs to its own pair. -/
structure SoundCall (op : Op) (call : Begun P) : Prop where
  /-- The key read is its own. -/
  newPub_eq : call.newPub = call.own.pubKey
  /-- The stamp is signed with its own pair. -/
  stamped : ∀ env content echo, op = .stamp env content echo → ∃ st, call.stamped = some st ∧
    ∀ record : ChrononRecord, record.chrononNumber = call.tick →
      Attests call.own record content st

/-- The record of a call is of its tick and carries its key; past tick 1 it is signed with the
pair of the call with the tick before and with its own. -/
structure SoundRecord (m : Machine P n) (call : Begun P) (record : ChrononRecord) : Prop where
  /-- It is of the call's tick. -/
  chrononNumber_eq : record.chrononNumber = call.tick
  /-- It carries the call's key. -/
  publicKey_eq : record.publicKey = call.own.pubKey.toList
  /-- It names Ed25519. -/
  signatureAlgorithm_eq : record.signatureAlgorithm = "Ed25519"
  /-- It is signed with both pairs. -/
  linked : call.tick ≠ 1 → ∃ prev, m.Holds (call.tick - 1) prev ∧
    record.forwardForetis = (P.ed25519Sign prev.privKey (autoAttestationBlobWithCount
      m.shared.tbid.toHex (call.tick - 1) prev.pubKey call.tick call.own.pubKey
      record.chrononStampCount record.aaNonce)).toList ∧
    record.backwardForetis = (P.ed25519Sign call.own.privKey (autoAttestationBlobWithCount
      m.shared.tbid.toHex (call.tick - 1) prev.pubKey call.tick call.own.pubKey
      record.chrononStampCount record.aaNonce)).toList

/-- What the call at a program counter carries belongs together. -/
def Sound (m : Machine P n) (op : Op) : Pc P → Prop
  | .keyed _ own newPub => newPub = own.pubKey
  | .building call | .swapped call _ _ => SoundCall op call
  | .prevKnown call _ prevPub _ =>
    SoundCall op call ∧ call.tick ≠ 1 ∧
      ∃ prev, m.Holds (call.tick - 1) prev ∧ prevPub = prev.pubKey
  | .forwardSigned call stamps prevPub nonce forwardSig =>
    SoundCall op call ∧ call.tick ≠ 1 ∧
      ∃ prev, m.Holds (call.tick - 1) prev ∧ prevPub = prev.pubKey ∧
        forwardSig = (P.ed25519Sign prev.privKey (autoAttestationBlobWithCount
          m.shared.tbid.toHex (call.tick - 1) prev.pubKey call.tick call.newPub stamps
          nonce)).toList
  | .built call record => SoundCall op call ∧ m.SoundRecord call record
  | .returned call record =>
    SoundCall op call ∧ m.SoundRecord call record ∧ record ∈ m.shared.tickObserver.ticks
  | .idle => False
  | _ => True

/-- No call has failed, and none has tick zero. -/
def Healthy (m : Machine P n) : Prop :=
  ∀ i, (m.calls i).tick? ≠ some 0 ∧ ∀ e, m.calls i ≠ .failed e

/-- The calls and the calendar belong together. -/
structure Consistent (ops : Fin n → Op) (m : Machine P n) : Prop where
  /-- The chronomatter is not dormant. -/
  awake : m.shared.isDormant = false
  /-- No tick is beyond the counter. -/
  tick_le : ∀ i tick, (m.calls i).tick? = some tick → tick ≤ m.shared.currentTick
  /-- No tick is given twice. -/
  tick_inj : ∀ i j tick, (m.calls i).tick? = some tick → (m.calls j).tick? = some tick → i = j
  /-- What each call carries belongs together. -/
  sound : ∀ i, m.Sound (ops i) (m.calls i)
  /-- The records are those of the calls that have returned. -/
  recorded : ∀ r ∈ m.shared.tickObserver.ticks, ∃ i call, m.calls i = .returned call r
  /-- Neighbouring records are linked. -/
  linked : Linked P m.shared.tbid.toHex m.shared.tickObserver.ticks

section Invariant

variable {ops : Fin n → Op} {m t : Machine P n} {i : Fin n} {op : Op}

/-- A calendar that ends just before a tick takes its record. -/
theorem Next.above {tick : UInt64} (h : m.Next tick) (hne : tick ≠ 0) :
    m.shared.tickObserver.Above tick := by
  intro last hlast
  rcases h with ⟨hnil, -⟩ | ⟨last', hlast', rfl⟩
  · rw [Calendar.latestTick, hnil] at hlast
    cases hlast
  · obtain rfl := Option.some_inj.1 (hlast.symm.trans hlast')
    exact lt_add_one_of_ne_zero hne

/-- The pair held for a tick is one. -/
theorem Consistent.holds_unique (hm : Consistent ops m) {tick : UInt64} {own own' : TickKeyPair P}
    (h : m.Holds tick own) (h' : m.Holds tick own') : own = own' := by
  obtain ⟨j, hj⟩ := h
  obtain ⟨j', hj'⟩ := h'
  obtain rfl := hm.tick_inj j j' tick (Pc.tick?_of_pair? hj) (Pc.tick?_of_pair? hj')
  rw [hj, Option.some_inj, Prod.mk.injEq] at hj'
  exact hj'.2

/-- `t` holds every pair and every record that `m` does. -/
structure Extends (m t : Machine P n) : Prop where
  /-- The time being stays. -/
  tbid_eq : t.shared.tbid = m.shared.tbid
  /-- Pairs stay. -/
  holds : ∀ {tick own}, m.Holds tick own → t.Holds tick own
  /-- Records stay. -/
  ticks : ∀ {r}, r ∈ m.shared.tickObserver.ticks → r ∈ t.shared.tickObserver.ticks

theorem SoundRecord.mono (hext : Extends m t) {call : Begun P} {record : ChrononRecord}
    (h : m.SoundRecord call record) : t.SoundRecord call record := by
  refine ⟨h.chrononNumber_eq, h.publicKey_eq, h.signatureAlgorithm_eq, fun htick ↦ ?_⟩
  obtain ⟨prev, hprev, hsigned⟩ := h.linked htick
  rw [hext.tbid_eq]
  exact ⟨prev, hext.holds hprev, hsigned⟩

theorem Sound.mono (hext : Extends m t) {pc : Pc P} (h : m.Sound op pc) : t.Sound op pc := by
  cases pc with
  | prevKnown call stamps prevPub nonce =>
    obtain ⟨hcall, htick, prev, hprev, heq⟩ := h
    exact ⟨hcall, htick, prev, hext.holds hprev, heq⟩
  | forwardSigned call stamps prevPub nonce forwardSig =>
    obtain ⟨hcall, htick, prev, hprev, heq⟩ := h
    refine ⟨hcall, htick, prev, hext.holds hprev, ?_⟩
    rw [hext.tbid_eq]
    exact heq
  | built call record => exact ⟨h.1, h.2.mono hext⟩
  | returned call record => exact ⟨h.1, h.2.1.mono hext, hext.ticks h.2.2⟩
  | _ => exact h

theorem extends_of_stepsTo (hothers : ∀ j, j ≠ i → t.calls j = m.calls j)
    (h : StepsTo op m.shared (m.calls i) t.shared (t.calls i)) : Extends m t where
  tbid_eq := h.fixed.1
  holds := by
    rintro tick own ⟨j, hj⟩
    refine ⟨j, ?_⟩
    by_cases hij : j = i
    · subst hij
      exact h.pair?_eq hj
    · rw [hothers j hij]
      exact hj
  ticks := by
    intro r hr
    rcases h.tickObserver_eq with ⟨call, record, -, -, hcalendar⟩ | ⟨hcalendar, -⟩
    · rw [hcalendar, Calendar.ticks_onTickAdvance]
      split
      · exact List.mem_append_left _ hr
      · exact hr
    · rw [hcalendar]
      exact hr

/-- A step in order keeps what its own call carries together. -/
theorem Consistent.sound_stepsTo (hm : Consistent ops m) (hext : Extends m t)
    {pc pc' : Pc P} {c c' : Chronomatter P} (hpc : m.calls i = pc) (hc : m.shared = c)
    (hc' : t.shared = c') (hhealthy : pc.tick? ≠ some 0) (horder : m.InOrder i)
    (h : StepsTo (ops i) c pc c' pc') : t.Sound (ops i) pc' := by
  have hsound := hm.sound i
  rw [hpc] at hsound
  rw [InOrder, hpc] at horder
  cases h with
  | begin _ hpc' =>
    rcases hpc' with rfl | rfl
    · trivial
    · trivial
  | idle hdormant =>
    rw [← hc, hm.awake] at hdormant
    cases hdormant
  | count => trivial
  | store => trivial
  | readKey hslot =>
    rw [← hc, horder] at hslot
    obtain rfl := Option.some_inj.1 hslot
    exact rfl
  | readKeyDaemon hop hslot =>
    rw [← hc, horder] at hslot
    obtain rfl := Option.some_inj.1 hslot
    refine ⟨rfl, fun env content echo hop' ↦ ?_⟩
    rw [hop] at hop'
    cases hop'
  | signContent hop hslot hattests =>
    rw [← hc, horder] at hslot
    obtain rfl := Option.some_inj.1 hslot
    refine ⟨hsound, fun env content echo hop' ↦ ?_⟩
    rw [hop] at hop'
    cases hop'
    exact ⟨_, rfl, hattests⟩
  | swap => exact hsound
  | @genesis call genesisSig stamps att tbVersion htick =>
    refine ⟨hsound, rfl, ?_, rfl, fun hne ↦ absurd htick hne⟩
    exact congrArg FixedBytes.toList hsound.newPub_eq
  | @readPrev call genesisSig stamps prev nonce htick hslot =>
    obtain ⟨prev', hslot', hprev⟩ := horder.2 htick
    rw [← hc, hslot'] at hslot
    obtain rfl := Option.some_inj.1 hslot
    exact ⟨hsound, htick, _, hext.holds hprev, rfl⟩
  | @signForward call stamps prevPub nonce prev hslot =>
    obtain ⟨hcall, htick, prev', hprev', rfl⟩ := hsound
    obtain ⟨kp, hslot', hkp⟩ := horder
    rw [← hc, hslot'] at hslot
    obtain rfl := Option.some_inj.1 hslot
    -- the pair that signs is the one whose public key was read
    obtain rfl := hm.holds_unique hkp hprev'
    refine ⟨hcall, htick, _, hext.holds hkp, rfl, ?_⟩
    rw [hext.tbid_eq, hc]
  | @signBackward call stamps prevPub nonce forwardSig kp hslot htick =>
    obtain ⟨hcall, hne, prev, hprev, rfl, rfl⟩ := hsound
    rw [← hc, horder] at hslot
    obtain rfl := Option.some_inj.1 hslot
    refine ⟨hcall, rfl, congrArg FixedBytes.toList hcall.newPub_eq, rfl,
      fun _ ↦ ⟨prev, hext.holds hprev, ?_, ?_⟩⟩
    · rw [hext.tbid_eq, ← hcall.newPub_eq]
      rfl
    · rw [hext.tbid_eq, ← hcall.newPub_eq, hc]
      rfl
  | @append call record =>
    refine ⟨hsound.1, hsound.2.mono hext, ?_⟩
    have hne : call.tick ≠ 0 := fun h0 ↦ hhealthy (congrArg some h0)
    have habove : c.tickObserver.Above record.chrononNumber := by
      rw [hsound.2.chrononNumber_eq, ← hc]
      exact Next.above horder hne
    rw [hc']
    show record ∈ (c.tickObserver.onTickAdvance record).ticks
    rw [Calendar.ticks_onTickAdvance, if_pos habove]
    exact List.mem_append_right _ (List.mem_singleton_self _)
  | stay => exact hsound.mono hext

/-- A record handed over in turn is linked to the last one. -/
theorem Consistent.verifyPair (hed : Ed25519Correct P) (hm : Consistent ops m)
    (hhealthy : m.Healthy) {call : Begun P} {record last : ChrononRecord}
    (hrecord : m.SoundRecord call record) (hnext : m.Next call.tick)
    (hlast : m.shared.tickObserver.latestTick = some last) :
    Foretias.verifyPair P m.shared.tbid.toHex last record = .ok true := by
  have hnumber : last.chrononNumber + 1 = call.tick := by
    rcases hnext with ⟨hnil, -⟩ | ⟨last', hlast', hnumber⟩
    · rw [Calendar.latestTick, hnil] at hlast
      cases hlast
    · rwa [Option.some_inj.1 (hlast.symm.trans hlast')]
  -- the last record is that of the call with the tick before
  obtain ⟨k, call', hk⟩ := hm.recorded last (List.mem_of_getLast? hlast)
  have hsound := hm.sound k
  rw [hk] at hsound
  obtain ⟨-, hlastRecord, -⟩ := hsound
  have hpred : call'.tick = call.tick - 1 := by
    rw [← hlastRecord.chrononNumber_eq, ← hnumber, UInt64.add_sub_cancel]
  have hne : call.tick ≠ 1 := by
    intro h1
    have hzero : call'.tick = 0 := by rw [hpred, h1]; rfl
    exact (hhealthy k).1 (by rw [hk]; exact congrArg some hzero)
  obtain ⟨prev, hprev, hforward, hbackward⟩ := hrecord.linked hne
  have hheld : m.Holds (call.tick - 1) call'.own := ⟨k, by rw [hk, ← hpred]; rfl⟩
  obtain rfl := hm.holds_unique hheld hprev
  rw [← hrecord.chrononNumber_eq] at hne hforward hbackward
  refine verifyPair_of_signed hed hne ?_ hlastRecord.publicKey_eq hrecord.publicKey_eq
    hrecord.signatureAlgorithm_eq hforward hbackward
  rw [hlastRecord.chrononNumber_eq, hpred, hrecord.chrononNumber_eq]

/-- A machine that is healthy after a step was healthy before it. -/
theorem healthy_of_step (h : Step ops m i t) (ht : t.Healthy) : m.Healthy := by
  obtain ⟨hothers, ⟨e, hfailed⟩ | hsteps⟩ := h.cases
  · exact absurd hfailed ((ht i).2 e)
  intro j
  by_cases hij : j = i
  · subst hij
    constructor
    · intro hzero
      rcases hsteps.currentTick_eq with ⟨hnone, -⟩ | ⟨-, htick⟩
      · rw [hnone] at hzero
        cases hzero
      · exact (ht j).1 (htick.trans hzero)
    · intro e hfailed
      rw [hfailed] at hsteps
      exact (ht j).2 e hsteps.eq_failed
  · rw [← hothers j hij]
    exact ht j

/-- A step that takes a tick takes a fresh one. -/
theorem Consistent.ticks_stepsTo (hm : Consistent ops m) (ht : t.Healthy)
    (hothers : ∀ j, j ≠ i → t.calls j = m.calls j)
    (h : StepsTo op m.shared (m.calls i) t.shared (t.calls i)) :
    (∀ j tick, (t.calls j).tick? = some tick → tick ≤ t.shared.currentTick) ∧
      ∀ j k tick, (t.calls j).tick? = some tick → (t.calls k).tick? = some tick → j = k := by
  rcases h.currentTick_eq with ⟨hnone, hcount, htick⟩ | ⟨hcount, htick⟩
  · have hlt : m.shared.currentTick < m.shared.currentTick + 1 :=
      lt_add_one_of_ne_zero fun h0 ↦ (ht i).1 (htick.trans (congrArg some h0))
    -- the new tick is beyond all others
    have hcase : ∀ j tick, (t.calls j).tick? = some tick →
        (j = i ∧ tick = m.shared.currentTick + 1) ∨
          ((m.calls j).tick? = some tick ∧ tick < m.shared.currentTick + 1) := by
      intro j tick hj
      by_cases hij : j = i
      · subst hij
        exact .inl ⟨rfl, Option.some_inj.1 (hj.symm.trans htick)⟩
      · rw [hothers j hij] at hj
        exact .inr ⟨hj, UInt64.lt_of_le_of_lt (hm.tick_le j tick hj) hlt⟩
    constructor
    · intro j tick hj
      rw [hcount]
      rcases hcase j tick hj with ⟨-, rfl⟩ | ⟨-, hlt'⟩
      · exact UInt64.le_refl _
      · exact UInt64.le_of_lt hlt'
    · intro j k tick hj hk
      rcases hcase j tick hj with ⟨rfl, rfl⟩ | ⟨hj, hltj⟩
      · rcases hcase k _ hk with ⟨rfl, -⟩ | ⟨-, hltk⟩
        · rfl
        · exact absurd hltk (UInt64.lt_irrefl _)
      · rcases hcase k tick hk with ⟨rfl, rfl⟩ | ⟨hk, -⟩
        · exact absurd hltj (UInt64.lt_irrefl _)
        · exact hm.tick_inj j k tick hj hk
  · have hsame : ∀ j, (t.calls j).tick? = (m.calls j).tick? := by
      intro j
      by_cases hij : j = i
      · subst hij
        exact htick
      · rw [hothers j hij]
    constructor
    · intro j tick hj
      rw [hcount]
      exact hm.tick_le j tick ((hsame j).symm.trans hj)
    · intro j k tick hj hk
      exact hm.tick_inj j k tick ((hsame j).symm.trans hj) ((hsame k).symm.trans hk)

/-- A step in order keeps the calendar linked, with the records of the calls that returned. -/
theorem Consistent.calendar_stepsTo (hed : Ed25519Correct P) (hm : Consistent ops m)
    (hhealthy : m.Healthy) (horder : m.InOrder i)
    (hothers : ∀ j, j ≠ i → t.calls j = m.calls j)
    (h : StepsTo op m.shared (m.calls i) t.shared (t.calls i)) :
    (∀ r ∈ t.shared.tickObserver.ticks, ∃ j call, t.calls j = .returned call r) ∧
      Linked P t.shared.tbid.toHex t.shared.tickObserver.ticks := by
  rw [h.fixed.1]
  rcases h.tickObserver_eq with ⟨call, record, hpc, hpc', hcalendar⟩ | ⟨hcalendar, hreturned⟩
  · rw [InOrder, hpc] at horder
    have hsound := hm.sound i
    rw [hpc] at hsound
    have hne : call.tick ≠ 0 := fun h0 ↦
      (hhealthy i).1 (by rw [hpc]; exact congrArg some h0)
    have habove := Next.above horder hne
    rw [← hsound.2.chrononNumber_eq] at habove
    rw [hcalendar, Calendar.ticks_onTickAdvance, if_pos habove]
    constructor
    · intro r hr
      rcases List.mem_append.1 hr with hr | hr
      · obtain ⟨j, call', hj⟩ := hm.recorded r hr
        have hij : j ≠ i := by
          rintro rfl
          rw [hpc] at hj
          cases hj
        exact ⟨j, call', (hothers j hij).trans hj⟩
      · obtain rfl := List.mem_singleton.1 hr
        exact ⟨i, call, hpc'⟩
    · exact hm.linked.concat fun last hlast ↦ hm.verifyPair hed hhealthy hsound.2 horder hlast
  · rw [hcalendar]
    refine ⟨fun r hr ↦ ?_, hm.linked⟩
    obtain ⟨j, call', hj⟩ := hm.recorded r hr
    by_cases hij : j = i
    · subst hij
      exact ⟨j, call', hreturned _ _ hj⟩
    · exact ⟨j, call', (hothers j hij).trans hj⟩

/-- One step in order keeps the machine consistent, as long as no call fails. -/
theorem consistent_step (hed : Ed25519Correct P) (hm : Consistent ops m) (horder : m.InOrder i)
    (h : Step ops m i t) (ht : t.Healthy) : Consistent ops t := by
  have hhealthy := healthy_of_step h ht
  obtain ⟨hothers, ⟨e, hfailed⟩ | hsteps⟩ := h.cases
  · exact absurd hfailed ((ht i).2 e)
  have hext := extends_of_stepsTo hothers hsteps
  obtain ⟨hle, hinj⟩ := hm.ticks_stepsTo ht hothers hsteps
  obtain ⟨hrecorded, hlinked⟩ := hm.calendar_stepsTo hed hhealthy horder hothers hsteps
  refine ⟨hsteps.fixed.2.trans hm.awake, hle, hinj, fun j ↦ ?_, hrecorded, hlinked⟩
  by_cases hij : j = i
  · subst hij
    exact hm.sound_stepsTo hext rfl rfl rfl (hhealthy j).1 horder hsteps
  · rw [hothers j hij]
    exact (hm.sound j).mono hext

theorem consistent_init {shared : Chronomatter P} (hdormant : shared.isDormant = false)
    (hcalendar : shared.tickObserver.ticks = []) : Consistent ops (init shared) := by
  refine ⟨hdormant, (fun _ _ h ↦ nomatch h), (fun _ _ _ h ↦ nomatch h), fun _ ↦ trivial, ?_, ?_⟩
  · intro r hr
    have hr' : r ∈ shared.tickObserver.ticks := hr
    rw [hcalendar] at hr'
    cases hr'
  · show Linked P _ shared.tickObserver.ticks
    rw [hcalendar]
    exact .nil

/-! ### Runs -/

/-- Calls that have built their record do not have tick zero. -/
def BuiltNonzero (m : Machine P n) : Prop :=
  ∀ i call, (m.calls i).built? = some call → call.tick ≠ 0

theorem builtNonzero_step (hm : m.BuiltNonzero) (h : Step ops m i t) : t.BuiltNonzero := by
  intro j call hj
  obtain ⟨hothers, hcase⟩ := h.cases
  by_cases hij : j = i
  · subst hij
    rcases hcase with ⟨e, hfailed⟩ | hsteps
    · rw [hfailed] at hj
      cases hj
    · exact hsteps.tick_ne_zero (hm j) hj
  · rw [hothers j hij] at hj
    exact hm j call hj

/-- A machine whose calls have all returned `Ok` is healthy. -/
theorem AllOk.healthy (h : t.AllOk) (hbuilt : t.BuiltNonzero) : t.Healthy := by
  intro j
  rcases h j with hj | ⟨call, record, hj⟩
  · rw [hj]
    exact ⟨(fun h ↦ nomatch h), fun _ h ↦ nomatch h⟩
  · have hne := hbuilt j call (by rw [hj]; rfl)
    rw [hj]
    exact ⟨fun h0 ↦ hne (Option.some_inj.1 h0), fun _ h ↦ nomatch h⟩

/-- A run in order, all of whose calls return `Ok`, ends consistent. -/
theorem consistent_of_run (hed : Ed25519Correct P) {shared : Chronomatter P}
    (hdormant : shared.isDormant = false) (hcalendar : shared.tickObserver.ticks = [])
    {schedule : List (Fin n)} (hrun : Run (Guarded (Step ops) InOrder) (init shared) schedule t)
    (hok : t.AllOk) : t.Healthy ∧ Consistent ops t := by
  have hbuilt : t.BuiltNonzero := by
    exact hrun.of_guarded.invariant builtNonzero_step fun j call hj ↦ nomatch hj
  have hhealthy := hok.healthy hbuilt
  have himp : t.Healthy → Consistent ops t := by
    refine hrun.invariant (I := fun m ↦ m.Healthy → Consistent ops m) ?_
      fun _ ↦ consistent_init hdormant hcalendar
    rintro m i m' hm ⟨horder, hstep⟩ hhealthy'
    exact consistent_step hed (hm (healthy_of_step hstep hhealthy')) horder hstep hhealthy'
  exact ⟨hhealthy, himp hhealthy⟩

/-- When all calls of a consistent machine have returned, the calendar has one record for each. -/
theorem Consistent.length_ticks (hm : Consistent ops t) (hok : t.AllOk) :
    t.shared.tickObserver.ticks.length = n := by
  have hreturned : ∀ j, ∃ call record, t.calls j = .returned call record := by
    intro j
    rcases hok j with hj | hj
    · have hsound := hm.sound j
      rw [hj] at hsound
      exact hsound.elim
    · exact hj
  choose call record hreturned using hreturned
  have hsound : ∀ j, t.SoundRecord (call j) (record j) ∧
      record j ∈ t.shared.tickObserver.ticks := by
    intro j
    have h := hm.sound j
    rw [hreturned j] at h
    exact h.2
  have hinj : Function.Injective record := by
    intro j k hjk
    refine hm.tick_inj j k (call j).tick (by rw [hreturned j]; rfl) ?_
    rw [hreturned k, ← (hsound j).1.chrononNumber_eq, hjk, (hsound k).1.chrononNumber_eq]
    rfl
  have hperm : t.shared.tickObserver.ticks.Perm (List.ofFn record) := by
    refine (List.perm_ext_iff_of_nodup ?_ (List.nodup_ofFn.2 hinj)).2 fun r ↦ ?_
    · exact t.shared.tickObserver.ascending.imp fun hlt heq ↦
        absurd (congrArg ChrononRecord.key heq) hlt.ne
    · rw [List.mem_ofFn]
      constructor
      · intro hr
        obtain ⟨j, call', hj⟩ := hm.recorded r hr
        rw [hreturned j] at hj
        cases hj
        exact ⟨j, rfl⟩
      · rintro ⟨j, rfl⟩
        exact (hsound j).2
  rw [hperm.length_eq, List.length_ofFn]

end Invariant

/-- In every interleaving of any number of calls in which each step is taken in order and every
call returns `Ok`, each returned stamp is backed by the record of its own chronon, every record
handed over is in the calendar, which has one for each call, and neighbouring records are
linked. -/
theorem consistent_of_inOrder (hed : Ed25519Correct P) {secret : TbidSecret} {tbid : Tbid}
    {tbn : String} {ops : Fin n → Op} {schedule : List (Fin n)} {t : Machine P n}
    (hrun : Run (Guarded (Step ops) InOrder) (init (new secret tbid tbn)) schedule t)
    (hok : t.AllOk) :
    (∀ i env content echo, ops i = .stamp env content echo →
      ∃ call record st, t.calls i = .returned call record ∧ call.stamped = some st ∧
        Backed P t.shared.tickObserver st.foretis st.signatureBytes st.signatureAlgorithm
          content) ∧
    ((∀ i call record, t.calls i = .returned call record →
        record ∈ t.shared.tickObserver.ticks) ∧
      t.shared.tickObserver.ticks.length = n) ∧
    Linked P t.shared.tbid.toHex t.shared.tickObserver.ticks := by
  obtain ⟨-, hm⟩ := consistent_of_run hed rfl rfl hrun hok
  refine ⟨fun i env content echo hop ↦ ?_, ⟨fun i call record hi ↦ ?_, hm.length_ticks hok⟩,
    hm.linked⟩
  · have hsound := hm.sound i
    rcases hok i with hi | ⟨call, record, hi⟩
    · rw [hi] at hsound
      exact hsound.elim
    · rw [hi] at hsound
      obtain ⟨hcall, hrecord, hmem⟩ := hsound
      obtain ⟨st, hst, hattests⟩ := hcall.stamped env content echo hop
      have hst' := hattests record hrecord.chrononNumber_eq
      refine ⟨call, record, st, hi, hst, record, hmem, hst'.chrononNumber_eq.symm,
        hst'.contentHash_eq.symm, ?_⟩
      rw [hst'.signature_eq, hst'.signatureAlgorithm_eq, hrecord.publicKey_eq,
        verifyWith_ed25519_toList, ← call.own.public_eq, hed]
  · have hsound := hm.sound i
    rw [hi] at hsound
    exact hsound.2.2

/-- A stamp of the empty content and a daemon tick. -/
def stampAndTick : Fin 2 → Op
  | 0 => .stamp (.clear (.replicate 32 1)) [] ""
  | 1 => .daemonTick (.clear (.replicate 32 2))

/-- One call after the other: the calendar has two linked records. -/
theorem consistent_one_after_other : ∃ t : Machine .transparent 2,
    Run (Guarded (Step stampAndTick) InOrder) (init (new default default ""))
      [0, 0, 0, 0, 0, 0, 0, 0, 1, 1, 1, 1, 1, 1, 1, 1] t ∧
    t.shared.tickObserver.ticks.length = 2 := by
  have hrun : Run (Guarded (Step stampAndTick) InOrder)
      (init (new default default "") : Machine .transparent 2)
      [0, 0, 0, 0, 0, 0, 0, 0, 1, 1, 1, 1, 1, 1, 1, 1] _ :=
    .cons ⟨trivial, rfl⟩ <| .cons ⟨trivial, rfl⟩ <| .cons ⟨trivial, rfl⟩ <| .cons ⟨rfl, rfl⟩ <|
    .cons ⟨rfl, rfl⟩ <| .cons ⟨trivial, rfl⟩ <| .cons ⟨⟨fun _ ↦ rfl, fun h ↦ absurd rfl h⟩, rfl⟩ <|
    .cons ⟨.inl ⟨rfl, rfl⟩, rfl⟩ <| .cons ⟨trivial, rfl⟩ <| .cons ⟨trivial, rfl⟩ <|
    .cons ⟨rfl, rfl⟩ <| .cons ⟨trivial, rfl⟩ <|
    .cons ⟨⟨fun h ↦ absurd h (by decide), fun _ ↦ ⟨_, rfl, 0, rfl⟩⟩, rfl⟩ <|
    .cons ⟨⟨_, rfl, 0, rfl⟩, rfl⟩ <| .cons ⟨rfl, rfl⟩ <| .cons ⟨.inr ⟨_, rfl, rfl⟩, rfl⟩ <| .nil _
  refine ⟨_, hrun, (consistent_of_inOrder ed25519Exact_transparent.correct hrun ?_).2.1.2⟩
  intro i
  match i with
  | 0 => exact .inr ⟨_, _, rfl⟩
  | 1 => exact .inr ⟨_, _, rfl⟩

/-- The stamp stores its pair and pauses, the daemon tick overtakes it there: both calls return
`Ok`, but the stamp's record comes too late, and the stamp has no record to be verified against. -/
theorem overtaken_stamp : ∃ (t : Machine .transparent 2) (st : StampedForetis),
    Run (Step stampAndTick) (init (new default default ""))
      [0, 0, 0, 1, 1, 1, 1, 1, 1, 1, 1, 0, 0, 0, 0, 0] t ∧ t.AllOk ∧
    (t.calls 0).result = some st ∧ st.foretis.chrononNumber = 1 ∧
    t.shared.tickObserver.ticks.map ChrononRecord.chrononNumber = [2] := by
  have hrun : Run (Step stampAndTick) (init (new default default "") : Machine .transparent 2)
      [0, 0, 0, 1, 1, 1, 1, 1, 1, 1, 1, 0, 0, 0, 0, 0] _ :=
    .cons rfl <| .cons rfl <| .cons rfl <| .cons rfl <| .cons rfl <| .cons rfl <| .cons rfl <|
    .cons rfl <| .cons rfl <| .cons rfl <| .cons rfl <| .cons rfl <| .cons rfl <| .cons rfl <|
    .cons rfl <| .cons rfl <| .nil _
  refine ⟨_, _, hrun, ?_, rfl, by decide +kernel, by decide +kernel⟩
  intro i
  match i with
  | 0 => exact .inr ⟨_, _, rfl⟩
  | 1 => exact .inr ⟨_, _, rfl⟩

end Machine

end Chronomatter

end Foretias

import Foretias.Server.DhtLookups

/-!
# Runs of lookups

What lookups are meant to do, of every state (`LookupState.Correct`) and of every step
(`LookupState.Answers`): a lookup returns a record of its TBID, it is answered by an event of its
own key and by no other, and it leaves no entry behind. Runs in which the steps keep to
`LookupGuard` have these properties (`lookups_answered`); without it an event of one TBID answers
a lookup of another (`lookup_answeredByOther`).
-/

namespace Foretias

variable (P : Primitives) (F : PeerFormat) (J : FamilyFormat)

/-- No lookup waits. -/
def LookupState.Quiet (s : LookupState) : Prop := ∀ i q, ¬s.lookups.Waits i q

/-- The states in which a step keeps pending calls and events together. -/
def LookupGuard (s : LookupState) : LookupEvent → Prop
  -- no other call waits under the key
  | .registerLookup i => s.loop ≠ .stopped ∧
      ∀ q, s.lookups.calls i = some ⟨q, .begun⟩ → s.lookups.Free q.lookupKey
  | .registerFetch i => ∀ q, s.fetches.calls i = some ⟨q, .begun⟩ → s.fetches.Free q.fetchKey
  | .removeLookup i => ∀ q, s.lookups.calls i = some ⟨q, .expired⟩ → s.lookups.Free q.lookupKey
  -- an event took the entry out of the map in which it is left
  | .removeFetch i => ∀ q, s.fetches.calls i = some ⟨q, .expired⟩ →
      s.lookups.Free q.fetchKey ∧ ∀ k, s.fetches.entries k ≠ some i
  -- a record that makes the loop panic comes while no lookup waits
  | .peerRecord => ∀ key value rest records, s.loop = .peerRecords key (value :: rest) records →
      receivePeerRecord P F value = .error .panic → s.Quiet
  | .tbidRecord => ∀ key value rest valid, s.loop = .tbidRecords key (value :: rest) valid →
      receivePeerRecord P F value = .error .panic → s.Quiet
  -- a lookup that waits is of the key of the event, of the TBID of its first record, and is taken
  | .drain k => ∀ key valid, s.loop = .tbidRecords key [] valid → ∀ i q, s.lookups.Waits i q →
      q.lookupKey = key ∧ k = some key ∧ ∀ record ∈ valid.head?, record.tbid = q.tbidHex
  | _ => True

namespace LookupState

/-- What is meant to hold of lookups in every state. -/
structure Correct (s : LookupState) : Prop where
  /-- A lookup returns a record of its TBID. -/
  tbid_eq : ∀ i q record, s.lookups.calls i = some ⟨q, .returned (some record)⟩ →
    record.tbid = q.tbidHex
  /-- While a lookup waits, the loop treats events. -/
  attended : ∀ i q, s.lookups.Waits i q → s.loop ≠ .stopped
  /-- A lookup that has returned leaves no entry. -/
  cleared : ∀ i q result, s.lookups.calls i = some ⟨q, .returned result⟩ →
    ∀ k, s.lookups.entries k ≠ some i
  /-- Nor does a family lookup. -/
  fetch_cleared : ∀ i q result, s.fetches.calls i = some ⟨q, .returned result⟩ →
    ∀ k, s.fetches.entries k ≠ some i

/-- What is meant to hold of lookups at every step. -/
structure Answers (s : LookupState) (e : LookupEvent) (s' : LookupState) : Prop where
  /-- A lookup waits until an event of its key, or its own timeout. -/
  own : ∀ i q, s.lookups.Waits i q → s'.lookups.Waits i q ∨ e = .expireLookup i ∨
    (∃ k, e = .drain k) ∧ s.loop.key = some q.lookupKey
  /-- So does a family lookup. -/
  fetch_own : ∀ i q, s.fetches.Waits i q → s'.fetches.Waits i q ∨ e = .expireFetch i ∨
    e = .dispatch ∧ s.loop.key = some q.fetchKey
  /-- At the end of an event, all lookups of its key that were not answered are sent its first
  record. -/
  delivered : ∀ i q channel, s.lookups.calls i = some ⟨q, .waiting channel⟩ →
    (∀ result, channel ≠ .sent result) → s.loop.key = some q.lookupKey → s'.loop = .idle →
    ∃ valid, s.loop = .tbidRecords q.lookupKey [] valid ∧
      s'.lookups.calls i = some ⟨q, .waiting (.sent valid.head?)⟩
  /-- What was sent is returned. -/
  kept : ∀ i q result, s.lookups.calls i = some ⟨q, .waiting (.sent result)⟩ →
    s'.lookups.calls i = some ⟨q, .waiting (.sent result)⟩ ∨
      e = .resumeLookup i ∧ s'.lookups.calls i = some ⟨q, .returned result⟩

end LookupState

/-! ### The invariant -/

/-- The record that a call was sent or has returned. -/
def lookupRecord :
    CallPhase (Option PeerRegistrationRecord) (Option PeerRegistrationRecord) →
      Option PeerRegistrationRecord
  | .waiting (.sent result) => result
  | .returned result => result
  | _ => none

/-- A call of `lookup_tbid`. -/
abbrev LookupCall :=
  PendingCall DhtQuery (Option PeerRegistrationRecord) (Option PeerRegistrationRecord)

/-- What a call was sent names its TBID. -/
def Named (c : LookupCall) : Prop :=
  ∀ record ∈ lookupRecord c.phase, record.tbid = c.arg.tbidHex

/-- A call waits only while the loop runs. -/
def Attended (loop : GossipLoop) (c : LookupCall) : Prop :=
  c.phase = .waiting .empty → loop ≠ .stopped

/-- A call is sent a record of its TBID. -/
theorem Named.settle {c : LookupCall} {channel : Channel (Option PeerRegistrationRecord)}
    (h : Named c) (hchannel : ∀ record, channel = .sent (some record) →
      record.tbid = c.arg.tbidHex) : Named (c.settle channel) := by
  obtain ⟨-, hsettle⟩ | ⟨-, hsettle⟩ := c.settle_cases channel
  · rw [hsettle]
    intro record hrecord
    cases channel with
    | empty => cases hrecord
    | closed => cases hrecord
    | sent result =>
      obtain rfl : result = some record := hrecord
      exact hchannel record rfl
  · rwa [hsettle]

/-- To be sent something ends the wait. -/
theorem Attended.settle {loop : GossipLoop} {c : LookupCall}
    {channel : Channel (Option PeerRegistrationRecord)} (h : Attended loop c) :
    Attended loop (c.settle channel) := by
  obtain ⟨hwaits, hsettle⟩ | ⟨-, hsettle⟩ := c.settle_cases channel
  · rw [hwaits] at h
    exact fun _ ↦ h rfl
  · rwa [hsettle]

/-- What the steps of guarded runs keep. -/
structure LookupState.Invariant (s : LookupState) : Prop where
  lookups : s.lookups.Matched DhtQuery.lookupKey
  fetches : s.fetches.Matched DhtQuery.fetchKey
  index : ∀ tbid record, s.index tbid = some record → record.tbid = tbid
  named : s.lookups.All Named
  attended : s.lookups.All (Attended s.loop)
  started : s.loop ≠ .stopped → s.node.hasPeerId = true

namespace LookupState

/-- The invariant says what is meant to hold of lookups. -/
theorem Invariant.correct {s : LookupState} (h : s.Invariant) : s.Correct where
  tbid_eq _ _ _ hcall := h.named _ _ hcall _ rfl
  attended _ _ hwaits := h.attended _ _ hwaits rfl
  cleared _ _ _ hcall := h.lookups.entries_ne hcall (fun h ↦ nomatch h) fun h ↦ nomatch h
  fetch_cleared _ _ _ hcall := h.fetches.entries_ne hcall (fun h ↦ nomatch h) fun h ↦ nomatch h

theorem invariant_new : new.Invariant where
  lookups := .new
  fetches := .new
  index _ _ h := nomatch h
  named _ _ h := nomatch h
  attended _ _ h := nomatch h
  started h := absurd rfl h

/-! ### What the steps keep -/

variable {P F J} {s s' : LookupState} {e : LookupEvent}

/-- A record is treated or makes the loop panic. -/
theorem receivePeerRecord_cases (value : Bytes) :
    receivePeerRecord P F value = .error .panic ∨
      ∃ found, receivePeerRecord P F value = .ok found := by
  cases receivePeerRecord P F value with
  | ok found => exact .inr ⟨found, rfl⟩
  | error stop =>
    cases stop with
    | err e => exact nomatch e
    | panic => exact .inl rfl

/-- A record of an event of peers is passed over, unless the loop panics. -/
theorem peerRecord_cases (key value : Bytes) (rest records : List Bytes) :
    (receivePeerRecord P F value = .error .panic ∧
        s.peerRecord P F key value rest records = { s with loop := .stopped }) ∨
      s.peerRecord P F key value rest records =
        { s with loop := .peerRecords key rest records } := by
  obtain hpanic | ⟨found, hfound⟩ := receivePeerRecord_cases (P := P) (F := F) value
  · exact .inl ⟨hpanic, by simp only [peerRecord, hpanic]⟩
  · right
    simp only [peerRecord, hfound]

/-- A record of an event of a TBID is passed over or indexed, unless the loop panics. -/
theorem tbidRecord_cases (key value : Bytes) (rest : List Bytes)
    (valid : List PeerRegistrationRecord) :
    (receivePeerRecord P F value = .error .panic ∧
        s.tbidRecord P F key value rest valid = { s with loop := .stopped }) ∨
      s.tbidRecord P F key value rest valid = { s with loop := .tbidRecords key rest valid } ∨
      ∃ record, s.tbidRecord P F key value rest valid =
        { s with
          loop := .tbidRecords key rest (valid ++ [record])
          index := s.index.insert record } := by
  obtain hpanic | ⟨found, hfound⟩ := receivePeerRecord_cases (P := P) (F := F) value
  · exact .inl ⟨hpanic, by simp only [tbidRecord, hpanic]⟩
  · cases found with
    | none =>
      refine .inr (.inl ?_)
      simp only [tbidRecord, hfound]
    | some record =>
      refine .inr (.inr ⟨record, ?_⟩)
      simp only [tbidRecord, hfound]

/-- A family lookup returns without a change of the cache. -/
theorem exists_resumeFetch_eq (i : ℕ) (q : DhtQuery) (sent : Option Bytes) :
    ∃ result, s.resumeFetch P J i q sent =
      { s with fetches := s.fetches.setPhase i q (.returned result) } := by
  cases sent with
  | none => exact ⟨_, rfl⟩
  | some record =>
    obtain hreceive | hreceive :=
      @FamilyNode.receiveFamilyRecord_cases P J s.node q.tbidHex record
    · refine ⟨.ok none, ?_⟩
      simp only [resumeFetch, hreceive]
    · refine ⟨.error .panic, ?_⟩
      simp only [resumeFetch, hreceive]

/-- What the index answers is of the TBID asked for. -/
theorem named_beginLookup (h : s.Invariant) (q : DhtQuery) : Named ⟨q, s.beginLookup q⟩ := by
  intro record hrecord
  dsimp only at hrecord
  rw [beginLookup] at hrecord
  cases hindex : s.index q.tbidHex with
  | some cached =>
    rw [hindex] at hrecord
    obtain rfl := Option.some.inj (show some cached = some record from hrecord)
    exact h.index _ _ hindex
  | none =>
    rw [hindex] at hrecord
    dsimp only at hrecord
    split at hrecord
    · cases hrecord
    · cases hrecord

/-- A call that has only read the index does not wait. -/
theorem beginLookup_ne_waiting (q : DhtQuery) (channel : Channel (Option PeerRegistrationRecord)) :
    s.beginLookup q ≠ .waiting channel := by
  rw [beginLookup]
  cases s.index q.tbidHex with
  | some cached => exact fun h ↦ nomatch h
  | none =>
    dsimp only
    split
    · exact fun h ↦ nomatch h
    · exact fun h ↦ nomatch h

/-- Nor does one that has only read the cache. -/
theorem beginFetch_ne_waiting (q : DhtQuery) (channel : Channel (Option Bytes)) :
    s.beginFetch q ≠ .waiting channel := by
  rw [beginFetch]
  cases s.node.familyCache q.tbidHex with
  | some cached => exact fun h ↦ nomatch h
  | none =>
    dsimp only
    split
    · exact fun h ↦ nomatch h
    · exact fun h ↦ nomatch h

/-- After the loop has taken an entry, no lookup waits: one that did was sent a record. -/
theorem not_waits_of_drain (h : s.Invariant) {key k : Bytes}
    {valid : List PeerRegistrationRecord} (hguard : LookupGuard P F s (.drain (some k)))
    (hloop : s.loop = .tbidRecords key [] valid) (j : ℕ) (q : DhtQuery) :
    ¬(s.lookups.take k (.sent valid.head?)).Waits j q := by
  intro hwaits
  have hsent : Channel.sent valid.head? ≠ .empty := fun h ↦ nomatch h
  obtain ⟨hbefore, hne⟩ := (PendingCalls.waits_take hsent).1 hwaits
  obtain ⟨rfl, hk, -⟩ := hguard key valid hloop j q hbefore
  obtain rfl := Option.some.inj hk
  exact hne (h.lookups.entry_of_waits hbefore)

/-- The conditions on lookups survive that an entry is taken without a record. -/
theorem Invariant.take_closed (h : s.Invariant) {k : Bytes} (hfree : s.lookups.Free k) :
    { s with lookups := s.lookups.take k .closed }.Invariant :=
  { h with
    lookups := h.lookups.take (fun h ↦ nomatch h) fun _ ↦ hfree
    named := h.named.take fun i c _ hcall ↦ (h.named i c hcall).settle fun _ h ↦ nomatch h
    attended := h.attended.take fun i c _ hcall ↦ (h.attended i c hcall).settle }

/-- A lookup may move to a phase in which it does not wait. -/
theorem Invariant.setLookup (h : s.Invariant) {i : ℕ} {q : DhtQuery}
    {phase : CallPhase (Option PeerRegistrationRecord) (Option PeerRegistrationRecord)}
    (hmatched : (s.lookups.setPhase i q phase).Matched DhtQuery.lookupKey)
    (hnamed : Named ⟨q, phase⟩) (hphase : phase ≠ .waiting .empty) :
    { s with lookups := s.lookups.setPhase i q phase }.Invariant :=
  { h with
    lookups := hmatched
    named := h.named.setPhase hnamed
    attended := h.attended.setPhase fun hwaiting ↦ absurd hwaiting hphase }

/-- A call of `lookup_tbid` registers. -/
theorem Invariant.registerLookup (h : s.Invariant) {i : ℕ} {q : DhtQuery}
    (hcall : s.lookups.calls i = some ⟨q, .begun⟩) (hrunning : s.loop ≠ .stopped)
    (hfree : s.lookups.Free q.lookupKey) :
    { s with lookups := s.lookups.register DhtQuery.lookupKey i q }.Invariant :=
  { h with
    lookups := h.lookups.register hcall hfree
    named := h.named.register (fun _ h ↦ nomatch h) fun hc ↦ hc.settle fun _ h ↦ nomatch h
    attended := h.attended.register (fun _ ↦ hrunning) Attended.settle }

/-- The loop answers a lookup and drops the other entries, of which none is of one that waits. -/
theorem Invariant.drain (h : s.Invariant) {key k : Bytes} {valid : List PeerRegistrationRecord}
    (hguard : LookupGuard P F s (.drain (some k))) (hloop : s.loop = .tbidRecords key [] valid) :
    { s with
      loop := .idle
      lookups :=
        (s.lookups.take k (.sent valid.head?)).clear DhtQuery.lookupKey }.Invariant := by
  have htake : (s.lookups.take k (.sent valid.head?)).Matched DhtQuery.lookupKey :=
    h.lookups.take (fun h ↦ nomatch h) fun h ↦ nomatch h
  have hnamed : (s.lookups.take k (.sent valid.head?)).All Named := by
    refine h.named.take fun j c hentry hcall ↦ ?_
    obtain ⟨hc, hsettle⟩ | ⟨-, hsettle⟩ := c.settle_cases (.sent valid.head?)
    · rw [hc] at hcall
      obtain ⟨-, -, htbid⟩ := hguard key valid hloop j c.arg hcall
      rw [hsettle]
      exact htbid
    · rw [hsettle]
      exact h.named j c hcall
  exact { h with
    lookups := htake.clear (not_waits_of_drain h hguard hloop)
    named := hnamed.clear fun hc ↦ hc.settle fun _ h ↦ nomatch h
    attended := fun _ _ _ _ h ↦ nomatch h
    started := fun _ ↦ h.started (by rw [hloop]; exact fun h ↦ nomatch h) }

/-- The loop may move on, to its end only while no lookup waits. -/
theorem Invariant.setLoop (h : s.Invariant) {loop : GossipLoop} (hrunning : s.loop ≠ .stopped)
    (hloop : loop = .stopped → s.Quiet) : { s with loop }.Invariant :=
  { h with
    attended := fun i c hcall hphase hstopped ↦
      hloop hstopped i c.arg (hcall.trans (by rw [← hphase]))
    started := fun _ ↦ h.started hrunning }

/-- A record may be written under the TBID it names. -/
theorem Invariant.insert (h : s.Invariant) (record : PeerRegistrationRecord) :
    { s with index := s.index.insert record }.Invariant := by
  refine { h with index := fun tbid found hfound ↦ ?_ }
  dsimp only at hfound
  rw [TbidIndex.insert, Function.update_apply] at hfound
  split at hfound
  · next htbid =>
    obtain rfl := Option.some.inj hfound
    exact htbid.symm
  · exact h.index tbid found hfound

/-- A call of `lookup_tbid` whose time is up removes the entry under its key, and returns. -/
theorem Invariant.removeLookup (h : s.Invariant) {i : ℕ} {q : DhtQuery}
    (hcall : s.lookups.calls i = some ⟨q, .expired⟩) (hfree : s.lookups.Free q.lookupKey) :
    { s with
      lookups :=
        (s.lookups.take q.lookupKey .closed).setPhase i q (.returned none) }.Invariant := by
  have htake := h.take_closed hfree
  have hentry : ∀ k, (s.lookups.take q.lookupKey .closed).entries k ≠ some i := by
    intro k hk
    rw [PendingCalls.entries_take, Function.update_apply] at hk
    split at hk
    · cases hk
    · next hne => exact hne (h.lookups.key_eq hk hcall).symm
  exact htake.setLookup (htake.lookups.finish hentry none) (fun _ h ↦ nomatch h)
    fun h ↦ nomatch h

/-- A family lookup under the key of an event is sent its first value. -/
theorem Invariant.dispatch (h : s.Invariant) {key : Bytes} (records : List Bytes)
    (hrunning : s.loop ≠ .stopped) : (s.dispatch key records).Invariant := by
  have hnext : (if IsTbidKey key then GossipLoop.tbidRecords key records [] else .idle) ≠
      .stopped := by
    split
    · exact fun h ↦ nomatch h
    · exact fun h ↦ nomatch h
  refine { h.setLoop hrunning fun hstopped ↦ absurd hstopped hnext with fetches := ?_ }
  show (if _ then s.fetches.take key _ else s.fetches).Matched _
  split
  · exact h.fetches.take (fun h ↦ nomatch h) fun h ↦ nomatch h
  · exact h.fetches

/-- A step of a guarded run keeps the invariant. -/
theorem Invariant.step (h : s.Invariant) (hguard : LookupGuard P F s e)
    (hstep : LookupStep P F J s e s') : s'.Invariant := by
  cases hstep with
  | enableP2p hnew =>
    exact { h with
      attended := fun _ _ _ _ h ↦ nomatch h
      started := fun _ ↦ rfl }
  | @beginLookup i q hnew =>
    refine h.setLookup (h.lookups.setPhase ?_ ?_ ?_) (named_beginLookup h q)
      (beginLookup_ne_waiting q _)
    · exact fun k hk ↦ absurd hk (h.lookups.entries_ne_of_none hnew k)
    · exact beginLookup_ne_waiting q _
    · exact beginLookup_ne_waiting q _
  | @registerLookup i q hcall => exact h.registerLookup hcall hguard.1 (hguard.2 q hcall)
  | @resumeLookup i q result hcall =>
    have hentry := h.lookups.entries_ne hcall (fun h ↦ nomatch h) fun h ↦ nomatch h
    have hnamed : Named ⟨q, .waiting (.sent result)⟩ := h.named i _ hcall
    exact h.setLookup (h.lookups.finish hentry result) hnamed fun h ↦ nomatch h
  | closedLookup hcall => exact absurd hcall (h.lookups.not_closed _ _)
  | expireLookup hwaits =>
    exact h.setLookup (h.lookups.expire hwaits) (fun _ h ↦ nomatch h) fun h ↦ nomatch h
  | @removeLookup i q hcall => exact h.removeLookup hcall (hguard q hcall)
  | @beginFetch i q hnew =>
    refine { h with fetches := h.fetches.setPhase ?_ ?_ ?_ }
    · exact fun k hk ↦ absurd hk (h.fetches.entries_ne_of_none hnew k)
    · exact beginFetch_ne_waiting q _
    · exact beginFetch_ne_waiting q _
  | @registerFetch i q hcall =>
    exact { h with fetches := h.fetches.register hcall (hguard q hcall) }
  | @resumeFetch i q sent hcall =>
    obtain ⟨result, hresult⟩ := exists_resumeFetch_eq (P := P) (J := J) (s := s) i q sent
    rw [hresult]
    have hentry := h.fetches.entries_ne hcall (fun h ↦ nomatch h) fun h ↦ nomatch h
    exact { h with fetches := h.fetches.finish hentry result }
  | closedFetch hcall => exact absurd hcall (h.fetches.not_closed _ _)
  | expireFetch hwaits => exact { h with fetches := h.fetches.expire hwaits }
  | @removeFetch i q hcall =>
    obtain ⟨hfree, hentry⟩ := hguard q hcall
    exact { h.take_closed hfree with fetches := h.fetches.finish hentry (.ok none) }
  | receive hidle =>
    exact h.setLoop (by rw [hidle]; exact fun h ↦ nomatch h) fun h ↦ nomatch h
  | @peerRecord key value rest records hloop =>
    have hrunning : s.loop ≠ .stopped := by
      rw [hloop]
      exact fun h ↦ nomatch h
    obtain ⟨hpanic, heq⟩ | heq := peerRecord_cases (P := P) (F := F) (s := s) key value rest records
    · rw [heq]
      exact h.setLoop hrunning fun _ ↦ hguard key value rest records hloop hpanic
    · rw [heq]
      exact h.setLoop hrunning fun h ↦ nomatch h
  | @dispatch key records hloop =>
    exact h.dispatch records (by rw [hloop]; exact fun h ↦ nomatch h)
  | @tbidRecord key value rest valid hloop =>
    have hrunning : s.loop ≠ .stopped := by
      rw [hloop]
      exact fun h ↦ nomatch h
    obtain ⟨hpanic, heq⟩ | heq | ⟨record, heq⟩ :=
      tbidRecord_cases (P := P) (F := F) (s := s) key value rest valid
    · rw [heq]
      exact h.setLoop hrunning fun _ ↦ hguard key value rest valid hloop hpanic
    · rw [heq]
      exact h.setLoop hrunning fun h ↦ nomatch h
    · rw [heq]
      exact (h.insert record).setLoop hrunning fun h ↦ nomatch h
  | drain hloop hentry => exact h.drain hguard hloop
  | drainNone hloop hnone =>
    exact h.setLoop (by rw [hloop]; exact fun h ↦ nomatch h) fun h ↦ nomatch h

/-! ### What the steps answer -/

/-- A lookup that waits is left alone, but for its own timeout and the events of its key. -/
theorem Invariant.own (h : s.Invariant) (hguard : LookupGuard P F s e)
    (hstep : LookupStep P F J s e s') {j : ℕ} {q : DhtQuery} (hwaits : s.lookups.Waits j q) :
    s'.lookups.Waits j q ∨ e = .expireLookup j ∨
      (∃ k, e = .drain k) ∧ s.loop.key = some q.lookupKey := by
  have hclosed : (Channel.closed : Channel (Option PeerRegistrationRecord)) ≠ .empty :=
    fun h ↦ nomatch h
  cases hstep with
  | beginLookup hnew =>
    have hne := PendingCalls.ne_of_none hwaits hnew
    exact .inl ((PendingCalls.waits_setPhase_of_ne hne).2 hwaits)
  | @registerLookup i q' hcall =>
    have hne := PendingCalls.ne_of_phase_ne hwaits hcall fun h ↦ nomatch h
    exact .inl (PendingCalls.waits_register hwaits hne (hguard.2 q' hcall))
  | resumeLookup hcall =>
    have hne := PendingCalls.ne_of_phase_ne hwaits hcall fun h ↦ nomatch h
    exact .inl ((PendingCalls.waits_setPhase_of_ne hne).2 hwaits)
  | closedLookup hcall => exact absurd hcall (h.lookups.not_closed _ _)
  | @expireLookup i q' hwaits' =>
    by_cases hne : j = i
    · subst hne
      exact .inr (.inl rfl)
    · exact .inl ((PendingCalls.waits_setPhase_of_ne hne).2 hwaits)
  | @removeLookup i q' hcall =>
    have hne := PendingCalls.ne_of_phase_ne hwaits hcall fun h ↦ nomatch h
    exact .inl ((PendingCalls.waits_setPhase_of_ne hne).2 ((PendingCalls.waits_take hclosed).2
      ⟨hwaits, fun hentry ↦ hguard q' hcall j q hentry hwaits⟩))
  | @removeFetch i q' hcall =>
    exact .inl ((PendingCalls.waits_take hclosed).2
      ⟨hwaits, fun hentry ↦ (hguard q' hcall).1 j q hentry hwaits⟩)
  | resumeFetch hcall =>
    rw [lookups_resumeFetch]
    exact .inl hwaits
  | peerRecord hloop =>
    rw [lookups_peerRecord]
    exact .inl hwaits
  | tbidRecord hloop =>
    rw [lookups_tbidRecord]
    exact .inl hwaits
  | @drain key k valid i hloop hentry =>
    obtain ⟨hkey, -, -⟩ := hguard key valid hloop j q hwaits
    rw [hloop, hkey]
    exact .inr (.inr ⟨⟨_, rfl⟩, rfl⟩)
  | _ => exact .inl hwaits

/-- So is a family lookup. -/
theorem Invariant.fetch_own (h : s.Invariant) (hguard : LookupGuard P F s e)
    (hstep : LookupStep P F J s e s') {j : ℕ} {q : DhtQuery} (hwaits : s.fetches.Waits j q) :
    s'.fetches.Waits j q ∨ e = .expireFetch j ∨
      e = .dispatch ∧ s.loop.key = some q.fetchKey := by
  cases hstep with
  | beginFetch hnew =>
    have hne := PendingCalls.ne_of_none hwaits hnew
    exact .inl ((PendingCalls.waits_setPhase_of_ne hne).2 hwaits)
  | @registerFetch i q' hcall =>
    have hne := PendingCalls.ne_of_phase_ne hwaits hcall fun h ↦ nomatch h
    exact .inl (PendingCalls.waits_register hwaits hne (hguard q' hcall))
  | @resumeFetch i q' sent hcall =>
    have hne := PendingCalls.ne_of_phase_ne hwaits hcall fun h ↦ nomatch h
    obtain ⟨result, hresult⟩ := exists_resumeFetch_eq (P := P) (J := J) (s := s) i q' sent
    rw [hresult]
    exact .inl ((PendingCalls.waits_setPhase_of_ne hne).2 hwaits)
  | closedFetch hcall => exact absurd hcall (h.fetches.not_closed _ _)
  | @expireFetch i q' hwaits' =>
    by_cases hne : j = i
    · subst hne
      exact .inr (.inl rfl)
    · exact .inl ((PendingCalls.waits_setPhase_of_ne hne).2 hwaits)
  | removeFetch hcall =>
    have hne := PendingCalls.ne_of_phase_ne hwaits hcall fun h ↦ nomatch h
    exact .inl ((PendingCalls.waits_setPhase_of_ne hne).2 hwaits)
  | peerRecord hloop =>
    rw [fetches_peerRecord]
    exact .inl hwaits
  | @dispatch key records hloop =>
    by_cases hentry : s.fetches.entries key = some j
    · have hkey := h.fetches.key_eq hentry hwaits
      rw [hloop]
      exact .inr (.inr ⟨rfl, congrArg some hkey.symm⟩)
    · have hsent : Channel.sent records.head? ≠ .empty := fun h ↦ nomatch h
      left
      show (if _ then s.fetches.take key _ else s.fetches).Waits j q
      split
      · exact (PendingCalls.waits_take hsent).2 ⟨hwaits, hentry⟩
      · exact hwaits
  | tbidRecord hloop =>
    rw [fetches_tbidRecord]
    exact .inl hwaits
  | _ => exact .inl hwaits

/-- A call that was sent a result keeps it until it returns it. -/
theorem kept (hstep : LookupStep P F J s e s') {j : ℕ} {q : DhtQuery}
    {result : Option PeerRegistrationRecord}
    (hcall : s.lookups.calls j = some ⟨q, .waiting (.sent result)⟩) :
    s'.lookups.calls j = some ⟨q, .waiting (.sent result)⟩ ∨
      e = .resumeLookup j ∧ s'.lookups.calls j = some ⟨q, .returned result⟩ := by
  have hphase : CallPhase.waiting (.sent result) ≠
    (.waiting .empty : CallPhase _ (Option PeerRegistrationRecord)) := fun h ↦ nomatch h
  cases hstep with
  | beginLookup hnew =>
    have hne := PendingCalls.ne_of_none hcall hnew
    exact .inl ((PendingCalls.calls_setPhase_of_ne hne).trans hcall)
  | registerLookup hbegun =>
    have hne := PendingCalls.ne_of_phase_ne hcall hbegun fun h ↦ nomatch h
    exact .inl (PendingCalls.calls_register_of_not_waiting hcall hphase hne)
  | @resumeLookup i q' result' hsent =>
    by_cases hne : j = i
    · subst hne
      obtain ⟨rfl, hresult⟩ := PendingCall.mk.inj (Option.some.inj (hcall.symm.trans hsent))
      obtain rfl := Channel.sent.inj (CallPhase.waiting.inj hresult)
      exact .inr ⟨rfl, PendingCalls.calls_setPhase_self⟩
    · exact .inl ((PendingCalls.calls_setPhase_of_ne hne).trans hcall)
  | closedLookup hclosed =>
    have hne := PendingCalls.ne_of_phase_ne hcall hclosed fun h ↦ nomatch h
    exact .inl ((PendingCalls.calls_setPhase_of_ne hne).trans hcall)
  | expireLookup hwaits =>
    have hne := PendingCalls.ne_of_phase_ne hcall hwaits fun h ↦ nomatch h
    exact .inl ((PendingCalls.calls_setPhase_of_ne hne).trans hcall)
  | removeLookup hexpired =>
    have hne := PendingCalls.ne_of_phase_ne hcall hexpired fun h ↦ nomatch h
    exact .inl ((PendingCalls.calls_setPhase_of_ne hne).trans
      (PendingCalls.calls_take_of_not_waiting hcall hphase))
  | removeFetch hexpired => exact .inl (PendingCalls.calls_take_of_not_waiting hcall hphase)
  | resumeFetch hsent =>
    rw [lookups_resumeFetch]
    exact .inl hcall
  | peerRecord hloop =>
    rw [lookups_peerRecord]
    exact .inl hcall
  | tbidRecord hloop =>
    rw [lookups_tbidRecord]
    exact .inl hcall
  | drain hloop hentry =>
    exact .inl (PendingCalls.calls_clear_of_not_waiting
      (PendingCalls.calls_take_of_not_waiting hcall hphase) hphase)
  | _ => exact .inl hcall

/-- At the end of an event, a lookup of its key that waits is sent its first record. -/
theorem Invariant.delivered (h : s.Invariant) (hguard : LookupGuard P F s e)
    (hstep : LookupStep P F J s e s') {j : ℕ} {q : DhtQuery} (hwaits : s.lookups.Waits j q)
    (hkey : s.loop.key = some q.lookupKey) (hidle : s'.loop = .idle) :
    ∃ valid, s.loop = .tbidRecords q.lookupKey [] valid ∧
      s'.lookups.calls j = some ⟨q, .waiting (.sent valid.head?)⟩ := by
  cases hstep with
  | enableP2p hnew =>
    cases hnew.symm.trans (h.started (h.attended j _ hwaits rfl))
  | resumeFetch hsent =>
    obtain ⟨result, hresult⟩ := exists_resumeFetch_eq (P := P) (J := J) (s := s) _ _ _
    rw [hresult] at hidle
    rw [show s.loop = .idle from hidle] at hkey
    cases hkey
  | @peerRecord key value rest records hloop =>
    obtain ⟨-, heq⟩ | heq := peerRecord_cases (P := P) (F := F) (s := s) key value rest records
    · rw [heq] at hidle
      cases hidle
    · rw [heq] at hidle
      cases hidle
  | @dispatch key records hloop =>
    rw [hloop] at hkey
    obtain rfl := Option.some.inj (show some key = some q.lookupKey from hkey)
    have htbid : IsTbidKey q.lookupKey := isTbidKey_tbidKey _ _
    rw [LookupState.dispatch] at hidle
    dsimp only at hidle
    rw [if_pos htbid] at hidle
    cases hidle
  | @tbidRecord key value rest valid hloop =>
    obtain ⟨-, heq⟩ | heq | ⟨record, heq⟩ :=
      tbidRecord_cases (P := P) (F := F) (s := s) key value rest valid
    · rw [heq] at hidle
      cases hidle
    · rw [heq] at hidle
      cases hidle
    · rw [heq] at hidle
      cases hidle
  | @drain key k valid i hloop hentry =>
    obtain ⟨rfl, hk, -⟩ := hguard key valid hloop j q hwaits
    obtain rfl := Option.some.inj hk
    exact ⟨valid, hloop, PendingCalls.calls_clear_of_not_waiting
      (PendingCalls.calls_take_of_waits hwaits (h.lookups.entry_of_waits hwaits))
      fun h ↦ nomatch h⟩
  | drainNone hloop hnone => cases (hnone _).symm.trans (h.lookups.entry_of_waits hwaits)
  | receive hloop => cases hidle
  | _ =>
    rw [show s.loop = .idle from hidle] at hkey
    cases hkey

/-- A guarded step from a state with the invariant does what is meant. -/
theorem Invariant.answers (h : s.Invariant) (hguard : LookupGuard P F s e)
    (hstep : LookupStep P F J s e s') : s.Answers e s' where
  own _ _ hwaits := h.own hguard hstep hwaits
  fetch_own _ _ hwaits := h.fetch_own hguard hstep hwaits
  delivered i q channel hcall hunsent hkey hidle := by
    cases channel with
    | empty => exact h.delivered hguard hstep hcall hkey hidle
    | sent result => exact absurd rfl (hunsent result)
    | closed => exact absurd hcall (h.lookups.not_closed i q)
  kept _ _ _ hcall := kept hstep hcall

/-- The states of guarded runs have the invariant. -/
theorem invariant_of_run {events : List LookupEvent}
    (hrun : Run (Guarded (LookupStep P F J) (LookupGuard P F)) new events s) : s.Invariant :=
  hrun.invariant (fun h hstep ↦ h.step hstep.1 hstep.2) invariant_new

end LookupState

variable {P F J}

/-- In a run whose steps keep to the guard, lookups are correct in the state reached, and every
step that keeps to it answers them. -/
theorem lookups_answered {events : List LookupEvent} {s : LookupState}
    (hrun : Run (Guarded (LookupStep P F J) (LookupGuard P F)) .new events s) :
    s.Correct ∧ ∀ e s', LookupGuard P F s e → LookupStep P F J s e s' → s.Answers e s' := by
  have hinvariant := LookupState.invariant_of_run hrun
  exact ⟨hinvariant.correct, fun e s' hguard hstep ↦ hinvariant.answers hguard hstep⟩

/-! ### One event -/

/-- The loop treats an event of one record that is accepted, up to the pending lookups. -/
theorem exists_acceptedEvent {s : LookupState} {key value : Bytes} {record : PeerRegistrationRecord}
    (hidle : s.loop = .idle) (hkey : IsTbidKey key) (hpeers : ¬KeyEndsWith key "/peers/v1")
    (hreceive : receivePeerRecord P F value = .ok (some record)) :
    ∃ s', Run (Guarded (LookupStep P F J) (LookupGuard P F)) s
        [.receive key [value], .dispatch, .tbidRecord] s' ∧
      s'.loop = .tbidRecords key [] [record] ∧ s'.lookups = s.lookups ∧ s'.node = s.node ∧
      s'.index = s.index.insert record := by
  have hreceived : LookupStep P F J s (.receive key [value])
      { s with loop := .peerRecords key [] [value] } := by
    have hstep : LookupStep P F J s (.receive key [value]) _ := .receive hidle
    rwa [if_neg hpeers] at hstep
  have hdispatch : LookupStep P F J { s with loop := .peerRecords key [] [value] } .dispatch
      { s with
        loop := .tbidRecords key [value] []
        fetches := (s.dispatch key [value]).fetches } := by
    have hstep : LookupStep P F J { s with loop := .peerRecords key [] [value] } .dispatch _ :=
      .dispatch rfl
    rwa [LookupState.dispatch, if_pos hkey] at hstep
  have htbid : LookupStep P F J
      { s with
        loop := .tbidRecords key [value] []
        fetches := (s.dispatch key [value]).fetches } .tbidRecord
      { s with
        loop := .tbidRecords key [] [record]
        index := s.index.insert record
        fetches := (s.dispatch key [value]).fetches } := by
    have hstep : LookupStep P F J
        { s with
          loop := .tbidRecords key [value] []
          fetches := (s.dispatch key [value]).fetches } .tbidRecord _ := .tbidRecord rfl
    simp only [LookupState.tbidRecord, hreceive] at hstep
    exact hstep
  refine ⟨_, .cons ⟨trivial, hreceived⟩ (.cons ⟨trivial, hdispatch⟩
    (.cons ⟨?_, htbid⟩ (.nil _))), rfl, rfl, rfl, rfl⟩
  intro key' value' rest valid hloop hpanic
  obtain ⟨-, hvalues, -⟩ := GossipLoop.tbidRecords.inj hloop
  rw [← (List.cons.inj hvalues).1, hreceive] at hpanic
  cases hpanic

/-- A lookup that is sent a record keeps it when the pending entry is cleared. -/
theorem calls_clear_take {lookups : PendingCalls DhtQuery Bytes (Option PeerRegistrationRecord)
    (Option PeerRegistrationRecord)} {record : PeerRegistrationRecord} {i : ℕ} {q : DhtQuery}
    (hwaits : lookups.Waits i q) (hentry : lookups.entries q.lookupKey = some i) :
    ((lookups.take q.lookupKey (.sent (some record))).clear DhtQuery.lookupKey).calls i =
      some ⟨q, .waiting (.sent (some record))⟩ := by
  refine PendingCalls.calls_clear_of_not_waiting
    (PendingCalls.calls_take_of_waits hwaits hentry) fun h ↦ ?_
  cases h

/-- At the end of an event, whatever its key, any lookup that waits may be sent its record. -/
theorem exists_drain {s : LookupState} {key : Bytes} {record : PeerRegistrationRecord} {i : ℕ}
    {q : DhtQuery} (hloop : s.loop = .tbidRecords key [] [record]) (hwaits : s.lookups.Waits i q)
    (hentry : s.lookups.entries q.lookupKey = some i) :
    ∃ s₁ s₂, LookupStep P F J s (.drain (some q.lookupKey)) s₁ ∧
      LookupStep P F J s₁ (.resumeLookup i) s₂ ∧
      s₂.lookups.calls i = some ⟨q, .returned (some record)⟩ := by
  exact ⟨_, _, .drain hloop hentry, .resumeLookup (calls_clear_take hwaits hentry),
    PendingCalls.calls_setPhase_self⟩

/-- Where nothing waits, a new lookup registers, and waits alone. -/
theorem exists_registered {s : LookupState} {i : ℕ} {q : DhtQuery} (hidle : s.loop = .idle)
    (hconnected : s.node.connected = true) (hquiet : s.Quiet) (hnew : s.lookups.calls i = none)
    (hindex : s.index q.tbidHex = none) :
    ∃ lookups, Run (Guarded (LookupStep P F J) (LookupGuard P F)) s
        [.beginLookup i q, .registerLookup i] { s with lookups } ∧
      lookups.Waits i q ∧ ∀ j ≠ i, lookups.calls j = s.lookups.calls j := by
  set begun := s.lookups.setPhase i q .begun
  have hbegin : LookupStep P F J s (.beginLookup i q) { s with lookups := begun } := by
    have hstep : LookupStep P F J s (.beginLookup i q) _ := .beginLookup hnew
    rwa [LookupState.beginLookup, hindex, hconnected] at hstep
  have hothers : ∀ j ≠ i, begun.calls j = s.lookups.calls j :=
    fun _ hj ↦ PendingCalls.calls_setPhase_of_ne hj
  have hnone : ∀ j arg, ¬begun.Waits j arg := by
    intro j arg hwaits
    by_cases hj : j = i
    · subst hj
      cases PendingCalls.calls_setPhase_self.symm.trans hwaits
    · exact hquiet j arg ((hothers j hj).symm.trans hwaits)
  have hguard : LookupGuard P F { s with lookups := begun } (.registerLookup i) := by
    refine ⟨fun hstopped ↦ ?_, fun _ _ j arg _ ↦ hnone j arg⟩
    cases hidle.symm.trans hstopped
  refine ⟨begun.register DhtQuery.lookupKey i q, .cons ⟨trivial, hbegin⟩ (.cons
    ⟨hguard, .registerLookup PendingCalls.calls_setPhase_self⟩ (.nil _)),
    PendingCalls.calls_register_self, fun j hj ↦ ?_⟩
  rw [PendingCalls.calls_register_of_ne hj, PendingCalls.calls_take_of_not_waits (hnone j),
    hothers j hj]

/-- At the end of the event that it asked for, a lookup that waits alone returns the event's
record. -/
theorem exists_drainAlone {s : LookupState} {i : ℕ} {q : DhtQuery}
    {record : PeerRegistrationRecord} (hloop : s.loop = .tbidRecords q.lookupKey [] [record])
    (hentry : s.lookups.entries q.lookupKey = some i) (hwaits : s.lookups.Waits i q)
    (halone : ∀ j arg, s.lookups.Waits j arg → j = i) (htbid : record.tbid = q.tbidHex) :
    ∃ lookups, Run (Guarded (LookupStep P F J) (LookupGuard P F)) s
        [.drain (some q.lookupKey), .resumeLookup i] { s with loop := .idle, lookups } ∧
      lookups.calls i = some ⟨q, .returned (some record)⟩ ∧
      ∀ j ≠ i, lookups.calls j = s.lookups.calls j := by
  set drained := (s.lookups.take q.lookupKey (.sent (some record))).clear DhtQuery.lookupKey
  have hsent : drained.calls i = some ⟨q, .waiting (.sent (some record))⟩ :=
    calls_clear_take hwaits hentry
  have hguard : LookupGuard P F s (.drain (some q.lookupKey)) := by
    intro key valid hrecords j arg hj
    obtain ⟨rfl, -, rfl⟩ := GossipLoop.tbidRecords.inj (hloop.symm.trans hrecords)
    obtain rfl := halone j arg hj
    obtain rfl : q = arg := congrArg PendingCall.arg (Option.some.inj (hwaits.symm.trans hj))
    refine ⟨rfl, rfl, fun found hfound ↦ ?_⟩
    obtain rfl : record = found := Option.some.inj hfound
    exact htbid
  have hdrain : LookupStep P F J s (.drain (some q.lookupKey))
      { s with loop := .idle, lookups := drained } := .drain hloop hentry
  refine ⟨_, .cons ⟨hguard, hdrain⟩ (.cons ⟨trivial, .resumeLookup hsent⟩ (.nil _)),
    PendingCalls.calls_setPhase_self, fun j hj ↦ ?_⟩
  have hidle : ∀ arg, ¬s.lookups.Waits j arg := fun arg hwaits ↦ hj (halone j arg hwaits)
  have htake : (s.lookups.take q.lookupKey (.sent (some record))).calls j = s.lookups.calls j :=
    PendingCalls.calls_take_of_not_waits hidle
  rw [PendingCalls.calls_setPhase_of_ne hj, PendingCalls.calls_clear_of_not_waits, htake]
  exact fun arg hwaits ↦ hidle arg (htake.symm.trans hwaits)

/-- The steps of a lookup and of the event that answers it. -/
def lookupEvents (i : ℕ) (q : DhtQuery) (value : Bytes) : List LookupEvent :=
  [.beginLookup i q, .registerLookup i, .receive q.lookupKey [value], .dispatch, .tbidRecord,
    .drain (some q.lookupKey), .resumeLookup i]

/-- A lookup that waits alone returns the record of its event, and leaves the other calls alone. -/
theorem exists_lookupAnswered {s : LookupState} {i : ℕ} {q : DhtQuery} {value : Bytes}
    {record : PeerRegistrationRecord} (h : s.Invariant) (hidle : s.loop = .idle)
    (hconnected : s.node.connected = true) (hquiet : s.Quiet) (hnew : s.lookups.calls i = none)
    (hindex : s.index q.tbidHex = none) (hpeers : ¬KeyEndsWith q.lookupKey "/peers/v1")
    (hreceive : receivePeerRecord P F value = .ok (some record))
    (htbid : record.tbid = q.tbidHex) :
    ∃ s', Run (Guarded (LookupStep P F J) (LookupGuard P F)) s (lookupEvents i q value) s' ∧
      s'.loop = .idle ∧ s'.node = s.node ∧ s'.Quiet ∧ s'.index = s.index.insert record ∧
      s'.lookups.calls i = some ⟨q, .returned (some record)⟩ ∧
      ∀ j ≠ i, s'.lookups.calls j = s.lookups.calls j := by
  obtain ⟨waiting, hregister, hwaiting, hwaitingOthers⟩ :=
    exists_registered (P := P) (F := F) (J := J) hidle hconnected hquiet hnew hindex
  obtain ⟨u, hevent, hloop, hlookups, hnode, hinsert⟩ := exists_acceptedEvent (P := P) (F := F)
    (J := J) (s := { s with lookups := waiting }) hidle (isTbidKey_tbidKey _ _) hpeers hreceive
  have hprefix := Run.append_iff.2 ⟨_, hregister, hevent⟩
  have hwaits : u.lookups.Waits i q := hlookups ▸ hwaiting
  have hentry : u.lookups.entries q.lookupKey = some i := by
    have hinvariant := hprefix.invariant (fun h hstep ↦ h.step hstep.1 hstep.2) h
    exact hinvariant.lookups.entry_of_waits hwaits
  have halone : ∀ j arg, u.lookups.Waits j arg → j = i := by
    intro j arg hj
    by_contra hne
    rw [hlookups, PendingCalls.Waits, hwaitingOthers j hne] at hj
    exact hquiet j arg hj
  obtain ⟨last, hdrain, hreturned, hlast⟩ :=
    exists_drainAlone (P := P) (F := F) (J := J) hloop hentry hwaits halone htbid
  have hothers : ∀ j ≠ i, last.calls j = s.lookups.calls j := by
    intro j hj
    rw [hlast j hj, hlookups, hwaitingOthers j hj]
  refine ⟨_, Run.append_iff.2 ⟨u, hprefix, hdrain⟩, rfl, hnode, fun j arg hj ↦ ?_, hinsert,
    hreturned, hothers⟩
  by_cases hne : j = i
  · subst hne
    cases hreturned.symm.trans hj
  · exact hquiet j arg ((hothers j hne).symm.trans hj)

/-- A lookup of a TBID of 64 digits. -/
def lookupOfDigit (digit : Char) : DhtQuery := ⟨String.ofList (List.replicate 64 digit), "mainnet"⟩

/-- A record of that TBID, not signed. -/
def registrationOfDigit (digit : Char) : PeerRegistrationRecord :=
  ⟨"12D3Koo", (lookupOfDigit digit).tbidHex, "/ip4/10.0.0.1/tcp/7000", "10.0.0.1:7001", 1000, 5,
    [.attestWilling], []⟩

/-- The value of its event. -/
def valueOfDigit (digit : Char) : Bytes :=
  PeerFormat.unary.registrationJson (registrationOfDigit digit)

/-- The value is accepted, as the record has no signature to check. -/
theorem receive_valueOfDigit {digit : Char} (hdigit : hexValue? digit ≠ none)
    (hlength : 64 ≤ (asBytes (registrationOfDigit digit).tbid).length) :
    receivePeerRecord .transparent .unary (valueOfDigit digit) =
      .ok (some (registrationOfDigit digit)) := by
  have hhex : ∀ c ∈ (registrationOfDigit digit).tbid.toList, hexValue? c ≠ none := by
    intro c hc
    replace hc : c ∈ (String.ofList (List.replicate 64 digit)).toList := hc
    rw [String.toList_ofList] at hc
    rwa [List.eq_of_mem_replicate hc]
  have hform : (registrationOfDigit digit).WellFormed :=
    ⟨(by decide : "12D3Koo" ≠ ""), hlength, hhex, (by decide : "10.0.0.1:7001" ≠ "")⟩
  exact receivePeerRecord_eq_some.2
    ⟨PeerFormat.unary.parseRegistration_registrationJson _,
      PeerRegistrationRecord.validate_eq_true.2 ⟨hform, .inl rfl⟩⟩

/-- A node that is connected, and has the pending lookups `lookups`. -/
def connectedNode (lookups : PendingCalls DhtQuery Bytes (Option PeerRegistrationRecord)
    (Option PeerRegistrationRecord)) : LookupState :=
  ⟨freshNode, .idle, fun _ ↦ none, lookups, .new⟩

theorem receive_ones : receivePeerRecord .transparent .unary (valueOfDigit '1') =
    .ok (some (registrationOfDigit '1')) :=
  receive_valueOfDigit (by decide) (by decide +kernel)

theorem not_peersKey_ones : ¬KeyEndsWith (lookupOfDigit '1').lookupKey "/peers/v1" := by
  decide +kernel

/-- Two lookups, of the ones and of the twos, each return the record of their own event. -/
theorem lookups_answered_two :
    ∃ s, Run (Guarded (LookupStep .transparent .unary .unary) (LookupGuard .transparent .unary))
        .new (.enableP2p :: (lookupEvents 0 (lookupOfDigit '1') (valueOfDigit '1') ++
          lookupEvents 1 (lookupOfDigit '2') (valueOfDigit '2'))) s ∧
      s.lookups.calls 0 = some ⟨lookupOfDigit '1', .returned (some (registrationOfDigit '1'))⟩ ∧
      s.lookups.calls 1 = some ⟨lookupOfDigit '2', .returned (some (registrationOfDigit '2'))⟩ ∧
      s.Correct := by
  have henabled : Run (Guarded (LookupStep .transparent .unary .unary)
      (LookupGuard .transparent .unary)) .new [.enableP2p] (connectedNode .new) :=
    .cons ⟨trivial, .enableP2p rfl⟩ (.nil _)
  have hinvariant := LookupState.invariant_of_run henabled
  obtain ⟨u, hones, hidle, hnode, hquiet, hindex, hfirst, hothers⟩ :=
    exists_lookupAnswered hinvariant rfl rfl (fun _ _ h ↦ nomatch h) (i := 0)
      rfl rfl not_peersKey_ones receive_ones rfl
  have hunknown : u.index (lookupOfDigit '2').tbidHex = none := by
    rw [hindex]
    exact Function.update_of_ne (by decide +kernel) _ _
  have htwos : receivePeerRecord .transparent .unary (valueOfDigit '2') =
      .ok (some (registrationOfDigit '2')) :=
    receive_valueOfDigit (by decide) (by decide +kernel)
  have hfirstRun := Run.append_iff.2 ⟨_, henabled, hones⟩
  obtain ⟨s, htail, -, -, -, -, hsecond, hkept⟩ :=
    exists_lookupAnswered (LookupState.invariant_of_run hfirstRun) hidle (hnode ▸ rfl) hquiet
      (hothers 1 Nat.one_ne_zero) hunknown (by decide +kernel) htwos rfl
  have hrun := Run.append_iff.2 ⟨_, henabled, Run.append_iff.2 ⟨_, hones, htail⟩⟩
  exact ⟨s, hrun, (hkept 0 Nat.zero_ne_one).trans hfirst, hsecond, (lookups_answered hrun).1⟩

/-! ### A lookup that is answered by another's event -/

/-- One lookup waits. -/
def oneWaits (digit : Char) : PendingCalls DhtQuery Bytes (Option PeerRegistrationRecord)
    (Option PeerRegistrationRecord) :=
  (PendingCalls.new.setPhase 0 (lookupOfDigit digit) .begun).register DhtQuery.lookupKey 0
    (lookupOfDigit digit)

/-- Two lookups wait, the second one of the ones. -/
def bothWait : PendingCalls DhtQuery Bytes (Option PeerRegistrationRecord)
    (Option PeerRegistrationRecord) :=
  ((oneWaits '2').setPhase 1 (lookupOfDigit '1') .begun).register DhtQuery.lookupKey 1
    (lookupOfDigit '1')

/-- A lookup that has registered waits. -/
theorem run_oneWaits (digit : Char) :
    Run (Guarded (LookupStep P F J) (LookupGuard P F)) .new
      [.enableP2p, .beginLookup 0 (lookupOfDigit digit), .registerLookup 0]
      (connectedNode (oneWaits digit)) := by
  have hguard : LookupGuard P F
      (connectedNode (PendingCalls.new.setPhase 0 (lookupOfDigit digit) .begun))
      (.registerLookup 0) :=
    ⟨fun h ↦ (nomatch h), fun _ _ _ _ hentry ↦ nomatch hentry⟩
  exact .cons ⟨trivial, .enableP2p rfl⟩ (.cons ⟨trivial, .beginLookup rfl⟩
    (.cons ⟨hguard, .registerLookup rfl⟩ (.nil _)))

theorem lookupKey_ne : (lookupOfDigit '1').lookupKey ≠ (lookupOfDigit '2').lookupKey := by
  decide +kernel

/-- The other lookup may register, as nobody waits under its key. -/
theorem free_oneWaits :
    ((oneWaits '2').setPhase 1 (lookupOfDigit '1') .begun).Free (lookupOfDigit '1').lookupKey := by
  have hnone : (oneWaits '2').entries (lookupOfDigit '1').lookupKey = none :=
    Function.update_of_ne lookupKey_ne (some 0) fun _ ↦ none
  exact fun _ _ hentry ↦ nomatch hnone.symm.trans hentry

theorem run_bothWait :
    Run (Guarded (LookupStep P F J) (LookupGuard P F)) (connectedNode (oneWaits '2'))
      [.beginLookup 1 (lookupOfDigit '1'), .registerLookup 1] (connectedNode bothWait) := by
  have hguard : LookupGuard P F
      (connectedNode ((oneWaits '2').setPhase 1 (lookupOfDigit '1') .begun))
      (.registerLookup 1) := by
    refine ⟨fun h ↦ (nomatch h), fun q hcall ↦ ?_⟩
    obtain rfl : lookupOfDigit '1' = q :=
      congrArg PendingCall.arg (Option.some.inj (PendingCalls.calls_setPhase_self.symm.trans hcall))
    exact free_oneWaits
  exact .cons ⟨trivial, .beginLookup rfl⟩ (.cons ⟨hguard, .registerLookup rfl⟩ (.nil _))

/-- The first lookup still waits. -/
theorem waits_bothWait : bothWait.Waits 0 (lookupOfDigit '2') := by
  have hbegun : ((oneWaits '2').setPhase 1 (lookupOfDigit '1') .begun).Waits 0
      (lookupOfDigit '2') :=
    (PendingCalls.waits_setPhase_of_ne (by decide)).2 PendingCalls.calls_register_self
  exact PendingCalls.waits_register hbegun (by decide) free_oneWaits

/-- The event of the ones answers the lookup of the twos. -/
theorem lookup_answeredByOther :
    ∃ s, Run (LookupStep .transparent .unary .unary) .new
      [.enableP2p, .beginLookup 0 (lookupOfDigit '2'), .registerLookup 0,
        .beginLookup 1 (lookupOfDigit '1'), .registerLookup 1,
        .receive (lookupOfDigit '1').lookupKey [valueOfDigit '1'], .dispatch, .tbidRecord,
        .drain (some (lookupOfDigit '2').lookupKey), .resumeLookup 0] s ∧
      s.lookups.calls 0 = some ⟨lookupOfDigit '2', .returned (some (registrationOfDigit '1'))⟩ ∧
      ¬s.Correct := by
  have hone := run_oneWaits (P := .transparent) (F := .unary) (J := .unary) '2'
  have hboth := run_bothWait (P := .transparent) (F := .unary) (J := .unary)
  obtain ⟨s, hevent, hloop, hlookups, -⟩ := exists_acceptedEvent (P := .transparent) (F := .unary)
    (J := .unary) (s := connectedNode bothWait) rfl (isTbidKey_tbidKey _ _) not_peersKey_ones
    receive_ones
  have hwaits : s.lookups.Waits 0 (lookupOfDigit '2') := by
    rw [hlookups]
    exact waits_bothWait
  have hguarded := Run.append_iff.2 ⟨_, hone, Run.append_iff.2 ⟨_, hboth, hevent⟩⟩
  have hinvariant := LookupState.invariant_of_run hguarded
  obtain ⟨s₁, s₂, hdrain, hresume, hcall⟩ := exists_drain (P := .transparent) (F := .unary)
    (J := .unary) hloop hwaits (hinvariant.lookups.entry_of_waits hwaits)
  refine ⟨s₂, Run.append_iff.2 ⟨_, hguarded.of_guarded, .cons hdrain (.cons hresume (.nil _))⟩,
    hcall, fun hcorrect ↦ ?_⟩
  have htbid := hcorrect.tbid_eq 0 _ _ hcall
  revert htbid
  decide +kernel

end Foretias

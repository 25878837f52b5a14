import Mathlib.Data.Nat.Notation
import Mathlib.Data.Option.Basic
import Mathlib.Logic.Function.Basic

/-!
# Calls that wait for a reply

A call puts the sender of a one-shot channel into a map, under a key made of its argument, and waits
for a value. Whoever takes the entry out of the map sends a value, or drops the sender and thereby
closes the channel. A call whose time is up removes the entry under its key, whosever it is by then.

`Matched` says that the waiting calls and the entries of the map belong together. An operation
keeps it as long as it drops no sender of a call that waits, and then leaves the other calls
alone.
-/

/-- A one-shot channel, as its receiver sees it. -/
inductive Channel (α : Type*)
  | empty
  | sent (value : α)
  | closed

/-- Where a call stands. -/
inductive CallPhase (α β : Type*)
  /-- It has not registered. -/
  | begun
  /-- It waits at a channel. -/
  | waiting (channel : Channel α)
  /-- Its time is up, and it has not cleaned up. -/
  | expired
  /-- It has returned. -/
  | returned (result : β)

/-- A call with an argument. -/
structure PendingCall (A α β : Type*) where
  /-- The argument. -/
  arg : A
  /-- Where the call stands. -/
  phase : CallPhase α β

/-- A call's sender sends or is dropped; only a call that waits notices. -/
def PendingCall.settle {A α β : Type*} (c : PendingCall A α β) (channel : Channel α) :
    PendingCall A α β :=
  match c.phase with
  | .waiting .empty => { c with phase := .waiting channel }
  | _ => c

/-- A map of pending calls, and the calls by their numbers. -/
structure PendingCalls (A K α β : Type*) where
  /-- The call whose sender is under a key. -/
  entries : K → Option ℕ
  /-- The calls that were made. -/
  calls : ℕ → Option (PendingCall A α β)

namespace PendingCall

variable {A α β : Type*} {c : PendingCall A α β} {arg : A} {channel : Channel α}

theorem settle_of_ne (h : c.phase ≠ .waiting .empty) : c.settle channel = c := by
  unfold settle
  split
  · next hphase => exact absurd hphase h
  · rfl

/-- A call is settled once: it gets the channel, or it did not wait. -/
theorem settle_cases (c : PendingCall A α β) (channel : Channel α) :
    (c = ⟨c.arg, .waiting .empty⟩ ∧ c.settle channel = ⟨c.arg, .waiting channel⟩) ∨
      c.phase ≠ .waiting .empty ∧ c.settle channel = c := by
  by_cases h : c.phase = .waiting .empty
  · obtain ⟨arg, phase⟩ := c
    obtain rfl : phase = .waiting .empty := h
    exact .inl ⟨rfl, rfl⟩
  · exact .inr ⟨h, settle_of_ne h⟩

end PendingCall

namespace PendingCalls

variable {A K α β : Type*}

/-- No call was made. -/
def new : PendingCalls A K α β := ⟨fun _ ↦ none, fun _ ↦ none⟩

variable (s : PendingCalls A K α β)

/-- A call moves on. -/
def setPhase (i : ℕ) (arg : A) (phase : CallPhase α β) : PendingCalls A K α β :=
  { s with calls := Function.update s.calls i (some ⟨arg, phase⟩) }

section Operations

variable [DecidableEq K]

/-- Take the entry under a key out of the map, and settle its call. -/
def take (k : K) (channel : Channel α) : PendingCalls A K α β :=
  match s.entries k with
  | none => s
  | some i =>
    { entries := Function.update s.entries k none
      calls := Function.update s.calls i ((s.calls i).map (·.settle channel)) }

/-- A call registers: a sender that was under its key is dropped. -/
def register (key : A → K) (i : ℕ) (arg : A) : PendingCalls A K α β :=
  let s' := s.take (key arg) .closed
  { s'.setPhase i arg (.waiting .empty) with
    entries := Function.update s'.entries (key arg) (some i) }

/-- Drop all entries. -/
def clear (key : A → K) : PendingCalls A K α β where
  entries _ := none
  calls i := (s.calls i).map fun c ↦
    if s.entries (key c.arg) = some i then c.settle .closed else c

end Operations

/-- The call waits, and nothing was sent yet. -/
def Waits (i : ℕ) (arg : A) : Prop := s.calls i = some ⟨arg, .waiting .empty⟩

/-- No call waits under the key. -/
def Free (k : K) : Prop := ∀ i arg, s.entries k = some i → ¬s.Waits i arg

/-- The entries of the map are those of the calls that wait, and some of calls whose time is up. -/
structure Matched (key : A → K) : Prop where
  exists_of_entry : ∀ {k i}, s.entries k = some i → ∃ arg, key arg = k ∧
    (s.Waits i arg ∨ s.calls i = some ⟨arg, .expired⟩)
  entry_of_waits : ∀ {i arg}, s.Waits i arg → s.entries (key arg) = some i
  not_closed : ∀ i arg, s.calls i ≠ some ⟨arg, .waiting .closed⟩

/-- Every call meets a condition. -/
def All (p : PendingCall A α β → Prop) : Prop := ∀ i c, s.calls i = some c → p c

variable {s} {key : A → K} {i j : ℕ} {k : K} {arg arg' : A} {phase : CallPhase α β}
  {c : PendingCall A α β} {channel : Channel α}

/-! ### Moving on -/

@[simp] theorem calls_setPhase_self : (s.setPhase i arg phase).calls i = some ⟨arg, phase⟩ :=
  Function.update_self _ _ _

theorem calls_setPhase_of_ne (h : j ≠ i) : (s.setPhase i arg phase).calls j = s.calls j :=
  Function.update_of_ne h _ _

theorem waits_setPhase_of_ne (h : j ≠ i) :
    (s.setPhase i arg phase).Waits j arg' ↔ s.Waits j arg' := by
  rw [Waits, calls_setPhase_of_ne h, Waits]

/-- Calls in two phases are two calls. -/
theorem ne_of_phase_ne {c' : PendingCall A α β} (hj : s.calls j = some c')
    (hi : s.calls i = some c) (hphase : c'.phase ≠ c.phase) : j ≠ i := by
  rintro rfl
  exact hphase (congrArg PendingCall.phase (Option.some.inj (hj.symm.trans hi)))

theorem ne_of_none (hj : s.calls j = some c) (hi : s.calls i = none) : j ≠ i := by
  rintro rfl
  cases hj.symm.trans hi

theorem Matched.new : (new : PendingCalls A K α β).Matched key :=
  ⟨fun h ↦ (nomatch h), fun h ↦ (nomatch h), fun _ _ h ↦ (nomatch h)⟩

/-- An entry is under the key of its call. -/
theorem Matched.key_eq (h : s.Matched key) (hentry : s.entries k = some i)
    (hcall : s.calls i = some c) : key c.arg = k := by
  obtain ⟨arg, hkey, hphase | hphase⟩ := h.exists_of_entry hentry
  · have hc : s.calls i = some ⟨arg, .waiting .empty⟩ := hphase
    rw [Option.some.inj (hcall.symm.trans hc), hkey]
  · rw [Option.some.inj (hcall.symm.trans hphase), hkey]

/-- The calls that have an entry wait, or their time is up. -/
theorem Matched.entries_ne (h : s.Matched key) (hcall : s.calls i = some c)
    (hwaits : c.phase ≠ .waiting .empty) (hexpired : c.phase ≠ .expired) (k : K) :
    s.entries k ≠ some i := by
  intro hentry
  obtain ⟨arg, -, hphase | hphase⟩ := h.exists_of_entry hentry
  · exact hwaits (congrArg PendingCall.phase (Option.some.inj (hcall.symm.trans hphase)))
  · exact hexpired (congrArg PendingCall.phase (Option.some.inj (hcall.symm.trans hphase)))

theorem Matched.entries_ne_of_none (h : s.Matched key) (hnone : s.calls i = none) (k : K) :
    s.entries k ≠ some i := by
  intro hentry
  obtain ⟨arg, -, hphase | hphase⟩ := h.exists_of_entry hentry
  · cases hnone.symm.trans hphase
  · cases hnone.symm.trans hphase

/-- A call may move to a phase in which it does not wait; if it leaves an entry behind, its time
is up. -/
theorem Matched.setPhase (h : s.Matched key)
    (hentry : ∀ k, s.entries k = some i → key arg = k ∧ phase = .expired)
    (hempty : phase ≠ .waiting .empty) (hclosed : phase ≠ .waiting .closed) :
    (s.setPhase i arg phase).Matched key where
  exists_of_entry {k j} hj := by
    by_cases hne : j = i
    · subst hne
      obtain ⟨hkey, rfl⟩ := hentry k hj
      exact ⟨arg, hkey, .inr calls_setPhase_self⟩
    · obtain ⟨arg', hkey, hphase⟩ := h.exists_of_entry hj
      rw [Waits, ← calls_setPhase_of_ne hne] at hphase
      exact ⟨arg', hkey, hphase⟩
  entry_of_waits {j arg'} hj := by
    by_cases hne : j = i
    · subst hne
      rw [Waits, calls_setPhase_self] at hj
      exact absurd (congrArg PendingCall.phase (Option.some.inj hj)) hempty
    · rw [Waits, calls_setPhase_of_ne hne] at hj
      exact h.entry_of_waits hj
  not_closed j arg' hj := by
    by_cases hne : j = i
    · subst hne
      rw [calls_setPhase_self] at hj
      exact hclosed (congrArg PendingCall.phase (Option.some.inj hj))
    · rw [calls_setPhase_of_ne hne] at hj
      exact h.not_closed j arg' hj

/-- A call that waits may find that its time is up. -/
theorem Matched.expire (h : s.Matched key) (hwaits : s.Waits i arg) :
    (s.setPhase i arg .expired).Matched key :=
  h.setPhase (fun _ hk ↦ ⟨h.key_eq hk hwaits, rfl⟩) (fun h ↦ nomatch h) fun h ↦ nomatch h

/-- A call that no longer waits may return once no entry of it is left. -/
theorem Matched.finish (h : s.Matched key) (hentry : ∀ k, s.entries k ≠ some i) (result : β) :
    (s.setPhase i arg (.returned result)).Matched key :=
  h.setPhase (fun k hk ↦ absurd hk (hentry k)) (fun h ↦ nomatch h) fun h ↦ nomatch h

/-! ### Dropping all entries -/

theorem calls_clear_of_not_waiting (hcall : s.calls i = some c)
    (hphase : c.phase ≠ .waiting .empty) : (s.clear key).calls i = some c := by
  show (s.calls i).map _ = _
  rw [hcall, Option.map_some]
  split
  · rw [PendingCall.settle_of_ne hphase]
  · rfl

theorem calls_clear_of_not_waits (h : ∀ arg, ¬s.Waits i arg) :
    (s.clear key).calls i = s.calls i := by
  cases hcall : s.calls i with
  | none =>
    show (s.calls i).map _ = _
    rw [hcall, Option.map_none]
  | some c =>
    refine calls_clear_of_not_waiting hcall fun hphase ↦ h c.arg ?_
    rw [Waits, hcall, ← hphase]

/-- All entries may be dropped when no call waits. -/
theorem Matched.clear (h : s.Matched key) (hnone : ∀ i arg, ¬s.Waits i arg) :
    (s.clear key).Matched key := by
  have hcalls : (s.clear key).calls = s.calls :=
    funext fun i ↦ calls_clear_of_not_waits (hnone i)
  refine ⟨fun h ↦ (nomatch h), fun {i arg} hi ↦ ?_, fun i arg hi ↦ ?_⟩
  · rw [Waits, hcalls] at hi
    exact absurd hi (hnone i arg)
  · rw [hcalls] at hi
    exact h.not_closed i arg hi

/-! ### Taking an entry -/

variable [DecidableEq K]

theorem entries_take : (s.take k channel).entries = Function.update s.entries k none := by
  unfold take
  split
  · next hnone => rw [← hnone, Function.update_eq_self]
  · rfl

theorem calls_take_of_entry (h : s.entries k = some i) :
    (s.take k channel).calls i = (s.calls i).map (·.settle channel) := by
  rw [take, h]
  exact Function.update_self _ _ _

theorem calls_take_of_ne (h : s.entries k ≠ some i) :
    (s.take k channel).calls i = s.calls i := by
  unfold take
  split
  · rfl
  · next j hj =>
    have hne : i ≠ j := fun heq ↦ h (heq ▸ hj)
    exact Function.update_of_ne hne _ _

/-- A call that does not wait is not affected. -/
theorem calls_take_of_not_waiting (hcall : s.calls i = some c)
    (hphase : c.phase ≠ .waiting .empty) : (s.take k channel).calls i = some c := by
  by_cases h : s.entries k = some i
  · rw [calls_take_of_entry h, hcall, Option.map_some, PendingCall.settle_of_ne hphase]
  · rw [calls_take_of_ne h, hcall]

/-- Nor is a call that was not made. -/
theorem calls_take_of_not_waits (h : ∀ arg, ¬s.Waits i arg) :
    (s.take k channel).calls i = s.calls i := by
  cases hcall : s.calls i with
  | none =>
    by_cases hentry : s.entries k = some i
    · rw [calls_take_of_entry hentry, hcall, Option.map_none]
    · rw [calls_take_of_ne hentry, hcall]
  | some c =>
    refine calls_take_of_not_waiting hcall fun hphase ↦ h c.arg ?_
    rw [Waits, hcall, ← hphase]

/-- The call whose entry is taken is settled. -/
theorem calls_take_of_waits (hwaits : s.Waits i arg) (h : s.entries k = some i) :
    (s.take k channel).calls i = some ⟨arg, .waiting channel⟩ := by
  have hcall : s.calls i = some ⟨arg, .waiting .empty⟩ := hwaits
  rw [calls_take_of_entry h, hcall]
  rfl

/-- What waits after an entry was taken waited before, and the entry was not its own. -/
theorem waits_take (hchannel : channel ≠ .empty) :
    (s.take k channel).Waits i arg ↔ s.Waits i arg ∧ s.entries k ≠ some i := by
  by_cases h : s.entries k = some i
  · refine iff_of_false (fun hwaits ↦ ?_) fun hwaits ↦ hwaits.2 h
    rw [Waits, calls_take_of_entry h, Option.map_eq_some_iff] at hwaits
    obtain ⟨c, -, hsettle⟩ := hwaits
    obtain ⟨-, hsettled⟩ | ⟨hphase, hsettled⟩ := c.settle_cases channel
    · rw [hsettled] at hsettle
      have hphase := congrArg PendingCall.phase hsettle
      exact hchannel (CallPhase.waiting.inj hphase)
    · rw [hsettled] at hsettle
      exact hphase (congrArg PendingCall.phase hsettle)
  · rw [Waits, calls_take_of_ne h]
    exact ⟨fun hwaits ↦ ⟨hwaits, h⟩, And.left⟩

/-- An entry may be taken out if a value is sent, or no call waits under the key. -/
theorem Matched.take (h : s.Matched key) (hchannel : channel ≠ .empty)
    (hfree : channel = .closed → s.Free k) : (s.take k channel).Matched key where
  exists_of_entry {k' i} hi := by
    rw [entries_take, Function.update_apply] at hi
    split at hi
    · cases hi
    · next hk =>
      obtain ⟨arg, hkey, hphase⟩ := h.exists_of_entry hi
      refine ⟨arg, hkey, hphase.imp (fun hwaits ↦ (waits_take hchannel).2 ⟨hwaits, ?_⟩) ?_⟩
      · exact fun hentry ↦ hk (hkey.symm.trans (h.key_eq hentry hwaits))
      · exact fun hexpired ↦ calls_take_of_not_waiting hexpired fun h ↦ nomatch h
  entry_of_waits {i arg} hi := by
    obtain ⟨hwaits, hne⟩ := (waits_take hchannel).1 hi
    have hentry := h.entry_of_waits hwaits
    have hk : key arg ≠ k := by
      rintro rfl
      exact hne hentry
    rw [entries_take, Function.update_of_ne hk, hentry]
  not_closed i arg hi := by
    by_cases hentry : s.entries k = some i
    · rw [calls_take_of_entry hentry, Option.map_eq_some_iff] at hi
      obtain ⟨c, hcall, hsettle⟩ := hi
      obtain ⟨hc, hsettled⟩ | ⟨-, hsettled⟩ := c.settle_cases channel
      · rw [hsettled] at hsettle
        refine hfree (CallPhase.waiting.inj (congrArg PendingCall.phase hsettle)) i c.arg hentry ?_
        rw [Waits, hcall, ← hc]
      · rw [hsettled] at hsettle
        exact h.not_closed i arg (hsettle ▸ hcall)
    · rw [calls_take_of_ne hentry] at hi
      exact h.not_closed i arg hi

/-! ### Registering -/

theorem calls_register_self : (s.register key i arg).calls i = some ⟨arg, .waiting .empty⟩ :=
  Function.update_self _ _ _

theorem calls_register_of_ne (h : j ≠ i) :
    (s.register key i arg).calls j = (s.take (key arg) .closed).calls j :=
  Function.update_of_ne h _ _

/-- A call may register under a key if no call waits there. -/
theorem Matched.register (h : s.Matched key) (hcall : s.calls i = some ⟨arg, .begun⟩)
    (hfree : s.Free (key arg)) : (s.register key i arg).Matched key := by
  have htake : (s.take (key arg) .closed).Matched key := h.take (fun h ↦ nomatch h) fun _ ↦ hfree
  have hbegun : (s.take (key arg) .closed).calls i = some ⟨arg, .begun⟩ :=
    calls_take_of_not_waiting hcall fun h ↦ nomatch h
  have hentries : (s.register key i arg).entries =
      Function.update (s.take (key arg) .closed).entries (key arg) (some i) := rfl
  refine ⟨fun {k j} hj ↦ ?_, fun {j arg'} hj ↦ ?_, fun j arg' hj ↦ ?_⟩
  · rw [hentries, Function.update_apply] at hj
    split at hj
    · next hk =>
      obtain rfl := Option.some.inj hj
      exact ⟨arg, hk.symm, .inl calls_register_self⟩
    · have hne : j ≠ i := by
        rintro rfl
        exact htake.entries_ne hbegun (fun h ↦ nomatch h) (fun h ↦ nomatch h) _ hj
      obtain ⟨arg', hkey, hphase⟩ := htake.exists_of_entry hj
      rw [Waits, ← calls_register_of_ne hne] at hphase
      exact ⟨arg', hkey, hphase⟩
  · by_cases hne : j = i
    · subst hne
      have harg := congrArg PendingCall.arg (Option.some.inj (calls_register_self.symm.trans hj))
      obtain rfl : arg = arg' := harg
      rw [hentries, Function.update_self]
    · rw [Waits, calls_register_of_ne hne] at hj
      have hentry := htake.entry_of_waits hj
      have hk : key arg' ≠ key arg := by
        intro hk
        rw [hk, entries_take, Function.update_self] at hentry
        cases hentry
      rw [hentries, Function.update_of_ne hk, hentry]
  · by_cases hne : j = i
    · subst hne
      cases calls_register_self.symm.trans hj
    · rw [calls_register_of_ne hne] at hj
      exact htake.not_closed j arg' hj

/-- A call that waits is left alone by one that registers under a key at which none waits. -/
theorem waits_register (hwaits : s.Waits j arg') (hne : j ≠ i) (hfree : s.Free (key arg)) :
    (s.register key i arg).Waits j arg' := by
  have hclosed : (Channel.closed : Channel α) ≠ .empty := fun h ↦ nomatch h
  rw [Waits, calls_register_of_ne hne]
  exact (waits_take hclosed).2 ⟨hwaits, fun hentry ↦ hfree j arg' hentry hwaits⟩

/-- So is one that does not wait. -/
theorem calls_register_of_not_waiting (hcall : s.calls j = some c)
    (hphase : c.phase ≠ .waiting .empty) (hne : j ≠ i) :
    (s.register key i arg).calls j = some c := by
  rw [calls_register_of_ne hne]
  exact calls_take_of_not_waiting hcall hphase

/-! ### Conditions on every call -/

section All

variable {p : PendingCall A α β → Prop}

omit [DecidableEq K] in
theorem All.setPhase (h : s.All p) (hp : p ⟨arg, phase⟩) : (s.setPhase i arg phase).All p := by
  intro j c hj
  by_cases hne : j = i
  · subst hne
    obtain rfl := Option.some.inj (calls_setPhase_self.symm.trans hj)
    exact hp
  · rw [calls_setPhase_of_ne hne] at hj
    exact h j c hj

theorem All.take (h : s.All p)
    (hsettle : ∀ i c, s.entries k = some i → s.calls i = some c → p (c.settle channel)) :
    (s.take k channel).All p := by
  intro i c hi
  by_cases hentry : s.entries k = some i
  · rw [calls_take_of_entry hentry, Option.map_eq_some_iff] at hi
    obtain ⟨c, hcall, rfl⟩ := hi
    exact hsettle i c hentry hcall
  · rw [calls_take_of_ne hentry] at hi
    exact h i c hi

theorem All.register (h : s.All p) (hp : p ⟨arg, .waiting .empty⟩)
    (hsettle : ∀ {c}, p c → p (c.settle .closed)) : (s.register key i arg).All p := by
  intro j c hj
  by_cases hne : j = i
  · subst hne
    obtain rfl := Option.some.inj (calls_register_self.symm.trans hj)
    exact hp
  · rw [calls_register_of_ne hne] at hj
    exact h.take (fun j c _ hcall ↦ hsettle (h j c hcall)) j c hj

omit [DecidableEq K] in
theorem All.clear (h : s.All p) (hsettle : ∀ {c}, p c → p (c.settle .closed)) :
    (s.clear key).All p := by
  intro i c hi
  obtain ⟨c', hcall, rfl⟩ := Option.map_eq_some_iff.1 hi
  split
  · exact hsettle (h i c' hcall)
  · exact h i c' hcall

end All

end PendingCalls

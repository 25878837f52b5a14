import Foretias.Library.KeyedTable
import Foretias.Library.Run
import Mathlib.Data.Finset.Erase
import Mathlib.Data.Finset.Insert

/-!
# The bin-based LRU

The cache keeps a record for each peer, in a map behind a lock, and the bytes of all records in an
atomic counter of its own. `insert`, `touch` and `demote_stale_to_unused` are one critical section;
`remove` takes the record out of the map and then subtracts its size; `evict_to_fit` reads the
counter, picks a victim, subtracts its size and takes it out of the map, each on its own, and starts
again. Any number of calls run at once.

The counter and the map disagree only by what the calls in progress have done to one of them
(`Accounted`). Not every step keeps that: `Safe` names those that do.

* `sound_of_guardedRun` — in runs of safe steps the cache is sound in every state reached.
-/

namespace Foretias

/-- `CalendarBin`. -/
inductive CalendarBin
  /-- This node's calendar or liege's. -/
  | myOwn
  /-- Recently read or written. -/
  | used
  /-- Not touched since last epoch. -/
  | unused
  deriving DecidableEq

/-- `CalendarRecord`. -/
structure CalendarRecord where
  /-- The peer. -/
  peerId : String
  /-- The bin. -/
  bin : CalendarBin
  /-- The size. -/
  sizeBytes : UInt64
  /-- When it was last touched, in nanoseconds. -/
  lastTouch : UInt64
  /-- The file. -/
  path : String
  deriving DecidableEq

/-- `UNLIMITED_BUDGET`. -/
def unlimitedBudget : UInt64 := 0xFFFFFFFFFFFFFFFF

/-- `NodeError::OutOfSpace`. -/
inductive EvictError
  | outOfSpace
  deriving DecidableEq

/-- A call between two of its atomic parts. -/
inductive LruCall
  /-- `evict_to_fit`, before it reads the counter. -/
  | check (incoming : UInt64)
  /-- It has read that there is no room. -/
  | pick (incoming : UInt64)
  /-- It has picked a victim. -/
  | subtract (incoming : UInt64) (victim : CalendarRecord)
  /-- It has subtracted the victim's size. -/
  | discard (incoming : UInt64) (victim : CalendarRecord)
  /-- `remove`, which has taken the record out of the map. -/
  | settle (rec : CalendarRecord)
  deriving DecidableEq

/-- `BinBasedLru`, the calls in progress, and a history that none of them reads. -/
structure BinBasedLru where
  /-- The budget. -/
  maxBytes : UInt64
  /-- The counter. -/
  currentBytes : UInt64
  /-- The records. -/
  records : KeyedTable CalendarRecord.peerId
  /-- The calls in progress. -/
  calls : Multiset LruCall
  /-- Whether a subtraction has underflowed. -/
  underflowed : Bool
  /-- The peers whose record was inserted in `MyOwn`, and neither replaced nor removed since. -/
  pinned : Finset String
  /-- What a call of `evict_to_fit` has returned in the last step, with its argument. -/
  evicted : Option (UInt64 × Except EvictError PUnit)

/-- `BinBasedLru::new`. -/
def BinBasedLru.new (maxBytes : UInt64) : BinBasedLru where
  maxBytes := maxBytes
  currentBytes := 0
  records := .empty
  calls := 0
  underflowed := false
  pinned := ∅
  evicted := none

/-- A step: a call of one critical section, or an atomic part of a call in progress. -/
inductive LruEvent
  /-- `insert`. -/
  | insert (rec : CalendarRecord)
  /-- `touch`, at a reading of the clock. -/
  | touch (peerId : String) (now : UInt64)
  /-- `demote_stale_to_unused`, at a reading of the clock. -/
  | demote (staleThresholdNs now : UInt64)
  /-- The map's part of `remove`. -/
  | remove (peerId : String)
  /-- A call of `evict_to_fit`. -/
  | evict (incoming : UInt64)
  /-- A part of a call in progress, with what `pick_unused_random` returns if it is called. -/
  | goOn (call : LruCall) (victim : Option CalendarRecord)
  deriving DecidableEq

namespace BinBasedLru

variable (s : BinBasedLru)

/-- The critical section of `insert`. -/
def insert (rec : CalendarRecord) : BinBasedLru :=
  { s with
    -- The size of a record that is replaced is not taken off.
    currentBytes :=
      if (s.records.lookup rec.peerId).isNone then s.currentBytes + rec.sizeBytes
      else s.currentBytes
    records := s.records.insert rec
    pinned := if rec.bin = .myOwn then Insert.insert rec.peerId s.pinned
      else s.pinned.erase rec.peerId
    evicted := none }

/-- The critical section of `touch`. -/
def touch (peerId : String) (now : UInt64) : BinBasedLru :=
  match s.records.lookup peerId with
  | some rec =>
    -- Whatever bin the record is in.
    { s with
      records := s.records.insert { rec with lastTouch := now, bin := .used }
      evicted := none }
  | none => { s with evicted := none }

/-- A stale record in `Used` is demoted; the difference wraps around. -/
def demoted (staleThresholdNs now : UInt64) (rec : CalendarRecord) : CalendarRecord :=
  if rec.bin = .used ∧ staleThresholdNs < now - rec.lastTouch then { rec with bin := .unused }
  else rec

theorem peerId_demoted (staleThresholdNs now : UInt64) (rec : CalendarRecord) :
    (demoted staleThresholdNs now rec).peerId = rec.peerId := by
  rw [demoted]
  split <;> rfl

/-- The critical section of `demote_stale_to_unused`. -/
def demote (staleThresholdNs now : UInt64) : BinBasedLru :=
  { s with
    records :=
      s.records.mapRows (demoted staleThresholdNs now) (peerId_demoted staleThresholdNs now)
    underflowed :=
      s.underflowed || s.records.rows.any fun rec ↦ rec.bin = .used ∧ now < rec.lastTouch
    evicted := none }

/-- `fetch_sub`, which wraps around. -/
def fetchSub (rec : CalendarRecord) : BinBasedLru :=
  { s with
    currentBytes := s.currentBytes - rec.sizeBytes
    underflowed := s.underflowed || s.currentBytes < rec.sizeBytes
    evicted := none }

/-- The critical section of `remove`. -/
def remove (peerId : String) : BinBasedLru :=
  match s.records.lookup peerId with
  | some rec =>
    { s with
      records := s.records.erase peerId
      calls := .settle rec ::ₘ s.calls
      pinned := s.pinned.erase peerId
      evicted := none }
  | none => { s with evicted := none }

/-- The start of `evict_to_fit`: without a budget it returns at once. -/
def evict (incoming : UInt64) : BinBasedLru :=
  if s.maxBytes = unlimitedBudget then { s with evicted := some (incoming, .ok ⟨⟩) }
  else { s with calls := .check incoming ::ₘ s.calls, evicted := none }

/-- `evict_to_fit` reads the counter; the sum wraps around. -/
def check (incoming : UInt64) : BinBasedLru :=
  if s.maxBytes < s.currentBytes + incoming then
    { s with calls := .pick incoming ::ₘ s.calls, evicted := none }
  else { s with evicted := some (incoming, .ok ⟨⟩) }

/-- It has the victim that was picked, or there was none. -/
def pick (incoming : UInt64) : Option CalendarRecord → BinBasedLru
  | some rec => { s with calls := .subtract incoming rec ::ₘ s.calls, evicted := none }
  | none => { s with evicted := some (incoming, .error .outOfSpace) }

/-- It takes the victim's key out of the map. -/
def discard (incoming : UInt64) (victim : CalendarRecord) : BinBasedLru :=
  -- The record under the key may be another one than was picked.
  { s with
    records := s.records.erase victim.peerId
    calls := .check incoming ::ₘ s.calls
    evicted := none }

/-- `pick_unused_random` may return this: a record in `Unused`, or nothing if there is none. -/
def MayPick : Option CalendarRecord → Prop
  | some rec => rec ∈ s.records.rows ∧ rec.bin = .unused
  | none => ∀ rec ∈ s.records.rows, rec.bin ≠ .unused

/-- A call in progress goes on, from a state in which it is no longer counted as such. -/
def goOn (victim : Option CalendarRecord) : LruCall → BinBasedLru
  | .check incoming => s.check incoming
  | .pick incoming => s.pick incoming victim
  | .subtract incoming rec =>
    { s.fetchSub rec with calls := .discard incoming rec ::ₘ s.calls }
  | .discard incoming rec => s.discard incoming rec
  | .settle rec => s.fetchSub rec

end BinBasedLru

/-- The steps of the cache. -/
inductive LruStep : BinBasedLru → LruEvent → BinBasedLru → Prop
  | insert (s : BinBasedLru) (rec : CalendarRecord) : LruStep s (.insert rec) (s.insert rec)
  | touch (s : BinBasedLru) (peerId : String) (now : UInt64) :
      LruStep s (.touch peerId now) (s.touch peerId now)
  | demote (s : BinBasedLru) (staleThresholdNs now : UInt64) :
      LruStep s (.demote staleThresholdNs now) (s.demote staleThresholdNs now)
  | remove (s : BinBasedLru) (peerId : String) : LruStep s (.remove peerId) (s.remove peerId)
  | evict (s : BinBasedLru) (incoming : UInt64) : LruStep s (.evict incoming) (s.evict incoming)
  /-- A call in progress goes on. -/
  | goOn {s : BinBasedLru} {call : LruCall} {rest : Multiset LruCall}
      {victim : Option CalendarRecord} (hcall : s.calls = call ::ₘ rest)
      (hvictim : ∀ incoming, call = .pick incoming → s.MayPick victim) :
      LruStep s (.goOn call victim) ({ s with calls := rest }.goOn victim call)

/-! ### The account -/

/-- The size of a record. -/
def CalendarRecord.size (rec : CalendarRecord) : ℕ := rec.sizeBytes.toNat

/-- What a call has subtracted for a record that is still in the map. -/
def LruCall.taken : LruCall → ℕ
  | .discard _ victim => victim.size
  | _ => 0

/-- What a call has yet to subtract for a record that it has taken out of the map. -/
def LruCall.owed : LruCall → ℕ
  | .settle rec => rec.size
  | _ => 0

/-- The peer for whose record a call has subtracted, while it is still in the map. -/
def LruCall.victim? : LruCall → Option String
  | .discard _ victim => some victim.peerId
  | _ => none

namespace BinBasedLru

/-- The call has subtracted for the record of the peer. -/
def Discards (s : BinBasedLru) (peerId : String) : Prop :=
  ∃ incoming victim, .discard incoming victim ∈ s.calls ∧ victim.peerId = peerId

/-- The counter and the map differ by what the calls in progress have done to one of them. -/
structure Accounted (s : BinBasedLru) : Prop where
  /-- The bytes. -/
  bytes : s.currentBytes.toNat + (s.calls.map LruCall.taken).sum =
    s.records.total CalendarRecord.size + (s.calls.map LruCall.owed).sum
  /-- What was subtracted for is still in the map, and as large. -/
  victims : ∀ incoming victim, .discard incoming victim ∈ s.calls →
    ∃ rec, s.records.lookup victim.peerId = some rec ∧ rec.size = victim.size
  /-- It was subtracted once. -/
  distinct : (s.calls.filterMap LruCall.victim?).Nodup
  /-- Nothing underflowed. -/
  not_underflowed : s.underflowed = false
  /-- Own records are there, in their bin. -/
  pinned : ∀ peerId ∈ s.pinned, ∃ rec, s.records.lookup peerId = some rec ∧ rec.bin = .myOwn
  /-- Where `evict_to_fit` has just returned, there is room. -/
  room : ∀ incoming, s.evicted = some (incoming, .ok ⟨⟩) → s.maxBytes ≠ unlimitedBudget →
    s.currentBytes.toNat + incoming.toNat ≤ s.maxBytes.toNat

/-- The steps that keep the account. -/
def Safe (s : BinBasedLru) : LruEvent → Prop
  | .insert rec =>
    match s.records.lookup rec.peerId with
    | some old => rec.sizeBytes = old.sizeBytes
    | none => s.currentBytes.toNat + rec.sizeBytes.toNat < 2 ^ 64
  | .touch peerId _ => ∀ rec, s.records.lookup peerId = some rec → rec.bin ≠ .myOwn
  | .demote _ now => ∀ rec ∈ s.records.rows, rec.bin = .used → rec.lastTouch ≤ now
  | .remove peerId => ¬s.Discards peerId
  | .goOn (.check incoming) _ =>
    2 ^ 64 ≤ s.currentBytes.toNat + incoming.toNat → s.maxBytes < s.currentBytes + incoming
  | .goOn (.subtract _ victim) _ =>
    (∃ rec, s.records.lookup victim.peerId = some rec ∧ rec.sizeBytes = victim.sizeBytes) ∧
      ¬s.Discards victim.peerId
  | .goOn (.discard _ victim) _ =>
    ∀ rec, s.records.lookup victim.peerId = some rec → rec.bin ≠ .myOwn
  | _ => True

/-- What holds of the cache: without calls in progress the counter is the sum of the sizes of the
records; nothing has underflowed; what was inserted in `MyOwn` is there in `MyOwn`; and where
`evict_to_fit` has just returned under a budget, there is room for what it made room for. -/
structure Sound (s : BinBasedLru) : Prop where
  /-- The bytes. -/
  bytes : s.calls = 0 → s.currentBytes.toNat = s.records.total CalendarRecord.size
  /-- Nothing underflowed. -/
  not_underflowed : s.underflowed = false
  /-- Own records are there, in their bin. -/
  pinned : ∀ peerId ∈ s.pinned, ∃ rec, s.records.lookup peerId = some rec ∧ rec.bin = .myOwn
  /-- Where `evict_to_fit` has just returned, there is room. -/
  room : ∀ incoming, s.evicted = some (incoming, .ok ⟨⟩) → s.maxBytes ≠ unlimitedBudget →
    s.currentBytes.toNat + incoming.toNat ≤ s.maxBytes.toNat

variable {s : BinBasedLru}

/-- Accounts that add up make a cache sound. -/
theorem Accounted.sound (h : s.Accounted) : s.Sound where
  bytes hcalls := by simpa [hcalls] using h.bytes
  not_underflowed := h.not_underflowed
  pinned := h.pinned
  room := h.room

/-- A new cache has its accounts in order. -/
theorem accounted_new (maxBytes : UInt64) : (new maxBytes).Accounted where
  bytes := rfl
  victims _ _ h := absurd h (Multiset.notMem_zero _)
  distinct := Multiset.nodup_zero
  not_underflowed := rfl
  pinned _ h := absurd h (Finset.notMem_empty _)
  room _ h := absurd h.symm (Option.some_ne_none _)

/-- A record that replaces one of the same size. -/
theorem Accounted.replace (h : s.Accounted) {rec old : CalendarRecord} {pinned : Finset String}
    (hold : s.records.lookup rec.peerId = some old) (hsize : rec.size = old.size)
    (hpinned : ∀ peerId ∈ pinned, peerId ∈ s.pinned ∧ peerId ≠ rec.peerId ∨
      peerId = rec.peerId ∧ rec.bin = .myOwn) :
    Accounted { s with records := s.records.insert rec, pinned, evicted := none } where
  bytes := by
    show _ = (s.records.insert rec).total _ + _
    rw [KeyedTable.total_insert, hsize, KeyedTable.total_erase _ hold]
    exact h.bytes
  victims incoming victim hmem := by
    obtain ⟨found, hfound, hvictim⟩ := h.victims incoming victim hmem
    by_cases hkey : victim.peerId = rec.peerId
    · -- a victim that is replaced, by a record of its size
      obtain rfl := Option.some.inj (hold.symm.trans (hkey ▸ hfound))
      exact ⟨rec, hkey ▸ KeyedTable.lookup_insert_self, hsize.trans hvictim⟩
    · exact ⟨found, (KeyedTable.lookup_insert_of_ne hkey).trans hfound, hvictim⟩
  distinct := h.distinct
  not_underflowed := h.not_underflowed
  pinned peerId hmem := by
    rcases hpinned peerId hmem with ⟨hold', hne⟩ | ⟨rfl, hbin⟩
    · obtain ⟨found, hfound, hbin⟩ := h.pinned peerId hold'
      exact ⟨found, (KeyedTable.lookup_insert_of_ne hne).trans hfound, hbin⟩
    · exact ⟨rec, KeyedTable.lookup_insert_self, hbin⟩
  room _ hevicted := absurd hevicted.symm (Option.some_ne_none _)

/-! ### Calls in progress -/

theorem sum_map_cons (f : LruCall → ℕ) (call : LruCall) (calls : Multiset LruCall) :
    ((call ::ₘ calls).map f).sum = f call + (calls.map f).sum := by
  rw [Multiset.map_cons, Multiset.sum_cons]

/-- The bytes, with the part of one call apart. -/
theorem Accounted.bytes_cons (h : s.Accounted) {call : LruCall} {rest : Multiset LruCall}
    (hcalls : s.calls = call ::ₘ rest) :
    s.currentBytes.toNat + (call.taken + (rest.map LruCall.taken).sum) =
      s.records.total CalendarRecord.size + (call.owed + (rest.map LruCall.owed).sum) := by
  rw [← sum_map_cons, ← sum_map_cons, ← hcalls]
  exact h.bytes

theorem mem_filterMap_victim {calls : Multiset LruCall} {peerId : String} :
    peerId ∈ calls.filterMap LruCall.victim? ↔
      ∃ incoming victim, .discard incoming victim ∈ calls ∧ victim.peerId = peerId := by
  rw [Multiset.mem_filterMap]
  constructor
  · rintro ⟨call, hcall, hvictim⟩
    rcases call with _ | _ | _ | ⟨incoming, victim⟩ | _
    case discard => exact ⟨incoming, victim, hcall, Option.some.inj hvictim⟩
    all_goals exact absurd hvictim.symm (Option.some_ne_none _)
  · rintro ⟨incoming, victim, hcall, rfl⟩
    exact ⟨_, hcall, rfl⟩

/-- The records that the calls in progress have subtracted for. -/
theorem exists_records {t : KeyedTable CalendarRecord.peerId} {calls : Multiset LruCall}
    (h : ∀ incoming victim, .discard incoming victim ∈ calls →
      ∃ rec, t.lookup victim.peerId = some rec ∧ rec.size = victim.size) :
    ∃ recs : Multiset CalendarRecord, recs.map CalendarRecord.peerId =
        calls.filterMap LruCall.victim? ∧ (∀ rec ∈ recs, rec ∈ t.rows) ∧
      (recs.map CalendarRecord.size).sum = (calls.map LruCall.taken).sum := by
  induction calls using Multiset.induction with
  | empty => exact ⟨0, rfl, fun _ hmem ↦ absurd hmem (Multiset.notMem_zero _), rfl⟩
  | cons call calls ih =>
    obtain ⟨recs, hkeys, hrows, hsum⟩ :=
      ih fun incoming victim hmem ↦ h incoming victim (Multiset.mem_cons_of_mem hmem)
    rw [sum_map_cons, ← hsum]
    rcases call with _ | _ | _ | ⟨incoming, victim⟩ | _
    case discard =>
      obtain ⟨rec, hlookup, hsize⟩ := h incoming victim (Multiset.mem_cons_self _ _)
      obtain ⟨hmem, hkey⟩ := KeyedTable.lookup_eq_some.1 hlookup
      refine ⟨rec ::ₘ recs, ?_, ?_, ?_⟩
      · rw [Multiset.map_cons, hkeys, hkey]
        exact (Multiset.filterMap_cons_some LruCall.victim? _ _ rfl).symm
      · intro x hx
        rcases Multiset.mem_cons.1 hx with rfl | hx
        · exact hmem
        · exact hrows x hx
      · rw [Multiset.map_cons, Multiset.sum_cons, hsize]
        rfl
    all_goals
      refine ⟨recs, ?_, hrows, (Nat.zero_add _).symm⟩
      rw [hkeys]
      exact (Multiset.filterMap_cons_none _ _ rfl).symm

/-- What was subtracted for records still in the map is at most what these weigh together. -/
theorem taken_le_total {t : KeyedTable CalendarRecord.peerId} {calls : Multiset LruCall}
    (hvictims : ∀ incoming victim, .discard incoming victim ∈ calls →
      ∃ rec, t.lookup victim.peerId = some rec ∧ rec.size = victim.size)
    (hdistinct : (calls.filterMap LruCall.victim?).Nodup) :
    (calls.map LruCall.taken).sum ≤ t.total CalendarRecord.size := by
  obtain ⟨recs, hkeys, hrows, hsum⟩ := exists_records hvictims
  rw [← hsum]
  exact KeyedTable.sum_le_total _ (hkeys ▸ hdistinct) hrows

/-- A call that has done nothing to the counter or the map on its own. -/
def Idle (call : LruCall) : Prop := call.taken = 0 ∧ call.owed = 0 ∧ call.victim? = none

theorem Idle.not_discard {call : LruCall} (h : Idle call) {incoming : UInt64}
    {victim : CalendarRecord} : call ≠ .discard incoming victim := by
  rintro rfl
  exact Option.some_ne_none _ h.2.2

/-- The account does not count an idle call. -/
theorem Accounted.push (h : s.Accounted) {call : LruCall} (hidle : Idle call) :
    Accounted { s with calls := call ::ₘ s.calls, evicted := none } where
  bytes := by
    show _ + ((call ::ₘ s.calls).map _).sum = _ + ((call ::ₘ s.calls).map _).sum
    rw [sum_map_cons, sum_map_cons, hidle.1, hidle.2.1, Nat.zero_add, Nat.zero_add]
    exact h.bytes
  victims incoming victim hmem := by
    rcases Multiset.mem_cons.1 hmem with heq | hmem
    · exact absurd heq.symm hidle.not_discard
    · exact h.victims incoming victim hmem
  distinct := by
    show ((call ::ₘ s.calls).filterMap _).Nodup
    rw [Multiset.filterMap_cons_none _ _ hidle.2.2]
    exact h.distinct
  not_underflowed := h.not_underflowed
  pinned := h.pinned
  room _ hevicted := absurd hevicted.symm (Option.some_ne_none _)

/-- A call that waits for no removal may end. -/
theorem Accounted.pop (h : s.Accounted) {call : LruCall} {rest : Multiset LruCall}
    (hcalls : s.calls = call ::ₘ rest) (hidle : Idle call) :
    Accounted { s with calls := rest } where
  bytes := by
    have hbytes := h.bytes_cons hcalls
    rw [hidle.1, hidle.2.1, Nat.zero_add, Nat.zero_add] at hbytes
    exact hbytes
  victims incoming victim hmem :=
    h.victims incoming victim (hcalls ▸ Multiset.mem_cons_of_mem hmem)
  distinct := by
    have hdistinct := h.distinct
    rw [hcalls, Multiset.filterMap_cons_none _ _ hidle.2.2] at hdistinct
    exact hdistinct
  not_underflowed := h.not_underflowed
  pinned := h.pinned
  room := h.room

/-- A call that returns leaves the account as it is. -/
theorem Accounted.return (h : s.Accounted) {r : Option (UInt64 × Except EvictError PUnit)}
    (hroom : ∀ incoming, r = some (incoming, .ok ⟨⟩) → s.maxBytes ≠ unlimitedBudget →
      s.currentBytes.toNat + incoming.toNat ≤ s.maxBytes.toNat) :
    Accounted { s with evicted := r } where
  bytes := h.bytes
  victims := h.victims
  distinct := h.distinct
  not_underflowed := h.not_underflowed
  pinned := h.pinned
  room := hroom

/-! ### The critical sections -/

/-- A safe insertion keeps the accounts. -/
theorem accounted_insert (h : s.Accounted) {rec : CalendarRecord} (hsafe : s.Safe (.insert rec)) :
    (s.insert rec).Accounted := by
  have hpinned : ∀ peerId ∈ (s.insert rec).pinned, peerId ∈ s.pinned ∧ peerId ≠ rec.peerId ∨
      peerId = rec.peerId ∧ rec.bin = .myOwn := by
    intro peerId hmem
    replace hmem : peerId ∈ if rec.bin = .myOwn then Insert.insert rec.peerId s.pinned
      else s.pinned.erase rec.peerId := hmem
    split at hmem
    next hbin =>
      rcases eq_or_ne peerId rec.peerId with heq | hne
      · exact .inr ⟨heq, hbin⟩
      · exact .inl ⟨(Finset.mem_insert.1 hmem).resolve_left hne, hne⟩
    next => exact .inl (Finset.mem_erase.1 hmem).symm
  rw [Safe] at hsafe
  rcases hold : s.records.lookup rec.peerId with - | old
  · rw [hold] at hsafe
    have hrecords : ∀ {peerId found}, s.records.lookup peerId = some found →
        (s.insert rec).records.lookup peerId = some found := by
      intro peerId found hfound
      have hne : peerId ≠ rec.peerId := by
        rintro rfl
        exact Option.some_ne_none _ (hfound.symm.trans hold)
      exact (KeyedTable.lookup_insert_of_ne hne).trans hfound
    have hcounter : (s.insert rec).currentBytes.toNat = s.currentBytes.toNat + rec.size := by
      rw [insert, hold, Option.isNone_none, if_pos rfl, UInt64.toNat_add, Nat.mod_eq_of_lt hsafe]
      rfl
    have htotal : (s.insert rec).records.total CalendarRecord.size =
        s.records.total CalendarRecord.size + rec.size := by
      rw [insert, KeyedTable.total_insert, KeyedTable.total_erase_of_none _ hold]
    refine ⟨?_, fun incoming victim hmem ↦ ?_, h.distinct, h.not_underflowed, ?_,
      fun _ hevicted ↦ absurd hevicted.symm (Option.some_ne_none _)⟩
    · have hbytes := h.bytes
      rw [hcounter, htotal]
      show _ + (s.calls.map _).sum = _ + (s.calls.map _).sum
      omega
    · obtain ⟨found, hfound, hsize⟩ := h.victims incoming victim hmem
      exact ⟨found, hrecords hfound, hsize⟩
    · intro peerId hmem
      rcases hpinned peerId hmem with ⟨hmem, -⟩ | ⟨rfl, hbin⟩
      · obtain ⟨found, hfound, hbin⟩ := h.pinned peerId hmem
        exact ⟨found, hrecords hfound, hbin⟩
      · exact ⟨rec, KeyedTable.lookup_insert_self, hbin⟩
  · rw [hold] at hsafe
    have hcounter : (s.insert rec).currentBytes = s.currentBytes := by
      rw [insert, hold]
      rfl
    have hreplace := h.replace hold (congrArg UInt64.toNat hsafe) hpinned
    rw [← hcounter] at hreplace
    exact hreplace

/-- So does a safe touch, -/
theorem accounted_touch (h : s.Accounted) {peerId : String} {now : UInt64}
    (hsafe : s.Safe (.touch peerId now)) : (s.touch peerId now).Accounted := by
  rw [touch]
  rcases hlookup : s.records.lookup peerId with - | rec
  · exact h.return fun _ hevicted ↦ absurd hevicted.symm (Option.some_ne_none _)
  · obtain ⟨-, rfl⟩ := KeyedTable.lookup_eq_some.1 hlookup
    refine h.replace hlookup rfl fun peerId hmem ↦ .inl ⟨hmem, ?_⟩
    -- An own record is not touched, so the record is not pinned.
    rintro rfl
    obtain ⟨found, hfound, hbin⟩ := h.pinned _ hmem
    exact hsafe found hfound hbin

theorem bin_demoted {staleThresholdNs now : UInt64} {rec : CalendarRecord}
    (h : rec.bin = .myOwn) : demoted staleThresholdNs now rec = rec := by
  rw [demoted, if_neg]
  rintro ⟨hused, -⟩
  exact CalendarBin.noConfusion (h.symm.trans hused)

theorem size_demoted (staleThresholdNs now : UInt64) (rec : CalendarRecord) :
    (demoted staleThresholdNs now rec).size = rec.size := by
  rw [demoted]
  split <;> rfl

theorem lookup_demote {staleThresholdNs now : UInt64} {peerId : String} {rec : CalendarRecord}
    (h : s.records.lookup peerId = some rec) :
    (s.demote staleThresholdNs now).records.lookup peerId =
      some (demoted staleThresholdNs now rec) :=
  (KeyedTable.lookup_mapRows (peerId_demoted staleThresholdNs now)).trans (congrArg _ h)

/-- and a safe demotion, -/
theorem accounted_demote (h : s.Accounted) {staleThresholdNs now : UInt64}
    (hsafe : s.Safe (.demote staleThresholdNs now)) :
    (s.demote staleThresholdNs now).Accounted where
  bytes := by
    have htotal : (s.demote staleThresholdNs now).records.total CalendarRecord.size =
        s.records.total CalendarRecord.size :=
      KeyedTable.total_mapRows _ (peerId_demoted staleThresholdNs now)
        (size_demoted staleThresholdNs now)
    rw [htotal]
    exact h.bytes
  victims incoming victim hmem := by
    obtain ⟨rec, hlookup, hsize⟩ := h.victims incoming victim hmem
    exact ⟨_, lookup_demote hlookup, (size_demoted _ _ _).trans hsize⟩
  distinct := h.distinct
  not_underflowed := by
    have hany : (s.records.rows.any fun rec ↦ rec.bin = .used ∧ now < rec.lastTouch) = false := by
      refine List.any_eq_false.2 fun rec hmem hlt ↦ ?_
      obtain ⟨hused, hlt⟩ := of_decide_eq_true hlt
      exact UInt64.not_lt.2 (hsafe rec hmem hused) hlt
    show (s.underflowed || _) = false
    rw [hany, h.not_underflowed]
    rfl
  pinned peerId hmem := by
    obtain ⟨rec, hlookup, hbin⟩ := h.pinned peerId hmem
    exact ⟨_, lookup_demote hlookup, (bin_demoted hbin).symm ▸ hbin⟩
  room _ hevicted := absurd hevicted.symm (Option.some_ne_none _)

/-- `remove` owes what it has taken out of the map. -/
theorem accounted_remove (h : s.Accounted) {peerId : String} (hsafe : s.Safe (.remove peerId)) :
    (s.remove peerId).Accounted := by
  rw [remove]
  rcases hlookup : s.records.lookup peerId with - | rec
  · exact h.return fun _ hevicted ↦ absurd hevicted.symm (Option.some_ne_none _)
  · refine ⟨?_, fun incoming victim hmem ↦ ?_, ?_, h.not_underflowed, fun key hmem ↦ ?_,
      fun _ hevicted ↦ absurd hevicted.symm (Option.some_ne_none _)⟩
    · have hbytes := h.bytes
      have herase := KeyedTable.total_erase CalendarRecord.size hlookup
      show s.currentBytes.toNat + ((_ ::ₘ s.calls).map _).sum =
        (s.records.erase peerId).total _ + ((_ ::ₘ s.calls).map _).sum
      rw [sum_map_cons, sum_map_cons]
      show _ + (0 + _) = _ + (rec.size + _)
      omega
    · have hmem : LruCall.discard incoming victim ∈ s.calls :=
        (Multiset.mem_cons.1 hmem).resolve_left LruCall.noConfusion
      obtain ⟨found, hfound, hsize⟩ := h.victims incoming victim hmem
      have hne : victim.peerId ≠ peerId := fun heq ↦ hsafe ⟨incoming, victim, hmem, heq⟩
      exact ⟨found, (KeyedTable.lookup_erase_of_ne hne).trans hfound, hsize⟩
    · show ((_ ::ₘ s.calls).filterMap _).Nodup
      rw [Multiset.filterMap_cons_none _ _ rfl]
      exact h.distinct
    · obtain ⟨hne, hmem⟩ := Finset.mem_erase.1 hmem
      obtain ⟨found, hfound, hbin⟩ := h.pinned key hmem
      exact ⟨found, (KeyedTable.lookup_erase_of_ne hne).trans hfound, hbin⟩

/-- and the beginning of an eviction, -/
theorem accounted_evict (h : s.Accounted) (incoming : UInt64) : (s.evict incoming).Accounted := by
  rw [evict]
  split
  next hmax => exact h.return fun _ _ hbounded ↦ absurd hmax hbounded
  next => exact h.push ⟨rfl, rfl, rfl⟩

/-! ### The calls' parts -/

/-- and its safe look at the bytes, -/
theorem accounted_check (h : s.Accounted) {incoming : UInt64}
    (hsafe : 2 ^ 64 ≤ s.currentBytes.toNat + incoming.toNat →
      s.maxBytes < s.currentBytes + incoming) : (s.check incoming).Accounted := by
  rw [check]
  split
  next => exact h.push ⟨rfl, rfl, rfl⟩
  next hfits =>
    refine h.return fun _ hevicted _ ↦ ?_
    obtain rfl := congrArg Prod.fst (Option.some.inj hevicted)
    have hlt := Nat.lt_of_not_le fun hge ↦ hfits (hsafe hge)
    have hle := UInt64.le_iff_toNat_le.1 (UInt64.not_lt.1 hfits)
    rw [UInt64.toNat_add, Nat.mod_eq_of_lt hlt] at hle
    exact hle

/-- and its choice of a victim. -/
theorem accounted_pick (h : s.Accounted) (incoming : UInt64) (victim : Option CalendarRecord) :
    (s.pick incoming victim).Accounted := by
  rcases victim with - | rec
  · refine h.return fun _ hevicted _ ↦ ?_
    have hok := congrArg Prod.snd (Option.some.inj hevicted)
    cases hok
  · exact h.push ⟨rfl, rfl, rfl⟩

/-- Subtracting for a record that is still there does not underflow. -/
theorem accounted_subtract (h : s.Accounted) {incoming : UInt64} {victim : CalendarRecord}
    (hthere : ∃ rec, s.records.lookup victim.peerId = some rec ∧
      rec.sizeBytes = victim.sizeBytes) (hnot : ¬s.Discards victim.peerId) :
    Accounted { s.fetchSub victim with calls := .discard incoming victim ::ₘ s.calls } := by
  have hvictims : ∀ incoming' victim', .discard incoming' victim' ∈
      LruCall.discard incoming victim ::ₘ s.calls →
      ∃ rec, s.records.lookup victim'.peerId = some rec ∧ rec.size = victim'.size := by
    intro incoming' victim' hmem
    rcases Multiset.mem_cons.1 hmem with heq | hmem
    · obtain ⟨-, rfl⟩ := LruCall.discard.inj heq
      obtain ⟨rec, hlookup, hsize⟩ := hthere
      exact ⟨rec, hlookup, congrArg UInt64.toNat hsize⟩
    · exact h.victims incoming' victim' hmem
  have hdistinct : ((LruCall.discard incoming victim ::ₘ s.calls).filterMap
      LruCall.victim?).Nodup := by
    rw [Multiset.filterMap_cons_some LruCall.victim? _ _ rfl]
    exact Multiset.nodup_cons.2 ⟨fun hmem ↦ hnot (mem_filterMap_victim.1 hmem), h.distinct⟩
  have htaken := taken_le_total hvictims hdistinct
  rw [sum_map_cons] at htaken
  replace htaken : victim.size + (s.calls.map LruCall.taken).sum ≤ _ := htaken
  have hbytes := h.bytes
  have hle : victim.sizeBytes ≤ s.currentBytes := by
    rw [UInt64.le_iff_toNat_le]
    show victim.size ≤ _
    omega
  refine ⟨?_, hvictims, hdistinct, ?_, h.pinned,
    fun _ hevicted ↦ absurd hevicted.symm (Option.some_ne_none _)⟩
  · show (s.currentBytes - victim.sizeBytes).toNat + ((_ ::ₘ s.calls).map _).sum =
      _ + ((_ ::ₘ s.calls).map _).sum
    rw [UInt64.toNat_sub_of_le _ _ hle, sum_map_cons, sum_map_cons]
    show s.currentBytes.toNat - victim.size + (victim.size + _) = s.records.total _ + (0 + _)
    have hle : victim.size ≤ s.currentBytes.toNat := UInt64.le_iff_toNat_le.1 hle
    omega
  · show (s.underflowed || decide (s.currentBytes < victim.sizeBytes)) = false
    rw [h.not_underflowed, decide_eq_false (UInt64.not_lt.2 hle)]
    rfl

/-- The victim whose size was subtracted is taken out of the map. -/
theorem accounted_discard (h : s.Accounted) {incoming : UInt64} {victim : CalendarRecord}
    {rest : Multiset LruCall} (hcalls : s.calls = .discard incoming victim ::ₘ rest)
    (hsafe : ∀ rec, s.records.lookup victim.peerId = some rec → rec.bin ≠ .myOwn) :
    Accounted ({ s with calls := rest }.discard incoming victim) := by
  obtain ⟨rec, hlookup, hsize⟩ :=
    h.victims incoming victim (hcalls ▸ Multiset.mem_cons_self _ _)
  have hdistinct := h.distinct
  rw [hcalls, Multiset.filterMap_cons_some LruCall.victim? _ _ rfl, Multiset.nodup_cons,
    mem_filterMap_victim] at hdistinct
  obtain ⟨hnot, hdistinct⟩ := hdistinct
  refine ⟨?_, fun incoming' victim' hmem ↦ ?_, ?_, h.not_underflowed, fun peerId hmem ↦ ?_,
    fun _ hevicted ↦ absurd hevicted.symm (Option.some_ne_none _)⟩
  · have herase := KeyedTable.total_erase CalendarRecord.size hlookup
    have hbytes : s.currentBytes.toNat + (victim.size + (rest.map LruCall.taken).sum) =
      s.records.total CalendarRecord.size + (0 + (rest.map LruCall.owed).sum) :=
      h.bytes_cons hcalls
    show s.currentBytes.toNat + ((_ ::ₘ rest).map _).sum =
      (s.records.erase victim.peerId).total _ + ((_ ::ₘ rest).map _).sum
    rw [sum_map_cons, sum_map_cons]
    show s.currentBytes.toNat + (0 + _) = _ + (0 + _)
    omega
  · have hmem : LruCall.discard incoming' victim' ∈ rest :=
      (Multiset.mem_cons.1 hmem).resolve_left LruCall.noConfusion
    obtain ⟨found, hfound, hfoundSize⟩ :=
      h.victims incoming' victim' (hcalls ▸ Multiset.mem_cons_of_mem hmem)
    have hne : victim'.peerId ≠ victim.peerId := fun heq ↦ hnot ⟨incoming', victim', hmem, heq⟩
    exact ⟨found, (KeyedTable.lookup_erase_of_ne hne).trans hfound, hfoundSize⟩
  · show ((_ ::ₘ rest).filterMap _).Nodup
    rw [Multiset.filterMap_cons_none _ _ rfl]
    exact hdistinct
  · obtain ⟨found, hfound, hbin⟩ := h.pinned peerId hmem
    have hne : peerId ≠ victim.peerId := by
      rintro rfl
      exact hsafe found hfound hbin
    exact ⟨found, (KeyedTable.lookup_erase_of_ne hne).trans hfound, hbin⟩

/-- `remove` subtracts what it owes, which does not underflow. -/
theorem accounted_settle (h : s.Accounted) {rec : CalendarRecord} {rest : Multiset LruCall}
    (hcalls : s.calls = .settle rec ::ₘ rest) :
    Accounted ({ s with calls := rest }.fetchSub rec) := by
  have hvictims : ∀ incoming victim, .discard incoming victim ∈ rest →
      ∃ found, s.records.lookup victim.peerId = some found ∧ found.size = victim.size :=
    fun incoming victim hmem ↦
      h.victims incoming victim (hcalls ▸ Multiset.mem_cons_of_mem hmem)
  have hdistinct : (rest.filterMap LruCall.victim?).Nodup := by
    have hdistinct := h.distinct
    rw [hcalls, Multiset.filterMap_cons_none _ _ rfl] at hdistinct
    exact hdistinct
  -- The other calls' records and this one are distinct rows of the map.
  have htaken := taken_le_total hvictims hdistinct
  have hbytes : s.currentBytes.toNat + (0 + (rest.map LruCall.taken).sum) =
    s.records.total CalendarRecord.size + (rec.size + (rest.map LruCall.owed).sum) :=
    h.bytes_cons hcalls
  have hle : rec.sizeBytes ≤ s.currentBytes := by
    rw [UInt64.le_iff_toNat_le]
    show rec.size ≤ _
    omega
  refine ⟨?_, hvictims, hdistinct, ?_, h.pinned,
    fun _ hevicted ↦ absurd hevicted.symm (Option.some_ne_none _)⟩
  · show (s.currentBytes - rec.sizeBytes).toNat + _ = s.records.total _ + _
    rw [UInt64.toNat_sub_of_le _ _ hle]
    show s.currentBytes.toNat - rec.size + (rest.map _).sum = _ + (rest.map _).sum
    omega
  · show (s.underflowed || decide (s.currentBytes < rec.sizeBytes)) = false
    rw [h.not_underflowed, decide_eq_false (UInt64.not_lt.2 hle)]
    rfl

/-! ### Steps and runs -/

/-- A safe step keeps the account. -/
theorem accounted_step {e : LruEvent} {s' : BinBasedLru} (h : s.Accounted)
    (hstep : Guarded LruStep Safe s e s') : s'.Accounted := by
  obtain ⟨hsafe, hstep⟩ := hstep
  rcases hstep with _ | _ | _ | _ | _ | ⟨hcalls, -⟩
  case insert => exact accounted_insert h hsafe
  case touch => exact accounted_touch h hsafe
  case demote => exact accounted_demote h hsafe
  case remove => exact accounted_remove h hsafe
  case evict => exact accounted_evict h _
  case goOn call rest victim =>
    rcases call with incoming | incoming | ⟨incoming, rec⟩ | ⟨incoming, rec⟩ | rec
    case check => exact accounted_check (h.pop hcalls ⟨rfl, rfl, rfl⟩) hsafe
    case pick => exact accounted_pick (h.pop hcalls ⟨rfl, rfl, rfl⟩) incoming victim
    case subtract =>
      -- What is safe is said of the state with this call, which has not subtracted yet.
      obtain ⟨hthere, hnot⟩ := hsafe
      refine accounted_subtract (h.pop hcalls ⟨rfl, rfl, rfl⟩) hthere ?_
      rintro ⟨incoming', victim', hmem, hkey⟩
      exact hnot ⟨incoming', victim', hcalls ▸ Multiset.mem_cons_of_mem hmem, hkey⟩
    case discard => exact accounted_discard h hcalls hsafe
    case settle => exact accounted_settle h hcalls

/-- In runs of safe steps the cache is sound in every state reached. -/
theorem sound_of_guardedRun {maxBytes : UInt64} {es : List LruEvent}
    (hrun : Run (Guarded LruStep Safe) (new maxBytes) es s) : s.Sound :=
  (hrun.invariant (I := Accounted) (fun h hstep ↦ accounted_step h hstep)
    (accounted_new maxBytes)).sound

/-- A record is inserted and removed, in three steps. -/
theorem sound_removed : ∃ (rec : CalendarRecord) (s : BinBasedLru),
    Run (Guarded LruStep Safe) (new 1024)
      [.insert rec, .remove "a", .goOn (.settle rec) none] s ∧ s.calls = 0 ∧ s.Sound := by
  let own : CalendarRecord := ⟨"a", .myOwn, 100, 0, "a"⟩
  let inserted := (new 1024).insert own
  let removed := inserted.remove "a"
  have hinsert : (new 1024).Safe (.insert own) := by
    show 0 + 100 < 2 ^ 64
    decide
  have hremove : inserted.Safe (.remove "a") := by
    rintro ⟨incoming, victim, hmem, -⟩
    exact Multiset.notMem_zero _ hmem
  have hsettle : LruStep removed (.goOn (.settle own) none)
      ({ removed with calls := 0 }.fetchSub own) :=
    .goOn rfl fun _ heq ↦ LruCall.noConfusion heq
  have hrun : Run (Guarded LruStep Safe) (new 1024)
      [.insert own, .remove "a", .goOn (.settle own) none]
      ({ removed with calls := 0 }.fetchSub own) :=
    .cons ⟨hinsert, .insert _ own⟩ (.cons ⟨hremove, .remove _ "a"⟩
      (.cons ⟨trivial, hsettle⟩ (.nil _)))
  exact ⟨own, _, hrun, rfl, sound_of_guardedRun hrun⟩

/-- Inserting a record of another size in place of one leaves the counter as it was. -/
theorem not_sound_reinserted :
    ¬∀ (maxBytes : UInt64) (es : List LruEvent) (s : BinBasedLru),
      Run LruStep (new maxBytes) es s → s.Sound := by
  intro h
  let large : CalendarRecord := ⟨"a", .used, 100, 0, "a"⟩
  let small : CalendarRecord := ⟨"a", .used, 40, 0, "a"⟩
  have hsound := h 1024 [.insert large, .insert small] (((new 1024).insert large).insert small)
    (.cons (.insert _ large) (.cons (.insert _ small) (.nil _)))
  exact absurd (hsound.bytes rfl) (by decide)

end BinBasedLru

end Foretias

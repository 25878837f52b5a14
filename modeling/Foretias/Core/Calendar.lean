import Foretias.Core.Tick
import Foretias.Library.AscendingList
import Mathlib.Data.List.Chain

/-!
# The calendar

An append-only list of chronon records. `append` refuses a number that is not strictly above the
last one, so the list is strictly ascending by construction; the order is a field of `Calendar`.
Gaps are allowed. `Linked` says that every two neighbouring records pass `verifyPair`, which is
what `integrityCheck` reports over the whole list.
-/

namespace Foretias

/-- The chronon number as a natural number, the key calendars and mirrors are sorted by. -/
def ChrononRecord.key (r : ChrononRecord) : ℕ := r.chrononNumber.toNat

theorem ChrononRecord.key_inj {r r' : ChrononRecord} :
    r.key = r'.key ↔ r.chrononNumber = r'.chrononNumber :=
  UInt64.toNat_inj

/-- Every two neighbouring records pass `verify_pair`. -/
def Linked (P : Primitives) (tbidStr : String) (ticks : List ChrononRecord) : Prop :=
  ticks.IsChain fun prev curr ↦ verifyPair P tbidStr prev curr = .ok true

namespace Linked

variable {P : Primitives} {tbidStr : String} {ticks ticks' : List ChrononRecord}
  {record : ChrononRecord}

@[simp] theorem nil : Linked P tbidStr [] := List.IsChain.nil

@[simp] theorem singleton (record : ChrononRecord) : Linked P tbidStr [record] :=
  List.IsChain.singleton _

theorem append_iff : Linked P tbidStr (ticks ++ ticks') ↔
    Linked P tbidStr ticks ∧ Linked P tbidStr ticks' ∧
      ∀ prev ∈ ticks.getLast?, ∀ curr ∈ ticks'.head?, verifyPair P tbidStr prev curr = .ok true :=
  List.isChain_append

/-- A record linked to the last one extends the chain. -/
theorem concat (h : Linked P tbidStr ticks)
    (hlast : ∀ last ∈ ticks.getLast?, verifyPair P tbidStr last record = .ok true) :
    Linked P tbidStr (ticks ++ [record]) :=
  append_iff.2 ⟨h, singleton record, by simpa using hlast⟩

/-- Of a linked list, every pair is reported valid. -/
theorem mapM_verifyPair (h : Linked P tbidStr ticks) :
    (ticks.zip ticks.tail).mapM (fun (prev, curr) ↦ verifyPair P tbidStr prev curr) =
      .ok (List.replicate (ticks.length - 1) true) := by
  induction ticks with
  | nil => rfl
  | cons prev rest ih =>
    cases rest with
    | nil => rfl
    | cons curr rest =>
      obtain ⟨hpair, hrest⟩ := List.isChain_cons_cons.1 h
      have hmap := ih hrest
      simp only [List.tail_cons] at hmap
      simp only [List.tail_cons, List.zip_cons_cons, List.mapM_cons, hpair, hmap]
      rfl

end Linked

/-- Without bounds, the range of a query is the whole list. -/
theorem filter_chrononNumber_le_max (ticks : List ChrononRecord) :
    ticks.filter (fun t ↦ (0 : UInt64) ≤ t.chrononNumber &&
      t.chrononNumber ≤ UInt64.ofNat (UInt64.size - 1)) = ticks := by
  refine List.filter_eq_self.2 fun t _ ↦ ?_
  have hlt := t.chrononNumber.toNat_lt
  have hmax : (UInt64.ofNat (UInt64.size - 1)).toNat = 2 ^ 64 - 1 := by decide
  simp only [Bool.and_eq_true, decide_eq_true_eq, UInt64.le_iff_toNat_le]
  exact ⟨Nat.zero_le _, by omega⟩

/-- An append-only list of chronon records belonging to one time being. -/
structure Calendar where
  /-- TimeBeing identifier of the owner. -/
  tbid : Tbid
  /-- TimeBeing name. -/
  tbn : String
  /-- The records. -/
  ticks : List ChrononRecord
  /-- Their numbers strictly increase. -/
  ascending : Ascending ChrononRecord.key ticks
  deriving DecidableEq

namespace Calendar

/-- An empty calendar. -/
def new (tbid : Tbid) (tbn : String) : Calendar := ⟨tbid, tbn, [], .nil⟩

@[simp] theorem ticks_new (tbid : Tbid) (tbn : String) : (new tbid tbn).ticks = [] := rfl

variable (c : Calendar)

/-- The most recent record. -/
def latestTick : Option ChrononRecord := c.ticks.getLast?

/-- Is a chronon number above every recorded one? -/
def Above (n : UInt64) : Prop := ∀ last ∈ c.latestTick, last.chrononNumber < n

instance (n : UInt64) : Decidable (c.Above n) :=
  inferInstanceAs (Decidable (∀ last ∈ c.ticks.getLast?, last.chrononNumber < n))

theorem Above.key_lt {c : Calendar} {record : ChrononRecord} (h : c.Above record.chrononNumber) :
    ∀ r ∈ c.ticks, r.key < record.key := by
  intro r hr
  obtain ⟨last, hlast⟩ := Option.isSome_iff_exists.1
    (List.getLast?_isSome.2 (List.ne_nil_of_mem hr))
  exact (c.ascending.le_getLast hlast hr).trans_lt (UInt64.lt_iff_toNat_lt.1 (h last hlast))

/-- Append a record; its number must be strictly greater than the last. -/
def append (record : ChrononRecord) : Except NodeError Calendar :=
  if h : c.Above record.chrononNumber then
    .ok { c with
      ticks := c.ticks ++ [record]
      ascending := c.ascending.concat h.key_lt }
  else
    let last := (c.latestTick.map ChrononRecord.chrononNumber).getD 0
    .error (.internal
      s!"tick number {record.chrononNumber} is not strictly greater than last tick {last}")

/-- The observer's `on_tick_advance`: a refused record is only logged. -/
def onTickAdvance (record : ChrononRecord) : Calendar :=
  match c.append record with
  | .ok c' => c'
  | .error _ => c

/-- `CalendarLookup::get`: up to `count` records numbered `n` or later. -/
def get (n : UInt64) (count : ℕ) : List ChrononRecord :=
  (c.ticks.filter fun t ↦ n ≤ t.chrononNumber).take count

/-- The calendar as a lookup; it never fails. -/
def lookup : CalendarLookup := ⟨fun n count ↦ pure (c.get n count)⟩

/-- `integrity_check`: one answer for each neighbouring pair in the range. -/
def integrityCheck (P : Primitives) (tbidStr : String) (start fin : Option UInt64) :
    Result NodeError (List Bool) :=
  let startTick := start.getD 0
  let endTick := fin.getD (UInt64.ofNat (UInt64.size - 1))
  let ticks := c.ticks.filter fun t ↦
    startTick ≤ t.chrononNumber && t.chrononNumber ≤ endTick
  if ticks.length < 2 then pure []
  else (ticks.zip ticks.tail).mapM fun (prev, curr) ↦ verifyPair P tbidStr prev curr

variable {c}

theorem ticks_onTickAdvance (record : ChrononRecord) :
    (c.onTickAdvance record).ticks =
      if c.Above record.chrononNumber then c.ticks ++ [record] else c.ticks := by
  rw [onTickAdvance, append]
  by_cases h : c.Above record.chrononNumber
  · rw [dif_pos h, if_pos h]
  · rw [dif_neg h, if_neg h]

/-- The query for a recorded number starts with that record. -/
theorem head?_get_of_mem {r : ChrononRecord} (hr : r ∈ c.ticks) (count : ℕ) :
    (c.get r.chrononNumber (count + 1)).head? = some r := by
  rw [get, List.head?_take, if_neg (Nat.succ_ne_zero count)]
  exact c.ascending.head?_filter_le_of_mem hr

/-- The query starts with the least recorded number that is not below the one asked for. -/
theorem head?_get_iff {n : UInt64} {r : ChrononRecord} (count : ℕ) :
    (c.get n (count + 1)).head? = some r ↔
      r ∈ c.ticks ∧ n ≤ r.chrononNumber ∧
        ∀ r' ∈ c.ticks, n ≤ r'.chrononNumber → r.chrononNumber ≤ r'.chrononNumber := by
  rw [get, List.head?_take, if_neg (Nat.succ_ne_zero count)]
  exact c.ascending.head?_filter_le (n := n.toNat)

/-- Two records of one number are one record. -/
theorem eq_of_chrononNumber_eq {r r' : ChrononRecord} (hr : r ∈ c.ticks) (hr' : r' ∈ c.ticks)
    (h : r.chrononNumber = r'.chrononNumber) : r = r' :=
  c.ascending.eq_of_key_eq hr hr' (ChrononRecord.key_inj.2 h)

/-- A linked calendar passes its integrity check: every pair is reported valid. -/
theorem integrityCheck_of_linked {P : Primitives} {tbidStr : String}
    (h : Linked P tbidStr c.ticks) :
    c.integrityCheck P tbidStr none none = .ok (List.replicate (c.ticks.length - 1) true) := by
  rw [integrityCheck]
  simp only [Option.getD_none, filter_chrononNumber_le_max]
  split
  · rename_i hshort
    rw [show c.ticks.length - 1 = 0 by omega]
    rfl
  · exact h.mapM_verifyPair

end Calendar

end Foretias

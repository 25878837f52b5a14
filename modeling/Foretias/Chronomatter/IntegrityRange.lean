import Foretias.Core.LoadGate
import Foretias.Core.SignatureLengths

/-!
# The integrity check of the chronomatter

`Calendar::integrity_check` checks every neighbouring pair of the records inside a range.
`Chronomatter::integrity_check` first fetches at most 10000 records from the start of the range
on, and checks the pairs among those, so what lies beyond them is reported neither way.

* `integrityCheck_eq_iff` — the calendars and ranges for which the two give the same report.
-/

namespace Foretias

/-- A calendar's data as a lookup; it never fails. -/
def CalendarData.lookup {A : Type} (c : CalendarData A) : CalendarLookup :=
  ⟨fun n count ↦ pure ((c.get n count).map CalendarTick.record)⟩

/-- `Chronomatter::integrity_check` of a calendar with a TBID. -/
def Chronomatter.integrityCheck (P : Primitives) (calendar : CalendarLookup) (tbid : Tbid)
    (start fin : Option UInt64) : Result NodeError (List Bool) := do
  let records ← calendar.get (start.getD 0) 10000
  if records = [] then pure []
  else
    let startTick := start.getD 0
    let endTick := fin.getD (UInt64.ofNat (UInt64.size - 1))
    let filtered := records.filter fun t ↦
      startTick ≤ t.chrononNumber && t.chrononNumber ≤ endTick
    if filtered = [] then pure []
    else if 2 ≤ filtered.length then
      let tbidStr := tbid.toHex
      (filtered.zip filtered.tail).mapM fun (prev, curr) ↦ verifyPair P tbidStr prev curr
    else pure []

/-! ### Neighbouring pairs -/

section Neighbours

/-- The neighbouring pairs of a list. -/
def neighbours {α : Type} (l : List α) : List (α × α) := l.zip l.tail

variable {α : Type} {l l' : List α}

@[simp] theorem length_neighbours : (neighbours l).length = l.length - 1 := by
  rw [neighbours, List.length_zip, List.length_tail]
  omega

theorem neighbours_eq_nil (h : l.length < 2) : neighbours l = [] :=
  List.eq_nil_of_length_eq_zero (by rw [length_neighbours]; omega)

/-- The pairs of a list are those of a beginning, and then those from its last element on. -/
theorem neighbours_append :
    neighbours (l ++ l') = neighbours l ++ neighbours (l.getLast?.toList ++ l') := by
  induction l with
  | nil => rfl
  | cons a l ih =>
    cases l with
    | nil => rfl
    | cons b l => exact congrArg ((a, b) :: ·) ih

/-- Nothing is paired past a beginning when nothing is there, or there are fewer than two elements
at all. -/
theorem neighbours_getLast_append_eq_nil :
    neighbours (l.getLast?.toList ++ l') = [] ↔ l' = [] ∨ (l ++ l').length < 2 := by
  rw [← List.length_eq_zero_iff, length_neighbours, ← List.length_eq_zero_iff, List.length_append,
    List.length_append]
  cases hlast : l.getLast? with
  | none =>
    obtain rfl := List.getLast?_eq_none_iff.1 hlast
    simp only [Option.toList_none, List.length_nil]
    omega
  | some a =>
    have hpos := List.length_pos_of_mem (List.mem_of_getLast? hlast)
    simp only [Option.toList_some, List.length_singleton]
    omega

variable {ε β : Type} {f : α → Result ε β}

/-- Results of a list are as many as its elements. -/
theorem length_of_mapM {bs : List β} (h : l.mapM f = .ok bs) : bs.length = l.length := by
  induction l generalizing bs with
  | nil =>
    obtain rfl := Result.pure_eq_ok.1 h
    rfl
  | cons a l ih =>
    rw [List.mapM_cons] at h
    obtain ⟨b, -, h⟩ := Result.bind_eq_ok.1 h
    obtain ⟨bs', hbs, h⟩ := Result.bind_eq_ok.1 h
    obtain rfl := Result.pure_eq_ok.1 h
    rw [List.length_cons, List.length_cons, ih hbs]

/-- A list has results exactly when each element has one. -/
theorem exists_mapM_eq_ok : (∃ bs, l.mapM f = .ok bs) ↔ ∀ a ∈ l, ∃ b, f a = .ok b := by
  induction l with
  | nil => exact iff_of_true ⟨[], rfl⟩ fun _ h ↦ absurd h List.not_mem_nil
  | cons a l ih =>
    rw [List.forall_mem_cons, ← ih]
    constructor
    · rintro ⟨bs, h⟩
      rw [List.mapM_cons] at h
      obtain ⟨b, hb, h⟩ := Result.bind_eq_ok.1 h
      obtain ⟨bs', hbs, -⟩ := Result.bind_eq_ok.1 h
      exact ⟨⟨b, hb⟩, bs', hbs⟩
    · rintro ⟨⟨b, hb⟩, bs, hbs⟩
      refine ⟨b :: bs, ?_⟩
      rw [List.mapM_cons, hb]
      exact Result.bind_eq_ok.2 ⟨b, rfl, Result.bind_eq_ok.2 ⟨bs, hbs, rfl⟩⟩

/-- A longer list has the same outcome exactly when it has nothing more, or the beginning already
fails. -/
theorem mapM_append_eq_iff : (l ++ l').mapM f = l.mapM f ↔
    l' = [] ∨ ∃ a ∈ l, ∀ b, f a ≠ .ok b := by
  constructor
  · intro h
    refine or_iff_not_imp_right.2 fun hall ↦ ?_
    have hok : ∀ a ∈ l, ∃ b, f a = .ok b := by
      intro a ha
      by_contra hfail
      exact hall ⟨a, ha, fun b hb ↦ hfail ⟨b, hb⟩⟩
    obtain ⟨bs, hbs⟩ := exists_mapM_eq_ok.2 hok
    have hlength := (length_of_mapM (h.trans hbs)).symm.trans (length_of_mapM hbs)
    rw [List.length_append] at hlength
    exact List.eq_nil_of_length_eq_zero (by omega)
  · rintro (rfl | ⟨a, ha, hfail⟩)
    · rw [List.append_nil]
    · -- the first failure is reached in both
      rw [List.mapM_append]
      cases hmap : l.mapM f with
      | error e => rfl
      | ok bs =>
        obtain ⟨b, hb⟩ := exists_mapM_eq_ok.1 ⟨bs, hmap⟩ a ha
        exact absurd hb (hfail b)

end Neighbours

/-! ### The two reports -/

namespace CalendarData

variable {A : Type} (c : CalendarData A) (start fin : Option UInt64)

/-- Does a record lie inside a range? -/
def within (t : ChrononRecord) : Bool :=
  start.getD 0 ≤ t.chrononNumber &&
    t.chrononNumber ≤ fin.getD (UInt64.ofNat (UInt64.size - 1))

/-- The records inside a range. -/
def inRange : List ChrononRecord := c.records.filter (within start fin)

/-- The records from the start of a range on. -/
def fromStart : List ChrononRecord := c.records.filter fun t ↦ start.getD 0 ≤ t.chrononNumber

/-- The records inside a range that are among the first 10000 from its start on. -/
def firstInRange : List ChrononRecord := ((c.fromStart start).take 10000).filter (within start fin)

/-- The records inside a range that come later. -/
def laterInRange : List ChrononRecord := ((c.fromStart start).drop 10000).filter (within start fin)

variable {c start fin} {P : Primitives}

theorem inRange_eq_append :
    c.inRange start fin = c.firstInRange start fin ++ c.laterInRange start fin := by
  rw [firstInRange, laterInRange, ← List.filter_append, List.take_append_drop, fromStart,
    List.filter_filter, inRange]
  refine List.filter_congr fun t _ ↦ ?_
  rw [within]
  cases hstart : decide (start.getD 0 ≤ t.chrononNumber) with
  | false => rfl
  | true => rw [Bool.true_and, Bool.and_true]

/-- Without bounds, every record is inside. -/
theorem inRange_none : c.inRange none none = c.records :=
  filter_chrononNumber_le_max c.records

/-- The calendar's check is of every pair in the range. -/
theorem integrityCheck_eq (tbidStr : String) :
    c.integrityCheck P tbidStr start fin =
      (neighbours (c.inRange start fin)).mapM fun pair ↦
        verifyPair P tbidStr pair.1 pair.2 := by
  rw [integrityCheck]
  split
  · rename_i hshort
    rw [neighbours_eq_nil (show (c.inRange start fin).length < 2 from hshort)]
    rfl
  · rfl

theorem get_lookup : c.lookup.get (start.getD 0) 10000 = .ok ((c.fromStart start).take 10000) := by
  refine congrArg Except.ok ?_
  rw [get, List.map_take, fromStart, records, List.filter_map]
  rfl

end CalendarData

namespace Chronomatter

variable {A : Type} {P : Primitives} {c : CalendarData A} {tbid : Tbid} {start fin : Option UInt64}

/-- The chronomatter's check is of the pairs among the first 10000 records. -/
theorem integrityCheck_eq :
    Chronomatter.integrityCheck P c.lookup tbid start fin =
      (neighbours (c.firstInRange start fin)).mapM fun pair ↦
        verifyPair P tbid.toHex pair.1 pair.2 := by
  rw [integrityCheck, CalendarData.get_lookup]
  change (if (c.fromStart start).take 10000 = [] then pure []
    else if c.firstInRange start fin = [] then pure []
    else if 2 ≤ (c.firstInRange start fin).length then
      (neighbours (c.firstInRange start fin)).mapM fun pair ↦ verifyPair P tbid.toHex pair.1 pair.2
    else pure []) = _
  split
  · rename_i hnil
    rw [CalendarData.firstInRange, hnil]
    rfl
  split
  · rename_i hnil
    rw [hnil]
    rfl
  split
  · rfl
  · rename_i hshort
    rw [neighbours_eq_nil (Nat.lt_of_not_le hshort)]
    rfl

/-- The reports are the same when the calendar's has no further pair, or stops before it. -/
theorem integrityCheck_eq_calendar_iff :
    Chronomatter.integrityCheck P c.lookup tbid start fin =
        c.integrityCheck P tbid.toHex start fin ↔
      c.laterInRange start fin = [] ∨ (c.inRange start fin).length < 2 ∨
        ∃ pair ∈ neighbours (c.firstInRange start fin),
          ∀ valid, verifyPair P tbid.toHex pair.1 pair.2 ≠ .ok valid := by
  rw [integrityCheck_eq, CalendarData.integrityCheck_eq, CalendarData.inRange_eq_append,
    neighbours_append, eq_comm, mapM_append_eq_iff, neighbours_getLast_append_eq_nil, or_assoc]

/-- The chronomatter reports what the calendar does, one verdict for each pair in the range,
exactly when the range has no record past the first 10000 from its start, or fewer than two
records, or the check of a pair among the first 10000 fails. -/
theorem integrityCheck_eq_iff :
    (Chronomatter.integrityCheck P c.lookup c.tbid start fin =
        c.integrityCheck P c.tbid.toHex start fin ∧
      ∀ results, Chronomatter.integrityCheck P c.lookup c.tbid start fin = .ok results →
        results.length = (c.inRange start fin).length - 1) ↔
      c.laterInRange start fin = [] ∨ (c.inRange start fin).length < 2 ∨
        ∃ pair ∈ neighbours (c.firstInRange start fin),
          ∀ valid, verifyPair P c.tbid.toHex pair.1 pair.2 ≠ .ok valid := by
  rw [← integrityCheck_eq_calendar_iff]
  refine ⟨fun h ↦ h.1, fun h ↦ ⟨h, fun results hresults ↦ ?_⟩⟩
  rw [h, CalendarData.integrityCheck_eq] at hresults
  rw [length_of_mapM hresults, length_neighbours]

end Chronomatter

/-! ### A long calendar -/

/-- A record with a number, and with a key and signatures of Ed25519's lengths. -/
def blankRecord (n : ℕ) : ChrononRecord :=
  { (default : ChrononRecord) with
    chrononNumber := .ofNat n
    publicKey := List.replicate 32 0
    signatureAlgorithm := "Ed25519"
    forwardForetis := List.replicate 64 0
    backwardForetis := List.replicate 64 0 }

/-- The calendar of as many such records, numbered from 1. -/
def blankCalendar (size : ℕ) : CalendarData Unit :=
  ⟨default, "", default, (List.range size).map fun i ↦ ⟨blankRecord (i + 1), []⟩⟩

theorem length_records_blankCalendar (size : ℕ) : (blankCalendar size).records.length = size := by
  rw [CalendarData.records, List.length_map, blankCalendar, List.length_map, List.length_range]

theorem exists_blankRecord_of_mem {size : ℕ} {r : ChrononRecord}
    (hr : r ∈ (blankCalendar size).records) : ∃ n, blankRecord n = r := by
  obtain ⟨t, ht, rfl⟩ := List.mem_map.1 hr
  obtain ⟨i, -, rfl⟩ := List.mem_map.1 ht
  exact ⟨i + 1, rfl⟩

/-- Every pair of blank records has a verdict. -/
theorem exists_verifyPair_blankRecord (P : Primitives) (tbidStr : String) (m n : ℕ) :
    ∃ valid, verifyPair P tbidStr (blankRecord m) (blankRecord n) = .ok valid := by
  have hverify : ∀ msg, ∃ valid,
      verifyWith P (List.replicate 32 0) "Ed25519" msg (List.replicate 64 0) = .ok valid := by
    intro msg
    have hfits : FitsAlgorithm (List.replicate 32 0) "Ed25519" (List.replicate 64 0) :=
      fitsAlgorithm_ed25519.2 (by decide)
    exact (exists_verifyWith_eq_ok P msg hfits).resolve_right fun h ↦ h .ed25519 rfl
  have hversion : (blankRecord n).tbVersion ≠ 1 :=
    show (default : ChrononRecord).tbVersion ≠ 1 by decide
  obtain ⟨forwardValid, hforward⟩ := hverify (buildNormalAttestBlob tbidStr (blankRecord m)
    (blankRecord n) (blankRecord n).chrononStampCount (blankRecord n).aaNonce)
  refine ⟨forwardValid && forwardValid && true, ?_⟩
  rw [verifyPair, attestation_of_not_genesis fun h ↦ hversion h.2]
  exact Result.bind_eq_ok.2 ⟨_, rfl, Result.bind_eq_ok.2 ⟨_, Result.mapErr_eq_ok.2 hforward,
    Result.bind_eq_ok.2 ⟨_, Result.mapErr_eq_ok.2 hforward, rfl⟩⟩⟩

/-- Every pair of such a calendar has a verdict. -/
theorem exists_integrityCheck_blankCalendar (P : Primitives) (tbidStr : String) (size : ℕ) :
    ∃ results, (blankCalendar size).integrityCheck P tbidStr none none = .ok results := by
  rw [CalendarData.integrityCheck_eq, CalendarData.inRange_none]
  refine exists_mapM_eq_ok.2 fun pair hpair ↦ ?_
  obtain ⟨m, hm⟩ := exists_blankRecord_of_mem (List.of_mem_zip hpair).1
  obtain ⟨n, hn⟩ := exists_blankRecord_of_mem (List.mem_of_mem_tail (List.of_mem_zip hpair).2)
  rw [← hm, ← hn]
  exact exists_verifyPair_blankRecord P tbidStr m n

/-- Of 10000 pairs the chronomatter reports at most 9999. -/
theorem not_integrityCheck_blankCalendar :
    Chronomatter.integrityCheck .transparent (blankCalendar 10001).lookup (blankCalendar 10001).tbid
        none none ≠
      (blankCalendar 10001).integrityCheck .transparent (blankCalendar 10001).tbid.toHex none
        none := by
  intro h
  obtain ⟨results, hresults⟩ := exists_integrityCheck_blankCalendar .transparent
    (blankCalendar 10001).tbid.toHex 10001
  have hfirst := length_of_mapM (Chronomatter.integrityCheck_eq.symm.trans (h.trans hresults))
  have hall := length_of_mapM ((CalendarData.integrityCheck_eq _).symm.trans hresults)
  rw [length_neighbours] at hfirst hall
  rw [CalendarData.inRange_none, length_records_blankCalendar] at hall
  have hle : ((blankCalendar 10001).firstInRange none none).length ≤ 10000 :=
    (List.length_filter_le _ _).trans (List.length_take_le _ _)
  omega

end Foretias

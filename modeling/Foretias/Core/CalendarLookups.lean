import Foretias.Core.VerificationPaths

/-!
# The implementations of the calendar lookup

`get` of a lookup is to return up to `count` records from a chronon number on. `Calendar` selects
by number, `CalendarInspect` by position in the list, and of the two lookups over one record
`FetchedCalendar` answers for its own number only and `CalendarLookupFromCleanRecord` for every
number.

* `lookupsAgree_iff` — the queries to which all four give the answer of a calendar.
-/

namespace Foretias

/-- `CalendarInspect` over a calendar: skip as many records as the number says. -/
def calendarInspect (calendar : Calendar) : CalendarLookup :=
  ⟨fun start count ↦ pure ((calendar.ticks.drop start.toNat).take count)⟩

/-- A calendar that holds one record. -/
def Calendar.ofRecord (record : ChrononRecord) : Calendar where
  tbid := record.tbid
  tbn := ""
  ticks := [record]
  ascending := .singleton record

/-- The lookups agree: over a calendar `CalendarInspect` gives the calendar's answer, and the two
lookups over one record answer like the calendar that holds only that. -/
structure LookupsAgree (calendar : Calendar) (n : UInt64) (count : ℕ) (record : ChrononRecord)
    (start : UInt64) : Prop where
  /-- `CalendarInspect`. -/
  inspect : (calendarInspect calendar).get n count = calendar.lookup.get n count
  /-- `FetchedCalendar`. -/
  fetched : (fetchedCalendar record).get start 1 = (Calendar.ofRecord record).lookup.get start 1
  /-- `CalendarLookupFromCleanRecord`. -/
  clean : ∀ clean : CleanAuthenticated ChrononRecord, clean.inner = record →
    (UnverifiedSignatureEnvelope.calendarLookupFromCleanRecord clean).get start 1 =
      (Calendar.ofRecord record).lookup.get start 1

variable {calendar : Calendar} {record : ChrononRecord} {n start : UInt64} {count : ℕ}

/-- Cutting a list without repetitions at two places gives the same elements only at one place. -/
theorem take_drop_eq_iff {α : Type} {l : List α} (hl : l.Nodup) {m k : ℕ} (hk : k ≤ l.length) :
    (l.drop m).take count = (l.drop k).take count ↔ count = 0 ∨ k = min m l.length := by
  constructor
  · intro h
    refine or_iff_not_imp_left.2 fun hcount ↦ ?_
    have hhead : l[m]? = l[k]? := by
      have := congrArg List.head? h
      rwa [List.head?_take, List.head?_take, if_neg hcount, if_neg hcount, List.head?_drop,
        List.head?_drop] at this
    rcases Nat.lt_or_ge m l.length with hm | hm
    · rw [min_eq_left hm.le]
      exact ((List.getElem?_inj hm hl).1 hhead).symm
    · rw [min_eq_right hm]
      rw [List.getElem?_eq_none hm] at hhead
      exact le_antisymm hk (List.getElem?_eq_none_iff.1 hhead.symm)
  · rintro (rfl | rfl)
    · rfl
    rcases Nat.lt_or_ge m l.length with hm | hm
    · rw [min_eq_left hm.le]
    · rw [min_eq_right hm, List.drop_eq_nil_of_le hm, List.drop_length]

/-- A calendar's query drops the records below the number. -/
theorem Calendar.get_eq_take_drop :
    calendar.get n count =
      (calendar.ticks.drop (calendar.ticks.countP fun t ↦ t.chrononNumber < n)).take count := by
  exact congrArg (List.take count) (calendar.ascending.filter_le_eq_drop n.toNat)

theorem calendarInspect_get_eq_iff :
    (calendarInspect calendar).get n count = calendar.lookup.get n count ↔
      count = 0 ∨ (calendar.ticks.countP fun t ↦ t.chrononNumber < n) =
        min n.toNat calendar.ticks.length := by
  have hnodup : calendar.ticks.Nodup := .of_map _ calendar.ascending.nodup_map
  rw [← take_drop_eq_iff hnodup List.countP_le_length, ← Calendar.get_eq_take_drop]
  exact iff_of_eq (Except.ok.injEq _ _)

/-- Two answers of one record or none are the same when they are given in the same cases. -/
theorem pure_ite_eq_iff {p q : Prop} [Decidable p] [Decidable q] :
    (pure (if p then [record] else []) : Result NodeError (List ChrononRecord)) =
      pure (if q then [record] else []) ↔ (p ↔ q) := by
  by_cases hp : p
  · by_cases hq : q
    · exact iff_of_true (by rw [if_pos hp, if_pos hq]) (iff_of_true hp hq)
    · rw [if_pos hp, if_neg hq]
      exact iff_of_false (fun h ↦ List.cons_ne_nil _ _ (Except.ok.inj h)) fun h ↦ hq (h.1 hp)
  · by_cases hq : q
    · rw [if_neg hp, if_pos hq]
      exact iff_of_false (fun h ↦ List.cons_ne_nil _ _ (Except.ok.inj h).symm) fun h ↦ hp (h.2 hq)
    · exact iff_of_true (by rw [if_neg hp, if_neg hq]) (iff_of_false hp hq)

theorem get_ofRecord :
    (Calendar.ofRecord record).lookup.get start 1 =
      pure (if start ≤ record.chrononNumber then [record] else []) := by
  change pure (List.take 1 (List.filter (fun t ↦ start ≤ t.chrononNumber) [record])) = _
  by_cases h : start ≤ record.chrononNumber
  · rw [if_pos h, List.filter_singleton, decide_eq_true h]
    rfl
  · rw [if_neg h, List.filter_singleton, decide_eq_false h]
    rfl

/-- `FetchedCalendar` misses a record numbered above the number asked for. -/
theorem fetchedCalendar_get_eq_iff :
    (fetchedCalendar record).get start 1 = (Calendar.ofRecord record).lookup.get start 1 ↔
      record.chrononNumber ≤ start := by
  rw [get_ofRecord]
  refine pure_ite_eq_iff.trans ⟨fun h ↦ UInt64.not_lt.1 fun hlt ↦ ?_, fun h ↦ ?_⟩
  · have heq := (h.2 (UInt64.le_of_lt hlt)).1
    exact UInt64.lt_irrefl _ (heq ▸ hlt)
  · exact ⟨fun heq ↦ UInt64.le_of_eq heq.1, fun hle ↦ ⟨UInt64.le_antisymm hle h, le_rfl⟩⟩

/-- `CalendarLookupFromCleanRecord` also answers with a record numbered below. -/
theorem calendarLookupFromCleanRecord_get_eq_iff {clean : CleanAuthenticated ChrononRecord} :
    (UnverifiedSignatureEnvelope.calendarLookupFromCleanRecord clean).get start 1 =
        (Calendar.ofRecord clean.inner).lookup.get start 1 ↔
      start ≤ clean.inner.chrononNumber := by
  rw [get_ofRecord]
  exact (pure_ite_eq_iff (p := True)).trans ⟨fun h ↦ h.1 trivial, fun h ↦ iff_of_true trivial h⟩

/-- The lookups agree exactly on queries for no record, or where the number of records below the
number asked for is that number, or all records are below both; and over one record exactly on
the query for its own number. -/
theorem lookupsAgree_iff :
    LookupsAgree calendar n count record start ↔
      (count = 0 ∨ (calendar.ticks.countP fun t ↦ t.chrononNumber < n) =
        min n.toNat calendar.ticks.length) ∧ start = record.chrononNumber := by
  constructor
  · rintro ⟨hinspect, hfetched, hclean⟩
    refine ⟨calendarInspect_get_eq_iff.1 hinspect, UInt64.le_antisymm ?_ ?_⟩
    · exact calendarLookupFromCleanRecord_get_eq_iff.1 (hclean (.fromTrusted record) rfl)
    · exact fetchedCalendar_get_eq_iff.1 hfetched
  · rintro ⟨hinspect, rfl⟩
    refine ⟨calendarInspect_get_eq_iff.2 hinspect, fetchedCalendar_get_eq_iff.2 ?_, ?_⟩
    · exact UInt64.le_refl _
    · rintro clean rfl
      exact calendarLookupFromCleanRecord_get_eq_iff.2 (UInt64.le_refl _)

/-- The inspector of a calendar with chronon 1 alone finds no chronon 1. -/
theorem not_lookupsAgree_one :
    ¬LookupsAgree (.ofRecord { (default : ChrononRecord) with chrononNumber := 1 }) 1 1 default
      0 := by
  intro h
  have hinspect := Except.ok.inj h.inspect
  exact absurd (congrArg List.length hinspect) (by decide)

end Foretias

import Foretias.Core.CalendarFile
import Foretias.Library.Run

/-!
# The order of a calendar's records

`append` takes a record above the last one, so records appended to a sorted calendar stay sorted.
A load takes the records as its file has them. Over all runs of operations on a calendar and its
files, with the files replaced at will in between, the records are in ascending order as long as
every load adopts a file in which they are (`LoadsSorted`); then a binary search is a linear one, a
range query is a piece of the list, and `append` accepts what is above everything stored.

* `sorted_of_run` — the order, and what rests on it, in every state reached.
-/

namespace Foretias

variable {A : Type}

namespace CalendarData

variable {c c' : CalendarData A} {tick : CalendarTick A}

/-- The records are in strictly ascending order of their numbers. -/
def Sorted (c : CalendarData A) : Prop := Ascending CalendarTick.key c.ticks

instance [DecidableEq A] : Decidable c.Sorted :=
  inferInstanceAs (Decidable (Ascending CalendarTick.key c.ticks))

theorem sorted_new (tbid : Tbid) (tbn : String) : (new tbid tbn : CalendarData A).Sorted := .nil

/-- What is appended is above everything stored. -/
theorem append_eq_ok (hc : c.Sorted) : c.append tick = .ok c' ↔
    (∀ t ∈ c.ticks, t.key < tick.key) ∧ c' = { c with ticks := c.ticks ++ [tick] } := by
  rw [append, latestTick]
  cases hlast : c.ticks.getLast? with
  | none =>
    rw [List.getLast?_eq_none_iff] at hlast
    simp [hlast, eq_comm]
  | some last =>
    have habove : (∀ t ∈ c.ticks, t.key < tick.key) ↔
        ¬tick.record.chrononNumber ≤ last.record.chrononNumber := by
      rw [UInt64.le_iff_toNat_le, Nat.not_le]
      constructor
      · intro h
        exact h last (List.mem_of_getLast? hlast)
      · intro h t ht
        exact (Ascending.le_getLast hc hlast ht).trans_lt h
    rw [habove]
    dsimp only
    split
    · rename_i hle
      exact ⟨fun h ↦ (nomatch h), fun h ↦ absurd hle h.1⟩
    · rename_i hlt
      simp [hlt, eq_comm]

theorem sorted_append (hc : c.Sorted) (h : c.append tick = .ok c') : c'.Sorted := by
  obtain ⟨habove, rfl⟩ := (append_eq_ok hc).1 h
  exact Ascending.concat hc habove

theorem exists_append_iff (hc : c.Sorted) :
    (∃ c', c.append tick = .ok c') ↔ ∀ t ∈ c.ticks, t.key < tick.key := by
  constructor
  · rintro ⟨c', h⟩
    exact ((append_eq_ok hc).1 h).1
  · intro h
    exact ⟨_, (append_eq_ok hc).2 ⟨h, rfl⟩⟩

/-- An attestation changes no number. -/
theorem map_key_attest {n : UInt64} {att : A} {ticks ticks' : List (CalendarTick A)}
    (h : attest n att ticks = some ticks') :
    ticks'.map CalendarTick.key = ticks.map CalendarTick.key := by
  induction ticks generalizing ticks' with
  | nil => cases h
  | cons t ticks ih =>
    rw [attest] at h
    split at h
    · obtain rfl := Option.some_inj.1 h
      rfl
    · obtain ⟨rest, hrest, rfl⟩ := Option.map_eq_some_iff.1 h
      rw [List.map_cons, List.map_cons, ih hrest]

theorem sorted_addExternalAttestation {n : UInt64} {att : A} (hc : c.Sorted)
    (h : c.addExternalAttestation n att = .ok c') : c'.Sorted := by
  rw [addExternalAttestation] at h
  cases hattest : attest n att c.ticks with
  | none =>
    rw [hattest] at h
    cases h
  | some ticks =>
    rw [hattest] at h
    cases h
    refine List.pairwise_map.1 (show (ticks.map CalendarTick.key).Pairwise (· < ·) from ?_)
    rw [map_key_attest hattest]
    exact List.pairwise_map.2 hc

/-- On sorted records the binary search is the linear one. -/
theorem tickAt_eq_find? (hc : c.Sorted) (n : UInt64) :
    c.tickAt n = c.ticks.find? fun t ↦ t.record.chrononNumber = n := by
  have hkey : ∀ t : CalendarTick A, decide (t.key = n.toNat) =
      decide (t.record.chrononNumber = n) := fun t ↦ decide_eq_decide.2 UInt64.toNat_inj
  rw [tickAt, Ascending.binarySearch_bind_eq_find? hc]
  simp only [hkey]

/-- On sorted records a query returns the beginning of the part of the list from its number on. -/
theorem exists_get_eq_take (hc : c.Sorted) (n : UInt64) :
    ∃ below atLeast, c.ticks = below ++ atLeast ∧ (∀ t ∈ below, t.record.chrononNumber < n) ∧
      (∀ t ∈ atLeast, n ≤ t.record.chrononNumber) ∧
      ∀ count, c.get n count = atLeast.take count := by
  obtain ⟨below, hsplit, hlt⟩ := Ascending.exists_append_filter_le hc n.toNat
  refine ⟨below, _, hsplit, fun t ht ↦ UInt64.lt_iff_toNat_lt.2 (hlt t ht), fun t ht ↦ ?_,
    fun count ↦ rfl⟩
  have hle : n.toNat ≤ t.key := of_decide_eq_true (List.mem_filter.1 ht).2
  exact UInt64.le_iff_toNat_le.2 hle

end CalendarData

/-! ### Runs -/

/-- A calendar in memory, and the files of its path. -/
structure CalendarSession (A : Type) where
  /-- The calendar. -/
  cal : CalendarData A
  /-- The files. -/
  files : CalendarFiles

/-- An operation on a calendar or on its files. -/
inductive CalendarOp (A : Type)
  | new (tbid : Tbid) (tbn : String)
  | append (tick : CalendarTick A)
  | addExternalAttestation (n : UInt64) (att : A)
  | save (stop : Option SaveStop)
  | load (removed : Bool)
  | loadAndVerify (tbidStr : String) (start fin : Option UInt64) (removed : Bool)
  /-- Someone else writes the files. -/
  | replaceFiles (files : CalendarFiles)

variable (C : Codec (CalendarData A)) (P : Primitives) (path : String)

/-- The session after an operation; one that returns an error leaves the calendar. -/
def CalendarOp.exec (s : CalendarSession A) : CalendarOp A → CalendarSession A
  | new tbid tbn => { s with cal := .new tbid tbn }
  | append tick => { s with cal := (s.cal.append tick).toOption.getD s.cal }
  | addExternalAttestation n att =>
    { s with cal := (s.cal.addExternalAttestation n att).toOption.getD s.cal }
  | save stop => { s with files := (s.cal.save C stop s.files).2 }
  | load removed =>
    { cal := (s.files.load C path).toOption.getD s.cal, files := s.files.afterLoad removed }
  | loadAndVerify tbidStr start fin removed =>
    { cal := (s.files.loadAndVerify C P path tbidStr start fin).toOption.getD s.cal
      files := s.files.afterLoad removed }
  | replaceFiles files => { s with files := files }

/-- One operation. -/
def CalendarStep (s : CalendarSession A) (op : CalendarOp A) (t : CalendarSession A) : Prop :=
  op.exec C P path s = t

/-- The file that a load adopts holds sorted records: the temporary file, if it parses and the
main file does not hold more records, and otherwise the main file. -/
structure AdoptedSorted (files : CalendarFiles) : Prop where
  tmp : ∀ tmp, files.tmpCal C = some tmp →
    (∀ main, files.mainCal C = some main → main.ticks.length ≤ tmp.ticks.length) → tmp.Sorted
  main : ∀ main, files.mainCal C = some main →
    (∀ tmp, files.tmpCal C = some tmp → tmp.ticks.length < main.ticks.length) → main.Sorted

/-- Loads adopt files of sorted records. -/
def LoadsSorted (s : CalendarSession A) : CalendarOp A → Prop
  | .load _ => AdoptedSorted C s.files
  | .loadAndVerify _ _ _ _ => AdoptedSorted C s.files
  | _ => True

variable {C P path} {s t : CalendarSession A} {op : CalendarOp A} {ops : List (CalendarOp A)}

theorem AdoptedSorted.sorted_load {files : CalendarFiles} {cal : CalendarData A}
    (h : AdoptedSorted C files) (hload : files.load C path = .ok cal) : cal.Sorted := by
  rcases CalendarFiles.load_eq_ok.1 hload with ⟨htmp, hmax⟩ | ⟨hmain, hmax⟩
  · exact h.tmp cal htmp hmax
  · exact h.main cal hmain hmax

/-- What the gate returns is what was loaded. -/
theorem load_of_loadAndVerify {files : CalendarFiles} {cal : CalendarData A} {tbidStr : String}
    {start fin : Option UInt64}
    (h : files.loadAndVerify C P path tbidStr start fin = .ok cal) :
    files.load C path = .ok cal := by
  obtain ⟨loaded, hload, h⟩ := Result.bind_eq_ok.1 h
  obtain ⟨results, -, h⟩ := Result.bind_eq_ok.1 h
  split at h
  · cases h
  · exact Result.pure_eq_ok.1 h ▸ hload

/-- An operation that returns an error, or a property of its result. -/
theorem getD_toOption_of_forall {ε α : Type} {p : α → Prop} {r : Except ε α} {a : α} (ha : p a)
    (hr : ∀ b, r = .ok b → p b) : p (r.toOption.getD a) := by
  cases r with
  | error e => exact ha
  | ok b => exact hr b rfl

/-- What every operation preserves. -/
theorem sorted_step (hs : s.cal.Sorted)
    (hstep : Guarded (CalendarStep C P path) (LoadsSorted C) s op t) : t.cal.Sorted := by
  obtain ⟨hloads, rfl⟩ := hstep
  cases op with
  | new tbid tbn => exact CalendarData.sorted_new tbid tbn
  | append tick =>
    exact getD_toOption_of_forall (p := CalendarData.Sorted) hs fun _ h ↦
      CalendarData.sorted_append hs h
  | addExternalAttestation n att =>
    exact getD_toOption_of_forall (p := CalendarData.Sorted) hs fun _ h ↦
      CalendarData.sorted_addExternalAttestation hs h
  | save stop => exact hs
  | load removed =>
    exact getD_toOption_of_forall (p := CalendarData.Sorted) hs fun _ h ↦
      AdoptedSorted.sorted_load hloads h
  | loadAndVerify tbidStr start fin removed =>
    exact getD_toOption_of_forall (p := CalendarData.Sorted) hs fun _ h ↦
      AdoptedSorted.sorted_load hloads (load_of_loadAndVerify h)
  | replaceFiles files => exact hs

/-- In every run from a new calendar whose loads adopt sorted files, the records are sorted, the
binary search is the linear one, a query returns the first records from its number on, in order,
and `append` accepts exactly the numbers above all stored ones. -/
theorem sorted_of_run {tbid : Tbid} {tbn : String} {files : CalendarFiles}
    (hrun : Run (Guarded (CalendarStep C P path) (LoadsSorted C)) ⟨.new tbid tbn, files⟩ ops s) :
    s.cal.Sorted ∧
    (∀ n, s.cal.tickAt n = s.cal.ticks.find? fun t ↦ t.record.chrononNumber = n) ∧
    (∀ n, ∃ below atLeast, s.cal.ticks = below ++ atLeast ∧
      (∀ t ∈ below, t.record.chrononNumber < n) ∧ (∀ t ∈ atLeast, n ≤ t.record.chrononNumber) ∧
      ∀ count, s.cal.get n count = atLeast.take count) ∧
    ∀ tick, (∃ c, s.cal.append tick = .ok c) ↔
      ∀ t ∈ s.cal.ticks, t.record.chrononNumber < tick.record.chrononNumber := by
  have hsorted : s.cal.Sorted :=
    Run.invariant (I := fun s : CalendarSession A ↦ s.cal.Sorted) sorted_step hrun
      (CalendarData.sorted_new tbid tbn)
  refine ⟨hsorted, CalendarData.tickAt_eq_find? hsorted, CalendarData.exists_get_eq_take hsorted,
    fun tick ↦ ?_⟩
  rw [CalendarData.exists_append_iff hsorted]
  simp only [UInt64.lt_iff_toNat_lt]
  rfl

section Examples

variable (C P path)

/-- A record numbered `n` without attestations. -/
def bareTick (n : UInt64) : CalendarTick Unit :=
  ⟨{ (default : ChrononRecord) with chrononNumber := n }, []⟩

/-- A calendar of the records of some numbers. -/
def bareCalendar (numbers : List UInt64) : CalendarData Unit :=
  ⟨default, "", default, numbers.map bareTick⟩

/-- A calendar saved and loaded again. -/
theorem run_saved {cal : CalendarData A} (hcal : cal.Sorted) (files : CalendarFiles) :
    Run (Guarded (CalendarStep C P path) (LoadsSorted C)) ⟨cal, files⟩ [.save none, .load true]
      ⟨cal, (cal.save C none files).2⟩ := by
  have hload : (cal.save C none files).2.load C path = .ok cal := CalendarFiles.load_serialize cal
  have hmain : ∀ main, (cal.save C none files).2.mainCal C = some main → main.Sorted := by
    intro main h
    have hparse : C.parse (C.serialize cal) = some main := h
    rw [C.parse_serialize, Option.some_inj] at hparse
    exact hparse ▸ hcal
  refine .cons ⟨trivial, rfl⟩ (.cons ⟨⟨fun _ h ↦ (nomatch h), fun main h _ ↦ hmain main h⟩, ?_⟩
    (.nil _))
  rw [CalendarStep, CalendarOp.exec, CalendarOp.exec, hload]
  rfl

/-- A calendar loaded from a file that someone else wrote. -/
theorem run_replaced (s : CalendarSession A) (cal : CalendarData A) :
    Run (CalendarStep C P path) s
      [.replaceFiles ⟨some (C.serialize cal), none⟩, .load true]
      ⟨cal, ⟨some (C.serialize cal), none⟩⟩ := by
  refine .cons rfl (.cons ?_ (.nil _))
  rw [CalendarStep, CalendarOp.exec, CalendarOp.exec, CalendarFiles.load_serialize]
  rfl

end Examples

/-- A calendar of two records, saved and loaded again, finds a record and takes the next one. -/
theorem sorted_two_records :
    Run (Guarded (CalendarStep .unary .transparent "calendar.json") (LoadsSorted .unary))
      ⟨.new default "", .empty⟩
      ([.append (bareTick 3), .append (bareTick 5)] ++ [.save none, .load true])
      ⟨bareCalendar [3, 5], ((bareCalendar [3, 5]).save .unary none .empty).2⟩ ∧
    ((bareCalendar [3, 5]).tickAt 5 = (bareCalendar [3, 5]).ticks.find? fun t ↦
      t.record.chrononNumber = 5) ∧
    ((∃ c, (bareCalendar [3, 5]).append (bareTick 7) = .ok c) ↔
      ∀ t ∈ (bareCalendar [3, 5]).ticks,
        t.record.chrononNumber < (bareTick 7).record.chrononNumber) := by
  have hsorted : (bareCalendar [3, 5]).Sorted := by
    refine List.pairwise_pair.2 ?_
    decide
  have hrun : Run (Guarded (CalendarStep .unary .transparent "calendar.json")
      (LoadsSorted .unary)) ⟨.new default "", .empty⟩
      ([.append (bareTick 3), .append (bareTick 5)] ++ [.save none, .load true])
      ⟨bareCalendar [3, 5], ((bareCalendar [3, 5]).save .unary none .empty).2⟩ :=
    Run.append_iff.2 ⟨_, .cons ⟨trivial, rfl⟩ (.cons ⟨trivial, rfl⟩ (.nil _)),
      run_saved _ _ _ hsorted _⟩
  obtain ⟨-, htick, -, happend⟩ := sorted_of_run hrun
  exact ⟨hrun, htick 5, happend (bareTick 7)⟩

theorem not_sorted_descending : ¬(bareCalendar [5, 3]).Sorted := by
  intro h
  have hlt : (bareTick 5).key < (bareTick 3).key :=
    (List.pairwise_cons.1 h).1 (bareTick 3) List.mem_cons_self
  exact absurd hlt (by decide)

/-- A file with the records 5 and 3 in this order is loaded as it is: the record 5 is there and is
not found, and a record numbered 4 is accepted. -/
theorem load_descending : ∃ s : CalendarSession Unit,
    Run (CalendarStep .unary .transparent "calendar.json") ⟨.new default "", .empty⟩
      [.replaceFiles ⟨some (Codec.unary.serialize (bareCalendar [5, 3])), none⟩, .load true] s ∧
    ¬s.cal.Sorted ∧ bareTick 5 ∈ s.cal.ticks ∧ s.cal.tickAt 5 = none ∧
    s.cal.append (bareTick 4) = .ok (bareCalendar [5, 3, 4]) :=
  ⟨_, run_replaced .unary .transparent "calendar.json" _ (bareCalendar [5, 3]),
    not_sorted_descending, List.mem_cons_self, by decide, by decide⟩

end Foretias

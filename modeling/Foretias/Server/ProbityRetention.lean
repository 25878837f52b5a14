import Foretias.Library.NewestKept
import Foretias.Server.ProbityGossip

/-!
# What the probity store retains

The list of a subject is a bounded list that keeps the newest: of two reports that are the same
the first one stays, and past the cap the oldest go (`insertReport_eq_insertNewest`). So a store
never lacks a report that is newer than one it keeps, and reports with different times leave the
same set whatever order they come in (`probityStore_canonical`).
-/

namespace Foretias

/-- The rank of a report: its time. -/
def ProbityReportRecord.time (r : ProbityReportRecord) : ℕ := r.timestampNs.toNat

theorem ProbityReportRecord.SameReport.refl (r : ProbityReportRecord) : r.SameReport r :=
  ⟨rfl, rfl, rfl⟩

theorem ProbityReportRecord.SameReport.time_eq (r r' : ProbityReportRecord)
    (h : r.SameReport r') : r.time = r'.time := congrArg UInt64.toNat h.2.2

/-- A subject's list takes in a report as a bounded list that keeps the newest. -/
theorem insertReport_eq_insertNewest (maxReports : ℕ) :
    insertReport maxReports =
      insertNewest ProbityReportRecord.time ProbityReportRecord.SameReport maxReports := by
  funext reports report
  have hle : (fun r r' : ProbityReportRecord ↦ decide (r.timestampNs ≤ r'.timestampNs)) =
      fun r r' ↦ decide (r.time ≤ r'.time) := by
    funext r r'
    exact decide_eq_decide.2 UInt64.le_iff_toNat_le
  simp only [insertReport, insertNewest, sortByTimestamp, hle]

/-- The reports on a subject. -/
def reportsAbout (subject : String) (reports : List ProbityReportRecord) :
    List ProbityReportRecord :=
  reports.filter fun r ↦ r.subject = subject

namespace ProbityStore

/-- `with_config`, with a cap. -/
def withConfig (maxReportsPerPeer : ℕ) : ProbityStore where
  reports _ := []
  scores _ := none
  maxReportsPerPeer := maxReportsPerPeer
  length_le _ := Nat.zero_le _
  distinct := new.distinct

example : new = withConfig 500 := rfl

/-- Reports ingested one after another. -/
def ingestAll (store : ProbityStore) (reports : List ProbityReportRecord) : ProbityStore :=
  reports.foldl ingest store

theorem maxReportsPerPeer_ingest (store : ProbityStore) (report : ProbityReportRecord) :
    (store.ingest report).maxReportsPerPeer = store.maxReportsPerPeer := rfl

theorem reports_ingest_of_ne {store : ProbityStore} {report : ProbityReportRecord}
    {subject : String} (h : subject ≠ report.subject) :
    (store.ingest report).reports subject = store.reports subject :=
  Function.update_of_ne h _ _

/-- A subject's list takes in the reports on the subject, in order. -/
theorem reports_ingestAll (store : ProbityStore) (reports : List ProbityReportRecord)
    (subject : String) : (store.ingestAll reports).reports subject =
      (reportsAbout subject reports).foldl (insertReport store.maxReportsPerPeer)
        (store.reports subject) := by
  induction reports generalizing store with
  | nil => rfl
  | cons report reports ih =>
    show ((store.ingest report).ingestAll reports).reports subject = _
    rw [ih, maxReportsPerPeer_ingest, reportsAbout, reportsAbout]
    rcases eq_or_ne subject report.subject with rfl | hne
    · rw [List.filter_cons_of_pos (by simp), List.foldl_cons, reports_ingest]
    · rw [List.filter_cons_of_neg (by simpa using hne.symm), reports_ingest_of_ne hne]

/-- What a new store with a cap has on a subject after reports. -/
def kept (cap : ℕ) (reports : List ProbityReportRecord) (subject : String) :
    List ProbityReportRecord :=
  ((withConfig cap).ingestAll reports).reports subject

variable (cap : ℕ) (reports : List ProbityReportRecord) (subject : String)

/-- A new store keeps the newest reports on a subject. -/
theorem keepsNewest_kept : KeepsNewest ProbityReportRecord.time ProbityReportRecord.SameReport cap
    (reportsAbout subject reports) (kept cap reports subject) := by
  rw [kept, reports_ingestAll, insertReport_eq_insertNewest]
  exact .foldl ProbityReportRecord.SameReport.refl ProbityReportRecord.SameReport.time_eq _

theorem distinct_kept : DistinctReports (kept cap reports subject) :=
  ((withConfig cap).ingestAll reports).distinct subject

theorem nodup_kept : (kept cap reports subject).Nodup :=
  (distinct_kept cap reports subject).imp fun hne heq ↦ by
    rw [heq] at hne
    exact hne (.refl _)

end ProbityStore

open ProbityStore

/-- **A bounded, canonical set.** Whatever reports a store with a cap ingests, the list of a
subject is within the cap and has no two same reports; it has one that is the same as any report
newer than one it keeps; and from the same reports in another order, no two of them of one time,
comes the same set. -/
theorem probityStore_canonical (cap : ℕ) (reports : List ProbityReportRecord) (subject : String) :
    (kept cap reports subject).length ≤ cap ∧ DistinctReports (kept cap reports subject) ∧
    (∀ r ∈ reportsAbout subject reports, ∀ k ∈ kept cap reports subject,
      k.timestampNs < r.timestampNs → ∃ r' ∈ kept cap reports subject, r'.SameReport r) ∧
    ∀ reports', (reportsAbout subject reports).Perm (reportsAbout subject reports') →
      ((reportsAbout subject reports).map ProbityReportRecord.timestampNs).Nodup →
      ∀ r, r ∈ kept cap reports subject ↔ r ∈ kept cap reports' subject := by
  have hkept := keepsNewest_kept cap reports subject
  refine ⟨hkept.length_le, distinct_kept cap reports subject, fun r hr k hk hlt ↦ ?_,
    fun reports' hperm hnodup r ↦ ?_⟩
  · exact hkept.exists_same_of_lt hr hk (UInt64.lt_iff_toNat_lt.1 hlt)
  · have htimes : ((reportsAbout subject reports).map ProbityReportRecord.time).Nodup := by
      have hmap := hnodup.map fun _ _ h ↦ UInt64.toNat_inj.1 h
      rwa [List.map_map] at hmap
    exact hkept.mem_iff_of_perm (keepsNewest_kept cap reports' subject)
      (nodup_kept cap reports subject) (nodup_kept cap reports' subject)
      ProbityReportRecord.SameReport.time_eq htimes hperm

end Foretias

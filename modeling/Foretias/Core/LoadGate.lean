import Foretias.Core.CalendarFile

/-!
# What passes the load gate

`loadAndVerify` checks what was loaded pair by pair. `loadAndVerify_accepts_iff` says exactly what
passes over the whole range: every two neighbouring records are linked. Who the calendar belongs
to and how it begins is not looked at, so a lone record of anyone passes (`loadAndVerify_stray`).
-/

namespace Foretias

variable {A : Type} {C : Codec (CalendarData A)} {P : Primitives} {tbidStr : String}

/-- If every pair of a list is reported valid, the list is linked. -/
theorem Linked.of_mapM_verifyPair {ticks : List ChrononRecord} {results : List Bool}
    (h : (ticks.zip ticks.tail).mapM (fun (prev, curr) ↦ verifyPair P tbidStr prev curr) =
      .ok results) (hall : ∀ valid ∈ results, valid = true) : Linked P tbidStr ticks := by
  induction ticks generalizing results with
  | nil => exact .nil
  | cons prev rest ih =>
    cases rest with
    | nil => exact .singleton prev
    | cons curr rest =>
      rw [List.tail_cons, List.zip_cons_cons, List.mapM_cons, Result.bind_eq_ok] at h
      obtain ⟨valid, hvalid, h⟩ := h
      obtain ⟨others, hothers, h⟩ := Result.bind_eq_ok.1 h
      obtain rfl := Result.pure_eq_ok.1 h
      obtain rfl := hall valid List.mem_cons_self
      exact List.isChain_cons_cons.2
        ⟨hvalid, ih hothers fun valid hmem ↦ hall valid (List.mem_cons_of_mem _ hmem)⟩

/-- Over the whole range, the check of fewer than two records is the check of no pairs. -/
theorem CalendarData.integrityCheck_eq_mapM (c : CalendarData A) :
    c.integrityCheck P tbidStr none none =
      (c.records.zip c.records.tail).mapM fun (prev, curr) ↦ verifyPair P tbidStr prev curr := by
  rw [integrityCheck]
  simp only [Option.getD_none, filter_chrononNumber_le_max]
  split
  · rename_i hshort
    have hnil : c.records.zip c.records.tail = [] := by
      refine List.eq_nil_of_length_eq_zero ?_
      rw [List.length_zip, List.length_tail]
      omega
    rw [hnil]
    rfl
  · rfl

theorem CalendarData.integrityCheck_valid_iff {c : CalendarData A} :
    (∃ results, c.integrityCheck P tbidStr none none = .ok results ∧
      results.any (!·) = false) ↔ Linked P tbidStr c.records := by
  rw [integrityCheck_eq_mapM]
  constructor
  · rintro ⟨results, hresults, hall⟩
    exact .of_mapM_verifyPair hresults (by simpa using hall)
  · intro hlinked
    exact ⟨_, hlinked.mapM_verifyPair, by simp⟩

theorem loadAndVerify_of_linked {path : String} {files : CalendarFiles} {cal : CalendarData A}
    (hload : files.load C path = .ok cal) (hlinked : Linked P tbidStr cal.records) :
    files.loadAndVerify C P path tbidStr none none = .ok cal := by
  obtain ⟨results, hresults, hall⟩ := CalendarData.integrityCheck_valid_iff.2 hlinked
  refine Result.bind_eq_ok.2 ⟨cal, hload, Result.bind_eq_ok.2 ⟨results, hresults, ?_⟩⟩
  rw [if_neg (by rw [hall]; decide)]
  rfl

/-- The gate returns a calendar exactly when a load of the same files does and every two
neighbouring records of it pass `verify_pair`. -/
theorem loadAndVerify_accepts_iff (path : String) (tbid : Tbid) (files : CalendarFiles)
    (cal : CalendarData A) :
    files.loadAndVerify C P path tbid.toHex none none = .ok cal ↔
      files.load C path = .ok cal ∧ Linked P tbid.toHex cal.records := by
  constructor
  · intro h
    obtain ⟨loaded, hload, h⟩ := Result.bind_eq_ok.1 h
    obtain ⟨results, hresults, h⟩ := Result.bind_eq_ok.1 h
    split at h
    · cases h
    · rename_i hall
      obtain rfl := Result.pure_eq_ok.1 h
      exact ⟨hload, CalendarData.integrityCheck_valid_iff.1
        ⟨results, hresults, Bool.not_eq_true _ ▸ hall⟩⟩
  · rintro ⟨hload, hlinked⟩
    exact loadAndVerify_of_linked hload hlinked

/-- A calendar of one record, numbered 7 and without a key, that names another time being than
the default one. -/
def strayCalendar : CalendarData Unit where
  tbid := ⟨.replicate 96 1⟩
  tbn := ""
  stampTbid := default
  ticks := [⟨{ (default : ChrononRecord) with
    chrononNumber := 7
    tbid := ⟨.replicate 96 1⟩ }, []⟩]

/-- It passes the gate of the default time being. No signature is looked at on the way. -/
theorem loadAndVerify_stray :
    CalendarFiles.loadAndVerify .unary .transparent "calendar.json" (default : Tbid).toHex none
        none ⟨some (Codec.unary.serialize strayCalendar), none⟩ = .ok strayCalendar ∧
      strayCalendar.tbid ≠ default ∧
      ∀ r ∈ strayCalendar.records, r.tbid ≠ default ∧ r.chrononNumber ≠ 1 ∧ r.publicKey = [] := by
  exact ⟨loadAndVerify_of_linked (CalendarFiles.load_serialize _) (.singleton _), by decide,
    by decide⟩

end Foretias

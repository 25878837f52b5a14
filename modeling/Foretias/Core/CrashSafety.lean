import Foretias.Core.CalendarFile
import Foretias.Library.Run

/-!
# Crashes of saves and loads

A save that dies leaves any beginning of the temporary file, a load that dies leaves the temporary
file or has removed it. Over all runs of saves and loads, crashed or not, the main file is that of
the last completed save, and a temporary file that parses is that of a later save
(`Recovered`), so a load returns one of the two.

But a load removes the temporary file that it adopts and does not write it to the main path, so
the next load falls back to the main file (`load_forgets`). What was loaded is kept only in runs
whose loads are `Settled`: when one removes a temporary file, the main file is no worse.

* `crashSafe_of_run` — what a load returns, and when the loads after it return the same.
-/

namespace Foretias

variable {A : Type}

/-- What happens to the files of a calendar. -/
inductive FileEvent (A : Type)
  /-- A save that completes, or that fails or dies at some point. -/
  | save (cal : CalendarData A) (stop : Option SaveStop)
  /-- A load that returns, with or without having removed the temporary file. -/
  | load (removed : Bool)
  /-- A load that dies before or after it removes the temporary file. -/
  | crashedLoad (removed : Bool)

namespace FileEvent

/-- The files after an event. -/
def apply (C : Codec (CalendarData A)) (files : CalendarFiles) : FileEvent A → CalendarFiles
  | save cal stop => (cal.save C stop files).2
  | load removed => files.afterLoad removed
  | crashedLoad removed => files.afterLoad removed

/-- Is it a save? -/
def IsSave : FileEvent A → Prop
  | save _ _ => True
  | _ => False

/-- Is it a completed save? -/
def Completes : FileEvent A → Prop
  | save _ none => True
  | _ => False

end FileEvent

variable (C : Codec (CalendarData A)) {path : String} {files files' : CalendarFiles}
  {events : List (FileEvent A)} {cal : CalendarData A}

/-- One event. -/
def FileStep (files : CalendarFiles) (e : FileEvent A) (files' : CalendarFiles) : Prop :=
  e.apply C files = files'

/-- Is the temporary file of a save complete? -/
def FullyWritten (cal : CalendarData A) : Option SaveStop → Prop
  | some .create => False
  | some (.write written) => (C.serialize cal).length ≤ written
  | some .rename => True
  | none => True

/-- The calendar of the last completed save, or of a later one whose temporary file was fully
written. -/
def SavedSince (events : List (FileEvent A)) (cal : CalendarData A) : Prop :=
  ∃ pre stop post, events = pre ++ .save cal stop :: post ∧ FullyWritten C cal stop ∧
    ∀ e ∈ post, ¬e.Completes

/-- A load that removes the temporary file finds it absent, unreadable, or no better than the main
file: with fewer records, or with the same calendar. -/
def Settled (files : CalendarFiles) : FileEvent A → Prop
  | .load true | .crashedLoad true => ∀ tmp, files.tmpCal C = some tmp →
      ∃ main, files.mainCal C = some main ∧ (tmp.ticks.length < main.ticks.length ∨ tmp = main)
  | _ => True

/-! ### What the files hold -/

/-- The invariant of the two files. -/
structure Recovered (events : List (FileEvent A)) (files : CalendarFiles) : Prop where
  /-- The main file is that of the last completed save. -/
  main : ∀ cal, files.mainCal C = some cal → SavedSince C events cal
  /-- It parses once a save has completed. -/
  main_ne_none : (∃ e ∈ events, e.Completes) → files.mainCal C ≠ none
  /-- A temporary file that parses is that of a later save. -/
  tmp : ∀ cal, files.tmpCal C = some cal → SavedSince C events cal

variable {C}

theorem SavedSince.concat {e : FileEvent A} (h : SavedSince C events cal) (he : ¬e.Completes) :
    SavedSince C (events ++ [e]) cal := by
  obtain ⟨pre, stop, post, rfl, hwritten, hpost⟩ := h
  refine ⟨pre, stop, post ++ [e], by simp, hwritten, fun e' he' ↦ ?_⟩
  rcases List.mem_append.1 he' with hmem | hmem
  · exact hpost e' hmem
  · exact List.mem_singleton.1 hmem ▸ he

/-- The save that was just made. -/
theorem savedSince_concat {stop : Option SaveStop} (h : FullyWritten C cal stop) :
    SavedSince C (events ++ [.save cal stop]) cal :=
  ⟨events, stop, [], rfl, h, fun _ he ↦ nomatch he⟩

/-- What a stopped save leaves under the temporary name parses only if it is complete. -/
theorem tmpCal_save_stopped {stop : SaveStop} {written : CalendarData A}
    (h : (cal.save C (some stop) files).2.tmpCal C = some written) :
    files.tmpCal C = some written ∨ written = cal ∧ FullyWritten C cal (some stop) := by
  cases stop with
  | create => exact .inl h
  | write n =>
    obtain ⟨hle, rfl⟩ := C.parse_take_eq_some h
    exact .inr ⟨rfl, hle⟩
  | rename =>
    have hparse : C.parse (C.serialize cal) = some written := h
    rw [C.parse_serialize, Option.some_inj] at hparse
    exact .inr ⟨hparse.symm, trivial⟩

theorem mainCal_save_stopped (stop : SaveStop) :
    (cal.save C (some stop) files).2.mainCal C = files.mainCal C := by
  cases stop with
  | create => rfl
  | write n => rfl
  | rename => rfl

theorem mainCal_save_completed : (cal.save C none files).2.mainCal C = some cal :=
  C.parse_serialize cal

theorem mainCal_afterLoad (removed : Bool) :
    (files.afterLoad removed).mainCal C = files.mainCal C := by
  cases removed with
  | false => rfl
  | true => rfl

theorem tmpCal_afterLoad {removed : Bool}
    (h : (files.afterLoad removed).tmpCal C = some cal) : files.tmpCal C = some cal := by
  cases removed with
  | false => exact h
  | true => cases h

namespace Recovered

theorem empty : Recovered C [] .empty :=
  ⟨fun _ h ↦ (nomatch h), fun ⟨_, he, _⟩ ↦ (nomatch he), fun _ h ↦ (nomatch h)⟩

/-- An event that leaves the main file alone, and under the temporary name no calendar but the
one before or that of a save. -/
theorem concat {e : FileEvent A} (h : Recovered C events files) (he : ¬e.Completes)
    (hmain : files'.mainCal C = files.mainCal C)
    (htmp : ∀ cal, files'.tmpCal C = some cal →
      files.tmpCal C = some cal ∨ SavedSince C (events ++ [e]) cal) :
    Recovered C (events ++ [e]) files' := by
  refine ⟨fun cal hcal ↦ ?_, ?_, fun cal hcal ↦ ?_⟩
  · rw [hmain] at hcal
    exact (h.main cal hcal).concat he
  · rintro ⟨e', he', hcompletes⟩
    rw [hmain]
    rcases List.mem_append.1 he' with hmem | hmem
    · exact h.main_ne_none ⟨e', hmem, hcompletes⟩
    · exact absurd (List.mem_singleton.1 hmem ▸ hcompletes) he
  · rcases htmp cal hcal with hold | hsaved
    · exact (h.tmp cal hold).concat he
    · exact hsaved

/-- What one event preserves. -/
theorem step {e : FileEvent A} (h : Recovered C events files) (hstep : FileStep C files e files') :
    Recovered C (events ++ [e]) files' := by
  obtain rfl : e.apply C files = files' := hstep
  cases e with
  | save cal stop =>
    cases stop with
    | some stop =>
      refine h.concat id (mainCal_save_stopped stop) fun written hwritten ↦ ?_
      rcases tmpCal_save_stopped hwritten with hold | ⟨rfl, hfull⟩
      · exact .inl hold
      · exact .inr (savedSince_concat hfull)
    | none =>
      have hmain : (FileEvent.apply C files (.save cal none)).mainCal C = some cal :=
        mainCal_save_completed
      refine ⟨fun main h ↦ ?_, fun _ ↦ by rw [hmain]; exact Option.some_ne_none cal,
        fun _ htmp ↦ (nomatch htmp)⟩
      rw [hmain, Option.some_inj] at h
      subst h
      exact savedSince_concat trivial
  | load removed =>
    exact h.concat id (mainCal_afterLoad removed) fun _ htmp ↦ .inl (tmpCal_afterLoad htmp)
  | crashedLoad removed =>
    exact h.concat id (mainCal_afterLoad removed) fun _ htmp ↦ .inl (tmpCal_afterLoad htmp)

/-- What every run of events preserves. -/
theorem of_run (hrun : Run (FileStep C) .empty events files) : Recovered C events files := by
  induction events using List.reverseRecOn generalizing files with
  | nil =>
    obtain rfl := Run.nil_iff.1 hrun
    exact .empty
  | append_singleton events e ih =>
    obtain ⟨before, hbefore, hstep⟩ := Run.concat_iff.1 hrun
    exact (ih hbefore).step hstep

theorem savedSince_of_load (h : Recovered C events files) (hload : files.load C path = .ok cal) :
    SavedSince C events cal := by
  rcases CalendarFiles.load_eq_ok.1 hload with ⟨htmp, -⟩ | ⟨hmain, -⟩
  · exact h.tmp cal htmp
  · exact h.main cal hmain

end Recovered

/-! ### What a load keeps -/

/-- After a load that is settled, or that leaves the temporary file, a load returns the same. -/
theorem load_afterLoad {removed : Bool} (hload : files.load C path = .ok cal)
    (hsettled : removed = true → ∀ tmp, files.tmpCal C = some tmp →
      ∃ main, files.mainCal C = some main ∧ (tmp.ticks.length < main.ticks.length ∨ tmp = main)) :
    (files.afterLoad removed).load C path = .ok cal := by
  cases removed with
  | false => exact hload
  | true =>
    have hmain : files.mainCal C = some cal := by
      rcases CalendarFiles.load_eq_ok.1 hload with ⟨htmp, hmax⟩ | ⟨hmain, -⟩
      · obtain ⟨main, hmain, hlt | rfl⟩ := hsettled rfl cal htmp
        · exact absurd (hmax main hmain) hlt.not_ge
        · exact hmain
      · exact hmain
    exact CalendarFiles.load_eq_ok.2 (.inr ⟨hmain, fun _ htmp ↦ nomatch htmp⟩)

theorem load_settledStep {e : FileEvent A} (hload : files.load C path = .ok cal) (he : ¬e.IsSave)
    (hstep : Guarded (FileStep C) (Settled C) files e files') :
    files'.load C path = .ok cal := by
  obtain ⟨hsettled, rfl⟩ := hstep
  cases e with
  | save cal stop => exact absurd trivial he
  | load removed => exact load_afterLoad hload fun h ↦ by subst h; exact hsettled
  | crashedLoad removed => exact load_afterLoad hload fun h ↦ by subst h; exact hsettled

/-- In a run without saves whose loads are settled, every load returns the same. -/
theorem load_settledRun (hrun : Run (Guarded (FileStep C) (Settled C)) files events files')
    (hload : files.load C path = .ok cal) (hsaves : ∀ e ∈ events, ¬e.IsSave) :
    files'.load C path = .ok cal := by
  induction hrun with
  | nil => exact hload
  | cons hstep _ ih =>
    exact ih (load_settledStep hload (hsaves _ List.mem_cons_self) hstep)
      fun e he ↦ hsaves e (List.mem_cons_of_mem _ he)

/-- In every run from no files, a load returns the calendar of the last completed save or of a
later one whose temporary file was fully written, and no error once a save has completed. If all
loads of the run are settled, what one of them returned is returned until the next save. -/
theorem crashSafe_of_run (path : String) (hrun : Run (FileStep C) .empty events files) :
    (∀ cal, files.load C path = .ok cal → SavedSince C events cal) ∧
    ((∃ e ∈ events, e.Completes) → ∃ cal, files.load C path = .ok cal) ∧
    (Run (Guarded (FileStep C) (Settled C)) .empty events files →
      ∀ pre removed mid before cal, events = pre ++ .load removed :: mid →
        (∀ e ∈ mid, ¬e.IsSave) → Run (FileStep C) .empty pre before →
        before.load C path = .ok cal → files.load C path = .ok cal) := by
  have hrecovered := Recovered.of_run hrun
  refine ⟨fun cal hload ↦ hrecovered.savedSince_of_load hload, fun hcompletes ↦
    CalendarFiles.exists_load_eq_ok (.inl (hrecovered.main_ne_none hcompletes)), ?_⟩
  rintro hsettled pre removed mid before cal rfl hsaves hbefore hload
  obtain ⟨mid', hpre, hmid⟩ := Run.append_iff.1 hsettled
  obtain rfl : mid' = before :=
    hpre.of_guarded.unique (fun h h' ↦ h.symm.trans h') hbefore
  refine load_settledRun hmid hload fun e he ↦ ?_
  rcases List.mem_cons.1 he with rfl | he
  · exact id
  · exact hsaves e he

section Examples

variable (C) {a b : CalendarData A}

/-- The files after a save, and another save that died before the rename. -/
theorem load_unrenamed (path : String) (hle : a.ticks.length ≤ b.ticks.length) :
    (b.save C (some .rename) (a.save C none .empty).2).2.load C path = .ok b := by
  refine CalendarFiles.load_eq_ok.2 (.inl ⟨C.parse_serialize b, fun main hmain ↦ ?_⟩)
  have hparse : C.parse (C.serialize a) = some main := hmain
  rw [C.parse_serialize, Option.some_inj] at hparse
  exact hparse ▸ hle

/-- When the calendar of the completed save is the longer one, it is loaded. -/
theorem load_unrenamed_shorter (path : String) (hlt : b.ticks.length < a.ticks.length) :
    (b.save C (some .rename) (a.save C none .empty).2).2.load C path = .ok a := by
  refine CalendarFiles.load_eq_ok.2 (.inr ⟨C.parse_serialize a, fun tmp htmp ↦ ?_⟩)
  have hparse : C.parse (C.serialize b) = some tmp := htmp
  rw [C.parse_serialize, Option.some_inj] at hparse
  exact hparse ▸ hlt

/-- A calendar is saved, the save of another one dies before the rename, a load removes its file,
another load crashes, and a third one returns. -/
def crashedEvents (a b : CalendarData A) : List (FileEvent A) :=
  [.save a none, .save b (some .rename)] ++ [.load true, .crashedLoad true, .load true]

theorem run_twoSaves (a b : CalendarData A) :
    Run (Guarded (FileStep C) (Settled C)) .empty [.save a none, .save b (some .rename)]
      (b.save C (some .rename) (a.save C none .empty).2).2 :=
  .cons ⟨trivial, rfl⟩ (.cons ⟨trivial, rfl⟩ (.nil _))

theorem run_crashedEvents (hlt : b.ticks.length < a.ticks.length) :
    Run (Guarded (FileStep C) (Settled C)) .empty (crashedEvents a b)
      ⟨some (C.serialize a), none⟩ := by
  refine Run.append_iff.2 ⟨_, run_twoSaves C a b, .cons ⟨fun tmp htmp ↦ ?_, rfl⟩
    (.cons ⟨fun _ htmp ↦ (nomatch htmp), rfl⟩ (.cons ⟨fun _ htmp ↦ (nomatch htmp), rfl⟩ (.nil _)))⟩
  have hparse : C.parse (C.serialize b) = some tmp := htmp
  rw [C.parse_serialize, Option.some_inj] at hparse
  exact ⟨a, C.parse_serialize a, .inl (hparse ▸ hlt)⟩

end Examples

/-- An empty calendar of the default time being. -/
def namedCalendar (tbn : String) : CalendarData Unit := .new default tbn

/-- A calendar of one record. -/
def oneRecordCalendar : CalendarData Unit := { namedCalendar "a" with ticks := [⟨default, []⟩] }

/-- What the first load returned is returned after the crash. -/
theorem crashSafe_crashedEvents :
    Run (Guarded (FileStep .unary) (Settled .unary)) .empty
      (crashedEvents oneRecordCalendar (namedCalendar "b"))
      ⟨some (Codec.unary.serialize oneRecordCalendar), none⟩ ∧
    CalendarFiles.load .unary "calendar.json"
      ⟨some (Codec.unary.serialize oneRecordCalendar), none⟩ = .ok oneRecordCalendar := by
  have hrun := run_crashedEvents .unary (a := oneRecordCalendar) (b := namedCalendar "b")
    Nat.one_pos
  have hsaves : ∀ e ∈ [FileEvent.crashedLoad true, .load true],
      ¬(e : FileEvent Unit).IsSave := by
    intro e he
    rcases List.mem_cons.1 he with rfl | he
    · exact id
    · rw [List.mem_singleton.1 he]
      exact id
  exact ⟨hrun, (crashSafe_of_run "calendar.json" hrun.of_guarded).2.2 hrun _ true _ _ _ rfl hsaves
    (run_twoSaves .unary _ _).of_guarded (load_unrenamed_shorter .unary _ Nat.one_pos)⟩

/-- A calendar is saved, the save of another one dies before the rename, and the calendar is
loaded twice: the first load returns the other calendar and removes its file, the second one
returns the first calendar. -/
theorem load_forgets : ∃ before after : CalendarFiles,
    Run (FileStep .unary) .empty
      [.save (namedCalendar "a") none, .save (namedCalendar "b") (some .rename)] before ∧
    before.load .unary "calendar.json" = .ok (namedCalendar "b") ∧
    Run (FileStep (A := Unit) .unary) before [.load true] after ∧
    after.load .unary "calendar.json" = .ok (namedCalendar "a") ∧
    namedCalendar "a" ≠ namedCalendar "b" :=
  ⟨_, _, .cons rfl (.cons rfl (.nil _)), load_unrenamed .unary _ (Nat.le_refl 0),
    .cons rfl (.nil _), CalendarFiles.load_serialize _, by decide⟩

end Foretias

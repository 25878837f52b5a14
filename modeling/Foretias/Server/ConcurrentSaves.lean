import Foretias.Core.CalendarFile
import Foretias.Library.Run
import Mathlib.Logic.Function.Basic

/-!
# Concurrent saves

Any number of calls of `TimeFamilyServer::save` run at once. A call holds the read lock of the
calendar from its snapshot to its return, so no record is appended meanwhile, but all calls write
to one `path.tmp`. A file is an object of its own behind its name: a call that opens `path.tmp`
truncates the file that another one is writing or is about to rename, and a call that renames
publishes whatever file then has the name (`published_half_written`).

* `published_of_alone` — in runs where the temporary file is opened only while no other call is
  between its open and its rename, the main file is always a snapshot, and at the end the last one.
-/

namespace Foretias

variable {A : Type}

/-- Where a call of `save` stands. -/
inductive SaverState
  /-- Not called. -/
  | idle
  /-- It has the read lock and the text of its snapshot. -/
  | begun (data : Bytes)
  /-- It has opened a file and written a number of bytes to it. -/
  | writing (file : ℕ) (data : Bytes) (written : ℕ)
  /-- It has returned, with `Ok` or with an error. -/
  | returned (ok : Bool)

/-- Does the call hold the read lock? -/
def SaverState.Active : SaverState → Prop
  | begun _ => True
  | writing _ _ _ => True
  | _ => False

/-- Is the call between its open and its rename? -/
def SaverState.Writing : SaverState → Prop
  | writing _ _ _ => True
  | _ => False

/-- The calendar of a server, the file system as far as the calendar's two names go, and the calls
of `save`. -/
structure SaveMachine (A : Type) where
  /-- The calendar behind the lock. -/
  calendar : CalendarData A
  /-- The contents of the files. -/
  contents : ℕ → Bytes
  /-- The next file to be created. -/
  nextFile : ℕ
  /-- The file named `path`. -/
  main : Option ℕ
  /-- The file named `path.tmp`. -/
  tmp : Option ℕ
  /-- The calls. -/
  saver : ℕ → SaverState
  /-- The calendars of which snapshots were taken. -/
  snapshots : List (CalendarData A)

/-- A calendar without files, and no call made. -/
def SaveMachine.new (calendar : CalendarData A) : SaveMachine A where
  calendar := calendar
  contents _ := []
  nextFile := 0
  main := none
  tmp := none
  saver _ := .idle
  snapshots := []

/-- A step: an appended record, or a step of one call. -/
inductive SaveEvent (A : Type)
  | append (tick : CalendarTick A)
  | snapshot (i : ℕ)
  | truncate (i : ℕ)
  | write (i n : ℕ)
  | rename (i : ℕ)
  | fail (i : ℕ)

/-- Bytes written at an offset; a gap before it reads as zeros. -/
def writeAt (bs : Bytes) (offset : ℕ) (chunk : Bytes) : Bytes :=
  (bs ++ List.replicate (offset - bs.length) 0).take offset ++ chunk ++
    bs.drop (offset + chunk.length)

variable (C : Codec (CalendarData A))

namespace SaveMachine

variable (m : SaveMachine A)

/-- One call moved on. -/
def setSaver (i : ℕ) (state : SaverState) : SaveMachine A :=
  { m with saver := Function.update m.saver i state }

/-- One call moved on, having changed the contents of a file. -/
def setContents (i : ℕ) (state : SaverState) (f : ℕ) (bs : Bytes) : SaveMachine A :=
  { m with
    saver := Function.update m.saver i state
    contents := Function.update m.contents f bs }

@[simp] theorem saver_setSaver (i : ℕ) (state : SaverState) :
    (m.setSaver i state).saver = Function.update m.saver i state := rfl

@[simp] theorem saver_setContents (i : ℕ) (state : SaverState) (f : ℕ) (bs : Bytes) :
    (m.setContents i state f bs).saver = Function.update m.saver i state := rfl

end SaveMachine

/-- The steps of the server. -/
inductive SaveStep : SaveMachine A → SaveEvent A → SaveMachine A → Prop
  /-- A record is appended under the write lock. -/
  | append {m : SaveMachine A} {tick : CalendarTick A} {calendar : CalendarData A}
      (hlock : ∀ i, ¬(m.saver i).Active) (happend : m.calendar.append tick = .ok calendar) :
      SaveStep m (.append tick) { m with calendar }
  /-- A call takes the read lock and its snapshot. -/
  | snapshot {m : SaveMachine A} {i : ℕ} (hidle : m.saver i = .idle) :
      SaveStep m (.snapshot i) { m with
        saver := Function.update m.saver i (.begun (C.serialize m.calendar))
        snapshots := m.calendar :: m.snapshots }
  /-- It creates the temporary file. -/
  | create {m : SaveMachine A} {i : ℕ} {data : Bytes} (hbegun : m.saver i = .begun data)
      (htmp : m.tmp = none) :
      SaveStep m (.truncate i) { m with
        saver := Function.update m.saver i (.writing m.nextFile data 0)
        contents := Function.update m.contents m.nextFile []
        tmp := some m.nextFile
        nextFile := m.nextFile + 1 }
  /-- Or it truncates the one that is there. -/
  | truncate {m : SaveMachine A} {i f : ℕ} {data : Bytes} (hbegun : m.saver i = .begun data)
      (htmp : m.tmp = some f) :
      SaveStep m (.truncate i) (m.setContents i (.writing f data 0) f [])
  /-- It writes some bytes to the file it has open. -/
  | write {m : SaveMachine A} {i n f offset : ℕ} {data : Bytes}
      (hwriting : m.saver i = .writing f data offset) (hle : offset + n ≤ data.length) :
      SaveStep m (.write i n) (m.setContents i (.writing f data (offset + n)) f
        (writeAt (m.contents f) offset ((data.drop offset).take n)))
  /-- When all is written it renames, whatever file has the temporary name by now. -/
  | rename {m : SaveMachine A} {i f g : ℕ} {data : Bytes}
      (hwritten : m.saver i = .writing f data data.length) (htmp : m.tmp = some g) :
      SaveStep m (.rename i) { m with
        saver := Function.update m.saver i (.returned true)
        main := some g
        tmp := none }
  /-- The rename fails if no file has it. -/
  | renameMissing {m : SaveMachine A} {i f : ℕ} {data : Bytes}
      (hwritten : m.saver i = .writing f data data.length) (htmp : m.tmp = none) :
      SaveStep m (.rename i) (m.setSaver i (.returned false))
  /-- Any call of the file system may fail. -/
  | fail {m : SaveMachine A} {i : ℕ} (hactive : (m.saver i).Active) :
      SaveStep m (.fail i) (m.setSaver i (.returned false))

/-- The temporary file is opened only while no call is between its open and its rename. -/
def Alone (m : SaveMachine A) : SaveEvent A → Prop
  | .truncate _ => ∀ j, ¬(m.saver j).Writing
  | _ => True

variable {C} {m m' : SaveMachine A} {event : SaveEvent A} {events : List (SaveEvent A)}

/-! ### Undisturbed writes -/

/-- Bytes written where the file ends. -/
theorem writeAt_take {data : Bytes} {offset n : ℕ} (hle : offset + n ≤ data.length) :
    writeAt (data.take offset) offset ((data.drop offset).take n) = data.take (offset + n) := by
  have hlength : (data.take offset).length = offset := by
    rw [List.length_take, Nat.min_eq_left (by omega)]
  have hdrop : (data.take offset).drop (offset + ((data.drop offset).take n).length) = [] :=
    List.drop_eq_nil_of_le (by omega)
  rw [writeAt, hlength, Nat.sub_self, List.replicate_zero, List.append_nil, hdrop,
    List.append_nil, List.take_of_length_le hlength.le, List.take_add]

/-- What every step preserves in a run where the temporary file is opened alone. -/
structure Undisturbed (C : Codec (CalendarData A)) (m : SaveMachine A) : Prop where
  /-- A call that holds the lock has a snapshot of the calendar as it is. -/
  begun : ∀ i data, m.saver i = .begun data → data = C.serialize m.calendar
  /-- A call that writes has so far written the beginning of its snapshot to the temporary file. -/
  writing : ∀ i f data written, m.saver i = .writing f data written →
    data = C.serialize m.calendar ∧ m.tmp = some f ∧ m.contents f = data.take written
  /-- At most one call writes. -/
  alone : ∀ i j, (m.saver i).Writing → (m.saver j).Writing → i = j
  /-- The main file is a snapshot, and another file than the temporary one. -/
  main : ∀ f, m.main = some f → f < m.nextFile ∧ m.tmp ≠ some f ∧
    ∃ cal ∈ m.snapshots, C.parse (m.contents f) = some cal
  /-- The temporary file has been created. -/
  tmp : ∀ f, m.tmp = some f → f < m.nextFile
  /-- While a call holds the lock, the calendar is one of which a snapshot was taken. -/
  current : ∀ i, (m.saver i).Active → m.calendar ∈ m.snapshots

/-- A property of a call after one call was changed. -/
theorem SaverState.of_update {saver : ℕ → SaverState} {i j : ℕ} {state : SaverState}
    (p : SaverState → Prop) (h : p (Function.update saver i state j)) :
    j = i ∧ p state ∨ j ≠ i ∧ p (saver j) := by
  by_cases hj : j = i
  · subst hj
    rw [Function.update_self] at h
    exact .inl ⟨rfl, h⟩
  · rw [Function.update_of_ne hj] at h
    exact .inr ⟨hj, h⟩

theorem update_saver {saver : ℕ → SaverState} {i j : ℕ} {state state' : SaverState}
    (h : Function.update saver i state j = state') :
    j = i ∧ state = state' ∨ j ≠ i ∧ saver j = state' :=
  SaverState.of_update (· = state') h

theorem SaverState.Active.of_update {saver : ℕ → SaverState} {i j : ℕ} {state : SaverState}
    (h : (Function.update saver i state j).Active) : j = i ∧ state.Active ∨ (saver j).Active :=
  (SaverState.of_update Active h).imp id And.right

theorem SaverState.Writing.of_update {saver : ℕ → SaverState} {i j : ℕ} {state : SaverState}
    (h : (Function.update saver i state j).Writing) :
    j = i ∧ state.Writing ∨ (saver j).Writing :=
  (SaverState.of_update Writing h).imp id And.right

theorem SaverState.Active.update {saver : ℕ → SaverState} {i : ℕ} {state : SaverState}
    (h : state.Active) : (Function.update saver i state i).Active := by
  rwa [Function.update_self]

namespace Undisturbed

theorem new (calendar : CalendarData A) : Undisturbed C (.new calendar) where
  begun _ _ h := nomatch h
  writing _ _ _ _ h := nomatch h
  alone _ _ h := nomatch h
  main _ h := nomatch h
  tmp _ h := nomatch h
  current _ h := nomatch h

/-- One more snapshot changes nothing. -/
theorem remember (h : Undisturbed C m) (cal : CalendarData A) :
    Undisturbed C { m with snapshots := cal :: m.snapshots } where
  begun := h.begun
  writing := h.writing
  alone := h.alone
  main f hf := by
    obtain ⟨hlt, hne, cal', hcal, hparse⟩ := h.main f hf
    exact ⟨hlt, hne, cal', List.mem_cons_of_mem _ hcal, hparse⟩
  tmp := h.tmp
  current i hi := List.mem_cons_of_mem _ (h.current i hi)

/-- A call moves on to where it does not write, and leaves the files alone. -/
theorem setSaver_of_not_writing (h : Undisturbed C m) (i : ℕ) {state : SaverState}
    (hwriting : ¬state.Writing)
    (hbegun : ∀ data, state = .begun data → data = C.serialize m.calendar)
    (hactive : state.Active → m.calendar ∈ m.snapshots) :
    Undisturbed C (m.setSaver i state) where
  begun j data hj := by
    rcases update_saver hj with ⟨-, hstate⟩ | ⟨-, hj⟩
    · exact hbegun data hstate
    · exact h.begun j data hj
  writing j f data written hj := by
    rcases update_saver hj with ⟨-, rfl⟩ | ⟨-, hj⟩
    · exact absurd trivial hwriting
    · exact h.writing j f data written hj
  alone j k hj hk := by
    rcases hj.of_update with ⟨-, hstate⟩ | hj
    · exact absurd hstate hwriting
    rcases hk.of_update with ⟨-, hstate⟩ | hk
    · exact absurd hstate hwriting
    exact h.alone j k hj hk
  main := h.main
  tmp := h.tmp
  current j hj := by
    rcases hj.of_update with ⟨-, hstate⟩ | hj
    · exact hactive hstate
    · exact h.current j hj

/-- A call that returns without having touched the names of the files. -/
theorem setSaver_returned (h : Undisturbed C m) (i : ℕ) (ok : Bool) :
    Undisturbed C (m.setSaver i (.returned ok)) :=
  h.setSaver_of_not_writing i (fun h ↦ nomatch h) (fun _ h ↦ nomatch h) fun h ↦ nomatch h

/-- A call that goes on with the temporary file `f`, alone: it has written the beginning of its
snapshot there, and no other file has changed. -/
theorem setSaver_writing (h : Undisturbed C m) {i f written : ℕ} {data bs : Bytes}
    (hactive : (m.saver i).Active) (halone : ∀ j, (m.saver j).Writing → j = i)
    (hdata : data = C.serialize m.calendar) (hbs : bs = data.take written)
    (hfile : f < m'.nextFile) (hnext : m.nextFile ≤ m'.nextFile) (hmain : m.main ≠ some f)
    (hm' : m' = { m with
      saver := Function.update m.saver i (.writing f data written)
      contents := Function.update m.contents f bs
      tmp := some f
      nextFile := m'.nextFile }) : Undisturbed C m' := by
  have hsaver : m'.saver = Function.update m.saver i (.writing f data written) := by rw [hm']
  have hcontents : m'.contents = Function.update m.contents f bs := by rw [hm']
  have hcalendar : m'.calendar = m.calendar := by rw [hm']
  have htmp : m'.tmp = some f := by rw [hm']
  have hmain' : m'.main = m.main := by rw [hm']
  have hsnapshots : m'.snapshots = m.snapshots := by rw [hm']
  have hwriters : ∀ j, (m'.saver j).Writing → j = i := by
    intro j hj
    rw [hsaver] at hj
    rcases hj.of_update with ⟨rfl, -⟩ | hj
    · rfl
    · exact halone j hj
  constructor
  · intro j data' hj
    rw [hsaver] at hj
    rcases update_saver hj with ⟨-, hstate⟩ | ⟨-, hj⟩
    · cases hstate
    · rw [hcalendar]
      exact h.begun j data' hj
  · intro j f' data' written' hj
    have hji : j = i := hwriters j (by rw [hj]; trivial)
    rw [hsaver, hji, Function.update_self] at hj
    cases hj
    rw [hcalendar, hcontents, Function.update_self]
    exact ⟨hdata, htmp, hbs⟩
  · intro j k hj hk
    rw [hwriters j hj, hwriters k hk]
  · intro f' hf'
    rw [hmain'] at hf'
    obtain ⟨hlt, -, hparse⟩ := h.main f' hf'
    have hne : f' ≠ f := fun heq ↦ hmain (heq ▸ hf')
    rw [hcontents, hsnapshots, htmp, Function.update_of_ne hne]
    exact ⟨hlt.trans_le hnext, fun heq ↦ hne (Option.some_inj.1 heq).symm, hparse⟩
  · intro f' hf'
    rw [htmp, Option.some_inj] at hf'
    exact hf' ▸ hfile
  · intro j hj
    rw [hsaver] at hj
    rw [hcalendar, hsnapshots]
    rcases hj.of_update with ⟨rfl, -⟩ | hj
    · exact h.current j hactive
    · exact h.current j hj

/-- What every step preserves. -/
theorem step (h : Undisturbed C m) (hstep : Guarded (SaveStep C) Alone m event m') :
    Undisturbed C m' := by
  obtain ⟨hguard, hstep⟩ := hstep
  cases hstep with
  | append hlock happend =>
    refine ⟨fun i data hi ↦ ?_, fun i f data written hi ↦ ?_, h.alone, h.main, h.tmp,
      fun i hi ↦ absurd hi (hlock i)⟩
    · exact absurd (show (m.saver i).Active by rw [hi]; trivial) (hlock i)
    · exact absurd (show (m.saver i).Active by rw [hi]; trivial) (hlock i)
  | @snapshot i hidle =>
    refine (h.remember m.calendar).setSaver_of_not_writing i (fun h ↦ nomatch h)
      (fun data hdata ↦ ?_) fun _ ↦ List.mem_cons_self
    cases hdata
    rfl
  | @create i data hbegun htmp =>
    refine h.setSaver_writing (by rw [hbegun]; trivial) (fun j hj ↦ absurd hj (hguard j))
      (h.begun i data hbegun) List.take_zero.symm (Nat.lt_succ_self _) (Nat.le_succ _)
      (fun hmain ↦ ?_) rfl
    exact (h.main _ hmain).1.ne rfl
  | @truncate i f data hbegun htmp =>
    refine h.setSaver_writing (by rw [hbegun]; trivial) (fun j hj ↦ absurd hj (hguard j))
      (h.begun i data hbegun) List.take_zero.symm (h.tmp f htmp) (Nat.le_refl _)
      (fun hmain ↦ (h.main f hmain).2.1 htmp) ?_
    rw [SaveMachine.setContents, ← htmp]
  | @write i n f offset data hwriting hle =>
    obtain ⟨hdata, htmp, hcontents⟩ := h.writing i f data offset hwriting
    have hi : (m.saver i).Writing := by
      rw [hwriting]
      trivial
    have hwritten : writeAt (m.contents f) offset ((data.drop offset).take n) =
        data.take (offset + n) := by rw [hcontents, writeAt_take hle]
    refine h.setSaver_writing (by rw [hwriting]; trivial) (fun j hj ↦ h.alone j i hj hi) hdata
      hwritten (h.tmp f htmp) (Nat.le_refl _) (fun hmain ↦ (h.main f hmain).2.1 htmp) ?_
    rw [SaveMachine.setContents, ← htmp]
  | @rename i f g data hwritten htmp =>
    obtain ⟨hdata, hf, hcontents⟩ := h.writing i f data data.length hwritten
    obtain rfl : g = f := Option.some_inj.1 (htmp.symm.trans hf)
    have hreturned := h.setSaver_returned i true
    refine ⟨hreturned.begun, fun j f' data' written hj ↦ ?_, hreturned.alone, fun f' hf' ↦ ?_,
      fun _ h ↦ (nomatch h), hreturned.current⟩
    · rcases update_saver hj with ⟨-, hstate⟩ | ⟨hne, hj⟩
      · cases hstate
      · exact absurd (h.alone j i (by rw [hj]; trivial) (by rw [hwritten]; trivial)) hne
    · obtain rfl := Option.some_inj.1 hf'
      refine ⟨h.tmp g htmp, fun h ↦ (nomatch h), m.calendar,
        h.current i (by rw [hwritten]; trivial), ?_⟩
      have hfull : m.contents g = C.serialize m.calendar := by
        rw [hcontents, List.take_length, hdata]
      exact hfull ▸ C.parse_serialize _
  | renameMissing hwritten htmp => exact h.setSaver_returned _ _
  | fail hactive => exact h.setSaver_returned _ _

end Undisturbed

/-! ### The last save -/

/-- After the last save has begun, with the calendar `last`: some call still holds the lock, or
all have returned, and one with an error, or the main file holds `last`. -/
def Concluding (C : Codec (CalendarData A)) (last : CalendarData A) (m : SaveMachine A) : Prop :=
  (∃ i, (m.saver i).Active) ∧ m.calendar = last ∨ (∀ i, ¬(m.saver i).Active) ∧
    ((∃ i, m.saver i = .returned false) ∨
      ∃ f, m.main = some f ∧ C.parse (m.contents f) = some last)

/-- A call that goes on keeps the lock. -/
theorem Concluding.of_active {last : CalendarData A} {i : ℕ} (h : Concluding C last m)
    (hi : (m.saver i).Active) : m.calendar = last := by
  rcases h with ⟨-, hlast⟩ | ⟨hidle, -⟩
  · exact hlast
  · exact absurd hi (hidle i)

/-- A call that returns may be the last one to. -/
theorem Concluding.returned {last : CalendarData A} (hlast : m'.calendar = last)
    (h : (∃ i, m'.saver i = .returned false) ∨
      ∃ f, m'.main = some f ∧ C.parse (m'.contents f) = some last) : Concluding C last m' := by
  by_cases hactive : ∃ i, (m'.saver i).Active
  · exact .inl ⟨hactive, hlast⟩
  · exact .inr ⟨fun i hi ↦ hactive ⟨i, hi⟩, h⟩

theorem concluding_step {last : CalendarData A} (hm : Undisturbed C m) (h : Concluding C last m)
    (hevent : ∀ i, event ≠ .snapshot i) (hstep : SaveStep C m event m') :
    Concluding C last m' := by
  cases hstep with
  | append hlock happend =>
    rcases h with ⟨⟨i, hi⟩, -⟩ | h
    · exact absurd hi (hlock i)
    · exact .inr h
  | @snapshot i hidle => exact absurd rfl (hevent i)
  | @create i data hbegun htmp =>
    have hlast := h.of_active (i := i) (by rw [hbegun]; trivial)
    exact .inl ⟨⟨i, SaverState.Active.update (by trivial)⟩, hlast⟩
  | @truncate i f data hbegun htmp =>
    have hlast := h.of_active (i := i) (by rw [hbegun]; trivial)
    exact .inl ⟨⟨i, SaverState.Active.update (by trivial)⟩, hlast⟩
  | @write i n f offset data hwriting hle =>
    have hlast := h.of_active (i := i) (by rw [hwriting]; trivial)
    exact .inl ⟨⟨i, SaverState.Active.update (by trivial)⟩, hlast⟩
  | @rename i f g data hwritten htmp =>
    have hlast := h.of_active (i := i) (by rw [hwritten]; trivial)
    obtain ⟨hdata, hf, hcontents⟩ := hm.writing i f data data.length hwritten
    obtain rfl : g = f := Option.some_inj.1 (htmp.symm.trans hf)
    have hfull : m.contents g = C.serialize last := by
      rw [hcontents, List.take_length, hdata, hlast]
    exact .returned hlast (.inr ⟨g, rfl, hfull ▸ C.parse_serialize last⟩)
  | @renameMissing i f data hwritten htmp =>
    have hlast := h.of_active (i := i) (by rw [hwritten]; trivial)
    exact .returned hlast (.inl ⟨i, Function.update_self ..⟩)
  | @fail i hactive =>
    exact .returned (h.of_active hactive) (.inl ⟨i, Function.update_self ..⟩)

/-- In a run without further snapshots. -/
theorem concluding_of_run {last : CalendarData A} (hm : Undisturbed C m) (h : Concluding C last m)
    (hevents : ∀ e ∈ events, ∀ i, e ≠ .snapshot i)
    (hrun : Run (Guarded (SaveStep C) Alone) m events m') : Concluding C last m' := by
  induction hrun with
  | nil => exact h
  | cons hstep _ ih =>
    exact ih (hm.step hstep) (concluding_step hm h (hevents _ List.mem_cons_self) hstep.2)
      fun e he ↦ hevents e (List.mem_cons_of_mem _ he)

/-- In every run in which the temporary file is opened alone, the main file, once there is one,
parses to a calendar of which a snapshot was taken. When all calls have returned `Ok`, it parses to
the calendar as it was when the last one of them took its snapshot. -/
theorem published_of_alone {calendar : CalendarData A}
    (hrun : Run (Guarded (SaveStep C) Alone) (.new calendar) events m) :
    (∀ f, m.main = some f → ∃ cal ∈ m.snapshots, C.parse (m.contents f) = some cal) ∧
    ∀ pre i post, events = pre ++ .snapshot i :: post → (∀ e ∈ post, ∀ j, e ≠ .snapshot j) →
      (∀ j, m.saver j = .idle ∨ m.saver j = .returned true) →
      ∃ u f, Run (SaveStep C) (.new calendar) pre u ∧
        Run (SaveStep C) u (.snapshot i :: post) m ∧ m.main = some f ∧
        C.parse (m.contents f) = some u.calendar := by
  have hundisturbed : ∀ {events m}, Run (Guarded (SaveStep C) Alone) (.new calendar) events m →
      Undisturbed C m := fun hrun ↦ hrun.invariant .step (.new calendar)
  refine ⟨fun f hf ↦ ((hundisturbed hrun).main f hf).2.2, ?_⟩
  rintro pre i post rfl hpost hreturned
  obtain ⟨u, hpre, hrest⟩ := Run.append_iff.1 hrun
  obtain ⟨v, hsnapshot, hlast⟩ := Run.cons_iff.1 hrest
  have hu := hundisturbed hpre
  -- the snapshot is of the calendar in `u`, and its call holds the lock
  have hbegun : Concluding C u.calendar v := by
    obtain ⟨-, hstep⟩ := hsnapshot
    cases hstep
    exact .inl ⟨⟨i, SaverState.Active.update (by trivial)⟩, rfl⟩
  have hdone : ∀ j, ¬(m.saver j).Active ∧ m.saver j ≠ .returned false := by
    intro j
    rcases hreturned j with hidle | hok
    · rw [hidle]
      exact ⟨fun h ↦ h, fun h ↦ nomatch h⟩
    · rw [hok]
      exact ⟨fun h ↦ h, fun h ↦ nomatch h⟩
  rcases concluding_of_run (hu.step hsnapshot) hbegun hpost hlast with
    ⟨⟨j, hj⟩, -⟩ | ⟨-, ⟨j, hj⟩ | ⟨f, hf, hparse⟩⟩
  · exact absurd hj (hdone j).1
  · exact absurd hj (hdone j).2
  · exact ⟨u, f, hpre.of_guarded, hrest.of_guarded, hf, hparse⟩

section Examples

variable (C) {i : ℕ}

/-- A call that writes its whole snapshot, while no other call is active. -/
theorem exists_written (hidle : m.saver i = .idle) (hquiet : ∀ j, ¬(m.saver j).Active)
    (htmp : m.tmp = none) : ∃ m', Run (Guarded (SaveStep C) Alone) m
      [.snapshot i, .truncate i, .write i (C.serialize m.calendar).length] m' ∧
    m'.saver i = .writing m.nextFile (C.serialize m.calendar) (C.serialize m.calendar).length ∧
    (∀ j ≠ i, m'.saver j = m.saver j) ∧ m'.tmp = some m.nextFile ∧ m'.calendar = m.calendar := by
  have halone : ∀ j, ¬((m.setSaver i (.begun (C.serialize m.calendar))).saver j).Writing := by
    intro j hj
    rcases SaverState.Writing.of_update hj with ⟨-, h⟩ | h
    · cases h
    · refine hquiet j ?_
      revert h
      cases m.saver j with
      | writing file data written => exact fun _ ↦ trivial
      | _ => exact fun h ↦ absurd h id
  have hbegun : (m.setSaver i (.begun (C.serialize m.calendar))).saver i =
      .begun (C.serialize m.calendar) := Function.update_self ..
  have hwriting (saver : ℕ → SaverState) :
      Function.update saver i (.writing m.nextFile (C.serialize m.calendar) 0) i =
        .writing m.nextFile (C.serialize m.calendar) 0 := Function.update_self ..
  refine ⟨_, .cons ⟨trivial, .snapshot hidle⟩ (.cons ⟨halone, .create hbegun htmp⟩
    (.cons ⟨trivial, .write (hwriting _) (Nat.zero_add _).le⟩ (.nil _))), ?_, fun j hj ↦ ?_, rfl,
    rfl⟩
  · rw [SaveMachine.saver_setContents, Function.update_self, Nat.zero_add]
  · rw [SaveMachine.saver_setContents, Function.update_of_ne hj]
    dsimp only
    rw [Function.update_of_ne hj, Function.update_of_ne hj]

/-- A call, up to its return. -/
theorem exists_saved (hidle : m.saver i = .idle) (hquiet : ∀ j, ¬(m.saver j).Active)
    (htmp : m.tmp = none) : ∃ m', Run (Guarded (SaveStep C) Alone) m
      [.snapshot i, .truncate i, .write i (C.serialize m.calendar).length, .rename i] m' ∧
    m'.saver i = .returned true ∧ (∀ j ≠ i, m'.saver j = m.saver j) ∧ m'.tmp = none ∧
    m'.calendar = m.calendar := by
  obtain ⟨m', hrun, hsaver, hothers, htmp', hcalendar⟩ := exists_written C hidle hquiet htmp
  have hrename : Run (Guarded (SaveStep C) Alone) m' [.rename i] { m' with
      saver := Function.update m'.saver i (.returned true)
      main := some m.nextFile
      tmp := none } := .cons ⟨trivial, .rename hsaver htmp'⟩ (.nil _)
  refine ⟨_, Run.append_iff.2 ⟨m', hrun, hrename⟩, Function.update_self .., fun j hj ↦ ?_, rfl,
    hcalendar⟩
  dsimp only
  rw [Function.update_of_ne hj, hothers j hj]

/-- Before it renames, another call truncates its file. -/
theorem exists_truncated (calendar : CalendarData A) : ∃ m, Run (SaveStep C) (.new calendar)
      [.snapshot 0, .truncate 0, .write 0 (C.serialize calendar).length, .snapshot 1,
        .truncate 1, .rename 0] m ∧
    m.main = some 0 ∧ m.contents 0 = [] := by
  obtain ⟨m, hrun, hsaver, hothers, htmp, -⟩ := exists_written C (i := 0)
    (m := .new calendar) rfl (fun _ h ↦ h) rfl
  have hidle : m.saver 1 = .idle := hothers 1 Nat.one_ne_zero
  have hrest : ∃ m', Run (SaveStep C) m [.snapshot 1, .truncate 1, .rename 0] m' ∧
      m'.main = some 0 ∧ m'.contents 0 = [] := by
    refine ⟨_, .cons (.snapshot hidle)
      (.cons (@SaveStep.truncate _ _ _ _ 0 (C.serialize m.calendar) ?_ htmp)
      (.cons (@SaveStep.rename _ _ _ _ 0 _ (C.serialize calendar) ?_ htmp) (.nil _))), rfl, ?_⟩
    · dsimp only
      rw [Function.update_self]
    · rw [SaveMachine.saver_setContents, Function.update_of_ne Nat.zero_ne_one]
      dsimp only
      rw [Function.update_of_ne Nat.zero_ne_one]
      exact hsaver
    · dsimp only [SaveMachine.setContents]
      rw [Function.update_self]
  obtain ⟨m', htail, hmain, hcontents⟩ := hrest
  exact ⟨m', Run.append_iff.2 ⟨m, hrun.of_guarded, htail⟩, hmain, hcontents⟩

end Examples

/-- The length of a calendar's text. -/
def savedLength (ticks : List (CalendarTick Unit)) : ℕ :=
  (Codec.unary.serialize { (CalendarData.new default "" : CalendarData Unit) with ticks }).length

/-- Two calls with a record appended in between: the main file holds the calendar with the
record. -/
theorem published_two_saves : ∃ (u m : SaveMachine Unit) (f : ℕ),
    Run (SaveStep .unary) (.new (.new default "")) [.snapshot 0, .truncate 0,
      .write 0 (savedLength []), .rename 0, .append ⟨default, []⟩] u ∧
    Run (SaveStep .unary) u [.snapshot 1, .truncate 1, .write 1 (savedLength [⟨default, []⟩]),
      .rename 1] m ∧
    m.main = some f ∧ Codec.unary.parse (m.contents f) = some u.calendar := by
  obtain ⟨v, hfirst, hsaver, hothers, htmp, hcalendar⟩ := exists_saved (A := Unit) .unary (i := 0)
    (m := .new (.new default "")) rfl (fun _ h ↦ h) rfl
  have hstates : ∀ j, v.saver j = .idle ∨ v.saver j = .returned true := by
    intro j
    by_cases hj : j = 0
    · exact .inr (hj ▸ hsaver)
    · exact .inl (hothers j hj)
  have hquiet : ∀ j, ¬(v.saver j).Active := by
    intro j
    rcases hstates j with hidle | hok
    · exact hidle ▸ id
    · exact hok ▸ id
  have happend : v.calendar.append ⟨default, []⟩ =
      .ok { (CalendarData.new default "" : CalendarData Unit) with ticks := [⟨default, []⟩] } := by
    rw [hcalendar]
    rfl
  obtain ⟨m, hsecond, hsaver', hothers', -, -⟩ := exists_saved (A := Unit) .unary (i := 1)
    (m := { v with
      calendar := { (CalendarData.new default "" : CalendarData Unit) with
        ticks := [⟨default, []⟩] } }) (hothers 1 Nat.one_ne_zero) hquiet htmp
  have happended : Run (Guarded (SaveStep .unary) Alone) v [.append ⟨default, []⟩] _ :=
    .cons ⟨trivial, .append hquiet happend⟩ (.nil _)
  have hrun : Run (Guarded (SaveStep .unary) Alone) (.new (.new default ""))
      ([.snapshot 0, .truncate 0, .write 0 (savedLength []), .rename 0] ++
        ([.append ⟨default, []⟩] ++ [.snapshot 1, .truncate 1,
          .write 1 (savedLength [⟨default, []⟩]), .rename 1])) m :=
    Run.append_iff.2 ⟨v, hfirst, Run.append_iff.2 ⟨_, happended, hsecond⟩⟩
  have hreturned : ∀ j, m.saver j = .idle ∨ m.saver j = .returned true := by
    intro j
    by_cases hj : j = 1
    · exact .inr (hj ▸ hsaver')
    · rw [hothers' j hj]
      exact hstates j
  obtain ⟨u, f, hpre, hpost, hf, hparse⟩ := (published_of_alone hrun).2 [.snapshot 0,
    .truncate 0, .write 0 (savedLength []), .rename 0, .append ⟨default, []⟩] 1 _ rfl (by simp)
    hreturned
  exact ⟨u, m, f, hpre, hpost, hf, hparse⟩

/-- A call has written its snapshot; another one opens the temporary file; the first one renames:
the main file is empty. -/
theorem published_half_written : ∃ m : SaveMachine Unit,
    Run (SaveStep .unary) (.new (.new default ""))
      [.snapshot 0, .truncate 0, .write 0 (Codec.unary.serialize (.new default "" :
        CalendarData Unit)).length, .snapshot 1, .truncate 1, .rename 0] m ∧
    m.main = some 0 ∧ Codec.unary.parse (α := CalendarData Unit) (m.contents 0) = none := by
  obtain ⟨m, hrun, hmain, hcontents⟩ := exists_truncated (A := Unit) .unary (.new default "")
  refine ⟨m, hrun, hmain, ?_⟩
  rw [hcontents]
  exact Codec.unary.parse_take _ 0 (Codec.length_serialize_unary_pos (α := CalendarData Unit)
    (.new default ""))

end Foretias

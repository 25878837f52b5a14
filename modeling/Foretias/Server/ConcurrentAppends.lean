import Foretias.Library.Run
import Foretias.Server.StoreRuns
import Mathlib.Logic.Function.Basic

/-!
# Concurrent appends

Any number of calls of `append_block` run at once on one store. A call draws its number in one
step, but between that and its line there is the sealing, and the line and its line feed are two
writes. So lines may stand in another order than their numbers (`swapped_appends`), and two lines
may run together.

* `readsBack_of_inTurn` — in runs where a call writes its line only while no other line lacks its
  line feed and no smaller number is pending, the file reads back, once all calls have returned
  `Ok`, as the blocks of the calls, each once and in the order of their numbers.
-/

namespace Foretias

open EncryptedStore

variable {A : Type}

/-- Where a call of `append_block` stands. -/
inductive AppendPhase (A : Type)
  /-- Not called. -/
  | idle
  /-- It has its number. -/
  | numbered (id : ℕ) (ticks : List (CalendarTick A))
  /-- It has its block, and the nonce that the line is sealed with. -/
  | sealed (block : CalendarBlock A) (nonce : FixedBytes 12)
  /-- It has opened the file. -/
  | opened (block : CalendarBlock A) (nonce : FixedBytes 12)
  /-- It has written the line, and not the line feed. -/
  | lineWritten (block : CalendarBlock A)
  /-- It has returned `Ok`. -/
  | returned (block : CalendarBlock A)
  /-- It has returned an error. -/
  | failed

namespace AppendPhase

/-- The number of a call that has not written its line. -/
def pendingId : AppendPhase A → Option ℕ
  | numbered id _ => some id
  | sealed block _ => some block.blockId
  | opened block _ => some block.blockId
  | _ => none

/-- The block of a call that has written its line. -/
def written : AppendPhase A → Option (CalendarBlock A)
  | lineWritten block => some block
  | returned block => some block
  | _ => none

/-- Does the line lack its line feed? -/
def LineOpen : AppendPhase A → Prop
  | lineWritten _ => True
  | _ => False

/-- Is the call under way? -/
def Active : AppendPhase A → Prop
  | idle => False
  | returned _ => False
  | failed => False
  | _ => True

end AppendPhase

/-- A store and the calls on it. -/
structure AppendMachine (A : Type) where
  /-- The store. -/
  store : EncryptedStore
  /-- The calls. -/
  phase : ℕ → AppendPhase A

/-- A step of one call. -/
inductive AppendEvent (A : Type)
  | number (i : ℕ) (ticks : List (CalendarTick A))
  | sealBlock (i : ℕ) (ns : UInt64) (nonce : FixedBytes 12)
  | openFile (i : ℕ)
  | writeLine (i : ℕ)
  | writeLineFeed (i : ℕ)
  | fail (i n : ℕ)

namespace AppendMachine

/-- A store before any call. -/
def start (store : EncryptedStore) : AppendMachine A := ⟨store, fun _ ↦ .idle⟩

/-- One call moved on, with the store that it leaves. -/
def move (m : AppendMachine A) (i : ℕ) (phase : AppendPhase A) (store : EncryptedStore) :
    AppendMachine A :=
  ⟨store, Function.update m.phase i phase⟩

/-- The blocks of the calls that have written their lines. -/
def written (m : AppendMachine A) (i : ℕ) : Option (CalendarBlock A) := (m.phase i).written

/-- Every call that was made has returned `Ok`. -/
def AllOk (m : AppendMachine A) : Prop := ∀ i, m.phase i = .idle ∨ ∃ b, m.phase i = .returned b

end AppendMachine

variable (P : Primitives) (F : StoreFormat A) (key : FixedBytes 32)

/-- The steps of the calls. -/
inductive AppendStep : AppendMachine A → AppendEvent A → AppendMachine A → Prop
  /-- A call draws its number. -/
  | number {m : AppendMachine A} {i : ℕ} {ticks : List (CalendarTick A)}
      (hidle : m.phase i = .idle) :
      AppendStep m (.number i ticks)
        (m.move i (.numbered m.store.nextBlockId ticks) m.store.takeId)
  /-- It makes its block and seals it. -/
  | sealBlock {m : AppendMachine A} {i id : ℕ} {ticks : List (CalendarTick A)} {ns : UInt64}
      {nonce : FixedBytes 12} {root : FixedBytes 32} (hphase : m.phase i = .numbered id ticks)
      (hroot : computeMerkleRoot P F ticks = .ok root) :
      AppendStep m (.sealBlock i ns nonce) (m.move i (.sealed ⟨id, ns, ticks, root⟩ nonce) m.store)
  /-- It opens the file, which is created if it is not there. -/
  | openFile {m : AppendMachine A} {i : ℕ} {b : CalendarBlock A} {nonce : FixedBytes 12}
      (hphase : m.phase i = .sealed b nonce) (hparent : m.store.parentReady = true) :
      AppendStep m (.openFile i) (m.move i (.opened b nonce) (m.store.write []))
  /-- It writes its line to the end of the file. -/
  | writeLine {m : AppendMachine A} {i : ℕ} {b : CalendarBlock A} {nonce : FixedBytes 12}
      (hphase : m.phase i = .opened b nonce) :
      AppendStep m (.writeLine i)
        (m.move i (.lineWritten b) (m.store.write (F.encodeLine key nonce b)))
  /-- It writes the line feed, to what is the end of the file by now. -/
  | writeLineFeed {m : AppendMachine A} {i : ℕ} {b : CalendarBlock A}
      (hphase : m.phase i = .lineWritten b) :
      AppendStep m (.writeLineFeed i) (m.move i (.returned b) (m.store.write ['\n']))
  /-- Any step may fail. -/
  | fail {m : AppendMachine A} {i n : ℕ} (hactive : (m.phase i).Active) :
      AppendStep m (.fail i n) (m.move i .failed m.store)
  /-- A write may fail with a part of the line in the file. -/
  | failTorn {m : AppendMachine A} {i n : ℕ} {b : CalendarBlock A} {nonce : FixedBytes 12}
      (hphase : m.phase i = .opened b nonce) :
      AppendStep m (.fail i n)
        (m.move i .failed (m.store.write ((F.encodeLine key nonce b).take n)))

/-- A line is written only while no other one lacks its line feed and no smaller number is
pending. -/
def AppendEvent.InTurn (m : AppendMachine A) : AppendEvent A → Prop
  | writeLine i => (∀ j, ¬(m.phase j).LineOpen) ∧
    ∀ id ∈ (m.phase i).pendingId, ∀ j, ∀ id' ∈ (m.phase j).pendingId, id ≤ id'
  | _ => True

/-- The file reads back as what was in it and the blocks of the calls, each once, with ascending
numbers. -/
def AppendMachine.ReadsBack (m : AppendMachine A) (stored : List (CalendarBlock A)) : Prop :=
  ∃ (order : List ℕ) (blocks : List (CalendarBlock A)), order.Nodup ∧
    (∀ i, i ∈ order ↔ m.phase i ≠ .idle) ∧
    List.Forall₂ (fun i b ↦ m.phase i = .returned b) order blocks ∧
    F.readAll key m.store.file = .ok (stored ++ blocks) ∧
    Ascending CalendarBlock.blockId (stored ++ blocks)

variable {P F key} {m m' : AppendMachine A} {stored : List (CalendarBlock A)}

/-! ### A call by itself -/

theorem EncryptedStore.write_write (store : EncryptedStore) (text text' : List Char) :
    (store.write text).write text' = store.write (text ++ text') := by
  simp only [EncryptedStore.write, Option.getD_some, List.append_assoc]

/-- A call whose steps come one after another does what `append_block` does. -/
theorem run_alone {store t : EncryptedStore} {ticks : List (CalendarTick A)} {ns : UInt64}
    {nonce : FixedBytes 12} {phase : ℕ → AppendPhase A} {i : ℕ} (hidle : phase i = .idle)
    (hparent : store.parentReady = true)
    (h : appendBlock P F key (.ok ns) nonce ticks store = .ok ⟨⟩ t) :
    ∃ b : CalendarBlock A, b.ticks = ticks ∧ Run (AppendStep P F key) ⟨store, phase⟩
      [.number i ticks, .sealBlock i ns nonce, .openFile i, .writeLine i, .writeLineFeed i]
      ⟨t, Function.update phase i (.returned b)⟩ := by
  obtain ⟨root, hroot, -, rfl⟩ := exists_of_appendBlock h
  refine ⟨⟨store.nextBlockId, ns, ticks, root⟩, rfl, .cons (.number hidle) (.cons (.sealBlock
    (Function.update_self i _ _) hroot) (.cons (.openFile (Function.update_self i _ _) hparent)
    (.cons (.writeLine (Function.update_self i _ _)) (.cons
    (.writeLineFeed (Function.update_self i _ _)) ?_))))⟩
  simp only [AppendMachine.move, Function.update_idem, EncryptedStore.write_write,
    List.nil_append]
  exact .nil _

/-! ### What steps in turn keep -/

/-- The file reads back as what was in it and the blocks of the calls in `order`, and what is
pending comes after them. -/
structure AppendMachine.Sound (F : StoreFormat A) (key : FixedBytes 32)
    (stored : List (CalendarBlock A)) (m : AppendMachine A) (order : List ℕ)
    (blocks : List (CalendarBlock A)) : Prop where
  /-- The file reads back. -/
  readAll_eq : F.readAll key m.store.file = .ok (stored ++ blocks)
  /-- The numbers strictly increase. -/
  ascending : Ascending CalendarBlock.blockId (stored ++ blocks)
  /-- The next number is above them. -/
  below : ∀ b ∈ stored ++ blocks, b.blockId < m.store.nextBlockId
  /-- The last line is closed, unless a call has its line feed still to write. -/
  terminated : (∀ i, ¬(m.phase i).LineOpen) → Terminated (m.store.file.getD [])
  /-- Pending numbers have been drawn, -/
  pending_lt : ∀ i id, (m.phase i).pendingId = some id → id < m.store.nextBlockId
  /-- they are above those in the file, -/
  pending_above : ∀ i id, (m.phase i).pendingId = some id → ∀ b ∈ stored ++ blocks, b.blockId < id
  /-- and no two calls have the same. -/
  pending_inj : ∀ i j id, (m.phase i).pendingId = some id → (m.phase j).pendingId = some id → i = j
  /-- No call is listed twice. -/
  nodup : order.Nodup
  /-- The blocks are those of the calls listed. -/
  written_eq : order.map m.written = blocks.map some
  /-- Every call that has written its line is listed. -/
  mem_order : ∀ i, m.written i ≠ none → i ∈ order

theorem AppendMachine.phase_move_self (m : AppendMachine A) (i : ℕ) (phase : AppendPhase A)
    (store : EncryptedStore) : (m.move i phase store).phase i = phase := by
  show Function.update m.phase i phase i = phase
  rw [Function.update_self]

theorem AppendMachine.phase_move_of_ne (m : AppendMachine A) {i j : ℕ} (h : j ≠ i)
    (phase : AppendPhase A) (store : EncryptedStore) :
    (m.move i phase store).phase j = m.phase j := by
  show Function.update m.phase i phase j = m.phase j
  rw [Function.update_of_ne h]

theorem AppendMachine.written_move {i : ℕ} {phase : AppendPhase A} {store : EncryptedStore}
    (h : phase.written = (m.phase i).written) : (m.move i phase store).written = m.written := by
  funext j
  rcases eq_or_ne j i with rfl | hj
  · rw [written, phase_move_self, h]
    rfl
  · rw [written, phase_move_of_ne m hj]
    rfl

/-- What is pending once a call has moved on is its own number, or was pending before. -/
theorem AppendMachine.pendingId_move {i j id : ℕ} {phase : AppendPhase A} {store : EncryptedStore}
    (h : ((m.move i phase store).phase j).pendingId = some id) :
    j = i ∧ phase.pendingId = some id ∨ j ≠ i ∧ (m.phase j).pendingId = some id := by
  rcases eq_or_ne j i with rfl | hj
  · rw [phase_move_self] at h
    exact .inl ⟨rfl, h⟩
  · rw [phase_move_of_ne m hj] at h
    exact .inr ⟨hj, h⟩

namespace AppendMachine.Sound

variable {order : List ℕ} {blocks : List (CalendarBlock A)} {i : ℕ} {phase : AppendPhase A}
  {store : EncryptedStore}

/-- A store that holds blocks, before any call. -/
theorem start (h : Keeps P F key store stored) : (start store).Sound F key stored [] [] where
  readAll_eq := by
    rw [List.append_nil]
    exact h.readAll_eq
  ascending := by
    rw [List.append_nil]
    exact h.ascending
  below b hb := h.below b (List.append_nil stored ▸ hb)
  terminated _ := h.terminated
  pending_lt _ _ hid := absurd hid.symm (Option.some_ne_none _)
  pending_above _ _ hid := absurd hid.symm (Option.some_ne_none _)
  pending_inj _ _ _ hid := absurd hid.symm (Option.some_ne_none _)
  nodup := List.nodup_nil
  written_eq := rfl
  mem_order _ hi := absurd rfl hi

/-- Only calls that have written their line are listed. -/
theorem written_ne_none (h : m.Sound F key stored order blocks) (hi : i ∈ order) :
    m.written i ≠ none := by
  have hmem : m.written i ∈ order.map m.written := List.mem_map_of_mem hi
  rw [h.written_eq] at hmem
  obtain ⟨c, -, hc⟩ := List.mem_map.1 hmem
  rw [← hc]
  exact Option.some_ne_none c

/-- Where no line is open after a move of a call that had none open, none was before. -/
theorem terminated_of_move (h : m.Sound F key stored order blocks)
    (hphase : ¬(m.phase i).LineOpen) (hopen : ∀ j, ¬((m.move i phase store).phase j).LineOpen) :
    Terminated (m.store.file.getD []) := by
  refine h.terminated fun j ↦ ?_
  rcases eq_or_ne j i with rfl | hj
  · exact hphase
  · rw [← phase_move_of_ne m hj]
    exact hopen j

/-- A call moves on without drawing a number and without writing its line. -/
theorem move (h : m.Sound F key stored order blocks)
    (hwritten : phase.written = (m.phase i).written)
    (hpending : ∀ id, phase.pendingId = some id → (m.phase i).pendingId = some id)
    (hread : F.readAll key store.file = F.readAll key m.store.file)
    (hnext : store.nextBlockId = m.store.nextBlockId)
    (hterm : (∀ j, ¬((m.move i phase store).phase j).LineOpen) → Terminated (store.file.getD [])) :
    (m.move i phase store).Sound F key stored order blocks := by
  have hmove : ∀ j id, ((m.move i phase store).phase j).pendingId = some id →
      (m.phase j).pendingId = some id := by
    intro j id hid
    rcases pendingId_move hid with ⟨rfl, hown⟩ | ⟨-, hbefore⟩
    · exact hpending id hown
    · exact hbefore
  refine ⟨hread.trans h.readAll_eq, h.ascending, fun b hb ↦ ?_, hterm, fun j id hid ↦ ?_,
    fun j id hid ↦ h.pending_above j id (hmove j id hid),
    fun j k id hj hk ↦ h.pending_inj j k id (hmove j id hj) (hmove k id hk), h.nodup, ?_, ?_⟩
  · exact (h.below b hb).trans_eq hnext.symm
  · exact (h.pending_lt j id (hmove j id hid)).trans_eq hnext.symm
  · rw [written_move hwritten]
    exact h.written_eq
  · rw [written_move hwritten]
    exact h.mem_order

/-- A call draws its number. -/
theorem number (h : m.Sound F key stored order blocks) (hidle : m.phase i = .idle)
    (ticks : List (CalendarTick A)) :
    (m.move i (.numbered m.store.nextBlockId ticks) m.store.takeId).Sound F key stored order
      blocks := by
  set m' := m.move i (.numbered m.store.nextBlockId ticks) m.store.takeId with hm'
  have hpending : ∀ j id, (m'.phase j).pendingId = some id →
      j = i ∧ id = m.store.nextBlockId ∨ j ≠ i ∧ (m.phase j).pendingId = some id := by
    intro j id hid
    exact (pendingId_move hid).imp_left fun hnew ↦ ⟨hnew.1, (Option.some.inj hnew.2).symm⟩
  have hwritten : m'.written = m.written := by
    refine written_move ?_
    rw [hidle]
    rfl
  refine ⟨h.readAll_eq, h.ascending, fun b hb ↦ Nat.lt_succ_of_lt (h.below b hb),
    h.terminated_of_move (by rw [hidle]; exact id), fun j id hid ↦ ?_, fun j id hid ↦ ?_,
    fun j k id hj hk ↦ ?_, h.nodup, ?_, ?_⟩
  · rcases hpending j id hid with ⟨-, rfl⟩ | ⟨-, hid⟩
    · exact Nat.lt_succ_self _
    · exact Nat.lt_succ_of_lt (h.pending_lt j id hid)
  · rcases hpending j id hid with ⟨-, rfl⟩ | ⟨-, hid⟩
    · exact h.below
    · exact h.pending_above j id hid
  · -- the number just drawn is above all that were
    rcases hpending j id hj with ⟨rfl, rfl⟩ | ⟨-, hj⟩
    · rcases hpending k _ hk with ⟨rfl, -⟩ | ⟨-, hk⟩
      · rfl
      · exact absurd (h.pending_lt k _ hk) (Nat.lt_irrefl _)
    · rcases hpending k id hk with ⟨-, rfl⟩ | ⟨-, hk⟩
      · exact absurd (h.pending_lt j _ hj) (Nat.lt_irrefl _)
      · exact h.pending_inj j k id hj hk
  · rw [hwritten]
    exact h.written_eq
  · rw [hwritten]
    exact h.mem_order

/-- A call writes its line in turn. -/
theorem writeLine (h : m.Sound F key stored order blocks) {b : CalendarBlock A}
    {nonce : FixedBytes 12} (hphase : m.phase i = .opened b nonce)
    (hturn : (AppendEvent.writeLine i).InTurn m) :
    (m.move i (.lineWritten b) (m.store.write (F.encodeLine key nonce b))).Sound F key stored
      (order ++ [i]) (blocks ++ [b]) := by
  set m' := m.move i (.lineWritten b) (m.store.write (F.encodeLine key nonce b)) with hm'
  obtain ⟨hclosed, hleast⟩ := hturn
  have hself : m'.phase i = .lineWritten b := phase_move_self m i _ _
  have hold : ∀ {j}, j ≠ i → m'.phase j = m.phase j := fun hj ↦ phase_move_of_ne m hj _ _
  have hid : (m.phase i).pendingId = some b.blockId := by
    rw [hphase]
    rfl
  have hpending : ∀ j id, (m'.phase j).pendingId = some id →
      j ≠ i ∧ (m.phase j).pendingId = some id := by
    intro j id hj
    rcases pendingId_move hj with ⟨-, hj⟩ | hj
    · exact absurd hj.symm (Option.some_ne_none _)
    · exact hj
  have habove := h.pending_above i b.blockId hid
  have hnotmem : i ∉ order := by
    refine fun hmem ↦ h.written_ne_none hmem ?_
    rw [AppendMachine.written, hphase]
    rfl
  refine ⟨?_, ?_, fun c hc ↦ ?_, fun hopen ↦ ?_, fun j id hj ↦ ?_, fun j id hj c hc ↦ ?_,
    fun j k id hj hk ↦ h.pending_inj j k id (hpending j id hj).2 (hpending k id hk).2, ?_, ?_,
    fun j hj ↦ ?_⟩
  · have hread : F.readAll key (some (m.store.file.getD [])) = .ok (stored ++ blocks) := by
      rw [readAll_getD]
      exact h.readAll_eq
    rw [← List.append_assoc]
    exact readAll_append (h.terminated hclosed) hread (F.word_encodeLine key nonce b).textLines_eq
  · rw [← List.append_assoc]
    exact h.ascending.concat habove
  · rw [← List.append_assoc, List.mem_append, List.mem_singleton] at hc
    rcases hc with hc | rfl
    · exact h.below c hc
    · exact h.pending_lt i _ hid
  · exact absurd (hself ▸ trivial : (m'.phase i).LineOpen) (hopen i)
  · exact h.pending_lt j id (hpending j id hj).2
  · obtain ⟨hne, hwaiting⟩ := hpending j id hj
    rw [← List.append_assoc, List.mem_append, List.mem_singleton] at hc
    rcases hc with hc | rfl
    · exact h.pending_above j id hwaiting c hc
    · -- it was the least pending number, and only its own
      refine Nat.lt_of_le_of_ne (hleast _ hid j id hwaiting) fun heq ↦ hne ?_
      exact h.pending_inj j i id hwaiting (heq ▸ hid)
  · exact List.nodup_append.2 ⟨h.nodup, List.nodup_singleton i, fun j hj k hk ↦ by
      rw [List.mem_singleton.1 hk]
      exact fun heq ↦ hnotmem (heq ▸ hj)⟩
  · have hsame : order.map m'.written = order.map m.written := by
      refine List.map_congr_left fun j hj ↦ ?_
      have hne : j ≠ i := fun heq ↦ hnotmem (heq ▸ hj)
      rw [AppendMachine.written, hold hne]
      rfl
    rw [List.map_append, hsame, h.written_eq, List.map_append, List.map_singleton,
      List.map_singleton, AppendMachine.written, hself]
    rfl
  · rcases eq_or_ne j i with rfl | hne
    · exact List.mem_append_right _ (List.mem_singleton_self j)
    · rw [AppendMachine.written, hold hne] at hj
      exact List.mem_append_left _ (h.mem_order j hj)

/-- Once all calls have returned `Ok`, the file reads back as their blocks. -/
theorem readsBack (h : m.Sound F key stored order blocks) (hall : m.AllOk) :
    m.ReadsBack F key stored := by
  have hwritten : List.Forall₂ (fun i b ↦ m.written i = some b) order blocks := by
    have heq : List.Forall₂ (· = ·) (order.map m.written) (blocks.map some) := by
      rw [h.written_eq]
      exact List.forall₂_same.2 fun _ _ ↦ rfl
    rwa [List.forall₂_map_left_iff, List.forall₂_map_right_iff] at heq
  have hreturned : ∀ i b, m.written i = some b → m.phase i = .returned b := by
    intro i b hi
    rcases hall i with hidle | ⟨c, hc⟩
    · rw [AppendMachine.written, hidle] at hi
      exact absurd hi.symm (Option.some_ne_none b)
    · rw [AppendMachine.written, hc] at hi
      rw [hc, Option.some_inj.1 hi]
  refine ⟨order, blocks, h.nodup, fun i ↦ ⟨fun hi hidle ↦ ?_, fun hi ↦ ?_⟩,
    hwritten.imp hreturned, h.readAll_eq, h.ascending⟩
  · refine h.written_ne_none hi ?_
    rw [AppendMachine.written, hidle]
    rfl
  · rcases hall i with hidle | ⟨c, hc⟩
    · exact absurd hidle hi
    · refine h.mem_order i ?_
      rw [AppendMachine.written, hc]
      exact Option.some_ne_none c

end AppendMachine.Sound

/-! ### Runs -/

/-- A line feed at the end does not change what is read. -/
theorem readAll_write_lineFeed (store : EncryptedStore) :
    F.readAll key (store.write ['\n']).file = F.readAll key store.file := by
  rw [← readAll_getD store.file, file_write]
  show (textLines (store.file.getD [] ++ ['\n'])).mapM (F.decodeLine key) =
    (textLines (store.file.getD [])).mapM (F.decodeLine key)
  rw [textLines_append_lineFeed, textLines_nil, List.append_nil]

/-- An error is final. -/
theorem AppendStep.failed {event : AppendEvent A} (hstep : AppendStep P F key m event m') {i : ℕ}
    (hi : m.phase i = .failed) : m'.phase i = .failed := by
  have hmove : ∀ {j phase store}, m.phase j ≠ .failed →
      (m.move j phase store).phase i = .failed := by
    intro j phase store hj
    have hne : i ≠ j := fun heq ↦ hj (heq ▸ hi)
    rw [AppendMachine.phase_move_of_ne m hne, hi]
  cases hstep with
  | number hidle => exact hmove (by simp [hidle])
  | sealBlock hphase hroot => exact hmove (by simp [hphase])
  | openFile hphase hparent => exact hmove (by simp [hphase])
  | writeLine hphase => exact hmove (by simp [hphase])
  | writeLineFeed hphase => exact hmove (by simp [hphase])
  | fail hactive => exact hmove fun heq ↦ by rw [heq] at hactive; exact hactive
  | failTorn hphase => exact hmove (by simp [hphase])

/-- A step in turn keeps the file readable, unless a call has failed. -/
theorem sound_step {order : List ℕ} {blocks : List (CalendarBlock A)} {event : AppendEvent A}
    (h : m.Sound F key stored order blocks)
    (hstep : Guarded (AppendStep P F key) (fun m event ↦ event.InTurn m) m event m') :
    (∃ i, m'.phase i = .failed) ∨ ∃ order blocks, m'.Sound F key stored order blocks := by
  obtain ⟨hturn, hstep⟩ := hstep
  cases hstep with
  | number hidle => exact .inr ⟨_, _, h.number hidle _⟩
  | @sealBlock i n ticks ns nonce root hphase hroot =>
    refine .inr ⟨_, _, h.move ?_ (fun id' hid ↦ ?_) rfl rfl (h.terminated_of_move ?_)⟩
    · rw [hphase]
      rfl
    · rw [hphase]
      exact hid
    · rw [hphase]
      exact id
  | @openFile i b nonce hphase hparent =>
    have hfile : (m.store.write []).file = some (m.store.file.getD []) := by
      rw [file_write, List.append_nil]
    refine .inr ⟨_, _, h.move ?_ (fun id' hid ↦ ?_) ?_ rfl fun hopen ↦ ?_⟩
    · rw [hphase]
      rfl
    · rw [hphase]
      exact hid
    · rw [hfile, readAll_getD]
    · rw [hfile]
      refine h.terminated_of_move ?_ hopen
      rw [hphase]
      exact id
  | writeLine hphase => exact .inr ⟨_, _, h.writeLine hphase hturn⟩
  | @writeLineFeed i b hphase =>
    refine .inr ⟨_, _, h.move ?_ (fun id' hid ↦ ?_) (readAll_write_lineFeed m.store) rfl
      fun _ ↦ ?_⟩
    · rw [hphase]
      rfl
    · exact absurd hid.symm (Option.some_ne_none _)
    · rw [file_write, Option.getD_some]
      exact terminated_append_lineFeed _
  | @fail i n hactive => exact .inl ⟨i, m.phase_move_self i _ _⟩
  | @failTorn i n b nonce hphase => exact .inl ⟨i, m.phase_move_self i _ _⟩

/-- **Concurrent appends.** In every run in which lines are written in turn, once all calls have
returned `Ok`, the file reads back as what was in it and the block of each call once, with
ascending numbers. -/
theorem readsBack_of_inTurn {store : EncryptedStore} {events : List (AppendEvent A)}
    (hkeeps : Keeps P F key store stored)
    (hrun : Run (Guarded (AppendStep P F key) fun m event ↦ event.InTurn m) (.start store) events m)
    (hall : m.AllOk) : m.ReadsBack F key stored := by
  have hsound : (∃ i, m.phase i = .failed) ∨ ∃ order blocks, m.Sound F key stored order blocks := by
    refine hrun.invariant (I := fun m ↦ (∃ i, m.phase i = .failed) ∨
      ∃ order blocks, m.Sound F key stored order blocks) (fun hs hstep ↦ ?_)
      (.inr ⟨[], [], .start hkeeps⟩)
    rcases hs with ⟨i, hi⟩ | ⟨order, blocks, hs⟩
    · exact .inl ⟨i, hstep.2.failed hi⟩
    · exact sound_step hs hstep
  rcases hsound with ⟨i, hi⟩ | ⟨order, blocks, hs⟩
  · rcases hall i with hidle | ⟨b, hb⟩
    · rw [hidle] at hi
      cases hi
    · rw [hb] at hi
      cases hi
  · exact hs.readsBack hall

/-! ### Two calls -/

/-- A block without ticks, written at time zero. -/
def emptyBlock (id : ℕ) : CalendarBlock Unit := ⟨id, 0, [], .replicate 32 0⟩

/-- Its line. -/
def emptyLine (id : ℕ) : List Char :=
  plainFormat.encodeLine (.replicate 32 0) (.replicate 12 0) (emptyBlock id)

/-- Two calls whose steps before the writes cross. -/
def appendCrossed : List (AppendEvent Unit) :=
  [.number 0 [], .number 1 [], .sealBlock 1 0 (.replicate 12 0), .openFile 1,
    .sealBlock 0 0 (.replicate 12 0), .openFile 0, .writeLine 0, .writeLineFeed 0, .writeLine 1,
    .writeLineFeed 1]

theorem readsBack_appendCrossed : ∃ m,
    Run (Guarded (AppendStep .transparent plainFormat (.replicate 32 0))
      fun m event ↦ event.InTurn m) (.start fresh) appendCrossed m ∧
    m.ReadsBack plainFormat (.replicate 32 0) [] := by
  obtain ⟨m, hrun, hall⟩ : ∃ m, Run (Guarded (AppendStep .transparent plainFormat (.replicate 32 0))
      fun m event ↦ event.InTurn m) (.start fresh) appendCrossed m ∧ m.AllOk := by
    refine ⟨_, .cons ⟨trivial, .number rfl⟩ (.cons ⟨trivial, .number rfl⟩ (.cons
      ⟨trivial, .sealBlock rfl rfl⟩ (.cons ⟨trivial, .openFile rfl rfl⟩ (.cons
      ⟨trivial, .sealBlock rfl rfl⟩ (.cons ⟨trivial, .openFile rfl rfl⟩ (.cons
      ⟨⟨fun j ↦ ?_, fun n hn j n' _ ↦ ?_⟩, .writeLine rfl⟩ (.cons ⟨trivial, .writeLineFeed rfl⟩
      (.cons ⟨⟨fun j ↦ ?_, fun n hn j n' hn' ↦ ?_⟩, .writeLine rfl⟩ (.cons
      ⟨trivial, .writeLineFeed rfl⟩ (.nil _)))))))))), fun i ↦ ?_⟩
    · rcases j with - | - | j
      · exact id
      · exact id
      · exact id
    · obtain rfl := Option.some_inj.1 hn
      exact Nat.zero_le n'
    · rcases j with - | - | j
      · exact id
      · exact id
      · exact id
    · -- the first call has returned, so only the second one is pending
      obtain rfl := Option.some_inj.1 hn
      rcases j with - | - | j
      · exact absurd hn'.symm (Option.some_ne_none n')
      · exact (Option.some_inj.1 hn').le
      · exact absurd hn'.symm (Option.some_ne_none n')
    · rcases i with - | - | i
      · exact .inr ⟨_, rfl⟩
      · exact .inr ⟨_, rfl⟩
      · exact .inl rfl
  exact ⟨m, hrun, readsBack_of_inTurn keeps_fresh hrun hall⟩

/-- Two calls, of which the second one writes first. -/
def appendSwapped : List (AppendEvent Unit) :=
  [.number 0 [], .number 1 [], .sealBlock 0 0 (.replicate 12 0), .sealBlock 1 0 (.replicate 12 0),
    .openFile 0, .openFile 1, .writeLine 1, .writeLineFeed 1, .writeLine 0, .writeLineFeed 0]

/-- Their file, read back: the blocks stand in the order of the writes. -/
theorem readAll_appendSwapped {store : EncryptedStore} (hstore : store.file = some []) :
    plainFormat.readAll (.replicate 32 0) ((((store.write (emptyLine 1)).write ['\n']).write
      (emptyLine 0)).write ['\n']).file = .ok [emptyBlock 1, emptyBlock 0] := by
  have hline : ∀ id, textLines (emptyLine id) = [emptyLine id] :=
    fun id ↦ (plainFormat.word_encodeLine _ _ _).textLines_eq
  have hfirst : plainFormat.readAll (.replicate 32 0)
      ((store.write (emptyLine 1)).write ['\n']).file = .ok [emptyBlock 1] := by
    rw [readAll_write_lineFeed, file_write, hstore]
    exact readAll_append terminated_nil rfl (hline 1)
  rw [readAll_write_lineFeed, file_write]
  exact readAll_append (terminated_append_lineFeed _) hfirst (hline 0)

/-- Both calls return `Ok`, and the file does not read back in the order of the numbers. -/
theorem swapped_appends : ∃ m,
    Run (AppendStep .transparent plainFormat (.replicate 32 0)) (.start fresh) appendSwapped m ∧
    m.AllOk ∧ ¬m.ReadsBack plainFormat (.replicate 32 0) [] := by
  refine ⟨_, .cons (.number rfl) (.cons (.number rfl) (.cons (.sealBlock rfl rfl) (.cons
    (.sealBlock rfl rfl) (.cons (.openFile rfl rfl) (.cons (.openFile rfl rfl) (.cons
    (.writeLine rfl) (.cons (.writeLineFeed rfl) (.cons (.writeLine rfl) (.cons
    (.writeLineFeed rfl) (.nil _)))))))))), fun i ↦ ?_, fun h ↦ ?_⟩
  · rcases i with - | - | i
    · exact .inr ⟨_, rfl⟩
    · exact .inr ⟨_, rfl⟩
    · exact .inl rfl
  · obtain ⟨order, blocks, -, -, -, hread, hascending⟩ := h
    have hswapped := @readAll_appendSwapped ((fresh.takeId.takeId.write []).write []) rfl
    obtain rfl : [emptyBlock 1, emptyBlock 0] = blocks := Except.ok.inj (hswapped.symm.trans hread)
    exact absurd ((List.pairwise_cons.1 hascending).1 _ List.mem_cons_self) (by decide)

end Foretias

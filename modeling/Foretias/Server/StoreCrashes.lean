import Foretias.Library.Run
import Foretias.Server.StoreRuns

/-!
# Crashes of the encrypted store

A process may die in the middle of an append, with any part of the line in the file, and another
store is then opened on the file. Nothing repairs a torn line: the file no longer reads back, the
next number is computed as 0, and an append goes on where the line broke off.

`StoreStep` has these steps, and keeps beside the state the blocks of the appends that returned
`Ok`. A step that is `Clean` leaves no torn line and does not go on an open one; in a run of clean
steps the file reads back with every such block (`storeRun_intact`).
-/

namespace Foretias

open ErrorState EncryptedStore

variable {A : Type} (P : Primitives) (F : StoreFormat A) (key : FixedBytes 32)

/-- A store over its crashes. -/
structure StoreState (A : Type) where
  /-- The store, in memory and on disk. -/
  store : EncryptedStore
  /-- The process that holds the store is alive. -/
  running : Bool
  /-- The blocks of the appends that returned `Ok`. -/
  acked : List (CalendarBlock A)

/-- What happens to a store. -/
inductive StoreEvent (A : Type)
  /-- A call of `append_block`. -/
  | append (ticks : List (CalendarTick A)) (now : Except String UInt64) (nonce : FixedBytes 12)
  /-- A crash in a call of `append_block`, with a number of characters of the line written. -/
  | crash (ticks : List (CalendarTick A)) (ns : UInt64) (nonce : FixedBytes 12) (written : ℕ)
  /-- A new store on the file. -/
  | reopen

/-- The steps of a store. -/
inductive StoreStep : StoreState A → StoreEvent A → StoreState A → Prop
  /-- An append that returns `Ok`. -/
  | appended {store t : EncryptedStore} {acked : List (CalendarBlock A)}
      {ticks : List (CalendarTick A)} {ns : UInt64} {nonce : FixedBytes 12} {root : FixedBytes 32} :
      computeMerkleRoot P F ticks = .ok root →
      appendBlock P F key (.ok ns) nonce ticks store = .ok ⟨⟩ t →
      StoreStep ⟨store, true, acked⟩ (.append ticks (.ok ns) nonce)
        ⟨t, true, acked ++ [store.nextBlock ns ticks root]⟩
  /-- An append that fails. -/
  | refused {store t : EncryptedStore} {acked : List (CalendarBlock A)}
      {ticks : List (CalendarTick A)} {now : Except String UInt64} {nonce : FixedBytes 12}
      {e : Stop StoreError} :
      appendBlock P F key now nonce ticks store = .error e t →
      StoreStep ⟨store, true, acked⟩ (.append ticks now nonce) ⟨t, true, acked⟩
  /-- A crash before the file is open. -/
  | crashedEarly {store : EncryptedStore} {acked : List (CalendarBlock A)}
      {ticks : List (CalendarTick A)} {ns : UInt64} {nonce : FixedBytes 12} :
      StoreStep ⟨store, true, acked⟩ (.crash ticks ns nonce 0) ⟨store.takeId, false, acked⟩
  /-- A crash with the file open. -/
  | crashed {store : EncryptedStore} {acked : List (CalendarBlock A)}
      {ticks : List (CalendarTick A)} {ns : UInt64} {nonce : FixedBytes 12} {root : FixedBytes 32}
      {written : ℕ} :
      computeMerkleRoot P F ticks = .ok root →
      StoreStep ⟨store, true, acked⟩ (.crash ticks ns nonce written)
        ⟨store.takeId.write ((F.encodeLine key nonce (store.nextBlock ns ticks root) ++
          ['\n']).take written), false, acked⟩
  /-- A new store, with what it finds in the file. -/
  | reopened {store t : EncryptedStore} {running : Bool} {acked : List (CalendarBlock A)} :
      EncryptedStore.new F key store.file store.parentReady = .ok t →
      StoreStep ⟨store, running, acked⟩ .reopen ⟨t, true, acked⟩

/-- The file reads back, with every block whose append returned `Ok`, each once and in order, and
with ascending numbers. -/
def StoreState.Intact (st : StoreState A) : Prop :=
  ∃ blocks, F.readAll key st.store.file = .ok blocks ∧ st.acked.Sublist blocks ∧ blocks.Nodup ∧
    Ascending CalendarBlock.blockId blocks

/-- An append or a crash that writes something begins a line, and a crash writes the whole line or
nothing of it; the line feed after it may be missing. An append without a clock or a directory, or
of ticks without a root, writes nothing. -/
def StoreEvent.Clean (st : StoreState A) : StoreEvent A → Prop
  | append ticks now _ => ∀ ns root, now = .ok ns → computeMerkleRoot P F ticks = .ok root →
    st.store.parentReady = true → Terminated (st.store.file.getD [])
  | crash ticks ns nonce written => written = 0 ∨
    Terminated (st.store.file.getD []) ∧ ∀ root, computeMerkleRoot P F ticks = .ok root →
      (F.encodeLine key nonce (st.store.nextBlock ns ticks root)).length ≤ written
  | reopen => True

/-- A store on a file that does not exist yet. -/
def StoreState.start : StoreState A := ⟨fresh, true, []⟩

variable {P F key}

/-- What clean steps keep: the file reads back, and the store in memory is not behind it. -/
structure StoreState.Sound (F : StoreFormat A) (key : FixedBytes 32) (st : StoreState A)
    (blocks : List (CalendarBlock A)) : Prop where
  /-- The file reads back. -/
  readAll_eq : F.readAll key st.store.file = .ok blocks
  /-- Nothing that was acknowledged is missing. -/
  acked : st.acked.Sublist blocks
  /-- The numbers strictly increase. -/
  ascending : Ascending CalendarBlock.blockId blocks
  /-- The next number of a live store is above them. -/
  below : st.running = true → ∀ b ∈ blocks, b.blockId < st.store.nextBlockId

namespace StoreState.Sound

variable {store t : EncryptedStore} {acked blocks : List (CalendarBlock A)}

/-- What is sound is intact. -/
theorem intact {st : StoreState A} (h : st.Sound F key blocks) : st.Intact F key :=
  ⟨blocks, h.readAll_eq, h.acked, h.ascending.imp fun {_ _} hlt heq ↦ absurd (heq ▸ hlt)
    (Nat.lt_irrefl _), h.ascending⟩

/-- A text that ends up as one more line of the file. -/
theorem append_line (h : StoreState.Sound F key ⟨store, true, acked⟩ blocks)
    (hterm : Terminated (store.file.getD [])) {b : CalendarBlock A} {nonce : FixedBytes 12}
    {text : List Char} (hb : b.blockId = store.nextBlockId)
    (htext : textLines text = [F.encodeLine key nonce b]) :
    F.readAll key (store.takeId.write text).file = .ok (blocks ++ [b]) ∧
      Ascending CalendarBlock.blockId (blocks ++ [b]) ∧
      ∀ c ∈ blocks ++ [b], c.blockId < (store.takeId.write text).nextBlockId := by
  have hread : F.readAll key (some (store.file.getD [])) = .ok blocks := by
    rw [readAll_getD]
    exact h.readAll_eq
  have hbelow := h.below rfl
  refine ⟨readAll_append hterm hread htext, h.ascending.concat fun c hc ↦ ?_, fun c hc ↦ ?_⟩
  · rw [hb]
    exact hbelow c hc
  · show c.blockId < store.nextBlockId + 1
    obtain hc | hc := List.mem_append.1 hc
    · exact Nat.lt_succ_of_lt (hbelow c hc)
    · rw [List.mem_singleton.1 hc, hb]
      exact Nat.lt_succ_self _

/-- A store that lost nothing but a number. -/
theorem takeId {running : Bool} (h : StoreState.Sound F key ⟨store, true, acked⟩ blocks) :
    StoreState.Sound F key ⟨store.takeId, running, acked⟩ blocks :=
  ⟨h.readAll_eq, h.acked, h.ascending, fun _ b hb ↦ Nat.lt_succ_of_lt (h.below rfl b hb)⟩

/-- A clean step keeps a store sound. -/
theorem step {st st' : StoreState A} {event : StoreEvent A} (h : st.Sound F key blocks)
    (hclean : event.Clean P F key st) (hstep : StoreStep P F key st event st') :
    ∃ blocks', st'.Sound F key blocks' := by
  cases hstep with
  | @appended store t acked ticks ns nonce root hroot hrun =>
    obtain ⟨root', hroot', hready, rfl⟩ := exists_of_appendBlock hrun
    obtain rfl : root = root' := Except.ok.inj (hroot.symm.trans hroot')
    have hterm : Terminated (store.file.getD []) := hclean ns root rfl hroot hready
    obtain ⟨hread, hascending, hbelow⟩ := h.append_line hterm
      (b := store.nextBlock ns ticks root) rfl (F.word_encodeLine key nonce _).textLines_closed
    exact ⟨_, hread, h.acked.append (List.Sublist.refl _), hascending, fun _ ↦ hbelow⟩
  | refused hrun =>
    rw [eq_takeId_of_appendBlock hrun]
    exact ⟨blocks, h.takeId⟩
  | crashedEarly => exact ⟨blocks, h.takeId⟩
  | @crashed store acked ticks ns nonce root written hroot =>
    obtain rfl | ⟨hterm, hwhole⟩ := hclean
    · -- the file is open, and nothing is in it that was not there
      refine ⟨blocks, ?_, h.acked, h.ascending, fun hrunning ↦ absurd hrunning Bool.false_ne_true⟩
      show F.readAll key (some (store.file.getD [] ++ [])) = _
      rw [List.append_nil, readAll_getD]
      exact h.readAll_eq
    · obtain ⟨hread, hascending, -⟩ := h.append_line hterm
        (b := store.nextBlock ns ticks root) rfl
        ((F.word_encodeLine key nonce _).textLines_take (hwhole root hroot))
      exact ⟨_, hread, h.acked.trans (List.sublist_append_left _ _), hascending,
        fun hrunning ↦ absurd hrunning Bool.false_ne_true⟩
  | @reopened store t running acked hnew =>
    obtain ⟨n, hn, hlt⟩ := exists_computeNextBlockId h.readAll_eq
    have ht : t = ⟨n, store.file, store.parentReady⟩ := by
      rw [EncryptedStore.new, hn] at hnew
      exact (Result.pure_eq_ok.1 hnew).symm
    rw [ht]
    exact ⟨blocks, h.readAll_eq, h.acked, h.ascending, fun _ ↦ hlt⟩

theorem start : (start : StoreState A).Sound F key [] :=
  ⟨rfl, List.Sublist.refl _, .nil, fun _ _ hb ↦ absurd hb List.not_mem_nil⟩

end StoreState.Sound

/-- In a run whose every step is clean, the file reads back at every state reached: with each block
whose append returned `Ok`, once and in order, and with ascending numbers. -/
theorem storeRun_intact {events : List (StoreEvent A)} {st : StoreState A}
    (hrun : Run (Guarded (StoreStep P F key) fun st event ↦ event.Clean P F key st) .start
      events st) : st.Intact F key := by
  have hsound : ∃ blocks, st.Sound F key blocks := by
    refine hrun.invariant (I := fun st ↦ ∃ blocks, st.Sound F key blocks) ?_ ⟨[], .start⟩
    intro s event t hs hstep
    obtain ⟨blocks, h⟩ := hs
    exact h.step hstep.1 hstep.2
  obtain ⟨blocks, h⟩ := hsound
  exact h.intact

/-! ### A torn line -/

section Torn

/-- A sound file is opened again. -/
theorem StoreStep.exists_reopen {st : StoreState A} {blocks : List (CalendarBlock A)}
    (h : st.Sound F key blocks) : ∃ st', StoreStep P F key st .reopen st' := by
  obtain ⟨n, hn, -⟩ := exists_computeNextBlockId h.readAll_eq
  refine ⟨⟨⟨n, st.store.file, st.store.parentReady⟩, true, st.acked⟩, .reopened ?_⟩
  rw [EncryptedStore.new, hn]
  rfl

/-- A tick of nothing. -/
def blankTick : CalendarTick Unit := ⟨default, []⟩

/-- An append of one tick. -/
def oneAppend : StoreEvent Unit := .append [blankTick] (.ok 0) (.replicate 12 0)

/-- A crash in an append of one tick. -/
def oneCrash (written : ℕ) : StoreEvent Unit := .crash [blankTick] 0 (.replicate 12 0) written

/-- The state after an append of one tick to a new store. -/
def afterOneAppend (root : FixedBytes 32) : StoreState Unit where
  store := fresh.takeId.write (plainFormat.encodeLine (.replicate 32 0) (.replicate 12 0)
    (fresh.nextBlock 0 [blankTick] root) ++ ['\n'])
  running := true
  acked := [fresh.nextBlock 0 [blankTick] root]

theorem exists_oneAppend : ∃ root, computeMerkleRoot .transparent plainFormat [blankTick] =
      .ok root ∧
    StoreStep .transparent plainFormat (.replicate 32 0) .start oneAppend
      (afterOneAppend root) := by
  have hfits : [blankTick].length ≤ merkleMaxTreePadded := by
    show 1 ≤ 128
    decide
  obtain ⟨root, hroot⟩ :=
    exists_computeMerkleRoot (P := .transparent) (F := plainFormat) hfits
  exact ⟨root, hroot, .appended hroot (appendBlock_of_ok hroot rfl)⟩

theorem storeRun_intact_reopened : ∃ st, Run (Guarded (StoreStep .transparent plainFormat
    (.replicate 32 0)) fun st event ↦ event.Clean .transparent plainFormat (.replicate 32 0) st)
      .start [oneAppend, oneCrash 0, .reopen] st ∧
    st.Intact plainFormat (.replicate 32 0) := by
  obtain ⟨root, -, hfirst⟩ := exists_oneAppend
  have hclean : oneAppend.Clean .transparent plainFormat (.replicate 32 0) .start :=
    fun _ _ _ _ _ ↦ terminated_nil
  obtain ⟨blocks, hsound⟩ := StoreState.Sound.start.step hclean hfirst
  have hcrash : StoreStep .transparent plainFormat (.replicate 32 0) (afterOneAppend root)
      (oneCrash 0) ⟨(afterOneAppend root).store.takeId, false, (afterOneAppend root).acked⟩ :=
    .crashedEarly
  have hcrashed : StoreState.Sound plainFormat (.replicate 32 0)
      ⟨(afterOneAppend root).store.takeId, false, (afterOneAppend root).acked⟩ blocks :=
    hsound.takeId
  obtain ⟨st, hreopen⟩ := StoreStep.exists_reopen (P := .transparent) hcrashed
  have hrun : Run (Guarded (StoreStep .transparent plainFormat (.replicate 32 0))
      fun st event ↦ event.Clean .transparent plainFormat (.replicate 32 0) st) .start
      [oneAppend, oneCrash 0, .reopen] st :=
    .cons ⟨hclean, hfirst⟩ (.cons ⟨.inl rfl, hcrash⟩ (.cons ⟨trivial, hreopen⟩ (.nil _)))
  exact ⟨st, hrun, storeRun_intact hrun⟩

/-- The first character of a line in closed hexadecimal is no line of a block. -/
theorem exists_take_encodeLine (key : FixedBytes 32) (nonce : FixedBytes 12)
    (b : CalendarBlock Unit) :
    ∃ l, textLines ((plainFormat.encodeLine key nonce b ++ ['\n']).take 1) = [l] ∧
      ∀ b' : CalendarBlock Unit, plainFormat.decodeLine key l ≠ .ok b' := by
  obtain ⟨x, rest, hline⟩ := List.exists_cons_of_ne_nil
    (plainFormat.cborEncode_ne_nil
      (plainFormat.sealForSelf key nonce (plainFormat.blockJson b)))
  have hx := x.toNat_lt
  have hdigit : ∀ n < 16, hexDigit n ≠ '=' := by decide
  have hword : Word [hexDigit (x.toNat / 16)] := by
    refine ⟨List.cons_ne_nil _ _, fun c hc ↦ ?_⟩
    rw [List.mem_singleton.1 hc]
    exact isWhiteSpace_hexDigit _ (by omega)
  refine ⟨[hexDigit (x.toNat / 16)], ?_, fun b' hb' ↦ ?_⟩
  · rw [StoreFormat.encodeLine, hline]
    exact hword.textLines_eq
  · have hnone : readClosedHex [hexDigit (x.toNat / 16)] = none := by
      rw [readClosedHex, List.getLast?_singleton, if_neg]
      rw [Option.some_inj]
      exact hdigit _ (by omega)
    have herror : plainFormat.base64Decode [hexDigit (x.toNat / 16)] =
        .error "invalid base64" := by
      show (readClosedHex _).elim _ _ = _
      rw [hnone, Option.elim_none]
    rw [StoreFormat.decodeLine, herror] at hb'
    cases hb'

/-- A crash after one character of the second line: the first block, whose append returned `Ok`,
can no longer be read. -/
theorem storeRun_torn : ∃ st, Run (StoreStep .transparent plainFormat (.replicate 32 0)) .start
      [oneAppend, oneCrash 1] st ∧
    ¬st.Intact plainFormat (.replicate 32 0) := by
  obtain ⟨root, hroot, hfirst⟩ := exists_oneAppend
  have hcrash : StoreStep .transparent plainFormat (.replicate 32 0) (afterOneAppend root)
      (oneCrash 1) ⟨(afterOneAppend root).store.takeId.write
        ((plainFormat.encodeLine (.replicate 32 0) (.replicate 12 0)
          ((afterOneAppend root).store.nextBlock 0 [blankTick] root) ++ ['\n']).take 1), false,
        (afterOneAppend root).acked⟩ := .crashed hroot
  refine ⟨_, .cons hfirst (.cons hcrash (.nil _)), fun h ↦ ?_⟩
  obtain ⟨blocks, hread, -⟩ := h
  obtain ⟨l, htext, hl⟩ := exists_take_encodeLine (.replicate 32 0) (.replicate 12 0)
    ((afterOneAppend root).store.nextBlock 0 [blankTick] root)
  have hterm : Terminated ((afterOneAppend root).store.file.getD []) := terminated_write _ _
  rw [file_write, file_takeId] at hread
  have hline : l ∈ textLines ((afterOneAppend root).store.file.getD [] ++
      (plainFormat.encodeLine (.replicate 32 0) (.replicate 12 0)
        ((afterOneAppend root).store.nextBlock 0 [blankTick] root) ++ ['\n']).take 1) := by
    rw [hterm.textLines_append, htext]
    exact List.mem_append_right _ (List.mem_singleton_self _)
  obtain ⟨b, hb⟩ := exists_decodeLine hread hline
  exact hl b hb

end Torn

end Foretias

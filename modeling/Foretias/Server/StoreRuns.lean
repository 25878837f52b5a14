import Foretias.Server.EncryptedStore

/-!
# What the encrypted store keeps

`EncryptedStore.Keeps store blocks` says that a store holds a list of blocks: its file reads back
as them, their numbers ascend and are below the next one, and each root is the root of the ticks
beside it. An append either adds one block to that list (`Keeps.write`) or fails and leaves the
file alone (`Keeps.takeId`), and a migration adds the legacy ticks; `encryptedStore_roundTrip`
follows calls of both kinds.
-/

namespace Foretias

open ErrorState

variable {A : Type} {P : Primitives} {F : StoreFormat A} {key : FixedBytes 32}

/-! ### Reading -/

section Reading

variable {contents text : List Char} {blocks : List (CalendarBlock A)} {b : CalendarBlock A}
  {nonce : FixedBytes 12} {file : Option (List Char)}

/-- The blocks of a closed file, and the block of a line after them. -/
theorem readAll_append (hterm : Terminated contents)
    (hread : F.readAll key (some contents) = .ok blocks)
    (htext : textLines text = [F.encodeLine key nonce b]) :
    F.readAll key (some (contents ++ text)) = .ok (blocks ++ [b]) := by
  have hfirst : (textLines contents).mapM (F.decodeLine key) = .ok blocks := hread
  show (textLines (contents ++ text)).mapM (F.decodeLine key) = _
  rw [hterm.textLines_append, htext, List.mapM_append, hfirst, List.mapM_cons, List.mapM_nil,
    StoreFormat.decodeLine_encodeLine]
  rfl

/-- Every line of a file that reads back is the line of a block. -/
theorem exists_decodeLine (h : F.readAll key (some contents) = .ok blocks) {line : List Char}
    (hline : line ∈ textLines contents) : ∃ b, F.decodeLine key line = .ok b := by
  replace h : (textLines contents).mapM (F.decodeLine key) = .ok blocks := h
  generalize textLines contents = lines at hline h
  induction lines generalizing blocks with
  | nil => exact absurd hline List.not_mem_nil
  | cons l lines ih =>
    rw [List.mapM_cons] at h
    obtain ⟨b, hb, h⟩ := Result.bind_eq_ok.1 h
    obtain ⟨rest, hrest, -⟩ := Result.bind_eq_ok.1 h
    obtain rfl | hline := List.mem_cons.1 hline
    · exact ⟨b, hb⟩
    · exact ih hline hrest

/-- One turn of the loop of `compute_next_block_id`. -/
def nextAfter (maxId : ℕ) (b : CalendarBlock A) : ℕ :=
  if maxId ≤ b.blockId then b.blockId + 1 else maxId

/-- The next number is above that of the block. -/
theorem lt_nextAfter (maxId : ℕ) (b : CalendarBlock A) :
    maxId ≤ nextAfter maxId b ∧ b.blockId < nextAfter maxId b := by
  rw [nextAfter]
  by_cases h : maxId ≤ b.blockId
  · rw [if_pos h]
    exact ⟨Nat.le_succ_of_le h, Nat.lt_succ_self _⟩
  · rw [if_neg h]
    exact ⟨Nat.le_refl _, Nat.lt_of_not_le h⟩

/-- The number after some blocks is above all of theirs. -/
theorem le_foldl_nextAfter (maxId : ℕ) (blocks : List (CalendarBlock A)) :
    maxId ≤ blocks.foldl nextAfter maxId ∧
      ∀ b ∈ blocks, b.blockId < blocks.foldl nextAfter maxId := by
  induction blocks generalizing maxId with
  | nil => exact ⟨Nat.le_refl _, fun b hb ↦ absurd hb List.not_mem_nil⟩
  | cons c blocks ih =>
    obtain ⟨hle, hlt⟩ := ih (nextAfter maxId c)
    obtain ⟨hmax, hc⟩ := lt_nextAfter maxId c
    refine ⟨hmax.trans hle, fun b hb ↦ ?_⟩
    obtain rfl | hb := List.mem_cons.1 hb
    · exact hc.trans_le hle
    · exact hlt b hb

/-- The loop goes over the blocks that `read_all` returns. -/
theorem foldlM_eq_of_mapM {lines : List (List Char)} (maxId : ℕ)
    (h : lines.mapM (F.decodeLine key) = .ok blocks) :
    (lines.foldlM (fun maxId line ↦ do
      let block ← F.decodeLine key line
      pure (if maxId ≤ block.blockId then block.blockId + 1 else maxId)) maxId :
        Result StoreError ℕ) = .ok (blocks.foldl nextAfter maxId) := by
  induction lines generalizing maxId blocks with
  | nil =>
    obtain rfl := Result.pure_eq_ok.1 h
    rfl
  | cons line lines ih =>
    rw [List.mapM_cons] at h
    obtain ⟨c, hc, h⟩ := Result.bind_eq_ok.1 h
    obtain ⟨rest, hrest, h⟩ := Result.bind_eq_ok.1 h
    obtain rfl := Result.pure_eq_ok.1 h
    rw [List.foldlM_cons, hc]
    exact ih (nextAfter maxId c) hrest

/-- A file that reads back has a next number, above all that are in it. -/
theorem exists_computeNextBlockId (h : F.readAll key file = .ok blocks) :
    ∃ n, F.computeNextBlockId key file = .ok n ∧ ∀ b ∈ blocks, b.blockId < n := by
  cases file with
  | none =>
    obtain rfl := Result.pure_eq_ok.1 h
    exact ⟨0, rfl, fun b hb ↦ absurd hb List.not_mem_nil⟩
  | some contents =>
    exact ⟨_, foldlM_eq_of_mapM 0 h, (le_foldl_nextAfter 0 blocks).2⟩

end Reading

namespace EncryptedStore

variable {store : EncryptedStore} {blocks : List (CalendarBlock A)}
  {ticks : List (CalendarTick A)} {nonce : FixedBytes 12}

@[simp] theorem file_takeId : store.takeId.file = store.file := rfl

@[simp] theorem parentReady_takeId : store.takeId.parentReady = store.parentReady := rfl

@[simp] theorem nextBlockId_takeId : store.takeId.nextBlockId = store.nextBlockId + 1 := rfl

@[simp] theorem file_write {text : List Char} :
    (store.write text).file = some (store.file.getD [] ++ text) := rfl

@[simp] theorem nextBlockId_write {text : List Char} :
    (store.write text).nextBlockId = store.nextBlockId := rfl

@[simp] theorem parentReady_write {text : List Char} :
    (store.write text).parentReady = store.parentReady := rfl

/-- A line that is written is closed. -/
theorem terminated_write (store : EncryptedStore) (line : List Char) :
    Terminated ((store.write (line ++ ['\n'])).file.getD []) := by
  rw [file_write, Option.getD_some, ← List.append_assoc]
  exact terminated_append_lineFeed _

/-! ### One append -/

/-- An append takes a number, whatever happens then. -/
theorem appendBlock_eq (now : Except String UInt64) (store : EncryptedStore) :
    appendBlock P F key now nonce ticks store = (do
      let writtenAtNs ← ofResult (now.mapError fun e ↦ .err (.internal s!"clock error: {e}"))
      let merkleRoot ← ofResult (computeMerkleRoot P F ticks)
      require store.parentReady (.err .io)
      modify fun st ↦ st.write
        (F.encodeLine key nonce ⟨store.nextBlockId, writtenAtNs, ticks, merkleRoot⟩ ++ ['\n']) :
        EStateM (Stop StoreError) EncryptedStore PUnit) store.takeId := rfl

/-- An append with a clock, a root and a directory writes the line of its block. -/
theorem appendBlock_of_ok {ns : UInt64} {root : FixedBytes 32}
    (hroot : computeMerkleRoot P F ticks = .ok root) (hparent : store.parentReady = true) :
    appendBlock P F key (.ok ns) nonce ticks store = .ok ⟨⟩ (store.takeId.write
      (F.encodeLine key nonce (store.nextBlock ns ticks root) ++ ['\n'])) := by
  rw [appendBlock_eq, hroot]
  exact bind_of_ok (require_of_true hparent _ _)

/-- An append finds a directory and writes the line of one block, or it fails and leaves the file
alone. -/
theorem appendBlock_cases (P : Primitives) (F : StoreFormat A) (key : FixedBytes 32)
    (now : Except String UInt64) (nonce : FixedBytes 12) (ticks : List (CalendarTick A))
    (store : EncryptedStore) :
    (∃ ns root, now = .ok ns ∧ computeMerkleRoot P F ticks = .ok root ∧
      store.parentReady = true ∧
      appendBlock P F key now nonce ticks store = .ok ⟨⟩ (store.takeId.write
        (F.encodeLine key nonce (store.nextBlock ns ticks root) ++ ['\n']))) ∨
    ∃ e, appendBlock P F key now nonce ticks store = .error e store.takeId := by
  cases now with
  | error e => exact .inr ⟨_, rfl⟩
  | ok ns =>
    cases hroot : computeMerkleRoot P F ticks with
    | error e =>
      refine .inr ⟨e, ?_⟩
      rw [appendBlock_eq, hroot]
      rfl
    | ok root =>
      by_cases hparent : store.parentReady = true
      · exact .inl ⟨ns, root, rfl, rfl, hparent, appendBlock_of_ok hroot hparent⟩
      · refine .inr ⟨.err .io, ?_⟩
        rw [appendBlock_eq, hroot]
        show (require store.parentReady (Stop.err StoreError.io) >>= fun _ ↦ modify _)
          store.takeId = _
        rw [bind_apply, require_of_false hparent]

/-- What an append that returns `Ok` did. -/
theorem exists_of_appendBlock {t : EncryptedStore} {ns : UInt64}
    (h : appendBlock P F key (.ok ns) nonce ticks store = .ok ⟨⟩ t) :
    ∃ root, computeMerkleRoot P F ticks = .ok root ∧ store.parentReady = true ∧
      t = store.takeId.write
        (F.encodeLine key nonce (store.nextBlock ns ticks root) ++ ['\n']) := by
  obtain ⟨ns', root, hns, hroot, hready, hrun⟩ | ⟨e, hrun⟩ :=
    appendBlock_cases P F key (.ok ns) nonce ticks store
  · obtain rfl := Except.ok.inj hns
    rw [h, EStateM.Result.ok.injEq] at hrun
    exact ⟨root, hroot, hready, hrun.2⟩
  · rw [h] at hrun
    cases hrun

/-- A failed append leaves everything alone but the counter. -/
theorem eq_takeId_of_appendBlock {t : EncryptedStore} {now : Except String UInt64}
    {e : Stop StoreError} (h : appendBlock P F key now nonce ticks store = .error e t) :
    t = store.takeId := by
  obtain ⟨ns, root, -, -, -, hrun⟩ | ⟨e', hrun⟩ :=
    appendBlock_cases P F key now nonce ticks store
  · rw [h] at hrun
    cases hrun
  · rw [h, EStateM.Result.error.injEq] at hrun
    exact hrun.2

/-- An append of more than 128 ticks fails. -/
theorem appendBlock_of_lt {now : Except String UInt64}
    (hticks : merkleMaxTreePadded < ticks.length) :
    ∃ e, appendBlock P F key now nonce ticks store = .error e store.takeId := by
  obtain ⟨ns, root, -, hroot, -⟩ | h := appendBlock_cases P F key now nonce ticks store
  · rw [computeMerkleRoot_of_lt hticks] at hroot
    exact absurd hroot (Result.err_ne_ok _ _)
  · exact h

/-! ### Many appends -/

variable (P F key) in
/-- A store that holds a list of blocks. -/
structure Keeps (store : EncryptedStore) (blocks : List (CalendarBlock A)) : Prop where
  /-- The last line is closed. -/
  terminated : Terminated (store.file.getD [])
  /-- The file reads back as the blocks. -/
  readAll_eq : F.readAll key store.file = .ok blocks
  /-- The numbers strictly increase. -/
  ascending : Ascending CalendarBlock.blockId blocks
  /-- The next number is above them. -/
  below : ∀ b ∈ blocks, b.blockId < store.nextBlockId
  /-- Each root is the root of its ticks. -/
  roots : ∀ b ∈ blocks, computeMerkleRoot P F b.ticks = .ok b.merkleRoot

/-- A store of which nothing is left but the counter. -/
theorem Keeps.takeId (h : Keeps P F key store blocks) : Keeps P F key store.takeId blocks :=
  ⟨h.terminated, h.readAll_eq, h.ascending, fun b hb ↦ Nat.lt_succ_of_lt (h.below b hb), h.roots⟩

theorem readAll_getD (file : Option (List Char)) :
    F.readAll key (some (file.getD [])) = F.readAll key file := by
  cases file with
  | none =>
    show (textLines []).mapM (F.decodeLine key) = _
    rw [textLines_nil, List.mapM_nil]
    rfl
  | some contents => rfl

/-- A store that has written the line of a block holds it. -/
theorem Keeps.write (h : Keeps P F key store blocks) {ns : UInt64} {root : FixedBytes 32}
    (hroot : computeMerkleRoot P F ticks = .ok root) :
    Keeps P F key (store.takeId.write
        (F.encodeLine key nonce (store.nextBlock ns ticks root) ++ ['\n']))
      (blocks ++ [store.nextBlock ns ticks root]) where
  terminated := terminated_write _ _
  readAll_eq := by
    refine readAll_append h.terminated ?_ (F.word_encodeLine key nonce _).textLines_closed
    rw [file_takeId, readAll_getD]
    exact h.readAll_eq
  ascending := h.ascending.concat h.below
  below b hb := by
    show b.blockId < store.nextBlockId + 1
    obtain hb | hb := List.mem_append.1 hb
    · exact Nat.lt_succ_of_lt (h.below b hb)
    · rw [List.mem_singleton.1 hb]
      exact Nat.lt_succ_self _
  roots b hb := by
    obtain hb | hb := List.mem_append.1 hb
    · exact h.roots b hb
    · rw [List.mem_singleton.1 hb]
      exact hroot

/-- A store opened on a file that does not exist. -/
def fresh : EncryptedStore := ⟨0, none, true⟩

example : new F key none true = .ok fresh := rfl

/-- A new store holds nothing. -/
theorem keeps_fresh : Keeps P F key fresh [] where
  terminated := terminated_nil
  readAll_eq := rfl
  ascending := .nil
  below _ hb := absurd hb List.not_mem_nil
  roots _ hb := absurd hb List.not_mem_nil

end EncryptedStore

/-! ### The round trip -/

/-- A call on a store. -/
inductive StoreCall (A : Type)
  /-- `append_block`. -/
  | append (ticks : List (CalendarTick A))
  /-- `migrate_plaintext` of a legacy calendar with these ticks. -/
  | migrate (legacy : List (CalendarTick A))

/-- What a call finds: the clock's reading, and the nonce that it draws. -/
structure StoreInput where
  /-- The clock's reading. -/
  now : UInt64
  /-- The nonce. -/
  nonce : FixedBytes 12

namespace StoreCall

open EncryptedStore

variable (P F key) in
/-- The call on a store. -/
def run (input : StoreInput) : StoreCall A → EStateM (Stop StoreError) EncryptedStore PUnit
  | append ticks => appendBlock P F key (.ok input.now) input.nonce ticks
  | migrate legacy => do
    let _ ← migratePlaintext P F key (.ok input.now) input.nonce (.ok legacy)

variable (P F key) in
/-- Calls one after another: which of them succeed, and the store after them. -/
def runAll : List (StoreCall A × StoreInput) → EncryptedStore → List Bool × EncryptedStore
  | [], store => ([], store)
  | (call, input) :: calls, store =>
    match call.run P F key input store with
    | .ok _ t => (true :: (runAll calls t).1, (runAll calls t).2)
    | .error _ t => (false :: (runAll calls t).1, (runAll calls t).2)

/-- How a call ended and what blocks the file has of it: an append succeeds if its ticks are at
most 128, and is then one block of them; a migration is its ticks, in blocks. -/
def Kept (ok : Bool) (part : List (CalendarBlock A)) : StoreCall A → Prop
  | append ticks => (ok = true ↔ ticks.length ≤ merkleMaxTreePadded) ∧
    part.map CalendarBlock.ticks = if ok then [ticks] else []
  | migrate legacy => ok = true ∧ part.flatMap CalendarBlock.ticks = legacy

/-- A legacy calendar that one block can hold. -/
def Fits : StoreCall A → Prop
  | append _ => True
  | migrate legacy => legacy.length ≤ merkleMaxTreePadded

variable {store : EncryptedStore} {blocks : List (CalendarBlock A)} {call : StoreCall A}

/-- One call on a store that holds a list of blocks. -/
theorem exists_run (hparent : store.parentReady = true) (h : Keeps P F key store blocks)
    (hfits : call.Fits) (input : StoreInput) : ∃ ok part t, call.Kept ok part ∧
      t.parentReady = true ∧ Keeps P F key t (blocks ++ part) ∧
      ∀ calls, runAll P F key ((call, input) :: calls) store =
        (ok :: (runAll P F key calls t).1, (runAll P F key calls t).2) := by
  have hsucceeds : ∀ ticks : List (CalendarTick A), ticks.length ≤ merkleMaxTreePadded →
      ∃ b t, appendBlock P F key (.ok input.now) input.nonce ticks store = .ok ⟨⟩ t ∧
        b.ticks = ticks ∧ t.parentReady = true ∧ Keeps P F key t (blocks ++ [b]) := by
    intro ticks hticks
    obtain ⟨root, hroot⟩ := exists_computeMerkleRoot (P := P) (F := F) hticks
    exact ⟨_, _, appendBlock_of_ok hroot hparent, rfl, hparent, h.write hroot⟩
  cases call with
  | append ticks =>
    by_cases hticks : ticks.length ≤ merkleMaxTreePadded
    · obtain ⟨b, t, hrun, hb, ht, hkeeps⟩ := hsucceeds ticks hticks
      refine ⟨true, [b], t, ⟨iff_of_true rfl hticks, ?_⟩, ht, hkeeps, fun calls ↦ ?_⟩
      · rw [List.map_singleton, hb]
        rfl
      · rw [runAll, run, hrun]
    · have hfails : ∃ e, appendBlock P F key (.ok input.now) input.nonce ticks store =
          .error e store.takeId := appendBlock_of_lt (Nat.lt_of_not_le hticks)
      obtain ⟨e, hrun⟩ := hfails
      refine ⟨false, [], store.takeId, ⟨iff_of_false Bool.false_ne_true hticks, rfl⟩, hparent, ?_,
        fun calls ↦ ?_⟩
      · rw [List.append_nil]
        exact h.takeId
      · rw [runAll, run, hrun]
  | migrate legacy =>
    by_cases hnil : legacy = []
    · subst hnil
      refine ⟨true, [], store, ⟨rfl, rfl⟩, hparent, ?_, fun calls ↦ ?_⟩
      · rwa [List.append_nil]
      · rfl
    · obtain ⟨b, t, hrun, hb, ht, hkeeps⟩ := hsucceeds legacy hfits
      refine ⟨true, [b], t, ⟨rfl, ?_⟩, ht, hkeeps, fun calls ↦ ?_⟩
      · rw [List.flatMap_singleton, hb]
      · have hmigrate : (migrate legacy).run P F key input store = .ok ⟨⟩ t := by
          show (migratePlaintext P F key _ _ (.ok legacy) >>= fun _ ↦ pure PUnit.unit) store = _
          refine bind_of_ok (a := legacy.length) ?_
          show (if legacy = [] then pure 0 else appendBlock P F key _ _ legacy >>=
            fun _ ↦ pure legacy.length : EStateM (Stop StoreError) EncryptedStore ℕ) store = _
          rw [if_neg hnil]
          exact bind_of_ok hrun
        rw [runAll, hmigrate]

variable (key) in
/-- Calls on a store that holds a list of blocks. -/
theorem exists_runAll {calls : List (StoreCall A × StoreInput)}
    (hparent : store.parentReady = true) (h : Keeps P F key store blocks)
    (hfits : ∀ c ∈ calls, c.1.Fits) : ∃ parts : List (Bool × List (CalendarBlock A)),
      (runAll P F key calls store).1 = parts.map Prod.fst ∧
      List.Forall₂ (fun c part ↦ c.1.Kept part.1 part.2) calls parts ∧
      Keeps P F key (runAll P F key calls store).2 (blocks ++ parts.flatMap Prod.snd) := by
  induction calls generalizing store blocks with
  | nil =>
    refine ⟨[], rfl, .nil, ?_⟩
    rw [List.flatMap_nil, List.append_nil]
    exact h
  | cons c calls ih =>
    obtain ⟨ok, part, t, hkept, ht, hkeeps, hrun⟩ :=
      exists_run hparent h (hfits c List.mem_cons_self) c.2
    obtain ⟨parts, houtcomes, hparts, hend⟩ :=
      ih ht hkeeps fun c hc ↦ hfits c (List.mem_cons_of_mem _ hc)
    refine ⟨(ok, part) :: parts, ?_, .cons hkept hparts, ?_⟩
    · rw [hrun, houtcomes, List.map_cons]
    · rw [hrun, List.flatMap_cons, ← List.append_assoc]
      exact hend

/-- Whatever is appended to a new store, and whatever legacy calendars of at most 128 ticks are
migrated to it, in any order: every call ends as it should, the file reads back as the blocks of
the calls in order, with their ticks, their numbers ascend, and each root is the root of the ticks
beside it. -/
theorem encryptedStore_roundTrip {calls : List (StoreCall A × StoreInput)}
    (hfits : ∀ c ∈ calls, c.1.Fits) : ∃ parts : List (Bool × List (CalendarBlock A)),
      (runAll P F key calls fresh).1 = parts.map Prod.fst ∧
      List.Forall₂ (fun c part ↦ c.1.Kept part.1 part.2) calls parts ∧
      F.readAll key (runAll P F key calls fresh).2.file = .ok (parts.flatMap Prod.snd) ∧
      Ascending CalendarBlock.blockId (parts.flatMap Prod.snd) ∧
      ∀ b ∈ parts.flatMap Prod.snd, computeMerkleRoot P F b.ticks = .ok b.merkleRoot := by
  obtain ⟨parts, houtcomes, hparts, hkeeps⟩ :=
    exists_runAll (P := P) (F := F) key rfl keeps_fresh hfits
  rw [List.nil_append] at hkeeps
  exact ⟨parts, houtcomes, hparts, hkeeps.readAll_eq, hkeeps.ascending, hkeeps.roots⟩

/-! ### Appends only -/

/-- The calls of a list of appends. -/
def appendCalls (appends : List (List (CalendarTick A) × StoreInput)) :
    List (StoreCall A × StoreInput) :=
  appends.map fun a ↦ (.append a.1, a.2)

theorem fits_of_mem_appendCalls (appends : List (List (CalendarTick A) × StoreInput)) :
    ∀ c ∈ appendCalls appends, c.1.Fits := by
  intro c hc
  obtain ⟨a, -, rfl⟩ := List.mem_map.1 hc
  trivial

/-- The blocks of appends that all fit have the ticks of the appends. -/
theorem map_ticks_eq {appends : List (List (CalendarTick A) × StoreInput)}
    {parts : List (Bool × List (CalendarBlock A))}
    (hfits : ∀ a ∈ appends, a.1.length ≤ merkleMaxTreePadded)
    (h : List.Forall₂ (fun c part ↦ c.1.Kept part.1 part.2) (appendCalls appends) parts) :
    (parts.flatMap Prod.snd).map CalendarBlock.ticks = appends.map Prod.fst := by
  induction appends generalizing parts with
  | nil =>
    obtain rfl := List.forall₂_nil_left_iff.1 h
    rfl
  | cons a appends ih =>
    obtain ⟨⟨ok, part⟩, rest, hkept, hrest, rfl⟩ := List.forall₂_cons_left_iff.1 h
    obtain ⟨hok, hticks⟩ := hkept
    rw [if_pos (hok.2 (hfits a List.mem_cons_self))] at hticks
    rw [List.flatMap_cons, List.map_append, hticks,
      ih (fun b hb ↦ hfits b (List.mem_cons_of_mem _ hb)) hrest]
    rfl

variable (P F key) in
/-- A store that was built by appends that all fit. -/
theorem exists_keeps_appendCalls {appends : List (List (CalendarTick A) × StoreInput)}
    (hfits : ∀ a ∈ appends, a.1.length ≤ merkleMaxTreePadded) :
    ∃ blocks, Keeps P F key (runAll P F key (appendCalls appends) fresh).2 blocks ∧
      blocks.map CalendarBlock.ticks = appends.map Prod.fst := by
  obtain ⟨parts, -, hparts, hkeeps⟩ :=
    exists_runAll (P := P) (F := F) key rfl keeps_fresh (fits_of_mem_appendCalls appends)
  exact ⟨_, hkeeps, map_ticks_eq hfits hparts⟩

/-! ### Instances -/

/-- A call that finds the clock at zero. -/
def atZero (call : StoreCall Unit) : StoreCall Unit × StoreInput := (call, ⟨0, .replicate 12 0⟩)

theorem encryptedStore_roundTrip_two :
    ∃ parts : List (Bool × List (CalendarBlock Unit)),
      (runAll .transparent plainFormat (.replicate 32 0)
          [atZero (.append [⟨default, []⟩]), atZero (.migrate [⟨default, []⟩])] fresh).1 =
        parts.map Prod.fst ∧
      List.Forall₂ (fun c part ↦ c.1.Kept part.1 part.2)
        [atZero (.append [⟨default, []⟩]), atZero (.migrate [⟨default, []⟩])] parts ∧
      plainFormat.readAll (.replicate 32 0)
          (runAll .transparent plainFormat (.replicate 32 0)
            [atZero (.append [⟨default, []⟩]), atZero (.migrate [⟨default, []⟩])] fresh).2.file =
        .ok (parts.flatMap Prod.snd) ∧
      Ascending CalendarBlock.blockId (parts.flatMap Prod.snd) ∧
      ∀ b ∈ parts.flatMap Prod.snd,
        computeMerkleRoot .transparent plainFormat b.ticks = .ok b.merkleRoot := by
  refine encryptedStore_roundTrip fun c hc ↦ ?_
  obtain rfl | hc := List.mem_cons.1 hc
  · trivial
  · rw [List.mem_singleton.1 hc]
    show 1 ≤ 128
    decide

/-- A block of 129 ticks is not appended. -/
theorem appendBlock_oneTooMany : ¬∃ t, appendBlock .transparent plainFormat
    (.replicate 32 0) (.ok 0) (.replicate 12 0)
    (List.replicate 129 (⟨default, []⟩ : CalendarTick Unit)) fresh = .ok ⟨⟩ t := by
  have hlength : merkleMaxTreePadded <
      (List.replicate 129 (⟨default, []⟩ : CalendarTick Unit)).length := by
    rw [List.length_replicate]
    decide
  obtain ⟨e, he⟩ : ∃ e, appendBlock .transparent plainFormat (.replicate 32 0) (.ok 0)
      (.replicate 12 0) (List.replicate 129 (⟨default, []⟩ : CalendarTick Unit)) fresh =
        .error e fresh.takeId := appendBlock_of_lt hlength
  intro h
  obtain ⟨t, ht⟩ := h
  rw [he] at ht
  cases ht

end StoreCall

end Foretias

import Foretias.Server.StoreRuns

/-!
# The encrypted store across restarts of its server

Each `TimeFamilyServer` makes a crypto server of its own, from a seed that is drawn when it is
built, and seals its blocks under a key derived from that seed. So the lines of an earlier server
are still in the file and cannot be unsealed any more.

`serve` takes a path through servers that are built on it one after another. It ends with a file
that reads back exactly if no server but the newest has written to it
(`encryptedStore_restart_iff`).
-/

namespace Foretias

open EncryptedStore ErrorState StoreCall

variable {A : Type} (P : Primitives) (F : StoreFormat A)

/-! ### Servers -/

section Server

variable (hmac : Bytes → FixedBytes 32 → FixedBytes 32)

/-- `foretias_privkey_derive_seal_key`, over `crypto_auth_hmacsha256` of a message under a key:
HKDF-SHA256 with a salt of zeros. -/
def deriveSealKey (info : Bytes) (seed : FixedBytes 32) : FixedBytes 32 :=
  hmac (info ++ [0x01]) (hmac seed.toList (FixedBytes.replicate 32 0))

/-- The seal key of a `SoftwareCryptoServer` generated from a seed. -/
def sealKey (seed : FixedBytes 32) : FixedBytes 32 :=
  deriveSealKey hmac (asBytes "foretias-calendar-seal-v1") seed

/-- What the path is that servers are built on. -/
inductive ServerPath
  /-- A file that loads as a calendar. -/
  | calendarFile
  /-- A directory, or nothing yet, with what `calendar_store.jsonl` in it holds. -/
  | directory (blockFile : Option (List Char))

/-- The block file of a path; there is none beneath a file. -/
def ServerPath.blockFile : ServerPath → Option (List Char)
  | calendarFile => none
  | directory blockFile => blockFile

/-- The block file's directory can be created. -/
def ServerPath.isDirectory : ServerPath → Bool
  | calendarFile => false
  | directory _ => true

/-- The path, when a store leaves this in its block file. -/
def ServerPath.withFile : ServerPath → Option (List Char) → ServerPath
  | calendarFile, _ => calendarFile
  | directory _, file => directory file

/-- The two ways to build a server with a calendar store. -/
inductive ServerConstructor
  /-- `new_with_config` with this path as `persist_path`. -/
  | newWithConfig
  /-- `from_calendar` of this path. -/
  | fromCalendar

variable {hmac} in
/-- The calendar store of a new server. `from_calendar` loads its path twice, and the first load
deletes a `.tmp` file beside it, so that no directory is loaded. -/
def openStore (key : FixedBytes 32) (path : ServerPath) :
    ServerConstructor → Result StoreError EncryptedStore
  | .newWithConfig => EncryptedStore.new F key path.blockFile path.isDirectory
  | .fromCalendar =>
    match path with
    | .calendarFile => EncryptedStore.new F key none false
    | .directory _ => .err (.internal "calendar file not found")

/-- A server from its start to its stop. -/
structure ServerRun (A : Type) where
  /-- How it is built. -/
  how : ServerConstructor
  /-- The seed that its crypto server draws. -/
  seed : FixedBytes 32
  /-- The appends that are made to its store. -/
  appends : List (List (CalendarTick A) × StoreInput)

/-- The blocks of the appends that return `Ok`, each with the number that its call takes. -/
def appendedBlocks (key : FixedBytes 32) :
    List (List (CalendarTick A) × StoreInput) → EncryptedStore → List (CalendarBlock A)
  | [], _ => []
  | (ticks, input) :: appends, store =>
    match appendBlock P F key (.ok input.now) input.nonce ticks store,
      computeMerkleRoot P F ticks with
    | .ok _ t, .ok root => store.nextBlock input.now ticks root :: appendedBlocks key appends t
    -- without a root an append does not return `Ok`
    | .ok _ t, .error _ => appendedBlocks key appends t
    | .error _ t, _ => appendedBlocks key appends t

/-- A server on a path: the blocks that it appended, and the path it leaves. -/
def ServerRun.exec (run : ServerRun A) (path : ServerPath) :
    Result StoreError (List (CalendarBlock A) × ServerPath) := do
  let store ← openStore F (sealKey hmac run.seed) path run.how
  let (_, last) := runAll P F (sealKey hmac run.seed) (appendCalls run.appends) store
  pure (appendedBlocks P F (sealKey hmac run.seed) run.appends store, path.withFile last.file)

/-- Servers one after another on a path: all blocks appended, and the path they leave. -/
def serve : List (ServerRun A) → ServerPath →
    Result StoreError (List (CalendarBlock A) × ServerPath)
  | [], path => pure ([], path)
  | run :: runs, path => do
    let (blocks, next) ← run.exec P F hmac path
    let (rest, last) ← serve runs next
    pure (blocks ++ rest, last)

end Server

/-! ### Appends of one server -/

section Appends

variable {P F} {key : FixedBytes 32} {store : EncryptedStore}
  {appends : List (List (CalendarTick A) × StoreInput)}

/-- A line of a block that a key seals. -/
def SealedLine (F : StoreFormat A) (key : FixedBytes 32) (line : List Char) : Prop :=
  ∃ nonce b, line = F.encodeLine key nonce b

theorem SealedLine.word {line : List Char} (h : SealedLine F key line) : Word line := by
  obtain ⟨nonce, b, rfl⟩ := h
  exact F.word_encodeLine key nonce b

/-- The first of some appends writes the line of its block, or it fails and leaves the file alone,
for want of a directory or for having more than 128 ticks. -/
theorem runAll_cons_cases (P : Primitives) (F : StoreFormat A) (key : FixedBytes 32)
    (a : List (CalendarTick A) × StoreInput) (appends : List (List (CalendarTick A) × StoreInput))
    (store : EncryptedStore) :
    (∃ root t, computeMerkleRoot P F a.1 = .ok root ∧ store.parentReady = true ∧
      t = store.takeId.write
        (F.encodeLine key a.2.nonce (store.nextBlock a.2.now a.1 root) ++ ['\n']) ∧
      appendedBlocks P F key (a :: appends) store =
        store.nextBlock a.2.now a.1 root :: appendedBlocks P F key appends t ∧
      (runAll P F key (appendCalls (a :: appends)) store).2 =
        (runAll P F key (appendCalls appends) t).2) ∨
    (store.parentReady = true → merkleMaxTreePadded < a.1.length) ∧
      appendedBlocks P F key (a :: appends) store =
        appendedBlocks P F key appends store.takeId ∧
      (runAll P F key (appendCalls (a :: appends)) store).2 =
        (runAll P F key (appendCalls appends) store.takeId).2 := by
  obtain ⟨ns, root, hns, hroot, hready, happend⟩ | ⟨e, herror⟩ :=
    appendBlock_cases P F key (.ok a.2.now) a.2.nonce a.1 store
  · obtain rfl := Except.ok.inj hns
    refine .inl ⟨root, _, hroot, hready, rfl, ?_, ?_⟩
    · rw [appendedBlocks, happend, hroot]
    · rw [appendCalls, List.map_cons, runAll, run, happend]
      rfl
  · refine .inr ⟨fun hready ↦ Nat.lt_of_not_le fun hfits ↦ ?_, ?_, ?_⟩
    · obtain ⟨root, hroot⟩ := exists_computeMerkleRoot (P := P) (F := F) hfits
      rw [appendBlock_of_ok hroot hready] at herror
      cases herror
    · rw [appendedBlocks, herror]
    · rw [appendCalls, List.map_cons, runAll, run, herror]
      rfl

variable (P F key) in
/-- Appends that all fail leave the file alone. -/
theorem runAll_of_fails (hfails : store.parentReady = false ∨
    ∀ a ∈ appends, merkleMaxTreePadded < a.1.length) :
    appendedBlocks P F key appends store = [] ∧
      (runAll P F key (appendCalls appends) store).2.file = store.file := by
  induction appends generalizing store with
  | nil => exact ⟨rfl, rfl⟩
  | cons a appends ih =>
    obtain ⟨root, t, hroot, hready, -, -, -⟩ | ⟨-, hblocks, hrun⟩ :=
      runAll_cons_cases P F key a appends store
    · obtain hnot | hlong := hfails
      · exact absurd hready (hnot ▸ Bool.false_ne_true)
      · rw [computeMerkleRoot_of_lt (hlong a List.mem_cons_self)] at hroot
        cases hroot
    · rw [hblocks, hrun]
      exact ih (hfails.imp id fun h b hb ↦ h b (List.mem_cons_of_mem _ hb))

/-- A store that holds a list of blocks holds what is appended to it after them. -/
theorem EncryptedStore.Keeps.appended {blocks : List (CalendarBlock A)}
    (h : Keeps P F key store blocks)
    (appends : List (List (CalendarTick A) × StoreInput)) :
    Keeps P F key (runAll P F key (appendCalls appends) store).2
      (blocks ++ appendedBlocks P F key appends store) := by
  induction appends generalizing store blocks with
  | nil => rwa [appendedBlocks, List.append_nil]
  | cons a appends ih =>
    obtain ⟨root, t, hroot, -, rfl, hblocks, hrun⟩ | ⟨-, hblocks, hrun⟩ :=
      runAll_cons_cases P F key a appends store
    · have hwritten : Keeps P F key (store.takeId.write
          (F.encodeLine key a.2.nonce (store.nextBlock a.2.now a.1 root) ++ ['\n']))
          (blocks ++ [store.nextBlock a.2.now a.1 root]) := h.write hroot
      have hend := ih hwritten
      rw [List.append_assoc, List.singleton_append] at hend
      rw [hblocks, hrun]
      exact hend
    · rw [hblocks, hrun]
      exact ih h.takeId

variable (P F key store appends) in
/-- Appends add lines to a closed file, sealed under the key of their server; and they add one,
where a directory can be created, if one of them has at most 128 ticks. -/
theorem exists_lines_runAll (hterm : Terminated (store.file.getD [])) : ∃ lines,
    Terminated ((runAll P F key (appendCalls appends) store).2.file.getD []) ∧
    textLines ((runAll P F key (appendCalls appends) store).2.file.getD []) =
      textLines (store.file.getD []) ++ lines ∧
    (∀ l ∈ lines, SealedLine F key l) ∧
    (store.parentReady = true → (∃ a ∈ appends, a.1.length ≤ merkleMaxTreePadded) →
      lines ≠ []) := by
  induction appends generalizing store with
  | nil =>
    refine ⟨[], hterm, (List.append_nil _).symm, fun l hl ↦ absurd hl List.not_mem_nil,
      fun _ h ↦ ?_⟩
    obtain ⟨a, ha, -⟩ := h
    exact absurd ha List.not_mem_nil
  | cons a appends ih =>
    obtain ⟨root, t, -, -, rfl, -, hrun⟩ | ⟨hlong, -, hrun⟩ :=
      runAll_cons_cases P F key a appends store
    · have hline : SealedLine F key
          (F.encodeLine key a.2.nonce (store.nextBlock a.2.now a.1 root)) := ⟨_, _, rfl⟩
      generalize F.encodeLine key a.2.nonce (store.nextBlock a.2.now a.1 root) = line
        at hline hrun
      have htext : textLines ((store.takeId.write (line ++ ['\n'])).file.getD []) =
          textLines (store.file.getD []) ++ [line] := by
        rw [file_write, file_takeId, Option.getD_some, hterm.textLines_append,
          hline.word.textLines_closed]
      obtain ⟨lines, hlast, hlines, hsealed, -⟩ := ih _ (terminated_write store.takeId line)
      rw [hrun]
      refine ⟨line :: lines, hlast, ?_, fun l hl ↦ ?_, fun _ _ ↦ List.cons_ne_nil _ _⟩
      · rw [hlines, htext, List.append_assoc, List.singleton_append]
      · obtain rfl | hl := List.mem_cons.1 hl
        · exact hline
        · exact hsealed l hl
    · obtain ⟨lines, hlast, hlines, hsealed, hne⟩ := ih store.takeId hterm
      rw [hrun]
      refine ⟨lines, hlast, hlines, hsealed, fun hready h ↦ hne hready ?_⟩
      obtain ⟨b, hb, hfits⟩ := h
      obtain rfl | hb := List.mem_cons.1 hb
      · exact absurd hfits (hlong hready).not_ge
      · exact ⟨b, hb, hfits⟩

end Appends

/-! ### Servers one after another -/

section Serve

variable {P F} {hmac : Bytes → FixedBytes 32 → FixedBytes 32} {runs : List (ServerRun A)}
  {run : ServerRun A} {path next : ServerPath} {blocks : List (CalendarBlock A)}

@[simp] theorem ServerPath.withFile_blockFile (path : ServerPath) :
    path.withFile path.blockFile = path := by
  cases path with
  | calendarFile => rfl
  | directory file => rfl

/-- A new store stands on the block file of its path. -/
theorem openStore_eq_ok {key : FixedBytes 32} {how : ServerConstructor} {store : EncryptedStore}
    (h : openStore F key path how = .ok store) :
    store.file = path.blockFile ∧ store.parentReady = path.isDirectory := by
  have hnew : ∀ {file : Option (List Char)} {ready : Bool},
      EncryptedStore.new F key file ready = .ok store →
        store.file = file ∧ store.parentReady = ready := by
    intro file ready h
    rw [EncryptedStore.new] at h
    cases hid : F.computeNextBlockId key file with
    | ok n =>
      rw [hid] at h
      obtain rfl := Result.pure_eq_ok.1 h
      exact ⟨rfl, rfl⟩
    | error e =>
      rw [hid] at h
      cases e with
      | err e =>
        obtain rfl := Result.pure_eq_ok.1 h
        exact ⟨rfl, rfl⟩
      | panic => cases h
  cases how with
  | newWithConfig => exact hnew h
  | fromCalendar =>
    cases path with
    | calendarFile => exact hnew h
    | directory file => exact absurd h (Result.err_ne_ok _ _)

/-- What a server does to its path. -/
theorem ServerRun.exec_eq_ok (h : run.exec P F hmac path = .ok (blocks, next)) :
    ∃ store, openStore F (sealKey hmac run.seed) path run.how = .ok store ∧
      store.file = path.blockFile ∧ store.parentReady = path.isDirectory ∧
      blocks = appendedBlocks P F (sealKey hmac run.seed) run.appends store ∧
      next = path.withFile
        (runAll P F (sealKey hmac run.seed) (appendCalls run.appends) store).2.file := by
  obtain ⟨store, hopen, h⟩ := Result.bind_eq_ok.1 h
  obtain ⟨hfile, hready⟩ := openStore_eq_ok hopen
  obtain ⟨hblocks, hnext⟩ := Prod.mk.inj (Result.pure_eq_ok.1 h)
  exact ⟨store, hopen, hfile, hready, hblocks.symm, hnext.symm⟩

theorem serve_cons_eq_ok (h : serve P F hmac (run :: runs) path = .ok (blocks, next)) :
    ∃ first middle rest, run.exec P F hmac path = .ok (first, middle) ∧
      serve P F hmac runs middle = .ok (rest, next) ∧ blocks = first ++ rest := by
  obtain ⟨⟨first, middle⟩, hexec, h⟩ := Result.bind_eq_ok.1 h
  obtain ⟨⟨rest, last⟩, hserve, h⟩ := Result.bind_eq_ok.1 h
  obtain ⟨hblocks, rfl⟩ := Prod.mk.inj (Result.pure_eq_ok.1 h)
  exact ⟨first, middle, rest, hexec, hserve, hblocks.symm⟩

theorem serve_cons_of_ok {middle : ServerPath} {first rest : List (CalendarBlock A)}
    (hexec : run.exec P F hmac path = .ok (first, middle))
    (hserve : serve P F hmac runs middle = .ok (rest, next)) :
    serve P F hmac (run :: runs) path = .ok (first ++ rest, next) :=
  Result.bind_eq_ok.2 ⟨_, hexec, Result.bind_eq_ok.2 ⟨_, hserve, rfl⟩⟩

/-- The newest server runs on the path that the earlier ones leave. -/
theorem serve_append_eq_ok {newest : ServerRun A}
    (h : serve P F hmac (runs ++ [newest]) path = .ok (blocks, next)) :
    ∃ first middle last, serve P F hmac runs path = .ok (first, middle) ∧
      newest.exec P F hmac middle = .ok (last, next) ∧ blocks = first ++ last := by
  induction runs generalizing path blocks with
  | nil =>
    obtain ⟨first, middle, rest, hexec, hserve, rfl⟩ := serve_cons_eq_ok h
    obtain ⟨rfl, rfl⟩ := Prod.mk.inj (Result.pure_eq_ok.1 hserve)
    exact ⟨[], path, first, rfl, hexec, List.append_nil _⟩
  | cons run runs ih =>
    obtain ⟨first, middle, rest, hexec, hserve, rfl⟩ := serve_cons_eq_ok h
    obtain ⟨first', middle', last, hserve', hexec', rfl⟩ := ih hserve
    exact ⟨first ++ first', middle', last, serve_cons_of_ok hexec hserve', hexec',
      (List.append_assoc _ _ _).symm⟩

/-- Servers none of whose appends succeeds leave the path alone. -/
theorem serve_of_fails (hserve : serve P F hmac runs path = .ok (blocks, next))
    (hfails : path = .calendarFile ∨
      ∀ run ∈ runs, ∀ a ∈ run.appends, merkleMaxTreePadded < a.1.length) :
    blocks = [] ∧ next = path := by
  induction runs generalizing path blocks with
  | nil =>
    obtain ⟨rfl, rfl⟩ := Prod.mk.inj (Result.pure_eq_ok.1 hserve)
    exact ⟨rfl, rfl⟩
  | cons run runs ih =>
    obtain ⟨first, middle, rest, hexec, hserve, rfl⟩ := serve_cons_eq_ok hserve
    obtain ⟨store, -, hfile, hready, rfl, rfl⟩ := run.exec_eq_ok hexec
    have hrun : store.parentReady = false ∨
        ∀ a ∈ run.appends, merkleMaxTreePadded < a.1.length := by
      refine hfails.imp (fun h ↦ ?_) fun h ↦ h run List.mem_cons_self
      rw [hready, h]
      rfl
    obtain ⟨haccepted, hlast⟩ :=
      runAll_of_fails P F (sealKey hmac run.seed) hrun
    rw [hlast, hfile, path.withFile_blockFile] at hserve
    obtain ⟨rfl, rfl⟩ := ih hserve (hfails.imp id fun h r hr ↦ h r (List.mem_cons_of_mem _ hr))
    rw [haccepted]
    exact ⟨rfl, rfl⟩

/-- Each server that appends a block on a directory leaves a line there, and no later server
removes it. -/
theorem exists_lines_serve {file : Option (List Char)} (hterm : Terminated (file.getD []))
    (hserve : serve P F hmac runs (.directory file) = .ok (blocks, next)) :
    ∃ file' lines, next = .directory file' ∧ Terminated (file'.getD []) ∧
      textLines (file'.getD []) = textLines (file.getD []) ++ lines ∧
      ∀ run ∈ runs, (∃ a ∈ run.appends, a.1.length ≤ merkleMaxTreePadded) →
        ∃ l ∈ lines, SealedLine F (sealKey hmac run.seed) l := by
  induction runs generalizing file blocks with
  | nil =>
    obtain ⟨-, rfl⟩ := Prod.mk.inj (Result.pure_eq_ok.1 hserve)
    exact ⟨file, [], rfl, hterm, (List.append_nil _).symm, fun r hr ↦ absurd hr List.not_mem_nil⟩
  | cons run runs ih =>
    obtain ⟨first, middle, rest, hexec, hserve, rfl⟩ := serve_cons_eq_ok hserve
    obtain ⟨store, -, hfile, hready, -, rfl⟩ := run.exec_eq_ok hexec
    obtain ⟨lines, hterm', hlines, hsealed, hne⟩ :=
      exists_lines_runAll P F (sealKey hmac run.seed) store run.appends (by rwa [hfile])
    obtain ⟨file', lines', rfl, hterm'', hlines', hruns⟩ := ih hterm' hserve
    refine ⟨file', lines ++ lines', rfl, hterm'', ?_, fun r hr hfits ↦ ?_⟩
    · rw [hlines', hlines, hfile, List.append_assoc]
      rfl
    · obtain rfl | hr := List.mem_cons.1 hr
      · obtain ⟨l, hl⟩ := List.exists_mem_of_ne_nil _ (hne hready hfits)
        exact ⟨l, List.mem_append_left _ hl, hsealed l hl⟩
      · obtain ⟨l, hl, hkey⟩ := hruns r hr hfits
        exact ⟨l, List.mem_append_right _ hl, hkey⟩

end Serve

/-! ### Lines of other servers -/

section OtherKeys

variable {F} {key key' : FixedBytes 32} {nonce : FixedBytes 12}

/-- What was sealed under a key is not unsealed under another one. -/
def StoreFormat.SealExact (F : StoreFormat A) : Prop :=
  ∀ key key' nonce m, key ≠ key' → F.decrypt key' nonce (F.encrypt key nonce m) = none

/-- A line of a block is decoded as its ciphertext is decrypted. -/
theorem decodeLine_encodeLine_eq (b : CalendarBlock A) :
    F.decodeLine key' (F.encodeLine key nonce b) =
      (F.decrypt key' nonce (F.encrypt key nonce (F.blockJson b))).elim
        (Result.err (.crypto .badSignature)) fun data ↦
          (F.parseBlock data).mapError fun e ↦ .err (.serialization e) := by
  rw [StoreFormat.decodeLine, StoreFormat.encodeLine, F.base64Decode_base64Encode]
  show (F.cborDecode _).mapError _ >>= _ = _
  rw [F.cborDecode_cborEncode]
  show Result.mapErr _ (F.unsealForSelf key' _) >>= _ = _
  rw [StoreFormat.unsealForSelf, StoreFormat.sealForSelf, FixedBytes.ofBytes?_toList]
  cases h : F.decrypt key' nonce (F.encrypt key nonce (F.blockJson b)) with
  | none =>
    simp only [h]
    rfl
  | some data =>
    simp only [h]
    rfl

/-- The line of another key's block is an error. -/
theorem decodeLine_of_sealExact (hseal : F.SealExact) (hne : key ≠ key') {line : List Char}
    (hline : SealedLine F key line) :
    F.decodeLine key' line = Result.err (.crypto .badSignature) := by
  obtain ⟨nonce, b, rfl⟩ := hline
  rw [decodeLine_encodeLine_eq, hseal key key' nonce _ hne, Option.elim_none]

variable (key') in
/-- No line of a block makes a reader panic. -/
theorem decodeLine_ne_panic {line : List Char} (hline : SealedLine F key line) :
    F.decodeLine key' line ≠ .error .panic := by
  obtain ⟨nonce, b, rfl⟩ := hline
  rw [decodeLine_encodeLine_eq]
  cases F.decrypt key' nonce (F.encrypt key nonce (F.blockJson b)) with
  | none => exact fun h ↦ nomatch h
  | some data =>
    rw [Option.elim_some]
    cases F.parseBlock data with
    | ok b => exact fun h ↦ nomatch h
    | error e => exact fun h ↦ nomatch h

variable (key) in
/-- A store can be opened on lines of blocks, whatever keys they are sealed under. -/
theorem exists_new {file : Option (List Char)} (ready : Bool)
    (hsealed : ∀ l ∈ textLines (file.getD []), ∃ key', SealedLine F key' l) :
    ∃ store, EncryptedStore.new F key file ready = .ok store := by
  have hfold : ∀ (lines : List (List Char)) (maxId : ℕ),
      (∀ l ∈ lines, ∃ key', SealedLine F key' l) →
      (lines.foldlM (fun maxId line ↦ do
        let block ← F.decodeLine key line
        pure (if maxId ≤ block.blockId then block.blockId + 1 else maxId)) maxId :
          Result StoreError ℕ) ≠ .error .panic := by
    intro lines
    induction lines with
    | nil => exact fun _ _ h ↦ nomatch h
    | cons line lines ih =>
      intro maxId hsealed h
      obtain ⟨key', hline⟩ := hsealed line List.mem_cons_self
      have hne := decodeLine_ne_panic key hline
      rw [List.foldlM_cons] at h
      cases hdecode : F.decodeLine key line with
      | ok b =>
        rw [hdecode] at h
        exact ih (nextAfter maxId b) (fun l hl ↦ hsealed l (List.mem_cons_of_mem _ hl)) h
      | error e =>
        rw [hdecode] at h hne
        cases e with
        | err e => cases h
        | panic => exact hne rfl
  have hid : F.computeNextBlockId key file ≠ .error .panic := by
    cases file with
    | none => exact fun h ↦ nomatch h
    | some contents => exact hfold _ 0 hsealed
  rw [EncryptedStore.new]
  cases h : F.computeNextBlockId key file with
  | ok n => exact ⟨_, rfl⟩
  | error e =>
    cases e with
    | err e => exact ⟨_, rfl⟩
    | panic => exact absurd h hid

end OtherKeys

/-! ### The newest server -/

section Newest

variable {P F} {hmac : Bytes → FixedBytes 32 → FixedBytes 32} {earlier : List (ServerRun A)}
  {newest : ServerRun A} {path next : ServerPath} {blocks : List (CalendarBlock A)}

/-- `new_with_config` opens a server on every directory that only servers have written to. -/
theorem exists_serve {runs : List (ServerRun A)} {file : Option (List Char)}
    (hhow : ∀ run ∈ runs, run.how = .newWithConfig) (hterm : Terminated (file.getD []))
    (hsealed : ∀ l ∈ textLines (file.getD []), ∃ key, SealedLine F key l) :
    ∃ blocks next, serve P F hmac runs (.directory file) = .ok (blocks, next) := by
  induction runs generalizing file with
  | nil => exact ⟨[], _, rfl⟩
  | cons run runs ih =>
    obtain ⟨store, hstore⟩ :=
      exists_new (sealKey hmac run.seed) true hsealed
    have hopen : openStore F (sealKey hmac run.seed) (.directory file) run.how = .ok store := by
      rw [hhow run List.mem_cons_self]
      exact hstore
    obtain ⟨hfile, -⟩ := openStore_eq_ok hopen
    obtain ⟨lines, hterm', hlines, hkey, -⟩ :=
      exists_lines_runAll P F (sealKey hmac run.seed) store run.appends (by rwa [hfile])
    obtain ⟨rest, next, hserve⟩ :=
      ih (fun r hr ↦ hhow r (List.mem_cons_of_mem _ hr)) hterm' fun l hl ↦ by
        rw [hlines] at hl
        obtain hl | hl := List.mem_append.1 hl
        · rw [hfile] at hl
          exact hsealed l hl
        · exact ⟨_, hkey l hl⟩
    have hexec : run.exec P F hmac (.directory file) =
        .ok (appendedBlocks P F (sealKey hmac run.seed) run.appends store,
          .directory
            (runAll P F (sealKey hmac run.seed) (appendCalls run.appends) store).2.file) := by
      rw [ServerRun.exec, hopen]
      rfl
    exact ⟨_, next, serve_cons_of_ok hexec hserve⟩

/-- No server reads a directory on which a server with another seal key has appended a block. -/
theorem not_exists_readAll {run : ServerRun A} {file : Option (List Char)} (hseal : F.SealExact)
    (hserve : serve P F hmac (earlier ++ [newest]) (.directory file) = .ok (blocks, next))
    (hterm : Terminated (file.getD [])) (hrun : run ∈ earlier)
    (hkey : sealKey hmac run.seed ≠ sealKey hmac newest.seed)
    (hfits : ∃ a ∈ run.appends, a.1.length ≤ merkleMaxTreePadded) :
    ¬∃ blocks, F.readAll (sealKey hmac newest.seed) next.blockFile = .ok blocks := by
  intro h
  obtain ⟨blocks, hread⟩ := h
  obtain ⟨file', lines, rfl, -, hlines, hruns⟩ := exists_lines_serve hterm hserve
  obtain ⟨l, hl, hsealed⟩ := hruns run (List.mem_append_left _ hrun) hfits
  have htext : l ∈ textLines (file'.getD []) := by
    rw [hlines]
    exact List.mem_append_right _ hl
  obtain ⟨b, hb⟩ := exists_decodeLine ((readAll_getD file').trans hread) htext
  rw [decodeLine_of_sealExact hseal hkey hsealed] at hb
  exact Result.err_ne_ok _ _ hb

/-- A server on a path without a block file reads back what it has appended. -/
theorem readAll_of_exec (hexec : newest.exec P F hmac path = .ok (blocks, next))
    (hnone : path.blockFile = none) :
    F.readAll (sealKey hmac newest.seed) next.blockFile = .ok blocks ∧
      (blocks.map CalendarBlock.blockId).Nodup := by
  obtain ⟨store, hopen, hfile, hready, rfl, rfl⟩ := newest.exec_eq_ok hexec
  cases path with
  | calendarFile =>
    have hfails : store.parentReady = false ∨
        ∀ a ∈ newest.appends, merkleMaxTreePadded < a.1.length := .inl hready
    obtain ⟨happended, -⟩ := runAll_of_fails P F (sealKey hmac newest.seed) hfails
    rw [happended]
    exact ⟨rfl, .nil⟩
  | directory file =>
    obtain rfl : file = none := hnone
    have hkeeps : Keeps P F (sealKey hmac newest.seed) store [] := by
      refine ⟨?_, ?_, .nil, fun b hb ↦ absurd hb List.not_mem_nil,
        fun b hb ↦ absurd hb List.not_mem_nil⟩
      · rw [hfile]
        exact terminated_nil
      · rw [hfile]
        rfl
    have hend := hkeeps.appended newest.appends
    rw [List.nil_append] at hend
    exact ⟨hend.readAll_eq, hend.ascending.nodup_map⟩

/-- The newest of the servers on a path reads back all blocks of all of them, in order and with
numbers that are pairwise distinct, exactly if no earlier one has appended a block: the path is a
calendar's file, beneath which nothing can be written, or every append of an earlier server had
more than 128 ticks. -/
theorem encryptedStore_restart_iff (hseal : F.SealExact)
    (hseeds : ((earlier ++ [newest]).map ServerRun.seed).Nodup)
    (hkeys : ∀ run ∈ earlier,
      sealKey hmac run.seed = sealKey hmac newest.seed → run.seed = newest.seed)
    (hnone : path.blockFile = none)
    (hserve : serve P F hmac (earlier ++ [newest]) path = .ok (blocks, next)) :
    (F.readAll (sealKey hmac newest.seed) next.blockFile = .ok blocks ∧
      (blocks.map CalendarBlock.blockId).Nodup) ↔
    path = .calendarFile ∨
      ∀ run ∈ earlier, ∀ a ∈ run.appends, merkleMaxTreePadded < a.1.length := by
  constructor
  · intro h
    obtain ⟨hread, -⟩ := h
    cases path with
    | calendarFile => exact .inl rfl
    | directory file =>
      obtain rfl : file = none := hnone
      refine .inr fun run hrun a ha ↦ Nat.lt_of_not_le fun hfits ↦ ?_
      have hne : run.seed ≠ newest.seed := by
        rw [List.map_append, List.nodup_append] at hseeds
        exact hseeds.2.2 _ (List.mem_map_of_mem hrun) _ (List.mem_singleton_self _)
      exact not_exists_readAll hseal hserve terminated_nil hrun
        (fun hkey ↦ hne (hkeys run hrun hkey)) ⟨a, ha, hfits⟩ ⟨blocks, hread⟩
  · intro hfails
    obtain ⟨first, middle, last, hfirst, hexec, rfl⟩ := serve_append_eq_ok hserve
    obtain ⟨rfl, rfl⟩ := serve_of_fails hfirst hfails
    exact readAll_of_exec hexec hnone

/-- A stand-in for HMAC, under which the seal key of a seed is the seed. -/
def plainHmac (message : Bytes) (key : FixedBytes 32) : FixedBytes 32 :=
  (FixedBytes.ofBytes? 32 message).getD key

theorem sealKey_plainHmac (seed : FixedBytes 32) : sealKey plainHmac seed = seed := by
  have hinfo : FixedBytes.ofBytes? 32 (asBytes "foretias-calendar-seal-v1" ++ [0x01]) = none := by
    decide
  rw [sealKey, deriveSealKey, plainHmac, plainHmac, hinfo, FixedBytes.ofBytes?_toList]
  rfl

theorem sealExact_plainFormat : plainFormat.SealExact := by
  intro key key' nonce m hne
  show (if (key.toList ++ m).take 32 = key'.toList then some _ else none) = none
  rw [List.take_left' key.length_toList, if_neg]
  exact fun h ↦ hne (FixedBytes.toList_injective h)

/-- A server on a directory that appends one block. -/
def oneBlockRun (seed : UInt8) : ServerRun Unit :=
  ⟨.newWithConfig, .replicate 32 seed, [([⟨default, []⟩], ⟨0, .replicate 12 0⟩)]⟩

theorem exists_serve_oneBlockRuns : ∃ blocks next,
    serve .transparent plainFormat plainHmac ([oneBlockRun 0] ++ [oneBlockRun 1])
      (.directory none) = .ok (blocks, next) := by
  refine exists_serve (fun run hrun ↦ ?_) terminated_nil fun l hl ↦ ?_
  · obtain rfl | hrun := List.mem_cons.1 hrun
    · rfl
    · rw [List.mem_singleton.1 hrun]
      rfl
  · rw [Option.getD_none, textLines_nil] at hl
    exact absurd hl List.not_mem_nil

theorem encryptedStore_restart_iff_two : ∃ blocks next,
    serve .transparent plainFormat plainHmac ([oneBlockRun 0] ++ [oneBlockRun 1])
      (.directory none) = .ok (blocks, next) ∧
    ((plainFormat.readAll (sealKey plainHmac (oneBlockRun 1).seed) next.blockFile = .ok blocks ∧
        (blocks.map CalendarBlock.blockId).Nodup) ↔
      ServerPath.directory none = .calendarFile ∨ ∀ run ∈ [oneBlockRun 0],
        ∀ a ∈ run.appends, merkleMaxTreePadded < a.1.length) := by
  obtain ⟨blocks, next, hserve⟩ := exists_serve_oneBlockRuns
  have hseeds : (([oneBlockRun 0] ++ [oneBlockRun 1]).map ServerRun.seed).Nodup := by decide
  have hkeys : ∀ run ∈ [oneBlockRun 0], sealKey plainHmac run.seed =
      sealKey plainHmac (oneBlockRun 1).seed → run.seed = (oneBlockRun 1).seed := by
    intro run _ hkey
    rwa [sealKey_plainHmac, sealKey_plainHmac] at hkey
  exact ⟨blocks, next, hserve,
    encryptedStore_restart_iff sealExact_plainFormat hseeds hkeys rfl hserve⟩

/-- Two servers on a directory, each of which appends a block: the second one reads nothing. -/
theorem encryptedStore_lostAtRestart : ∃ blocks next,
    serve .transparent plainFormat plainHmac ([oneBlockRun 0] ++ [oneBlockRun 1])
      (.directory none) = .ok (blocks, next) ∧
    ¬∃ blocks, plainFormat.readAll (sealKey plainHmac (oneBlockRun 1).seed) next.blockFile =
      .ok blocks := by
  obtain ⟨blocks, next, hserve⟩ := exists_serve_oneBlockRuns
  have hne : sealKey plainHmac (oneBlockRun 0).seed ≠ sealKey plainHmac (oneBlockRun 1).seed := by
    rw [sealKey_plainHmac, sealKey_plainHmac]
    decide
  have hfits : ∃ a ∈ (oneBlockRun 0).appends, a.1.length ≤ merkleMaxTreePadded :=
    ⟨_, List.mem_singleton_self _, show 1 ≤ 128 by decide⟩
  exact ⟨blocks, next, hserve, not_exists_readAll sealExact_plainFormat hserve terminated_nil
    (List.mem_singleton_self _) hne hfits⟩

end Newest

end Foretias

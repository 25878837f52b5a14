import Foretias.C11.MerkleProofs
import Foretias.Core.CalendarFile
import Foretias.Library.AscendingList
import Foretias.Library.ErrorState
import Foretias.Library.TextLines

/-!
# The encrypted block store

An append-only file of calendar blocks, one line for each: the block as JSON, sealed under a key of
the node, as CBOR, as base64. `decodeLine` inverts `encodeLine`, so the lines that the store wrote
read back as the blocks that they were written for (`readAll_append`).

JSON, CBOR, base64 and ChaCha20-Poly1305 are the fields of a `StoreFormat`, and so is that each of
them inverts its own encoding. Block numbers are natural numbers: no file has 2 ^ 64 lines.
-/

namespace Foretias

open ErrorState

/-- A single block stored in the encrypted JSONL file. -/
structure CalendarBlock (A : Type) where
  /-- Monotonically increasing block identifier. -/
  blockId : ℕ
  /-- Wall-clock nanoseconds when the block was written. -/
  writtenAtNs : UInt64
  /-- Tick records contained in this block. -/
  ticks : List (CalendarTick A)
  /-- Merkle root over the tick records in this block. -/
  merkleRoot : FixedBytes 32
  deriving DecidableEq

/-- What `seal_for_self` returns. -/
structure SealedBlob where
  /-- The ciphertext with its tag. -/
  ciphertext : Bytes
  /-- The nonce; any length when it comes from a file. -/
  nonce : Bytes
  deriving DecidableEq

/-- The variants of `NodeError` that the store raises. -/
inductive StoreError
  /-- A cryptographic operation failed. -/
  | crypto (e : CryptoError)
  /-- An internal error with a descriptive message. -/
  | internal (message : String)
  /-- An I/O operation failed. -/
  | io
  /-- JSON deserialization failed. -/
  | serialization (message : String)
  deriving DecidableEq

/-- The libraries that the store writes and reads its lines with. Errors carry their text. -/
structure StoreFormat (A : Type) where
  /-- `serde_json::to_vec` of a tick. -/
  tickJson : CalendarTick A → Bytes
  /-- `serde_json::to_vec` of a block. -/
  blockJson : CalendarBlock A → Bytes
  /-- `serde_json::from_slice` to a block. -/
  parseBlock : Bytes → Except String (CalendarBlock A)
  /-- `serde_cbor::to_vec`. -/
  cborEncode : SealedBlob → Bytes
  /-- `serde_cbor::from_slice`. -/
  cborDecode : Bytes → Except String SealedBlob
  /-- `STANDARD.encode`. -/
  base64Encode : Bytes → List Char
  /-- `STANDARD.decode`. -/
  base64Decode : List Char → Except String Bytes
  /-- ChaCha20-Poly1305 encryption under a key and a nonce. -/
  encrypt : FixedBytes 32 → FixedBytes 12 → Bytes → Bytes
  /-- ChaCha20-Poly1305 decryption. -/
  decrypt : FixedBytes 32 → FixedBytes 12 → Bytes → Option Bytes
  /-- JSON inverts its own encoding. -/
  parseBlock_blockJson : ∀ b, parseBlock (blockJson b) = .ok b
  /-- CBOR inverts its own encoding. -/
  cborDecode_cborEncode : ∀ s, cborDecode (cborEncode s) = .ok s
  /-- Base64 inverts its own encoding. -/
  base64Decode_base64Encode : ∀ bs, base64Decode (base64Encode bs) = .ok bs
  /-- What was sealed under a key is unsealed under it. -/
  decrypt_encrypt : ∀ key nonce m, decrypt key nonce (encrypt key nonce m) = some m
  /-- No blob is encoded as nothing. -/
  cborEncode_ne_nil : ∀ s, cborEncode s ≠ []
  /-- The base64 alphabet has no white space. -/
  word_base64Encode : ∀ bs, bs ≠ [] → Word (base64Encode bs)

namespace StoreFormat

variable {A : Type} (F : StoreFormat A) (key : FixedBytes 32)

/-- `seal_for_self`, with the nonce that was drawn. -/
def sealForSelf (nonce : FixedBytes 12) (data : Bytes) : SealedBlob :=
  ⟨F.encrypt key nonce data, nonce.toList⟩

/-- `unseal_for_self`: a nonce of another length panics. -/
def unsealForSelf (blob : SealedBlob) : Result CryptoError Bytes :=
  match FixedBytes.ofBytes? 12 blob.nonce with
  | none => .error .panic
  | some nonce =>
    match F.decrypt key nonce blob.ciphertext with
    | some data => pure data
    | none => .err .badSignature

@[simp] theorem unsealForSelf_sealForSelf (nonce : FixedBytes 12) (data : Bytes) :
    F.unsealForSelf key (F.sealForSelf key nonce data) = .ok data := by
  rw [unsealForSelf, sealForSelf, FixedBytes.ofBytes?_toList]
  simp only [F.decrypt_encrypt]
  rfl

/-- The line of a block. -/
def encodeLine (nonce : FixedBytes 12) (block : CalendarBlock A) : List Char :=
  F.base64Encode (F.cborEncode (F.sealForSelf key nonce (F.blockJson block)))

/-- The block of a line, as `read_all` decodes it. -/
def decodeLine (line : List Char) : Result StoreError (CalendarBlock A) := do
  let cborBytes ← (F.base64Decode line).mapError fun e ↦
    .err (.internal s!"base64 decode error: {e}")
  let blob ← (F.cborDecode cborBytes).mapError fun e ↦
    .err (.internal s!"CBOR decode error: {e}")
  let jsonBytes ← (F.unsealForSelf key blob).mapErr .crypto
  (F.parseBlock jsonBytes).mapError fun e ↦ .err (.serialization e)

@[simp] theorem decodeLine_encodeLine (nonce : FixedBytes 12) (block : CalendarBlock A) :
    F.decodeLine key (F.encodeLine key nonce block) = .ok block := by
  rw [decodeLine, encodeLine, F.base64Decode_base64Encode]
  show (F.cborDecode _).mapError _ >>= _ = _
  rw [F.cborDecode_cborEncode]
  show Result.mapErr _ (F.unsealForSelf key _) >>= _ = _
  rw [unsealForSelf_sealForSelf]
  show (F.parseBlock _).mapError _ = _
  rw [F.parseBlock_blockJson]
  rfl

theorem word_encodeLine (nonce : FixedBytes 12) (block : CalendarBlock A) :
    Word (F.encodeLine key nonce block) :=
  F.word_base64Encode _ (F.cborEncode_ne_nil _)

/-- `read_all`. -/
def readAll : Option (List Char) → Result StoreError (List (CalendarBlock A))
  | none => pure []
  | some contents => (textLines contents).mapM (F.decodeLine key)

/-- `compute_next_block_id`, with the reason where it finds none. -/
def computeNextBlockId : Option (List Char) → Result StoreError ℕ
  | none => pure 0
  | some contents =>
    (textLines contents).foldlM (fun maxId line ↦ do
      let block ← F.decodeLine key line
      pure (if maxId ≤ block.blockId then block.blockId + 1 else maxId)) 0

end StoreFormat

/-! ### Merkle roots of blocks -/

section MerkleRoot

variable {A : Type} (P : Primitives) (F : StoreFormat A)

/-- `merkle_leaf`: SHA-256 of a zero byte and the data. -/
def merkleLeaf (data : Bytes) : ForetiasHash32 := P.sha256 (0x00 :: data)

/-- `merkle_root_from_leaves` of a list that is not empty; the C function then fails with
`FORETIAS_ERR_BAD_INPUT` only. -/
def merkleRootFromLeaves (leaves : List ForetiasHash32) : Result CryptoError ForetiasHash32 :=
  match foretiasMerkleRootFromLeaves P leaves with
  | .ok root => pure root
  | .error _ => .err (.badInput "invalid input")

/-- The leaves of a block's Merkle tree. -/
def tickLeaves (ticks : List (CalendarTick A)) : List ForetiasHash32 :=
  ticks.map fun t ↦ merkleLeaf P (F.tickJson t)

/-- `compute_merkle_root`. -/
def computeMerkleRoot (ticks : List (CalendarTick A)) : Result StoreError (FixedBytes 32) :=
  if ticks = [] then pure (FixedBytes.replicate 32 0)
  else (merkleRootFromLeaves P (tickLeaves P F ticks)).mapErr .crypto

variable {P F} {ticks : List (CalendarTick A)}

@[simp] theorem length_tickLeaves : (tickLeaves P F ticks).length = ticks.length :=
  List.length_map _

theorem merkleRootFromLeaves_eq_ok {leaves : List ForetiasHash32} {root : ForetiasHash32} :
    merkleRootFromLeaves P leaves = .ok root ↔
      foretiasMerkleRootFromLeaves P leaves = .ok root := by
  rw [merkleRootFromLeaves]
  cases foretiasMerkleRootFromLeaves P leaves with
  | ok r =>
    show (pure r : Result CryptoError ForetiasHash32) = .ok root ↔ _
    rw [Result.pure_eq_ok, Except.ok.injEq]
  | error e => exact iff_of_false (Result.err_ne_ok _ _) fun h ↦ nomatch h

/-- At most 128 ticks have a root. -/
theorem exists_computeMerkleRoot (h : ticks.length ≤ merkleMaxTreePadded) :
    ∃ root, computeMerkleRoot P F ticks = .ok root := by
  rw [computeMerkleRoot]
  by_cases hnil : ticks = []
  · rw [if_pos hnil]
    exact ⟨_, rfl⟩
  · have hpos : 1 ≤ (tickLeaves P F ticks).length := by
      rw [length_tickLeaves]
      exact List.length_pos_of_ne_nil hnil
    obtain ⟨d, -, -, -, hroot⟩ := exists_rootFromLeaves (P := P) hpos (by rwa [length_tickLeaves])
    rw [if_neg hnil]
    exact ⟨_, Result.mapErr_eq_ok.2 (merkleRootFromLeaves_eq_ok.2 hroot)⟩

/-- More than 128 ticks have none. -/
theorem computeMerkleRoot_of_lt (h : merkleMaxTreePadded < ticks.length) :
    computeMerkleRoot P F ticks = .err (.crypto (.badInput "invalid input")) := by
  have hne : ticks ≠ [] := List.ne_nil_of_length_pos (Nat.zero_lt_of_lt h)
  have hpos : 1 ≤ ticks.length := List.length_pos_of_ne_nil hne
  obtain ⟨d, hpadded, hle, -⟩ := exists_merkleNextPow2_eq hpos
  rw [computeMerkleRoot, if_neg hne, merkleRootFromLeaves, foretiasMerkleRootFromLeaves,
    length_tickLeaves, if_neg (Nat.ne_of_gt hpos)]
  simp only [hpadded]
  rw [if_pos (h.trans_le hle)]
  rfl

end MerkleRoot

/-! ### The store -/

/-- `EncryptedJsonlCalendarStore`, with the file that it is backed by. -/
structure EncryptedStore where
  /-- `next_block_id`. -/
  nextBlockId : ℕ
  /-- The file, where it exists. -/
  file : Option (List Char)
  /-- `create_dir_all` of the file's directory succeeds. -/
  parentReady : Bool

namespace EncryptedStore

variable {A : Type} (P : Primitives) (F : StoreFormat A) (key : FixedBytes 32)

/-- `EncryptedJsonlCalendarStore::new`: where no block number can be computed, the next one
is 0. -/
def new (file : Option (List Char)) (parentReady : Bool) : Result StoreError EncryptedStore :=
  match F.computeNextBlockId key file with
  | .ok n => pure ⟨n, file, parentReady⟩
  | .error (.err _) => pure ⟨0, file, parentReady⟩
  | .error .panic => .error .panic

/-- `next_block_id.fetch_add(1)`. -/
def takeId (store : EncryptedStore) : EncryptedStore :=
  { store with nextBlockId := store.nextBlockId + 1 }

/-- The file with text written to its end. -/
def write (store : EncryptedStore) (text : List Char) : EncryptedStore :=
  { store with file := some (store.file.getD [] ++ text) }

/-- The block that an append of ticks with a root makes. -/
def nextBlock (store : EncryptedStore) (ns : UInt64) (ticks : List (CalendarTick A))
    (root : FixedBytes 32) : CalendarBlock A :=
  ⟨store.nextBlockId, ns, ticks, root⟩

/-- `append_block`, with the clock's reading and the nonce that is drawn. -/
def appendBlock (now : Except String UInt64) (nonce : FixedBytes 12)
    (ticks : List (CalendarTick A)) : EStateM (Stop StoreError) EncryptedStore PUnit := do
  let store ← get
  set store.takeId
  let writtenAtNs ← ofResult (now.mapError fun e ↦ .err (.internal s!"clock error: {e}"))
  let merkleRoot ← ofResult (computeMerkleRoot P F ticks)
  let line := F.encodeLine key nonce ⟨store.nextBlockId, writtenAtNs, ticks, merkleRoot⟩
  require store.parentReady (.err .io)
  modify fun store ↦ store.write (line ++ ['\n'])

/-- `migrate_plaintext`, with the ticks of the file or the reason why there are none: all ticks
become one block. -/
def migratePlaintext (now : Except String UInt64) (nonce : FixedBytes 12)
    (legacy : Except StoreError (List (CalendarTick A))) :
    EStateM (Stop StoreError) EncryptedStore ℕ := do
  let ticks ← ofResult (legacy.mapError .err)
  if ticks = [] then pure 0
  else do
    appendBlock P F key now nonce ticks
    pure ticks.length

end EncryptedStore

/-! ### A transparent instance -/

section Transparent

variable {A : Type} [Encodable A]

instance : Encodable (CalendarBlock A) :=
  .ofLeftInverse (fun b ↦ (b.blockId, b.writtenAtNs, b.ticks, b.merkleRoot))
    (fun b ↦ ⟨b.1, b.2.1, b.2.2.1, b.2.2.2⟩) fun _ ↦ rfl

instance : Encodable SealedBlob :=
  .ofLeftInverse (fun s ↦ (s.ciphertext, s.nonce)) (fun s ↦ ⟨s.1, s.2⟩) fun _ ↦ rfl

/-- Bytes as hexadecimal digits, closed by a character that is none. -/
def closedHex (bs : Bytes) : List Char := bs.flatMap hexPair ++ ['=']

/-- The bytes of closed hexadecimal digits. -/
def readClosedHex (l : List Char) : Option Bytes :=
  if l.getLast? = some '=' then hexDecodeChars l.dropLast else none

theorem readClosedHex_closedHex (bs : Bytes) : readClosedHex (closedHex bs) = some bs := by
  rw [readClosedHex, closedHex, if_pos List.getLast?_concat, List.dropLast_concat,
    hexDecodeChars_flatMap_hexPair]

theorem isWhiteSpace_hexDigit : ∀ n < 16, isWhiteSpace (hexDigit n) = false := by decide

theorem word_closedHex (bs : Bytes) : Word (closedHex bs) := by
  refine ⟨List.append_ne_nil_of_right_ne_nil _ (List.cons_ne_nil _ _), fun c hc ↦ ?_⟩
  obtain hc | hc := List.mem_append.1 hc
  · obtain ⟨b, -, hc⟩ := List.mem_flatMap.1 hc
    have hb := b.toNat_lt
    obtain rfl | hc := List.mem_cons.1 hc
    · exact isWhiteSpace_hexDigit _ (by omega)
    · rw [List.mem_singleton.1 hc]
      exact isWhiteSpace_hexDigit _ (by omega)
  · rw [List.mem_singleton.1 hc]
    decide

/-- A format whose laws can be checked: a tick is its number, blocks and blobs are written in
unary, text is closed hexadecimal, and a ciphertext is its key followed by the plaintext. -/
def StoreFormat.transparent : StoreFormat A where
  tickJson t := u64Be t.record.chrononNumber
  blockJson := Codec.unary.serialize
  parseBlock bs := (Codec.unary.parse bs).elim (.error "invalid JSON") .ok
  cborEncode := Codec.unary.serialize
  cborDecode bs := (Codec.unary.parse bs).elim (.error "invalid CBOR") .ok
  base64Encode := closedHex
  base64Decode l := (readClosedHex l).elim (.error "invalid base64") .ok
  encrypt key _ m := key.toList ++ m
  decrypt key _ c := if c.take 32 = key.toList then some (c.drop 32) else none
  parseBlock_blockJson b := by rw [Codec.parse_serialize, Option.elim_some]
  cborDecode_cborEncode s := by rw [Codec.parse_serialize, Option.elim_some]
  base64Decode_base64Encode bs := by rw [readClosedHex_closedHex, Option.elim_some]
  decrypt_encrypt key _ m := by
    rw [if_pos (List.take_left' key.length_toList), List.drop_left' key.length_toList]
  cborEncode_ne_nil s := List.ne_nil_of_length_pos (Codec.length_serialize_unary_pos s)
  word_base64Encode bs _ := word_closedHex bs

/-- The transparent format of ticks without attestations. -/
def plainFormat : StoreFormat Unit := .transparent

end Transparent

end Foretias

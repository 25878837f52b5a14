import Foretias.Library.ByteString

/-!
# Messages framed by their lengths

A writer puts the length of a message before it, as a 32-bit word in four bytes, and a reader takes
the length, then a buffer of this length, and fills it. The length of a message of 2^32 bytes or
more is truncated, and a reader may refuse lengths above a limit of its own. What a reader makes of
the frames of a list of messages is characterised exactly (`readMany_write_iff`), and so is when it
has a bound on what it allocates (`exists_bound_iff`).
-/

/-! ### Lengths as bytes -/

/-- The four bytes of a 32-bit word, least significant first. -/
def u32Le (n : UInt32) : Bytes :=
  [UInt8.ofNat n.toNat, UInt8.ofNat (n.toNat / 2 ^ 8),
    UInt8.ofNat (n.toNat / 2 ^ 16), UInt8.ofNat (n.toNat / 2 ^ 24)]

/-- The number that bytes are, least significant first. -/
def readLe (bs : Bytes) : ℕ := bs.foldr (fun b n ↦ b.toNat + 256 * n) 0

theorem readLe_u32Le (n : UInt32) : readLe (u32Le n) = n.toNat := by
  have hn := n.toNat_lt
  simp only [readLe, u32Le, List.foldr_cons, List.foldr_nil, UInt8.toNat_ofNat']
  omega

/-- A way to write a 32-bit word in four bytes. -/
structure WordFormat where
  /-- The bytes of a word. -/
  encode : UInt32 → Bytes
  /-- The number that bytes are. -/
  decode : Bytes → ℕ
  length_encode : ∀ n, (encode n).length = 4
  decode_encode : ∀ n, decode (encode n) = n.toNat

namespace WordFormat

/-- `to_le_bytes` and `from_le_bytes`. -/
def littleEndian : WordFormat := ⟨u32Le, readLe, fun _ ↦ rfl, readLe_u32Le⟩

/-- `to_be_bytes` and `from_be_bytes`. -/
def bigEndian : WordFormat where
  encode n := (u32Le n).reverse
  decode bs := readLe bs.reverse
  length_encode _ := rfl
  decode_encode n := by rw [List.reverse_reverse, readLe_u32Le]

end WordFormat

/-! ### Frames -/

/-- Why no message is read. -/
inductive FrameError
  /-- The stream ends first. -/
  | unexpectedEof
  /-- The length is above the reader's limit. -/
  | tooLarge (message : String)
  deriving DecidableEq

/-- What a reader does: how many bytes it allocates, and its message with what is left of the
stream, or its error. -/
structure Reading where
  allocated : ℕ
  result : Except FrameError (Bytes × Bytes)

/-- Bytes from a stream that ends, if it has them. -/
def readExact (n : ℕ) (s : Bytes) : Except FrameError (Bytes × Bytes) :=
  if n ≤ s.length then .ok (s.take n, s.drop n) else .error .unexpectedEof

/-- The two ends of a channel: how lengths are written, and the reader's limit with its error. -/
structure Framing where
  word : WordFormat
  limit : Option (ℕ × String)

namespace Framing

variable (f : Framing)

/-- The frame of a message; its length is truncated to 32 bits. -/
def write (data : Bytes) : Bytes := f.word.encode (UInt32.ofNat data.length) ++ data

/-- Read one frame. -/
def read (s : Bytes) : Reading :=
  match readExact 4 s with
  | .error e => ⟨0, .error e⟩
  | .ok (bs, s) =>
    let len := f.word.decode bs
    match f.limit with
    | some (max, message) =>
      if max < len then ⟨0, .error (.tooLarge message)⟩ else ⟨len, readExact len s⟩
    | none => ⟨len, readExact len s⟩

/-- Read a number of frames. -/
def readMany : ℕ → Bytes → Except FrameError (List Bytes × Bytes)
  | 0, s => .ok ([], s)
  | n + 1, s => do
    let (data, s) ← (f.read s).result
    let (rest, s) ← readMany n s
    return (data :: rest, s)

/-- The reader does not refuse a length. -/
def Admits (n : ℕ) : Prop := ∀ l ∈ f.limit, n ≤ l.1

/-- The length of a message fits a word, and the reader does not refuse it. -/
def Fits (data : Bytes) : Prop := data.length < 2 ^ 32 ∧ f.Admits data.length

variable {f} {data rest s : Bytes} {n : UInt32} {k : ℕ}

theorem readExact_append {bs : Bytes} (h : bs.length = k) :
    readExact k (bs ++ s) = .ok (bs, s) := by
  have hle : k ≤ (bs ++ s).length := by
    rw [List.length_append, h]
    exact Nat.le_add_right ..
  rw [readExact, if_pos hle, List.take_left' h, List.drop_left' h]

theorem readExact_eq_error (h : s.length < k) : readExact k s = .error .unexpectedEof :=
  if_neg (Nat.not_le_of_lt h)

/-- A reader that does not refuse a length fills a buffer of this length. -/
theorem read_of_admits (h : f.Admits n.toNat) :
    f.read (f.word.encode n ++ s) = ⟨n.toNat, readExact n.toNat s⟩ := by
  rw [read, readExact_append (f.word.length_encode n)]
  dsimp only
  rw [f.word.decode_encode]
  rcases hlimit : f.limit with - | ⟨max, message⟩
  · rfl
  · exact if_neg (Nat.not_lt_of_le (h _ hlimit))

/-- One that does allocates nothing. -/
theorem read_of_not_admits (h : ¬f.Admits n.toNat) :
    ∃ message, f.read (f.word.encode n ++ s) = ⟨0, .error (.tooLarge message)⟩ := by
  rw [read, readExact_append (f.word.length_encode n)]
  dsimp only
  rw [f.word.decode_encode]
  rcases hlimit : f.limit with - | ⟨max, message⟩
  · exact absurd (fun l hl ↦ nomatch hlimit ▸ hl) h
  · refine ⟨message, if_pos (Nat.lt_of_not_le fun hle ↦ h fun l hl ↦ ?_)⟩
    rw [hlimit] at hl
    obtain rfl := Option.some_inj.1 hl
    exact hle

theorem toNat_length (h : data.length < 2 ^ 32) :
    (UInt32.ofNat data.length).toNat = data.length := by
  rw [UInt32.toNat_ofNat', Nat.mod_eq_of_lt h]

/-- **A message that fits is read back.** -/
theorem read_write_append (h : f.Fits data) :
    (f.read (f.write data ++ rest)).result = .ok (data, rest) := by
  have hn := toNat_length h.1
  rw [write, List.append_assoc, read_of_admits (hn.symm ▸ h.2), hn]
  exact readExact_append rfl

/-- A message that is read has the length that its four bytes say. -/
theorem length_of_read {m : Bytes} (h : (f.read (f.word.encode n ++ s)).result = .ok (m, rest)) :
    f.Admits n.toNat ∧ m.length = n.toNat := by
  have hadmits : f.Admits n.toNat := by
    by_contra hnot
    obtain ⟨message, hread⟩ := read_of_not_admits (s := s) hnot
    rw [hread] at h
    cases h
  rw [read_of_admits hadmits] at h
  refine ⟨hadmits, ?_⟩
  simp only [readExact] at h
  split_ifs at h with hle
  obtain ⟨rfl, -⟩ := Prod.mk.inj (Except.ok.inj h)
  exact List.length_take_of_le hle

/-- **Only a message that fits is read back.** -/
theorem fits_of_read_write {rest' : Bytes}
    (h : (f.read (f.write data ++ rest)).result = .ok (data, rest')) : f.Fits data := by
  rw [write, List.append_assoc] at h
  obtain ⟨hadmits, hlength⟩ := length_of_read h
  have hlt : data.length < 2 ^ 32 := by
    rw [hlength]
    exact UInt32.toNat_lt _
  exact ⟨hlt, hlength ▸ hadmits⟩

/-- A message that is read stands in the stream after the four bytes of its length. -/
theorem exists_of_read {m : Bytes} (h : (f.read s).result = .ok (m, rest)) :
    ∃ header, header.length = 4 ∧ s = header ++ m ++ rest := by
  rcases Nat.lt_or_ge s.length 4 with hlt | hge
  · rw [read, readExact_eq_error hlt] at h
    cases h
  · have hheader : (s.take 4).length = 4 := List.length_take_of_le hge
    refine ⟨s.take 4, hheader, ?_⟩
    have hread : f.read s = f.read (s.take 4 ++ s.drop 4) := by rw [List.take_append_drop]
    suffices hexact : readExact (f.word.decode (s.take 4)) (s.drop 4) = .ok (m, rest) by
      rw [readExact] at hexact
      split_ifs at hexact
      obtain ⟨rfl, rfl⟩ := Prod.mk.inj (Except.ok.inj hexact)
      rw [List.append_assoc, List.take_append_drop, List.take_append_drop]
    rw [hread, read, readExact_append hheader] at h
    dsimp only at h
    rcases hlimit : f.limit with - | ⟨max, message⟩
    · rwa [hlimit] at h
    · rw [hlimit] at h
      dsimp only at h
      split_ifs at h
      exact h

/-- To read one more frame than a number is to read one, then this number. -/
theorem readMany_succ_eq_ok {count : ℕ} {messages : List Bytes} :
    f.readMany (count + 1) s = .ok (messages, rest) ↔
      ∃ m s' ms, (f.read s).result = .ok (m, s') ∧ f.readMany count s' = .ok (ms, rest) ∧
        messages = m :: ms := by
  rw [readMany]
  constructor
  · intro h
    rcases hread : (f.read s).result with e | ⟨m, s'⟩
    · rw [hread] at h
      cases h
    rw [hread] at h
    change f.readMany count s' >>= _ = _ at h
    rcases hmany : f.readMany count s' with e | ⟨ms, r⟩
    · rw [hmany] at h
      cases h
    rw [hmany] at h
    obtain ⟨rfl, rfl⟩ := Prod.mk.inj (Except.ok.inj h)
    exact ⟨m, s', ms, rfl, hmany, rfl⟩
  · rintro ⟨m, s', ms, hread, hmany, rfl⟩
    rw [hread]
    show f.readMany count s' >>= _ = _
    rw [hmany]
    rfl

/-- As many messages are read as frames. -/
theorem length_of_readMany {count : ℕ} {messages : List Bytes}
    (h : f.readMany count s = .ok (messages, rest)) : messages.length = count := by
  induction count generalizing s messages with
  | zero =>
    obtain ⟨rfl, -⟩ := Prod.mk.inj (Except.ok.inj h)
    rfl
  | succ count ih =>
    obtain ⟨m, t, ms, -, hmany, rfl⟩ := readMany_succ_eq_ok.1 h
    rw [List.length_cons, ih hmany]

/-- To read one more frame than a number is to read this number, then one. -/
theorem readMany_concat {count : ℕ} {messages : List Bytes} {m s' : Bytes}
    (h : f.readMany count s = .ok (messages, s')) (hm : (f.read s').result = .ok (m, rest)) :
    f.readMany (count + 1) s = .ok (messages ++ [m], rest) := by
  induction count generalizing s messages with
  | zero =>
    obtain ⟨rfl, rfl⟩ := Prod.mk.inj (Except.ok.inj h)
    exact readMany_succ_eq_ok.2 ⟨m, rest, [], hm, rfl, rfl⟩
  | succ count ih =>
    obtain ⟨first, t, ms, hfirst, hmany, rfl⟩ := readMany_succ_eq_ok.1 h
    exact readMany_succ_eq_ok.2 ⟨first, t, ms ++ [m], hfirst, ih hmany, rfl⟩

/-- **The reader returns exactly the messages that were written iff each of them fits.** -/
theorem readMany_write_iff {messages : List Bytes} :
    f.readMany messages.length (messages.flatMap f.write) = .ok (messages, []) ↔
      ∀ m ∈ messages, f.Fits m := by
  induction messages with
  | nil => exact ⟨fun _ m hm ↦ absurd hm List.not_mem_nil, fun _ ↦ rfl⟩
  | cons m messages ih =>
    rw [List.forall_mem_cons, ← ih, List.length_cons, List.flatMap_cons, readMany_succ_eq_ok]
    constructor
    · rintro ⟨m', s', ms, hread, hmany, hcons⟩
      obtain ⟨rfl, rfl⟩ := List.cons.inj hcons
      have hfits := fits_of_read_write hread
      have hs := (read_write_append hfits).symm.trans hread
      obtain ⟨-, rfl⟩ := Prod.mk.inj (Except.ok.inj hs)
      exact ⟨hfits, hmany⟩
    · rintro ⟨hfits, hmany⟩
      exact ⟨m, _, messages, read_write_append hfits, hmany, rfl⟩

/-- **A proper beginning of a frame is an error.** -/
theorem read_take_write (hlt : data.length < 2 ^ 32) (hk : k < (f.write data).length) :
    ∃ e, (f.read ((f.write data).take k)).result = .error e := by
  rw [write, List.length_append, f.word.length_encode] at hk
  rcases Nat.lt_or_ge k 4 with h4 | h4
  · have hshort : ((f.write data).take k).length < 4 :=
      Nat.lt_of_le_of_lt (List.length_take_le ..) h4
    refine ⟨.unexpectedEof, ?_⟩
    rw [read, readExact_eq_error hshort]
  · rw [write, List.take_append, f.word.length_encode,
      List.take_of_length_le (Nat.le_trans (Nat.le_of_eq (f.word.length_encode _)) h4)]
    by_cases hadmits : f.Admits (UInt32.ofNat data.length).toNat
    · rw [read_of_admits hadmits, toNat_length hlt]
      have hshort : (data.take (k - 4)).length < data.length :=
        by
        rw [List.length_take]
        omega
      exact ⟨.unexpectedEof, readExact_eq_error hshort⟩
    · obtain ⟨message, hread⟩ := read_of_not_admits (s := data.take (k - 4)) hadmits
      exact ⟨_, congrArg Reading.result hread⟩

/-- What a reader with a limit allocates is within this limit. -/
theorem allocated_le {max : ℕ} {message : String} (h : f.limit = some (max, message)) (s : Bytes) :
    (f.read s).allocated ≤ max := by
  rw [read]
  rcases readExact 4 s with - | ⟨bs, s'⟩
  · exact Nat.zero_le _
  dsimp only
  rw [h]
  dsimp only
  split_ifs with hlt
  · exact Nat.zero_le _
  · exact Nat.le_of_not_lt hlt

/-- **A reader has a bound below the largest length iff it has a limit below it.** -/
theorem exists_bound_iff :
    (∃ bound < 2 ^ 32 - 1, ∀ s, (f.read s).allocated ≤ bound) ↔
      ∃ l ∈ f.limit, l.1 < 2 ^ 32 - 1 := by
  constructor
  · rintro ⟨bound, hbound, hall⟩
    by_contra hnone
    have hmax : (UInt32.ofNat (2 ^ 32 - 1)).toNat = 2 ^ 32 - 1 := rfl
    have hadmits : f.Admits (UInt32.ofNat (2 ^ 32 - 1)).toNat :=
      fun l hl ↦ Nat.le_of_not_lt fun hlt ↦ hnone ⟨l, hl, hlt⟩
    have hle := hall (f.word.encode (UInt32.ofNat (2 ^ 32 - 1)) ++ [])
    rw [read_of_admits hadmits, hmax] at hle
    exact Nat.not_lt_of_le hle hbound
  · rintro ⟨⟨max, message⟩, hlimit, hlt⟩
    exact ⟨max, hlt, allocated_le hlimit⟩

end Framing

import Mathlib.Algebra.Group.Nat.Hom
import Mathlib.Data.List.Basic

/-!
# Byte strings, fixed-length arrays and their text encodings

Byte strings as lists of `UInt8`, arrays whose length is part of their type, the big-endian
encoding of a 64-bit word, and the lower-case hexadecimal text of a byte string. The facts
proved are the ones an unframed concatenation needs: every encoding has a length that can be
computed from its argument and is injective (`u64Be_injective`, `hexEncode_injective`), and
text is read back from its bytes (`asBytes_injective`), so that boundaries inside a
concatenation can be found from lengths alone.
-/

/-- A byte string. -/
abbrev Bytes := List UInt8

/-- A byte string of length exactly `n`; the length is carried by the value. -/
@[ext] structure FixedBytes (n : ℕ) where
  /-- The bytes. -/
  toList : Bytes
  /-- There are exactly `n` of them. -/
  length_eq : toList.length = n
  deriving DecidableEq

namespace FixedBytes

variable {n : ℕ}

@[simp] theorem length_toList (b : FixedBytes n) : b.toList.length = n := b.length_eq

theorem toList_injective : Function.Injective (toList : FixedBytes n → Bytes) :=
  fun _ _ h ↦ FixedBytes.ext h

@[simp] theorem toList_inj {a b : FixedBytes n} : a.toList = b.toList ↔ a = b :=
  toList_injective.eq_iff

/-- The array holding `n` copies of one byte. -/
def replicate (n : ℕ) (b : UInt8) : FixedBytes n :=
  ⟨List.replicate n b, List.length_replicate⟩

@[simp] theorem toList_replicate (n : ℕ) (b : UInt8) :
    (replicate n b).toList = List.replicate n b := rfl

instance : Inhabited (FixedBytes n) := ⟨replicate n 0⟩

/-- Read a slice as an array, when it has the right length. -/
def ofBytes? (n : ℕ) (bs : Bytes) : Option (FixedBytes n) :=
  if h : bs.length = n then some ⟨bs, h⟩ else none

theorem ofBytes?_eq_some {bs : Bytes} {b : FixedBytes n} :
    ofBytes? n bs = some b ↔ bs = b.toList := by
  unfold ofBytes?
  split
  · simp [FixedBytes.ext_iff]
  · rename_i h
    simp only [reduceCtorEq, false_iff]
    rintro rfl
    exact h b.length_eq

@[simp] theorem ofBytes?_toList (b : FixedBytes n) : ofBytes? n b.toList = some b :=
  ofBytes?_eq_some.2 rfl

/-- The first `n` bytes of a buffer, as `memcpy` copies them; a shorter buffer counts as
continued with zeros. -/
def read (n : ℕ) (bs : Bytes) : FixedBytes n :=
  ⟨(bs ++ List.replicate n 0).take n, by simp⟩

@[simp] theorem read_append (a : FixedBytes n) (bs : Bytes) : read n (a.toList ++ bs) = a := by
  ext1
  show (a.toList ++ bs ++ List.replicate n 0).take n = a.toList
  rw [List.append_assoc, List.take_left' a.length_eq]

@[simp] theorem read_toList (a : FixedBytes n) : read n a.toList = a := by
  simpa using read_append a []

theorem toList_read_of_le {bs : Bytes} (h : n ≤ bs.length) : (read n bs).toList = bs.take n := by
  show (bs ++ List.replicate n 0).take n = _
  exact List.take_append_of_le_length h

theorem toList_read {bs : Bytes} (h : bs.length = n) : (read n bs).toList = bs := by
  rw [toList_read_of_le (Nat.le_of_eq h.symm), List.take_of_length_le (Nat.le_of_eq h)]

end FixedBytes

/-! ### Words and their bytes -/

/-- The successor of a 64-bit word below the last. -/
theorem UInt64.toNat_add_one_of_lt {n : UInt64} (h : n.toNat + 1 < 2 ^ 64) :
    (n + 1).toNat = n.toNat + 1 := by
  have hsum : (n + 1).toNat = (n.toNat + 1) % 2 ^ 64 := UInt64.toNat_add n 1
  rw [hsum, Nat.mod_eq_of_lt h]

/-- The eight bytes of a 64-bit word, most significant first. -/
def u64Be (n : UInt64) : Bytes :=
  [UInt8.ofNat (n.toNat / 2 ^ 56), UInt8.ofNat (n.toNat / 2 ^ 48),
    UInt8.ofNat (n.toNat / 2 ^ 40), UInt8.ofNat (n.toNat / 2 ^ 32),
    UInt8.ofNat (n.toNat / 2 ^ 24), UInt8.ofNat (n.toNat / 2 ^ 16),
    UInt8.ofNat (n.toNat / 2 ^ 8), UInt8.ofNat n.toNat]

@[simp] theorem length_u64Be (n : UInt64) : (u64Be n).length = 8 := rfl

/-- Numbers with the same last byte that agree in what precedes it. -/
theorem eq_of_ofNat_eq {x y : ℕ} (h : UInt8.ofNat x = UInt8.ofNat y)
    (hdiv : x / 256 = y / 256) : x = y := by
  have hmod : x % 256 = y % 256 := by simpa using congrArg UInt8.toNat h
  rw [← Nat.div_add_mod x 256, ← Nat.div_add_mod y 256, hdiv, hmod]

theorem u64Be_injective : Function.Injective u64Be := by
  intro a b h
  simp only [u64Be, List.cons.injEq, and_true] at h
  obtain ⟨h7, h6, h5, h4, h3, h2, h1, h0⟩ := h
  have ha := a.toNat_lt
  have hb := b.toNat_lt
  -- from the most significant byte down, the words agree in one more byte
  replace h7 := eq_of_ofNat_eq h7 (by omega)
  replace h6 := eq_of_ofNat_eq h6 (by rwa [Nat.div_div_eq_div_mul, Nat.div_div_eq_div_mul])
  replace h5 := eq_of_ofNat_eq h5 (by rwa [Nat.div_div_eq_div_mul, Nat.div_div_eq_div_mul])
  replace h4 := eq_of_ofNat_eq h4 (by rwa [Nat.div_div_eq_div_mul, Nat.div_div_eq_div_mul])
  replace h3 := eq_of_ofNat_eq h3 (by rwa [Nat.div_div_eq_div_mul, Nat.div_div_eq_div_mul])
  replace h2 := eq_of_ofNat_eq h2 (by rwa [Nat.div_div_eq_div_mul, Nat.div_div_eq_div_mul])
  replace h1 := eq_of_ofNat_eq h1 (by rwa [Nat.div_div_eq_div_mul, Nat.div_div_eq_div_mul])
  exact UInt64.toNat_inj.1 (eq_of_ofNat_eq h0 h1)

@[simp] theorem u64Be_inj {a b : UInt64} : u64Be a = u64Be b ↔ a = b :=
  u64Be_injective.eq_iff

/-- The eight bytes of a 64-bit word, least significant first. -/
def u64Le (n : UInt64) : Bytes :=
  [UInt8.ofNat n.toNat, UInt8.ofNat (n.toNat / 2 ^ 8),
    UInt8.ofNat (n.toNat / 2 ^ 16), UInt8.ofNat (n.toNat / 2 ^ 24),
    UInt8.ofNat (n.toNat / 2 ^ 32), UInt8.ofNat (n.toNat / 2 ^ 40),
    UInt8.ofNat (n.toNat / 2 ^ 48), UInt8.ofNat (n.toNat / 2 ^ 56)]

theorem reverse_u64Be (n : UInt64) : (u64Be n).reverse = u64Le n := rfl

theorem u64Le_injective : Function.Injective u64Le := by
  intro a b h
  rw [← reverse_u64Be, ← reverse_u64Be] at h
  exact u64Be_injective (List.reverse_injective h)

/-! ### Text as bytes -/

/-- The UTF-8 bytes of a string. -/
def asBytes (s : String) : Bytes := s.toUTF8.data.toList

theorem asBytes_injective : Function.Injective asBytes := by
  intro s t h
  apply String.toByteArray_inj.1
  have hdata : s.toUTF8.data = t.toUTF8.data := Array.toList_inj.1 h
  simpa [ByteArray.ext_iff] using hdata

@[simp] theorem asBytes_inj {s t : String} : asBytes s = asBytes t ↔ s = t :=
  asBytes_injective.eq_iff

theorem asBytes_ofList (cs : List Char) :
    asBytes (String.ofList cs) = cs.flatMap String.utf8EncodeChar := by
  simp [asBytes, List.utf8Encode]

theorem asBytes_append (s t : String) : asBytes (s ++ t) = asBytes s ++ asBytes t := by
  have happend : (s ++ t) = String.ofList (s.toList ++ t.toList) := by
    rw [String.ofList_append, String.ofList_toList, String.ofList_toList]
  rw [happend, asBytes_ofList, List.flatMap_append, ← asBytes_ofList, ← asBytes_ofList,
    String.ofList_toList, String.ofList_toList]

/-- The text that bytes are in UTF-8, if they are. -/
def fromUtf8? (bs : Bytes) : Option String := String.fromUTF8? ⟨bs.toArray⟩

theorem fromUtf8?_asBytes (s : String) : fromUtf8? (asBytes s) = some s := by
  have hs : (⟨(asBytes s).toArray⟩ : ByteArray) = s.toByteArray := rfl
  rw [fromUtf8?, hs, String.fromUTF8?, dif_pos s.isValidUTF8]
  rfl

/-- Bytes are read as a text when they are its bytes. -/
theorem fromUtf8?_eq_some {bs : Bytes} {s : String} : fromUtf8? bs = some s ↔ asBytes s = bs := by
  constructor
  · intro h
    rw [fromUtf8?, String.fromUTF8?] at h
    split at h
    · obtain rfl := Option.some_inj.1 h
      rfl
    · exact nomatch h
  · rintro rfl
    exact fromUtf8?_asBytes s

/-! ### Hexadecimal text -/

/-- The lower-case hexadecimal digit of a number below sixteen. -/
def hexDigit (n : ℕ) : Char := Char.ofNat (if n < 10 then 48 + n else 87 + n)

/-- The value of a hexadecimal digit of either case. -/
def hexValue? (c : Char) : Option ℕ :=
  if '0' ≤ c ∧ c ≤ '9' then some (c.toNat - 48)
  else if 'a' ≤ c ∧ c ≤ 'f' then some (c.toNat - 87)
  else if 'A' ≤ c ∧ c ≤ 'F' then some (c.toNat - 55)
  else none

/-- The two hexadecimal digits of a byte. -/
def hexPair (b : UInt8) : List Char := [hexDigit (b.toNat / 16), hexDigit (b.toNat % 16)]

/-- Lower-case hexadecimal text, two digits a byte. -/
def hexEncode (bs : Bytes) : String := String.ofList (bs.flatMap hexPair)

/-- Read pairs of hexadecimal digits; an odd digit or a foreign character is an error. -/
def hexDecodeChars : List Char → Option Bytes
  | [] => some []
  | [_] => none
  | hi :: lo :: rest => do
    let h ← hexValue? hi
    let l ← hexValue? lo
    let bs ← hexDecodeChars rest
    pure (UInt8.ofNat (16 * h + l) :: bs)

/-- Decode hexadecimal text. -/
def hexDecode (s : String) : Option Bytes := hexDecodeChars s.toList

theorem hexValue?_hexDigit : ∀ n < 16, hexValue? (hexDigit n) = some n := by decide

theorem hexDecodeChars_flatMap_hexPair (bs : Bytes) :
    hexDecodeChars (bs.flatMap hexPair) = some bs := by
  induction bs with
  | nil => rfl
  | cons b bs ih =>
    have hb := b.toNat_lt
    have hdigits : UInt8.ofNat (16 * (b.toNat / 16) + b.toNat % 16) = b := by
      rw [show 16 * (b.toNat / 16) + b.toNat % 16 = b.toNat by omega]
      exact UInt8.ofNat_toNat
    simp only [List.flatMap_cons, hexPair, List.cons_append, List.nil_append, hexDecodeChars,
      hexValue?_hexDigit _ (show b.toNat / 16 < 16 by omega),
      hexValue?_hexDigit _ (show b.toNat % 16 < 16 by omega), ih]
    exact congrArg (fun c ↦ some (c :: bs)) hdigits

/-- Decoding inverts encoding. -/
@[simp] theorem hexDecode_hexEncode (bs : Bytes) : hexDecode (hexEncode bs) = some bs := by
  simp [hexDecode, hexEncode, hexDecodeChars_flatMap_hexPair]

theorem hexEncode_injective : Function.Injective hexEncode := by
  intro a b h
  simpa using congrArg hexDecode h

@[simp] theorem hexEncode_inj {a b : Bytes} : hexEncode a = hexEncode b ↔ a = b :=
  hexEncode_injective.eq_iff

theorem length_utf8EncodeChar_hexDigit :
    ∀ n < 16, (String.utf8EncodeChar (hexDigit n)).length = 1 := by decide

/-- Hexadecimal text takes two bytes for each byte it encodes. -/
@[simp] theorem length_asBytes_hexEncode (bs : Bytes) :
    (asBytes (hexEncode bs)).length = 2 * bs.length := by
  rw [hexEncode, asBytes_ofList]
  induction bs with
  | nil => rfl
  | cons b bs ih =>
    have hb := b.toNat_lt
    have hhi := length_utf8EncodeChar_hexDigit _ (show b.toNat / 16 < 16 by omega)
    have hlo := length_utf8EncodeChar_hexDigit _ (show b.toNat % 16 < 16 by omega)
    simp only [List.flatMap_cons, List.flatMap_append, List.length_append, List.length_cons, ih]
    simp only [hexPair, List.flatMap_cons, List.flatMap_nil, List.length_append, hhi, hlo,
      List.length_nil]
    omega

theorem le_of_mem_utf8EncodeChar_hexDigit :
    ∀ n < 16, ∀ b ∈ String.utf8EncodeChar (hexDigit n), 48 ≤ b := by decide +kernel

/-- Hexadecimal text has no control bytes: every byte is at least that of the digit zero. -/
theorem le_of_mem_asBytes_hexEncode {bs : Bytes} {b : UInt8} (h : b ∈ asBytes (hexEncode bs)) :
    48 ≤ b := by
  rw [hexEncode, asBytes_ofList, List.flatMap_assoc, List.mem_flatMap] at h
  obtain ⟨c, -, hb⟩ := h
  have hc := c.toNat_lt
  simp only [hexPair, List.flatMap_cons, List.flatMap_nil, List.append_nil,
    List.mem_append] at hb
  rcases hb with hb | hb
  · exact le_of_mem_utf8EncodeChar_hexDigit _ (by omega) b hb
  · exact le_of_mem_utf8EncodeChar_hexDigit _ (by omega) b hb

theorem length_utf8EncodeChar_of_hexValue? {c : Char} {n : ℕ} (h : hexValue? c = some n) :
    (String.utf8EncodeChar c).length = 1 := by
  have hle : c.val ≤ 0x7f := by
    unfold hexValue? at h
    split at h
    · rename_i hc
      exact UInt32.le_trans hc.2 (by decide)
    split at h
    · rename_i hc
      exact UInt32.le_trans hc.2 (by decide)
    split at h
    · rename_i hc
      exact UInt32.le_trans hc.2 (by decide)
    · cases h
  rw [String.length_utf8EncodeChar, Char.utf8Size]
  exact if_pos hle

theorem length_of_hexDecodeChars {cs : List Char} {bs : Bytes} (h : hexDecodeChars cs = some bs) :
    (cs.flatMap String.utf8EncodeChar).length = 2 * bs.length := by
  induction cs using hexDecodeChars.induct generalizing bs with
  | case1 =>
    obtain rfl := Option.some_inj.1 h
    rfl
  | case2 => cases h
  | case3 hi lo rest ih =>
    rw [hexDecodeChars] at h
    obtain ⟨n, hn, h⟩ := Option.bind_eq_some_iff.1 h
    obtain ⟨m, hm, h⟩ := Option.bind_eq_some_iff.1 h
    obtain ⟨tail, htail, h⟩ := Option.bind_eq_some_iff.1 h
    obtain rfl := Option.some_inj.1 h
    rw [List.flatMap_cons, List.flatMap_cons, List.length_append, List.length_append,
      length_utf8EncodeChar_of_hexValue? hn, length_utf8EncodeChar_of_hexValue? hm, ih htail,
      List.length_cons]
    omega

/-- Decodable text takes two bytes for each byte it stands for. -/
theorem length_asBytes_of_hexDecode {s : String} {bs : Bytes} (h : hexDecode s = some bs) :
    (asBytes s).length = 2 * bs.length := by
  rw [← String.ofList_toList (s := s), asBytes_ofList]
  exact length_of_hexDecodeChars h

import Mathlib.Data.List.Nodup
import Foretias.Library.ByteString

/-!
# Base64 text

Three bytes are four groups of six bits, and every group has a letter. The decoder refuses foreign
letters, a single leftover letter and bits that belong to no byte, so text is decoded to a byte
string exactly when it is the one text of that byte string (`bytesOf?_eq_some`,
`decode_eq_some`).
-/

namespace Base64

/-! ### Groups of six bits -/

/-- The low six bits of a number. -/
def six (n : ℕ) : Fin 64 := Fin.ofNat 64 n

/-- The groups of six bits of a byte string; the last one is filled up with zeros. -/
def sextets : Bytes → List (Fin 64)
  | [] => []
  | [a] => [six (a.toNat / 4), six (a.toNat * 16)]
  | [a, b] => [six (a.toNat / 4), six (a.toNat * 16 + b.toNat / 16), six (b.toNat * 4)]
  | a :: b :: c :: rest =>
    six (a.toNat / 4) :: six (a.toNat * 16 + b.toNat / 16) :: six (b.toNat * 4 + c.toNat / 64) ::
      six c.toNat :: sextets rest

/-- The bytes of groups of six bits, unless a group is left over or bits are left that are not
zero. -/
def bytesOf? : List (Fin 64) → Option Bytes
  | [] => some []
  | [_] => none
  | [x, y] => if y.val % 16 = 0 then some [UInt8.ofNat (x * 4 + y / 16)] else none
  | [x, y, z] =>
    if z.val % 4 = 0 then
      some [UInt8.ofNat (x * 4 + y / 16), UInt8.ofNat (y * 16 + z / 4)]
    else none
  | x :: y :: z :: w :: rest =>
    (bytesOf? rest).map fun bs ↦
      UInt8.ofNat (x * 4 + y / 16) :: UInt8.ofNat (y * 16 + z / 4) :: UInt8.ofNat (z * 64 + w) ::
        bs

@[simp] theorem val_six (n : ℕ) : (six n).val = n % 64 := rfl

theorem six_eq_iff {n : ℕ} {d : Fin 64} : six n = d ↔ n % 64 = d.val := by
  rw [Fin.ext_iff, val_six]

theorem ofNat_eq_iff {n : ℕ} {b : UInt8} : UInt8.ofNat n = b ↔ n % 256 = b.toNat := by
  rw [← UInt8.toNat_inj, UInt8.toNat_ofNat']

/-- The bytes are read back from their groups. -/
theorem bytesOf?_sextets (bs : Bytes) : bytesOf? (sextets bs) = some bs := by
  induction bs using sextets.induct with
  | case1 => rfl
  | case2 a =>
    have ha := a.toNat_lt
    rw [sextets, bytesOf?, if_pos (by simp only [val_six]; omega), Option.some_inj,
      List.cons_eq_cons]
    refine ⟨ofNat_eq_iff.2 ?_, rfl⟩
    simp only [val_six]
    omega
  | case3 a b =>
    have ha := a.toNat_lt
    have hb := b.toNat_lt
    rw [sextets, bytesOf?, if_pos (by simp only [val_six]; omega), Option.some_inj,
      List.cons_eq_cons, List.cons_eq_cons]
    refine ⟨ofNat_eq_iff.2 ?_, ofNat_eq_iff.2 ?_, rfl⟩ <;>
      simp only [val_six] <;> omega
  | case4 a b c rest ih =>
    have ha := a.toNat_lt
    have hb := b.toNat_lt
    have hc := c.toNat_lt
    rw [sextets, bytesOf?, ih, Option.map_some, Option.some_inj, List.cons_eq_cons,
      List.cons_eq_cons, List.cons_eq_cons]
    refine ⟨ofNat_eq_iff.2 ?_, ofNat_eq_iff.2 ?_, ofNat_eq_iff.2 ?_, rfl⟩ <;>
      simp only [val_six] <;> omega

/-- Groups that have bytes are the groups of these bytes. -/
theorem sextets_of_bytesOf? {xs : List (Fin 64)} {bs : Bytes} (h : bytesOf? xs = some bs) :
    sextets bs = xs := by
  induction xs using bytesOf?.induct generalizing bs with
  | case1 => rw [← Option.some_inj.1 h, sextets]
  | case2 x => cases h
  | case3 x y hy =>
    rw [bytesOf?, if_pos hy] at h
    rw [← Option.some_inj.1 h, sextets, List.cons_eq_cons, List.cons_eq_cons]
    refine ⟨six_eq_iff.2 ?_, six_eq_iff.2 ?_, rfl⟩ <;>
      simp only [UInt8.toNat_ofNat'] <;> omega
  | case4 x y hy =>
    rw [bytesOf?, if_neg hy] at h
    cases h
  | case5 x y z hz =>
    rw [bytesOf?, if_pos hz] at h
    rw [← Option.some_inj.1 h, sextets, List.cons_eq_cons, List.cons_eq_cons, List.cons_eq_cons]
    refine ⟨six_eq_iff.2 ?_, six_eq_iff.2 ?_, six_eq_iff.2 ?_, rfl⟩ <;>
      simp only [UInt8.toNat_ofNat'] <;> omega
  | case6 x y z hz =>
    rw [bytesOf?, if_neg hz] at h
    cases h
  | case7 x y z w rest ih =>
    obtain ⟨bs', hbs, rfl⟩ := Option.map_eq_some_iff.1 h
    rw [sextets, ih hbs, List.cons_eq_cons, List.cons_eq_cons, List.cons_eq_cons,
      List.cons_eq_cons]
    refine ⟨six_eq_iff.2 ?_, six_eq_iff.2 ?_, six_eq_iff.2 ?_, six_eq_iff.2 ?_, rfl⟩ <;>
      simp only [UInt8.toNat_ofNat'] <;> omega

/-- Groups have bytes exactly when they are the groups of these bytes. -/
theorem bytesOf?_eq_some {xs : List (Fin 64)} {bs : Bytes} :
    bytesOf? xs = some bs ↔ sextets bs = xs := by
  refine ⟨sextets_of_bytesOf?, ?_⟩
  rintro rfl
  exact bytesOf?_sextets bs

/-! ### Letters -/

/-- Sixty-four different letters, one for each group. -/
structure Alphabet where
  /-- The letters, in order. -/
  letters : List Char
  /-- There are sixty-four of them. -/
  length_letters : letters.length = 64
  /-- No letter stands for two groups. -/
  nodup_letters : letters.Nodup

namespace Alphabet

variable {A : Alphabet}

/-- The letter of a group. -/
def letter (A : Alphabet) (d : Fin 64) : Char :=
  A.letters.get ⟨d, Nat.lt_of_lt_of_eq d.isLt A.length_letters.symm⟩

/-- The group of a letter. -/
def value (A : Alphabet) (c : Char) : Option (Fin 64) :=
  if h : A.letters.idxOf c < 64 then some ⟨A.letters.idxOf c, h⟩ else none

theorem value_letter (d : Fin 64) : A.value (A.letter d) = some d := by
  have hidx : A.letters.idxOf (A.letter d) = d :=
    A.nodup_letters.idxOf_getElem d (Nat.lt_of_lt_of_eq d.isLt A.length_letters.symm)
  rw [value, dif_pos (by rw [hidx]; exact d.isLt)]
  exact congrArg some (Fin.ext hidx)

theorem letter_of_value {c : Char} {d : Fin 64} (h : A.value c = some d) : A.letter d = c := by
  unfold value at h
  split at h
  case isTrue hlt =>
    rw [← Option.some_inj.1 h]
    exact List.getElem_idxOf (Nat.lt_of_lt_of_eq hlt A.length_letters.symm)
  case isFalse => cases h

theorem value_eq_some {c : Char} {d : Fin 64} : A.value c = some d ↔ A.letter d = c := by
  refine ⟨letter_of_value, ?_⟩
  rintro rfl
  exact value_letter d

/-- Letters are read as groups when they are the letters of these groups. -/
theorem mapM_value_eq_some {cs : List Char} {ds : List (Fin 64)} :
    cs.mapM A.value = some ds ↔ ds.map A.letter = cs := by
  induction cs generalizing ds with
  | nil =>
    rw [List.mapM_nil, List.map_eq_nil_iff, eq_comm (a := ds)]
    exact Option.some_inj
  | cons c cs ih =>
    rw [List.mapM_cons]
    constructor
    · intro h
      obtain ⟨d, hd, h⟩ := Option.bind_eq_some_iff.1 h
      obtain ⟨ds', hds, h⟩ := Option.bind_eq_some_iff.1 h
      rw [← Option.some_inj.1 h, List.map_cons, value_eq_some.1 hd, ih.1 hds]
    · intro h
      obtain ⟨d, ds', rfl, hd, hds⟩ := List.map_eq_cons_iff.1 h
      rw [value_eq_some.2 hd, ih.2 hds]
      rfl

/-- The letters of the URL-safe variant. -/
def urlSafe : Alphabet where
  letters := "ABCDEFGHIJKLMNOPQRSTUVWXYZabcdefghijklmnopqrstuvwxyz0123456789-_".toList
  length_letters := by decide
  nodup_letters := by decide

end Alphabet

/-! ### Text -/

variable {A : Alphabet}

/-- The text of a byte string, without padding. -/
def encode (A : Alphabet) (bs : Bytes) : String := String.ofList ((sextets bs).map A.letter)

/-- Reading text without padding. -/
def decode (A : Alphabet) (s : String) : Option Bytes :=
  (s.toList.mapM A.value).bind bytesOf?

/-- **Text decodes to a byte string exactly when it is its encoding.** -/
theorem decode_eq_some {s : String} {bs : Bytes} :
    decode A s = some bs ↔ encode A bs = s := by
  rw [decode, Option.bind_eq_some_iff, encode]
  constructor
  · rintro ⟨ds, hds, hbs⟩
    rw [bytesOf?_eq_some.1 hbs, Alphabet.mapM_value_eq_some.1 hds, String.ofList_toList]
  · rintro rfl
    refine ⟨sextets bs, Alphabet.mapM_value_eq_some.2 ?_, bytesOf?_sextets bs⟩
    rw [String.toList_ofList]

@[simp] theorem decode_encode (bs : Bytes) : decode A (encode A bs) = some bs :=
  decode_eq_some.2 rfl

example : encode .urlSafe [0xFB, 0xFF] = "-_8" := by decide +kernel

end Base64

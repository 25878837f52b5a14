import Foretias.Library.ByteString
import Mathlib.Logic.Encodable.Basic

/-!
# Codecs of files

A `Codec` writes values as bytes and reads them back. A file that was cut off while it was
written does not parse: formats whose text ends with a closing bracket have this property. The
laws are fields, so every codec has them.
-/

/-- A format in which values are written to files. -/
structure Codec (α : Type*) where
  /-- The bytes of a value. -/
  serialize : α → Bytes
  /-- The value of a file's bytes, if they parse. -/
  parse : Bytes → Option α
  /-- What was written is read back. -/
  parse_serialize : ∀ a, parse (serialize a) = some a
  /-- A file that was cut off does not parse. -/
  parse_take : ∀ a k, k < (serialize a).length → parse ((serialize a).take k) = none

namespace Codec

variable {α : Type*} (C : Codec α)

attribute [simp] parse_serialize

/-- A cut-off file parses only if nothing is missing. -/
theorem parse_take_eq_some {a b : α} {k : ℕ} (h : C.parse ((C.serialize a).take k) = some b) :
    (C.serialize a).length ≤ k ∧ b = a := by
  by_cases hk : k < (C.serialize a).length
  · rw [C.parse_take a k hk] at h
    cases h
  · have hle : (C.serialize a).length ≤ k := Nat.le_of_not_lt hk
    rw [List.take_of_length_le hle, parse_serialize, Option.some_inj] at h
    exact ⟨hle, h.symm⟩

/-- A codec for every encodable type: the code of a value in unary, closed by a zero byte. It is
never evaluated. -/
@[irreducible] def unary [Encodable α] : Codec α where
  serialize a := List.replicate (Encodable.encode a) 1 ++ [0]
  parse bs :=
    if bs = List.replicate (bs.length - 1) 1 ++ [0] then Encodable.decode (bs.length - 1) else none
  parse_serialize a := by
    simp only [List.length_append, List.length_replicate, List.length_singleton,
      Nat.add_sub_cancel, if_true, Encodable.encodek]
  parse_take a k hk := by
    refine if_neg fun heq ↦ ?_
    rw [List.length_append, List.length_replicate, List.length_singleton] at hk
    have hcut : (List.replicate (Encodable.encode a) (1 : UInt8) ++ [0]).take k =
        List.replicate k 1 := by
      rw [List.take_append_of_le_length (by simpa using Nat.le_of_lt_succ hk), List.take_replicate,
        Nat.min_eq_left (Nat.le_of_lt_succ hk)]
    rw [hcut] at heq
    have hzero : (0 : UInt8) ∈ List.replicate k 1 := by
      rw [heq]
      exact List.mem_append_right _ (List.mem_singleton_self 0)
    exact absurd (List.eq_of_mem_replicate hzero) (by decide)

/-- No value is written as an empty file. -/
theorem length_serialize_unary_pos [Encodable α] (a : α) : 0 < (unary.serialize a).length := by
  unfold unary
  rw [List.length_append, List.length_singleton]
  exact Nat.succ_pos _

end Codec

import Faultline.ByteOrder

/-! Reads of a byte string that fail outside of it, as the operations on a slice do: `none` stands for
a panic. -/
namespace Faultline

/-- The expression `b[i]`. -/
def byteAt (b : Bytes) (i : ℕ) : Option UInt8 := b[i]?

/-- The expression `b[i:]`. -/
def sliceFrom (b : Bytes) (i : ℕ) : Option Bytes := if i ≤ b.length then some (b.drop i) else none

/-- The expression `b[i:j]`. -/
def slice (b : Bytes) (i j : ℕ) : Option Bytes :=
  if i ≤ j ∧ j ≤ b.length then some ((b.take j).drop i) else none

/-- An integer of `k` bytes at the front of a slice, in little-endian order. -/
def littleEndian (k : ℕ) (b : Bytes) : Option ℕ := if k ≤ b.length then some (leNat (b.take k)) else none

/-- An integer of `k` bytes at the front of a slice, in big-endian order. -/
def bigEndian (k : ℕ) (b : Bytes) : Option ℕ := if k ≤ b.length then some (beNat (b.take k)) else none

theorem byteAt_zero (first : UInt8) (rest : Bytes) : byteAt (first :: rest) 0 = some first := rfl

theorem byteAt_eq (b : Bytes) (i : ℕ) (h : i < b.length) : byteAt b i = some (b.get ⟨i, h⟩) :=
  List.getElem?_eq_getElem h

theorem sliceFrom_eq (b : Bytes) (i : ℕ) (h : i ≤ b.length) : sliceFrom b i = some (b.drop i) := if_pos h

theorem slice_eq (b : Bytes) (i j : ℕ) (hi : i ≤ j) (hj : j ≤ b.length) :
    slice b i j = some ((b.take j).drop i) := if_pos ⟨hi, hj⟩

theorem littleEndian_eq (k : ℕ) (b : Bytes) (h : k ≤ b.length) : littleEndian k b = some (leNat (b.take k)) :=
  if_pos h

theorem bigEndian_eq (k : ℕ) (b : Bytes) (h : k ≤ b.length) : bigEndian k b = some (beNat (b.take k)) :=
  if_pos h

end Faultline

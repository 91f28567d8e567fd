/-
# Byte strings

Keys, hashes and encoded records are lists of bytes. This module fixes the two
conventions that commitments rest on: the byte-wise order that decides which of
two hashes comes first, and the little-endian layout of whole numbers. Reading
back `width` little-endian bytes gives the number they were written from,
reduced to that width.
-/

namespace Vesting

abbrev Bytes := List UInt8

namespace Bytes

/-- The strict byte-wise order: the first difference decides, and a proper
beginning of a byte string comes before it. -/
def before : Bytes → Bytes → Bool
  | _, [] => false
  | [], _ :: _ => true
  | a :: as, b :: bs => a < b || (a == b && before as bs)

/-- The `width` lowest bytes of a number, least significant first. -/
def littleEndian : Nat → Nat → Bytes
  | 0, _ => []
  | width + 1, n => UInt8.ofNat n :: littleEndian width (n / 256)

/-- The number that little-endian bytes stand for. -/
def toNat : Bytes → Nat
  | [] => 0
  | b :: rest => b.toNat + 256 * toNat rest

@[simp] theorem length_littleEndian (width n : Nat) :
    (littleEndian width n).length = width := by
  induction width generalizing n with
  | zero => rfl
  | succ width ih => simp [littleEndian, ih]

/-- Writing and reading back keeps exactly the lowest `width` bytes. -/
theorem toNat_littleEndian (width n : Nat) :
    toNat (littleEndian width n) = n % Nat.pow 256 width := by
  induction width generalizing n with
  | zero => simp [littleEndian, toNat, Nat.mod_one]
  | succ width ih =>
    have low : (UInt8.ofNat n).toNat = n % 256 := by simp
    rw [littleEndian, toNat, ih, low, Nat.pow_eq, Nat.pow_eq, Nat.pow_succ', Nat.mod_mul]

/-- Every byte string is the little-endian form of the number it stands for. -/
theorem littleEndian_toNat (b : Bytes) : littleEndian b.length (toNat b) = b := by
  induction b with
  | nil => rfl
  | cons byte rest ih =>
    have bound : byte.toNat < 256 := byte.toNat_lt
    have head : UInt8.ofNat (byte.toNat + 256 * toNat rest) = byte := by
      apply UInt8.toNat_inj.1
      simp only [UInt8.toNat_ofNat']
      omega
    have tail : (byte.toNat + 256 * toNat rest) / 256 = toNat rest := by omega
    simp only [List.length_cons, toNat, littleEndian, head, tail, ih]

end Bytes

end Vesting

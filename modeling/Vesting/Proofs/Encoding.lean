/-
# Encodings determine records

The fields of a record stand behind one another in widths that do not depend on their
values, so nothing is needed between them: two records with the same encoding agree in
every field, whether or not they make sense as grants.
-/

import Vesting.Record

namespace Vesting

/-- Eight little-endian bytes determine a word. -/
theorem Bytes.littleEndian_word_inj {v w : UInt64}
    (same : littleEndian 8 v.toNat = littleEndian 8 w.toNat) : v = w := by
  have back := congrArg toNat same
  have boundV : v.toNat < Nat.pow 256 8 := v.toNat_lt
  have boundW : w.toNat < Nat.pow 256 8 := w.toNat_lt
  rw [toNat_littleEndian, toNat_littleEndian, Nat.mod_eq_of_lt boundV,
    Nat.mod_eq_of_lt boundW] at back
  exact UInt64.toNat_inj.1 back

namespace Record

/-- Records with the same encoding are the same. The fields are taken off from the end. -/
theorem encode_inj {r s : Record} (same : r.encode = s.encode) : r = s := by
  simp only [encode] at same
  obtain ⟨same, modes⟩ := List.append_inj' same rfl
  obtain ⟨same, periods⟩ := List.append_inj' same (by simp)
  obtain ⟨same, periodAmount⟩ := List.append_inj' same (by simp)
  obtain ⟨same, cliffAmount⟩ := List.append_inj' same (by simp)
  obtain ⟨same, frequency⟩ := List.append_inj' same (by simp)
  obtain ⟨same, cliff⟩ := List.append_inj' same (by simp)
  obtain ⟨recipient, start⟩ := List.append_inj' same (by simp)
  obtain ⟨⟨bytes, size⟩, _⟩ := r
  obtain ⟨⟨bytes', size'⟩, _⟩ := s
  simp only [List.cons.injEq, and_true] at modes
  simp only [mk.injEq, Recipient.mk.injEq]
  exact ⟨recipient, Bytes.littleEndian_word_inj start, Bytes.littleEndian_word_inj cliff,
    Bytes.littleEndian_word_inj frequency, Bytes.littleEndian_word_inj cliffAmount,
    Bytes.littleEndian_word_inj periodAmount, Bytes.littleEndian_word_inj periods, modes⟩

end Record

end Vesting

/-
# No bit stands still

Bit by bit the stream of a twister is linear over the numbers modulo two: the recurrence gives
each bit, up to a shift, from the one below it and the lowest, and the lowest from the
highest. Nothing is assumed of the array, which may as well be all zeros. Main statement: of
any twenty thousand words in a row, one is given out with its top bit zero.
-/

import Vesting.Proofs.Twister.Elimination
import Vesting.Proofs.Twister.Stream

namespace Vesting.Twister

variable {words : Array UInt32} {j : Nat}

/-! ## Bits -/

/-- A bit of a word, as a number modulo two. -/
def bit (w : UInt32) (j : Nat) : ZMod 2 := if w.toBitVec.getLsbD j then 1 else 0

theorem bit_of_ge (w : UInt32) (outside : 32 ≤ j) : bit w j = 0 := by
  simp [bit, BitVec.getLsbD_of_ge _ _ outside]

theorem bit_xor (v w : UInt32) (j : Nat) : bit (v ^^^ w) j = bit v j + bit w j := by
  simp only [bit, UInt32.toBitVec_xor, BitVec.getLsbD_xor]
  cases v.toBitVec.getLsbD j <;> cases w.toBitVec.getLsbD j <;> decide

theorem bit_and (v w : UInt32) (j : Nat) : bit (v &&& w) j = bit v j * bit w j := by
  simp only [bit, UInt32.toBitVec_and, BitVec.getLsbD_and]
  cases v.toBitVec.getLsbD j <;> cases w.toBitVec.getLsbD j <;> decide

theorem bit_shiftRight (w : UInt32) {n : UInt32} (small : n.toNat < 32) (j : Nat) :
    bit (w >>> n) j = bit w (n.toNat + j) := by
  simp [bit, Nat.mod_eq_of_lt small]

theorem bit_shiftLeft (w : UInt32) {n : UInt32} (small : n.toNat ≤ j) (inside : j < 32) :
    bit (w <<< n) j = bit w (j - n.toNat) := by
  simp only [bit, UInt32.toBitVec_shiftLeft, BitVec.getLsbD_shiftLeft']
  simp [Nat.mod_eq_of_lt (Nat.lt_of_le_of_lt small inside), small, inside]

theorem toNat_lt_of_bit_top {w : UInt32} (zero : bit w 31 = 0) : w.toNat < 2 ^ 31 := by
  have unset : w.toBitVec.msb = false := by
    rw [BitVec.msb_eq_getLsbD_last]
    by_contra set
    rw [bit, if_pos (Bool.eq_true_of_not_eq_false set)] at zero
    exact one_ne_zero zero
  have half : 2 * w.toNat < 2 ^ 32 := BitVec.msb_eq_false_iff_two_mul_lt.1 unset
  omega

theorem bit_joint_top (upper lower : UInt32) : bit (joint upper lower) 31 = bit upper 31 := by
  simp [bit, joint]

theorem bit_joint_low (upper lower : UInt32) (low : j < 31) :
    bit (joint upper lower) j = bit lower j := by
  have masks : ∀ i : Fin 31, (0x80000000#32).getLsbD i = false ∧
      (0x7fffffff#32).getLsbD i = true := by decide
  obtain ⟨top, rest⟩ := masks ⟨j, low⟩
  simp [bit, joint, top, rest]

theorem and_one_beq_zero (w : UInt32) : (w &&& 1 == 0) = !w.toBitVec.getLsbD 0 := by
  rw [Bool.eq_iff_iff, beq_iff_eq, ← UInt32.toNat_inj, UInt32.toNat_and, UInt32.toNat_one,
    Nat.and_one_is_mod]
  simp [BitVec.getLsbD, Nat.testBit_zero]

/-- Which bits are flipped if the lowest was set. -/
def flips (j : Nat) : ZMod 2 := bit 0x9908b0df j

/-- The recurrence moves the bits down by one. -/
theorem bit_twisted (upper lower : UInt32) (j : Nat) : bit (twisted upper lower) j =
    bit (joint upper lower) (j + 1) + flips j * bit lower 0 := by
  rw [twisted, bit_xor, and_one_beq_zero, ← bit_joint_low upper lower (show 0 < 31 by decide)]
  congr 1
  · simp [bit, Nat.add_comm]
  · simp only [bit, flips]
    cases (joint upper lower).toBitVec.getLsbD 0 <;> simp

/-- The top bit of a word that is given out is the sum of four of its bits. -/
theorem bit_temper_top (w : UInt32) :
    bit (temper w) 31 = bit w 31 + bit w 24 + bit w 16 + bit w 27 := by
  -- each shift to the left takes a bit along only where its mask has one
  have masks : bit 0x9d2c5680 31 = 1 ∧ bit 0x9d2c5680 16 = 0 ∧ bit 0xefc60000 31 = 1 := by decide
  obtain ⟨first, none, second⟩ := masks
  simp (disch := decide) only [temper, bit_xor, bit_and, bit_shiftRight, bit_shiftLeft, bit_of_ge,
    UInt32.reduceToNat, first, none, second]
  ring

/-! ## The bits of the stream -/

/-- The sequence of one bit of the stream. -/
def track (words : Array UInt32) (j k : Nat) : ZMod 2 := bit (stream words k) j

theorem act_leap_track (sized : words.size = size) (j k : Nat) :
    act (leap size distance) (track words j) k =
      bit (joint (stream words k) (stream words (k + 1))) (j + 1) +
        flips j * track words 0 (k + 1) := by
  rw [act_leap, track, stream_add_size sized, bit_xor, bit_twisted, ← track, ← track, add_comm,
    ← add_assoc, CharTwo.add_self_eq_zero, zero_add]

/-- The bit that the recurrence moves down to another, solved for. -/
theorem eq_act_leap_track (sized : words.size = size) {f : Nat → ZMod 2}
    (moved : ∀ k, bit (joint (stream words k) (stream words (k + 1))) (j + 1) = f k) :
    f = act (leap size distance) (track words j) +
      act (.C (flips j) * .X) (track words 0) := by
  funext k
  rw [Pi.add_apply, act_leap_track sized, moved, act_mul, act_C, Pi.smul_apply, act_X,
    smul_eq_mul, add_assoc, CharTwo.add_self_eq_zero, add_zero]

theorem circle (sized : words.size = size) :
    Circle (leap size distance) flips 30 (track words) where
  next j low := eq_act_leap_track sized fun k => by
    rw [bit_joint_low _ _ (Nat.succ_lt_succ low), act_X, track]
  top := eq_act_leap_track sized fun k => by rw [bit_joint_top, track]
  bottom := by
    funext k
    have flipped : flips 31 = 1 := by decide
    rw [act_leap_track sized, bit_of_ge _ (Nat.le_refl 32), flipped, zero_add, one_mul, act_X]

/-- Of any twenty thousand words in a row, one is given out with its top bit zero. -/
theorem exists_next_lt {t : Twister} (whole : t.Whole) :
    ∃ i < 20000, (skip i t).next.1.toNat < 2 ^ 31 := by
  have track_mem {j : Nat} (inside : j ≤ 31) : track t.words j ∈
      Submodule.span (ZMod 2) (track t.words '' Set.Iic 31) :=
    Submodule.subset_span ⟨j, inside, rfl⟩
  have summed := add_mem (add_mem (add_mem (track_mem (j := 31) (by decide))
    (track_mem (j := 24) (by decide))) (track_mem (j := 16) (by decide)))
    (track_mem (j := 27) (by decide))
  obtain ⟨i, within, zero⟩ :=
    (circle whole.sized).exists_zero (eval_leap size distance) summed t.used
  have short : i ≤ size + size * 31 + 31 :=
    within.trans (natDegree_killer_le (by decide) (natDegree_leap_le (by decide)) 30)
  refine ⟨i, Nat.lt_of_le_of_lt short (by decide), toNat_lt_of_bit_top ?_⟩
  rw [next_skip whole, bit_temper_top]
  exact zero

end Vesting.Twister

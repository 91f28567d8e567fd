/-
# Sequences that are taken to zero

Sequences of numbers modulo two, and polynomials in the shift that makes a sequence begin one
place later. Finitely many sequences are given, each of which is, up to a shift, made of the
one below it and of the lowest, and the lowest of the highest. Eliminating one after the other
leaves a polynomial that takes all of them to zero. It has an odd number of terms if the
polynomial that leads from one sequence to the next has an even number, and what is always one
would be taken to the number of its terms. Main statement: then every sum of these sequences
is zero at one of as many places in a row as the polynomial reaches.
-/

import Mathlib

namespace Vesting.Twister

open Polynomial

/-! ## The shift -/

/-- The shift of sequences. -/
def shift : (Nat → ZMod 2) →ₗ[ZMod 2] (Nat → ZMod 2) := LinearMap.funLeft _ _ Nat.succ

/-- What a polynomial in the shift makes of a sequence. -/
noncomputable def act (p : (ZMod 2)[X]) (f : Nat → ZMod 2) : Nat → ZMod 2 := aeval shift p f

theorem act_add (p q : (ZMod 2)[X]) (f : Nat → ZMod 2) : act (p + q) f = act p f + act q f := by
  rw [act, map_add, LinearMap.add_apply, act, act]

theorem act_mul (p q : (ZMod 2)[X]) (f : Nat → ZMod 2) : act (p * q) f = act p (act q f) := by
  rw [act, map_mul, Module.End.mul_apply, act, act]

theorem act_one (f : Nat → ZMod 2) : act 1 f = f := by
  rw [act, map_one, Module.End.one_apply]

theorem act_map_add (p : (ZMod 2)[X]) (f g : Nat → ZMod 2) :
    act p (f + g) = act p f + act p g := map_add _ f g

theorem act_map_zero (p : (ZMod 2)[X]) : act p 0 = 0 := map_zero _

theorem act_C (a : ZMod 2) (f : Nat → ZMod 2) : act (C a) f = a • f := by
  rw [act, aeval_C, Module.algebraMap_end_apply]

theorem act_X (f : Nat → ZMod 2) (k : Nat) : act X f k = f (k + 1) := by
  rw [act, aeval_X]
  rfl

theorem act_X_pow (n : Nat) (f : Nat → ZMod 2) (k : Nat) : act (X ^ n) f k = f (k + n) := by
  induction n generalizing f with
  | zero => rw [pow_zero, act_one, Nat.add_zero]
  | succ n ih => rw [pow_succ, act_mul, ih, act_X, Nat.add_assoc]

/-- A polynomial in the shift adds up the places that have its coefficients. -/
theorem act_apply (p : (ZMod 2)[X]) (f : Nat → ZMod 2) (k : Nat) :
    act p f k = ∑ i ∈ Finset.range (p.natDegree + 1), p.coeff i * f (k + i) := by
  rw [act, aeval_eq_sum_range, LinearMap.sum_apply, Finset.sum_apply]
  refine Finset.sum_congr rfl fun i _ => ?_
  have moved := act_X_pow i f k
  rw [act, map_pow, aeval_X] at moved
  rw [LinearMap.smul_apply, Pi.smul_apply, moved, smul_eq_mul]

/-- A polynomial with an odd number of terms does not take to zero what stays one. -/
theorem exists_zero_of_act_eq_zero {p : (ZMod 2)[X]} (odd : p.eval 1 = 1) {f : Nat → ZMod 2}
    (killed : act p f = 0) (k : Nat) : ∃ i ≤ p.natDegree, f (k + i) = 0 := by
  by_contra! never
  have one : ∀ i ≤ p.natDegree, f (k + i) = 1 := fun i within =>
    (by decide : ∀ b : ZMod 2, b ≠ 0 → b = 1) _ (never i within)
  have value : act p f k = 1 := by
    rw [act_apply, ← odd, eval_eq_sum_range]
    refine Finset.sum_congr rfl fun i inside => ?_
    rw [one i (Nat.lt_succ_iff.1 (Finset.mem_range.1 inside)), one_pow]
  rw [killed, Pi.zero_apply] at value
  exact zero_ne_one value

/-! ## A circle of sequences -/

/-- Sequences up to the place after `n`, each made of the one below it and the lowest, the
highest without a shift, and the lowest made of the highest. -/
structure Circle (p : (ZMod 2)[X]) (flips : Nat → ZMod 2) (n : Nat)
    (track : Nat → Nat → ZMod 2) : Prop where
  next : ∀ j < n, act X (track (j + 1)) = act p (track j) + act (C (flips j) * X) (track 0)
  top : track (n + 1) = act p (track n) + act (C (flips n) * X) (track 0)
  bottom : act X (track 0) = act p (track (n + 1))

variable {p : (ZMod 2)[X]} {flips : Nat → ZMod 2} {n : Nat} {track : Nat → Nat → ZMod 2}

/-- What takes the lowest sequence to a higher one, up to a shift. -/
noncomputable def raised (p : (ZMod 2)[X]) (flips : Nat → ZMod 2) : Nat → (ZMod 2)[X]
  | 0 => 1
  | j + 1 => p * raised p flips j + C (flips j) * X ^ (j + 1)

/-- What takes the lowest sequence to zero, having gone through all the others. -/
noncomputable def around (p : (ZMod 2)[X]) (flips : Nat → ZMod 2) (n : Nat) : (ZMod 2)[X] :=
  p * raised p flips (n + 1) + X ^ (n + 1)

/-- What takes every sequence of the circle to zero. -/
noncomputable def killer (p : (ZMod 2)[X]) (flips : Nat → ZMod 2) (n : Nat) : (ZMod 2)[X] :=
  around p flips n * X ^ (n + 1)

namespace Circle

variable (circle : Circle p flips n track)
include circle

theorem act_X_pow_track {j : Nat} (low : j ≤ n) :
    act (X ^ j) (track j) = act (raised p flips j) (track 0) := by
  induction j with
  | zero => rw [raised, pow_zero]
  | succ j ih =>
      calc act (X ^ (j + 1)) (track (j + 1))
        _ = act (X ^ j) (act X (track (j + 1))) := by rw [pow_succ, act_mul]
        _ = act p (act (X ^ j) (track j)) + act (C (flips j) * X ^ (j + 1)) (track 0) := by
          rw [circle.next j low, act_map_add, ← act_mul, ← act_mul, mul_comm, act_mul, pow_succ,
            mul_left_comm]
        _ = act (raised p flips (j + 1)) (track 0) := by
          rw [ih (Nat.le_of_lt low), ← act_mul, ← act_add, raised]

theorem act_X_pow_track_top :
    act (X ^ n) (track (n + 1)) = act (raised p flips (n + 1)) (track 0) := by
  calc act (X ^ n) (track (n + 1))
    _ = act p (act (X ^ n) (track n)) + act (C (flips n) * X ^ (n + 1)) (track 0) := by
      rw [circle.top, act_map_add, ← act_mul, ← act_mul, mul_comm, act_mul, pow_succ,
        mul_left_comm]
    _ = act (raised p flips (n + 1)) (track 0) := by
      rw [circle.act_X_pow_track (Nat.le_refl n), ← act_mul, ← act_add, raised]

theorem act_around : act (around p flips n) (track 0) = 0 := by
  have back : act (X ^ (n + 1)) (track 0) = act (p * raised p flips (n + 1)) (track 0) := by
    rw [pow_succ, act_mul, circle.bottom, ← act_mul, mul_comm, act_mul,
      circle.act_X_pow_track_top, act_mul]
  funext k
  rw [around, act_add, back, Pi.add_apply, CharTwo.add_self_eq_zero, Pi.zero_apply]

theorem act_killer {j : Nat} (inside : j ≤ n + 1) : act (killer p flips n) (track j) = 0 := by
  obtain ⟨m, lower, reached⟩ :
      ∃ m ≤ n + 1, act (X ^ m) (track j) = act (raised p flips j) (track 0) := by
    rcases Nat.le_succ_iff.1 inside with low | rfl
    · exact ⟨j, inside, circle.act_X_pow_track low⟩
    · exact ⟨n, Nat.le_succ n, circle.act_X_pow_track_top⟩
  calc act (killer p flips n) (track j)
    _ = act (around p flips n * X ^ (n + 1 - m)) (act (X ^ m) (track j)) := by
      rw [← act_mul, mul_assoc, ← pow_add, Nat.sub_add_cancel lower, killer]
    _ = act (X ^ (n + 1 - m) * raised p flips j) (act (around p flips n) (track 0)) := by
      rw [reached, ← act_mul, ← act_mul]
      congr 1
      ring
    _ = 0 := by rw [circle.act_around, act_map_zero]

end Circle

theorem eval_killer (even : p.eval 1 = 0) : (killer p flips n).eval 1 = 1 := by
  rw [killer, around, eval_mul, eval_add, eval_mul, even, eval_pow, eval_X, one_pow, zero_mul,
    zero_add, one_mul]

theorem natDegree_raised_le {d : Nat} (positive : 0 < d) (bounded : p.natDegree ≤ d) (j : Nat) :
    (raised p flips j).natDegree ≤ d * j := by
  induction j with
  | zero => exact natDegree_one.le
  | succ j ih =>
      refine natDegree_add_le_of_degree_le ?_ ?_
      · rw [Nat.mul_succ, Nat.add_comm]
        exact natDegree_mul_le_of_le bounded ih
      · exact (natDegree_C_mul_X_pow_le _ _).trans (Nat.le_mul_of_pos_left _ positive)

theorem natDegree_around_le {d : Nat} (positive : 0 < d) (bounded : p.natDegree ≤ d) (n : Nat) :
    (around p flips n).natDegree ≤ d + d * (n + 1) :=
  natDegree_add_le_of_degree_le
    (natDegree_mul_le_of_le bounded (natDegree_raised_le positive bounded (n + 1)))
    ((natDegree_X_pow_le _).trans
      ((Nat.le_mul_of_pos_left _ positive).trans (Nat.le_add_left _ _)))

theorem natDegree_killer_le {d : Nat} (positive : 0 < d) (bounded : p.natDegree ≤ d) (n : Nat) :
    (killer p flips n).natDegree ≤ d + d * (n + 1) + (n + 1) :=
  natDegree_mul_le_of_le (natDegree_around_le positive bounded n) (natDegree_X_pow_le _)

/-- A sum of sequences of the circle is zero somewhere. -/
theorem Circle.exists_zero (circle : Circle p flips n track) (even : p.eval 1 = 0)
    {f : Nat → ZMod 2} (summed : f ∈ Submodule.span (ZMod 2) (track '' Set.Iic (n + 1)))
    (k : Nat) : ∃ i ≤ (killer p flips n).natDegree, f (k + i) = 0 := by
  have within : Submodule.span (ZMod 2) (track '' Set.Iic (n + 1)) ≤
      (aeval shift (killer p flips n)).ker := by
    rw [Submodule.span_le]
    rintro _ ⟨j, inside, rfl⟩
    exact circle.act_killer inside
  exact exists_zero_of_act_eq_zero (eval_killer even) (within summed) k

/-! ## A leap -/

/-- The polynomial that adds up two places. -/
noncomputable def leap (far near : Nat) : (ZMod 2)[X] := X ^ far + X ^ near

theorem act_leap (far near : Nat) (f : Nat → ZMod 2) (k : Nat) :
    act (leap far near) f k = f (k + far) + f (k + near) := by
  rw [leap, act_add, Pi.add_apply, act_X_pow, act_X_pow]

theorem eval_leap (far near : Nat) : (leap far near).eval 1 = 0 := by
  rw [leap, eval_add, eval_pow, eval_pow, eval_X, one_pow, one_pow, CharTwo.add_self_eq_zero]

theorem natDegree_leap_le {far near : Nat} (ordered : near ≤ far) :
    (leap far near).natDegree ≤ far :=
  natDegree_add_le_of_degree_le (natDegree_X_pow_le far)
    ((natDegree_X_pow_le near).trans ordered)

end Vesting.Twister

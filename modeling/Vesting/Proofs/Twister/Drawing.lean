/-
# Drawing below a bound

A number below a bound is drawn by drawing as many bits as the bound has until they stand for
one. Nothing in this loop says that it stops, and the twister gives up after so many tries.
Main statement: it never gives up. Bits that are too large have the top bit of the bound, so
the word that they were taken from has its top bit set, and not every word has.
-/

import Vesting.Proofs.Twister.Recurrence

namespace Vesting.Twister

variable {bound : Nat} {t : Twister}

/-! ## A new twister -/

theorem size_fill (seed : UInt32) : (fill seed).size = size := by
  have pushes (f : Array UInt32 → Nat → UInt32) (places : List Nat) (words : Array UInt32) :
      (places.foldl (fun words i => words.push (f words i)) words).size =
        words.size + places.length := by
    induction places generalizing words with
    | nil => rfl
    | cons i places ih =>
        rw [List.foldl_cons, ih, Array.size_push, List.length_cons, Nat.add_assoc, Nat.add_comm 1]
  rw [fill, pushes, List.length_range]
  rfl

@[simp] theorem size_store (words : Array UInt32) (i : Nat) (w : UInt32) :
    (store words i w).size = words.size := by
  unfold store
  split <;> simp

theorem size_mixKey (key : Array UInt32) (steps i j : Nat) (words : Array UInt32) :
    (mixKey key steps i j words).2.size = words.size := by
  induction steps generalizing i j words with
  | zero => rfl
  | succ steps ih => rw [mixKey, ih, size_store]

theorem size_mixPlaces (steps i : Nat) (words : Array UInt32) :
    (mixPlaces steps i words).size = words.size := by
  induction steps generalizing i words with
  | zero => rfl
  | succ steps ih => rw [mixPlaces, ih, size_store]

theorem whole_ofKey (key : Array UInt32) : (ofKey key).Whole where
  sized := by
    rw [ofKey, Array.size_setIfInBounds, size_mixPlaces, size_mixKey, size_fill]
  used_le := Nat.le_refl size

theorem whole_ofSeed (seed : Int) : (ofSeed seed).Whole := whole_ofKey _

/-! ## Drawing again -/

/-- The number of bits of a bound. -/
def width (bound : Nat) : Nat := bound.log2 + 1

/-- What comes of drawing the bits of a bound until they stand for a number below it. -/
inductive Yields (bound : Nat) : Twister → Nat → Twister → Prop
  | taken {t : Twister} (fits : (t.bits (width bound)).1 < bound) :
      Yields bound t (t.bits (width bound)).1 (t.bits (width bound)).2
  | again {t u : Twister} {n : Nat} (large : bound ≤ (t.bits (width bound)).1)
      (rest : Yields bound (t.bits (width bound)).2 n u) : Yields bound t n u

theorem Yields.lt {u : Twister} {n : Nat} (yields : Yields bound t n u) : n < bound := by
  induction yields with
  | taken fits => exact fits
  | again _ _ ih => exact ih

/-- There is only one thing that can come of it. -/
theorem Yields.unique {u v : Twister} {m n : Nat} (first : Yields bound t m u)
    (second : Yields bound t n v) : m = n ∧ u = v := by
  induction first with
  | taken fits =>
      cases second with
      | taken _ => exact ⟨rfl, rfl⟩
      | again large _ => exact absurd fits (Nat.not_lt.2 large)
  | again large _ ih =>
      cases second with
      | taken fits => exact absurd fits (Nat.not_lt.2 large)
      | again _ rest => exact ih rest

theorem Yields.exists_skip {u : Twister} {n : Nat} (yields : Yields bound t n u) :
    ∃ count, u = skip count t := by
  induction yields with
  | taken _ => exact ⟨1, rfl⟩
  | again _ _ ih =>
      obtain ⟨count, same⟩ := ih
      exact ⟨count + 1, same.trans (skip_add count 1 _)⟩

theorem Yields.whole {u : Twister} {n : Nat} (yields : Yields bound t n u) (whole : t.Whole) :
    u.Whole := by
  obtain ⟨count, rfl⟩ := yields.exists_skip
  exact whole_skip whole count

theorem reject_succ (bound count tries : Nat) (t : Twister) : reject bound count (tries + 1) t =
    if (t.bits count).1 < bound then t.bits count
    else reject bound count tries (t.bits count).2 := rfl

/-- As many tries as it takes give what drawing without end gives. -/
theorem yields_reject {tries i : Nat} (inside : i < tries)
    (fits : ((skip i t).bits (width bound)).1 < bound) :
    t.Yields bound (reject bound (width bound) tries t).1
      (reject bound (width bound) tries t).2 := by
  -- a number that is too large uses up one try, and the one that fits is a place nearer
  induction tries generalizing t i with
  | zero => exact absurd inside (Nat.not_lt_zero i)
  | succ tries ih =>
      rw [reject_succ]
      by_cases here : (t.bits (width bound)).1 < bound
      · rw [if_pos here]
        exact .taken here
      · rw [if_neg here]
        cases i with
        | zero => exact absurd fits here
        | succ i =>
            refine .again (Nat.not_lt.1 here) (ih (Nat.lt_of_succ_lt_succ inside) ?_)
            rwa [show (t.bits (width bound)).2 = skip 1 t from rfl, skip_add]

/-! ## Not giving up -/

/-- A word with its top bit zero fits every bound. -/
theorem bits_lt (positive : 0 < bound) (narrow : bound < 2 ^ 32)
    (low : t.next.1.toNat < 2 ^ 31) : (t.bits (width bound)).1 < bound := by
  have few : bound.log2 < 32 := (Nat.log2_lt positive.ne').2 narrow
  have split : 2 ^ 31 = 2 ^ bound.log2 * 2 ^ (32 - width bound) := by
    rw [← Nat.pow_add, width]
    congr 1
    omega
  refine Nat.lt_of_lt_of_le ?_ (Nat.log2_self_le positive.ne')
  rw [bits, Nat.pow_eq]
  exact Nat.div_lt_of_lt_mul (by rwa [Nat.mul_comm, ← split])

/-- Drawing below a bound never gives up. -/
theorem yields_below (whole : t.Whole) (positive : 0 < bound) (narrow : bound < 2 ^ 32) :
    t.Yields bound (t.below bound).1 (t.below bound).2 := by
  obtain ⟨i, soon, low⟩ := exists_next_lt whole
  exact yields_reject (Nat.lt_trans soon (by decide)) (bits_lt positive narrow low)

/-! ## Ranges -/

/-- What comes of drawing a number from `low` to just below `high` for as long as it takes. -/
def Lands (low high : Nat) (t : Twister) (n : Nat) (u : Twister) : Prop :=
  ∃ k, t.Yields (high - low) k u ∧ n = low + k

theorem Lands.mem {low high n : Nat} {u : Twister} (lands : t.Lands low high n u) :
    low ≤ n ∧ n < high := by
  obtain ⟨k, yields, rfl⟩ := lands
  have below := yields.lt
  omega

/-- Drawing from a range never gives up, and it may go on. -/
theorem exists_range_eq (whole : t.Whole) {low high : Nat} (ordered : low < high)
    (narrow : high - low < 2 ^ 32) :
    ∃ (n : Nat) (u : Twister), t.range low high = (n, u) ∧ t.Lands low high n u ∧ u.Whole := by
  have yields := yields_below whole (Nat.sub_pos_of_lt ordered) narrow
  exact ⟨_, _, rfl, ⟨_, yields, rfl⟩, yields.whole whole⟩

theorem exists_wide_eq (whole : t.Whole) (count : Nat) :
    ∃ (n : Nat) (u : Twister), t.wide count = (n, u) ∧ u.Whole := by
  induction count generalizing t with
  | zero => exact ⟨0, t, rfl, whole⟩
  | succ count ih =>
      obtain ⟨n, u, rest, whole'⟩ := ih (whole_skip whole 1)
      have step : wide (count + 1) t = (t.next.1.toNat + 0x100000000 * (wide count (skip 1 t)).1,
        (wide count (skip 1 t)).2) := rfl
      rw [rest] at step
      exact ⟨_, u, step, whole'⟩

end Vesting.Twister

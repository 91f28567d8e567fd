/-
# JSON whole numbers read back

A whole number is written with its decimal digits, without a leading zero. Main statement:
it reads as the number if nothing follows that could belong to it, unless it has more
characters than numbers may have.
-/

import Vesting.Json.Parser
import Vesting.Json.Printer

namespace Vesting.Json

variable {c : Char} {rest : List Char}

/-- Nothing stands here that could belong to a whole number before it. -/
def EndsNumber (rest : List Char) : Prop :=
  ∀ c ∈ rest.head?, isDigit c = false ∧ c ≠ '.' ∧ c ≠ 'e' ∧ c ≠ 'E'

theorem EndsNumber.nil : EndsNumber [] := by simp [EndsNumber]

theorem EndsNumber.cons (noDigit : isDigit c = false) (noPoint : c ≠ '.')
    (noExponent : c ≠ 'e' ∧ c ≠ 'E') : EndsNumber (c :: rest) := by
  simp [EndsNumber, noDigit, noPoint, noExponent]

theorem EndsNumber.readFraction (ends : EndsNumber rest) : readFraction rest = some ([], rest) := by
  unfold Json.readFraction
  split
  next tail => exact absurd rfl (ends '.' rfl).2.1
  next => rfl

theorem EndsNumber.readExponent (ends : EndsNumber rest) :
    readExponent rest = some (none, rest) := by
  cases rest with
  | nil => rfl
  | cons c rest =>
      obtain ⟨-, -, small, large⟩ := ends c rfl
      simp [Json.readExponent, small, large]

/-! ## Digits -/

theorem isDigit_of_mem_toDigits {n : Nat} (digit : c ∈ Nat.toDigits 10 n) : isDigit c = true := by
  have h := Nat.isDigit_of_mem_toDigits (by decide) (by decide) digit
  simpa [isDigit, Char.isDigit, Char.le_def] using h

theorem digitsToNat_toDigits (n : Nat) : digitsToNat (Nat.toDigits 10 n) = n :=
  Nat.ofDigitChars_ten_toDigits

/-- Only zero starts with a zero. -/
theorem head?_toDigits_ne_zero {n : Nat} (positive : 0 < n) :
    (Nat.toDigits 10 n).head? ≠ some '0' := by
  induction n using Nat.strongRecOn with
  | ind n ih =>
      rw [Nat.toDigits_eq_if (by decide)]
      split
      · simp; omega
      next large =>
        rw [List.head?_append, Option.or_of_isSome (by simp [Nat.toDigits_ne_nil])]
        exact ih (n / 10) (by omega) (by omega)

/-- There is no leading zero before other digits. -/
theorem noLeadingZero_toDigits (n : Nat) :
    ((Nat.toDigits 10 n).length > 1 && (Nat.toDigits 10 n).head? == some '0') = false := by
  rcases Nat.eq_zero_or_pos n with rfl | positive
  · rfl
  · simp [head?_toDigits_ne_zero positive]

theorem span_toDigits (n : Nat) (ends : EndsNumber rest) :
    (Nat.toDigits 10 n ++ rest).takeWhile isDigit = Nat.toDigits 10 n ∧
      (Nat.toDigits 10 n ++ rest).dropWhile isDigit = rest := by
  have digits : ∀ c ∈ Nat.toDigits 10 n, isDigit c = true := fun c => isDigit_of_mem_toDigits
  have stop : rest.takeWhile isDigit = [] ∧ rest.dropWhile isDigit = rest := by
    cases rest with
    | nil => simp
    | cons c rest => simp [(ends c rfl).1]
  rw [List.takeWhile_append_of_pos digits, List.dropWhile_append_of_pos digits, stop.1, stop.2,
    List.append_nil]
  exact ⟨rfl, rfl⟩

/-! ## Numbers -/

/-- A written number starts with its sign or with a digit. -/
theorem writeInt_head (n : Int) :
    ∃ c cs, writeInt n = c :: cs ∧ (c = '-' ∨ isDigit c = true) := by
  obtain ⟨d, digits, same⟩ :=
    List.exists_cons_of_ne_nil (Nat.toDigits_ne_nil (n := n.natAbs) (b := 10))
  unfold writeInt
  split
  · exact ⟨'-', _, rfl, .inl rfl⟩
  · exact ⟨d, digits, same, .inr (isDigit_of_mem_toDigits (same ▸ List.mem_cons_self))⟩

/-- Behind its sign, a written number reads as the number. -/
theorem readNumber_toDigits (n : Nat) (negative : Bool) (ends : EndsNumber rest)
    (short : (Nat.toDigits 10 n).length + (if negative then 1 else 0) ≤ longestInteger) :
    readNumber negative (Nat.toDigits 10 n ++ rest) =
      some (.int (if negative then -n else n), rest) := by
  obtain ⟨taken, left⟩ := span_toDigits n ends
  simp only [readNumber, taken, left, List.isEmpty_eq_false_iff.2 Nat.toDigits_ne_nil,
    noLeadingZero_toDigits, ends.readFraction, ends.readExponent, digitsToNat_toDigits]
  simp [Nat.not_lt.2 short]

/-- A scalar that starts with a digit is a number. -/
theorem readScalar_digit (digit : isDigit c = true) :
    readScalar (c :: rest) = readNumber false (c :: rest) := by
  unfold readScalar
  split <;> simp_all [isDigit]

/-- A written number in front of what does not belong to it reads as the number. -/
theorem readScalar_writeInt (n : Int) (ends : EndsNumber rest)
    (short : (writeInt n).length ≤ longestInteger) :
    readScalar (writeInt n ++ rest) = some (.int n, rest) := by
  obtain ⟨d, digits, same⟩ :=
    List.exists_cons_of_ne_nil (Nat.toDigits_ne_nil (n := n.natAbs) (b := 10))
  have digit : isDigit d = true := isDigit_of_mem_toDigits (same ▸ List.mem_cons_self)
  have reads (negative : Bool) := readNumber_toDigits n.natAbs negative ends
  rw [same] at reads
  unfold writeInt at short ⊢
  by_cases negative : n < 0
  · rw [if_pos negative, same] at short ⊢
    have noName : d ≠ 'I' := by
      rintro rfl
      simp [isDigit] at digit
    have signed : readScalar ('-' :: d :: (digits ++ rest)) =
        readNumber true (d :: (digits ++ rest)) := by
      unfold readScalar
      split <;> simp_all
    have whole : -(n.natAbs : Int) = n := by omega
    have read := reads true short
    simp only [if_true, whole] at read
    rw [List.cons_append, List.cons_append, signed]
    exact read
  · rw [if_neg negative, same] at short ⊢
    have whole : (n.natAbs : Int) = n := by omega
    have read := reads false short
    simp only [Bool.false_eq_true, if_false, whole] at read
    rw [List.cons_append, readScalar_digit digit]
    exact read

end Vesting.Json

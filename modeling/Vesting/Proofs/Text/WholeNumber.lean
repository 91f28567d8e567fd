/-
# Written whole numbers read back

A whole number is written with its decimal digits alone, without a sign, an underscore or white
space. Main statement: a field reads these digits as the number, unless there are more of them
than numbers may have.
-/

import Vesting.Text.WholeNumber

namespace Vesting.Text

variable {c : Char} {cs : List Char}

/-- Without blank characters there is nothing to remove. -/
theorem trim_eq_self {blank : Char → Bool} (none : ∀ c ∈ cs, blank c = false) :
    trim blank cs = cs := by
  have kept (ds : List Char) (none : ∀ c ∈ ds, blank c = false) : ds.dropWhile blank = ds := by
    cases ds with
    | nil => rfl
    | cons c ds => simp [none c List.mem_cons_self]
  have back : ∀ c ∈ cs.reverse, blank c = false := fun c member => none c (List.mem_reverse.1 member)
  rw [trim, kept cs none, kept cs.reverse back, List.reverse_reverse]

/-! ## Digits -/

/-- The code points of the digits. -/
theorem toNat_of_isDigit (digit : c.isDigit = true) : 48 ≤ c.toNat ∧ c.toNat ≤ 57 := by
  simpa [Char.isDigit, Char.le_def, UInt32.le_iff_toNat_le] using digit

theorem isBlank_of_isDigit (digit : c.isDigit = true) : isBlank c = false := by
  obtain ⟨low, high⟩ := toNat_of_isDigit digit
  simp only [isBlank, isWhiteSpace, CodePoints.contains, whiteSpace, CodePoints.scan]
  grind

theorem isWhiteSpace_of_isDigit (digit : c.isDigit = true) : isWhiteSpace c = false := by
  have blank := isBlank_of_isDigit digit
  rw [isBlank, Bool.or_eq_false_iff] at blank
  exact blank.1

theorem asciiDigit?_of_isDigit (digit : c.isDigit = true) :
    asciiDigit? c = some (c.toNat - 48) := by
  have bounds : ('0' ≤ c && c ≤ '9') = true := by simpa [Char.isDigit, Char.le_def] using digit
  rw [asciiDigit?, if_pos bounds]

theorem ne_of_isDigit {d : Char} (digit : c.isDigit = true) (other : d.isDigit = false) :
    c ≠ d := by
  rintro rfl
  rw [digit] at other
  cases other

/-- The values of digits. -/
def digitValues (cs : List Char) : List Nat := cs.map fun c => c.toNat - 48

theorem moreDigits_of_isDigit (digits : ∀ c ∈ cs, c.isDigit = true) :
    moreDigits asciiDigit? cs = (digitValues cs, []) := by
  induction cs with
  | nil => rfl
  | cons c cs ih =>
      obtain ⟨digit, others⟩ := List.forall_mem_cons.1 digits
      have plain : c ≠ '_' := ne_of_isDigit digit rfl
      rw [moreDigits.eq_def]
      split
      · next same => cases same
      · next same => exact absurd (List.cons.inj same).1 plain
      · next same =>
          cases same
          simp only [asciiDigit?_of_isDigit digit, ih others, digitValues, List.map_cons]

theorem splitDigits_of_isDigit (digits : ∀ c ∈ cs, c.isDigit = true) :
    splitDigits asciiDigit? cs = (digitValues cs, []) := by
  cases cs with
  | nil => rfl
  | cons c cs =>
      obtain ⟨digit, others⟩ := List.forall_mem_cons.1 digits
      simp only [splitDigits, asciiDigit?_of_isDigit digit, moreDigits_of_isDigit others,
        digitValues, List.map_cons]

theorem splitSign_of_isDigit (digits : ∀ c ∈ cs, c.isDigit = true) :
    splitSign cs = (false, cs) := by
  unfold splitSign
  split
  · exact absurd (digits '-' List.mem_cons_self) (by decide)
  · exact absurd (digits '+' List.mem_cons_self) (by decide)
  · rfl

/-! ## Numbers -/

theorem isDigit_of_mem_toDigits_ten {n : Nat} (member : c ∈ Nat.toDigits 10 n) :
    c.isDigit = true :=
  Nat.isDigit_of_mem_toDigits (by decide) (by decide) member

theorem ofDigits_toDigits (n : Nat) : ofDigits (digitValues (Nat.toDigits 10 n)) = n := by
  rw [ofDigits, digitValues, List.foldl_map]
  exact Nat.ofDigitChars_ten_toDigits

/-- The digits of a number are read as the number. -/
theorem readFieldNumber_toString (n : Nat) (short : (Nat.toDigits 10 n).length ≤ longestWhole) :
    readFieldNumber (toString n) = .ok n := by
  have digits : ∀ c ∈ Nat.toDigits 10 n, c.isDigit = true := fun c => isDigit_of_mem_toDigits_ten
  have trimmed : trim isWhiteSpace (Nat.toDigits 10 n) = Nat.toDigits 10 n :=
    trim_eq_self fun c member => isWhiteSpace_of_isDigit (digits c member)
  have some : (digitValues (Nat.toDigits 10 n)).isEmpty = false := by
    simp [digitValues, Nat.toDigits_ne_nil]
  have size : ¬ longestWhole < ((digitValues (Nat.toDigits 10 n)).dropWhile (· == 0)).length := by
    have fewer := (List.dropWhile_sublist (· == 0) (l := digitValues (Nat.toDigits 10 n))).length_le
    rw [digitValues, List.length_map] at fewer
    exact Nat.not_lt.2 (Nat.le_trans fewer short)
  simp [readFieldNumber, trimmed, splitSign_of_isDigit digits,
    splitDigits_of_isDigit digits, some, size, signed, ofDigits_toDigits]

end Vesting.Text

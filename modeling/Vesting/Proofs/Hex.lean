/-
# What is read as a byte string

The `0x` form of a byte string is meant to be two digits a byte behind the prefix, in either
case, and nothing else. Every text of this form is read, and writing what was read gives the
text in lower case; a text without white space that is not of this form is refused.

With white space more is read than is meant to be: it may stand between the pairs of digits,
before the first one and behind the last one, as long as the number of all characters behind
the prefix stays even. So a byte string has other spellings than its `0x` form.
-/

import Vesting.Failure

namespace Vesting

namespace Text

/-- The hexadecimal digits of either case. -/
def hexDigitChars : List Char := "0123456789abcdefABCDEF".toList

variable {c : Char} {n : Nat}

theorem exists_hexValue?_of_mem (digit : c ∈ hexDigitChars) : ∃ n, hexValue? c = some n := by
  have all : hexDigitChars.all (fun c => (hexValue? c).isSome) = true := by decide
  exact Option.isSome_iff_exists.1 (List.all_eq_true.1 all c digit)

/-- Only digits have a value, whose written digit is their lower case. -/
theorem digit_of_hexValue? (value : hexValue? c = some n) :
    c ∈ hexDigitChars ∧ hexDigit n = c.toLower := by
  have all : ∀ k : Fin 128, ∀ n ∈ hexValue? (Char.ofNat k),
      Char.ofNat k ∈ hexDigitChars ∧ hexDigit n = (Char.ofNat k).toLower := by decide
  have ascii : c.toNat < 128 := by
    simp only [hexValue?] at value
    grind
  have here := all ⟨c.toNat, ascii⟩ n
  rw [Char.ofNat_toNat] at here
  exact here value

end Text

namespace Hex

open Text (hexDigitChars)

variable {c : Char} {cs : List Char} {b : Bytes} {text : String}

theorem isGap_of_mem_hexDigitChars (digit : c ∈ hexDigitChars) : isGap c = false := by
  have all : hexDigitChars.all (fun c => !isGap c) = true := by decide
  simpa using List.all_eq_true.1 all c digit

/-- Pairs of digits, with white space before, between and behind them. -/
inductive Spaced : List Char → Prop
  | nil : Spaced []
  | gap {c : Char} {cs : List Char} (white : isGap c = true) (more : Spaced cs) : Spaced (c :: cs)
  | pair {c d : Char} {cs : List Char} (high : c ∈ hexDigitChars) (low : d ∈ hexDigitChars)
      (more : Spaced cs) : Spaced (c :: d :: cs)

/-- What is left of some characters without white space, in lower case. -/
def settled (cs : List Char) : List Char := (cs.filter fun c => !isGap c).map Char.toLower

theorem settled_cons_gap (white : isGap c = true) : settled (c :: cs) = settled cs := by
  simp [settled, white]

theorem settled_cons_digit (digit : c ∈ hexDigitChars) :
    settled (c :: cs) = c.toLower :: settled cs := by
  simp [settled, isGap_of_mem_hexDigitChars digit]

theorem settled_of_no_gap (none : ∀ c ∈ cs, isGap c = false) :
    settled cs = cs.map Char.toLower := by
  rw [settled, List.filter_eq_self.2]
  intro c member
  rw [none c member, Bool.not_false]

theorem encode_cons_ofNat {high low : Nat} (small : high < 16) (small' : low < 16) (b : Bytes) :
    encode (UInt8.ofNat (16 * high + low) :: b) =
      Text.hexDigit high :: Text.hexDigit low :: encode b := by
  have byte : (UInt8.ofNat (16 * high + low)).toNat = 16 * high + low := by simp; omega
  have first : (16 * high + low) / 16 = high := by omega
  have second : (16 * high + low) % 16 = low := by omega
  rw [encode, byte, first, second]

/-- Nothing but spaced pairs of digits is read, and what is read has these digits. -/
theorem spaced_and_encode_of_decode (reads : decode cs = some b) :
    Spaced cs ∧ encode b = settled cs := by
  fun_induction decode cs generalizing b with
  | case1 =>
      cases reads
      exact ⟨.nil, rfl⟩
  | case2 c white =>
      cases reads
      exact ⟨.gap white .nil, by rw [settled_cons_gap white]; rfl⟩
  | case3 c => cases reads
  | case4 c d rest white ih =>
      obtain ⟨spaced, same⟩ := ih reads
      exact ⟨.gap white spaced, same.trans (settled_cons_gap white).symm⟩
  | case5 c d rest _ high low second first ih =>
      obtain ⟨tail, readsTail, rfl⟩ := Option.map_eq_some_iff.1 reads
      obtain ⟨spaced, same⟩ := ih readsTail
      obtain ⟨digit, lower⟩ := Text.digit_of_hexValue? first
      obtain ⟨digit', lower'⟩ := Text.digit_of_hexValue? second
      refine ⟨.pair digit digit' spaced, ?_⟩
      rw [encode_cons_ofNat (Text.hexValue?_lt first) (Text.hexValue?_lt second), lower, lower',
        same, settled_cons_digit digit, settled_cons_digit digit']
  | case6 => cases reads

/-- Spaced pairs of digits are read. -/
theorem exists_decode_of_spaced (spaced : Spaced cs) : ∃ b, decode cs = some b := by
  induction spaced with
  | nil => exact ⟨[], rfl⟩
  | @gap c cs white _ ih =>
      obtain ⟨b, reads⟩ := ih
      cases cs with
      | nil => exact ⟨[], by rw [decode, if_pos white]⟩
      | cons d rest => exact ⟨b, by rw [decode, if_pos white, reads]⟩
  | pair high low _ ih =>
      obtain ⟨b, reads⟩ := ih
      obtain ⟨m, first⟩ := Text.exists_hexValue?_of_mem high
      obtain ⟨n, second⟩ := Text.exists_hexValue?_of_mem low
      refine ⟨UInt8.ofNat (16 * m + n) :: b, ?_⟩
      simp [decode, isGap_of_mem_hexDigitChars high, first, second, reads]

theorem decode_eq_some_iff : decode cs = some b ↔ Spaced cs ∧ encode b = settled cs := by
  constructor
  · exact spaced_and_encode_of_decode
  · rintro ⟨spaced, same⟩
    obtain ⟨other, reads⟩ := exists_decode_of_spaced spaced
    have digits : encode b = encode other := same.trans (spaced_and_encode_of_decode reads).2.symm
    have back : some b = some other := by rw [← decode_encode b, digits, decode_encode]
    rw [reads, back]

theorem spaced_of_digits : ∀ {cs : List Char}, cs.length % 2 = 0 → (∀ c ∈ cs, c ∈ hexDigitChars) →
    Spaced cs
  | [], _, _ => .nil
  | [_], even, _ => nomatch even
  | c :: d :: rest, even, digits => by
      obtain ⟨high, low, more⟩ : c ∈ hexDigitChars ∧ d ∈ hexDigitChars ∧
          ∀ e ∈ rest, e ∈ hexDigitChars := by simpa using digits
      rw [List.length_cons, List.length_cons] at even
      exact .pair high low (spaced_of_digits (by omega) more)

/-- Without white space, spaced pairs of digits are digits. -/
theorem Spaced.digits (spaced : Spaced cs) (none : ∀ c ∈ cs, isGap c = false) :
    ∀ c ∈ cs, c ∈ hexDigitChars := by
  induction spaced with
  | nil => nofun
  | @gap c cs white _ _ => exact absurd (none c List.mem_cons_self) (by simp [white])
  | pair high low _ ih => simp_all

/-! ## Texts -/

theorem ofHex_eq_ok_iff_decode : ofHex text = .ok b ↔
    ∃ cs, text.toList = '0' :: 'x' :: cs ∧ cs.length % 2 = 0 ∧ decode cs = some b := by
  constructor
  · intro reads
    unfold ofHex at reads
    split at reads
    · next cs spelled =>
        split at reads
        · cases reads
        · next even =>
            split at reads
            · next b found =>
                cases reads
                exact ⟨cs, spelled, Decidable.not_not.1 even, found⟩
            · cases reads
    · cases reads
  · rintro ⟨cs, spelled, even, found⟩
    simp [ofHex, spelled, even, found]

/-- The form that byte strings are meant to be given in: the prefix, and behind it an even
number of digits and nothing else. -/
def IsForm (text : String) : Prop :=
  ∃ cs, text.toList = '0' :: 'x' :: cs ∧ cs.length % 2 = 0 ∧ ∀ c ∈ cs, c ∈ hexDigitChars

/-- A text in lower case, as far as hexadecimal digits go. -/
def lower (text : String) : String := String.ofList (text.toList.map Char.toLower)

/-- A byte string is read from a text exactly if there are spaced pairs of digits behind the
prefix, in an even number of characters; writing it gives the digits in lower case. So every
text of the form that is meant is read, and written in lower case, and a text without white
space that is not of this form is refused. -/
theorem ofHex_reads_spaced (text : String) :
    (∀ b : Bytes, ofHex text = .ok b ↔
      ∃ cs, text.toList = '0' :: 'x' :: cs ∧ cs.length % 2 = 0 ∧ Spaced cs ∧
        toHex b = String.ofList ('0' :: 'x' :: settled cs)) ∧
    (IsForm text → ∃ b : Bytes, ofHex text = .ok b ∧ toHex b = lower text) ∧
    (¬ IsForm text → (∀ c ∈ text.toList, isGap c = false) →
      ∃ fault : Fault, ofHex text = .error fault ∧ (Failure.notHex fault).kind = "ValueError") := by
  have written (b : Bytes) (cs : List Char) :
      toHex b = String.ofList ('0' :: 'x' :: cs) ↔ encode b = cs := by
    simp [toHex, String.ofList_inj]
  have exact (b : Bytes) : ofHex text = .ok b ↔
      ∃ cs, text.toList = '0' :: 'x' :: cs ∧ cs.length % 2 = 0 ∧ Spaced cs ∧
        toHex b = String.ofList ('0' :: 'x' :: settled cs) := by
    simp only [ofHex_eq_ok_iff_decode, decode_eq_some_iff, written]
  refine ⟨exact, ?_, ?_⟩
  · rintro ⟨cs, spelled, even, digits⟩
    have spaced := spaced_of_digits even digits
    obtain ⟨b, found⟩ := exists_decode_of_spaced spaced
    refine ⟨b, ofHex_eq_ok_iff_decode.2 ⟨cs, spelled, even, found⟩, ?_⟩
    have plain := settled_of_no_gap fun c member => isGap_of_mem_hexDigitChars (digits c member)
    rw [lower, spelled, List.map_cons, List.map_cons, ← plain]
    exact (written b _).2 (decode_eq_some_iff.1 found).2
  · intro other none
    cases outcome : ofHex text with
    | error fault => exact ⟨fault, rfl, rfl⟩
    | ok b =>
        obtain ⟨cs, spelled, even, spaced, -⟩ := (exact b).1 outcome
        rw [spelled] at none
        have digits := spaced.digits fun c member => none c (.tail _ (.tail _ member))
        exact absurd ⟨cs, spelled, even, digits⟩ other

/-- Digits of both cases are read; a text that is no form is refused. -/
theorem ofHex_reads_spaced_mixed :
    (IsForm "0xAbC0" ∧ ∃ b : Bytes, ofHex "0xAbC0" = .ok b ∧ toHex b = "0xabc0") ∧
      (¬ IsForm "0XAB" ∧ (∀ c ∈ "0XAB".toList, isGap c = false) ∧
        ∃ fault : Fault, ofHex "0XAB" = .error fault) := by
  have digits : ['A', 'b', 'C', '0'].all hexDigitChars.contains = true := by decide
  have form : IsForm "0xAbC0" := ⟨['A', 'b', 'C', '0'], rfl, rfl, fun c member =>
    List.contains_iff_mem.1 (List.all_eq_true.1 digits c member)⟩
  have other : ¬ IsForm "0XAB" := fun ⟨cs, spelled, _⟩ => absurd spelled (by simp)
  have none : ∀ c ∈ "0XAB".toList, isGap c = false := by simp [isGap]
  obtain ⟨b, reads, writes⟩ := (ofHex_reads_spaced "0xAbC0").2.1 form
  obtain ⟨fault, refused, -⟩ := (ofHex_reads_spaced "0XAB").2.2 other none
  exact ⟨⟨form, b, reads, writes⟩, other, none, fault, refused⟩

/-- Two blanks behind the digits are passed over, so a byte has a second spelling. -/
theorem ofHex_reads_blanks :
    ofHex "0xab  " = .ok [0xab] ∧ ¬ IsForm "0xab  " ∧ toHex [0xab] ≠ lower "0xab  " := by
  refine ⟨rfl, ?_, by decide⟩
  rintro ⟨cs, spelled, -, digits⟩
  obtain rfl : ['a', 'b', ' ', ' '] = cs := by simpa using spelled
  have blank : ' ' ∉ hexDigitChars := by decide
  exact blank (digits ' ' (by simp))

end Hex

end Vesting

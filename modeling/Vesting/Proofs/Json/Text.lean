/-
# JSON strings read back

A character is written as itself, as a backslash and a letter, or as the escapes of its
UTF-16 units. Main statement: in every style, what is written for a text and followed by
anything reads as the text, and what follows is left.

The reader goes over a string twice: it looks for the closing quote first and replaces the
escapes afterwards. Both passes are lemmas about one written character, by the three ways of
writing it; the loops are inductions on the text.
-/

import Vesting.Json.Parser
import Vesting.Json.Printer

namespace Vesting.Json

variable {style : Style} {c : Char} {rest : List Char}

/-! ## Codes -/

/-- Four written digits read as the unit that they stand for. -/
theorem readUnit_hexDigits {unit : Nat} (small : unit < 0x10000) :
    readUnit (Text.hexDigits 4 unit ++ rest) = some (unit, rest) := by
  have whole : ((unit / 16 / 16 / 16 % 16 * 16 + unit / 16 / 16 % 16) * 16 + unit / 16 % 16) * 16 +
      unit % 16 = unit := by omega
  have digit (n : Nat) : Text.hexValue? (Text.hexDigit (n % 16)) = some (n % 16) :=
    Text.hexValue?_hexDigit (Nat.mod_lt n (by decide))
  simp [Text.hexDigits, readUnit, digit, whole]

theorem readCodeEscape_unit {unit : Nat} (small : unit < 0x10000)
    (alone : unit < 0xd800 ∨ 0xdfff < unit) :
    readCodeEscape (Text.hexDigits 4 unit ++ rest) = some (Char.ofNat unit, rest) := by
  simp [readCodeEscape, readUnit_hexDigits small, alone]

theorem readCodeEscape_pair {high low : Nat} (isHigh : 0xd800 ≤ high ∧ high ≤ 0xdbff)
    (isLow : 0xdc00 ≤ low ∧ low ≤ 0xdfff) :
    readCodeEscape (Text.hexDigits 4 high ++ unitEscape low ++ rest) =
      some (Char.ofNat (0x10000 + (high - 0xd800) * 1024 + (low - 0xdc00)), rest) := by
  have surrogate : ¬(high < 0xd800 ∨ 0xdfff < high) := by omega
  have first : ¬ 0xdbff < high := by omega
  simp [readCodeEscape, unitEscape, readUnit_hexDigits (show high < 0x10000 by omega),
    readUnit_hexDigits (show low < 0x10000 by omega), surrogate, first, isLow]

/-- Behind the first backslash and `u`, the escapes of a character read as the character. -/
theorem readCodeEscape_codeEscape (c : Char) (rest : List Char) :
    ∃ digits, codeEscape c = '\\' :: 'u' :: digits ∧
      readCodeEscape (digits ++ rest) = some (c, rest) := by
  have valid : c.toNat < 0xd800 ∨ (0xdfff < c.toNat ∧ c.toNat < 0x110000) := c.valid
  have back : Char.ofNat c.toNat = c := Char.ofNat_toNat c
  unfold codeEscape
  by_cases small : c.toNat < 0x10000
  · refine ⟨Text.hexDigits 4 c.toNat, if_pos small, ?_⟩
    rw [readCodeEscape_unit small (by omega), back]
  · refine ⟨Text.hexDigits 4 (0xd800 + (c.toNat - 0x10000) / 1024) ++
      unitEscape (0xdc00 + (c.toNat - 0x10000) % 1024), if_neg small, ?_⟩
    rw [readCodeEscape_pair (by omega) (by omega)]
    have whole : 0x10000 + (0xd800 + (c.toNat - 0x10000) / 1024 - 0xd800) * 1024 +
        (0xdc00 + (c.toNat - 0x10000) % 1024 - 0xdc00) = c.toNat := by omega
    rw [whole, back]

/-! ## One written character -/

/-- The ways in which a character is written. -/
inductive Spells (c : Char) : List Char → Prop
  | plain (printable : 32 ≤ c.toNat) (noQuote : c ≠ '"') (noEscape : c ≠ '\\') : Spells c [c]
  | short {e : Char} (known : shortEscape? e = some c) : Spells c ['\\', e]
  | code : Spells c (codeEscape c)

theorem spells_escape (style : Style) (c : Char) : Spells c (escape style c) := by
  have number {n : Nat} (same : c.toNat = n) : c = Char.ofNat n :=
    same ▸ (Char.ofNat_toNat c).symm
  simp only [escape, beq_iff_eq]
  split
  next quote => subst quote; exact .short rfl
  split
  next backslash => subst backslash; exact .short rfl
  split
  next newline => subst newline; exact .short rfl
  split
  next ret => subst ret; exact .short rfl
  split
  next tab => subst tab; exact .short rfl
  split
  next back => exact .short (congrArg some (number back).symm)
  split
  next feed => exact .short (congrArg some (number feed).symm)
  split
  next => exact .code
  next noQuote noBackslash _ _ _ _ _ printable =>
    exact .plain (by simp at printable; omega) noQuote noBackslash

theorem Spells.ne_nil {piece : List Char} (h : Spells c piece) : piece ≠ [] := by
  cases h with
  | code =>
      obtain ⟨digits, same, -⟩ := readCodeEscape_codeEscape c []
      simp [same]
  | _ => simp

/-! The search for the closing quote goes past a written character. -/

theorem splitString_append {piece : List Char} (plain : ∀ c ∈ piece, c ≠ '"' ∧ c ≠ '\\')
    (read : List Char) :
    splitString read (piece ++ rest) = splitString (piece.reverse ++ read) rest := by
  induction piece generalizing read with
  | nil => rfl
  | cons c piece ih =>
      obtain ⟨⟨noQuote, noBackslash⟩, plain⟩ := List.forall_mem_cons.1 plain
      rw [List.cons_append, splitString.eq_def]
      split <;> simp_all

theorem hexDigits_plain (width n : Nat) :
    ∀ c ∈ Text.hexDigits width n, c ≠ '"' ∧ c ≠ '\\' := by
  have digit : ∀ k : Fin 16, Text.hexDigit k ≠ '"' ∧ Text.hexDigit k ≠ '\\' := by decide
  induction width generalizing n with
  | zero => simp [Text.hexDigits]
  | succ width ih =>
      simp only [Text.hexDigits, List.mem_append, List.mem_singleton]
      rintro c (before | rfl)
      · exact ih _ c before
      · exact digit ⟨n % 16, Nat.mod_lt n (by decide)⟩

theorem splitString_unitEscape (unit : Nat) (read : List Char) :
    splitString read (unitEscape unit ++ rest) =
      splitString ((unitEscape unit).reverse ++ read) rest := by
  simp [unitEscape, splitString, splitString_append (hexDigits_plain 4 unit)]

theorem Spells.splitString {piece : List Char} (h : Spells c piece) (read : List Char) :
    splitString read (piece ++ rest) = splitString (piece.reverse ++ read) rest := by
  cases h with
  | plain _ noQuote noBackslash => exact splitString_append (by simp [noQuote, noBackslash]) read
  | short _ => simp [Json.splitString]
  | code =>
      simp only [codeEscape]
      split
      · exact splitString_unitEscape c.toNat read
      · simp [splitString_unitEscape]

/-- Replacing escapes turns a written character into the character. -/
theorem Spells.unescape {piece : List Char} (h : Spells c piece) (fuel : Nat) (read : List Char) :
    unescape (fuel + 1) read (piece ++ rest) = unescape fuel (c :: read) rest := by
  cases h with
  | plain printable _ noBackslash =>
      have printable : ¬ c.toNat < 32 := by omega
      simp [Json.unescape, printable, noBackslash]
  | @short e known =>
      have noCode : e ≠ 'u' := by
        rintro rfl
        simp [shortEscape?] at known
      simp [Json.unescape, known]
  | code =>
      obtain ⟨digits, same, reads⟩ := readCodeEscape_codeEscape c rest
      simp [same, Json.unescape, reads]

/-! ## Whole texts -/

theorem splitString_flatMap (cs read : List Char) :
    splitString read (cs.flatMap (escape style) ++ '"' :: rest) =
      some (read.reverse ++ cs.flatMap (escape style), rest) := by
  induction cs generalizing read with
  | nil => simp [splitString]
  | cons c cs ih =>
      rw [List.flatMap_cons, List.append_assoc, (spells_escape style c).splitString, ih,
        List.reverse_append, List.reverse_reverse, List.append_assoc]

/-- The number of written characters is enough fuel, as every one is of the text or of an
escape for one of the text. -/
theorem unescape_flatMap (cs read : List Char) {fuel : Nat}
    (enough : (cs.flatMap (escape style)).length ≤ fuel) :
    unescape fuel read (cs.flatMap (escape style)) = some (read.reverse ++ cs) := by
  induction cs generalizing fuel read with
  | nil => cases fuel <;> simp [unescape]
  | cons c cs ih =>
      have spelt := spells_escape style c
      have taken : 0 < (escape style c).length := List.length_pos_iff.2 spelt.ne_nil
      rw [List.flatMap_cons, List.length_append] at enough
      obtain ⟨fuel, rfl⟩ := Nat.exists_eq_add_one.2 (by omega : 0 < fuel)
      rw [List.flatMap_cons, spelt.unescape, ih _ (by omega), List.reverse_cons,
        List.append_assoc, List.singleton_append]

/-- Behind its opening quote, a written text reads as the text. -/
theorem readString_escape (s : String) :
    readString (s.toList.flatMap (escape style) ++ '"' :: rest) = some (s, rest) := by
  simp [readString, splitString_flatMap, unescape_flatMap]

end Vesting.Json

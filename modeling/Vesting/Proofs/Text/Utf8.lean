/-
# Text survives its bytes

A text is kept as the UTF-8 bytes of its characters. Main statements: what is read from
these bytes is the text, without a fault; no other bytes are read without a fault; and it
does not matter in what parts the bytes are read.

The reader decides by the first byte how many bytes a character has, and by the second
whether its spelling is too long, a surrogate or out of range. For each width there is one
lemma about what is read and one about how it is written; that a written character meets
the conditions of the one, and a character that is read those of the other, is arithmetic on
its number.
-/

import Vesting.Text.Utf8

namespace Vesting.Text

/-! ## One character off the front -/

variable {a b c d : UInt8} {rest : Bytes}

theorem continues_iff {low high : UInt8} :
    continues low high b = true ↔ low.toNat ≤ b.toNat ∧ b.toNat ≤ high.toNat := by
  simp [continues, UInt8.le_iff_toNat_le]

/-- The second byte fits the first one. -/
structure Pairs (a b : UInt8) : Prop where
  low : 0x80 ≤ b.toNat
  high : b.toNat < 0xc0
  shortest₃ : a.toNat = 0xe0 → 0xa0 ≤ b.toNat
  noSurrogate : a.toNat = 0xed → b.toNat < 0xa0
  shortest₄ : a.toNat = 0xf0 → 0x90 ≤ b.toNat
  inRange : a.toNat = 0xf4 → b.toNat < 0x90

theorem Pairs.continues (h : Pairs a b) :
    continues (secondBounds a).1 (secondBounds a).2 b = true := by
  obtain ⟨low, high, h₁, h₂, h₃, h₄⟩ := h
  rw [continues_iff]
  simp only [secondBounds, beq_iff_eq, ← UInt8.toNat_inj, UInt8.reduceToNat]
  split
  · exact ⟨h₁ ‹_›, by simp; omega⟩
  split
  · exact ⟨low, by simp; grind⟩
  split
  · exact ⟨h₃ ‹_›, by simp; omega⟩
  split
  · exact ⟨low, by simp; grind⟩
  · exact ⟨low, by simp; omega⟩

theorem Pairs.of_bounds {low high : UInt8} (bounds : secondBounds a = (low, high))
    (fits : ¬(!Text.continues low high b) = true) : Pairs a b := by
  rw [Bool.not_eq_true', Bool.not_eq_false] at fits
  obtain ⟨rfl, rfl⟩ : (secondBounds a).1 = low ∧ (secondBounds a).2 = high := by simp [bounds]
  simp only [secondBounds, continues_iff, beq_iff_eq, ← UInt8.toNat_inj, UInt8.reduceToNat]
    at fits
  have bounds : (a.toNat = 0xe0 → 0xa0 ≤ b.toNat) ∧ (a.toNat = 0xed → b.toNat < 0xa0) ∧
      (a.toNat = 0xf0 → 0x90 ≤ b.toNat) ∧ (a.toNat = 0xf4 → b.toNat < 0x90) ∧
      0x80 ≤ b.toNat ∧ b.toNat < 0xc0 := by
    split at fits
    · simp at fits; omega
    split at fits
    · simp at fits; omega
    split at fits
    · simp at fits; omega
    split at fits <;> simp at fits <;> omega
  obtain ⟨h₁, h₂, h₃, h₄, low, high⟩ := bounds
  exact ⟨low, high, h₁, h₂, h₃, h₄⟩

/-- A byte that can stand behind the second one of a character. -/
def IsTail (b : UInt8) : Prop := 0x80 ≤ b.toNat ∧ b.toNat < 0xc0

theorem IsTail.continues (h : IsTail b) : continues 0x80 0xbf b = true := by
  obtain ⟨low, high⟩ := h
  exact continues_iff.2 ⟨low, by simp; omega⟩

theorem IsTail.of_continues (fits : ¬(!Text.continues 0x80 0xbf b) = true) : IsTail b := by
  rw [Bool.not_eq_true', Bool.not_eq_false] at fits
  have bounds := continues_iff.1 fits
  simp only [UInt8.reduceToNat] at bounds
  exact ⟨bounds.1, by omega⟩

/-! What is read behind a first byte, for each number of bytes that it may announce. -/

theorem utf8Step_one (small : a.toNat < 0x80) :
    utf8Step (a :: rest) = .read (Char.ofNat a.toNat) 1 := by
  rw [utf8Step, if_pos (UInt8.lt_iff_toNat_lt.2 small)]

theorem utf8Step_two (starts : 0xc2 ≤ a.toNat) (width : a.toNat < 0xe0) (pairs : Pairs a b) :
    utf8Step (a :: b :: rest) = .read (Char.ofNat (a.toNat % 32 * 64 + payload b)) 2 := by
  simp only [utf8Step, pairs.continues]
  grind [UInt8.lt_iff_toNat_lt]

theorem utf8Step_three (starts : 0xe0 ≤ a.toNat) (width : a.toNat < 0xf0) (pairs : Pairs a b)
    (tail : IsTail c) :
    utf8Step (a :: b :: c :: rest) =
      .read (Char.ofNat ((a.toNat % 16 * 64 + payload b) * 64 + payload c)) 3 := by
  simp only [utf8Step, pairs.continues, tail.continues]
  grind [UInt8.lt_iff_toNat_lt]

theorem utf8Step_four (starts : 0xf0 ≤ a.toNat) (width : a.toNat ≤ 0xf4) (pairs : Pairs a b)
    (third : IsTail c) (fourth : IsTail d) :
    utf8Step (a :: b :: c :: d :: rest) = .read (Char.ofNat
      (((a.toNat % 8 * 64 + payload b) * 64 + payload c) * 64 + payload d)) 4 := by
  simp only [utf8Step, pairs.continues, third.continues, fourth.continues]
  grind [UInt8.lt_iff_toNat_lt]

/-- A character's bytes read as the character, whatever follows them. -/
theorem utf8Step_encode (c : Char) (rest : Bytes) :
    utf8Step (String.utf8EncodeChar c ++ rest) =
      .read c (String.utf8EncodeChar c).length := by
  have valid : c.toNat < 0xd800 ∨ (0xdfff < c.toNat ∧ c.toNat < 0x110000) := c.valid
  have number : c.val.toNat = c.toNat := rfl
  fun_cases String.utf8EncodeChar c with
  | case1 n small =>
      have first : (UInt8.ofNat n).toNat = n := by simp; omega
      rw [List.singleton_append, utf8Step_one (by omega), first]
      exact congrArg (Utf8Step.read · 1) (Char.ofNat_toNat c)
  | case2 n large small =>
      have first : (UInt8.ofNat (n / 64 % 0x20 + 0xc0)).toNat = n / 64 + 0xc0 := by simp; omega
      have second : (UInt8.ofNat (n % 0x40 + 0x80)).toNat = n % 0x40 + 0x80 := by simp; omega
      have whole : (n / 64 + 0xc0) % 32 * 64 + (n % 0x40 + 0x80) % 64 = n := by omega
      rw [List.cons_append, List.singleton_append,
        utf8Step_two (by omega) (by omega) (by constructor <;> omega), payload, first, second,
        whole]
      exact congrArg (Utf8Step.read · 2) (Char.ofNat_toNat c)
  | case3 n large large' small =>
      have first : (UInt8.ofNat (n / 4096 % 0x10 + 0xe0)).toNat = n / 4096 + 0xe0 := by simp; omega
      have second : (UInt8.ofNat (n / 64 % 0x40 + 0x80)).toNat = n / 64 % 0x40 + 0x80 := by
        simp; omega
      have third : (UInt8.ofNat (n % 0x40 + 0x80)).toNat = n % 0x40 + 0x80 := by simp; omega
      have whole : ((n / 4096 + 0xe0) % 16 * 64 + (n / 64 % 0x40 + 0x80) % 64) * 64 +
          (n % 0x40 + 0x80) % 64 = n := by omega
      rw [List.cons_append, List.cons_append, List.singleton_append,
        utf8Step_three (by omega) (by omega) (by constructor <;> omega) (by constructor <;> omega),
        payload, payload, first, second, third, whole]
      exact congrArg (Utf8Step.read · 3) (Char.ofNat_toNat c)
  | case4 n large large' large'' =>
      have first : (UInt8.ofNat (n / 262144 % 0x08 + 0xf0)).toNat = n / 262144 + 0xf0 := by
        simp; omega
      have second : (UInt8.ofNat (n / 4096 % 0x40 + 0x80)).toNat = n / 4096 % 0x40 + 0x80 := by
        simp; omega
      have third : (UInt8.ofNat (n / 64 % 0x40 + 0x80)).toNat = n / 64 % 0x40 + 0x80 := by
        simp; omega
      have fourth : (UInt8.ofNat (n % 0x40 + 0x80)).toNat = n % 0x40 + 0x80 := by simp; omega
      have whole : (((n / 262144 + 0xf0) % 8 * 64 + (n / 4096 % 0x40 + 0x80) % 64) * 64 +
          (n / 64 % 0x40 + 0x80) % 64) * 64 + (n % 0x40 + 0x80) % 64 = n := by omega
      rw [List.cons_append, List.cons_append, List.cons_append, List.singleton_append,
        utf8Step_four (by omega) (by omega) (by constructor <;> omega) (by constructor <;> omega)
          (by constructor <;> omega),
        payload, payload, payload, first, second, third, fourth, whole]
      exact congrArg (Utf8Step.read · 4) (Char.ofNat_toNat c)

/-! How a character is written that is read behind a first byte. -/

theorem toNat_ofNat {n : Nat} (valid : n.isValidChar) : (Char.ofNat n).val.toNat = n := by
  rw [Char.ofNat, dif_pos valid]
  rfl

theorem encode_one (small : a.toNat < 0x80) :
    String.utf8EncodeChar (Char.ofNat a.toNat) = [a] := by
  have number := toNat_ofNat (n := a.toNat) (.inl (by omega))
  have first : UInt8.ofNat a.toNat = a := UInt8.ofNat_toNat
  rw [String.utf8EncodeChar, number]
  simp only [first]
  rw [if_pos (by omega)]

theorem encode_two (starts : 0xc2 ≤ a.toNat) (width : a.toNat < 0xe0) (pairs : Pairs a b) :
    String.utf8EncodeChar (Char.ofNat (a.toNat % 32 * 64 + payload b)) = [a, b] := by
  obtain ⟨low, high, -, -, -, -⟩ := pairs
  unfold payload
  generalize whole : a.toNat % 32 * 64 + b.toNat % 64 = n
  have number := toNat_ofNat (n := n) (.inl (by omega))
  have first : UInt8.ofNat (n / 64 % 0x20 + 0xc0) = a := UInt8.toNat_inj.1 (by simp; omega)
  have second : UInt8.ofNat (n % 0x40 + 0x80) = b := UInt8.toNat_inj.1 (by simp; omega)
  rw [String.utf8EncodeChar, number]
  simp only [first, second]
  rw [if_neg (by omega), if_pos (by omega)]

theorem encode_three (starts : 0xe0 ≤ a.toNat) (width : a.toNat < 0xf0) (pairs : Pairs a b)
    (tail : IsTail c) :
    String.utf8EncodeChar
      (Char.ofNat ((a.toNat % 16 * 64 + payload b) * 64 + payload c)) = [a, b, c] := by
  obtain ⟨low, high, shortest, noSurrogate, -, -⟩ := pairs
  obtain ⟨low', high'⟩ := tail
  unfold payload
  generalize whole : (a.toNat % 16 * 64 + b.toNat % 64) * 64 + c.toNat % 64 = n
  have valid : n.isValidChar := by unfold Nat.isValidChar; omega
  have number := toNat_ofNat valid
  have first : UInt8.ofNat (n / 4096 % 0x10 + 0xe0) = a := UInt8.toNat_inj.1 (by simp; omega)
  have second : UInt8.ofNat (n / 64 % 0x40 + 0x80) = b := UInt8.toNat_inj.1 (by simp; omega)
  have third : UInt8.ofNat (n % 0x40 + 0x80) = c := UInt8.toNat_inj.1 (by simp; omega)
  rw [String.utf8EncodeChar, number]
  simp only [first, second, third]
  rw [if_neg (by omega), if_neg (by omega), if_pos (by omega)]

theorem encode_four (starts : 0xf0 ≤ a.toNat) (width : a.toNat ≤ 0xf4) (pairs : Pairs a b)
    (third : IsTail c) (fourth : IsTail d) :
    String.utf8EncodeChar (Char.ofNat
      (((a.toNat % 8 * 64 + payload b) * 64 + payload c) * 64 + payload d)) = [a, b, c, d] := by
  obtain ⟨low, high, -, -, shortest, inRange⟩ := pairs
  obtain ⟨low', high'⟩ := third
  obtain ⟨low'', high''⟩ := fourth
  unfold payload
  generalize whole :
    ((a.toNat % 8 * 64 + b.toNat % 64) * 64 + c.toNat % 64) * 64 + d.toNat % 64 = n
  have valid : n.isValidChar := by unfold Nat.isValidChar; omega
  have number := toNat_ofNat valid
  have first : UInt8.ofNat (n / 262144 % 0x08 + 0xf0) = a := UInt8.toNat_inj.1 (by simp; omega)
  have second : UInt8.ofNat (n / 4096 % 0x40 + 0x80) = b := UInt8.toNat_inj.1 (by simp; omega)
  have third : UInt8.ofNat (n / 64 % 0x40 + 0x80) = c := UInt8.toNat_inj.1 (by simp; omega)
  have fourth : UInt8.ofNat (n % 0x40 + 0x80) = d := UInt8.toNat_inj.1 (by simp; omega)
  rw [String.utf8EncodeChar, number]
  simp only [first, second, third, fourth]
  rw [if_neg (by omega), if_neg (by omega), if_neg (by omega)]

theorem starts_iff : ¬(decide (a < 0xc2) || decide (0xf4 < a)) = true ↔
    0xc2 ≤ a.toNat ∧ a.toNat ≤ 0xf4 := by
  simp [UInt8.lt_iff_toNat_lt]

/-- Where a character is read, its bytes are in front. -/
theorem eq_append_of_utf8Step {bytes : Bytes} {c : Char} {width : Nat}
    (read : utf8Step bytes = .read c width) :
    bytes = String.utf8EncodeChar c ++ bytes.drop width := by
  revert read
  fun_cases utf8Step bytes with
  | case1 | case3 | case4 | case5 | case7 | case8 | case10 | case11 => nofun
  | case2 a rest small =>
      rintro ⟨⟩
      rw [encode_one (UInt8.lt_iff_toNat_lt.1 small)]
      rfl
  | case6 a large starts low high bounds b rest second width =>
      rintro ⟨⟩
      obtain ⟨starts, -⟩ := starts_iff.1 starts
      rw [encode_two starts (UInt8.lt_iff_toNat_lt.1 width) (.of_bounds bounds second)]
      rfl
  | case9 a large starts low high bounds b second wide c rest third width =>
      rintro ⟨⟩
      rw [encode_three (UInt8.le_iff_toNat_le.1 (UInt8.not_lt.1 wide))
        (UInt8.lt_iff_toNat_lt.1 width) (.of_bounds bounds second) (.of_continues third)]
      rfl
  | case12 a large starts low high bounds b second wide c third wider d rest fourth =>
      rintro ⟨⟩
      obtain ⟨-, inRange⟩ := starts_iff.1 starts
      rw [encode_four (UInt8.le_iff_toNat_le.1 (UInt8.not_lt.1 wider)) inRange
        (.of_bounds bounds second) (.of_continues third) (.of_continues fourth)]
      rfl

theorem eq_nil_of_utf8Step {bytes : Bytes} (ended : utf8Step bytes = .finished) : bytes = [] := by
  revert ended
  fun_cases utf8Step bytes with
  | case1 => exact fun _ => rfl
  | _ => nofun

/-! ## Whole texts -/

/-- The bytes that spell some characters. -/
def spell (cs : List Char) : Bytes := cs.flatMap String.utf8EncodeChar

@[simp] theorem spell_nil : spell [] = [] := rfl

@[simp] theorem spell_cons (e : Char) (cs : List Char) :
    spell (e :: cs) = String.utf8EncodeChar e ++ spell cs := rfl

theorem spell_append (cs ds : List Char) : spell (cs ++ ds) = spell cs ++ spell ds :=
  List.flatMap_append

theorem utf8Step_spell_cons (e : Char) (cs : List Char) (rest : Bytes) :
    utf8Step (spell (e :: cs) ++ rest) = .read e (String.utf8EncodeChar e).length := by
  rw [spell_cons, List.append_assoc, utf8Step_encode]

theorem length_encode_pos (e : Char) : 0 < (String.utf8EncodeChar e).length :=
  List.length_pos_iff.2 String.utf8EncodeChar_ne_nil

theorem length_le_length_spell (cs : List Char) : cs.length ≤ (spell cs).length := by
  induction cs with
  | nil => exact Nat.le_refl 0
  | cons e cs ih =>
      have taken := length_encode_pos e
      rw [spell_cons, List.length_append, List.length_cons]
      omega

/-- The loop reads characters back one by one, each for one unit of fuel. -/
theorem utf8Loop_spell (cs : List Char) (fuel position : Nat) (read : List Char) (rest : Bytes) :
    utf8Loop (cs.length + fuel) position read (spell cs ++ rest) =
      utf8Loop fuel (position + (spell cs).length) (cs.reverse ++ read) rest := by
  induction cs generalizing position read with
  | nil => simp
  | cons e cs ih =>
      rw [List.length_cons, Nat.add_right_comm, utf8Loop, utf8Step_spell_cons, spell_cons,
        List.append_assoc]
      simp only [List.drop_left]
      rw [ih, List.length_append, Nat.add_assoc, List.reverse_cons, List.append_assoc,
        List.singleton_append]

/-- The number of bytes is enough fuel for all characters and for what is behind them. -/
theorem exists_fuel (cs : List Char) (rest : Bytes) :
    ∃ fuel, rest.length ≤ fuel ∧ utf8Prefix (spell cs ++ rest) =
      utf8Loop fuel (spell cs).length cs.reverse rest := by
  have shorter := length_le_length_spell cs
  refine ⟨(spell cs).length - cs.length + rest.length, by omega, ?_⟩
  rw [utf8Prefix, List.length_append,
    (by omega : (spell cs).length + rest.length =
      cs.length + ((spell cs).length - cs.length + rest.length)),
    utf8Loop_spell, Nat.zero_add, List.append_nil]

theorem utf8Prefix_spell (cs : List Char) : utf8Prefix (spell cs) = (cs, none) := by
  obtain ⟨fuel, -, reads⟩ := exists_fuel cs []
  rw [List.append_nil] at reads
  rw [reads]
  cases fuel <;> simp [utf8Loop, utf8Step]

/-- Characters are read up to the first place where no character can be read. -/
theorem utf8Prefix_of_faulty {rest : Bytes} {length : Nat} {flaw : Utf8Flaw} (cs : List Char)
    (faulty : utf8Step rest = .faulty length flaw) :
    utf8Prefix (spell cs ++ rest) =
      (cs, some ⟨rest.headD 0, (spell cs).length, length, flaw⟩) := by
  obtain ⟨fuel, enough, reads⟩ := exists_fuel cs rest
  have filled : 0 < rest.length := by
    refine List.length_pos_iff.2 fun empty => ?_
    subst empty
    cases faulty
  obtain ⟨fuel, rfl⟩ := Nat.exists_eq_add_one.2 (by omega : 0 < fuel)
  rw [reads, utf8Loop, faulty]
  simp only [List.reverse_reverse]

/-- All bytes are characters and then nothing, or something that cannot be read. -/
theorem exists_spell (bytes : Bytes) :
    ∃ cs rest, bytes = spell cs ++ rest ∧
      (rest = [] ∨ ∃ length flaw, utf8Step rest = .faulty length flaw) := by
  induction size : bytes.length using Nat.strongRecOn generalizing bytes with
  | ind size ih =>
      cases step : utf8Step bytes with
      | finished => exact ⟨[], [], eq_nil_of_utf8Step step, .inl rfl⟩
      | faulty length flaw => exact ⟨[], bytes, rfl, .inr ⟨length, flaw, step⟩⟩
      | read e width =>
          have spelled := eq_append_of_utf8Step step
          have taken := length_encode_pos e
          have split := congrArg List.length spelled
          rw [List.length_append] at split
          obtain ⟨cs, rest, later, stops⟩ := ih _ (by omega) (bytes.drop width) rfl
          refine ⟨e :: cs, rest, ?_, stops⟩
          rw [spell_cons, List.append_assoc, ← later, ← spelled]

/-- Without a fault, the characters that are read spell the bytes. -/
theorem eq_spell_of_utf8Prefix {bytes : Bytes} {cs : List Char}
    (reads : utf8Prefix bytes = (cs, none)) : bytes = spell cs := by
  obtain ⟨ds, rest, rfl, rfl | ⟨length, flaw, faulty⟩⟩ := exists_spell bytes
  · rw [List.append_nil, utf8Prefix_spell] at reads
    cases reads
    exact List.append_nil _
  · rw [utf8Prefix_of_faulty ds faulty] at reads
    cases reads

/-- With a fault, they spell the bytes before it. -/
theorem eq_append_of_utf8Prefix {bytes : Bytes} {cs : List Char} {fault : Utf8Fault}
    (reads : utf8Prefix bytes = (cs, some fault)) :
    bytes = spell cs ++ bytes.drop fault.position := by
  obtain ⟨ds, rest, rfl, rfl | ⟨length, flaw, faulty⟩⟩ := exists_spell bytes
  · rw [List.append_nil, utf8Prefix_spell] at reads
    cases reads
  · rw [utf8Prefix_of_faulty ds faulty] at reads
    cases reads
    rw [List.drop_left]

/-- Listing a byte string goes through its places in order. -/
theorem byteArrayLoop_eq (bytes : ByteArray) (i : Nat) (read : List UInt8) :
    ByteArray.toList.loop bytes i read = read.reverse ++ bytes.data.toList.drop i := by
  fun_induction ByteArray.toList.loop bytes i read with
  | case1 i read inside ih =>
      have inside : i < bytes.data.toList.length := by simpa using inside
      rw [ih, List.drop_eq_getElem_cons inside]
      simp_all [ByteArray.get!]
  | case2 i read outside =>
      have outside : bytes.data.toList.length ≤ i := by simpa using outside
      rw [List.drop_eq_nil_of_le outside, List.append_nil]

theorem toUtf8_eq (s : String) : toUtf8 s = spell s.toList := by
  rw [toUtf8, ByteArray.toList, byteArrayLoop_eq, String.toUTF8_eq_toByteArray,
    ← String.utf8Encode_toList, List.utf8Encode, List.toList_data_toByteArray]
  rfl

theorem utf8Prefix_toUtf8 (s : String) : utf8Prefix (toUtf8 s) = (s.toList, none) := by
  rw [toUtf8_eq, utf8Prefix_spell]

/-- A text is read back from its bytes. -/
theorem ofUtf8_toUtf8 (s : String) : ofUtf8 (toUtf8 s) = .ok s := by
  simp only [ofUtf8, utf8Prefix_toUtf8, String.ofList_toList]

/-- A text that is read spells its bytes. -/
theorem toUtf8_of_ofUtf8 {bytes : Bytes} {s : String} (reads : ofUtf8 bytes = .ok s) :
    toUtf8 s = bytes := by
  unfold ofUtf8 at reads
  split at reads
  next cs whole =>
    cases reads
    rw [toUtf8_eq, String.toList_ofList]
    exact (eq_spell_of_utf8Prefix whole).symm
  next => cases reads

/-- Bytes that spell a text. -/
def IsUtf8 (bytes : Bytes) : Prop := ∃ s : String, toUtf8 s = bytes

/-- Exactly the bytes that spell a text are read as one. -/
theorem isUtf8_iff {bytes : Bytes} : IsUtf8 bytes ↔ (utf8Prefix bytes).2 = none := by
  constructor
  · rintro ⟨s, rfl⟩
    rw [utf8Prefix_toUtf8]
  · intro whole
    refine ⟨String.ofList (utf8Prefix bytes).1, toUtf8_of_ofUtf8 ?_⟩
    rw [ofUtf8]
    split <;> simp_all

/-! ## Part by part -/

/-- Only a surrogate waits although it is known to be wrong. -/
theorem isOpen_iff {left : Bytes} {flaw : Utf8Flaw} (told : flaw ≠ .unexpectedEnd) :
    flaw.isOpen left = true ↔ ∃ b, left = [0xed, b] ∧ continues 0xa0 0xbf b = true := by
  have told : (flaw == .unexpectedEnd) = false := by simpa using told
  unfold Utf8Flaw.isOpen
  rw [told, Bool.false_or]
  split
  next a b => simp [and_assoc]
  next other => simpa using fun b pair => absurd pair (other _ _)

/-- Bytes that are no whole character and may wait for the rest of one. -/
def Waits (left : Bytes) : Prop :=
  left = [] ∨ ∃ length flaw, utf8Step left = .faulty length flaw ∧ flaw.isOpen left = true

theorem Waits.utf8Step_ne {left : Bytes} (waits : Waits left) (e : Char) (width : Nat) :
    utf8Step left ≠ .read e width := by
  obtain rfl | ⟨length, flaw, faulty, -⟩ := waits
  · nofun
  · rw [faulty]
    nofun

/-- More bytes do not mend what is told to be wrong. -/
theorem utf8Step_append_of_faulty {left : Bytes} {length : Nat} {flaw : Utf8Flaw}
    (faulty : utf8Step left = .faulty length flaw) (told : flaw ≠ .unexpectedEnd)
    (more : Bytes) : utf8Step (left ++ more) = .faulty length flaw := by
  revert faulty
  fun_cases utf8Step left with
  | case1 | case2 | case6 | case9 | case12 => nofun
  | case4 | case7 | case10 =>
      rintro ⟨⟩
      exact absurd rfl told
  | case3 a rest large wrong =>
      rintro ⟨⟩
      rw [List.cons_append, utf8Step, if_neg large, if_pos wrong]
  | case5 a large starts low high bounds b rest second =>
      rintro ⟨⟩
      rw [List.cons_append, List.cons_append, utf8Step, if_neg large, if_neg starts, bounds]
      exact if_pos second
  | case8 a large starts low high bounds b second wide c rest third =>
      rintro ⟨⟩
      rw [List.cons_append, List.cons_append, List.cons_append, utf8Step, if_neg large,
        if_neg starts, bounds]
      simp only [if_neg second, if_neg wide, if_pos third]
  | case11 a large starts low high bounds b second wide c third wider d rest fourth =>
      rintro ⟨⟩
      rw [List.cons_append, List.cons_append, List.cons_append, List.cons_append, utf8Step,
        if_neg large, if_neg starts, bounds]
      simp only [if_neg second, if_neg wide, if_neg third, if_neg wider, if_pos fourth]

/-- What cannot be read in front of bytes that end waiting waits as well. -/
theorem Waits.isOpen {left more last : Bytes} {cs : List Char} {length : Nat} {flaw : Utf8Flaw}
    (waits : Waits last) (whole : left ++ more = spell cs ++ last)
    (faulty : utf8Step left = .faulty length flaw) : flaw.isOpen left = true := by
  by_cases told : flaw = .unexpectedEnd
  · rw [told]
    rfl
  have still := utf8Step_append_of_faulty faulty told more
  rw [whole] at still
  cases cs with
  | cons e cs =>
      rw [utf8Step_spell_cons] at still
      cases still
  | nil =>
      obtain rfl | ⟨length', flaw', faulty', isOpen⟩ := waits
      · cases still
      obtain ⟨rfl, rfl⟩ : length' = length ∧ flaw' = flaw := by
        simpa using faulty'.symm.trans still
      -- so these bytes are a surrogate, of which one byte alone would not be told
      obtain ⟨b, rfl, second⟩ := (isOpen_iff told).1 isOpen
      rcases left with _ | ⟨a, _ | ⟨b', left⟩⟩
      · cases faulty
      · obtain rfl : a = 0xed := (List.cons.inj whole).1
        cases faulty
        exact absurd rfl told
      · simp only [spell_nil, List.nil_append, List.cons_append, List.cons.injEq,
          List.append_eq_nil_iff] at whole
        obtain ⟨rfl, rfl, rfl, -⟩ := whole
        exact isOpen

/-- Characters in front of bytes are the first of all that these bytes spell. -/
theorem exists_append_of_spell {cs ds : List Char} {rest last : Bytes}
    (same : spell cs ++ rest = spell ds ++ last) (waits : Waits last) :
    ∃ es, ds = cs ++ es ∧ rest = spell es ++ last := by
  induction cs generalizing ds with
  | nil => exact ⟨ds, rfl, same⟩
  | cons e cs ih =>
      have front : utf8Step (spell ds ++ last) = .read e (String.utf8EncodeChar e).length := by
        rw [← same, utf8Step_spell_cons]
      cases ds with
      | nil => exact absurd front (waits.utf8Step_ne _ _)
      | cons d ds =>
          rw [utf8Step_spell_cons] at front
          cases front
          rw [spell_cons, spell_cons, List.append_assoc, List.append_assoc] at same
          obtain ⟨es, rfl, later⟩ := ih (List.append_cancel_left same)
          exact ⟨es, rfl, later⟩

/-- One part: characters, and bytes that wait for the next part. -/
theorem exists_of_part {front later last : Bytes} {cs : List Char} (waits : Waits last)
    (whole : front ++ later = spell cs ++ last) :
    ∃ ds es left, front = spell ds ++ left ∧ Waits left ∧ cs = ds ++ es ∧
      left ++ later = spell es ++ last := by
  obtain ⟨ds, left, rfl, stops⟩ := exists_spell front
  rw [List.append_assoc] at whole
  obtain ⟨es, rfl, later⟩ := exists_append_of_spell whole waits
  refine ⟨ds, es, left, rfl, ?_, rfl, later⟩
  obtain rfl | ⟨length, flaw, faulty⟩ := stops
  · exact .inl rfl
  · exact .inr ⟨length, flaw, faulty, waits.isOpen later faulty⟩

theorem utf8Feed_cons {waiting part left : Bytes} {cs : List Char} (parts : List Bytes)
    (front : waiting ++ part = spell cs ++ left) (waits : Waits left) :
    utf8Feed waiting (part :: parts) = (utf8Feed left parts).map (cs ++ ·) id := by
  rw [utf8Feed, front]
  obtain rfl | ⟨length, flaw, faulty, isOpen⟩ := waits
  · rw [List.append_nil, utf8Prefix_spell]
  · rw [utf8Prefix_of_faulty cs faulty]
    simp only [List.drop_left, isOpen, if_true]

/-- Whatever the parts are, their characters are read, and the bytes that wait behind these
are put in front of the later parts. The induction is on the parts; between two of them no
bytes are kept but those of a character that has begun. -/
theorem utf8Feed_append {waiting last : Bytes} {parts : List Bytes} {cs : List Char}
    (kept : Waits waiting) (waits : Waits last)
    (whole : waiting ++ parts.flatten = spell cs ++ last) (later : List Bytes) :
    utf8Feed waiting (parts ++ later) = (utf8Feed last later).map (cs ++ ·) id := by
  induction parts generalizing waiting cs with
  | nil =>
      rw [List.flatten_nil, List.append_nil] at whole
      cases cs with
      | nil =>
          obtain rfl : waiting = last := whole
          rfl
      | cons e cs =>
          refine absurd ?_ (kept.utf8Step_ne e (String.utf8EncodeChar e).length)
          rw [whole, utf8Step_spell_cons]
  | cons part parts ih =>
      rw [List.flatten_cons, ← List.append_assoc] at whole
      obtain ⟨ds, es, left, front, stays, rfl, behind⟩ := exists_of_part waits whole
      rw [List.cons_append, utf8Feed_cons _ front stays, ih stays behind, Prod.map_map]
      simp only [Function.comp_def, List.append_assoc, id_eq, Prod.map]

/-- Without a fault, the characters that are read spell all parts. -/
theorem eq_spell_of_utf8Feed {waiting : Bytes} {parts : List Bytes}
    (whole : (utf8Feed waiting parts).2 = none) :
    waiting ++ parts.flatten = spell (utf8Feed waiting parts).1 := by
  fun_induction utf8Feed waiting parts with
  | case1 waiting =>
      rw [List.flatten_nil, List.append_nil]
      exact eq_spell_of_utf8Prefix (Prod.ext rfl whole)
  | case2 waiting part parts cs reads ih =>
      rw [Prod.map_fst, spell_append, ← ih whole, List.flatten_cons, ← List.append_assoc,
        eq_spell_of_utf8Prefix reads, List.nil_append]
  | case3 waiting part parts cs fault reads left isOpen ih =>
      rw [Prod.map_fst, spell_append, ← ih whole, List.flatten_cons, ← List.append_assoc,
        ← List.append_assoc, ← eq_append_of_utf8Prefix reads]
  | case4 => cases whole

theorem flatten_cut (size : Nat) (bytes : Bytes) : (cut size bytes).flatten = bytes := by
  fun_induction cut size bytes with
  | case1 bytes whole => exact List.append_nil bytes
  | case2 bytes longer ih => rw [List.flatten_cons, ih, List.take_append_drop]

/-- It does not matter in what parts a text is read. -/
theorem utf8Parts_toUtf8 (size : Nat) (s : String) :
    utf8Parts size (toUtf8 s) = (s.toList, none) := by
  have whole : [] ++ (cut size (toUtf8 s)).flatten = spell s.toList ++ [] := by
    rw [flatten_cut, toUtf8_eq, List.nil_append, List.append_nil]
  have reads := utf8Feed_append (.inl rfl) (.inl rfl) whole []
  rw [List.append_nil] at reads
  rw [utf8Parts, reads]
  exact congrArg (·, none) (List.append_nil _)

/-- Where a part ends with the first two bytes of a surrogate, the text before them is read,
and the fault is told behind it. -/
theorem utf8Feed_surrogate {s : String} {b : UInt8} {parts later : List Bytes}
    (second : continues 0xa0 0xbf b = true) (whole : parts.flatten = toUtf8 s ++ [0xed, b])
    (filled : ∀ part ∈ later, part ≠ []) :
    utf8Feed [] (parts ++ later) = (s.toList, some ⟨0xed, 0, 1, .invalidContinuation⟩) := by
  have beyond : continues 0x80 0x9f b = false := by
    rw [continues_iff] at second
    rw [Bool.eq_false_iff, Ne, continues_iff]
    simp only [UInt8.reduceToNat] at second ⊢
    omega
  have faulty (more : Bytes) : utf8Step (0xed :: b :: more) = .faulty 1 .invalidContinuation := by
    simp [utf8Step, secondBounds, beyond]
  have told : utf8Feed [0xed, b] later = ([], some ⟨0xed, 0, 1, .invalidContinuation⟩) := by
    cases later with
    | nil => exact utf8Prefix_of_faulty [] (faulty [])
    | cons part later =>
        obtain ⟨c, more, rfl⟩ := List.exists_cons_of_ne_nil (filled part List.mem_cons_self)
        have stops : utf8Prefix ([0xed, b] ++ c :: more) =
            ([], some ⟨0xed, 0, 1, .invalidContinuation⟩) :=
          utf8Prefix_of_faulty [] (faulty (c :: more))
        rw [utf8Feed, stops]
        rfl
  rw [toUtf8_eq] at whole
  rw [utf8Feed_append (.inl rfl) (.inr ⟨_, _, faulty [], second⟩) whole, told]
  exact congrArg (·, _) (List.append_nil _)

example : utf8Parts 4 (toUtf8 "ab" ++ [0xed, 0xa0, 0x80]) =
    (['a', 'b'], some ⟨0xed, 0, 1, .invalidContinuation⟩) := by cbv

/-- So a file that ends within a surrogate is read up to there. -/
theorem utf8Parts_surrogate (size : Nat) (s : String) {b : UInt8}
    (second : continues 0xa0 0xbf b = true) :
    utf8Parts size (toUtf8 s ++ [0xed, b]) =
      (s.toList, some ⟨0xed, 0, 1, .invalidContinuation⟩) := by
  rw [utf8Parts, ← List.append_nil (cut size _)]
  exact utf8Feed_surrogate second (flatten_cut size _) nofun

/-- Exactly the bytes that spell a text are read part by part without a fault. -/
theorem utf8Parts_snd_eq_none_iff (size : Nat) {bytes : Bytes} :
    (utf8Parts size bytes).2 = none ↔ IsUtf8 bytes := by
  constructor
  · intro whole
    refine ⟨String.ofList (utf8Parts size bytes).1, ?_⟩
    rw [toUtf8_eq, String.toList_ofList, utf8Parts, ← eq_spell_of_utf8Feed whole, flatten_cut,
      List.nil_append]
  · rintro ⟨s, rfl⟩
    rw [utf8Parts_toUtf8]

end Vesting.Text

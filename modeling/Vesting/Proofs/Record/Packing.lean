/-
# Records are what eighty-two bytes can say

Main statement: `encoding_bijective`. Every record that is accepted, from named values, from
the text of an object or from the row of a table, is encoded in eighty-two bytes, and every
eighty-two bytes are the encoding of one record, whose fields stand at fixed places.

Words and bytes have their range by their types, so an encoding cannot fail. What keeps the
bytes true to the input is the reading: it turns whole numbers into words and bytes only if
they fit. To say so, the values are also packed as they were given, in a way that gives up
on a number that does not fit, and the result is the encoding.
-/

import Vesting.Proofs.Csv.Acceptance
import Vesting.Proofs.Csv.Records
import Vesting.Proofs.Encoding

namespace Vesting

namespace Bytes

theorem toNat_lt (b : Bytes) : toNat b < 256 ^ b.length := by
  induction b with
  | nil => exact Nat.one_pos
  | cons byte rest ih =>
      have bound : byte.toNat < 256 := byte.toNat_lt
      rw [toNat, List.length_cons, Nat.pow_succ']
      omega

/-- The word that eight bytes from a place on stand for. -/
def wordAt (b : Bytes) (offset : Nat) : Nat := toNat ((b.drop offset).take 8)

theorem length_word {b : Bytes} {offset : Nat} (inside : offset + 8 ≤ b.length) :
    ((b.drop offset).take 8).length = 8 := by
  rw [List.length_take, List.length_drop]
  omega

theorem toNat_ofNat_wordAt {b : Bytes} {offset : Nat} (inside : offset + 8 ≤ b.length) :
    (UInt64.ofNat (b.wordAt offset)).toNat = b.wordAt offset := by
  have bound := toNat_lt ((b.drop offset).take 8)
  rw [length_word inside] at bound
  exact UInt64.toNat_ofNat_of_lt' bound

/-- The bytes of a word that stands in others are found there. -/
theorem littleEndian_wordAt {b : Bytes} {offset : Nat} (inside : offset + 8 ≤ b.length) :
    littleEndian 8 (b.wordAt offset) = (b.drop offset).take 8 := by
  have back := littleEndian_toNat ((b.drop offset).take 8)
  rwa [length_word inside] at back

/-- A whole number in so many little-endian bytes; nothing if it does not fit them. -/
def pack? (width : Nat) (n : Int) : Option Bytes :=
  if 0 ≤ n ∧ n < (256 ^ width : Nat) then some (littleEndian width n.toNat) else none

theorem pack?_natCast {width n : Nat} (fits : n < 256 ^ width) :
    pack? width n = some (littleEndian width n) := by
  have inRange : (0 : Int) ≤ n ∧ (n : Int) < (256 ^ width : Nat) :=
    ⟨Int.natCast_nonneg n, Int.ofNat_lt.2 fits⟩
  rw [pack?, if_pos inRange, Int.toNat_natCast]

end Bytes

namespace Record

/-! ## What bytes say -/

/-- The record that bytes say: its recipient, six words and two bytes at their places. -/
structure SaidBy (b : Bytes) (r : Record) : Prop where
  recipient : r.recipient.bytes = b.take 32
  start : r.start.toNat = b.wordAt 32
  cliff : r.cliff.toNat = b.wordAt 40
  frequency : r.frequency.toNat = b.wordAt 48
  cliffAmount : r.cliffAmount.toNat = b.wordAt 56
  periodAmount : r.periodAmount.toNat = b.wordAt 64
  periods : r.periods.toNat = b.wordAt 72
  updateMode : b[80]? = some r.updateMode
  cancelMode : b[81]? = some r.cancelMode

theorem exists_saidBy {b : Bytes} (size : b.length = encodedSize) : ∃ r : Record, SaidBy b r := by
  rw [encodedSize] at size
  have recipient : (b.take 32).length = 32 := by
    rw [List.length_take]
    omega
  refine ⟨⟨⟨b.take 32, recipient⟩, .ofNat (b.wordAt 32), .ofNat (b.wordAt 40),
    .ofNat (b.wordAt 48), .ofNat (b.wordAt 56), .ofNat (b.wordAt 64), .ofNat (b.wordAt 72),
    b[80], b[81]⟩, ?_⟩
  constructor
  case recipient => rfl
  case updateMode => exact List.getElem?_eq_getElem _
  case cancelMode => exact List.getElem?_eq_getElem _
  all_goals exact Bytes.toNat_ofNat_wordAt (by omega)

/-- The record that eighty-two bytes say is encoded as them. -/
theorem SaidBy.encode_eq {b : Bytes} {r : Record} (said : SaidBy b r)
    (size : b.length = encodedSize) : r.encode = b := by
  rw [encodedSize] at size
  have word (offset next : Nat) (follows : offset + 8 = next) :
      (b.drop offset).take 8 ++ b.drop next = b.drop offset := by
    rw [← follows, ← List.drop_drop, List.take_append_drop]
  have modes : [r.updateMode, r.cancelMode] = b.drop 80 := by
    obtain ⟨first, update⟩ := List.getElem?_eq_some_iff.1 said.updateMode
    obtain ⟨second, cancel⟩ := List.getElem?_eq_some_iff.1 said.cancelMode
    rw [List.drop_eq_getElem_cons first, List.drop_eq_getElem_cons second, update, cancel,
      List.drop_of_length_le (Nat.le_of_eq size)]
  simp only [encode, said.recipient, said.start, said.cliff, said.frequency, said.cliffAmount,
    said.periodAmount, said.periods, modes, List.append_assoc]
  rw [Bytes.littleEndian_wordAt (by omega), Bytes.littleEndian_wordAt (by omega),
    Bytes.littleEndian_wordAt (by omega), Bytes.littleEndian_wordAt (by omega),
    Bytes.littleEndian_wordAt (by omega), Bytes.littleEndian_wordAt (by omega),
    word 72 80 rfl, word 64 72 rfl, word 56 64 rfl, word 48 56 rfl, word 40 48 rfl, word 32 40 rfl,
    List.take_append_drop]

/-! ## What is given -/

/-- The numbers behind the recipient: the names of their fields and their widths in bytes. -/
def numberFields : List (String × Nat) := columns.tail.zip [8, 8, 8, 8, 8, 8, 1, 1]

/-- A whole number packed as it is given for a field, or zero if none is. -/
def packNumber (fields : Fields) (field : String × Nat) : Option Bytes :=
  match Schema.optional fields field.1 0 Schema.whole with
  | .done n => Bytes.pack? field.2 n
  | .issues _ => none

/-- The bytes that are given for the recipient, and behind them the numbers as they are given;
nothing if one of them cannot be read or does not fit its width. -/
def packed (fields : Fields) : Option Bytes :=
  match Schema.required fields "recipient" (Schema.bytesFrom ofHex) with
  | .done recipient =>
    (numberFields.mapM (packNumber fields)).map fun numbers => recipient ++ numbers.flatten
  | .issues _ => none

end Record

/-! ## What is read -/

namespace Schema

variable {v : Value}

/-- A number in range is read as the whole number that is given. -/
theorem of_natural_eq_done {limit n : Nat} (reads : natural limit v = .done n) :
    whole v = .done n ∧ n ≤ limit := by
  unfold natural at reads
  cases given : whole v with
  | issues _ => simp [given, Reading.andThen] at reads
  | done z =>
      simp only [given, Reading.andThen, Reading.issue] at reads
      split at reads
      · cases reads
      · split at reads
        · cases reads
        · cases reads
          refine ⟨congrArg Reading.done ?_, ?_⟩ <;> omega

theorem of_word_eq_done {w : UInt64} (reads : word v = .done w) : whole v = .done w.toNat := by
  unfold word at reads
  cases given : natural 0xffffffffffffffff v with
  | issues _ => simp [given, Reading.map] at reads
  | done n =>
      rw [given] at reads
      cases reads
      obtain ⟨whole, fits⟩ := of_natural_eq_done given
      rw [whole, UInt64.toNat_ofNat_of_lt' (Nat.lt_succ_of_le fits)]

theorem of_byte_eq_done {b : UInt8} (reads : byte v = .done b) : whole v = .done b.toNat := by
  unfold byte at reads
  cases given : natural 0xff v with
  | issues _ => simp [given, Reading.map] at reads
  | done n =>
      rw [given] at reads
      cases reads
      obtain ⟨whole, fits⟩ := of_natural_eq_done given
      rw [whole, UInt8.toNat_ofNat_of_lt' (Nat.lt_succ_of_le fits)]

end Schema

namespace Record

variable {fields : Fields} {name : String}

/-- A word is packed as it was given. -/
theorem packNumber_word {w : UInt64} (reads : Schema.optional fields name 0 Schema.word = .done w) :
    packNumber fields (name, 8) = some (Bytes.littleEndian 8 w.toNat) := by
  have given : Schema.optional fields name 0 Schema.whole = .done (w.toNat : Int) := by
    rcases Schema.of_optional_eq_done reads with ⟨absent, rfl⟩ | ⟨v, present, read⟩
    · simp [Schema.optional, absent]
    · exact Schema.optional_eq_done present (Schema.of_word_eq_done read)
  simp only [packNumber, given]
  exact Bytes.pack?_natCast w.toNat_lt

/-- A mode is packed as it was given. -/
theorem packNumber_byte {b : UInt8} (reads : Schema.optional fields name 0 Schema.byte = .done b) :
    packNumber fields (name, 1) = some [b] := by
  have given : Schema.optional fields name 0 Schema.whole = .done (b.toNat : Int) := by
    rcases Schema.of_optional_eq_done reads with ⟨absent, rfl⟩ | ⟨v, present, read⟩
    · simp [Schema.optional, absent]
    · exact Schema.optional_eq_done present (Schema.of_byte_eq_done read)
  have single : Bytes.littleEndian 1 b.toNat = [b] := by
    simp [Bytes.littleEndian]
  simp only [packNumber, given]
  exact single ▸ Bytes.pack?_natCast b.toNat_lt

theorem of_recipient_eq_done {r : Recipient}
    (reads : Schema.required fields name Schema.recipient = .done r) :
    Schema.required fields name (Schema.bytesFrom ofHex) = .done r.bytes := by
  obtain ⟨v, present, given⟩ := Schema.of_required_eq_done reads
  apply Schema.required_eq_done present
  unfold Schema.recipient at given
  cases bytes : Schema.bytesFrom ofHex v with
  | issues _ => simp [bytes, Reading.andThen] at given
  | done b =>
      simp only [bytes, Reading.andThen, Reading.issue] at given
      split at given
      · cases given
        rfl
      · cases given

/-- What a record is read from is packed as the encoding of the record. -/
theorem packed_eq_encode {r : Record} (reads : readFields fields = .done r) :
    packed fields = some r.encode := by
  -- the parts in front of each `<*>` in turn, from the last one back to the recipient
  unfold readFields at reads
  obtain ⟨_, cancelMode, toUpdateMode, cancel, rfl⟩ := Reading.of_seq_eq_done reads
  obtain ⟨_, updateMode, toPeriods, update, rfl⟩ := Reading.of_seq_eq_done toUpdateMode
  obtain ⟨_, periods, toPeriodAmount, count, rfl⟩ := Reading.of_seq_eq_done toPeriods
  obtain ⟨_, periodAmount, toCliffAmount, each, rfl⟩ := Reading.of_seq_eq_done toPeriodAmount
  obtain ⟨_, cliffAmount, toFrequency, atCliff, rfl⟩ := Reading.of_seq_eq_done toCliffAmount
  obtain ⟨_, frequency, toCliff, often, rfl⟩ := Reading.of_seq_eq_done toFrequency
  obtain ⟨_, cliff, toStart, late, rfl⟩ := Reading.of_seq_eq_done toCliff
  obtain ⟨_, start, toRecipient, early, rfl⟩ := Reading.of_seq_eq_done toStart
  obtain ⟨recipient, account, rfl⟩ := Reading.of_map_eq_done toRecipient
  let word (w : UInt64) := Bytes.littleEndian 8 w.toNat
  have numbers : numberFields.mapM (packNumber fields) = some [word start, word cliff,
      word frequency, word cliffAmount, word periodAmount, word periods, [updateMode],
      [cancelMode]] := by
    simp [numberFields, columns, packNumber_word (Schema.optional_of_required early),
      packNumber_word (Schema.optional_of_required late),
      packNumber_word (Schema.optional_of_required often), packNumber_word atCliff,
      packNumber_word each, packNumber_word count, packNumber_byte update, packNumber_byte cancel,
      word]
  simp [packed, of_recipient_eq_done account, numbers, encode, word]

/-! ## Where records come from -/

theorem readFields_of_ofFields {r : Record} (accepted : ofFields fields = .ok r) :
    readFields fields = .done r := by
  unfold ofFields at accepted
  cases reads : read fields with
  | issues _ => simp [reads, Reading.toExcept] at accepted
  | done s =>
      rw [reads] at accepted
      cases accepted
      exact Reading.of_seqLeft_eq_done reads

theorem readFields_of_node {origin : Origin} {n : Node} (reads : Node.read origin fields = .done n) :
    readFields fields = .done n.record := by
  unfold Node.read at reads
  obtain ⟨_, _, toRecord, -, rfl⟩ := Reading.of_seq_eq_done (Reading.of_seqLeft_eq_done reads)
  obtain ⟨r, accepted, rfl⟩ := Reading.of_map_eq_done toRecord
  exact accepted

theorem exists_of_ofJson {text : String} {r : Record} (accepted : ofJson text = .ok r) :
    ∃ fields, Value.ofJson? text = some (.object fields) ∧ ofFields fields = .ok r := by
  unfold ofJson at accepted
  split at accepted
  · cases accepted
  next v parsed =>
    cases v with
    | object fields => exact ⟨fields, parsed, accepted⟩
    | _ => cases accepted

/-- A record is accepted from its own fields, and from them as text. -/
theorem ofFields_fields (r : Record) : ofFields r.fields = .ok r := by
  have known : Schema.only r.fields columns = .done () :=
    Schema.only_eq_done (by simp [fields, columns])
  have reads := readFields_fields r []
  rw [List.append_nil] at reads
  rw [ofFields, read, reads, known]
  rfl

theorem ofJson_fields (r : Record) (style : Json.Style) :
    ofJson ((Value.object r.fields).toJson style) = .ok r := by
  have storable : Json.Storable Json.deepestNesting (.object r.fields) := by
    refine .object ?_ (Json.storable_recordField r)
    show columns.Nodup
    decide
  simp only [ofJson, Value.ofJson?_toJson storable]
  exact ofFields_fields r

/-! ## The bijection -/

/-- An encoding is said by itself. -/
theorem saidBy_encode (r : Record) : SaidBy r.encode r := by
  obtain ⟨s, said⟩ := exists_saidBy r.length_encode
  rwa [encode_inj (said.encode_eq r.length_encode)] at said

/-- Records and strings of eighty-two bytes are the same thing. Whatever record is accepted, from
named values, from the text of an object, from the rows of a table or as part of a node, the
values pack as they were given, each number in its width, and that is its encoding. Every record
has an encoding of eighty-two bytes, which says each of its fields and which no other record has.
And any eighty-two bytes are the encoding of exactly one record, the one that they say; it is
accepted in each of the ways. -/
theorem encoding_bijective :
    (∀ (fields : Fields) (r : Record), ofFields fields = .ok r → packed fields = some r.encode) ∧
    (∀ (text : String) (r : Record), ofJson text = .ok r →
      ∃ fields, Value.ofJson? text = some (.object fields) ∧ packed fields = some r.encode) ∧
    (∀ (path : String) (content : Bytes) (records : List Record),
      Csv.recordsOfFile path content = .ok records →
      ∃ header rows, (Csv.Rows.ofLines (.ofBytes content)).rows = header :: rows ∧
        List.Forall₂ (fun row r =>
          ∃ cells, Csv.recordCells header row = some cells ∧ packed cells = some r.encode)
          (rows.filter fun row => !row.isEmpty) records) ∧
    (∀ (origin : Origin) (fields : Fields) (n : Node), Node.read origin fields = .done n →
      packed fields = some n.record.encode) ∧
    (∀ r : Record, r.encode.length = 82 ∧ SaidBy r.encode r ∧
      ∀ s : Record, s.encode = r.encode → s = r) ∧
    ∀ b : Bytes, b.length = 82 → ∃ r : Record, SaidBy b r ∧ r.encode = b ∧
      (∀ s : Record, s.encode = b → s = r) ∧ ofFields r.fields = .ok r ∧
      (∀ style : Json.Style, ofJson ((Value.object r.fields).toJson style) = .ok r) ∧
      ∀ path : String, Csv.recordsOfFile path (Text.toUtf8 (Csv.tableOf [r])) = .ok [r] := by
  refine ⟨?_, ?_, ?_, ?_, ?_, ?_⟩
  · intro fields r accepted
    exact packed_eq_encode (readFields_of_ofFields accepted)
  · intro text r accepted
    obtain ⟨fields, parsed, accepted⟩ := exists_of_ofJson accepted
    exact ⟨fields, parsed, packed_eq_encode (readFields_of_ofFields accepted)⟩
  · intro path content records accepted
    obtain ⟨header, rows, table, given⟩ := Csv.exists_of_recordsOfFile accepted
    refine ⟨header, rows, table, given.imp ?_⟩
    rintro row r ⟨cells, found, accepted⟩
    exact ⟨cells, found, packed_eq_encode (readFields_of_ofFields accepted)⟩
  · intro origin fields n reads
    exact packed_eq_encode (readFields_of_node reads)
  · intro r
    exact ⟨r.length_encode, saidBy_encode r, fun s same => encode_inj same⟩
  · intro b size
    obtain ⟨r, said⟩ := exists_saidBy size
    obtain rfl := said.encode_eq size
    exact ⟨r, said, rfl, fun s same => encode_inj same, ofFields_fields r, ofJson_fields r,
      fun path => Csv.recordsOfFile_tableOf path [r]⟩

/-- Fields of every kind that a number may be given as, in no order, and the amounts left out. -/
def mixed : Fields := [
  ("recipient", .text (toHex (List.replicate 32 7))), ("cliff_time", .text " +1_0.0 "),
  ("vesting_start_time", .float (.finite false 3 0)), ("frequency", .bool true),
  ("cancel_mode", .int 255)]

/-- Eighty-two bytes that count. -/
def counting : Bytes := (List.range 82).map UInt8.ofNat

theorem encoding_bijective_mixed :
    (∃ r : Record, ofFields mixed = .ok r ∧ packed mixed = some r.encode ∧ r.start = 3 ∧
      r.cliff = 10) ∧
      counting.length = 82 ∧ ∃ r : Record, r.encode = counting ∧
        r.start.toNat = 0x2726252423222120 ∧ r.cancelMode = 81 := by
  obtain ⟨given, -, -, -, -, said⟩ := encoding_bijective
  have size : counting.length = 82 := by decide
  refine ⟨⟨_, rfl, given mixed _ rfl, rfl, rfl⟩, size, ?_⟩
  obtain ⟨r, told, encoded, -⟩ := said counting size
  exact ⟨r, encoded, told.start, (Option.some.inj told.cancelMode).symm⟩

end Record

end Vesting

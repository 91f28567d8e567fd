/-
# Tables hold the records that were written

A record is written with its recipient in `0x` form and its words as decimal digits. None
of these characters is white space or has to stand in quotes, and each number is far
shorter than the longest one that is read, so the cells of a row are read as the record,
whether it makes sense as a grant or not.

Main statement: `records_round_trip`. Of the world it is only assumed that it keeps its
files.
-/

import Vesting.Csv.File
import Vesting.Proofs.Csv.Rows
import Vesting.Proofs.Distribution.File
import Vesting.Proofs.Text.WholeNumber

namespace Vesting

/-! ## Cells without white space -/

namespace Text

theorem isBlank_hexDigit {n : Nat} (digit : n < 16) : isBlank (hexDigit n) = false := by
  have all : ∀ k : Fin 16, isBlank (hexDigit k) = false := by decide
  exact all ⟨n, digit⟩

theorem isBlank_of_mem_hexEncode {bytes : Bytes} {c : Char} (member : c ∈ Hex.encode bytes) :
    isBlank c = false := by
  induction bytes with
  | nil => cases member
  | cons byte rest ih =>
      have bound : byte.toNat < 256 := byte.toNat_lt
      rw [Hex.encode, List.mem_cons, List.mem_cons] at member
      rcases member with rfl | rfl | member
      · exact isBlank_hexDigit (by omega)
      · exact isBlank_hexDigit (by omega)
      · exact ih member

end Text

namespace Csv

theorem strip_eq_self {s : String} (none : ∀ c ∈ s.toList, Text.isBlank c = false) :
    strip s = s := by
  rw [strip, Text.trim_eq_self none, String.ofList_toList]

theorem strip_toHex (bytes : Bytes) : strip (toHex bytes) = toHex bytes := by
  refine strip_eq_self fun c member => ?_
  rw [toHex, String.toList_ofList, List.mem_cons, List.mem_cons] at member
  rcases member with rfl | rfl | member
  · decide
  · decide
  · exact Text.isBlank_of_mem_hexEncode member

theorem strip_toString (n : Nat) : strip (toString n) = toString n := by
  have digits : (toString n).toList = Nat.toDigits 10 n := String.toList_ofList
  refine strip_eq_self fun c member => ?_
  rw [digits] at member
  exact Text.isBlank_of_isDigit (Text.isDigit_of_mem_toDigits_ten member)

end Csv

/-! ## Numbers -/

namespace Schema

theorem natural_toString {limit n : Nat} (inside : n ≤ limit) (word : n ≤ Record.wordMax) :
    natural limit (.text (toString n)) = .done n := by
  have short : (Nat.toDigits 10 n).length ≤ Text.longestWhole :=
    Nat.le_trans (length_toDigits_le word) (by decide)
  have positive : ¬ (n : Int) < 0 := by omega
  simp only [natural, whole, wholeOfText, Text.readFieldNumber_toString n short, Reading.andThen,
    if_neg positive, Int.toNat_natCast, if_neg (Nat.not_lt.2 inside)]

theorem word_toString (w : UInt64) : word (.text (toString w.toNat)) = .done w := by
  have bound := word_le_wordMax w
  have read : natural 0xffffffffffffffff (.text (toString w.toNat)) = .done w.toNat :=
    natural_toString bound bound
  rw [word, read, Reading.map, UInt64.ofNat_toNat]

theorem byte_toString (b : UInt8) : byte (.text (toString b.toNat)) = .done b := by
  have inside : b.toNat ≤ 0xff := Nat.le_of_lt_succ b.toNat_lt
  rw [byte, natural_toString inside (Nat.le_trans inside (by decide)), Reading.map,
    UInt8.ofNat_toNat]

end Schema

namespace Csv

/-! ## Rows -/

/-- The fields that a row of a record gives: the texts that were written. -/
def textFields (r : Record) : Fields :=
  (Record.columns.zip (recordRow r)).map fun field => (field.1, .text field.2)

/-- Under the header of a written table every field of a record is found, and its cell has no
white space to lose. -/
theorem recordCells_recordRow (r : Record) :
    recordCells Record.columns (recordRow r) = some (textFields r) := by
  have stripped : (recordRow r).map strip = recordRow r := by
    simp only [recordRow, List.map_cons, List.map_nil, Recipient.toHex, strip_toHex,
      strip_toString]
  have found : recordCells Record.columns (recordRow r) =
      some ((Record.columns.zip ((recordRow r).map strip)).map fun field =>
        (field.1, .text field.2)) := rfl
  rw [found, stripped, textFields]

theorem readFields_textFields (r : Record) : Record.readFields (textFields r) = .done r := by
  simp [Record.readFields, Schema.required, Schema.optional, Fields.get?, textFields,
    Record.columns, recordRow, Schema.recipient_toHex, Schema.word_toString,
    Schema.byte_toString, Reading.under, -Nat.toString_eq_repr]
  rfl

theorem ofFields_textFields (r : Record) : Record.ofFields (textFields r) = .ok r := by
  have known : Schema.only (textFields r) Record.columns = .done () :=
    Schema.only_eq_done fun field member => by
      obtain ⟨⟨name, cell⟩, zipped, rfl⟩ := List.mem_map.1 member
      exact (List.of_mem_zip zipped).1
  rw [Record.ofFields, Record.read, readFields_textFields, known]
  rfl

theorem readRecord_recordRow (path : String) (line : Nat) (r : Record) :
    readRecord path Record.columns line (recordRow r) = .ok r := by
  rw [readRecord, recordCells_recordRow]
  simp only [ofFields_textFields]
  rfl

theorem readRecords_recordRow (path : String) (line : Nat) (records : List Record) :
    readRecords path Record.columns line (records.map recordRow) = .ok records := by
  induction records generalizing line with
  | nil => rfl
  | cons r records ih =>
      simp only [List.map_cons, readRecords, readRecord_recordRow, ih]
      rfl

/-! ## Tables -/

theorem length_toHex_recipient (r : Recipient) : r.toHex.length = 66 := by
  rw [Recipient.toHex, toHex, String.length_ofList, List.length_cons, List.length_cons,
    Hex.length_encode, r.size]

theorem length_toString_le {n : Nat} (word : n ≤ Record.wordMax) : (toString n).length ≤ 20 :=
  Nat.le_trans (Nat.le_of_eq String.length_ofList) (length_toDigits_le word)

theorem length_cell_recordRow_le {r : Record} {cell : String} (member : cell ∈ recordRow r) :
    cell.length ≤ 66 := by
  have word (w : UInt64) : (toString w.toNat).length ≤ 66 :=
    Nat.le_trans (length_toString_le (word_le_wordMax w)) (by decide)
  have byte (b : UInt8) : (toString b.toNat).length ≤ 66 :=
    Nat.le_trans (length_toString_le (Nat.le_trans (Nat.le_of_lt b.toNat_lt) (by decide)))
      (by decide)
  have recipient := Nat.le_of_eq (length_toHex_recipient r.recipient)
  revert cell
  simp only [recordRow, List.forall_mem_cons, recipient, word, byte, List.not_mem_nil,
    false_imp_iff, implies_true, and_self]

/-- No cell of a table of records comes near the length of the longest that is read. -/
theorem length_cell_le {records : List Record} {row : Row} {cell : String}
    (present : row ∈ Record.columns :: records.map recordRow) (member : cell ∈ row) :
    cell.length ≤ longestCell := by
  have few : cell.length ≤ 66 := by
    rcases List.mem_cons.1 present with rfl | present
    · revert cell
      decide
    · obtain ⟨r, -, rfl⟩ := List.mem_map.1 present
      exact length_cell_recordRow_le member
  exact Nat.le_trans few (by decide)

theorem recordsOfFile_tableOf (path : String) (records : List Record) :
    recordsOfFile path (Text.toUtf8 (tableOf records)) = .ok records := by
  have rows : Rows.ofLines (.ofBytes (Text.toUtf8 (tableOf records))) =
      ⟨Record.columns :: records.map recordRow, none⟩ :=
    ofLines_writeTable _ fun row present cell => length_cell_le present
  have complete : missingColumns Record.columns = [] := by decide
  have filled : (records.map recordRow).filter (fun row => !row.isEmpty) =
      records.map recordRow := by
    rw [List.filter_eq_self]
    intro row member
    obtain ⟨r, -, rfl⟩ := List.mem_map.1 member
    rfl
  rw [recordsOfFile, rows, recordsOfRows]
  simp only [recordsBelow, complete, List.isEmpty_nil, Bool.not_true, Bool.false_eq_true,
    if_false, filled, readRecords_recordRow]

end Csv

/-! ## Files -/

section World

variable {m : Type → Type} [Monad m] [LawfulMonad m] [Storage m]

/-- The distribution of the records in the table file at a path. -/
def Distribution.loadTable (path : Path) (version : Value) : ExceptT Failure m Distribution := do
  let records ← Csv.load path
  ExceptT.mk (pure (buildAs records version))

namespace Csv

theorem save_load (keeps : Storage.KeepsFiles m) (records : List Record) (path : Path) :
    (do save records path; load path : ExceptT Failure m (List Record)) =
      (do save records path; return records) := by
  unfold save load loadWith
  rw [← bind_assoc, keeps, bind_assoc]
  simp only [pure_bind, recordsOfFile_tableOf]
  rfl

/-- Tables hold the records that were written. Any records in any number, whether they make
sense as grants or not and whether recipients repeat or not, are read back in order from the
table that is written of them and, in every world that keeps its files, from the file that it
is kept in. So the distribution of this file is the one of the records, or both are refused
for the same reason, under any version. -/
theorem records_round_trip (keeps : Storage.KeepsFiles m) (records : List Record) :
    (∀ path : String, recordsOfFile path (Text.toUtf8 (tableOf records)) = .ok records) ∧
    (∀ path : Path, (do save records path; load path : ExceptT Failure m (List Record)) =
      (do save records path; return records)) ∧
    ∀ (path : Path) (version : Value),
      (do save records path; Distribution.loadTable path version :
        ExceptT Failure m Distribution) =
      (do save records path; ExceptT.mk (pure (Distribution.buildAs records version))) := by
  refine ⟨fun path => recordsOfFile_tableOf path records, save_load keeps records, ?_⟩
  intro path version
  unfold Distribution.loadTable
  rw [← bind_assoc, save_load keeps, bind_assoc]
  simp only [pure_bind]

end Csv

end World

namespace Csv

/-- The same grant twice, which starts when its cliff is. -/
def twice : List Record := [Distribution.largestRecord, Distribution.largestRecord]

/-- In an empty volume it is kept in a table, read from there, and refused as it would be
without the table. -/
theorem records_round_trip_twice :
    Storage.KeepsFiles (StateM Volume) ∧ twice.length = 2 ∧
      (do save twice ⟨"", ["grants.csv"]⟩; load ⟨"", ["grants.csv"]⟩ :
        ExceptT Failure (StateM Volume) (List Record)).run.run (.empty "") =
          (.ok twice, ⟨"", [(["grants.csv"], .file (Text.toUtf8 (tableOf twice)))], "", ""⟩) ∧
      (do save twice ⟨"", ["grants.csv"]⟩; Distribution.loadTable ⟨"", ["grants.csv"]⟩ (.int 0) :
        ExceptT Failure (StateM Volume) Distribution).run.run (.empty "") =
          (Distribution.buildAs twice (.int 0),
            ⟨"", [(["grants.csv"], .file (Text.toUtf8 (tableOf twice)))], "", ""⟩) := by
  obtain ⟨-, loaded, built⟩ := records_round_trip Volume.keepsFiles twice
  refine ⟨Volume.keepsFiles, rfl, ?_, ?_⟩
  · rw [loaded]
    rfl
  · rw [built]
    rfl

end Csv

end Vesting

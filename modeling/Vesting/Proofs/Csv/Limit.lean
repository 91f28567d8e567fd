/-
# Cells that are too long

A reader gives up where a cell becomes longer than the longest one that is allowed, and
otherwise where the lines have a fault. What the first means is said by a reading that knows
no limit: some front of a line makes a cell too long.

Main statement: `failure_ofLines_eq_some_iff`. A step either adds a character, or moves on, or
closes the cell; the limit is looked at by the first only, so both readings take the same
steps up to the place where the limit is passed.
-/

import Vesting.Proofs.Csv.Rows

namespace Vesting.Csv

open Text (Utf8Fault)

namespace Scan

variable {s : Scan} {c : Char} {line : Line}

/-! ## Steps -/

/-- What a step does with the current cell. -/
inductive Move
  | add (next : Place)
  | go (next : Place)
  | close (next : Place)

def Move.apply (m : Move) (s : Scan) (c : Char) : Option Scan :=
  match m with
  | .add next => s.push next c
  | .go next => some { s with place := next }
  | .close next => some (s.save next)

theorem exists_openCell_eq (c : Char) : ∃ m : Move, ∀ s : Scan, s.openCell c = m.apply s c := by
  unfold openCell
  split
  · exact ⟨.close .rowEnd, fun _ => rfl⟩
  split
  · exact ⟨.go .inQuotes, fun _ => rfl⟩
  split
  · exact ⟨.close .cellStart, fun _ => rfl⟩
  · exact ⟨.add .inCell, fun _ => rfl⟩

/-- The place and the character decide what is done, whatever has been read. -/
theorem exists_step_eq (place : Place) (c : Char) : ∃ m : Move, ∀ cells cell size,
    step ⟨place, cells, cell, size⟩ c = m.apply ⟨place, cells, cell, size⟩ c := by
  obtain ⟨opened, opens⟩ := exists_openCell_eq c
  cases place <;> simp only [step, opens]
  case rowStart =>
    split
    · exact ⟨.go .rowEnd, fun _ _ _ => rfl⟩
    · exact ⟨opened, fun _ _ _ => rfl⟩
  case cellStart => exact ⟨opened, fun _ _ _ => rfl⟩
  case inCell =>
    split
    · exact ⟨.close .rowEnd, fun _ _ _ => rfl⟩
    split
    · exact ⟨.close .cellStart, fun _ _ _ => rfl⟩
    · exact ⟨.add .inCell, fun _ _ _ => rfl⟩
  case inQuotes =>
    split
    · exact ⟨.go .afterQuote, fun _ _ _ => rfl⟩
    · exact ⟨.add .inQuotes, fun _ _ _ => rfl⟩
  case afterQuote =>
    split
    · exact ⟨.add .inQuotes, fun _ _ _ => rfl⟩
    split
    · exact ⟨.close .cellStart, fun _ _ _ => rfl⟩
    split
    · exact ⟨.close .rowEnd, fun _ _ _ => rfl⟩
    · exact ⟨.add .inCell, fun _ _ _ => rfl⟩
  case rowEnd => exact ⟨.go .rowEnd, fun _ _ _ => rfl⟩

/-! ## Reading without the limit -/

/-- Read a character, however long the cell becomes: with no characters counted, every step
is taken. -/
def grow (s : Scan) (c : Char) : Scan := (({ s with size := 0 }).step c).getD s

def growLine (s : Scan) (line : Line) : Scan := line.foldl grow s

/-- The scan with the right number of characters in the current cell. -/
def measured (s : Scan) : Scan := { s with size := s.cell.length }

/-- A step with the limit fails where it makes the cell too long, and otherwise is a step
without the limit. -/
theorem step_measured (short : s.cell.length ≤ longestCell) :
    s.measured.step c =
      if longestCell < (s.grow c).cell.length then none else some (s.grow c).measured := by
  obtain ⟨place, cells, cell, size⟩ := s
  obtain ⟨m, does⟩ := exists_step_eq place c
  simp only [measured, grow, does]
  cases m with
  | add next =>
      have room : ¬longestCell ≤ 0 := by decide
      simp only [Move.apply, push, if_neg room, Option.getD_some, List.length_cons,
        Nat.lt_succ_iff]
  | go next =>
      have fits : ¬longestCell < cell.length := Nat.not_lt.2 short
      exact (if_neg fits).symm
  | close next => rfl

/-- Some front of a line makes a cell too long. -/
def Overgrows (s : Scan) (line : Line) : Prop :=
  ∃ front, front <+: line ∧ longestCell < (s.growLine front).cell.length

theorem overgrows_cons (short : s.cell.length ≤ longestCell) :
    s.Overgrows (c :: line) ↔ (s.grow c).Overgrows line := by
  constructor
  · rintro ⟨front, isFront, long⟩
    cases front with
    | nil => exact absurd long (Nat.not_lt.2 short)
    | cons d front =>
        obtain ⟨rfl, below⟩ := List.cons_prefix_cons.1 isFront
        exact ⟨front, below, long⟩
  · rintro ⟨front, isFront, long⟩
    exact ⟨c :: front, List.cons_prefix_cons.2 ⟨rfl, isFront⟩, long⟩

/-- A line is read exactly if no front of it makes a cell too long, and then as without the
limit. -/
theorem readLine_measured (short : s.cell.length ≤ longestCell) (line : Line) :
    (s.Overgrows line ∧ s.measured.readLine line = none) ∨
      ¬s.Overgrows line ∧ (s.growLine line).cell.length ≤ longestCell ∧
        s.measured.readLine line = some (s.growLine line).measured := by
  induction line generalizing s with
  | nil =>
      refine .inr ⟨?_, short, rfl⟩
      rintro ⟨front, isFront, long⟩
      obtain rfl := List.prefix_nil.1 isFront
      exact absurd long (Nat.not_lt.2 short)
  | cons c line ih =>
      have first : s.measured.readLine (c :: line) = (s.measured.step c).bind (·.readLine line) :=
        List.foldlM_cons
      rw [overgrows_cons short, first, step_measured short]
      by_cases long : longestCell < (s.grow c).cell.length
      · rw [if_pos long]
        exact .inl ⟨⟨[], List.nil_prefix, long⟩, rfl⟩
      · rw [if_neg long]
        exact ih (Nat.le_of_not_lt long)

end Scan

/-! ## Lines -/

/-- Read without the limit, some front of a line makes a cell too long. The first of the lines
goes on with a scan; a row goes on with the next line if it is open in quotes. -/
def AnyOvergrows : Scan → List Line → Prop
  | _, [] => False
  | s, line :: rest =>
    s.Overgrows line ∨
      AnyOvergrows (if (s.growLine line).place == .inQuotes then s.growLine line else .start) rest

/-- Lines in which a cell becomes too long. -/
def Lines.HasLongCell (l : Lines) : Prop := AnyOvergrows .start l.lines

/-- What ends the rows of lines is a cell that is too long, if there is one. -/
theorem failure_readRows (fault : Option Utf8Fault) {s : Scan}
    (short : s.cell.length ≤ longestCell) (lines : List Line) :
    (AnyOvergrows s lines ∧
        (readRows fault s.measured lines).failure = some (.cellTooLong longestCell)) ∨
      ¬AnyOvergrows s lines ∧ (readRows fault s.measured lines).failure = fault.map .notText := by
  induction lines generalizing s with
  | nil => cases fault <;> exact .inr ⟨id, rfl⟩
  | cons line rest ih =>
      rcases s.readLine_measured short line with ⟨long, read⟩ | ⟨fits, short, read⟩
      · rw [readRows, read]
        exact .inl ⟨.inl long, rfl⟩
      rw [readRows, read, AnyOvergrows, or_iff_right fits]
      by_cases open' : (s.growLine line).place == .inQuotes
      · have on : (s.growLine line).measured.place == .inQuotes := open'
        simp only [if_pos open', if_pos on]
        exact ih short
      · have on : ¬(s.growLine line).measured.place == .inQuotes := open'
        simp only [if_neg open', if_neg on]
        exact ih (s := .start) (Nat.zero_le _)

/-- The rows of lines end in a failure where a cell becomes too long, and otherwise in the
fault of the lines. -/
theorem failure_ofLines_eq_some_iff {l : Lines} {failure : Failure} :
    (Rows.ofLines l).failure = some failure ↔
      (l.HasLongCell ∧ failure = .cellTooLong longestCell) ∨
        ¬l.HasLongCell ∧ ∃ fault, l.fault = some fault ∧ failure = .notText fault := by
  have cases : (l.HasLongCell ∧ (Rows.ofLines l).failure = some (.cellTooLong longestCell)) ∨
      ¬l.HasLongCell ∧ (Rows.ofLines l).failure = l.fault.map .notText :=
    failure_readRows l.fault (s := .start) (Nat.zero_le _) l.lines
  rcases cases with ⟨long, ends⟩ | ⟨fits, ends⟩
  · rw [ends]
    simp [long, eq_comm]
  · rw [ends]
    simp [fits, eq_comm]

/-! ## Long lines -/

/-- A character without a meaning of its own is added to a cell that is open. -/
theorem Scan.grow_inCell {c : Char} (plain : isSpecial c = false) (cells : List String)
    (cell : List Char) (size : Nat) :
    grow ⟨.inCell, cells, cell, size⟩ c = ⟨.inCell, cells, c :: cell, 1⟩ := by
  simp only [isSpecial, Bool.or_eq_false_iff] at plain
  obtain ⟨⟨⟨comma, -⟩, ret⟩, feed⟩ := plain
  simp [grow, step, endsLine, comma, ret, feed, push, longestCell]

theorem Scan.grow_start {c : Char} (plain : isSpecial c = false) :
    start.grow c = ⟨.inCell, [], [c], 1⟩ := by
  simp only [isSpecial, Bool.or_eq_false_iff] at plain
  obtain ⟨⟨⟨comma, quote⟩, ret⟩, feed⟩ := plain
  simp [grow, start, step, openCell, endsLine, comma, quote, ret, feed, push, longestCell]

theorem Scan.cell_growLine {cs : List Char} (plain : ∀ c ∈ cs, isSpecial c = false)
    (cells : List String) (cell : List Char) (size : Nat) :
    (growLine ⟨.inCell, cells, cell, size⟩ cs).cell = cs.reverse ++ cell := by
  induction cs generalizing cell size with
  | nil => rfl
  | cons c cs ih =>
      rw [List.forall_mem_cons] at plain
      rw [growLine, List.foldl_cons, grow_inCell plain.1, List.reverse_cons, List.append_assoc,
        List.singleton_append]
      exact ih plain.2 (c :: cell) 1

/-- A line that starts with too many characters without a meaning of their own. -/
theorem Scan.overgrows_start {cs : List Char} (plain : ∀ c ∈ cs, isSpecial c = false)
    (long : longestCell < cs.length) (rest : List Char) : start.Overgrows (cs ++ rest) := by
  refine ⟨cs, List.prefix_append cs rest, ?_⟩
  cases cs with
  | nil => exact absurd long (Nat.not_lt_zero _)
  | cons c cs =>
      rw [List.forall_mem_cons] at plain
      rw [growLine, List.foldl_cons, grow_start plain.1]
      have whole : (growLine ⟨.inCell, [], [c], 1⟩ cs).cell = cs.reverse ++ [c] :=
        cell_growLine plain.2 [] [c] 1
      rw [growLine] at whole
      rwa [whole, List.length_append, List.length_reverse]

/-- Nothing is read of lines of which the first makes a cell too long. -/
theorem ofLines_of_overgrows {line : Line} (long : Scan.start.Overgrows line) (rest : List Line)
    (fault : Option Utf8Fault) :
    Rows.ofLines ⟨line :: rest, fault⟩ = ⟨[], some (.cellTooLong longestCell)⟩ := by
  rcases Scan.start.readLine_measured (Nat.zero_le _) line with ⟨-, read⟩ | ⟨fits, -⟩
  · have read : Scan.start.readLine line = none := read
    rw [Rows.ofLines, readRows, read]
  · exact absurd long fits

theorem splitFrom_of_plain {cs : List Char} (plain : ∀ c ∈ cs, isSpecial c = false)
    (current : List Char) : splitFrom current cs = splitFrom (cs.reverse ++ current) [] := by
  induction cs generalizing current with
  | nil => rfl
  | cons c cs ih =>
      rw [List.forall_mem_cons] at plain
      have onLine : Scan.endsLine c = false := by
        have ordinary := plain.1
        simp only [isSpecial, Bool.or_eq_false_iff] at ordinary
        simp [Scan.endsLine, ordinary]
      rw [splitFrom_of_not_endsLine onLine, ih plain.2, List.reverse_cons, List.append_assoc,
        List.singleton_append]

/-- A text without line ends, commas and quotes is one line. -/
theorem ofBytes_of_plain {s : String} (plain : ∀ c ∈ s.toList, isSpecial c = false)
    (filled : s.toList ≠ []) : Lines.ofBytes (Text.toUtf8 s) = ⟨[s.toList], none⟩ := by
  simp only [Lines.ofBytes, Text.utf8Parts_toUtf8, splitLines]
  rw [splitFrom_of_plain plain, splitFrom]
  simp [filled]

end Vesting.Csv

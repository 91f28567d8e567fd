/-
# What is read back of a written table

A reader takes a table line by line while a row may run over several lines, so the two
have to be kept apart. `Scan.Within` is the reading of characters of one row: each is
taken by a step of the scan, and a line end among them stands in quotes. Such a reading
does not depend on where the lines end, and the characters of a written row are read in
this way up to the line end behind them.

Main statement: `ofLines_writeTable`.
-/

import Vesting.Csv.Rows
import Vesting.Csv.Writer
import Vesting.Proofs.Text.Utf8

namespace Vesting.Csv

open Text (Utf8Fault)

namespace Scan

/-! ## Reading inside of a row -/

/-- Reading characters of a row takes one scan to another; line ends stand in quotes. -/
inductive Within : Scan → List Char → Scan → Prop
  | refl (s : Scan) : Within s [] s
  | step {s mid t : Scan} {c : Char} {cs : List Char} (taken : s.step c = some mid)
      (inRow : endsLine c = false ∨ mid.place = .inQuotes) (more : Within mid cs t) :
      Within s (c :: cs) t

theorem Within.one {s t : Scan} {c : Char} (taken : s.step c = some t)
    (inRow : endsLine c = false ∨ t.place = .inQuotes) : Within s [c] t :=
  .step taken inRow (.refl t)

theorem Within.trans {s mid t : Scan} {cs ds : List Char} (first : Within s cs mid)
    (second : Within mid ds t) : Within s (cs ++ ds) t := by
  induction first with
  | refl => exact second
  | step taken inRow _ ih => exact .step taken inRow (ih second)

theorem readLine_append (s : Scan) (cs ds : Line) :
    s.readLine (cs ++ ds) = (s.readLine cs).bind (·.readLine ds) :=
  List.foldlM_append

theorem readLine_reverse_cons {begun s t : Scan} {current : List Char} {c : Char}
    (read : begun.readLine current.reverse = some s) (taken : s.step c = some t) :
    begun.readLine (c :: current).reverse = some t := by
  rw [List.reverse_cons, readLine_append, read, Option.bind_some]
  simp [readLine, taken]

end Scan

/-! ## Lines -/

theorem splitFrom_of_not_endsLine {c : Char} (plain : Scan.endsLine c = false)
    (current cs : List Char) : splitFrom current (c :: cs) = splitFrom (c :: current) cs := by
  have feed : c ≠ '\n' := by rintro rfl; simp [Scan.endsLine] at plain
  have ret : c ≠ '\r' := by rintro rfl; simp [Scan.endsLine] at plain
  rw [splitFrom]
  · exact feed
  · exact fun _ eq _ => ret eq
  · exact ret

/-- A line end closes the line, or it is a carriage return that the line feed behind it
closes the line for. -/
theorem splitFrom_of_endsLine {c : Char} (ends : Scan.endsLine c = true)
    (current cs : List Char) :
    splitFrom current (c :: cs) = (c :: current).reverse :: splitLines cs ∨
      splitFrom current (c :: cs) = splitFrom (c :: current) cs := by
  obtain rfl | rfl : c = '\n' ∨ c = '\r' := by simpa [Scan.endsLine] using ends
  · exact .inl rfl
  · by_cases feed : ∃ rest, cs = '\n' :: rest
    · obtain ⟨rest, rfl⟩ := feed
      exact .inr rfl
    · refine .inl ?_
      rw [splitFrom]
      · rfl
      · exact fun rest eq => feed ⟨rest, eq⟩

/-! ## Reading on from the middle of a row -/

/-- From a scan, reading on gives rows, wherever the lines of the row so far ended. -/
def Reads (fault : Option Utf8Fault) (s : Scan) (cs : List Char) (rows : Rows) : Prop :=
  ∀ (begun : Scan) (current : List Char), begun.readLine current.reverse = some s →
    readRows fault begun (splitFrom current cs) = rows

namespace Reads

variable {fault : Option Utf8Fault} {s mid t : Scan} {c : Char} {cs rest : List Char}
  {rows : Rows}

theorem readRows_eq (reads : Reads fault s cs rows) :
    readRows fault s (splitLines cs) = rows :=
  reads s [] rfl

theorem cons (taken : s.step c = some mid)
    (inRow : Scan.endsLine c = false ∨ mid.place = .inQuotes)
    (reads : Reads fault mid cs rows) : Reads fault s (c :: cs) rows := by
  intro begun current read
  have read' := Scan.readLine_reverse_cons read taken
  have onSameLine := reads begun (c :: current) read'
  cases ends : Scan.endsLine c with
  | false => rw [splitFrom_of_not_endsLine ends, onSameLine]
  | true =>
      have quoted : mid.place = .inQuotes := inRow.resolve_left (by simp [ends])
      rcases splitFrom_of_endsLine ends current cs with split | split
      · rw [split, readRows, read']
        simp only [quoted, beq_self_eq_true, if_true, reads.readRows_eq]
      · rw [split, onSameLine]

/-- What is read within a row does not depend on the lines. -/
theorem within (first : Scan.Within s cs t) (reads : Reads fault t rest rows) :
    Reads fault s (cs ++ rest) rows := by
  induction first with
  | refl => exact reads
  | step taken inRow _ ih => exact cons taken inRow (ih reads)

/-- The line end behind a written row ends the row. -/
theorem lineEnd {row : Row} (ends : s.step '\r' = some ⟨.rowEnd, row.reverse, [], 0⟩)
    (rest : List Char) :
    Reads fault s ('\r' :: '\n' :: rest)
      ⟨row :: (readRows fault .start (splitLines rest)).rows,
        (readRows fault .start (splitLines rest)).failure⟩ := by
  intro begun current read
  have atEnd : begun.readLine ('\n' :: '\r' :: current).reverse =
      some ⟨.rowEnd, row.reverse, [], 0⟩ :=
    Scan.readLine_reverse_cons (Scan.readLine_reverse_cons read ends) rfl
  have whole : (⟨.rowEnd, row.reverse, [], 0⟩ : Scan).row = row := List.reverse_reverse row
  rw [splitFrom, readRows, atEnd]
  simp only [whole]
  rfl

end Reads

/-! ## Cells -/

namespace Scan

/-- A place where a cell starts. -/
def opensCell (place : Place) : Prop := place = .rowStart ∨ place = .cellStart

/-- A place where a cell may end: behind its characters, behind its quotes, or where it
starts if it has no characters. -/
def closesCell (place : Place) (cell : String) : Prop :=
  place = .inCell ∨ place = .afterQuote ∨ opensCell place ∧ cell = ""

variable {place : Place} (cells : List String)

/-- The characters of a cell outside of quotes are read as they are. -/
theorem within_plain (cs cell : List Char) (size : Nat)
    (plain : ∀ c ∈ cs, isSpecial c = false) (short : size + cs.length ≤ longestCell) :
    Within ⟨.inCell, cells, cell, size⟩ cs
      ⟨.inCell, cells, cs.reverse ++ cell, size + cs.length⟩ := by
  induction cs generalizing cell size with
  | nil => exact .refl _
  | cons c cs ih =>
      rw [List.length_cons] at short
      have ordinary := plain c List.mem_cons_self
      simp only [isSpecial, Bool.or_eq_false_iff] at ordinary
      obtain ⟨⟨⟨comma, -⟩, ret⟩, feed⟩ := ordinary
      have inLine : endsLine c = false := by simp [endsLine, ret, feed]
      have taken : step ⟨.inCell, cells, cell, size⟩ c =
          some ⟨.inCell, cells, c :: cell, size + 1⟩ := by
        have room : ¬longestCell ≤ size := by omega
        simp [step, inLine, comma, push, room]
      refine .step taken (.inl inLine) ?_
      have := ih (c :: cell) (size + 1) (fun d mem => plain d (.tail c mem)) (by omega)
      simpa only [List.reverse_cons, List.append_assoc, List.singleton_append, List.length_cons,
        Nat.add_assoc, Nat.add_comm 1] using this

/-- The characters of a cell in quotes are read with two quotes for one. -/
theorem within_quoted (cs cell : List Char) (size : Nat)
    (short : size + cs.length ≤ longestCell) :
    Within ⟨.inQuotes, cells, cell, size⟩
      (cs.flatMap fun c => if c == '"' then ['"', '"'] else [c])
      ⟨.inQuotes, cells, cs.reverse ++ cell, size + cs.length⟩ := by
  induction cs generalizing cell size with
  | nil => exact .refl _
  | cons c cs ih =>
      rw [List.length_cons] at short
      have room : ¬longestCell ≤ size := by omega
      have one : Within ⟨.inQuotes, cells, cell, size⟩ (if c == '"' then ['"', '"'] else [c])
          ⟨.inQuotes, cells, c :: cell, size + 1⟩ := by
        cases quote : c == '"' with
        | true =>
            obtain rfl := beq_iff_eq.1 quote
            have closed : step ⟨.inQuotes, cells, cell, size⟩ '"' =
              some ⟨.afterQuote, cells, cell, size⟩ := rfl
            refine .step closed (.inl rfl) (.one ?_ (.inr rfl))
            simp [step, push, room]
        | false => exact .one (by simp [step, quote, push, room]) (.inr rfl)
      have := one.trans (ih (c :: cell) (size + 1) (by omega))
      simpa only [List.flatMap_cons, List.reverse_cons, List.append_assoc, List.singleton_append,
        List.length_cons, Nat.add_assoc, Nat.add_comm 1] using this

theorem within_quoteCell (cs : List Char) (opens : opensCell place)
    (short : cs.length ≤ longestCell) :
    Within ⟨place, cells, [], 0⟩ (quoteCell cs) ⟨.afterQuote, cells, cs.reverse, cs.length⟩ := by
  have opened : step ⟨place, cells, [], 0⟩ '"' = some ⟨.inQuotes, cells, [], 0⟩ := by
    rcases opens with rfl | rfl <;> rfl
  have closed : step ⟨.inQuotes, cells, cs.reverse, cs.length⟩ '"' =
    some ⟨.afterQuote, cells, cs.reverse, cs.length⟩ := rfl
  have inside := within_quoted cells cs [] 0 (by omega)
  rw [List.append_nil, Nat.zero_add] at inside
  exact (Within.step opened (.inl rfl) inside).trans (.one closed (.inl rfl))

/-- A written cell is read up to a place where it may end. -/
theorem within_writeCell (cell : String) (opens : opensCell place)
    (short : cell.length ≤ longestCell) :
    ∃ last, closesCell last cell ∧ (cell = "" → last = place) ∧
      Within ⟨place, cells, [], 0⟩ (writeCell cell)
        ⟨last, cells, cell.toList.reverse, cell.toList.length⟩ := by
  rw [← String.length_toList] at short
  cases special : cell.toList.any isSpecial with
  | true =>
      refine ⟨.afterQuote, .inr (.inl rfl), ?_, ?_⟩
      · rintro rfl
        simp at special
      · rw [writeCell, special, if_pos rfl]
        exact within_quoteCell cells cell.toList opens short
  | false =>
      rw [writeCell, special, if_neg Bool.false_ne_true]
      have plain : ∀ c ∈ cell.toList, isSpecial c = false := by simpa using special
      cases chars : cell.toList with
      | nil =>
          have empty : cell = "" := by simpa using chars
          exact ⟨place, .inr (.inr ⟨opens, empty⟩), fun _ => rfl, .refl _⟩
      | cons c cs =>
          rw [chars] at plain short
          rw [List.length_cons] at short
          have ordinary := plain c List.mem_cons_self
          simp only [isSpecial, Bool.or_eq_false_iff] at ordinary
          obtain ⟨⟨⟨comma, quote⟩, ret⟩, feed⟩ := ordinary
          have inLine : endsLine c = false := by simp [endsLine, ret, feed]
          have taken : step ⟨place, cells, [], 0⟩ c = some ⟨.inCell, cells, [c], 1⟩ := by
            have room : ¬longestCell ≤ 0 := by decide
            rcases opens with rfl | rfl <;> simp [step, openCell, inLine, comma, quote, push, room]
          have rest := within_plain cells cs [c] 1 (fun d mem => plain d (.tail c mem)) (by omega)
          refine ⟨.inCell, .inl rfl, ?_, ?_⟩
          · rintro rfl
            simp at chars
          · rw [List.reverse_cons, List.length_cons, Nat.add_comm]
            exact .step taken (.inl inLine) rest

theorem step_comma {cell : String} (closes : closesCell place cell) (size : Nat) :
    step ⟨place, cells, cell.toList.reverse, size⟩ ',' =
      some ⟨.cellStart, cell :: cells, [], 0⟩ := by
  rcases closes with rfl | rfl | ⟨rfl | rfl, rfl⟩ <;>
    simp [step, openCell, save, endsLine]

/-- The line end behind a cell ends the row with this cell, except that there is no cell
on an empty line. -/
theorem step_return {cell : String} (closes : closesCell place cell)
    (cell_or_line : place ≠ .rowStart) (size : Nat) :
    step ⟨place, cells, cell.toList.reverse, size⟩ '\r' =
      some ⟨.rowEnd, cell :: cells, [], 0⟩ := by
  rcases closes with rfl | rfl | ⟨rfl | rfl, rfl⟩
  · simp [step, save, endsLine]
  · simp [step, save, endsLine]
  · exact absurd rfl cell_or_line
  · simp [step, openCell, save, endsLine]

/-! ## Rows -/

/-- The cells of a row are read up to a scan that a line end completes the row in. A single
empty cell at the start of a line would be read as no cell. -/
theorem within_writeCells (row : Row) (nonempty : row ≠ []) (opens : opensCell place)
    (not_lone : place = .rowStart → row ≠ [""])
    (short : ∀ cell ∈ row, cell.length ≤ longestCell) :
    ∃ t, Within ⟨place, cells, [], 0⟩ (writeCells row) t ∧
      t.step '\r' = some ⟨.rowEnd, row.reverse ++ cells, [], 0⟩ := by
  induction row generalizing place cells with
  | nil => exact absurd rfl nonempty
  | cons cell rest ih =>
      obtain ⟨last, closes, stays, read⟩ :=
        within_writeCell cells cell opens (short cell List.mem_cons_self)
      cases rest with
      | nil =>
          refine ⟨_, read, step_return cells closes ?_ _⟩
          rintro rfl
          rcases closes with impossible | impossible | ⟨-, empty⟩
          · cases impossible
          · cases impossible
          · exact not_lone (stays empty).symm (by rw [empty])
      | cons next rest =>
          obtain ⟨t, more, ends⟩ := ih (cell :: cells) (List.cons_ne_nil next rest) (.inr rfl)
            (fun start => nomatch start) (fun other mem => short other (.tail cell mem))
          refine ⟨t, read.trans (.step (step_comma cells closes _) (.inl rfl) more), ?_⟩
          rw [ends, List.reverse_cons (a := cell), List.append_assoc, List.singleton_append]

end Scan

variable {fault : Option Utf8Fault}

/-- A written row is read back as the row in front of what follows. -/
theorem readRows_writeRow (row : Row) (rest : List Char)
    (short : ∀ cell ∈ row, cell.length ≤ longestCell) :
    readRows fault .start (splitLines (writeRow row ++ rest)) =
      ⟨row :: (readRows fault .start (splitLines rest)).rows,
        (readRows fault .start (splitLines rest)).failure⟩ := by
  refine Reads.readRows_eq ?_
  rw [writeRow, List.append_assoc]
  by_cases lone : row = [""]
  · subst lone
    have quoted := Scan.within_quoteCell [] [] (.inl rfl : Scan.opensCell .rowStart) (by decide)
    have ends : Scan.step ⟨.afterQuote, [], [], 0⟩ '\r' =
      some ⟨.rowEnd, [""].reverse, [], 0⟩ := rfl
    exact (Reads.lineEnd ends rest).within quoted
  rw [if_neg (by simpa using lone)]
  cases row with
  | nil =>
      have ends : Scan.start.step '\r' = some ⟨.rowEnd, [].reverse, [], 0⟩ := rfl
      exact Reads.lineEnd ends rest
  | cons cell cells =>
      obtain ⟨t, read, ends⟩ := Scan.within_writeCells [] (cell :: cells)
        (List.cons_ne_nil cell cells) (.inl rfl : Scan.opensCell .rowStart) (fun _ => lone) short
      rw [List.append_nil] at ends
      exact (Reads.lineEnd ends rest).within read

/-- The rows of a written table are read back in order. -/
theorem readRows_flatMap_writeRow (rows : List Row)
    (short : ∀ row ∈ rows, ∀ cell ∈ row, cell.length ≤ longestCell) :
    readRows none .start (splitLines (rows.flatMap writeRow)) = ⟨rows, none⟩ := by
  induction rows with
  | nil => rfl
  | cons row rows ih =>
      rw [List.flatMap_cons, readRows_writeRow row _ (short row List.mem_cons_self),
        ih fun other mem => short other (.tail row mem)]

/-- A table whose cells are not too long is read back from its bytes, whatever characters
its cells have. -/
theorem ofLines_writeTable (rows : List Row)
    (short : ∀ row ∈ rows, ∀ cell ∈ row, cell.length ≤ longestCell) :
    Rows.ofLines (.ofBytes (Text.toUtf8 (writeTable rows))) = ⟨rows, none⟩ := by
  rw [Rows.ofLines, Lines.ofBytes, Text.utf8Parts_toUtf8, writeTable, String.toList_ofList]
  exact readRows_flatMap_writeRow rows short

end Vesting.Csv

import Mathlib
import Sintius.Lib.Utf16
import Sintius.Spec.Csv

/-! What the generator writes, the gate reads back, cell by cell: quotes, commas, line
ends and empty cells included. The one thing that gets lost is a line with nothing but
one empty cell on it. -/

namespace Sintius.Csv

open Js

/-- Reading on outside quotes, at the start of a cell. -/
def between (rows : List (List Text)) (row : List Text) : Reader := ⟨rows, row, [], false, false⟩

theorem read_cons {r : Reader} (hskip : r.skip = false) (c : CodeUnit) (rest : Text) :
    r.read (c :: rest) = (r.step c rest.head?).read rest := by
  rw [Reader.read, hskip]
  rfl

/-- The text of a cell and its closing quote, inside quotes. -/
theorem read_doubled (rows : List (List Text)) (row : List Text) (t rest : Text)
    (hrest : rest.head? ≠ some quote) : ∀ cell : Text,
    (Reader.mk rows row cell true false).read (doubled t ++ quote :: rest) =
      (Reader.mk rows row (cell ++ t) false false).read rest := by
  induction t with
  | nil =>
    intro cell
    have hstep : (Reader.mk rows row cell true false).step quote rest.head? =
        Reader.mk rows row cell false false := by
      simp [Reader.step, hrest]
    rw [doubled, List.flatMap_nil, List.nil_append, List.append_nil, read_cons rfl, hstep]
  | cons c t ih =>
    intro cell
    have hcons : doubled (c :: t) = (if c = quote then [quote, quote] else [c]) ++ doubled t :=
      List.flatMap_cons
    rw [hcons]
    by_cases hc : c = quote
    · -- the second of two quotes is passed over
      have hstep : (Reader.mk rows row cell true false).step quote (some quote) =
          Reader.mk rows row (cell ++ [quote]) true true := by
        simp [Reader.step]
      have hskip : (Reader.mk rows row (cell ++ [quote]) true true).read
          (quote :: (doubled t ++ quote :: rest)) =
            (Reader.mk rows row (cell ++ [quote]) true false).read (doubled t ++ quote :: rest) :=
        rfl
      rw [if_pos hc, List.append_assoc, List.cons_append, read_cons rfl, List.cons_append,
        List.nil_append, List.head?_cons, hstep, hskip, ih, hc, List.append_assoc]
      rfl
    · have hstep : ∀ next, (Reader.mk rows row cell true false).step c next =
          Reader.mk rows row (cell ++ [c]) true false := by
        intro next
        simp [Reader.step, hc]
      rw [if_neg hc, List.append_assoc, List.singleton_append, read_cons rfl, hstep, ih,
        List.append_assoc, List.singleton_append]

/-- A cell. -/
theorem read_csvCell (rows : List (List Text)) (row : List Text) (value : CellValue) (rest : Text)
    (hrest : rest.head? ≠ some quote) :
    (between rows row).read (csvCell value ++ rest) =
      (Reader.mk rows row (cellText value) false false).read rest := by
  have hopen : ∀ next, (between rows row).step quote next = Reader.mk rows row [] true false := by
    intro next
    simp [Reader.step, between]
  have hdoubled := read_doubled rows row (cellText value) rest hrest []
  rw [List.nil_append] at hdoubled
  rw [csvCell, List.cons_append, read_cons rfl, hopen, List.append_assoc, List.singleton_append,
    hdoubled]

/-- The row that a line leaves, if it is not one empty cell. -/
def lineRow (cells : List CellValue) : List (List Text) :=
  if cells.map cellText = [] ∨ cells.map cellText = [[]] then [] else [cells.map cellText]

/-- The cells of a line up to its end; the last is still open. -/
theorem read_cells (rows : List (List Text)) (rest : Text) (cells : List CellValue) :
    ∀ (cell : CellValue) (row : List Text),
      (between rows row).read (csvLine (cell :: cells) ++ lineFeed :: rest) =
        (Reader.mk rows (row ++ ((cell :: cells).dropLast.map cellText))
          (cellText ((cell :: cells).getLast (by simp))) false false).read (lineFeed :: rest) := by
  induction cells with
  | nil =>
    intro cell row
    rw [csvLine, List.map_cons, List.map_nil, List.intercalate_singleton,
      read_csvCell _ _ _ _ (by simp [lineFeed, quote])]
    simp
  | cons next cells ih =>
    intro cell row
    have hline : csvLine (cell :: next :: cells) =
        csvCell cell ++ comma :: csvLine (next :: cells) := by
      simp [csvLine, List.intercalate_cons_cons]
    have hcomma : ∀ after, (Reader.mk rows row (cellText cell) false false).step comma after =
        between rows (row ++ [cellText cell]) := by
      intro after
      simp [Reader.step, between, comma, quote]
    rw [hline, List.append_assoc, List.cons_append, read_csvCell _ _ _ _ (by simp [comma, quote]),
      read_cons rfl, hcomma, ih]
    simp

theorem read_line (cells : List CellValue) (rows : List (List Text)) (rest : Text) :
    (between rows []).read (csvLine cells ++ lineFeed :: rest) =
      (between (rows ++ lineRow cells) []).read rest := by
  cases cells with
  | nil =>
    have hstep : (between rows []).step lineFeed rest.head? = between rows [] := by
      simp [Reader.step, Reader.endRow, Reader.nonEmpty, between, lineFeed, quote, comma,
        carriageReturn]
    have hline : csvLine [] = [] := rfl
    rw [hline, List.nil_append, read_cons rfl, hstep]
    simp [lineRow]
  | cons cell cells =>
    have hcells : (cell :: cells).map cellText = (cell :: cells).dropLast.map cellText ++
        [cellText ((cell :: cells).getLast (by simp))] := by
      rw [← List.map_singleton, ← List.map_append, List.dropLast_append_getLast]
    rw [read_cells, read_cons rfl, List.nil_append]
    generalize (cell :: cells).dropLast.map cellText = front at hcells ⊢
    generalize cellText ((cell :: cells).getLast (by simp)) = last at hcells ⊢
    congr 1
    have hempty : (front ++ [last] = [] ∨ front ++ [last] = [[]]) ↔ last = [] ∧ front = [] := by
      cases front with
      | nil => simp
      | cons a front => simp
    rw [lineRow, hcells]
    by_cases h : last = [] ∧ front = []
    · rw [if_pos (hempty.mpr h)]
      simp [Reader.step, Reader.endRow, Reader.nonEmpty, between, lineFeed, quote, comma,
        carriageReturn, h]
    · rw [if_neg (mt hempty.mp h)]
      have hnonempty : (last.length != 0 || front.length != 0) = true := by
        simpa [imp_iff_not_or] using h
      simp [Reader.step, Reader.endRow, Reader.nonEmpty, between, lineFeed, quote, comma,
        carriageReturn, hnonempty]

/-- The lines of a file and the line feed at its end. -/
theorem read_lines (lines : List (List CellValue)) : ∀ rows : List (List Text),
    (between rows []).read ([lineFeed].intercalate (lines.map csvLine) ++ [lineFeed]) =
      between (rows ++ lines.flatMap lineRow) [] := by
  induction lines with
  | nil =>
    intro rows
    have h := read_line [] rows []
    simpa [lineRow, csvLine, Reader.read] using h
  | cons line lines ih =>
    intro rows
    cases lines with
    | nil =>
      rw [List.map_singleton, List.intercalate_singleton, read_line]
      simp [Reader.read]
    | cons next lines =>
      rw [List.map_cons, List.map_cons, List.intercalate_cons_cons, List.append_assoc,
        List.append_assoc, List.singleton_append, read_line]
      have h := ih (rows ++ lineRow line)
      rw [List.map_cons] at h
      rw [h]
      simp

theorem parseRows_csv (headers : List Text) (rows : List Row) :
    parseRows (csv headers rows) = lineRow (headers.map .text) ++
      rows.flatMap fun row => lineRow (headers.map row) := by
  have hread : Reader.start.read (csv headers rows) =
      between (lineRow (headers.map .text) ++ rows.flatMap fun row => lineRow (headers.map row))
        [] := by
    have hlines := read_lines (rows.map fun row => headers.map row)
      (lineRow (headers.map CellValue.text))
    have hheaders := read_line (headers.map .text) []
      ([lineFeed].intercalate ((rows.map fun row => headers.map row).map csvLine) ++ [lineFeed])
    rw [List.nil_append, hlines, List.flatMap_map] at hheaders
    rw [← hheaders, csv]
    simp [Reader.start, between, Function.comp_def]
  unfold parseRows
  rw [hread]
  simp [Reader.nonEmpty, between]

theorem lookup_map (headers : List Text) (f : Text → Text) (key : Text) :
    (headers.map fun header => (header, f header)).lookup key =
      if key ∈ headers then some (f key) else none := by
  induction headers with
  | nil => rfl
  | cons header headers ih =>
    rw [List.map_cons, List.lookup_cons]
    by_cases h : key = header
    · simp [h]
    · have hbeq : (key == header) = false := beq_eq_false_iff_ne.mpr h
      rw [hbeq, ih]
      simp [h]

/-- The properties of a row read back. -/
theorem fromEntries_map (headers : List Text) (f : Text → Text) (key : Text) :
    fromEntries (entriesOf headers (headers.map f)) key =
      if key ∈ headers then some (f key) else none := by
  have hentries : entriesOf headers (headers.map f) = headers.map fun header => (header, f header) := by
    apply List.ext_getElem
    · simp [entriesOf]
    · intro i h₁ h₂
      have hi : i < headers.length := by simpa using h₂
      simp [entriesOf, hi]
  unfold fromEntries
  rw [hentries, ← List.map_reverse, lookup_map]
  simp

/-- A generated file reads back as the rows it was made from, with the text of each cell, except
that a line with a single empty cell is lost. -/
theorem parseCsv_csv {headers : List Text} (hheaders : headers ≠ [] ∧ headers ≠ [[]])
    (rows : List Row) :
    parseCsv (csv headers rows) =
      (rows.filter fun row => headers.map (cellText ∘ row) != [[]]).map fun row key =>
        if key ∈ headers then some (cellText (row key)) else none := by
  have htexts : (headers.map CellValue.text).map cellText = headers := by
    simp [Function.comp_def, cellText]
  have hline : ∀ row : Row, lineRow (headers.map row) =
      if headers.map (cellText ∘ row) != [[]] then [headers.map (cellText ∘ row)] else [] := by
    intro row
    rw [lineRow, List.map_map]
    have hne : headers.map (cellText ∘ row) ≠ [] := by simpa using hheaders.1
    by_cases h : headers.map (cellText ∘ row) = [[]] <;> simp [h, hheaders.1]
  have hrows : (rows.flatMap fun row => lineRow (headers.map row)) =
      (rows.filter fun row => headers.map (cellText ∘ row) != [[]]).map fun row =>
        headers.map (cellText ∘ row) := by
    simp only [hline]
    induction rows with
    | nil => rfl
    | cons row rows ih =>
      rw [List.flatMap_cons, ih, List.filter_cons]
      split_ifs <;> simp
  have hparse : parseRows (csv headers rows) = headers ::
      (rows.filter fun row => headers.map (cellText ∘ row) != [[]]).map fun row =>
        headers.map (cellText ∘ row) := by
    rw [parseRows_csv, hrows, lineRow, htexts, if_neg (by simp [hheaders])]
    rfl
  unfold parseCsv
  rw [hparse]
  dsimp only
  rw [List.map_map]
  apply List.map_congr_left
  intro row _
  funext key
  exact fromEntries_map headers (cellText ∘ row) key

/-- A summary with a quote, a comma and a line end in it, beside a cell that is absent. -/
def sampleRow (key : Text) : CellValue :=
  if key = ascii "Summary" then .list [ascii "say \"a, b\"", ascii "again"] else .absent

theorem parseCsv_csv_sample :
    (parseCsv (csv [ascii "Summary", ascii "Parent"] [sampleRow])).map
      (fun row => (row (ascii "Summary"), row (ascii "Parent"), row (ascii "Status"))) =
        [(some (ascii "say \"a, b\"\nagain"), some [], none)] := by
  rw [parseCsv_csv ⟨by simp, by simp⟩]
  decide

end Sintius.Csv

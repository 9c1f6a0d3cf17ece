import Mathlib
import Sintius.Lib.JsonValue
import Sintius.Lib.Utf16

/-! The CSV files of the delivery backlog: `csv` of the generator, which writes them,
and `parseCsv` of the coverage gate, which reads them back. Texts are code units, as
`source[index]` sees them. -/

namespace Sintius.Csv

open Js

def quote : CodeUnit := 0x22

def comma : CodeUnit := 0x2c

def lineFeed : CodeUnit := 0x0a

def carriageReturn : CodeUnit := 0x0d

/-- What a row of the generator holds under a header. -/
inductive CellValue where
  | absent
  | text (t : Text)
  | number (n : Number)
  | list (ts : List Text)

/-- `Array.isArray(value) ? value.join("\n") : String(value ?? "")` -/
def cellText : CellValue → Text
  | .absent => []
  | .text t => t
  | .number n => units n.string
  | .list ts => [lineFeed].intercalate ts

/-- `text.replaceAll('"', '""')` -/
def doubled (t : Text) : Text := t.flatMap fun c => if c = quote then [quote, quote] else [c]

def csvCell (value : CellValue) : Text := quote :: (doubled (cellText value) ++ [quote])

/-- A row of the generator: an object, as its properties are read. -/
abbrev Row := Text → CellValue

def csvLine (cells : List CellValue) : Text := [comma].intercalate (cells.map csvCell)

def csv (headers : List Text) (rows : List Row) : Text :=
  csvLine (headers.map .text) ++ [lineFeed] ++
    [lineFeed].intercalate (rows.map fun row => csvLine (headers.map row)) ++ [lineFeed]

/-- The loop of `parseCsv`: the rows, the row and the cell so far, whether it is inside quotes, and
whether the next unit has been consumed already. -/
structure Reader where
  rows : List (List Text)
  row : List Text
  cell : Text
  quoted : Bool
  skip : Bool
deriving DecidableEq

def Reader.start : Reader := ⟨[], [], [], false, false⟩

/-- `if (cell.length || row.length)` -/
def Reader.nonEmpty (r : Reader) : Bool := r.cell.length != 0 || r.row.length != 0

def Reader.endRow (r : Reader) : Reader :=
  if r.nonEmpty then { r with rows := r.rows ++ [r.row ++ [r.cell]], row := [], cell := [] } else r

/-- The body of the loop, with `source[index + 1]`. -/
def Reader.step (r : Reader) (character : CodeUnit) (next : Option CodeUnit) : Reader :=
  if r.quoted && character == quote && next == some quote then
    { r with cell := r.cell ++ [quote], skip := true }
  else if character == quote then { r with quoted := !r.quoted }
  else if !r.quoted && character == comma then { r with row := r.row ++ [r.cell], cell := [] }
  else if !r.quoted && (character == lineFeed || character == carriageReturn) then
    { r.endRow with skip := character == carriageReturn && next == some lineFeed }
  else { r with cell := r.cell ++ [character] }

def Reader.read (r : Reader) : Text → Reader
  | [] => r
  | character :: rest =>
    if r.skip then Reader.read { r with skip := false } rest
    else Reader.read (r.step character rest.head?) rest

/-- The rows before the first becomes the headers. -/
def parseRows (source : Text) : List (List Text) :=
  let r := Reader.start.read source
  if r.nonEmpty then r.rows ++ [r.row ++ [r.cell]] else r.rows

/-- `Object.fromEntries`, as the properties of the object; a later entry replaces an earlier. -/
def fromEntries (entries : List (Text × Text)) (key : Text) : Option Text :=
  entries.reverse.lookup key

/-- `headers.map((header, index) => [header, values[index] || ""])` -/
def entriesOf (headers values : List Text) : List (Text × Text) :=
  headers.mapIdx fun index header => (header, values[index]?.getD [])

def parseCsv (source : Text) : List (Text → Option Text) :=
  match parseRows source with
  | [] => []
  | headers :: rows => rows.map fun values => fromEntries (entriesOf headers values)

end Sintius.Csv

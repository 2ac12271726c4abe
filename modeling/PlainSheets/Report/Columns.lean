import PlainSheets.Cell.Order
import PlainSheets.Cell.Writable
import PlainSheets.Report.Statistics
import PlainSheets.Sheet

/-!
The values of a column over the rows of a sheet.
-/
namespace PlainSheets.Column

def cells (c : Column) (rows : List Row) : List Cell := rows.map fun r => r.cell c.name

def numbers (c : Column) (rows : List Row) : List Binary64 := (c.cells rows).filterMap Cell.number?

def present (c : Column) (rows : List Row) : List Cell := (c.cells rows).filter fun v => !v.isEmpty

def asked (c : Column) (rows : List Row) : Except Failure (List Cell) :=
  if (c.cells rows).any Cell.isBundle then .error .manyTruths else .ok (c.present rows)

def title (c : Column) : String := nameText c.name

end PlainSheets.Column

namespace PlainSheets

def frequencies (cells : List Cell) : List (String × Nat) :=
  cells.foldl (fun counts c => bump c.asText counts) []
where
  bump (text : String) : List (String × Nat) → List (String × Nat)
    | [] => [(text, 1)]
    | (t, n) :: rest => if t = text then (t, n + 1) :: rest else (t, n) :: bump text rest

def uniqueCount (cells : List Cell) : Except Failure Nat :=
  if cells.all Cell.isWritable then .ok (frequencies cells).length else .error (.integerTooLong none)

end PlainSheets

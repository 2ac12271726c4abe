import PlainSheets.Query.Intent
import PlainSheets.Report.Columns

/-!
The report on all sheets: their sizes, the types of their columns, columns with outliers, and what to
do about them.
-/
namespace PlainSheets

def fewRows : Nat := 3

/-- A column with outliers. Its mean and deviation are numbers of the arithmetic they were found in. -/
structure Anomaly (α : Type) where
  sheet : String
  sheetName : Option String
  column : Column
  count : Nat
  mean : α
  deviation : α

structure SheetSize where
  sheet : String
  name : Option String
  rows : Nat
  deriving DecidableEq

structure Overview where
  sheets : Nat
  rows : Nat
  lastUpdated : Moment
  /-- Sheets by size, the largest first; told only of two sheets or more. -/
  sizes : List SheetSize
  types : List (Kind × Nat)
  anomalies : List (Anomaly Binary64)
  small : List SheetSize

namespace Overview

def later (latest : Moment) : Option Moment → Except Failure Moment
  | none => .ok latest
  | some m => m.utc.map fun u => if latest.instant < u.instant then u else latest

def stamps (s : Sheet) : List (Option Moment) := s.updatedAt :: s.rows.map Row.updatedAt

/-- The last time at which anything was updated, not before 1970. -/
def mostRecent (sheets : List Sheet) : Except Failure Moment :=
  (sheets.flatMap stamps).foldlM later Moment.epoch

def sizeOf (s : Sheet) : SheetSize := ⟨s.id, s.name, s.rows.length⟩

/-- Sheets of equal size stay in order. -/
def bySize (sheets : List Sheet) : List SheetSize :=
  (sheets.map sizeOf).mergeSort fun a b => b.rows ≤ a.rows

def typeCounts (sheets : List Sheet) : List (Kind × Nat) :=
  Kind.all.map fun k => (k, ((sheets.flatMap Sheet.columns).filter fun c => c.type = k).length)

/-- Values more than two deviations from the mean are outliers. -/
def outlierFactor : Nat := 2

section

variable {α : Type} [Add α] [Sub α] [Mul α] [Div α] [Arithmetic α] (read : Binary64 → α)

def anomalyOf (s : Sheet) (c : Column) : Option (Anomaly α) :=
  let xs := (c.numbers s.rows).map read
  let mean := Statistics.mean xs
  let deviation := Statistics.deviation xs
  let mask := Statistics.outlierMask (Arithmetic.ofNat outlierFactor) mean deviation xs
  let count := mask.count true
  if count = 0 then none else some ⟨s.id, s.name, c, count, mean, deviation⟩

def anomaliesOf (sheets : List Sheet) : List (Anomaly α) :=
  sheets.flatMap fun s => (s.columnsOf .number).filterMap (anomalyOf read s)

end

def smallOf (sheets : List Sheet) : List SheetSize :=
  (sheets.filter fun s => s.rows.length < fewRows).map sizeOf

def ofSheets (sheets : List Sheet) : Except Failure Overview := do
  let lastUpdated ← mostRecent sheets
  .ok {
    sheets := sheets.length
    rows := sheets.foldl (fun n s => n + s.rows.length) 0
    lastUpdated := lastUpdated
    sizes := if sheets.length < 2 then [] else bySize sheets
    types := typeCounts sheets
    anomalies := anomaliesOf id sheets
    small := smallOf sheets }

/-! The report as a record. -/

def sizesDescription (first last : SheetSize) : String :=
  nameText first.name ++ s!" has the most rows ({first.rows}), while " ++ nameText last.name ++
    s!" has the least ({last.rows})."

def sizeCell (s : SheetSize) : Cell :=
  .named [("id", .text s.sheet), ("name", .ofText? s.name), ("rowCount", .integer s.rows)]

def comparisonCells (sizes : List SheetSize) : List Cell :=
  match sizes, sizes.getLast? with
  | first :: _, some last =>
    [.named [("type", .text "sheetSize"), ("title", .text "Sheet Size Comparison"),
      ("description", .text (sizesDescription first last)), ("data", .list (sizes.map sizeCell))]]
  | _, _ => []

def typesCell (types : List (Kind × Nat)) : Cell :=
  .named [("type", .text "dataTypes"), ("title", .text "Data Type Distribution"),
    ("description", .text "Distribution of data types across all sheets"),
    ("data", .named (types.map fun t => (t.1.name, .integer t.2)))]

def anomalyCell (a : Anomaly Binary64) : Cell :=
  .named [("type", .text "outlier"), ("sheetId", .text a.sheet),
    ("sheetName", .ofText? a.sheetName), ("column", .ofText? a.column.name),
    ("description", .text (s!"Found {a.count} outliers in " ++ a.column.title ++ " column")),
    ("outlierCount", .integer a.count), ("mean", .real a.mean), ("stdDev", .real a.deviation)]

def moreDataText (name : Option String) : String :=
  "Consider adding more data to " ++ nameText name ++ " for better analysis."

def smallCell (s : SheetSize) : Cell :=
  .named [("type", .text "dataVolume"), ("sheetId", .text s.sheet),
    ("sheetName", .ofText? s.name), ("description", .text (moreDataText s.name)),
    ("importance", .text "medium")]

def reviewCells (anomalies : List (Anomaly Binary64)) : List Cell :=
  if anomalies.isEmpty then []
  else
    [.named [("type", .text "anomalyCheck"),
      ("description", .text
        s!"Review {anomalies.length} potential data anomalies found across your sheets."),
      ("importance", .text "high")]]

def toCell (o : Overview) : Cell :=
  .named [
    ("summary", .named [("totalSheets", .integer o.sheets), ("totalRows", .integer o.rows),
      ("lastUpdated", .moment o.lastUpdated)]),
    ("sheetComparisons", .list (comparisonCells o.sizes)),
    ("dataDistribution", .list [typesCell o.types]),
    ("anomalies", .list (o.anomalies.map anomalyCell)),
    ("recommendations", .list (o.small.map smallCell ++ reviewCells o.anomalies))]

end Overview

end PlainSheets

import PlainSheets.Binary64.Decimal
import PlainSheets.Report.Overview

/-!
The report on one sheet: how its columns are filled, how its numbers change over time, what values they
have, and what to do about them.
-/
namespace PlainSheets

structure ColumnReport where
  column : Column
  /-- Rows with something in the column. -/
  filled : Nat
  unique : Nat
  summary : Option NumberSummary

structure TrendReport where
  dates : Column
  values : Column
  trend : Statistics.Trend
  points : Nat
  start : Moment × Binary64
  finish : Moment × Binary64

structure SheetReport where
  name : Option String
  rows : Nat
  lastUpdated : Option Moment
  columns : List ColumnReport
  trends : List TrendReport
  texts : List (Column × List (String × Nat))

namespace SheetReport

def columnReport (rows : List Row) (c : Column) : Except Failure ColumnReport := do
  let present ← c.asked rows
  let unique ← uniqueCount present
  .ok ⟨c, present.length, unique,
    if c.type = .number then NumberSummary.of? (c.numbers rows) else none⟩

def point (thisYear : Nat) (dates values : Column) (r : Row) : Except Failure (Option (Moment × Binary64)) := do
  let date ← (r.cell dates.name).when? thisYear
  .ok (date.bind fun d => (r.cell values.name).number?.map (d, ·))

/-- The points of two columns along the time line. Points of one date stay in order. -/
def timeSeries (thisYear : Nat) (dates values : Column) (rows : List Row) :
    Except Failure (List (Moment × Binary64)) := do
  let points ← rows.mapM (point thisYear dates values)
  .ok ((points.filterMap id).mergeSort fun a b => a.1.instant ≤ b.1.instant)

def trendOf (dates values : Column) (points : List (Moment × Binary64)) : Option TrendReport :=
  match points, points.getLast? with
  | first :: _ :: _, some last =>
    some ⟨dates, values, Statistics.trend (points.map Prod.snd), points.length, first, last⟩
  | _, _ => none

def trendsOf (thisYear : Nat) (s : Sheet) : Except Failure (List TrendReport) := do
  let pairs := (s.columnsOf .date).flatMap fun d => (s.columnsOf .number).map fun n => (d, n)
  let found ← pairs.mapM fun p => do
    let points ← timeSeries thisYear p.1 p.2 s.rows
    .ok (trendOf p.1 p.2 points)
  .ok (found.filterMap id)

def textsOf (rows : List Row) (c : Column) : Option (Column × List (String × Nat)) :=
  let present := (c.present rows).filter fun v => v.kind? = some .text
  if present.isEmpty then none else some (c, frequencies present)

def ofSheet (thisYear : Nat) (s : Sheet) : Except Failure SheetReport := do
  let columns ← s.columns.mapM (columnReport s.rows)
  let trends ← trendsOf thisYear s
  .ok {
    name := s.name
    rows := s.rows.length
    lastUpdated := s.updatedAt
    columns := columns
    trends := trends
    texts := (s.columnsOf .text).filterMap (textsOf s.rows) }

/-! Advice. -/

def isSparse (rows filled : Nat) : Bool := 10 * filled < 7 * rows

def isVerySparse (rows filled : Nat) : Bool := 2 * filled < rows

def percentText (x : Binary64) : String := Text.integer (x.roundToInt?.getD 0)

def completeness (rows : Nat) (c : ColumnReport) : Binary64 := Statistics.completeness c.filled rows

/-! The report as a record. -/

def columnCell (rows : Nat) (c : ColumnReport) : Cell :=
  .named ([("name", .ofText? c.column.name), ("type", .text c.column.type.name),
    ("nonEmptyCount", .integer c.filled), ("uniqueValueCount", .integer c.unique),
    ("completeness", .real (completeness rows c))] ++
    match c.summary with
    | none => []
    | some n => [("min", .real n.min), ("max", .real n.max), ("avg", .real n.mean)])

def trendCell (t : TrendReport) : Cell :=
  .named [("type", .text "timeSeries"), ("dateColumn", .ofText? t.dates.name),
    ("valueColumn", .ofText? t.values.name), ("trendType", .text t.trend.name),
    ("dataPoints", .integer t.points), ("startDate", .moment t.start.1),
    ("endDate", .moment t.finish.1), ("startValue", .real t.start.2),
    ("endValue", .real t.finish.2),
    ("percentChange", ((Statistics.percentChange? t.start.2 t.finish.2).map Cell.real).getD .null)]

def summaryCell (n : NumberSummary) : Cell :=
  .named [("min", .real n.min), ("max", .real n.max), ("avg", .real n.mean),
    ("median", .real n.median), ("sum", .real n.sum), ("count", .integer n.count)]

/-- Columns by name; of two with one name the last one counts. -/
def byName (columns : List (Column × Cell)) : Record :=
  columns.foldl (fun r c => Record.put (.text c.1.title) c.2 r) []

def statisticsCell (s : SheetReport) : Cell :=
  .named [("rowCount", .integer s.rows), ("columnCount", .integer s.columns.length),
    ("numericColumns", .record (byName (s.columns.filterMap fun c =>
      c.summary.map fun n => (c.column, summaryCell n)))),
    ("categoricalColumns", .record (byName (s.texts.map fun t =>
      (t.1, .named (t.2.map fun f => (f.1, .integer f.2))))))]

def sparseCell (rows : Nat) (c : ColumnReport) : Cell :=
  .named [("type", .text "dataCompleteness"), ("column", .ofText? c.column.name),
    ("description", .text (c.column.title ++ " column is only " ++
      percentText (completeness rows c) ++ "% complete. Consider filling in missing values.")),
    ("importance", .text (if isVerySparse rows c.filled then "high" else "medium"))]

def adviceCells (s : SheetReport) : List Cell :=
  (if s.rows < fewRows then
    [.named [("type", .text "dataVolume"),
      ("description", .text (Overview.moreDataText s.name)), ("importance", .text "medium")]]
  else []) ++
  (s.columns.filter fun c => isSparse s.rows c.filled).map (sparseCell s.rows)

def toCell (s : SheetReport) : Cell :=
  .named [
    ("summary", .named [("sheetName", .ofText? s.name), ("rowCount", .integer s.rows),
      ("columnCount", .integer s.columns.length),
      ("lastUpdated", (s.lastUpdated.map Cell.moment).getD .null)]),
    ("columnAnalysis", .list (s.columns.map (columnCell s.rows))),
    ("trends", .list (s.trends.map trendCell)),
    ("statistics", s.statisticsCell),
    ("recommendations", .list s.adviceCells)]

end SheetReport

end PlainSheets

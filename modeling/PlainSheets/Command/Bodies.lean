import PlainSheets.Console.Printed
import PlainSheets.Request.Handlers

/-!
Response bodies for a reader at a terminal.
-/
namespace PlainSheets

namespace Json

def get (j : Json) (key : String) : Json :=
  match j with
  | object fields => (fields.lookup key).getD null
  | _ => null

def items : Json → List Json
  | list items => items
  | _ => []

def fields : Json → List (String × Json)
  | object fields => fields
  | _ => []

def shown (j : Json) : String := (Cell.ofJson j).display

def isTruthy (j : Json) : Bool := (Cell.ofJson j).isTruthy

end Json

namespace Bodies

open Console (Printed Table)

def column (name : String) (cells : List String) : List Char × List (List Char) :=
  (name.toList, cells.map String.toList)

def messageOr (default : String) (body : Json) : String :=
  match body.get "message" with
  | .null => default
  | j => j.shown

def shownRows : Nat := 50

/-- The rows of a result, with nothing in place of what a row does not have. Their cells are no
markup. -/
def rowsTable (body : Json) : Except Failure Table := do
  let table ← TextTable.tell (((body.get "data").items.map Cell.ofJson).map Cell.fields)
  .ok ⟨(messageOr "" body).toList, table.columns.map fun c =>
    (c.1.toList, (c.2.take shownRows).map fun cell => Markup.escape (cell.getD "").toList)⟩

def answer (body : Json) : Printed Unit := do
  let headline ← Printed.ofResult (Headline.ofAnswer (Cell.ofJson body))
  Printed.line headline
  let database := body.get "database"
  if database.isTruthy then
    let text := Markup.escape (database.toText ⟨some 2, true⟩).toList
    Printed.box "Store operation" (String.ofList text)
  if body.get "type" matches .text "data" then
    let table ← Printed.ofResult (rowsTable body)
    Printed.table table

def sheetsTable (body : Json) : Table :=
  let field (key : String) := column key (body.items.map fun item => (item.get key).shown)
  ⟨"Sheets".toList, [field "id", field "sheetName"]⟩

def findings (report : Json) (part : String) : List String :=
  (report.get part).items.map fun item =>
    let description := item.get "description"
    part ++ ": " ++
      if description.isTruthy then description.shown
      else (item.get "valueColumn").shown ++ " by " ++ (item.get "dateColumn").shown ++ ": " ++
        (item.get "trendType").shown

def parts : List String := ["sheetComparisons", "dataDistribution", "anomalies", "trends"]

def percent : Json → String
  | .real x => SheetReport.percentText x ++ "%"
  | j => j.shown ++ "%"

def columnsTable (analysis : List Json) : Table :=
  let field (key : String) := column key (analysis.map fun item => (item.get key).shown)
  ⟨"Column analysis".toList,
    [field "name", field "type", field "nonEmptyCount", field "uniqueValueCount",
      column "completeness" (analysis.map fun item => percent (item.get "completeness"))]⟩

def report (body : Json) : Printed Unit := do
  let headline ← Printed.ofResult (Headline.ofReport (Cell.ofJson body))
  Printed.line headline
  let facts := (body.get "summary").fields.map fun f => f.1 ++ ": " ++ f.2.shown
  Printed.box "Summary" ("\n".intercalate facts)
  (parts.flatMap (findings body)).forM Printed.line
  let analysis := (body.get "columnAnalysis").items
  if !analysis.isEmpty then Printed.table (columnsTable analysis)
  (body.get "recommendations").items.forM fun item =>
    Printed.line ("(" ++ (item.get "importance").shown ++ ") " ++ (item.get "description").shown)

end Bodies

end PlainSheets

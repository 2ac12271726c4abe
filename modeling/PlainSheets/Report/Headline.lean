import PlainSheets.Cell.Record
import PlainSheets.Text.Find

/-!
One-line answers: to a question, from the body that answers it, and to a request for a report.
-/
namespace PlainSheets

namespace Atom

def isTruthy : Atom → Bool
  | null => false
  | flag b => b
  | integer n => n != 0
  | real x => !x.isZero
  | text s => !s.isEmpty
  | decimal a => !a.isZero
  | bytes bs => !bs.isEmpty
  | sized (.integer _ n) => n != 0
  | sized (.real _ x) => !x.isZero
  | sized (.flag b) => b
  | sized (.text s) => !s.isEmpty
  | _ => true

end Atom

namespace Cell

def isTruthy : Cell → Bool
  | atom a => a.isTruthy
  | list items => !items.isEmpty
  | record fs => !fs.isEmpty

def orElse (c other : Cell) : Cell := if c.isTruthy then c else other

def getKey? (c : Cell) (key : String) : Except Failure (Option Cell) :=
  match c with
  | record fs => .ok (Record.get? fs key)
  | c => .error (.notMap c.typeName)

def getKey (c : Cell) (key : String) : Except Failure Cell :=
  (c.getKey? key).map fun v => v.getD null

def size (c : Cell) : Except Failure Nat :=
  match c.parts? with
  | some parts => .ok parts.length
  | none => .error (.noLength c.typeName)

def hasKey (c : Cell) (key : String) : Except Failure Bool :=
  match c with
  | record fs => .ok (Record.get? fs key).isSome
  | list items => .ok (items.any fun v => v.text? == some key)
  | text s => .ok (Text.contains key.toList s.toList)
  | sized (.text s) => .ok (Text.contains key.toList s.toList)
  | c => .error (.notContainer c.typeName)

end Cell

namespace Headline

/-- The form of a cell in a sentence. There a number is written in full, whatever its storage. -/
def spoken : Cell → String
  | .sized (.real _ x) => x.toText
  | c => c.display

def textAt (c : Cell) (key default : String) : Except Failure String :=
  (c.getKey? key).map fun v => (v.map spoken).getD default

def listAt (c : Cell) (key : String) : Except Failure Cell :=
  (c.getKey key).map fun v => v.orElse (.list [])

def mapAt (c : Cell) (key : String) : Except Failure Cell :=
  (c.getKey key).map fun v => v.orElse (.record [])

def ofAnswer (body : Cell) : Except Failure String := do
  match ← body.getKey "type" with
  | .text "error" => (textAt body "message" "unknown error").map ("Error: " ++ ·)
  | .text "data" =>
    let rows ← listAt body "data"
    let database ← mapAt body "database"
    let sheet ← textAt (← mapAt database "filter") "sheetName" "?"
    let count ← rows.size
    .ok (s!"Answer: {count} row(s) from \"" ++ sheet ++ "\"")
  | .text "message" => (textAt body "message" "").map ("Answer: " ++ ·)
  | _ => .ok "Answer: results computed."

/-- The answer to a request for a report. A report with the name of a sheet is about that sheet. -/
def ofReport (report : Cell) : Except Failure String := do
  let summary ← mapAt report "summary"
  if ← summary.hasKey "sheetName" then
    let trends ← listAt report "trends"
    let advice ← listAt report "recommendations"
    match summary with
    | .record fs =>
      let name := spoken ((Record.get? fs "sheetName").getD .null)
      let rows ← textAt summary "rowCount" "0"
      let columns ← textAt summary "columnCount" "0"
      let trendCount ← trends.size
      let adviceCount ← advice.size
      .ok ("Answer: " ++ name ++ " has " ++ rows ++ " rows x " ++ columns ++ " columns; " ++
        s!"{trendCount} trend(s), {adviceCount} recommendation(s)")
    | c => .error (.notIndexed c.typeName)
  else
    let anomalies ← listAt report "anomalies"
    let sheets ← textAt summary "totalSheets" "0"
    let rows ← textAt summary "totalRows" "0"
    let count ← anomalies.size
    .ok ("Answer: " ++ sheets ++ " sheets, " ++ rows ++ " rows; " ++
      s!"{count} anomaly group(s) detected")

end Headline

end PlainSheets

import PlainSheets.Store.Reads

/-!
A store that keeps its sheets as a list, in the order in which they were made.
-/
namespace PlainSheets

structure Memory where
  sheets : List Sheet

namespace Memory

def find? (m : Memory) (sheet : String) : Option Sheet := m.sheets.find? fun s => s.id = sheet

def require (m : Memory) (sheet : String) : Except Failure Sheet :=
  match m.find? sheet with
  | some s => .ok s
  | none => .error (.sheetNotFound sheet)

def requireRow (s : Sheet) (sheet row : String) : Except Failure Row :=
  match s.findRow? row with
  | some r => .ok r
  | none => .error (.rowNotFound sheet row)

/-- A list without the item at a place, or without an earlier one that is the same. -/
def dropSame {α : Type} (same : α → Except Failure Bool) : List α → Nat → Except Failure (List α)
  | [], _ => .ok []
  | _ :: rest, 0 => .ok rest
  | a :: rest, place + 1 => do
    if ← same a then .ok rest
    else do
      let rest ← dropSame same rest place
      .ok (a :: rest)

def replaceFirst {α : Type} (test : α → Bool) (new : α) : List α → List α
  | [] => []
  | a :: rest => if test a then new :: rest else a :: replaceFirst test new rest

def replace (m : Memory) (s : Sheet) : Memory :=
  ⟨replaceFirst (fun t => t.id = s.id) s m.sheets⟩

def reads (m : Memory) : Reads where
  sheets := .ok m.sheets
  first := .ok m.sheets.head?
  byId sheet := .ok (m.find? sheet)
  byPattern pattern := do
    match ← matchName pattern (m.sheets.map fun s => (s.id, s.name)) with
    | some id => .ok (if id.isEmpty then none else m.find? id)
    | none => .ok none

/-- The clock is read for the rows first, and then twice for the sheet. -/
def createAt (m : Memory) (fresh : Fresh) (clock : Nat → Moment) (name : Option String)
    (columns : List Column) (rows : List Cell) : Except Failure (Memory × Sheet) := do
  let records ← rows.mapM Cell.asRecord
  let n := records.length
  let s : Sheet := ⟨fresh.sheet, name, columns, timedRows fresh clock 0 records, clock (2 * n),
    some (clock (2 * n + 1))⟩
  .ok (⟨m.sheets ++ [s]⟩, s)

def create (m : Memory) (fresh : Fresh) (now : Moment) (name : Option String)
    (columns : List Column) (rows : List Cell) : Except Failure (Memory × Sheet) :=
  m.createAt fresh (fun _ => now) name columns rows

/-- A name without letters changes nothing, and neither do columns that are not given. -/
def updateSheet (m : Memory) (now : Moment) (sheet : String) (name : Option String)
    (columns : Option (List Column)) : Except Failure (Memory × Sheet) := do
  let s ← m.require sheet
  let s := { s with
    name := if name.getD "" = "" then s.name else name
    columns := columns.getD s.columns
    updatedAt := some now }
  .ok (m.replace s, s)

def deleteSheet (m : Memory) (sheet : String) : Except Failure (Memory × Unit) := do
  let s ← m.require sheet
  let sheets ← dropSame (fun t => t.same s) m.sheets (m.sheets.findIdx fun t => t.id = sheet)
  .ok (⟨sheets⟩, ())

/-- The clock is read twice for the row. The sheet takes over the time of the row's last change. -/
def addRowAt (m : Memory) (fresh : Fresh) (clock : Nat → Moment) (sheet : String) (data : Cell) :
    Except Failure (Memory × Row) := do
  let s ← m.require sheet
  let record ← data.asRecord
  let r : Row := ⟨fresh.row 0, .record record, clock 0, some (clock 1)⟩
  .ok (m.replace { s with rows := s.rows ++ [r], updatedAt := r.updatedAt }, r)

def addRow (m : Memory) (fresh : Fresh) (now : Moment) (sheet : String) (data : Cell) :
    Except Failure (Memory × Row) :=
  m.addRowAt fresh (fun _ => now) sheet data

def updateRow (m : Memory) (now : Moment) (sheet row : String) (data : Cell) :
    Except Failure (Memory × Row) := do
  let s ← m.require sheet
  let r ← requireRow s sheet row
  let record ← data.asRecord
  let r := { r with data := .record record, updatedAt := some now }
  let rows := replaceFirst (fun t => t.id = row) r s.rows
  .ok (m.replace { s with rows := rows, updatedAt := some now }, r)

def deleteRow (m : Memory) (now : Moment) (sheet row : String) : Except Failure (Memory × Unit) := do
  let s ← m.require sheet
  let r ← requireRow s sheet row
  let rows ← dropSame (fun t => t.same r) s.rows (s.rows.findIdx fun t => t.id = row)
  .ok (m.replace { s with rows := rows, updatedAt := some now }, ())

def clear (_ : Memory) : Memory := ⟨[]⟩

end Memory

end PlainSheets

import PlainSheets.Cell.RowText
import PlainSheets.Store.Reads

/-!
A store that keeps sheets, columns and rows as entries of three flat tables, in the order of their
positions. Row data is kept as text. Every write is a transaction: it is done as a whole or not at all.
-/
namespace PlainSheets

structure SheetEntry where
  id : String
  name : String
  position : Nat
  createdAt : Moment
  updatedAt : Moment

structure ColumnEntry where
  sheet : String
  position : Nat
  name : String
  type : Kind
  width : Option Int

structure RowEntry where
  id : String
  sheet : String
  position : Nat
  data : String
  createdAt : Moment
  updatedAt : Moment

structure Tables where
  sheets : List SheetEntry
  columns : List ColumnEntry
  rows : List RowEntry

namespace Tables

def empty : Tables := ⟨[], [], []⟩

def nextPosition (positions : List Nat) : Nat := (positions.map (· + 1)).foldl max 0

def orderSheets (entries : List SheetEntry) : List SheetEntry :=
  entries.mergeSort fun a b => a.position ≤ b.position

def orderColumns (entries : List ColumnEntry) : List ColumnEntry :=
  entries.mergeSort fun a b => a.position ≤ b.position

def orderRows (entries : List RowEntry) : List RowEntry :=
  entries.mergeSort fun a b => a.position ≤ b.position

/-! Reading. -/

def readColumn (e : ColumnEntry) : Column := ⟨some e.name, e.type, e.width⟩

def readRow (e : RowEntry) : Except Failure Row := do
  let data ← RowText.load (some e.data)
  .ok ⟨e.id, .record data, e.createdAt, some e.updatedAt⟩

/-- Sheets with the columns and rows that name them. One row that cannot be read spoils them all. -/
def assemble (t : Tables) (heads : List SheetEntry) : Except Failure (List Sheet) := do
  let ids := heads.map SheetEntry.id
  let rows ← (orderRows (t.rows.filter fun r => r.sheet ∈ ids)).mapM fun e => do
    let r ← readRow e
    .ok (e.sheet, r)
  let columns := orderColumns (t.columns.filter fun c => c.sheet ∈ ids)
  .ok (heads.map fun h =>
    ⟨h.id, some h.name, (columns.filter fun c => c.sheet = h.id).map readColumn,
      (rows.filter fun r => r.1 = h.id).map Prod.snd, h.createdAt, some h.updatedAt⟩)

def list (t : Tables) : Except Failure (List Sheet) := t.assemble (orderSheets t.sheets)

def first (t : Tables) : Except Failure (Option Sheet) := do
  let sheets ← t.assemble ((orderSheets t.sheets).take 1)
  .ok sheets.head?

def byId (t : Tables) (sheet : String) : Except Failure (Option Sheet) := do
  let sheets ← t.assemble (t.sheets.filter fun s => s.id = sheet)
  .ok sheets.head?

def byPattern (t : Tables) (pattern : String) : Except Failure (Option Sheet) := do
  match ← matchName pattern ((orderSheets t.sheets).map fun s => (s.id, some s.name)) with
  | some id => if id.isEmpty then .ok none else t.byId id
  | none => .ok none

/-! Writing. -/

def require (t : Tables) (sheet : String) : Except Failure Unit :=
  if t.sheets.any fun s => s.id = sheet then .ok () else .error (.sheetNotFound sheet)

def requireRow (t : Tables) (sheet row : String) : Except Failure RowEntry :=
  match t.rows.find? fun r => r.sheet = sheet ∧ r.id = row with
  | some r => .ok r
  | none => .error (.rowNotFound sheet row)

def requireName (table : String) : Option String → Except Failure String
  | some name => .ok name
  | none => .error (.storeFailed ("Constraint Error: NOT NULL constraint failed: " ++ table ++ ".name"))

def requireWidth : Option Int → Except Failure (Option Int)
  | none => .ok none
  | some w =>
    if -2147483648 ≤ w ∧ w ≤ 2147483647 then .ok (some w)
    else .error (.storeFailed s!"Conversion Error: value {w} is out of range for the type INT32")

def columnEntries (sheet : String) : Nat → List Column → Except Failure (List ColumnEntry)
  | _, [] => .ok []
  | i, c :: cs => do
    let name ← requireName "sheet_columns" c.name
    let width ← requireWidth c.width
    let rest ← columnEntries sheet (i + 1) cs
    .ok (⟨sheet, i, name, c.type, width⟩ :: rest)

def rowEntries (fresh : Fresh) (now : Moment) : Nat → List Record → Except Failure (List RowEntry)
  | _, [] => .ok []
  | i, r :: rs => do
    let data ← RowText.dump (.record r)
    let rest ← rowEntries fresh now (i + 1) rs
    .ok (⟨fresh.row i, fresh.sheet, i, data, now, now⟩ :: rest)

def touch (t : Tables) (sheet : String) (now : Moment) : Tables :=
  { t with sheets := t.sheets.map fun s => if s.id = sheet then { s with updatedAt := now } else s }

def create (t : Tables) (fresh : Fresh) (now : Moment) (name : Option String)
    (columns : List Column) (records : List Record) : Except Failure Tables := do
  let name ← requireName "sheets" name
  let position := nextPosition (t.sheets.map SheetEntry.position)
  let cs ← columnEntries fresh.sheet 0 columns
  let rs ← rowEntries fresh now 0 records
  .ok ⟨t.sheets ++ [⟨fresh.sheet, name, position, now, now⟩], t.columns ++ cs, t.rows ++ rs⟩

def rename (t : Tables) (sheet : String) (name : Option String) : Tables :=
  match name with
  | none => t
  | some n =>
    if n = "" then t
    else { t with sheets := t.sheets.map fun s => if s.id = sheet then { s with name := n } else s }

def putColumns (t : Tables) (sheet : String) : Option (List Column) → Except Failure Tables
  | none => .ok t
  | some columns => do
    let cs ← columnEntries sheet 0 columns
    .ok { t with columns := (t.columns.filter fun c => c.sheet ≠ sheet) ++ cs }

def updateSheet (t : Tables) (now : Moment) (sheet : String) (name : Option String)
    (columns : Option (List Column)) : Except Failure Tables := do
  t.require sheet
  let t ← (t.rename sheet name).putColumns sheet columns
  .ok (t.touch sheet now)

def deleteSheet (t : Tables) (sheet : String) : Except Failure Tables := do
  t.require sheet
  .ok ⟨t.sheets.filter fun s => s.id ≠ sheet, t.columns.filter fun c => c.sheet ≠ sheet,
    t.rows.filter fun r => r.sheet ≠ sheet⟩

def addRowAt (t : Tables) (id : String) (made changed : Moment) (sheet : String) (record : Record) :
    Except Failure Tables := do
  t.require sheet
  let position := nextPosition ((t.rows.filter fun r => r.sheet = sheet).map RowEntry.position)
  let data ← RowText.dump (.record record)
  let entry : RowEntry := ⟨id, sheet, position, data, made, changed⟩
  .ok ({ t with rows := t.rows ++ [entry] }.touch sheet changed)

def addRow (t : Tables) (id : String) (now : Moment) (sheet : String) (record : Record) :
    Except Failure Tables :=
  t.addRowAt id now now sheet record

/-- Any data that has a text can be written into a row. -/
def updateRow (t : Tables) (now : Moment) (sheet row : String) (data : Cell) :
    Except Failure (Tables × RowEntry) := do
  t.require sheet
  let found ← t.requireRow sheet row
  let text ← RowText.dump data
  let rows := t.rows.map fun r =>
    if r.sheet = sheet ∧ r.id = row then { r with data := text, updatedAt := now } else r
  .ok ({ t with rows := rows }.touch sheet now, found)

def deleteRow (t : Tables) (now : Moment) (sheet row : String) : Except Failure Tables := do
  t.require sheet
  let _ ← t.requireRow sheet row
  let rows := t.rows.filter fun r => !(r.sheet = sheet ∧ r.id = row)
  .ok ({ t with rows := rows }.touch sheet now)

end Tables

end PlainSheets

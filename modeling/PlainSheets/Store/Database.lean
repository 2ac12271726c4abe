import PlainSheets.Store.Tables

/-!
Tables behind a connection. After the connection is closed, everything fails.
-/
namespace PlainSheets

structure Database where
  tables : Tables
  isOpen : Bool

namespace Database

def empty : Database := ⟨Tables.empty, true⟩

def close (d : Database) : Database := { d with isOpen := false }

def connect (d : Database) : Except Failure Tables :=
  if d.isOpen then .ok d.tables
  else .error (.storeFailed "Connection Error: Connection already closed!")

def transaction {α : Type} (d : Database) (body : Tables → Except Failure (Tables × α)) :
    Step Database α :=
  Step.guarded d do
    let t ← d.connect
    let (t, a) ← body t
    .ok ({ d with tables := t }, a)

def reads (d : Database) : Reads where
  sheets := do (← d.connect).list
  first := do (← d.connect).first
  byId sheet := do (← d.connect).byId sheet
  byPattern pattern := do (← d.connect).byPattern pattern

theorem reads_of_open {d : Database} (h : d.isOpen = true) :
    d.reads = ⟨d.tables.list, d.tables.first, d.tables.byId, d.tables.byPattern⟩ := by
  have hconnect : d.connect = .ok d.tables := if_pos h
  unfold reads
  rw [hconnect]
  rfl

theorem reads_of_closed {d : Database} (h : d.isOpen ≠ true) :
    d.reads = Reads.broken (.storeFailed "Connection Error: Connection already closed!") := by
  have hconnect : d.connect = .error (.storeFailed "Connection Error: Connection already closed!") :=
    if_neg h
  unfold reads
  rw [hconnect]
  rfl

def create (d : Database) (fresh : Fresh) (now : Moment) (name : Option String)
    (columns : List Column) (rows : List Cell) : Step Database Sheet :=
  match rows.mapM Cell.asRecord with
  | .error f => ⟨d, .error f⟩
  | .ok records => d.transaction fun t => do
    let t ← t.create fresh now name columns records
    .ok (t, ⟨fresh.sheet, name, columns, newRows fresh now 0 records, now, some now⟩)

/-- The sheet is read back after it is written, which can fail by itself. -/
def updateSheet (d : Database) (now : Moment) (sheet : String) (name : Option String)
    (columns : Option (List Column)) : Step Database (Option Sheet) :=
  let written := d.transaction fun t => do
    let t ← t.updateSheet now sheet name columns
    .ok (t, ())
  ⟨written.state, do
    written.result
    written.state.reads.byId sheet⟩

def deleteSheet (d : Database) (sheet : String) : Step Database Unit :=
  d.transaction fun t => do
    let t ← t.deleteSheet sheet
    .ok (t, ())

def addRowAt (d : Database) (fresh : Fresh) (clock : Nat → Moment) (sheet : String) (data : Cell) :
    Step Database Row :=
  match data.asRecord with
  | .error f => ⟨d, .error f⟩
  | .ok record => d.transaction fun t => do
    let t ← t.addRowAt (fresh.row 0) (clock 0) (clock 1) sheet record
    .ok (t, ⟨fresh.row 0, .record record, clock 0, some (clock 1)⟩)

def addRow (d : Database) (fresh : Fresh) (now : Moment) (sheet : String) (data : Cell) :
    Step Database Row :=
  d.addRowAt fresh (fun _ => now) sheet data

/-- The data is turned into a record only after it is written. -/
def updateRow (d : Database) (now : Moment) (sheet row : String) (data : Cell) :
    Step Database Row :=
  let written := d.transaction fun t => t.updateRow now sheet row data
  ⟨written.state, do
    let found ← written.result
    let record ← data.asRecord
    .ok ⟨row, .record record, found.createdAt, some now⟩⟩

def deleteRow (d : Database) (now : Moment) (sheet row : String) : Step Database Unit :=
  d.transaction fun t => do
    let t ← t.deleteRow now sheet row
    .ok (t, ())

def clear (d : Database) : Step Database Unit := d.transaction fun _ => .ok (Tables.empty, ())

def failedWrite (d : Database) : Step Database Unit :=
  d.transaction fun _ => .error (.storeFailed "the transaction failed")

end Database

end PlainSheets

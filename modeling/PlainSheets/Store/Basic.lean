import PlainSheets.Store.Database
import PlainSheets.Store.Memory

/-!
The stores that there are, and what can be done with each of them.
-/
namespace PlainSheets

inductive Store where
  | memory (m : Memory)
  | database (d : Database)
  /-- A store that fails whatever is read from it, and that nothing can be written to. -/
  | broken (failure : Failure)

namespace Store

def reads : Store → Reads
  | memory m => m.reads
  | database d => d.reads
  | broken f => Reads.broken f

private def inMemory {α : Type} (m : Memory) (body : Except Failure (Memory × α)) : Step Store α :=
  (Step.guarded m body).mapState memory

/-- A sheet made while a clock runs. A list reads the clock for every time that it keeps, a database
once. -/
def createAt (s : Store) (fresh : Fresh) (clock : Nat → Moment) (name : Option String)
    (columns : List Column) (rows : List Cell) : Step Store Sheet :=
  match s with
  | memory m => inMemory m (m.createAt fresh clock name columns rows)
  | database d => (d.create fresh (clock 0) name columns rows).mapState database
  | broken _ => ⟨s, .error (.notOffered "create_sheet")⟩

def create (s : Store) (fresh : Fresh) (now : Moment) (name : Option String)
    (columns : List Column) (rows : List Cell) : Step Store Sheet :=
  s.createAt fresh (fun _ => now) name columns rows

def updateSheet (s : Store) (now : Moment) (sheet : String) (name : Option String)
    (columns : Option (List Column)) : Step Store (Option Sheet) :=
  match s with
  | memory m => (inMemory m (m.updateSheet now sheet name columns)).map some
  | database d => (d.updateSheet now sheet name columns).mapState database
  | broken _ => ⟨s, .error (.notOffered "update_sheet")⟩

def deleteSheet (s : Store) (sheet : String) : Step Store Unit :=
  match s with
  | memory m => inMemory m (m.deleteSheet sheet)
  | database d => (d.deleteSheet sheet).mapState database
  | broken _ => ⟨s, .error (.notOffered "delete_sheet")⟩

def addRowAt (s : Store) (fresh : Fresh) (clock : Nat → Moment) (sheet : String) (data : Cell) :
    Step Store Row :=
  match s with
  | memory m => inMemory m (m.addRowAt fresh clock sheet data)
  | database d => (d.addRowAt fresh clock sheet data).mapState database
  | broken _ => ⟨s, .error (.notOffered "add_row")⟩

def addRow (s : Store) (fresh : Fresh) (now : Moment) (sheet : String) (data : Cell) :
    Step Store Row :=
  s.addRowAt fresh (fun _ => now) sheet data

def updateRow (s : Store) (now : Moment) (sheet row : String) (data : Cell) : Step Store Row :=
  match s with
  | memory m => inMemory m (m.updateRow now sheet row data)
  | database d => (d.updateRow now sheet row data).mapState database
  | broken _ => ⟨s, .error (.notOffered "update_row")⟩

def deleteRow (s : Store) (now : Moment) (sheet row : String) : Step Store Unit :=
  match s with
  | memory m => inMemory m (m.deleteRow now sheet row)
  | database d => (d.deleteRow now sheet row).mapState database
  | broken _ => ⟨s, .error (.notOffered "delete_row")⟩

def clear : Store → Step Store Unit
  | memory m => ⟨memory m.clear, .ok ()⟩
  | database d => d.clear.mapState database
  | broken f => ⟨broken f, .error (.notOffered "clear")⟩

def failedWrite : Store → Step Store Unit
  | database d => d.failedWrite.mapState database
  | s => ⟨s, .error (.notOffered "transaction")⟩

def close : Store → Step Store Unit
  | database d => ⟨database d.close, .ok ()⟩
  | s => ⟨s, .error (.notOffered "close")⟩

end Store

end PlainSheets

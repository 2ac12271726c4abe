import PlainSheets.Proofs.Store.Sound

/-!
The sheets that a store holds, whether or not all of them can be read. A list holds its sheets. Tables
hold theirs in the order of their positions, with texts for the data of their rows; to read them is to
turn each text into a record.
-/
namespace PlainSheets

def Row.load (f : Cell → Except Failure Cell) (r : Row) : Except Failure Row := do
  let data ← f r.data
  .ok { r with data := data }

def Sheet.load (f : Cell → Except Failure Cell) (s : Sheet) : Except Failure Sheet := do
  let rows ← s.rows.mapM (Row.load f)
  .ok { s with rows := rows }

def RowText.loadCell (c : Cell) : Except Failure Cell := (load c.text?).map .record

namespace Tables

def heldRow (e : RowEntry) : Row := ⟨e.id, .text e.data, e.createdAt, some e.updatedAt⟩

def heldSheet (t : Tables) (e : SheetEntry) : Sheet :=
  ⟨e.id, some e.name, (orderColumns (t.columns.filter fun c => c.sheet = e.id)).map readColumn,
    (orderRows (t.rows.filter fun r => r.sheet = e.id)).map heldRow, e.createdAt, some e.updatedAt⟩

def held (t : Tables) : List Sheet := (orderSheets t.sheets).map t.heldSheet

end Tables

def Store.held : Store → List Sheet
  | memory m => m.sheets
  | database d => d.tables.held
  | broken _ => []

/-! What is read of a row and of a sheet. -/

section Load

variable {f : Cell → Except Failure Cell} {r r' : Row} {s s' : Sheet}

theorem Row.load_eq_ok : r.load f = .ok r' ↔ ∃ data, f r.data = .ok data ∧ r' = { r with data } := by
  rw [Row.load, bind_eq_ok]
  simp only [Except.ok.injEq, eq_comm]

theorem Sheet.load_eq_ok : s.load f = .ok s' ↔
    ∃ rows, s.rows.mapM (Row.load f) = .ok rows ∧ s' = { s with rows } := by
  rw [Sheet.load, bind_eq_ok]
  simp only [Except.ok.injEq, eq_comm]

theorem Row.id_of_load (h : r.load f = .ok r') : r'.id = r.id := by
  obtain ⟨data, -, rfl⟩ := Row.load_eq_ok.mp h
  rfl

theorem Sheet.id_of_load (h : s.load f = .ok s') : s'.id = s.id := by
  obtain ⟨rows, -, rfl⟩ := Sheet.load_eq_ok.mp h
  rfl

end Load

namespace Tables

variable {t : Tables}

theorem InOrder.heldSheet_eq (h : t.InOrder) (e : SheetEntry) : t.heldSheet e =
    ⟨e.id, some e.name, (t.columnsOf e.id).map readColumn, (t.rowsOf e.id).map heldRow, e.createdAt,
      some e.updatedAt⟩ := by
  have hcolumns := h.orderColumns_eq e.id
  have hrows := h.orderRows_eq e.id
  rw [columnsOf] at hcolumns
  rw [rowsOf] at hrows
  rw [heldSheet, hcolumns, hrows, columnsOf, rowsOf]

theorem InOrder.held_eq (h : t.InOrder) : t.held = t.sheets.map t.heldSheet := by
  rw [held, h.orderSheets]

theorem load_heldRow (e : RowEntry) : (heldRow e).load RowText.loadCell = readRow e := by
  have htext : (heldRow e).data.text? = some e.data := rfl
  rw [Row.load, readRow, RowText.loadCell, htext]
  cases RowText.load (some e.data) <;> rfl

theorem InOrder.load_heldSheet (h : t.InOrder) (e : SheetEntry) :
    (t.heldSheet e).load RowText.loadCell = t.readSheet e := by
  rw [h.heldSheet_eq, Sheet.load, readSheet]
  simp only [List.mapM_map, Function.comp_def, load_heldRow]

theorem InOrder.list_eq_ok_iff (h : t.InOrder) {sheets : List Sheet} :
    t.list = .ok sheets ↔ t.held.mapM (Sheet.load RowText.loadCell) = .ok sheets := by
  rw [list_eq_ok h, h.held_eq, List.mapM_map]
  simp only [Function.comp_def, h.load_heldSheet]

end Tables

end PlainSheets

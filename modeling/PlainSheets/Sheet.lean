import PlainSheets.Cell.Same

/-!
Sheets: named lists of rows with typed columns. The columns describe the rows and do not bound them:
row data may have more or fewer fields, or be no record at all.
-/
namespace PlainSheets

structure Column where
  name : Option String
  type : Kind
  width : Option Int
  deriving DecidableEq

structure Row where
  id : String
  data : Cell
  createdAt : Moment
  updatedAt : Option Moment

structure Sheet where
  id : String
  name : Option String
  columns : List Column
  rows : List Row
  createdAt : Moment
  updatedAt : Option Moment

def nameText (name : Option String) : String := name.getD "None"

namespace Row

def fields (r : Row) : Record := r.data.fields

/-- The cell in a column. Only the exact name counts. -/
def cell (r : Row) (column : Option String) : Cell := (column.bind r.fields.get?).getD .null

def same (r t : Row) : Except Failure Bool := do
  if ← r.data.same t.data then
    .ok (r.id == t.id && r.createdAt.sameAs t.createdAt && Moment.sameTimes r.updatedAt t.updatedAt)
  else .ok false

def sameAll : List Row → List Row → Except Failure Bool
  | r :: rs, t :: ts => do
    if ← r.same t then sameAll rs ts else .ok false
  | _, _ => .ok true

end Row

namespace Sheet

def columnsOf (s : Sheet) (type : Kind) : List Column := s.columns.filter fun c => c.type = type

def findRow? (s : Sheet) (row : String) : Option Row := s.rows.find? fun r => r.id = row

def same (s t : Sheet) : Except Failure Bool := do
  if s.name = t.name ∧ s.columns = t.columns ∧ s.rows.length = t.rows.length then
    if ← Row.sameAll s.rows t.rows then
      .ok (s.id == t.id && s.createdAt.sameAs t.createdAt &&
        Moment.sameTimes s.updatedAt t.updatedAt)
    else .ok false
  else .ok false

end Sheet

end PlainSheets

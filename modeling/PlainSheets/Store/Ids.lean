import PlainSheets.Store.Basic

/-!
Ids in the order in which sheets and rows are made. What fails to be made takes no id.
-/
namespace PlainSheets

structure IdSource where
  sheetName : Nat → String
  rowName : Nat → String
  sheets : Nat := 0
  rows : Nat := 0

namespace IdSource

def fresh (ids : IdSource) : Fresh := ⟨ids.sheetName ids.sheets, fun i => ids.rowName (ids.rows + i)⟩

def afterSheet (ids : IdSource) (made : Except Failure Sheet) : IdSource :=
  match made with
  | .ok s => { ids with sheets := ids.sheets + 1, rows := ids.rows + s.rows.length }
  | .error _ => ids

def afterRow (ids : IdSource) (made : Except Failure Row) : IdSource :=
  match made with
  | .ok _ => { ids with rows := ids.rows + 1 }
  | .error _ => ids

end IdSource

end PlainSheets

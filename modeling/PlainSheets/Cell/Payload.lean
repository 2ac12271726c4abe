import PlainSheets.Cell.Json
import PlainSheets.Cell.Uniform

/-!
What can be written as JSON beside cells: boxed values, and tables, which are written as a list of
their rows. A boxed value has one type throughout, as a column of a typed table has.
-/
namespace PlainSheets

inductive Payload where
  | cell (c : Cell)
  | list (items : List Payload)
  | record (fields : List (String × Payload))
  /-- A value in a box is written as the value. -/
  | boxed (c : Cell)
  /-- Columns of equal length, each of one type. -/
  | table (columns : List (String × List Cell))
  /-- Columns of equal length that hold values of any kind. -/
  | frame (columns : List (String × List Payload))

instance : Inhabited Payload := ⟨.cell .null⟩

namespace Payload

def rowAt (columns : List (String × List Json)) (i : Nat) : Json :=
  .object (columns.foldl (fun fields c => Json.putField c.1 (c.2[i]?.getD .null) fields) [])

def rows (columns : List (String × List Json)) : List Json :=
  match columns with
  | [] => []
  | (_, cells) :: _ => (List.range cells.length).map (rowAt columns)

mutual

def toJson : Payload → Json
  | cell c => c.toJson
  | list items => .list (itemsToJson items)
  | record fs => .object (fieldsToJson fs)
  | boxed c => ((Cell.uniform [c]).head?.getD .null).toJson
  | table columns => .list (rows (columns.map fun c => (c.1, Cell.itemsToJson (Cell.uniform c.2))))
  | frame columns => .list (rows (columnsToJson columns))

def itemsToJson : List Payload → List Json
  | [] => []
  | p :: ps => toJson p :: itemsToJson ps

def fieldsToJson : List (String × Payload) → List (String × Json)
  | [] => []
  | (k, p) :: fs => (k, toJson p) :: fieldsToJson fs

def columnsToJson : List (String × List Payload) → List (String × List Json)
  | [] => []
  | (k, ps) :: cs => (k, itemsToJson ps) :: columnsToJson cs

end

@[simp] theorem itemsToJson_eq (items : List Payload) : itemsToJson items = items.map toJson := by
  induction items with
  | nil => rfl
  | cons p items ih => rw [itemsToJson, ih, List.map_cons]

@[simp] theorem fieldsToJson_eq (fields : List (String × Payload)) :
    fieldsToJson fields = fields.map fun f => (f.1, f.2.toJson) := by
  induction fields with
  | nil => rfl
  | cons f fields ih => rw [fieldsToJson, ih, List.map_cons]

@[simp] theorem columnsToJson_eq (columns : List (String × List Payload)) :
    columnsToJson columns = columns.map fun col => (col.1, col.2.map toJson) := by
  induction columns with
  | nil => rfl
  | cons col columns ih => rw [columnsToJson, ih, itemsToJson_eq, List.map_cons]

mutual

def jsonFailure? : Payload → Option Failure
  | cell c => c.jsonFailure?
  | list items => itemsFailure? items
  | record fs => fieldsFailure? fs
  | boxed c => Cell.itemsFailure? (Cell.uniform [c])
  | table columns => Cell.itemsFailure? (columns.flatMap fun c => Cell.uniform c.2)
  | frame columns => columnsFailure? columns

def itemsFailure? : List Payload → Option Failure
  | [] => none
  | p :: ps => (jsonFailure? p).or (itemsFailure? ps)

def fieldsFailure? : List (String × Payload) → Option Failure
  | [] => none
  | (_, p) :: fs => (jsonFailure? p).or (fieldsFailure? fs)

def columnsFailure? : List (String × List Payload) → Option Failure
  | [] => none
  | (_, ps) :: cs => (itemsFailure? ps).or (columnsFailure? cs)

end

def asJson (p : Payload) : Except Failure Json := p.jsonFailure?.elim (.ok p.toJson) .error

def dumps (margin : Option Nat) (p : Payload) : Except Failure String :=
  p.asJson.map (Json.toText ⟨margin, true⟩)

end Payload

end PlainSheets

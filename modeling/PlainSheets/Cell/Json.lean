import PlainSheets.Cell.Writable
import PlainSheets.Json.Basic

/-!
The JSON form of cells: dates as ISO text, null for whatever JSON has no number for, and the shown
text of all that JSON has no form for. A bundle has no JSON form, nor has an integer without a text.
-/
namespace PlainSheets

namespace Json

def ofReal (x : Binary64) : Json := if x.isFinite then .real x else .null

end Json

namespace Atom

def toJson : Atom → Json
  | null => .null
  | flag b => .flag b
  | integer n => .integer n
  | real x => Json.ofReal x
  | text s => .text s
  | moment m => .text m.iso
  | date d => .text (String.ofList d.iso)
  | noMoment => .null
  | clock c => .text (String.ofList c.iso)
  | sized (.integer _ n) => .integer n
  | sized (.real _ x) => Json.ofReal x
  | sized (.flag b) => .flag b
  | sized (.text s) => .text s
  | a => .text a.display

end Atom

namespace Cell

mutual

/-- The JSON form. Of fields whose keys are shown alike the last one counts. -/
def toJson : Cell → Json
  | atom a => a.toJson
  | list items => .list (itemsToJson items)
  | record fs => .object (fieldsToJson [] fs)

def itemsToJson : List Cell → List Json
  | [] => []
  | c :: cs => toJson c :: itemsToJson cs

def fieldsToJson (done : List (String × Json)) : List (Atom × Cell) → List (String × Json)
  | [] => done
  | (k, c) :: fs => fieldsToJson (Json.putField k.display (toJson c) done) fs

end

mutual

def ofJson : Json → Cell
  | .null => .null
  | .flag b => .flag b
  | .integer n => .integer n
  | .real x => .real x
  | .text s => .text s
  | .list items => .list (ofJsonItems items)
  | .object fs => .record (ofJsonFields fs)

def ofJsonItems : List Json → List Cell
  | [] => []
  | j :: js => ofJson j :: ofJsonItems js

def ofJsonFields : List (String × Json) → List (Atom × Cell)
  | [] => []
  | (k, j) :: fs => (.text k, ofJson j) :: ofJsonFields fs

end

/-! What keeps a cell from having a JSON form: the first thing that fails on the way through it. -/

mutual

def jsonFailure? : Cell → Option Failure
  | atom (.bundle _) => some .manyValues
  | atom a => a.textFailure?
  | list items => itemsFailure? items
  | record fs => fieldsFailure? fs

def itemsFailure? : List Cell → Option Failure
  | [] => none
  | c :: cs => (jsonFailure? c).or (itemsFailure? cs)

def fieldsFailure? : List (Atom × Cell) → Option Failure
  | [] => none
  | (k, c) :: fs => k.textFailure?.or ((jsonFailure? c).or (fieldsFailure? fs))

end

def asJson (c : Cell) : Except Failure Json := c.jsonFailure?.elim (.ok c.toJson) .error

@[simp] theorem itemsToJson_eq (items : List Cell) : itemsToJson items = items.map toJson := by
  induction items with
  | nil => rfl
  | cons c items ih => rw [itemsToJson, ih, List.map_cons]

@[simp] theorem ofJsonItems_eq (items : List Json) : ofJsonItems items = items.map ofJson := by
  induction items with
  | nil => rfl
  | cons j items ih => rw [ofJsonItems, ih, List.map_cons]

@[simp] theorem ofJsonFields_eq (fields : List (String × Json)) :
    ofJsonFields fields = fields.map fun f => (.text f.1, ofJson f.2) := by
  induction fields with
  | nil => rfl
  | cons f fields ih => rw [ofJsonFields, ih, List.map_cons]

end Cell

end PlainSheets

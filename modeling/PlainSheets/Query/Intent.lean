import PlainSheets.Cell.Text

/-!
What a question asks for: rows of a sheet that pass filters, or their number.
-/
namespace PlainSheets

inductive Action where
  | find
  | count
  | other (name : String)
  deriving DecidableEq

def Action.name : Action → String
  | find => "find"
  | count => "count"
  | other name => name

/-- How a cell is compared with a threshold. No number passes a comparison of another name. -/
inductive Comparator where
  | greater
  | less
  | other (name : String)
  deriving DecidableEq

namespace Comparator

def name : Comparator → String
  | greater => "gt"
  | less => "lt"
  | other name => name

def ofName (name : String) : Comparator :=
  if name = "gt" then greater else if name = "lt" then less else other name

end Comparator

inductive Threshold where
  | integer (n : Int)
  | real (x : Binary64)
  deriving DecidableEq

namespace Threshold

def toCell : Threshold → Cell
  | integer n => .integer n
  | real x => .real x

def compare? (x : Binary64) : Threshold → Option Ordering
  | integer n => x.compareInt? n
  | real y => x.compare? y

end Threshold

structure Comparison where
  comparator : Comparator
  threshold : Threshold
  deriving DecidableEq

namespace Comparison

def holds (c : Comparison) (x : Binary64) : Bool :=
  match c.comparator with
  | .greater => c.threshold.compare? x == some .gt
  | .less => c.threshold.compare? x == some .lt
  | .other _ => false

end Comparison

inductive Condition where
  | compare (c : Comparison)
  /-- Equality of texts, case ignored. No text stands for the word that shows it. -/
  | equals (text : Option String)
  deriving DecidableEq

structure SortSpec where
  field : String
  direction : Int
  deriving DecidableEq

namespace SortSpec

def descending (s : SortSpec) : Bool := s.direction == -1

end SortSpec

abbrev Filters := List (String × Condition)

namespace Filters

def put (field : String) (c : Condition) : Filters → Filters
  | [] => [(field, c)]
  | (k, d) :: rest => if k = field then (k, c) :: rest else (k, d) :: put field c rest

end Filters

def defaultLimit : Int := 100

structure Intent where
  action : Action := .find
  sheetName : Option String := none
  filters : Filters := []
  fields : List String := []
  limit : Int := defaultLimit
  sort : Option SortSpec := none
  /-- How sure a model is that the text is a question at all. -/
  confidence : Option Binary64 := none
  /-- A model's own words for the question. -/
  understanding : Option String := none
  deriving DecidableEq

def equalityText (text : Option String) : String := text.getD "None"

namespace Condition

def asksText : Condition → Bool
  | compare _ => false
  | equals _ => true

def toCell : Condition → Cell
  | compare c => .named [("$" ++ c.comparator.name, c.threshold.toCell)]
  | equals (some text) => .text text
  | equals none => .null

def describe (field : String) : Condition → String
  | compare c =>
    field ++ (if c.comparator = .greater then " > " else " < ") ++ c.threshold.toCell.display
  | equals text => field ++ " = '" ++ equalityText text ++ "'"

end Condition

def Cell.ofText? : Option String → Cell
  | some s => .text s
  | none => .null

namespace SortSpec

def toCell (s : SortSpec) : Cell :=
  .named [("field", .text s.field), ("direction", .integer s.direction)]

end SortSpec

namespace Intent

def filtersCell (i : Intent) : Cell := .named (i.filters.map fun f => (f.1, f.2.toCell))

def sortCell (i : Intent) : Cell := (i.sort.map SortSpec.toCell).getD .null

def toCell (i : Intent) : Cell :=
  .named <|
    [("action", .text i.action.name), ("sheetName", .ofText? i.sheetName),
      ("filters", i.filtersCell), ("fields", .list (i.fields.map Cell.text)),
      ("limit", .integer i.limit), ("sort", i.sortCell)] ++
    (match i.confidence with
      | some x => [("confidence", .real x)]
      | none => []) ++
    match i.understanding with
      | some s => [("enhancedUnderstanding", .text s)]
      | none => []

def describe (i : Intent) : String :=
  let conditions := i.filters.map fun f => f.2.describe f.1
  " ".intercalate <|
    [i.action.name ++ " rows"] ++
    (match i.sheetName with
      | some s => if s.isEmpty then [] else ["in sheet matching '" ++ s ++ "'"]
      | none => []) ++
    (if conditions.isEmpty then [] else ["where " ++ " and ".intercalate conditions]) ++
    (match i.sort with
      | some s => ["sorted by " ++ s.field ++ (if s.descending then " desc" else " asc")]
      | none => []) ++
    (if i.fields.isEmpty then [] else ["fields " ++ ", ".intercalate i.fields]) ++
    if i.action = .find then ["limit " ++ Text.integer i.limit] else []

end Intent

end PlainSheets

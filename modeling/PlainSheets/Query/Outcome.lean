import PlainSheets.Cell.Order
import PlainSheets.Cell.Record
import PlainSheets.Cell.Writable
import PlainSheets.Query.Intent
import PlainSheets.Sheet

/-!
What an intent gives on a sheet: the rows that pass its filters, sorted, cut off and projected, or
their number.
-/
namespace PlainSheets

namespace Row

/-- The cell that a field name stands for. Data that is no record has no fields. -/
def lookup (r : Row) (field : String) : Cell := Record.lookup r.fields field

def find (r : Row) (field : String) : Except Failure Cell :=
  Record.searched r.fields [field] (r.lookup field)

def passes (r : Row) (field : String) : Condition → Bool
  | .compare c =>
    match (r.lookup field).number? with
    | some x => c.holds x
    | none => false
  | .equals text =>
    let cell := r.lookup field
    !cell.isMissing && Text.lower cell.asText == Text.lower (equalityText text)

def passesAll (r : Row) (filters : Filters) : Bool := filters.all fun f => r.passes f.1 f.2

def test (r : Row) (field : String) (c : Condition) : Except Failure Bool := do
  let cell ← r.find field
  if c.asksText && !cell.isWritable then .error (.integerTooLong none) else .ok (r.passes field c)

/-- Filters are tried in order, up to the first one that the row does not pass. -/
def testAll (r : Row) : Filters → Except Failure Bool
  | [] => .ok true
  | (field, c) :: filters => do
    if ← r.test field c then r.testAll filters else .ok false

def keyed (field : String) (r : Row) : Except Failure (SortKey × Row) := do
  let cell ← r.find field
  let key ← cell.sortKey
  .ok (key, r)

def projected (names : List String) (r : Row) : Except Failure Record :=
  Record.searched r.fields names (Record.project r.fields names)

end Row

def matchingRows (filters : Filters) : List Row → Except Failure (List Row)
  | [] => .ok []
  | r :: rows => do
    let passes ← r.testAll filters
    let rest ← matchingRows filters rows
    .ok (if passes then r :: rest else rest)

/-- Values in the order of their keys. Values with equal keys stay as they were, in both
directions. -/
def sortByKey {α : Type} (descending : Bool) (keyed : List (SortKey × α)) : List (SortKey × α) :=
  if descending then keyed.mergeSort fun a b => b.1.le a.1 else keyed.mergeSort fun a b => a.1.le b.1

def sortRows (spec : SortSpec) (rows : List Row) : Except Failure (List Row) := do
  let keyed ← rows.mapM (Row.keyed spec.field)
  .ok ((sortByKey spec.descending keyed).map Prod.snd)

inductive Outcome where
  /-- No sheet has the name that was asked for. -/
  | noSheet
  | counted (sheet : Option String) (intent : Intent) (count : Nat)
  | found (sheet : Option String) (intent : Intent) (rows : List Record)

namespace Outcome

def limited {α : Type} (limit : Int) (rows : List α) : List α := rows.take limit.toNat

def ofIntent (i : Intent) : Option Sheet → Except Failure Outcome
  | none => .ok noSheet
  | some sheet => do
    let matching ← matchingRows i.filters sheet.rows
    if i.action = .count then .ok (counted sheet.name i matching.length)
    else do
      let sorted ← match i.sort with
        | some spec => sortRows spec matching
        | none => .ok matching
      let rows ← (limited i.limit sorted).mapM (Row.projected i.fields)
      .ok (found sheet.name i rows)

def message : Outcome → String
  | noSheet => "No matching sheet found. Please specify a valid sheet name."
  | counted sheet _ count => s!"Found {count} matching rows in \"" ++ nameText sheet ++ "\"."
  | found sheet _ _ => "Query results from \"" ++ nameText sheet ++ "\""

def operation (sheet : Option String) (i : Intent) (count : Nat) : List (String × Cell) :=
  [("operation", .text "find"), ("collection", .text "Data"),
    ("filter", .named [("sheetName", .ofText? sheet)]), ("appliedFilters", i.filtersCell),
    ("resultCount", .integer count)]

def toCell (o : Outcome) : Cell :=
  match o with
  | noSheet => .named [("type", .text "message"), ("message", .text o.message)]
  | counted sheet i count =>
    .named [("type", .text "message"), ("message", .text o.message),
      ("database", .named (operation sheet i count))]
  | found sheet i rows =>
    .named [("type", .text "data"), ("message", .text o.message),
      ("data", .list (rows.map .record)),
      ("database", .named (operation sheet i rows.length ++
        [("limit", .integer i.limit), ("sort", i.sortCell)]))]

def rows : Outcome → List Record
  | found _ _ rows => rows
  | _ => []

end Outcome

/-- Records as columns of text. A record without a key leaves a gap in its column. -/
structure TextTable where
  columns : List (String × List (Option String))

namespace TextTable

def addKeys (keys : List Atom) : List Atom → List Atom
  | [] => keys
  | k :: ks => addKeys (if keys.any (Atom.sameKey k) then keys else keys ++ [k]) ks

def keys (records : List Record) : List Atom :=
  records.foldl (fun keys r => addKeys keys (Record.keys r)) []

def column (records : List Record) (key : Atom) : String × List (Option String) :=
  (key.display, records.map fun r => (r.find? fun f => f.1.sameKey key).map fun f => f.2.asText)

def ofRecords (records : List Record) : TextTable := ⟨(keys records).map (column records)⟩

def tell (records : List Record) : Except Failure TextTable :=
  if records.all fun r => r.all fun f => f.2.isWritable then .ok (ofRecords records)
  else .error (.integerTooLong none)

end TextTable

def Outcome.table (o : Outcome) : Except Failure TextTable := TextTable.tell o.rows

end PlainSheets

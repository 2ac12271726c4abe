import PlainSheets.Grid.Delimited.Records

/-!
The dialect of a text, found by trying. A dialect fits if from some record on all have the same number
of cells, and none before had more; of those that fit, the one with more columns or more records is
taken, and quotes that are used count for more than either. A dialect with comments fits only texts that
have some.
-/
namespace PlainSheets.Delimited

structure Fit where
  width : Nat
  /-- The records from the first one of full width on. -/
  records : List (List String)
  hasQuotes : Bool

namespace Fit

structure Widest where
  width : Nat
  records : List (List String)
  ragged : Bool

def Widest.add (w : Widest) (record : List String) : Widest :=
  if w.width < record.length then ⟨record.length, [record], false⟩
  else ⟨w.width, record :: w.records, w.ragged || record.length < w.width⟩

/-- Lines without anything on them are skipped, except that in a single column they are gaps. -/
def ofReading? (d : Dialect) (r : Reading) : Option Fit :=
  let lines := r.records.reverse
  let w := (lines.filter fun cells => !cells.isEmpty).foldl Widest.add ⟨1, [], false⟩
  if r.broken || w.ragged || (d.comments && !r.hasComments) then none
  else
    let records := if w.width = 1 then lines.map fun cells => if cells.isEmpty then [""] else cells
      else w.records.reverse
    some ⟨w.width, records, r.hasQuotes⟩

def replaces (new old : Fit) : Bool :=
  (new.hasQuotes || !old.hasQuotes) &&
    (new.hasQuotes || (old.width < 2 && old.width < new.width) ||
      (old.records.length < new.records.length && old.width ≤ new.width) ||
      (old.records.length = new.records.length && old.width < new.width))

end Fit

def separators : List Char := [',', '|', ';', '\t']

def quotings : List (Option Char × Option Char) :=
  [(some '"', some '"'), (some '"', some '\\'), (some '\'', some '\\'), (none, none)]

def dialects : List Dialect :=
  [false, true].flatMap fun comments =>
    quotings.flatMap fun (quote, escape) => separators.map fun s => ⟨s, quote, escape, comments⟩

def fit? (text : List Char) : Option Fit :=
  dialects.foldl (fun best d =>
    match best, Fit.ofReading? d (d.read text) with
    | some old, some new => if new.replaces old then some new else some old
    | none, new => new
    | old, none => old) none

end PlainSheets.Delimited

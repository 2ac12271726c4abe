import PlainSheets.Grid.File
import PlainSheets.Store.Basic

/-!
Sheets from files.
-/
namespace PlainSheets.Store

def importFile (s : Store) (fresh : Fresh) (now : Moment) (path : String) (entry : PathEntry)
    (name : Option String) : Step Store Sheet :=
  match Grid.ofFile path entry with
  | .error f => ⟨s, .error f⟩
  | .ok grid =>
    let given := name.getD ""
    let title := if given.isEmpty then FileName.stem path else given
    s.create fresh now (some title) grid.sheetColumns (grid.records.map .record)

def limitCeiling : Int := 9223372036854775808

/-- The records of the grid in a file, at most a given number of them. Only a database reads files. -/
def fileRecords (s : Store) (content : FileContent) (format : String) (limit : Option Int) :
    Except Failure (List Record) :=
  match s with
  | database d =>
    match FileFormat.ofName? format with
    | none => .error (.unknownFormat format)
    | some f => do
      let _ ← d.connect
      let grid ← content.read f
      match limit with
      | none => .ok grid.records
      | some n =>
        if n < 0 ∨ limitCeiling ≤ n then .error (.storeFailed "Binder Error: LIMIT is out of range")
        else .ok (grid.take n.toNat).records
  | _ => .error (.notOffered "read_file")

end PlainSheets.Store

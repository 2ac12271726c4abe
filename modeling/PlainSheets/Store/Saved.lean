import PlainSheets.Json.Reader
import PlainSheets.Store.Tables

/-!
Tables as the text of a file: a JSON object with a list of entries per table, each entry a list of its
fields in order.
-/
namespace PlainSheets

structure EntryForm (α : Type) where
  write : α → List Json
  read : List Json → Option α

namespace EntryForm

def moment (m : Moment) : Json := .text m.iso

def moment? (s : String) : Option Moment := (Moment.ofIso s).toOption

def sheets : EntryForm SheetEntry where
  write e := [.text e.id, .text e.name, .integer e.position, moment e.createdAt, moment e.updatedAt]
  read
    | [.text id, .text name, .integer position, .text created, .text updated] => do
      some ⟨id, name, position.toNat, ← moment? created, ← moment? updated⟩
    | _ => none

def columns : EntryForm ColumnEntry where
  write e := [.text e.sheet, .integer e.position, .text e.name, .text e.type.name,
    (e.width.map Json.integer).getD .null]
  read
    | [.text sheet, .integer position, .text name, .text type, .integer width] =>
      some ⟨sheet, position.toNat, name, Kind.ofName type, some width⟩
    | [.text sheet, .integer position, .text name, .text type, .null] =>
      some ⟨sheet, position.toNat, name, Kind.ofName type, none⟩
    | _ => none

def rows : EntryForm RowEntry where
  write e := [.text e.id, .text e.sheet, .integer e.position, .text e.data, moment e.createdAt,
    moment e.updatedAt]
  read
    | [.text id, .text sheet, .integer position, .text data, .text created, .text updated] => do
      some ⟨id, sheet, position.toNat, data, ← moment? created, ← moment? updated⟩
    | _ => none

def writeAll {α : Type} (form : EntryForm α) (entries : List α) : Json :=
  .list (entries.map fun e => .list (form.write e))

def readAll {α : Type} (form : EntryForm α) : Json → Option (List α)
  | .list items => items.mapM fun item =>
    match item with
    | .list fields => form.read fields
    | _ => none
  | _ => none

end EntryForm

namespace Tables

def toJson (t : Tables) : Json :=
  .object [("sheets", EntryForm.sheets.writeAll t.sheets),
    ("columns", EntryForm.columns.writeAll t.columns), ("rows", EntryForm.rows.writeAll t.rows)]

def ofJson : Json → Option Tables
  | .object [("sheets", sheets), ("columns", columns), ("rows", rows)] => do
    some ⟨← EntryForm.sheets.readAll sheets, ← EntryForm.columns.readAll columns,
      ← EntryForm.rows.readAll rows⟩
  | _ => none

def toText (t : Tables) : String := t.toJson.toText Json.compactStyle

def ofText? (s : String) : Option Tables := (Json.read s).toOption.bind ofJson

end Tables

end PlainSheets

import PlainSheets.Cell.Order
import PlainSheets.Cell.Record
import PlainSheets.Json.Reader

/-!
Row data as stored text: JSON on one line in ASCII, with dates as `\x7b"$date": "…"\x7d`. What is read
back has its dates in UTC.
-/
namespace PlainSheets

namespace RowText

def dateTag : String := "$date"

def tagged (text : String) : Json := .object [(dateTag, .text text)]

def checkInteger (n : Int) : Except Failure Int :=
  if IsShort n then .ok n else .error (.integerTooLong none)

def keyName : Atom → Except Failure String
  | .text s => .ok s
  | .sized (.text s) => .ok s
  | .null => .ok "null"
  | .flag b => .ok (if b then "true" else "false")
  | .integer n => (checkInteger n).map Text.integer
  | .real x => .ok (String.ofList (Json.realText x))
  | .sized (.real .double x) => .ok (String.ofList (Json.realText x))
  | a => .error (.unwritableKey a.typeName)

def encodeAtom : Atom → Except Failure Json
  | .null => .ok .null
  | .flag b => .ok (.flag b)
  | .integer n => (checkInteger n).map .integer
  | .real x => .ok (.real x)
  | .text s => .ok (.text s)
  | .moment m => .ok (tagged m.iso)
  | .date d => .ok (tagged (String.ofList d.iso))
  | .noMoment => .ok (tagged "NaT")
  | .sized (.integer _ n) => (checkInteger n).map .integer
  | .sized (.real _ x) => .ok (.real x)
  | .sized (.flag b) => .ok (.flag b)
  | .sized (.text s) => .ok (.text s)
  | .bundle _ => .error .manyValues
  | a => .error (.unwritable a.typeName)

mutual

/-- The stored form of a cell. Fields that are stored under one name are all kept. -/
def encode : Cell → Except Failure Json
  | .atom a => encodeAtom a
  | .list items => (encodeItems items).map .list
  | .record fs => (encodeFields fs).map .object

def encodeItems : List Cell → Except Failure (List Json)
  | [] => .ok []
  | c :: cs => do
    let j ← encode c
    let js ← encodeItems cs
    .ok (j :: js)

def encodeFields : List (Atom × Cell) → Except Failure (List (String × Json))
  | [] => .ok []
  | (k, c) :: fs => do
    let name ← keyName k
    let j ← encode c
    let js ← encodeFields fs
    .ok ((name, j) :: js)

end

def dump (c : Cell) : Except Failure String := (encode c).map (Json.toText Json.compactStyle)

/-- A map with the date tag alone is a date; every other map is a record. -/
def decodeObject : List (String × Cell) → Except Failure Cell
  | [(key, value)] =>
    if key = dateTag then
      match value with
      | .text s =>
        match Moment.ofIso s with
        | .ok m => m.utc.map .moment
        | .error e => .error (.notIso e)
      | _ => .error .dateNotText
    else .ok (.record [(.text key, value)])
  | fields => .ok (.record (fields.map fun f => (.text f.1, f.2)))

def builder : Json.Builder Cell :=
  ⟨.null, .flag, .integer, .real, .text, .list, decodeObject⟩

/-- The record of a stored text. Without text, or with a text of something else, it is empty. -/
def load (text : Option String) : Except Failure Record :=
  match text with
  | none => .ok []
  | some s => if s.isEmpty then .ok [] else (Json.readWith builder s).map Cell.fields

end RowText

end PlainSheets
